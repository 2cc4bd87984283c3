import Mathlib.Data.Finset.Card
import Zrt.Lane.Safety

/-! What a lane lets the host touch, and its asynchronous runs. -/
namespace Zrt.Lane.Access

/-- `INPUTS`, `OUTPUTS` and whether the outputs are CUDA-resident, fixed when a lane is built. -/
structure Arity where
  inputs : Nat
  outputs : Nat
  deviceOutputs : Bool

inductive Buffer where
  | input (i : Nat)
  | output (i : Nat)
  | deviceOutput (i : Nat)
  deriving DecidableEq

/-- The buffers an accessor borrows from the lane. -/
structure Grant where
  buffers : List Buffer
  mutable : Bool
  deriving DecidableEq

variable (f : Features) (a : Arity) (l : ServingLane)

def Arity.allInputs : List Buffer := (List.range a.inputs).map .input

def Arity.allOutputs : List Buffer := (List.range a.outputs).map .output

def indexed (kind : String) (i count : Nat) (grant : Grant) : Except Error Grant :=
  if i < count then .ok grant
  else .error (.local s!"zrt: static I/O lane {kind} index {i} out of range")

/-- The refusal of host access to CUDA-resident outputs. -/
def hostOutputs (message : String) : Except Error Unit :=
  if f.cuda ∧ a.deviceOutputs then .error (.local message) else .ok ()

def inputs : Grant := ⟨a.allInputs, false⟩

def inputsMut : Except Error Grant := (ensureIdle l).2.map fun _ => ⟨a.allInputs, true⟩

def outputs : Except Error Grant :=
  (hostOutputs f a "zrt: lane outputs are CUDA-resident; use device_output").map fun _ =>
    ⟨a.allOutputs, false⟩

def outputsMut : Except Error Grant :=
  (ensureIdle l).2.bind fun _ =>
  (hostOutputs f a "zrt: lane outputs are CUDA-resident; use device_output").map fun _ =>
    ⟨a.allOutputs, true⟩

def input (i : Nat) : Except Error Grant := indexed "input" i a.inputs ⟨[.input i], false⟩

def inputMut (i : Nat) : Except Error Grant :=
  (ensureIdle l).2.bind fun _ => indexed "input" i a.inputs ⟨[.input i], true⟩

def output (i : Nat) : Except Error Grant :=
  (hostOutputs f a "zrt: lane output is CUDA-resident; use device_output").bind fun _ =>
    indexed "output" i a.outputs ⟨[.output i], false⟩

def outputMut (i : Nat) : Except Error Grant :=
  (ensureIdle l).2.bind fun _ =>
  (hostOutputs f a "zrt: lane output is CUDA-resident; use device_output").bind fun _ =>
    indexed "output" i a.outputs ⟨[.output i], true⟩

def fillInputs {α : Type} (fill : Grant → Except Error α) : Except Error α :=
  (ensureIdle l).2.bind fun _ => fill ⟨a.allInputs, true⟩

def inputMutAt (idx : Nat) : Except Error Grant := inputMut a l idx

def deviceOutput (i : Nat) : Except Error Grant :=
  if l.inFlight then
    .error (.local "zrt: device output is unavailable before lane completion")
  else if f.cuda ∧ a.deviceOutputs ∧ i < a.outputs then .ok ⟨[.deviceOutput i], false⟩
  else .error (.local "zrt: lane has no CUDA-resident output at this index")

def outputAt (idx : Nat) : Except Error Grant := output f a idx

def inputBuffer (i : Nat) : Except Error Grant := indexed "input" i a.inputs ⟨[.input i], false⟩

def outputBuffer (i : Nat) : Except Error Grant :=
  (hostOutputs f a "zrt: lane output is CUDA-resident; use device_output").bind fun _ =>
    indexed "output" i a.outputs ⟨[.output i], false⟩

/-- The public accessors of a lane's buffers; `device_output` exists with the `cuda` feature. -/
inductive Accessor where
  | inputs
  | inputsMut
  | outputs
  | outputsMut
  | input (i : Nat)
  | inputMut (i : Nat)
  | output (i : Nat)
  | outputMut (i : Nat)
  | fillInputs
  | inputMutAt (idx : Nat)
  | deviceOutput (i : Nat)
  | outputAt (idx : Nat)
  | inputBuffer (i : Nat)
  | outputBuffer (i : Nat)

/-- What an accessor hands out; `fill_inputs` hands it to its closure. -/
def Accessor.get : Accessor → Except Error Grant
  | .inputs => .ok (Access.inputs a)
  | .inputsMut => Access.inputsMut a l
  | .outputs => Access.outputs f a
  | .outputsMut => Access.outputsMut f a l
  | .input i => Access.input a i
  | .inputMut i => Access.inputMut a l i
  | .output i => Access.output f a i
  | .outputMut i => Access.outputMut f a l i
  | .fillInputs => Access.fillInputs a l .ok
  | .inputMutAt idx => Access.inputMutAt a l idx
  | .deviceOutput i => Access.deviceOutput f a l i
  | .outputAt idx => Access.outputAt f a idx
  | .inputBuffer i => Access.inputBuffer a i
  | .outputBuffer i => Access.outputBuffer f a i

/-- It hands out inputs for writing, or outputs. -/
def Accessor.Covered : Accessor → Prop
  | .inputs | .input _ | .inputBuffer _ => False
  | _ => True

/-- It hands out host-resident outputs without asking whether the lane is in flight. -/
def Accessor.Unchecked : Accessor → Prop
  | .outputs => ¬ (f.cuda = true ∧ a.deviceOutputs = true)
  | .output i | .outputAt i | .outputBuffer i =>
    ¬ (f.cuda = true ∧ a.deviceOutputs = true) ∧ i < a.outputs
  | _ => False

/-- `run_unsynchronized`: nothing is retained, and nothing fenced. -/
def runUnsynchronized (n : Native) : Result Unit :=
  (ensureIdle l).andThen fun l _ =>
    if l.deviceInputs then
      (l, .error (.local ("zrt: run_unsynchronized is unsafe in device-input mode — the H2D " ++
        "refresh and stream synchronization performed by `run` are required; use `run` instead")))
    else if l.graphId.isSome then
      (l, .error (.local ("zrt: run_unsynchronized cannot retain a captured-graph lease through " ++
        "caller-managed synchronization; use enqueue() or run() instead")))
    else (rebindHostInputsIfNeeded l n).andThen fun l _ => runBindingUnsynchronized l n l.runOpts

/-- A lane and the asynchronous runs started on its inputs, numbered in order: those `running` have
not invoked their callback. `future` is the `RunFuture` that borrows the lane. -/
structure State where
  lane : ServingLane
  started : Nat
  running : Finset Nat
  future : Option Nat

/-- `run_async`, for any outcome of `check_input_count` and of `RunAsync`; a run that fails to start
never invokes its callback. -/
def runAsync (s : State) (outcome : Except Error Unit) : State × Except Error Unit :=
  match (ensureIdle s.lane).2.bind fun _ => outcome with
  | .ok () => ({ s with
      started := s.started + 1
      running := insert s.started s.running
      future := some s.started }, .ok ())
  | .error e => (s, .error e)

/-- `RunFuture::poll`. -/
def State.poll (s : State) : Option CompletionStatus :=
  s.future.map fun run => if run ∈ s.running then .pending else .ready

/-- What the owner of a lane calls on it. What it leaves in the buffers that an accessor lends it is
an `Exchange`. -/
inductive Call where
  | op (op : Op) (n : Native)
  | runUnsynchronized (n : Native)
  | runAsync (outcome : Except Error Unit)
  | access (accessor : Accessor)

def Call.exec (s : State) : Call → State
  | .op o n => { s with lane := o.exec f s.lane n }
  | .runUnsynchronized n => { s with lane := (Access.runUnsynchronized s.lane n).1 }
  | .runAsync outcome => (Access.runAsync s outcome).1
  | .access _ => s

/-- `letGo` drops or forgets the future, or does not use it again: the borrow ends. `callback` is
ORT's completion of one run. -/
inductive Action where
  | call (c : Call)
  | poll
  | letGo
  | callback (run : Nat)

/-- A live future borrows the lane, and no call on it compiles. -/
def step (s : State) : Action → Option State
  | .call c => if s.future = none then some (c.exec f s) else none
  | .poll => s.poll.map fun _ => s
  | .letGo => if s.future = none then none else some { s with future := none }
  | .callback run =>
    if run ∈ s.running then some { s with running := s.running.erase run } else none

def hostLts : Lts.System State Action where
  Initial s := (laneLts f).Initial s.lane ∧ s.running = ∅ ∧ s.future = none
  Tr s a t := step f s a = some t

/-- A future is let go before ORT called back. -/
def Abandons (s : State) : Action → Prop
  | .letGo => ∃ run, s.future = some run ∧ run ∈ s.running
  | _ => False

/-- The call returns `Ok`, and starts a run on the lane or hands out its inputs for writing. -/
def Call.Admitted (s : State) : Call → Prop
  | .op .run n => (run f s.lane n).2 = .ok ()
  | .op .runEnqueued n => (runEnqueued f s.lane n).2 = .ok ()
  | .op .runProfiled n => (runProfiled f s.lane n).2 = .ok ()
  | .runAsync outcome => (Access.runAsync s outcome).2 = .ok ()
  | .access .inputsMut => ∃ grant, Access.inputsMut a s.lane = .ok grant
  | .access (.inputMut i) => ∃ grant, Access.inputMut a s.lane i = .ok grant
  | .access .fillInputs => ∃ grant, Access.fillInputs a s.lane .ok = .ok grant
  | _ => False

/-- The step leaves work behind that nothing records: a run fails unfenced on a lane without a
lease, `run_unsynchronized` is issued, or a future is let go too early. -/
def Unrecorded (s : State) : Action → Prop
  | .call (.op o n) => Unsettled f s.lane n o
  | .call (.runUnsynchronized n) => s.lane.deviceInputs = false ∧ s.lane.graphId = none ∧
      Issues f s.lane n s.lane.runOpts.isSome false
  | act => Abandons s act

variable {f : Features} {a : Arity} {l : ServingLane} {acc : Accessor} {s t : State} {n : Native}

theorem ensureIdle_inFlight (hi : l.inFlight = true) : ∃ e, (ensureIdle l).2 = .error e := by
  rw [ensureIdle, if_pos hi]
  exact ⟨_, rfl⟩

/-- On a lane in flight every accessor refuses but the four that hand out host-resident outputs. -/
theorem get_inFlight (hi : l.inFlight = true) (hc : acc.Covered) :
    (∃ e, acc.get f a l = .error e) ↔ ¬ acc.Unchecked f a := by
  obtain ⟨e, he⟩ := ensureIdle_inFlight hi
  have hshared : ∀ {message : String} {i : Nat} {grant : Grant},
      (∃ e, ((hostOutputs f a message).bind fun _ => indexed "output" i a.outputs grant) =
        .error e) ↔ ¬ (¬ (f.cuda = true ∧ a.deviceOutputs = true) ∧ i < a.outputs) := by
    intro message i grant
    unfold hostOutputs indexed
    split <;> split <;> simp_all [Except.bind]
  cases acc with
  | inputs | input | inputBuffer => exact hc.elim
  | outputs =>
    simp only [Accessor.get, Access.outputs, Accessor.Unchecked, hostOutputs]
    split <;> simp_all [Except.map]
  | output | outputAt | outputBuffer => exact hshared
  | inputsMut =>
    simp only [Accessor.get, inputsMut, he, Except.map, Accessor.Unchecked]
    exact ⟨fun _ h => h, fun _ => ⟨e, rfl⟩⟩
  | deviceOutput =>
    simp only [Accessor.get, deviceOutput, if_pos hi, Accessor.Unchecked]
    exact ⟨fun _ h => h, fun _ => ⟨_, rfl⟩⟩
  | outputsMut | inputMut | outputMut | fillInputs | inputMutAt =>
    simp only [Accessor.get, outputsMut, inputMut, outputMut, fillInputs, inputMutAt, he,
      Except.bind, Accessor.Unchecked]
    exact ⟨fun _ h => h, fun _ => ⟨e, rfl⟩⟩

/-- The runs still going on are behind the live future. -/
def Borrowed (s : State) : Prop := ∀ run ∈ s.running, s.future = some run

theorem Borrowed.none (h : Borrowed s) (hf : s.future = none) : s.running = ∅ := by
  by_contra hne
  obtain ⟨run, hrun⟩ := Finset.nonempty_iff_ne_empty.mpr hne
  simp [h run hrun] at hf

theorem borrowed_exec {c : Call} (h : Borrowed s) (hf : s.future = none) :
    Borrowed (c.exec f s) := by
  have hnone := h.none hf
  cases c with
  | runAsync outcome =>
    simp only [Call.exec, Access.runAsync]
    split
    · intro run hrun
      simpa [hnone, eq_comm] using hrun
    · exact h
  | _ => exact h

/-- What each step asks, and what it does. -/
inductive Stepped (f : Features) (s : State) : Action → State → Prop where
  | call {c : Call} (hf : s.future = none) : Stepped f s (.call c) (c.exec f s)
  | poll (hp : s.poll ≠ none) : Stepped f s .poll s
  | letGo {run : Nat} (hf : s.future = some run) : Stepped f s .letGo { s with future := none }
  | callback {run : Nat} (hr : run ∈ s.running) :
      Stepped f s (.callback run) { s with running := s.running.erase run }

theorem step_cases {act : Action} (hs : step f s act = some t) : Stepped f s act t := by
  cases act with
  | call c =>
    simp only [step, Option.ite_none_right_eq_some, Option.some.injEq] at hs
    obtain ⟨hf, rfl⟩ := hs
    exact .call hf
  | poll =>
    simp only [step, Option.map_eq_some_iff] at hs
    obtain ⟨_, hp, rfl⟩ := hs
    exact .poll (by simp [hp])
  | letGo =>
    simp only [step, Option.ite_none_left_eq_some, Option.some.injEq] at hs
    obtain ⟨hf, rfl⟩ := hs
    obtain ⟨run, hrun⟩ := Option.ne_none_iff_exists'.mp hf
    exact .letGo hrun
  | callback run =>
    simp only [step, Option.ite_none_right_eq_some, Option.some.injEq] at hs
    obtain ⟨hr, rfl⟩ := hs
    exact .callback hr

theorem borrowed_step {act : Action} (h : Borrowed s) (hc : ¬ Abandons s act)
    (hs : step f s act = some t) : Borrowed t := by
  cases step_cases hs with
  | call hf => exact borrowed_exec h hf
  | poll => exact h
  | letGo hf =>
    -- No run is going on: it would be behind the future let go.
    intro run hrun
    exact absurd ⟨run, h run hrun, hrun⟩ hc
  | callback =>
    intro run hrun
    exact h run (Finset.mem_of_mem_erase hrun)

theorem borrowed_reachable (h : Lts.Reachable ((hostLts f).restrict fun s act =>
    ¬ Abandons s act) s) : Borrowed s := by
  apply Lts.invariant_reachable ?_ ?_ h
  · rintro s ⟨-, hr, -⟩ run hrun
    simp [hr] at hrun
  · rintro s act t hb ⟨hc, hs⟩
    exact borrowed_step hb hc hs

/-- An asynchronous run that has not called back excludes every other run of the lane, and every
writer of its inputs. -/
theorem one_run_per_lane (h : Lts.Reachable ((hostLts f).restrict fun s act => ¬ Abandons s act) s)
    (hr : s.running.Nonempty) (c : Call) :
    ¬ ((∃ t, step f s (.call c) = some t) ∧ c.Admitted f a s) := by
  rintro ⟨⟨t, hs⟩, -⟩
  obtain ⟨run, hrun⟩ := hr
  simp [step, borrowed_reachable h run hrun] at hs

/-- The future is live: the inputs are borrowed. -/
theorem one_run_per_lane_started : ∃ s : State, s.running = {0} ∧
    ¬ ((∃ t, step ⟨false, false⟩ s (.call (.access (.inputMut 0))) = some t) ∧
      Call.Admitted ⟨false, false⟩ ⟨1, 1, false⟩ s (.access (.inputMut 0))) := by
  have h0 : Lts.Reachable ((hostLts ⟨false, false⟩).restrict fun s act => ¬ Abandons s act)
      ⟨.new none, 0, ∅, none⟩ := .initial ⟨⟨none, by simp, rfl⟩, rfl, rfl⟩
  have h1 := h0.step (a := Action.call (.runAsync (.ok ()))) ⟨fun h => h, rfl⟩
  exact ⟨_, rfl, one_run_per_lane h1 (Finset.singleton_nonempty 0) _⟩

/-- The future is dropped at once: the inputs are handed out while ORT reads them. -/
theorem one_run_per_lane_fails : ¬ ∀ (s t : State) (c : Call),
    Lts.Reachable (hostLts ⟨false, false⟩) s → step ⟨false, false⟩ s (.call c) = some t →
    c.Admitted ⟨false, false⟩ ⟨1, 1, false⟩ s → s.running = ∅ := by
  intro h
  have h0 : Lts.Reachable (hostLts ⟨false, false⟩) ⟨.new none, 0, ∅, none⟩ :=
    .initial ⟨⟨none, by simp, rfl⟩, rfl, rfl⟩
  have h1 := h0.step (a := Action.call (.runAsync (.ok ()))) rfl
  have h2 := h1.step (a := Action.letGo) rfl
  exact absurd (h _ _ (.access (.inputMut 0)) h2 rfl ⟨_, rfl⟩) (by decide)

theorem runUnsynchronized_same (h : ¬ (l.deviceInputs = false ∧ l.graphId = none ∧
    Issues f l n l.runOpts.isSome false)) : (runUnsynchronized l n).1 = l := by
  unfold runUnsynchronized ensureIdle
  by_cases hi : l.inFlight = true
  · rw [if_pos hi]
    rfl
  · rw [if_neg hi]
    simp only [Result.andThen]
    split
    · rfl
    · split
      · rfl
      · rename_i hd hg
        rcases rebind_cases (l := l) (n := n) with ⟨e, he⟩ | ⟨he, hrebind⟩ <;> simp only [he]
        rcases runBindingUnsynchronized_cases (l := l) (n := n) l.runOpts with
          ⟨e, he, -⟩ | ⟨-, hs, ho⟩
        · rw [he]
        · refine absurd ⟨by simpa using hd, by simpa using hg, by simpa using hi, hrebind, ?_, hs,
            ho, by simp⟩ h
          exact fun hd' => absurd hd' hd

/-- Between calls: a lane out of flight is fenced, and a run going on is borrowed. -/
structure Recorded (s : State) : Prop where
  lane : Settled s.lane
  future : Borrowed s

theorem recorded_step {act : Action} (h : Recorded s) (hc : ¬ Unrecorded f s act)
    (hs : step f s act = some t) : Recorded t := by
  have hab : ¬ Abandons s act := by
    cases act with
    | letGo => exact hc
    | _ => exact fun h => h
  refine ⟨?_, borrowed_step h.future hab hs⟩
  cases step_cases hs with
  | @call c =>
    cases c with
    | op o n => exact settled_step h.lane hc
    | runUnsynchronized n =>
      show Settled (runUnsynchronized s.lane n).1
      rw [runUnsynchronized_same hc]
      exact h.lane
    | runAsync outcome =>
      simp only [Call.exec, Access.runAsync]
      split <;> exact h.lane
    | access acc => exact h.lane
  | poll | letGo | callback => exact h.lane

end Zrt.Lane.Access
