import Zrt.Session.Runs

/-! What becomes of the values of one run after another. -/
namespace Zrt.Runs

open Handles

/-- A session in use: what was asked of ORT and what it returned and was given back, the caller's
slots and the values taken out of them, and its prepared run. -/
structure Usage (s : SessionInner) where
  calls : List RunCall
  returned : List (Option Nat)
  released : List (Option Nat)
  slots : List (Option Owned)
  taken : List Owned
  prepared : Option (PreparedRun s)

inductive Entry where
  | run
  | runWith (opts : MaterializedRunOptions)
  | runArray
  | runArrayWith (opts : MaterializedRunOptions)

inductive Op where
  | run (entry : Entry) (inputs : List (Option Nat))
  | prepareRun (inputs : List (Option Nat))
  | runPrepared
  | prime (runs : Nat)
  | slots (n : Nat)
  | take (i : Nat)
  | dropTaken

variable (bits : Nat) {s : SessionInner} (ort : Ort)

def Entry.attempt (past : List RunCall) (inputs : List (Option Nat)) (slots : List (Option Owned)) :
    Entry → Attempt
  | .run => Runs.run bits s ort past inputs slots
  | .runWith opts => Runs.runWith bits s ort past inputs slots opts
  | .runArray => Runs.runArray bits s ort past inputs slots
  | .runArrayWith opts => Runs.runArrayWith bits s ort past inputs slots opts

namespace Usage

variable (u : Usage s)

def record (a : Attempt) : Usage s :=
  { u with
    calls := u.calls ++ a.calls
    returned := u.returned ++ a.handles
    released := u.released ++ a.released }

def run (entry : Entry) (inputs : List (Option Nat)) : Usage s :=
  let a := entry.attempt bits (s := s) ort u.calls inputs u.slots
  { u.record a with slots := a.slots }

/-- The prepared run before, if there is one, is dropped. -/
def prepare (p : PreparedRun s) : Usage s :=
  { u with
    released := u.released ++ dropAll ((u.prepared.map PreparedRun.outputs).getD [] |>.filterMap id)
    prepared := some p }

def runPrepared : Usage s × Except Error Unit :=
  match u.prepared with
  | none => (u, .ok ())
  | some p =>
    let again := p.run bits ort u.calls
    ({ u.record again.2 with prepared := some again.1 }, again.2.result)

/-- `prime_runs`. -/
def prime (u : Usage s) : Nat → Usage s
  | 0 => u
  | runs + 1 =>
    match u.runPrepared bits ort with
    | (u', .ok ()) => prime u' runs
    | (u', .error _) => u'

def step : Op → Usage s
  | .run entry inputs => u.run bits ort entry inputs
  | .prepareRun inputs =>
    match Runs.prepareRun s inputs with
    | .ok p => u.prepare p
    | .error _ => u
  | .runPrepared => (u.runPrepared bits ort).1
  | .prime runs => u.prime bits ort runs
  | .slots n =>
    { u with
      released := u.released ++ dropAll (u.slots.filterMap id)
      slots := List.replicate n none }
  | .take i =>
    match u.slots[i]? with
    | some (some v) => { u with slots := u.slots.set i none, taken := u.taken ++ [v] }
    | _ => u
  | .dropTaken => { u with released := u.released ++ dropAll u.taken, taken := [] }

/-- The values that are neither dropped nor lost. -/
def live : List (Option Nat) :=
  dropAll (u.slots.filterMap id) ++ dropAll u.taken ++
    dropAll ((u.prepared.map PreparedRun.outputs).getD [] |>.filterMap id)

end Usage

/-- A session that was not used yet. -/
def unused (s : SessionInner) : Usage s := ⟨[], [], [], [], [], none⟩

/-- What was returned was given back once, or is live; null may be given back any number of
times. -/
def Conserved (u : Usage s) : Prop :=
  ∀ h, u.returned.count (some h) = u.released.count (some h) + u.live.count (some h)

/-- A call answers for what it gets and for what was in its slots. -/
def Attempt.Answers (a : Attempt) (slots : List (Option Owned)) : Prop :=
  ∀ h, a.released.count (some h) + (dropAll (a.slots.filterMap id)).count (some h) =
    a.handles.count (some h) + (dropAll (slots.filterMap id)).count (some h)

variable {bits} {ort} {u : Usage s} {a : Attempt} {past : List RunCall}
  {inputs outputs : List (Option Nat)} {slots : List (Option Owned)} {returned : List Returned}
  {optsHandle : Nat} {p : PreparedRun s}

theorem positions_handles (hr : returned.length = s.outputNames.length)
    (hs : slots.length = s.outputNames.length) :
    (positions s returned slots).map (fun p => p.returned.handle) =
      returned.map Returned.handle := by
  unfold positions
  rw [List.map_map]
  have hmap : ((fun p : Position => p.returned.handle) ∘ fun p => ⟨p.1, p.2.1, p.2.2⟩) =
      Returned.handle ∘ Prod.fst ∘
        (Prod.snd : Outputs.CachedIo × Returned × Option Owned → _) := rfl
  rw [hmap, ← List.map_map, ← List.map_map, List.map_snd_zip, List.map_fst_zip]
  · omega
  · rw [List.length_zip, s.outputMeta_length]
    omega

theorem positions_slots (hr : returned.length = s.outputNames.length)
    (hs : slots.length = s.outputNames.length) :
    (positions s returned slots).filterMap Position.slot = slots.filterMap id := by
  have hslots : (positions s returned slots).map Position.slot = slots := by
    unfold positions
    rw [List.map_map]
    have hcomp : (Position.slot ∘ fun p => ⟨p.1, p.2.1, p.2.2⟩) =
        Prod.snd ∘ (Prod.snd : Outputs.CachedIo × Returned × Option Owned → _) := rfl
    rw [hcomp, ← List.map_map, List.map_snd_zip, List.map_snd_zip]
    · omega
    · rw [List.length_zip, s.outputMeta_length]
      omega
  conv_rhs => rw [← hslots]
  rw [List.filterMap_map]
  rfl

theorem answers_runRaw (hs : slots.length = s.outputNames.length) (n : Nat) :
    (runRaw bits s ort past inputs (List.replicate n none) slots optsHandle).Answers slots := by
  intro h
  unfold runRaw
  dsimp only
  split
  next => simp [List.count_replicate]
  next returned hr =>
    have hlen := ort.run_length _ _ _ hr
    have hcount : (stampOutputs bits (positions s returned slots)).settle.count (some h) =
        (answered (positions s returned slots)).count (some h) := stampOutputs_count
    rw [Stamping.settle, answered, List.count_append, List.count_append, positions_handles hlen hs,
      positions_slots hlen hs] at hcount
    exact hcount

theorem answers_checked {check : Except Error Unit} (h : check = .ok () → a.Answers slots) :
    (checked check slots a).Answers slots := by
  unfold checked
  cases check with
  | error err => simp [Attempt.Answers]
  | ok _ => exact h rfl

theorem answers_attempt (bits : Nat) (s : SessionInner) (ort : Ort) (past : List RunCall)
    (inputs : List (Option Nat)) (slots : List (Option Owned)) (entry : Entry) :
    (entry.attempt bits (s := s) ort past inputs slots).Answers slots := by
  have himpl (optsHandle : Nat) :
    (runImpl bits s ort past inputs slots optsHandle).Answers slots := by
    rw [runImpl_eq]
    refine answers_checked fun _ => answers_checked fun hs => ?_
    exact answers_runRaw (checkOutputCount_ok.mp hs) _
  have hwith (opts : MaterializedRunOptions) :
      (runWith bits s ort past inputs slots opts).Answers slots := answers_checked fun _ => himpl _
  cases entry with
  | run => exact himpl _
  | runWith opts => exact hwith opts
  | runArray =>
    unfold Entry.attempt runArray
    rw [runArrayWith_eq]
    exact hwith _
  | runArrayWith opts =>
    dsimp only [Entry.attempt]
    rw [runArrayWith_eq]
    exact hwith _

theorem answers_preparedRun (p : PreparedRun s) (bits : Nat) (ort : Ort) (past : List RunCall)
    (h : Nat) :
    (p.run bits ort past).2.released.count (some h) +
        (dropAll ((p.run bits ort past).1.outputs.filterMap id)).count (some h) =
      (p.run bits ort past).2.handles.count (some h) +
        (dropAll (p.outputs.filterMap id)).count (some h) := by
  have hanswers : (p.attempt bits ort past).Answers (List.replicate s.outputNames.length none) := by
    rw [p.attempt_eq]
    exact answers_runRaw List.length_replicate _
  have hcount := hanswers h
  have hnone : (List.replicate s.outputNames.length (none : Option Owned)).filterMap id = [] := by
    simp
  rw [hnone] at hcount
  unfold PreparedRun.run
  dsimp only
  rw [List.count_append]
  have hempty : (dropAll []).count (some h) = 0 := rfl
  omega

theorem live_count : u.live.count (some h) = (dropAll (u.slots.filterMap id)).count (some h) +
    (dropAll u.taken).count (some h) +
      (dropAll ((u.prepared.map PreparedRun.outputs).getD [] |>.filterMap id)).count (some h) := by
  unfold Usage.live
  rw [List.count_append, List.count_append]

theorem conserved_run (hu : Conserved u) (entry : Entry) :
    Conserved (u.run bits ort entry inputs) := by
  intro h
  have hanswers := answers_attempt bits s ort u.calls inputs u.slots entry h
  have hbefore := hu h
  rw [live_count] at hbefore ⊢
  unfold Usage.run Usage.record
  dsimp only
  rw [List.count_append, List.count_append]
  omega

theorem conserved_prepare (hu : Conserved u) (hp : p.outputs.filterMap id = []) :
    Conserved (u.prepare p) := by
  intro h
  have hbefore := hu h
  rw [live_count] at hbefore ⊢
  unfold Usage.prepare
  dsimp only [Option.map_some, Option.getD_some]
  have hempty : (dropAll []).count (some h) = 0 := rfl
  rw [List.count_append, hp]
  omega

theorem conserved_runPrepared (hu : Conserved u) : Conserved (u.runPrepared bits ort).1 := by
  unfold Usage.runPrepared
  cases hp : u.prepared with
  | none => exact hu
  | some p =>
    intro h
    have hbefore := hu h
    have hanswers := answers_preparedRun p bits ort u.calls h
    rw [live_count] at hbefore ⊢
    rw [hp] at hbefore
    unfold Usage.record
    dsimp only [Option.map_some, Option.getD_some] at hbefore ⊢
    rw [List.count_append, List.count_append]
    omega

/-- By induction on the runs that are left. -/
theorem conserved_prime (hu : Conserved u) (runs : Nat) : Conserved (u.prime bits ort runs) := by
  induction runs generalizing u with
  | zero => exact hu
  | succ runs ih =>
    have hnext : Conserved (u.runPrepared bits ort).1 := conserved_runPrepared hu
    unfold Usage.prime
    split
    next u' heq =>
      rw [heq] at hnext
      exact ih hnext
    next u' err heq =>
      rw [heq] at hnext
      exact hnext

/-- A value leaves its slot. -/
theorem count_take {i : Nat} {v : Owned} (hi : slots[i]? = some (some v)) :
    (dropAll (slots.filterMap id)).count (some h) =
      (dropAll ((slots.set i none).filterMap id)).count (some h) +
        (dropAll [v]).count (some h) := by
  induction slots generalizing i with
  | nil => cases hi
  | cons slot slots ih =>
    cases i with
    | zero =>
      obtain rfl : slot = some v := Option.some.inj hi
      rw [List.set_cons_zero, List.filterMap_cons_some (f := id) rfl,
        List.filterMap_cons_none (f := id) rfl, ← List.singleton_append, dropAll_append,
        List.count_append, Nat.add_comm]
    | succ i =>
      have hrest := ih (i := i) hi
      rw [List.set_cons_succ]
      cases slot with
      | none =>
        rw [List.filterMap_cons_none (f := id) rfl, List.filterMap_cons_none (f := id) rfl]
        exact hrest
      | some w =>
        rw [List.filterMap_cons_some (f := id) rfl, List.filterMap_cons_some (f := id) rfl,
          ← List.singleton_append, dropAll_append, List.count_append, hrest,
          ← List.singleton_append (l := (slots.set i none).filterMap id), dropAll_append,
          List.count_append, Nat.add_assoc]

theorem prepareRun_outputs (hp : prepareRun s inputs = .ok p) : p.outputs.filterMap id = [] := by
  unfold prepareRun at hp
  split at hp
  next => cases hp
  next =>
    cases Except.ok.inj hp
    simp

theorem conserved_step (hu : Conserved u) (op : Op) : Conserved (u.step bits ort op) := by
  cases op with
  | run entry inputs => exact conserved_run hu entry
  | prepareRun inputs =>
    unfold Usage.step
    dsimp only
    split
    next p hp => exact conserved_prepare hu (prepareRun_outputs hp)
    next => exact hu
  | runPrepared => exact conserved_runPrepared hu
  | prime runs => exact conserved_prime hu runs
  | slots n =>
    intro h
    have hbefore := hu h
    rw [live_count] at hbefore ⊢
    unfold Usage.step
    dsimp only
    have hnone : (List.replicate n (none : Option Owned)).filterMap id = [] := by simp
    have hempty : (dropAll []).count (some h) = 0 := rfl
    rw [List.count_append, hnone]
    omega
  | take i =>
    unfold Usage.step
    dsimp only
    split
    next v hv =>
      intro h
      have hbefore := hu h
      have htake := count_take (h := h) hv
      rw [live_count] at hbefore ⊢
      dsimp only
      rw [dropAll_append, List.count_append]
      omega
    next => exact hu
  | dropTaken =>
    intro h
    have hbefore := hu h
    rw [live_count] at hbefore ⊢
    unfold Usage.step
    dsimp only
    have hempty : (dropAll []).count (some h) = 0 := rfl
    rw [List.count_append]
    omega

/-- After any calls on a session, whatever ORT answers, each value that it returned was given back
once, or is the only one of its handle that a slot, a prepared run or the caller still has. -/
theorem returned_values_conserved (bits : Nat) (s : SessionInner) (ort : Ort) (ops : List Op) :
    Conserved (ops.foldl (fun u op => u.step bits ort op) (unused s)) := by
  have hall (u : Usage s) (hu : Conserved u) :
      Conserved (ops.foldl (fun u op => u.step bits ort op) u) := by
    induction ops generalizing u with
    | nil => exact hu
    | cons op ops ih => exact ih _ (conserved_step hu op)
  exact hall _ fun h => rfl

/-- Two runs into one slot, whose value is then taken out, and two of a prepared run. -/
def twoRuns : List Op :=
  [.slots 1, .run .run [some 7], .run .runArray [some 7], .take 0, .prepareRun [some 7], .prime 2]

theorem returned_values_conserved_two :
    let u := twoRuns.foldl (fun u op => u.step 64 newValues op) (unused floatSession)
    u.returned = [some 0, some 1, some 2, some 3] ∧ u.released = [some 0, some 2] ∧
      u.live = [some 1, some 3] ∧
      ∀ h, u.returned.count (some h) = u.released.count (some h) + u.live.count (some h) :=
  ⟨rfl, rfl, rfl, returned_values_conserved 64 floatSession newValues twoRuns⟩

end Zrt.Runs
