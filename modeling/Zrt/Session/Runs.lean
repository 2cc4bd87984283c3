import Zrt.Session.OutputHandles

/-! The regular runs of `session.rs`: `run`, `run_with`, `run_array`, `run_array_with` and
`PreparedRun`. -/
namespace Zrt.Runs

open Handles
open Outputs (CachedIo stampCount)

/-- `sync_stream` is the environment of the stream. -/
structure MaterializedRunOptions where
  handle : Nat
  syncStream : Option Nat

def MaterializedRunOptions.sharesEnvironment (o : MaterializedRunOptions) (env : Nat) : Bool :=
  o.syncStream.all (· = env)

/-- A session as its constructors leave it. -/
structure SessionInner where
  inputNames : List String
  outputNames : List String
  outputMeta : List CachedIo
  runOpts : MaterializedRunOptions
  env : Nat
  outputMeta_length : outputMeta.length = outputNames.length
  runOpts_stream : runOpts.syncStream = none

/-- The arguments of ORT's `Run`. -/
structure RunCall where
  opts : Nat
  inputNames : List String
  inputs : List (Option Nat)
  outputNames : List String
  outputs : List (Option Nat)

/-- What `Run` gives after the calls so far: a value for each output, or an error and no value. -/
structure Ort where
  run : List RunCall → RunCall → Except Error (List Returned)
  run_length : ∀ past c returned, run past c = .ok returned → returned.length = c.outputNames.length

/-- A call: what it asks of ORT, the handles it gets, the slots and releases it leaves, and its
result. -/
structure Attempt where
  calls : List RunCall
  handles : List (Option Nat)
  slots : List (Option Owned)
  released : List (Option Nat)
  result : Except Error Unit

def stackIoHandles : Nat := 8

section
variable (bits : Nat) (s : SessionInner) (ort : Ort) (past : List RunCall)

def checkInputCount (got : Nat) : Except Error Unit :=
  if got ≠ s.inputNames.length then
    .error (.local s!"zrt: input count mismatch: expected {s.inputNames.length}, got {got}")
  else .ok ()

def checkOutputCount (got : Nat) (what : String) : Except Error Unit :=
  if got ≠ s.outputNames.length then
    .error (.local s!"zrt: {what} mismatch: expected {s.outputNames.length}, got {got}")
  else .ok ()

def checkRunOptions (opts : MaterializedRunOptions) : Except Error Unit :=
  if opts.sharesEnvironment s.env then .ok ()
  else .error (.local "MaterializedRunOptions sync stream belongs to a different Environment")

/-- The slots of a run with the handles that were returned for them. -/
def positions (returned : List Returned) (slots : List (Option Owned)) : List Position :=
  (s.outputMeta.zip (returned.zip slots)).map fun p => ⟨p.1, p.2.1, p.2.2⟩

/-- `run_raw`, and `stamp_outputs` behind it. -/
def runRaw (inputs outputs : List (Option Nat)) (slots : List (Option Owned)) (opts : Nat) :
    Attempt :=
  let call : RunCall := ⟨opts, s.inputNames, inputs, s.outputNames, outputs⟩
  match ort.run past call with
  | .error err => ⟨[call], outputs, slots, [], .error err⟩
  | .ok returned =>
    let stamped := stampOutputs bits (positions s returned slots)
    ⟨[call], returned.map Returned.handle, stamped.slots, stamped.released, stamped.result⟩

/-- `for (dst, input) in handles.iter_mut().zip(inputs)`. -/
def overwrite : List (Option Nat) → List (Option Nat) → List (Option Nat)
  | _ :: handles, input :: inputs => input :: overwrite handles inputs
  | handles, _ => handles

/-- A call that an error stops before it asks anything of ORT. -/
def checked (check : Except Error Unit) (slots : List (Option Owned)) (go : Attempt) : Attempt :=
  match check with
  | .error err => ⟨[], [], slots, [], .error err⟩
  | .ok () => go

def runImpl (inputs : List (Option Nat)) (slots : List (Option Owned)) (opts : Nat) : Attempt :=
  checked (checkInputCount s inputs.length) slots <|
  checked (checkOutputCount s slots.length "output slot count") slots <|
  if inputs.length ≤ stackIoHandles ∧ slots.length ≤ stackIoHandles then
    let inHandles := overwrite (List.replicate stackIoHandles none) inputs
    let outHandles := List.replicate stackIoHandles none
    runRaw bits s ort past (inHandles.take inputs.length) (outHandles.take slots.length) slots opts
  else
    runRaw bits s ort past inputs (List.replicate s.outputNames.length none) slots opts

def run (inputs : List (Option Nat)) (slots : List (Option Owned)) : Attempt :=
  runImpl bits s ort past inputs slots s.runOpts.handle

def runWith (inputs : List (Option Nat)) (slots : List (Option Owned))
    (opts : MaterializedRunOptions) : Attempt :=
  checked (checkRunOptions s opts) slots (runImpl bits s ort past inputs slots opts.handle)

def runArrayWith (inputs : List (Option Nat)) (slots : List (Option Owned))
    (opts : MaterializedRunOptions) : Attempt :=
  checked (checkRunOptions s opts) slots <|
  checked (checkInputCount s inputs.length) slots <|
  checked (checkOutputCount s slots.length "output slot count") slots <|
  runRaw bits s ort past (List.ofFn fun i : Fin inputs.length => inputs[i])
    (List.ofFn fun _ : Fin slots.length => none) slots opts.handle

def runArray (inputs : List (Option Nat)) (slots : List (Option Owned)) : Attempt :=
  runArrayWith bits s ort past inputs slots s.runOpts

end

variable {bits : Nat} {s : SessionInner} {ort : Ort} {past : List RunCall} {got h : Nat}
  {inputs outputs : List (Option Nat)} {slots : List (Option Owned)} {returned : List Returned}
  {opts : MaterializedRunOptions} {optsHandle : Nat}

theorem checkInputCount_ok : checkInputCount s got = .ok () ↔ got = s.inputNames.length := by
  unfold checkInputCount
  split
  next hne => exact iff_of_false (fun h => by cases h) hne
  next heq => exact iff_of_true rfl (not_not.mp heq)

theorem checkOutputCount_ok {what : String} :
    checkOutputCount s got what = .ok () ↔ got = s.outputNames.length := by
  unfold checkOutputCount
  split
  next hne => exact iff_of_false (fun h => by cases h) hne
  next heq => exact iff_of_true rfl (not_not.mp heq)

/-- A position for each output. -/
theorem length_positions (hr : returned.length = s.outputNames.length)
    (hs : slots.length = s.outputNames.length) :
    (positions s returned slots).length = s.outputNames.length := by
  simp [positions, s.outputMeta_length, hr, hs]

theorem length_stampOutputs (ps : List Position) :
    (stampOutputs bits ps).slots.length = ps.length := by
  induction ps with
  | nil => rfl
  | cons p rest ih =>
    unfold stampOutputs
    cases stampCount bits p.cached p.returned.value p.returned.engine with
    | ok count => simp [ih]
    | error err => simp

theorem length_runRaw_slots (hs : slots.length = s.outputNames.length) :
    (runRaw bits s ort past inputs outputs slots optsHandle).slots.length =
      s.outputNames.length := by
  unfold runRaw
  dsimp only
  split
  next => exact hs
  next returned hr =>
    dsimp only
    rw [length_stampOutputs, length_positions (ort.run_length _ _ _ hr) hs]

theorem length_runRaw_handles (ho : outputs.length = s.outputNames.length) :
    (runRaw bits s ort past inputs outputs slots optsHandle).handles.length =
      s.outputNames.length := by
  unfold runRaw
  dsimp only
  split
  next => exact ho
  next returned hr =>
    dsimp only
    rw [List.length_map, ort.run_length _ _ _ hr]

/-- A prepared run has a handle for each input, and a handle and a slot for each output. -/
structure PreparedRun (s : SessionInner) where
  inputHandles : List (Option Nat)
  outputHandles : List (Option Nat)
  outputs : List (Option Owned)
  inputHandles_length : inputHandles.length = s.inputNames.length
  outputHandles_length : outputHandles.length = s.outputNames.length
  outputs_length : outputs.length = s.outputNames.length

def prepareRun (s : SessionInner) (inputs : List (Option Nat)) : Except Error (PreparedRun s) :=
  match h : checkInputCount s inputs.length with
  | .error err => .error err
  | .ok () => .ok {
      inputHandles := inputs
      outputHandles := List.replicate s.outputNames.length none
      outputs := List.replicate s.outputNames.length none
      inputHandles_length := checkInputCount_ok.mp h
      outputHandles_length := List.length_replicate
      outputs_length := List.length_replicate }

/-- What `PreparedRun::run` does once its slots are empty and its handles null. -/
def PreparedRun.attempt (p : PreparedRun s) (bits : Nat) (ort : Ort)
    (past : List RunCall) : Attempt :=
  runRaw bits s ort past p.inputHandles (List.replicate p.outputHandles.length none)
    (List.replicate p.outputs.length none) s.runOpts.handle

/-- The values of the run before are dropped first. -/
def PreparedRun.run (p : PreparedRun s) (bits : Nat) (ort : Ort) (past : List RunCall) :
    PreparedRun s × Attempt :=
  let a := p.attempt bits ort past
  ({ p with
      outputHandles := a.handles
      outputs := a.slots
      outputHandles_length :=
        length_runRaw_handles (List.length_replicate.trans p.outputHandles_length)
      outputs_length := length_runRaw_slots (List.length_replicate.trans p.outputs_length) },
    { a with released := dropAll (p.outputs.filterMap id) ++ a.released })

theorem PreparedRun.attempt_eq (p : PreparedRun s) : p.attempt bits ort past =
    runRaw bits s ort past p.inputHandles (List.replicate s.outputNames.length none)
      (List.replicate s.outputNames.length none) s.runOpts.handle := by
  unfold PreparedRun.attempt
  rw [p.outputHandles_length, p.outputs_length]

theorem overwrite_take {n : Nat} (hn : inputs.length ≤ n) :
    (overwrite (List.replicate n none) inputs).take inputs.length = inputs := by
  induction inputs generalizing n with
  | nil => simp
  | cons input inputs ih =>
    obtain ⟨n, rfl⟩ := Nat.exists_eq_succ_of_ne_zero (Nat.ne_of_gt (Nat.lt_of_lt_of_le
      (Nat.succ_pos _) hn))
    rw [List.replicate_succ, overwrite, List.length_cons, List.take_succ_cons,
      ih (Nat.le_of_succ_le_succ hn)]

/-- With the stack arrays and without, ORT is asked the same. -/
theorem runImpl_eq (bits : Nat) (s : SessionInner) (ort : Ort) (past : List RunCall)
    (inputs : List (Option Nat)) (slots : List (Option Owned)) (optsHandle : Nat) :
    runImpl bits s ort past inputs slots optsHandle =
      checked (checkInputCount s inputs.length) slots
        (checked (checkOutputCount s slots.length "output slot count") slots
          (runRaw bits s ort past inputs (List.replicate s.outputNames.length none) slots
            optsHandle)) := by
  unfold runImpl
  split
  next hsmall =>
    dsimp only
    rw [overwrite_take hsmall.1, List.take_replicate, Nat.min_eq_left hsmall.2]
    cases hc : checkOutputCount s slots.length "output slot count" with
    | error err => rfl
    | ok _ => rw [checkOutputCount_ok.mp hc]
  next => rfl

theorem runArrayWith_eq : runArrayWith bits s ort past inputs slots opts =
    runWith bits s ort past inputs slots opts := by
  have hinputs : (List.ofFn fun i : Fin inputs.length => inputs[i]) = inputs := List.ofFn_getElem
  have hnulls : (List.ofFn fun _ : Fin slots.length => (none : Option Nat)) =
      List.replicate slots.length none := by
    refine List.eq_replicate_iff.mpr ⟨List.length_ofFn, fun b hb => ?_⟩
    obtain ⟨i, rfl⟩ := List.mem_ofFn.mp hb
    rfl
  unfold runArrayWith runWith
  rw [runImpl_eq, hinputs, hnulls]
  cases hc : checkOutputCount s slots.length "output slot count" with
  | error err => rfl
  | ok _ => rw [checkOutputCount_ok.mp hc]

theorem checkRunOptions_default (s : SessionInner) : checkRunOptions s s.runOpts = .ok () := by
  unfold checkRunOptions MaterializedRunOptions.sharesEnvironment
  rw [s.runOpts_stream]
  rfl

/-- The runs of one session with the same inputs: the array runs do what the slice runs do, the runs
without options what those with the session's own do, and a prepared run, whatever it ran before,
what a run into empty slots does, with its old values dropped first. -/
theorem run_paths_agree (bits : Nat) (s : SessionInner) (ort : Ort) (past : List RunCall) :
    (∀ inputs slots opts, runArrayWith bits s ort past inputs slots opts =
      runWith bits s ort past inputs slots opts) ∧
    (∀ inputs slots, runArray bits s ort past inputs slots = run bits s ort past inputs slots ∧
      run bits s ort past inputs slots = runWith bits s ort past inputs slots s.runOpts) ∧
    ∀ p : PreparedRun s,
      let fresh := run bits s ort past p.inputHandles (List.replicate s.outputNames.length none)
      let again := p.run bits ort past
      again.2 = { fresh with released := dropAll (p.outputs.filterMap id) ++ fresh.released } ∧
        again.1.inputHandles = p.inputHandles ∧ again.1.outputs = fresh.slots := by
  have hdefault (inputs : List (Option Nat)) (slots : List (Option Owned)) :
      run bits s ort past inputs slots = runWith bits s ort past inputs slots s.runOpts := by
    unfold run runWith
    rw [checkRunOptions_default]
    rfl
  refine ⟨fun inputs slots opts => runArrayWith_eq, fun inputs slots => ⟨?_, hdefault _ _⟩,
    fun p => ?_⟩
  · rw [hdefault]
    exact runArrayWith_eq
  · have hfresh : run bits s ort past p.inputHandles (List.replicate s.outputNames.length none) =
        runRaw bits s ort past p.inputHandles (List.replicate s.outputNames.length none)
          (List.replicate s.outputNames.length none) s.runOpts.handle := by
      unfold run
      rw [runImpl_eq, checkInputCount_ok.mpr p.inputHandles_length,
        checkOutputCount_ok.mpr List.length_replicate]
      rfl
    dsimp only
    rw [hfresh, ← p.attempt_eq]
    exact ⟨rfl, rfl, rfl⟩

/-- A session with one input and one output of two floats. -/
def floatSession : SessionInner where
  inputNames := ["x"]
  outputNames := ["y"]
  outputMeta := [⟨.tensor, .float, some 2, [2]⟩]
  runOpts := ⟨0, none⟩
  env := 0
  outputMeta_length := rfl
  runOpts_stream := rfl

/-- Each run makes a new value for each output. -/
def newValues : Ort where
  run past c := .ok (c.outputNames.map fun _ => ⟨some past.length, Outputs.twoFloats, .succeed⟩)
  run_length past c returned h := by
    obtain rfl := Except.ok.inj h
    exact List.length_map _

theorem run_paths_agree_float : ∃ p : PreparedRun floatSession,
    prepareRun floatSession [some 7] = .ok p ∧
    (run 64 floatSession newValues [] [some 7] [none]).result = .ok () ∧
    runArray 64 floatSession newValues [] [some 7] [none] =
      run 64 floatSession newValues [] [some 7] [none] ∧
    (p.run 64 newValues []).1.outputs =
      (run 64 floatSession newValues [] [some 7] [none]).slots := by
  have hagree := run_paths_agree 64 floatSession newValues []
  refine ⟨_, rfl, rfl, (hagree.2.1 [some 7] [none]).1, ?_⟩
  exact (hagree.2.2 _).2.2

end Zrt.Runs
