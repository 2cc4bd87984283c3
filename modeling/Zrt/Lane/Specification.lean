import Mathlib.Data.Option.Basic
import Zrt.Error
import Zrt.Lts

/-! `ServingLane` of `runtime.rs`: its run paths, and every outcome of the native calls they
make. -/
namespace Zrt.Lane

/-- The crate features the run paths depend on. -/
structure Features where
  cuda : Bool
  ep : Bool

/-- What the lane sets in a frozen run-option composition. -/
structure RunOptions where
  graphId : Option Int
  disableEpSync : Bool
  syncStream : Option Nat
  deriving DecidableEq

def RunOptions.new : RunOptions := ⟨none, false, none⟩

def RunOptions.graphReplay (id : Int) : RunOptions := ⟨some id, false, none⟩

def RunOptions.enqueued (id : Int) : RunOptions := { RunOptions.graphReplay id with
  disableEpSync := true }

/-- Provider work a `RunWithBinding` may have queued and no fence has covered; `recorded` once the
completion event is recorded behind it. -/
inductive ProviderWork where
  | none
  | queued
  | recorded
  deriving DecidableEq

/-- `ServingLaneInner`. Buffers, names and native handles are left out; a graph lease, or a guard
of it, is named by its annotation id. `work` is history. -/
structure ServingLane where
  deviceInputs : Bool
  cudaDeviceId : Option Int
  rebindInputsEachRun : Bool
  runOpts : Option RunOptions
  enqueuedRunOpts : RunOptions
  syncStream : Option Nat
  graphId : Option Int
  graphCaptured : Bool
  graphLease : Option Int
  inFlightGraphGuard : Option Int
  completionEventRecorded : Bool
  inFlight : Bool
  recoverySlot : Option Nat
  work : ProviderWork
  deriving DecidableEq

/-- A lane as its constructor leaves it; `deviceId` selects the device-input mode. -/
def ServingLane.new (deviceId : Option Int) : ServingLane where
  deviceInputs := deviceId.isSome
  cudaDeviceId := deviceId
  rebindInputsEachRun := false
  runOpts := none
  enqueuedRunOpts := { RunOptions.new with disableEpSync := true }
  syncStream := none
  graphId := none
  graphCaptured := false
  graphLease := none
  inFlightGraphGuard := none
  completionEventRecorded := false
  inFlight := false
  recoverySlot := none
  work := .none

/-- The outcomes of the native calls one operation makes, by call site: `syncOutputs` is the
output synchronization whose result the operation reports, `fenceOutputs` the one made by
`fence_or_retain_graph_guard`. -/
structure Native where
  rebind : Except Error Unit
  refresh : Except Error Unit
  checkBindingSession : Except Error Unit
  checkRunOptions : Except Error Unit
  syncInputs : Except Error Unit
  runWithBinding : Except Error Unit
  eventRecord : Except Error Unit
  syncOutputs : Except Error Unit
  fenceOutputs : Except Error Unit
  eventSync : Except Error Unit
  eventIsComplete : Except Error Bool
  deviceFence : Bool
  freeze : Except Error Unit

inductive CompletionStatus where
  | pending
  | ready
  deriving DecidableEq

abbrev Result (α : Type) := ServingLane × Except Error α

/-- The `?` operator: go on with the lane unless the call failed. -/
def Result.andThen {α β : Type} (r : Result α) (f : ServingLane → α → Result β) : Result β :=
  match r with
  | (l, .ok a) => f l a
  | (l, .error e) => (l, .error e)

/-- A native call that leaves the lane's fields alone. -/
def call (l : ServingLane) (outcome : Except Error Unit) : Result Unit := (l, outcome)

variable (f : Features) (l : ServingLane) (n : Native)

def ensureIdle : Result Unit :=
  if l.inFlight then
    (l, .error (.local
      "zrt: lane already has an in-flight run; synchronize it before reuse"))
  else (l, .ok ())

/-- `RunWithBinding`: whatever it returns, it may have queued provider work. -/
def runWithBinding : Result Unit := ({ l with work := .queued }, n.runWithBinding)

/-- `IoBinding::synchronize_outputs`, with the given outcome. -/
def bindingSynchronizeOutputs (outcome : Except Error Unit) : Result Unit :=
  match outcome with
  | .ok () => ({ l with work := .none }, .ok ())
  | .error e => (l, .error e)

/-- Waiting for the completion event covers the work it was recorded behind. -/
def eventSynchronize : Result Unit :=
  match n.eventSync with
  | .ok () => ({ l with work := if l.work = .recorded then .none else l.work }, .ok ())
  | .error e => (l, .error e)

def eventRecord : Result Unit :=
  match n.eventRecord with
  | .ok () => ({ l with
      work := if l.work = .queued then .recorded else l.work
      completionEventRecorded := true }, .ok ())
  | .error e => (l, .error e)

def tryDeviceFenceAfterSyncError : ServingLane × Bool :=
  if f.cuda ∧ l.cudaDeviceId.isSome ∧ n.deviceFence then ({ l with work := .none }, true)
  else (l, false)

def clearInFlight : ServingLane :=
  { l with inFlight := false, inFlightGraphGuard := none, completionEventRecorded := false }

/-- `synchronized || try_device_fence_after_sync_error()`, behind a synchronization attempt. -/
def orDeviceFence (r : Result Unit) : ServingLane × Bool :=
  match r with
  | (l, .ok ()) => (l, true)
  | (l, .error _) => tryDeviceFenceAfterSyncError f l n

/-- The completion event if one is recorded, else the bound outputs. -/
def synchronizeCompletion : Result Unit :=
  if f.cuda ∧ l.completionEventRecorded then eventSynchronize l n
  else bindingSynchronizeOutputs l n.syncOutputs

def tryComplete : Result CompletionStatus :=
  if !l.inFlight then (l, .ok .ready)
  else if f.cuda ∧ l.completionEventRecorded then
    match n.eventIsComplete with
    | .error e => (l, .error e)
    | .ok true => (clearInFlight { l with
        work := if l.work = .recorded then .none else l.work }, .ok .ready)
    | .ok false => (l, .ok .pending)
  else (l, .error (.local
    "zrt: this in-flight lane has no nonblocking completion event; synchronize it explicitly"))

def finishInFlightBestEffort : ServingLane :=
  if !l.inFlight then l
  else
    let (l, fenced) := orDeviceFence f n (synchronizeCompletion f l n)
    if fenced then clearInFlight l else l

def synchronizeOutputs : Result Unit :=
  if !l.inFlight then (l, .ok ())
  else
    let r := synchronizeCompletion f l n
    let (l, fenced) := orDeviceFence f n r
    (if fenced then clearInFlight l else l, r.2)

def rebindHostInputsIfNeeded : Result Unit :=
  if l.rebindInputsEachRun ∧ l.deviceInputs = false then call l n.rebind else (l, .ok ())

def refreshDeviceInputs : Result Unit :=
  if l.deviceInputs then
    if f.cuda then
      if l.cudaDeviceId = none then
        (l, .error (.local "zrt: device-input lane is missing its CUDA device id"))
      else call l n.refresh
    else (l, .error (.local "zrt: device-input mode requires the `cuda` feature"))
  else (l, .ok ())

/-- `Session::run_binding`, and with run options `Session::run_binding_with`. -/
def runBinding (opts : Option RunOptions) : Result Unit :=
  (call l n.checkBindingSession).andThen fun l _ =>
  (call l (if opts.isSome then n.checkRunOptions else .ok ())).andThen fun l _ =>
  (call l n.syncInputs).andThen fun l _ =>
  (runWithBinding l n).andThen fun l _ => bindingSynchronizeOutputs l n.syncOutputs

/-- `Session::run_binding_unsynchronized`, and with run options its `_with` variant. -/
def runBindingUnsynchronized (opts : Option RunOptions) : Result Unit :=
  (call l n.checkBindingSession).andThen fun l _ =>
  (call l (if opts.isSome then n.checkRunOptions else .ok ())).andThen fun l _ =>
  runWithBinding l n

def fenceOrRetainGraphGuard (graphGuard : Option Int) : ServingLane × Bool :=
  let (l, fenced) := orDeviceFence f n (bindingSynchronizeOutputs l n.fenceOutputs)
  match fenced, graphGuard with
  | true, _ => (clearInFlight l, true)
  | false, some guard => ({ l with inFlightGraphGuard := some guard, inFlight := true }, false)
  | false, none => (l, false)

def settleGraphRun (graphGuard : Option Int) (result : Except Error Unit)
    (retainOnSuccess : Bool) : Result Unit :=
  match result with
  | .ok () =>
    (if retainOnSuccess then { l with inFlightGraphGuard := graphGuard, inFlight := true } else l,
      .ok ())
  | .error error => ((fenceOrRetainGraphGuard f l n graphGuard).1, .error error)

/-- The first successful run with a fresh annotation id is ORT's capture run. -/
def markCaptured (r : Result Unit) : ServingLane :=
  if r.1.graphId.isSome ∧ r.2.isOk then { r.1 with graphCaptured := true } else r.1

def runBoundBinding : Result Unit :=
  match l.runOpts with
  | none => runBinding l n none
  | some opts =>
    let graphGuard := l.graphLease
    let r := runBinding l n (some opts)
    settleGraphRun f (markCaptured r) n graphGuard r.2 false

def runBoundBindingEnqueued : Result Unit :=
  (ensureIdle l).andThen fun l _ =>
    let graphGuard := l.graphLease
    let r := (runBindingUnsynchronized l n (some l.enqueuedRunOpts)).andThen fun l _ =>
      if f.cuda ∧ l.deviceInputs ∧ l.graphId.isSome then eventRecord l n else (l, .ok ())
    settleGraphRun f (markCaptured r) n graphGuard r.2 true

/-- `run` once its inputs are prepared. -/
def runPrepared : Result Unit :=
  if f.cuda ∧ l.deviceInputs ∧ l.graphId.isSome then
    (runBoundBindingEnqueued f l n).andThen fun l _ => synchronizeOutputs f l n
  else runBoundBinding f l n

def run : Result Unit :=
  (ensureIdle l).andThen fun l _ =>
  (rebindHostInputsIfNeeded l n).andThen fun l _ =>
  (refreshDeviceInputs f l n).andThen fun l _ => runPrepared f l n

def runEnqueued : Result Unit :=
  (ensureIdle l).andThen fun l _ =>
  (rebindHostInputsIfNeeded l n).andThen fun l _ =>
  (refreshDeviceInputs f l n).andThen fun l _ => runBoundBindingEnqueued f l n

/-- `InFlightRun`, the owned token of an enqueued lane. -/
structure InFlightRun where
  lane : Option ServingLane

/-- `LaneEnqueueError`: the error and the lane handed back. -/
structure LaneEnqueueError where
  error : Error
  lane : ServingLane

def enqueue : Except LaneEnqueueError InFlightRun :=
  match runEnqueued f l n with
  | (l, .ok ()) => .ok ⟨some l⟩
  | (l, .error error) => .error ⟨error, l⟩

/-- The lane `enqueue` moved into its token or its error. -/
def enqueuedLane : Except LaneEnqueueError InFlightRun → Option ServingLane
  | .ok run => run.lane
  | .error e => some e.lane

/-- The timings of the profiled runs are left out. -/
def runEventProfiled : Result Unit :=
  (ensureIdle l).andThen fun l _ =>
    if l.deviceInputs = false ∨ l.graphId = none then
      (l, .error (.local
        "zrt: event-profiled run requires device inputs and a CUDA graph id"))
    else
      (refreshDeviceInputs f l n).andThen fun l _ =>
      (runBoundBindingEnqueued f l n).andThen fun l _ => synchronizeOutputs f l n

/-- `run_profiled` from its bound-input synchronization on. -/
def runProfiledPrepared : Result Unit :=
  (call l n.syncInputs).andThen fun l _ =>
    let graphGuard := l.graphLease
    let r := runBindingUnsynchronized l n l.runOpts
    (settleGraphRun f (markCaptured r) n graphGuard r.2 true).andThen fun l _ =>
      match bindingSynchronizeOutputs l n.syncOutputs with
      | (l, .ok ()) => (clearInFlight l, .ok ())
      | (l, .error error) => ((fenceOrRetainGraphGuard f l n none).1, .error error)

def runProfiled : Result Unit :=
  (ensureIdle l).andThen fun l _ =>
  (rebindHostInputsIfNeeded l n).andThen fun l _ =>
  (refreshDeviceInputs f l n).andThen fun l _ => runProfiledPrepared f l n

/-- The synchronized and the enqueued composition, frozen together. -/
def materializeRunOptions (graphId : Option Int) (syncStream : Option Nat) :
    Except Error (RunOptions × RunOptions) :=
  let synchronized := match graphId with
    | some id => RunOptions.graphReplay id
    | none => RunOptions.new
  let enqueued := match graphId with
    | some id => RunOptions.enqueued id
    | none => { RunOptions.new with disableEpSync := true }
  n.freeze.map fun _ => ({ synchronized with syncStream }, { enqueued with syncStream })

def ensureGraphIdAssignable : Result Unit :=
  if l.deviceInputs then (l, .ok ())
  else (l, .error (.local ("zrt: gpu_graph_id requires a device-input lane on the retained user " ++
    "stream; a host-input captured graph replays stale inputs — build the lane with " ++
    "`with_device_inputs`/`with_device_io`")))

def setGpuGraphId (id : Int) : Result Unit :=
  (ensureIdle l).andThen fun l _ =>
  (ensureGraphIdAssignable l).andThen fun l _ =>
    match materializeRunOptions n (some id) (if f.ep then l.syncStream else none) with
    | .error e => (l, .error e)
    | .ok (synchronized, enqueued) => ({ l with
        runOpts := some synchronized
        enqueuedRunOpts := enqueued
        graphLease := some id
        graphId := some id
        graphCaptured := false }, .ok ())

/-- `set_sync_stream`, for a stream that does or does not share the session's environment. -/
def setSyncStream (stream : Nat) (sharesEnvGuard : Bool) : Result Unit :=
  (ensureIdle l).andThen fun l _ =>
    if sharesEnvGuard then
      match materializeRunOptions n l.graphId (some stream) with
      | .error e => (l, .error e)
      | .ok (synchronized, enqueued) => ({ l with
          runOpts := some synchronized
          enqueuedRunOpts := enqueued
          syncStream := some stream }, .ok ())
    else (l, .error (.local "SyncStream belongs to a different Environment"))

def setRebindInputsEachRun (enabled : Bool) : ServingLane :=
  { l with rebindInputsEachRun := enabled }

/-- What the owner of a lane calls. `enqueue` stands for the lane in the token it moves to. -/
inductive Op where
  | run
  | runEnqueued
  | runProfiled
  | runEventProfiled
  | enqueue
  | synchronizeOutputs
  | tryComplete
  | finishInFlightBestEffort
  | setGpuGraphId (id : Int)
  | setSyncStream (stream : Nat) (sharesEnvGuard : Bool)
  | setRebindInputsEachRun (enabled : Bool)
  deriving DecidableEq

/-- The lane after an operation. `run_event_profiled` exists with the `cuda` feature only, and
`set_sync_stream` with `ep`. -/
def Op.exec : Op → ServingLane
  | .run => (Lane.run f l n).1
  | .runEnqueued => (Lane.runEnqueued f l n).1
  | .runProfiled => (Lane.runProfiled f l n).1
  | .runEventProfiled => if f.cuda then (Lane.runEventProfiled f l n).1 else l
  | .enqueue => (enqueuedLane (Lane.enqueue f l n)).getD l
  | .synchronizeOutputs => (Lane.synchronizeOutputs f l n).1
  | .tryComplete => (Lane.tryComplete f l n).1
  | .finishInFlightBestEffort => Lane.finishInFlightBestEffort f l n
  | .setGpuGraphId id => (Lane.setGpuGraphId f l n id).1
  | .setSyncStream stream shares => if f.ep then (Lane.setSyncStream l n stream shares).1 else l
  | .setRebindInputsEachRun enabled => Lane.setRebindInputsEachRun l enabled

/-- A lane under its owner, with any native outcomes. -/
def laneLts : Lts.System ServingLane (Op × Native) where
  Initial l := ∃ deviceId, (deviceId ≠ none → f.cuda = true) ∧ l = .new deviceId
  Tr l a l' := a.1.exec f l a.2 = l'

abbrev Reachable : Prop := Lts.Reachable (laneLts f) l

end Zrt.Lane
