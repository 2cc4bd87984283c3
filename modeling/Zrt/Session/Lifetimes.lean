import Zrt.Lts
import Zrt.Teardown

/-! What the values of the library own, in the order in which Rust drops it, and the constructors
that hand them out. The engine's answers are arguments. -/
namespace Zrt.Lifetimes

open Teardown

inductive Kind where
  | env | threadingOptions | threadManager | userLogger
  | session | runOptions | prepackedWeights | spooledModel
  | cudaStream | syncStream | loraAdapter
  | allocator | value | storage | ioBinding
deriving DecidableEq

/-- A native object, or memory that one uses. -/
structure Native where
  kind : Kind
  id : Nat
deriving DecidableEq

abbrev Todo := List (Action Native)

structure ThreadingOptions where
  handle : Native
  manager : Option Native
deriving DecidableEq

def ThreadingOptions.drop (t : ThreadingOptions) : Todo :=
  .release t.handle :: releases t.manager.toList

/-- Built by the chain of its setters; each handle is an `Arc`. -/
structure RunOptions where
  syncStream : Option Nat
  activeLoraAdapters : List Nat
deriving DecidableEq

def RunOptions.drop (o : RunOptions) : Todo :=
  unrefs (o.syncStream.toList ++ o.activeLoraAdapters)

structure MaterializedRunOptions where
  opts : Native
  config : RunOptions
deriving DecidableEq

def MaterializedRunOptions.drop (o : MaterializedRunOptions) : Todo :=
  .release o.opts :: o.config.drop

/-- The streams of the configured providers, and the environments of the queued devices. -/
structure SessionOptions where
  cudaStreams : List Nat
  deviceEnvs : List Nat
deriving DecidableEq

def SessionOptions.drop (o : SessionOptions) : Todo := unrefs (o.cudaStreams ++ o.deviceEnvs)

structure TensorBuffer where
  value : Native
  data : Native
deriving DecidableEq

def TensorBuffer.drop (b : TensorBuffer) : Todo := [.release b.value, .release b.data]

/-- `owned` is the native allocator if dropping releases it. No constructor sets both guards. -/
structure Allocator where
  owned : Option Native
  session : Option Nat
  env : Option Nat
  exclusive : session = none ∨ env = none
deriving DecidableEq

def Allocator.drop (a : Allocator) : Todo :=
  releases a.owned.toList ++ unrefs (a.session.toList ++ a.env.toList)

/-- Without its session guard. -/
def Allocator.takeSessionGuard (a : Allocator) : Allocator := ⟨a.owned, none, a.env, .inl rfl⟩

structure AllocatedTensor where
  value : Native
  allocator : Allocator
  session : Option Nat
deriving DecidableEq

def AllocatedTensor.drop (t : AllocatedTensor) : Todo :=
  .release t.value :: (t.allocator.drop ++ unrefs t.session.toList)

/-- Of `from_allocated`: ORT frees the data with its value. -/
structure OwnedValue where
  value : Native
  data : Native
deriving DecidableEq

def OwnedValue.drop (v : OwnedValue) : Todo := [.release v.value, .release v.data]

structure IoBinding where
  binding : Native
  session : Nat
deriving DecidableEq

def IoBinding.drop (b : IoBinding) : Todo := [.release b.binding, .unref b.session]

/-- A tensor that a lane binds. -/
inductive Bound where
  | buffer (b : TensorBuffer)
  | allocated (t : AllocatedTensor)
deriving DecidableEq

def Bound.value : Bound → Native
  | .buffer b => b.value
  | .allocated t => t.value

def Bound.drop : Bound → Todo
  | .buffer b => b.drop
  | .allocated t => t.drop

/-- The lanes declare the binding first, then what it binds, run options and a session. -/
structure Lane where
  binding : IoBinding
  bound : List Bound
  enqueuedRunOpts : Option Native
  session : Option Nat
deriving DecidableEq

def Lane.drop (l : Lane) : Todo :=
  l.binding.drop ++ (l.bound.flatMap Bound.drop ++
    (releases l.enqueuedRunOpts.toList ++ unrefs l.session.toList))

/-- What the callers have in hand. `environment` to `hardwareDevice` are handles of type `Arc`, or
own nothing but one; `tensor` also stands for string tensors. -/
inductive Value where
  | environment (inner : Nat)
  | session (inner : Nat)
  | prepackedWeightsContainer (inner : Nat)
  | cudaStream (arc : Nat)
  | syncStream (arc : Nat)
  | loraAdapter (arc : Nat)
  | epDevice (env : Nat)
  | hardwareDevice (env : Nat)
  | threadingOptions (t : ThreadingOptions)
  | runOptions (o : RunOptions)
  | materializedRunOptions (o : MaterializedRunOptions)
  | sessionOptions (o : SessionOptions)
  | tensorBuffer (b : TensorBuffer)
  | ownedInitializer (value : TensorBuffer)
  | allocator (a : Allocator)
  | allocatedTensor (t : AllocatedTensor)
  | tensor (value : Native)
  | ownedValue (v : OwnedValue)
  | ioBinding (b : IoBinding)
  | lane (l : Lane)
deriving DecidableEq

def Value.drop : Value → Todo
  | .environment i | .session i | .prepackedWeightsContainer i | .cudaStream i | .syncStream i
  | .loraAdapter i | .epDevice i | .hardwareDevice i => [.unref i]
  | .threadingOptions t => t.drop
  | .runOptions o => o.drop
  | .materializedRunOptions o => o.drop
  | .sessionOptions o => o.drop
  | .tensorBuffer b | .ownedInitializer b => b.drop
  | .allocator a => a.drop
  | .allocatedTensor t => t.drop
  | .tensor value => [.release value]
  | .ownedValue v => v.drop
  | .ioBinding b => b.drop
  | .lane l => l.drop

/-- The values in hand, and the rest of the heap (which holds no value). -/
structure State where
  hands : Multiset Value
  rest : Heap Native

def State.heap (s : State) : Heap Native := { s.rest with held := s.hands.map Value.drop }

/-- The native object of a shared one: every `Drop` here releases it before the fields are
dropped. -/
def State.native (s : State) (i : Nat) : Option Native :=
  match s.rest.body i with
  | .release r :: _ => some r
  | _ => none

def State.fresh (s : State) (kind : Kind) (n : Nat) : Native := ⟨kind, s.rest.made.length + n⟩

/-- Some value in hand owns a handle of the shared object. -/
def State.Borrows (s : State) (i : Nat) : Prop := ∃ v ∈ s.hands, .unref i ∈ v.drop

instance (s : State) (i : Nat) : Decidable (s.Borrows i) :=
  Multiset.decidableExistsMultiset

/-- The native object of this kind behind a handle that the caller has. -/
def State.borrow (s : State) (kind : Kind) (i : Nat) : Option Native :=
  if s.Borrows i then (s.native i).filter (·.kind = kind) else none

/-- The allocator is the default one (`none`), or a value in hand owns it. -/
def State.Sees (s : State) (allocator : Option Native) : Prop :=
  ∀ n ∈ allocator, n.kind = .allocator ∧ ∃ v ∈ s.hands, .release n ∈ v.drop

instance (s : State) (n : Native) : Decidable (∃ v ∈ s.hands, .release n ∈ v.drop) :=
  Multiset.decidableExistsMultiset

instance (s : State) (allocator : Option Native) : Decidable (s.Sees allocator) :=
  inferInstanceAs
    (Decidable (∀ n ∈ allocator, n.kind = .allocator ∧ ∃ v ∈ s.hands, .release n ∈ v.drop))

/-- Where what a call puts together goes: to the caller, to the caller behind a new `Arc`, or away;
what is forgotten is not released. -/
inductive Result where
  | value (v : Value)
  | arc (handle : Nat → Value)
  | dropped
  | forgotten

/-- What a call does: the values moved into it, the parts of what it builds, which native objects
the first of these needs, the arguments it drops, and what becomes of the result. -/
structure Effect where
  moved : List Value
  parts : List (Piece Native)
  kept : List (Native × Native)
  leftover : List Value
  result : Result

def State.build (s : State) (e : Effect) : Heap Native :=
  { s.rest.build e.parts 0 with kept := e.kept ++ s.rest.kept }

/-- The leftover arguments are in hand until their drop begins. -/
def State.apply (s : State) (e : Effect) : State :=
  let heap := s.build e
  let hands := s.hands - e.moved - e.leftover
  let dropping := (e.leftover.map Value.drop : Multiset Todo) + heap.dropping
  match e.result with
  | .value v => ⟨v ::ₘ hands, { heap with held := 0, dropping := dropping }⟩
  | .arc handle => ⟨handle heap.shared.length ::ₘ hands,
      { heap with shared := heap.shared ++ [⟨1, glue e.parts⟩], held := 0, dropping := dropping }⟩
  | .dropped => ⟨hands, { heap with held := 0, dropping := glue e.parts ::ₘ dropping }⟩
  | .forgotten => ⟨hands, { heap with held := 0, dropping := dropping }⟩

/-- A call that fails drops what it had. -/
def failed (moved : List Value) (parts : List (Piece Native)) : Effect :=
  ⟨moved, parts, [], [], .dropped⟩

/-- A call that makes one native object behind a new `Arc`, or fails. -/
def newArc (s : State) (kind : Kind) (handle : Nat → Value) (created : Bool) : Effect :=
  if created then ⟨[], [.fresh (s.fresh kind 0)], [], [], .arc handle⟩ else failed [] []

def prepackedWeightsContainerNew (s : State) (created : Bool) : Effect :=
  newArc s .prepackedWeights .prepackedWeightsContainer created

/-- The stream that `CudaStream::new` makes, in the `Arc` that its users take. -/
def cudaStreamNew (s : State) (created : Bool) : Effect := newArc s .cudaStream .cudaStream created

/-- The adapter of `from_path` or `from_array`, in the `Arc` that run options take. Its allocator is
the default one. -/
def loraAdapterNew (s : State) (created : Bool) : Effect :=
  newArc s .loraAdapter .loraAdapter created

/-- `from_path_with_allocator` and `from_array_with_allocator`: the adapter is allocated through an
allocator of which it keeps no hold. -/
def loraAdapterNewWithAllocator (s : State) (allocator : Option Native) (created : Bool) :
    Option Effect :=
  let adapter := s.fresh .loraAdapter 0
  if s.Sees allocator then
    some <| if created then
      ⟨[], [.fresh adapter], allocator.toList.map (adapter, ·), [], .arc .loraAdapter⟩
    else failed [] []
  else none

def threadingOptionsNew (s : State) (created : Bool) : Effect :=
  let handle := s.fresh .threadingOptions 0
  if created then ⟨[], [.fresh handle], [], [], .value (.threadingOptions ⟨handle, none⟩)⟩
  else failed [] []

def withThreadManager (s : State) (t : ThreadingOptions) (accepted : Bool) : Effect :=
  let manager := s.fresh .threadManager 0
  if t.manager.isSome then failed [.threadingOptions t] [.value t.drop]
  else if accepted then
    ⟨[.threadingOptions t], [.value t.drop, .fresh manager], [], [],
      .value (.threadingOptions ⟨t.handle, some manager⟩)⟩
  else failed [.threadingOptions t] [.fresh manager, .value t.drop]

/-- `new_with_level` and the variants with global thread pools and a logger. -/
def environmentNew (s : State) (threading : Option ThreadingOptions)
    (logger created : Bool) : Effect :=
  let env := s.fresh .env 0
  let moved := threading.toList.map .threadingOptions
  let pools := threading.toList.map fun t => Piece.value t.drop
  if created then
    let userLogger := if logger then [s.fresh .userLogger 1] else []
    ⟨moved, .fresh env :: (pools ++ userLogger.map .fresh),
      (threading.toList.flatMap (fun t => t.handle :: t.manager.toList) ++ userLogger).map (env, ·),
      [], .arc .environment⟩
  else
    let userLogger := if logger then [s.fresh .userLogger 0] else []
    failed moved (userLogger.map .fresh ++ pools)

/-- The number of the shared object, for a value that only is a handle of one. -/
def Value.arc : Value → Option Nat
  | .environment i | .session i | .prepackedWeightsContainer i | .cudaStream i | .syncStream i
  | .loraAdapter i | .epDevice i | .hardwareDevice i => some i
  | _ => none

def clone (s : State) (v : Value) : Option Effect := do
  let i ← v.arc
  if v ∈ s.hands then some ⟨[], [.ref i], [], [], .value v⟩ else none

/-- A call that takes a handle of an environment that the caller can see. -/
def withEnv (s : State) (env : Nat) (v : Value) : Option Effect := do
  let _ ← s.borrow .env env
  some ⟨[], [.ref env], [], [], .value v⟩

/-- A device that `get_ep_devices` found. -/
def epDevice (s : State) (env : Nat) : Option Effect := withEnv s env (.epDevice env)

/-- A device of `hardware_devices`, or the one of an EP device. -/
def hardwareDevice (s : State) (env : Nat) : Option Effect := withEnv s env (.hardwareDevice env)

/-- A call that makes a native object over a shared one and takes a handle of this, or fails. -/
def newOver (s : State) (parent : Kind) (i : Nat) (kind : Kind) (result : Native → Result)
    (created : Bool) : Option Effect := do
  let native ← s.borrow parent i
  let raw := s.fresh kind 0
  some <| if created then ⟨[], [.fresh raw, .ref i], [(raw, native)], [],
    result raw⟩ else failed [] []

/-- `SyncStream::for_ep_device` takes the environment of the device. -/
def forEpDevice (s : State) (env : Nat) (created : Bool) : Option Effect :=
  newOver s .env env .syncStream (fun _ => .arc .syncStream) created

/-- `from_storage`, with storage that its caller made for it. -/
def tensorBufferFromStorage (s : State) (created : Bool) : Effect :=
  if created then
    let value := s.fresh .value 0
    let data := s.fresh .storage 1
    ⟨[], [.fresh value, .fresh data], [(value, data)], [], .value (.tensorBuffer ⟨value, data⟩)⟩
  else failed [] [.fresh (s.fresh .storage 0)]

def ownedInitializerTensor (value : TensorBuffer) (named : Bool) : Effect :=
  if named then ⟨[.tensorBuffer value], [.value value.drop], [], [],
    .value (.ownedInitializer value)⟩
  else failed [.tensorBuffer value] [.value value.drop]

def runOptions (s : State) (o : RunOptions) : Option Effect := do
  let _ ← o.syncStream.toList.mapM (s.borrow .syncStream)
  let _ ← o.activeLoraAdapters.mapM (s.borrow .loraAdapter)
  some ⟨[], (o.syncStream.toList ++ o.activeLoraAdapters).map .ref, [], [], .value (.runOptions o)⟩

/-- `freeze`; the settings may be refused after the native options were made. -/
def freeze (s : State) (o : RunOptions) (created accepted : Bool) : Option Effect := do
  let natives ← (o.syncStream.toList ++ o.activeLoraAdapters).mapM s.native
  let opts := s.fresh .runOptions 0
  some <| if !created then failed [.runOptions o] [.value o.drop]
    else if accepted then
      ⟨[.runOptions o], [.fresh opts, .value o.drop], natives.map (opts, ·), [],
        .value (.materializedRunOptions ⟨opts, o⟩)⟩
    else failed [.runOptions o] [.fresh opts, .value o.drop]

def sessionOptions (s : State) (o : SessionOptions) : Option Effect := do
  let _ ← o.cudaStreams.mapM (s.borrow .cudaStream)
  let _ ← o.deviceEnvs.mapM (s.borrow .env)
  some ⟨[], (o.cudaStreams ++ o.deviceEnvs).map .ref, [], [], .value (.sessionOptions o)⟩

/-- How far the construction of a session gets. -/
inductive Progress where
  | refused | created | ready
deriving DecidableEq

/-- The constructors of `Session`, and `from_handle_with_resources`. The order of the fields is that
of `SessionInner`; after an error the native session goes first and then the arguments, the last one
first. -/
def sessionNew (s : State) (env : Nat) (opts : SessionOptions) (initializers : List TensorBuffer)
    (prepacked : Option Nat) (spooled : Bool) (progress : Progress) : Option Effect := do
  let native ← s.borrow .env env
  let containers ← prepacked.toList.mapM (s.borrow .prepackedWeights)
  let streams ← opts.cudaStreams.mapM (s.borrow .cudaStream)
  let moved := initializers.map .ownedInitializer
  let weights := initializers.map fun b => Piece.value b.drop
  let sess := s.fresh .session 0
  let spool (n : Nat) := if spooled then [s.fresh .spooledModel n] else []
  some <| match progress with
  | .refused => ⟨moved, (spool 0).map .fresh ++ weights, [], [.sessionOptions opts], .dropped⟩
  | .created => ⟨moved, .fresh sess :: ((spool 1).map .fresh ++ opts.cudaStreams.map .ref ++
      prepacked.toList.map .ref ++ weights ++ [.ref env]), [], [.sessionOptions opts], .dropped⟩
  | .ready => ⟨moved, .fresh sess :: ([.fresh (s.fresh .runOptions 1)] ++ weights ++
      prepacked.toList.map .ref ++ opts.cudaStreams.map .ref ++ (spool 2).map .fresh ++ [.ref env]),
      (initializers.flatMap (fun b => [b.value, b.data]) ++ containers ++ streams ++ spool 2 ++
        [native]).map (sess, ·),
      [.sessionOptions opts], .arc .session⟩

/-- `Allocator::get_default`. -/
def allocatorGetDefault : Effect :=
  ⟨[], [], [], [], .value (.allocator ⟨none, none, none, .inl rfl⟩)⟩

def allocatorCreate (s : State) (session : Nat) (created : Bool) : Option Effect :=
  newOver s .session session .allocator
    (fun alloc => .value (.allocator ⟨some alloc, some session, none, .inr rfl⟩)) created

/-- `create_shared_allocator` and `get_shared_allocator`. -/
def sharedAllocator (s : State) (env : Nat) (created : Bool) : Option Effect :=
  newOver s .env env .allocator
    (fun alloc => .value (.allocator ⟨some alloc, none, some env, .inl rfl⟩)) created

def ioBindingNew (s : State) (session : Nat) (created : Bool) : Option Effect :=
  newOver s .session session .ioBinding
    (fun binding => .value (.ioBinding ⟨binding, session⟩)) created

/-- `AllocatedTensor::new`: the session guard goes behind the allocator, as the last field. -/
def allocatedTensorNew (s : State) (a : Allocator) (progress : Progress) : Effect :=
  let value := s.fresh .value 0
  match progress with
  | .refused => failed [.allocator a] [.value a.drop]
  | .created => failed [.allocator a] [.fresh value, .value a.drop]
  | .ready => ⟨[.allocator a], [.fresh value, .value a.drop], a.owned.toList.map (value, ·), [],
      .value (.allocatedTensor ⟨value, a.takeSessionGuard, a.session⟩)⟩

/-- `Tensor::from_buffer`; the buffer is the caller's. -/
def tensorFromBuffer (s : State) (created : Bool) : Effect :=
  let value := s.fresh .value 0
  if created then ⟨[], [.fresh value], [], [], .value (.tensor value)⟩ else failed [] []

/-- A value in memory of the default allocator; it is lost when it cannot be filled. -/
def filledTensor (s : State) (progress : Progress) : Effect :=
  let value := s.fresh .value 0
  match progress with
  | .refused => failed [] []
  | .created => ⟨[], [.fresh value], [], [], .forgotten⟩
  | .ready => ⟨[], [.fresh value], [], [], .value (.tensor value)⟩

def stringTensorNew (s : State) (progress : Progress) : Effect := filledTensor s progress

def tensorCopyFromSlice (s : State) (progress : Progress) : Effect := filledTensor s progress

/-- How far `from_allocated` gets: its data is refused, taken without a value for it, or has a value
that cannot be introspected. -/
inductive Adoption where
  | refused | taken | created | ready
deriving DecidableEq

/-- `allocate` of an allocator, and `OwnedValue::from_allocated` of the allocation. The value keeps
no hold of the allocator that frees its data. -/
def ownedValueFromAllocated (s : State) (deleter : Option Native) (progress : Adoption) :
    Option Effect :=
  let value := s.fresh .value 0
  let data := s.fresh .storage 1
  if s.Sees deleter then
    some <| match progress with
    | .refused => failed [] [.fresh (s.fresh .storage 0)]
    | .taken => ⟨[], [.fresh (s.fresh .storage 0)], [], [], .forgotten⟩
    | .created => failed [] [.fresh value, .fresh data]
    | .ready => ⟨[], [.fresh value, .fresh data],
        (value, data) :: deleter.toList.map (data, ·), [], .value (.ownedValue ⟨value, data⟩)⟩
  else none

def Bound.toValue : Bound → Value
  | .buffer b => .tensorBuffer b
  | .allocated t => .allocatedTensor t

/-- The end of the functions that build a lane, when the binding holds all that is bound. A serving
lane makes its run options here. What failed before drops the binding and the buffers one by one. -/
def laneNew (s : State) (binding : IoBinding) (bound : List Bound) (serving : Bool)
    (session : Option Nat) : Effect :=
  let opts := if serving then some (s.fresh .runOptions 0) else none
  ⟨.ioBinding binding :: (bound.map Bound.toValue ++ session.toList.map .session),
    .value binding.drop :: (bound.map (fun b => .value b.drop) ++ opts.toList.map .fresh ++
      session.toList.map fun i => .value [.unref i]),
    bound.map fun b => (binding.binding, b.value), [],
      .value (.lane ⟨binding, bound, opts, session⟩)⟩

/-- Also `prepare_static_tensor_io_lane`. -/
def prepareTensorIoLane (s : State) (binding : IoBinding) (inputs outputs : List TensorBuffer) :
    Effect :=
  laneNew s binding (inputs.map .buffer ++ outputs.map .buffer) false none

def prepareAllocatedOutputTensorIoLane (s : State) (binding : IoBinding)
    (inputs : List TensorBuffer)
    (outputs : List AllocatedTensor) : Effect :=
  laneNew s binding (inputs.map .buffer ++ outputs.map .allocated) false none

/-- Its runs put values of the engine beside the inputs later. -/
def prepareDeviceOutputTensorIoLane (s : State) (binding : IoBinding) (inputs : List TensorBuffer) :
    Effect :=
  laneNew s binding (inputs.map .buffer) false none

def prepareAllocatedTensorIoLane (s : State) (binding : IoBinding)
    (inputs outputs : List AllocatedTensor) :
    Effect :=
  laneNew s binding (inputs.map .allocated ++ outputs.map .allocated) false none

/-- `Lane` of the runtime. -/
def runtimeLane (s : State) (binding : IoBinding) (inputs outputs : List TensorBuffer)
    (session : Nat) :
    Effect :=
  laneNew s binding (inputs.map .buffer ++ outputs.map .buffer) false (some session)

/-- `ServingLane::build`. -/
def servingLane (s : State) (binding : IoBinding) (inputs outputs : List TensorBuffer)
    (deviceOutputs deviceInputs : List AllocatedTensor) (session : Nat) : Effect :=
  laneNew s binding (inputs.map .buffer ++ outputs.map .buffer ++ deviceOutputs.map .allocated ++
    deviceInputs.map .allocated) true (some session)

/-- The calls that build something. -/
inductive Call where
  | prepackedWeightsContainerNew (created : Bool)
  | cudaStreamNew (created : Bool)
  | loraAdapterNew (created : Bool)
  | loraAdapterNewWithAllocator (allocator : Option Native) (created : Bool)
  | threadingOptionsNew (created : Bool)
  | withThreadManager (t : ThreadingOptions) (accepted : Bool)
  | environmentNew (threading : Option ThreadingOptions) (logger created : Bool)
  | clone (v : Value)
  | epDevice (env : Nat)
  | hardwareDevice (env : Nat)
  | forEpDevice (env : Nat) (created : Bool)
  | tensorBufferFromStorage (created : Bool)
  | ownedInitializerTensor (value : TensorBuffer) (named : Bool)
  | runOptions (o : RunOptions)
  | freeze (o : RunOptions) (created accepted : Bool)
  | sessionOptions (o : SessionOptions)
  | sessionNew (env : Nat) (opts : SessionOptions) (initializers : List TensorBuffer)
      (prepacked : Option Nat) (spooled : Bool) (progress : Progress)
  | allocatorGetDefault
  | allocatorCreate (session : Nat) (created : Bool)
  | sharedAllocator (env : Nat) (created : Bool)
  | allocatedTensorNew (a : Allocator) (progress : Progress)
  | tensorFromBuffer (created : Bool)
  | stringTensorNew (progress : Progress)
  | tensorCopyFromSlice (progress : Progress)
  | ownedValueFromAllocated (deleter : Option Native) (progress : Adoption)
  | ioBindingNew (session : Nat) (created : Bool)
  | prepareTensorIoLane (binding : IoBinding) (inputs outputs : List TensorBuffer)
  | prepareAllocatedOutputTensorIoLane (binding : IoBinding) (inputs : List TensorBuffer)
      (outputs : List AllocatedTensor)
  | prepareDeviceOutputTensorIoLane (binding : IoBinding) (inputs : List TensorBuffer)
  | prepareAllocatedTensorIoLane (binding : IoBinding) (inputs outputs : List AllocatedTensor)
  | runtimeLane (binding : IoBinding) (inputs outputs : List TensorBuffer) (session : Nat)
  | servingLane (binding : IoBinding) (inputs outputs : List TensorBuffer)
      (deviceOutputs deviceInputs : List AllocatedTensor) (session : Nat)

def effect (s : State) : Call → Option Effect
  | .prepackedWeightsContainerNew created => some (prepackedWeightsContainerNew s created)
  | .cudaStreamNew created => some (cudaStreamNew s created)
  | .loraAdapterNew created => some (loraAdapterNew s created)
  | .loraAdapterNewWithAllocator allocator created =>
    loraAdapterNewWithAllocator s allocator created
  | .threadingOptionsNew created => some (threadingOptionsNew s created)
  | .withThreadManager t accepted => some (withThreadManager s t accepted)
  | .environmentNew threading logger created => some (environmentNew s threading logger created)
  | .clone v => clone s v
  | .epDevice env => epDevice s env
  | .hardwareDevice env => hardwareDevice s env
  | .forEpDevice env created => forEpDevice s env created
  | .tensorBufferFromStorage created => some (tensorBufferFromStorage s created)
  | .ownedInitializerTensor value named => some (ownedInitializerTensor value named)
  | .runOptions o => runOptions s o
  | .freeze o created accepted => freeze s o created accepted
  | .sessionOptions o => sessionOptions s o
  | .sessionNew env opts initializers prepacked spooled progress =>
    sessionNew s env opts initializers prepacked spooled progress
  | .allocatorGetDefault => some allocatorGetDefault
  | .allocatorCreate session created => allocatorCreate s session created
  | .sharedAllocator env created => sharedAllocator s env created
  | .allocatedTensorNew a progress => some (allocatedTensorNew s a progress)
  | .tensorFromBuffer created => some (tensorFromBuffer s created)
  | .stringTensorNew progress => some (stringTensorNew s progress)
  | .tensorCopyFromSlice progress => some (tensorCopyFromSlice s progress)
  | .ownedValueFromAllocated deleter progress => ownedValueFromAllocated s deleter progress
  | .ioBindingNew session created => ioBindingNew s session created
  | .prepareTensorIoLane binding inputs outputs =>
    some (prepareTensorIoLane s binding inputs outputs)
  | .prepareAllocatedOutputTensorIoLane binding inputs outputs =>
    some (prepareAllocatedOutputTensorIoLane s binding inputs outputs)
  | .prepareDeviceOutputTensorIoLane binding inputs =>
    some (prepareDeviceOutputTensorIoLane s binding inputs)
  | .prepareAllocatedTensorIoLane binding inputs outputs =>
    some (prepareAllocatedTensorIoLane s binding inputs outputs)
  | .runtimeLane binding inputs outputs session =>
    some (runtimeLane s binding inputs outputs session)
  | .servingLane binding inputs outputs deviceOutputs deviceInputs session =>
    some (servingLane s binding inputs outputs deviceOutputs deviceInputs session)

/-- The call leaks what it made, or lets out what its allocator must outlive without a hold of
it. -/
def Call.Unguarded : Call → Prop
  | .loraAdapterNewWithAllocator allocator created => created = true ∧ allocator.isSome = true
  | .stringTensorNew progress | .tensorCopyFromSlice progress => progress = .created
  | .ownedValueFromAllocated deleter progress =>
    progress = .taken ∨ progress = .ready ∧ deleter.isSome = true
  | _ => False

/-- The next action of a value that is being dropped. -/
def State.act (s : State) : Todo → State
  | [] => s
  | .release r :: todo =>
    ⟨s.hands, { s.rest with
      dropping := todo ::ₘ s.rest.dropping.erase (.release r :: todo)
      released := r :: s.rest.released }⟩
  | .unref i :: todo => ⟨s.hands, s.rest.unref i todo (s.rest.dropping.erase (.unref i :: todo))⟩

/-- What a thread does: a call, the begin of a drop, the next action of a drop that has begun. -/
inductive Op where
  | call (c : Call)
  | drop (v : Value)
  | act (todo : Todo)

def Op.Unguarded : Op → Prop
  | .call c => c.Unguarded
  | _ => False

/-- A call can only be made with arguments that the caller has. -/
def step (s : State) : Op → Option State
  | .call c => (effect s c).bind fun e =>
    if ((e.moved ++ e.leftover : List Value) : Multiset Value) ≤ s.hands then
      some (s.apply e)
    else none
  | .drop v =>
    if v ∈ s.hands then
      some ⟨s.hands.erase v, { s.rest with dropping := v.drop ::ₘ s.rest.dropping }⟩
    else none
  | .act todo => if todo ∈ s.rest.dropping then some (s.act todo) else none

/-- The library in use: any number of threads, in any order. -/
def lifetimes : Lts.System State Op where
  Initial s := s = ⟨0, .empty⟩
  Tr s c t := step s c = some t

end Zrt.Lifetimes
