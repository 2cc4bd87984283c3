import Mathlib.Data.List.MinMax
import Mathlib.Data.Vector.Basic
import Zrt.Dynamic.PreparedSlots
import Zrt.Lane.Specification
import Zrt.ShapePlan.Specification

/-! `DynamicIoRuntime` of `runtime.rs`: the bounded cache of shape buckets and its owned runs. -/
namespace Zrt.Dynamic

open Lane (Features Native)
open ShapePlan (OutputPolicy SealedPlan zipEqual)
open SwapRemove

/-- `usize::MAX + 1`. -/
def usizeBound : Nat := 2 ^ 64

/-- `ShapeKey`, and a request's input and output shapes. -/
structure ShapeKey (ins outs : Nat) where
  inputShapes : List.Vector (List Int) ins
  outputShapes : List.Vector (List Int) outs
  deriving DecidableEq

variable {ins outs : Nat}

def ShapeKey.matches (key request : ShapeKey ins outs) : Bool :=
  zipEqual key.inputShapes.toList request.inputShapes.toList &&
    zipEqual key.outputShapes.toList request.outputShapes.toList

/-- Which bucket a lane was built for, by which runtime, and its place there; history. -/
structure Origin (ins outs : Nat) where
  runtime : Nat
  key : ShapeKey ins outs
  bucketId : PreparedBucketId
  index : Nat
  deriving DecidableEq

/-- A `ServingLane` of a dynamic runtime. -/
structure ServingLane (ins outs : Nat) extends Lane.ServingLane where
  origin : Origin ins outs
  deriving DecidableEq

/-- The lane after one of its own operations. -/
def ServingLane.after (l : ServingLane ins outs) (lane : Lane.ServingLane) : ServingLane ins outs :=
  { l with toServingLane := lane }

structure ShapeBucket (ins outs : Nat) where
  key : ShapeKey ins outs
  id : PreparedBucketId
  lanes : List (ServingLane ins outs)
  lastUsed : Nat
  detachedLanes : Nat
  graphId : Option Int
  deriving DecidableEq

structure RecoveredDynamicLane (ins outs : Nat) where
  lane : ServingLane ins outs
  bucketId : PreparedBucketId
  deriving DecidableEq

/-- `RecoverySlots` with its calls taken as atomic: the cells, and the stack of ready indices. -/
structure RecoverySlots (ins outs : Nat) where
  slots : List (Option (RecoveredDynamicLane ins outs))
  ready : List Nat
  deriving DecidableEq

def RecoverySlots.new (capacity : Nat) : RecoverySlots ins outs :=
  ⟨List.replicate capacity none, []⟩

/-- `RecoverySlots::recover`, or `none` where it leaks the lane. -/
def RecoverySlots.recover (s : RecoverySlots ins outs) (slot : Nat)
    (recovered : RecoveredDynamicLane ins outs) : Option (RecoverySlots ins outs) :=
  match s.slots[slot]? with
  | some none => some ⟨s.slots.set slot (some recovered), slot :: s.ready⟩
  | _ => none

inductive RuntimeMode where
  | sharedSession
  | replicatedSessions
  deriving DecidableEq

/-- `DynamicIoOptions`, less the buffer policies. -/
structure DynamicIoOptions where
  maxBuckets : Nat
  rebindInputsEachRun : Bool
  cudaGraph : Bool
  deviceOutputs : Bool
  deviceId : Option Int
  strictShapeCache : Bool
  stream : Option Nat
  laneStreams : List Nat
  deriving DecidableEq

/-- `DynamicIoOptions::new`; the default of `max_buckets` is 16. -/
def DynamicIoOptions.new (maxBuckets : Nat) : DynamicIoOptions where
  maxBuckets := maxBuckets
  rebindInputsEachRun := false
  cudaGraph := false
  deviceOutputs := false
  deviceId := none
  strictShapeCache := false
  stream := none
  laneStreams := []

variable (f : Features)

def DynamicIoOptions.validate (o : DynamicIoOptions) : Except Error DynamicIoOptions :=
  if o.maxBuckets = 0 then
    .error (.local "DynamicIoRuntime requires at least one shape bucket")
  else if o.cudaGraph ∧ o.rebindInputsEachRun then
    .error (.local ("DynamicIoRuntime: `cuda_graph` and `rebind_inputs_each_run` are mutually " ++
      "exclusive (rebind tears down the pointers a captured CUDA graph bakes); refresh " ++
      "device-resident inputs with an on-stream host→device copy instead"))
  else if o.cudaGraph ∧ o.deviceId = none then
    .error (.local
      ("DynamicIoRuntime: `cuda_graph` requires device-resident inputs refreshed on " ++
      "the retained user stream (`with_device_inputs`/`with_device_input_streams`); a " ++
      "host-input captured graph replays stale inputs"))
  else if o.deviceOutputs ∧ o.deviceId = none then
    .error (.local ("DynamicIoRuntime: device outputs require device-input mode and an owned " ++
      "CUDA stream"))
  else if f.cuda = false ∧ o.deviceOutputs then
    .error (.local "DynamicIoRuntime: device outputs require the `cuda` feature")
  else if o.deviceId.isSome ∧ o.rebindInputsEachRun then
    .error (.local ("DynamicIoRuntime: `device_inputs` and `rebind_inputs_each_run` are " ++
      "mutually exclusive (rebind tears down the device pointers a captured CUDA graph bakes); " ++
      "refresh device-resident inputs with the on-stream copy instead"))
  else if f.cuda = false ∧ o.deviceId.isSome then
    .error (.local "DynamicIoRuntime: device-input mode requires the `cuda` feature")
  else if o.deviceId.isSome ∧ o.laneStreams = [] ∧ o.stream = none then
    .error (.local "DynamicIoRuntime: device-input mode requires a non-null CUDA stream handle")
  else .ok o

def DynamicIoOptions.validateRuntimeMode (o : DynamicIoOptions) (mode : RuntimeMode)
    (laneCount : Nat) : Except Error Unit :=
  if o.cudaGraph ∧ 1 < laneCount ∧ mode ≠ .replicatedSessions then
    .error (.local ("DynamicIoRuntime: `cuda_graph` with a shared session supports exactly one " ++
      "lane per shape bucket — one bucket mints one gpu_graph_id, and ORT captures whichever " ++
      "lane ran first into that graph, so other lanes would silently use that lane's " ++
      "buffers; use replicated sessions (one session + exact stream per lane) or a single lane"))
  else if f.cuda = false ∨ o.laneStreams = [] then .ok ()
  else if mode ≠ .replicatedSessions then
    .error (.local ("DynamicIoRuntime: per-lane device-input streams require replicated sessions"))
  else if o.laneStreams.length ≠ laneCount then
    .error (.local ("DynamicIoRuntime: expected " ++ toString laneCount ++
      " per-lane CUDA streams, got " ++ toString o.laneStreams.length))
  else .ok ()

/-- `DynamicIoRuntime`. The name and the fields from `leaked` on are history: the lanes forgotten
because no fence covered their work, those forgotten where the accounting failed, the buckets
forgotten over an unfenced lane, and the graph ids whose release was requested. -/
structure DynamicIoRuntime (ins outs : Nat) extends PreparedSlots where
  name : Nat
  mode : RuntimeMode
  options : DynamicIoOptions
  shapePlan : Option SealedPlan
  laneCount : Nat
  buckets : List (ShapeBucket ins outs)
  retiredBuckets : List (ShapeBucket ins outs)
  recovery : RecoverySlots ins outs
  hotBucket : Option Nat
  tick : Nat
  leaked : List (RecoveredDynamicLane ins outs)
  lost : List (RecoveredDynamicLane ins outs)
  forgotten : List (ShapeBucket ins outs)
  releaseRequests : List Int

/-- An `OwnedDynamicIoRun` whose lane has not been taken; `recovery` names the runtime whose
recovery slots it holds. -/
structure OwnedDynamicIoRun (ins outs : Nat) where
  lane : ServingLane ins outs
  bucketId : PreparedBucketId
  recovery : Nat
  deriving DecidableEq

def DynamicIoRuntime.fresh (name : Nat) (mode : RuntimeMode) (laneCount : Nat)
    (options : DynamicIoOptions) : DynamicIoRuntime ins outs where
  preparedSlots := []
  freePreparedSlots := []
  name := name
  mode := mode
  options := options
  shapePlan := none
  laneCount := laneCount
  buckets := []
  retiredBuckets := []
  recovery := .new (options.maxBuckets * laneCount)
  hotBucket := none
  tick := 0
  leaked := []
  lost := []
  forgotten := []
  releaseRequests := []

/-- The constructors, which differ in the mode and in the text for an empty set. -/
def DynamicIoRuntime.new (name : Nat) (mode : RuntimeMode) (laneCount : Nat)
    (options : DynamicIoOptions) : Except Error (DynamicIoRuntime ins outs) :=
  if laneCount = 0 then
    .error (.local (match mode with
      | .sharedSession => "DynamicIoRuntime requires at least one lane"
      | .replicatedSessions => "DynamicIoRuntime requires at least one session"))
  else match options.validate f with
    | .error e => .error e
    | .ok options => match options.validateRuntimeMode f mode laneCount with
      | .error e => .error e
      | .ok () =>
        if options.maxBuckets * laneCount < usizeBound then .ok (.fresh name mode laneCount options)
        else .error (.local "zrt: dynamic recovery slot capacity overflow")

/-- What a method leaves behind and what it returns. -/
abbrev Result (ins outs : Nat) (α : Type) := DynamicIoRuntime ins outs × Except Error α

/-- The `?` operator. -/
def Result.andThen {α β : Type} (x : Result ins outs α)
    (k : DynamicIoRuntime ins outs → α → Result ins outs β) : Result ins outs β :=
  match x with
  | (r, .ok a) => k r a
  | (r, .error e) => (r, .error e)

variable (r : DynamicIoRuntime ins outs)

def DynamicIoRuntime.bucketIds : List PreparedBucketId := r.buckets.map ShapeBucket.id

def DynamicIoRuntime.bucketIndex (id : PreparedBucketId) : Option Nat :=
  preparedBucketIndex r.toPreparedSlots r.bucketIds id

/-- One recovered lane of `reclaim_dropped_runs_inner`, from the cell at `slot`. -/
def reclaimSlot (slot : Nat) : DynamicIoRuntime ins outs × Nat :=
  match (r.recovery.slots[slot]?).join with
  | none => (r, 0)
  | some recovered =>
    let r := { r with recovery := { r.recovery with slots := r.recovery.slots.set slot none } }
    match r.bucketIndex recovered.bucketId with
    | none => ({ r with lost := recovered :: r.lost }, 0)
    | some i => match r.buckets[i]? with
      | none => ({ r with lost := recovered :: r.lost }, 0)
      | some bucket =>
        if bucket.detachedLanes = 0 then ({ r with lost := recovered :: r.lost }, 0)
        else ({ r with
          buckets := r.buckets.set i { bucket with
            detachedLanes := bucket.detachedLanes - 1
            lanes := bucket.lanes ++ [recovered.lane] } }, 1)

/-- The loop of `reclaim_dropped_runs_inner`, popping the given ready stack. -/
def reclaimReady (r : DynamicIoRuntime ins outs) : List Nat → DynamicIoRuntime ins outs × Nat
  | [] => (r, 0)
  | slot :: ready =>
    let (r, n) := reclaimSlot { r with recovery := { r.recovery with ready := ready } } slot
    let (r, m) := reclaimReady r ready
    (r, n + m)

def reclaimDroppedRuns : DynamicIoRuntime ins outs × Nat := reclaimReady r r.recovery.ready

/-- The bucket with every lane fenced, where the fence succeeds. -/
def ShapeBucket.finishInFlight (bucket : ShapeBucket ins outs) (n : Nat → Native) :
    ShapeBucket ins outs :=
  { bucket with
    lanes := bucket.lanes.mapIdx fun i l =>
      l.after (Lane.finishInFlightBestEffort f l.toServingLane (n i)) }

def ShapeBucket.anyInFlight (bucket : ShapeBucket ins outs) : Bool :=
  bucket.lanes.any fun l => l.inFlight

/-- The fate of a bucket of `drain_active_buckets_and_release_graphs`, its ids being retired. -/
def drainBucket (r : DynamicIoRuntime ins outs) (bucket : ShapeBucket ins outs) :
    DynamicIoRuntime ins outs :=
  if bucket.anyInFlight then { r with forgotten := bucket :: r.forgotten }
  else if bucket.detachedLanes = 0 then
    { r with releaseRequests := r.releaseRequests ++ bucket.graphId.toList }
  else r

def drainActiveBucketsAndReleaseGraphs (n : Nat → Nat → Native) :
    DynamicIoRuntime ins outs × Bool :=
  let slots := r.bucketIds.foldl retirePreparedBucketId r.toPreparedSlots
  let buckets := r.buckets.mapIdx fun i bucket => bucket.finishInFlight f (n i)
  (buckets.foldl drainBucket { r with toPreparedSlots := slots, buckets := [] },
    buckets.all fun bucket => !bucket.anyInFlight)

/-- `retire_bucket_at`; an index out of range panics. -/
def retireBucketAt (index : Nat) (n : Nat → Native) : DynamicIoRuntime ins outs × Bool :=
  match r.buckets[index]? with
  | none => (r, false)
  | some bucket =>
    if bucket.detachedLanes ≠ 0 then (r, false)
    else
      let bucket := bucket.finishInFlight f n
      let r := { r with
        toPreparedSlots := removePreparedBucketId r.toPreparedSlots r.bucketIds index bucket.id
        buckets := swapRemove r.buckets index }
      if bucket.anyInFlight then ({ r with forgotten := bucket :: r.forgotten }, true)
      else match bucket.graphId with
        | some id => ({ r with
            retiredBuckets := r.retiredBuckets ++ [bucket]
            releaseRequests := r.releaseRequests ++ [id] }, true)
        | none => (r, true)

/-- `reap_retired_buckets`; the order of the retired buckets is read nowhere. -/
def reapRetiredBuckets (released : PreparedBucketId → Bool) : DynamicIoRuntime ins outs :=
  { r with retiredBuckets := r.retiredBuckets.filter fun bucket => !released bucket.id }

def waitForRetiredBuckets : DynamicIoRuntime ins outs := { r with retiredBuckets := [] }

def nextTick : DynamicIoRuntime ins outs := { r with tick := max ((r.tick + 1) % 2 ^ 64) 1 }

/-- The bookkeeping of a cache hit. -/
def touch (i : Nat) : DynamicIoRuntime ins outs :=
  let r := nextTick r
  { r with
    buckets := r.buckets.modify i fun bucket => { bucket with lastUsed := r.tick }
    hotBucket := some i }

/-- The outcomes of the native calls one bucket request makes: which retired buckets have had
their graph released, the fences of an evicted bucket's lanes, and the construction of a new
bucket's. -/
structure CreateNative where
  released : PreparedBucketId → Bool
  fence : Nat → Native
  build : Except Error Unit
  graphId : Except Error Int
  setGraph : Nat → Native
  capture : Nat → Native

/-- A fallible call on every lane of a set in turn. -/
def eachLane (g : Nat → Lane.ServingLane → Lane.Result Unit) :
    Nat → List Lane.ServingLane → Except Error (List Lane.ServingLane)
  | _, [] => .ok []
  | i, l :: ls => match g i l with
    | (_, .error e) => .error e
    | (l, .ok ()) => (eachLane g (i + 1) ls).map (l :: ·)

def buildLaneSet (build : Except Error Unit) : Except Error (List Lane.ServingLane) :=
  if r.options.deviceId.isSome ∧ f.cuda = false then
    .error (.local "zrt: device-input mode requires the `cuda` feature")
  else if r.options.deviceId.isSome ∧ r.options.stream = none ∧
      (r.mode = .sharedSession ∨ r.options.laneStreams = []) then
    .error (.local "device-input mode is missing its owned CUDA stream")
  else build.map fun _ => List.replicate r.laneCount
    (Lane.setRebindInputsEachRun (.new r.options.deviceId) r.options.rebindInputsEachRun)

/-- `StaticIoRuntime::set_gpu_graph_id`: every lane is checked, then every lane is assigned. -/
def setGpuGraphIds (lanes : List Lane.ServingLane) (id : Int) (n : Nat → Native) :
    Except Error (List Lane.ServingLane) :=
  match eachLane (fun _ l => (Lane.ensureIdle l).andThen fun l _ => Lane.ensureGraphIdAssignable l)
      0 lanes with
  | .error e => .error e
  | .ok lanes => eachLane (fun i l => Lane.setGpuGraphId f l (n i) id) 0 lanes

/-- The eager capture of one lane of a new bucket. -/
def captureLane (n : Nat → Native) (i : Nat) (l : Lane.ServingLane) : Lane.Result Unit :=
  match Lane.run f l (n i) with
  | (l, .ok ()) => (l, .ok ())
  | (l, .error error) => (l, .error (.local ("zrt: eager CUDA-graph capture for lane " ++
      toString i ++ " of a new shape bucket failed: " ++ error.display)))

/-- The lanes of a new bucket and its graph id: built, annotated and captured. -/
def prepareLanes (n : CreateNative) : Except Error (List Lane.ServingLane × Option Int) :=
  match buildLaneSet f r n.build with
  | .error e => .error e
  | .ok lanes =>
    if r.options.cudaGraph then match n.graphId with
      | .error e => .error e
      | .ok id => match setGpuGraphIds f lanes id n.setGraph with
        | .error e => .error e
        | .ok lanes => (eachLane (captureLane f n.capture) 0 lanes).map fun lanes =>
          (lanes, some id)
    else .ok (lanes, none)

def checkPlanBucket (bucket : ShapePlan.CanonicalShape) : Except Error Unit :=
  if bucket.inputShapes.length ≠ ins ∨ bucket.outputShapes.length ≠ outs then
    .error (.local ("zrt: serving plan arity mismatch: runtime expects " ++ toString ins ++
      " inputs/" ++ toString outs ++ " outputs, plan bucket has " ++
      toString bucket.inputShapes.length ++ "/" ++ toString bucket.outputShapes.length))
  else
    let policyMatches := match bucket.outputPolicy with
      | .hostBuffer => !r.options.deviceOutputs
      | .cudaPinned => false
      | .deviceResident => r.options.deviceOutputs
    if policyMatches then .ok ()
    else .error (.local "zrt: serving plan output placement does not match DynamicIoOptions")

def installShapePlan (plan : SealedPlan) : Result ins outs Unit :=
  if r.buckets ≠ [] ∨ r.retiredBuckets ≠ [] then
    (r, .error (.local
      "zrt: install the serving shape plan before building or warming buckets"))
  else if r.options.maxBuckets < plan.len then
    (r, .error (.local ("zrt: serving plan has " ++ toString plan.len ++
      " buckets but runtime capacity is " ++ toString r.options.maxBuckets)))
  else match plan.buckets.forM (checkPlanBucket r) with
    | .error e => (r, .error e)
    | .ok () => ({ r with shapePlan := some plan }, .ok ())

def validatePlannedShape (request : ShapeKey ins outs) : Except Error Unit :=
  match r.shapePlan with
  | none =>
    if r.options.cudaGraph then
      .error (.local ("zrt: CUDA-graph runtime requires a sealed ServingShapePlan before bucket " ++
        "creation"))
    else .ok ()
  | some plan => match plan.classify request.inputShapes.toList with
    | .error error =>
      .error (.local ("zrt: serving shape rejected by sealed plan: " ++ error.display))
    | .ok id => match plan.bucket id with
      | none => .error (.local "zrt: serving plan returned an invalid shape id")
      | some bucket =>
        if ¬ zipEqual bucket.inputShapes request.inputShapes.toList ∨
            ¬ zipEqual bucket.outputShapes request.outputShapes.toList then
          .error (.local ("zrt: request does not exactly match the canonical input/output " ++
            "shapes; pad to the classified bucket before running"))
        else .ok ()

def findBucketIndex (request : ShapeKey ins outs) : Option Nat :=
  let hot := if 1 < r.buckets.length then r.hotBucket.filter fun i =>
      (r.buckets[i]?).any fun bucket => bucket.key.matches request
    else none
  match hot with
  | some i => some i
  | none => r.buckets.findIdx? fun bucket => bucket.key.matches request

def refuseGraphBucketCreationWhileInFlight : Except Error Unit :=
  match r.buckets.zipIdx.find? fun p => 0 < p.1.detachedLanes ∨ p.1.anyInFlight with
  | none => .ok ()
  | some (bucket, index) => .error (.local ("zrt: refusing to create a new CUDA-graph shape " ++
      "bucket while bucket " ++ toString index ++ " still has " ++ toString bucket.detachedLanes ++
      " detached lane(s) and " ++ toString (bucket.lanes.countP fun l => l.inFlight) ++
      " in-flight lane(s) — graph capture must not overlap a live replay; prebuild or warm " ++
      "every bucket before serving traffic"))

/-- The first of the least recently used buckets without detached lanes. -/
def oldestIdleBucket : Option Nat :=
  ((r.buckets.zipIdx.filter fun p => p.1.detachedLanes = 0).argmin fun p => p.1.lastUsed).map
    Prod.snd

def evictOneBucketIfFull (n : Nat → Native) : Result ins outs Unit :=
  if r.buckets.length < r.options.maxBuckets then (r, .ok ())
  else if r.options.cudaGraph then
    (r, .error (.local ("zrt: cuda_graph dynamic shape cache is full (max_buckets=" ++
      toString r.options.maxBuckets ++ "); refusing to evict because ORT's legacy CUDA EP keeps " ++
      "captured graphs for the session lifetime. Increase max_buckets and prewarm the hot shape " ++
      "set, or disable cuda_graph for unbounded shapes.")))
  else
    let r := { r with hotBucket := none }
    match oldestIdleBucket r with
    | none => (r, .error (.local
        "zrt: dynamic shape cache is full and every bucket has owned runs in flight"))
    | some oldest => match retireBucketAt f r oldest n with
      | (r, true) => (r, .ok ())
      | (r, false) => (r, .error (.local
          "zrt: dynamic shape cache eviction refused inconsistent detached-lane accounting"))

/-- `get_or_create_bucket_inner` up to the strict-cache check; the index of a cached bucket. -/
def lookupBucket (request : ShapeKey ins outs) (allowCreate : Bool)
    (released : PreparedBucketId → Bool) : Result ins outs (Option Nat) :=
  let r := (reclaimDroppedRuns r).1
  match validatePlannedShape r request with
  | .error e => (r, .error e)
  | .ok () =>
    let r := reapRetiredBuckets r released
    match findBucketIndex r request with
    | some i => (touch r i, .ok (some i))
    | none =>
      if allowCreate then (r, .ok none)
      else (r, .error (.local ("zrt: dynamic shape cache miss rejected by strict_shape_cache; " ++
        "prebuild or warm this shape before serving")))

/-- Room for a new bucket, and its lanes. -/
def prepareBucket (n : CreateNative) : Result ins outs (List Lane.ServingLane × Option Int) :=
  match (if r.options.cudaGraph then refuseGraphBucketCreationWhileInFlight r else .ok ()) with
  | .error e => (r, .error e)
  | .ok () => Result.andThen (evictOneBucketIfFull f r n.fence) fun r _ => (r, prepareLanes f r n)

/-- The lanes of a bucket about to be pushed, with their fixed recovery slots. -/
def assignRecoverySlots (request : ShapeKey ins outs) (id : PreparedBucketId)
    (lanes : List Lane.ServingLane) : List (ServingLane ins outs) :=
  lanes.mapIdx fun i l =>
    ⟨{ l with recoverySlot := some (id.slot * r.laneCount + i) }, ⟨r.name, request, id, i⟩⟩

/-- The new bucket gets its tick, its id and its lanes' recovery slots. The sums of the latter are
checked additions; one that overflows aborts. -/
def insertBucket (request : ShapeKey ins outs) (lanes : List Lane.ServingLane)
    (graphId : Option Int) : Result ins outs Nat :=
  let r := nextTick r
  match allocatePreparedBucketId r.toPreparedSlots r.buckets.length with
  | (slots, .error e) => ({ r with toPreparedSlots := slots }, .error e)
  | (slots, .ok id) =>
    let r := { r with toPreparedSlots := slots }
    if id.slot * r.laneCount < usizeBound then
      let bucket : ShapeBucket ins outs := {
        key := request
        id := id
        lanes := assignRecoverySlots r request id lanes
        lastUsed := r.tick
        detachedLanes := 0
        graphId := graphId }
      ({ r with buckets := r.buckets ++ [bucket], hotBucket := some r.buckets.length },
        .ok r.buckets.length)
    else (r, .error (.local "zrt: dynamic recovery slot index overflow"))

/-- `get_or_create_bucket_inner`, with the index of the bucket it lends out. -/
def getOrCreateBucketInner (request : ShapeKey ins outs) (allowCreate : Bool) (n : CreateNative) :
    Result ins outs Nat :=
  Result.andThen (lookupBucket r request allowCreate n.released) fun r found =>
    match found with
    | some i => (r, .ok i)
    | none => Result.andThen (prepareBucket f r n) fun r lanes =>
        insertBucket r request lanes.1 lanes.2

def getOrCreateBucket (request : ShapeKey ins outs) (n : CreateNative) : Result ins outs Nat :=
  getOrCreateBucketInner f r request (!r.options.strictShapeCache) n

def preparedBucketId (request : ShapeKey ins outs) : Except Error PreparedBucketId :=
  match (findBucketIndex r request).bind (r.buckets[·]?) with
  | some bucket => .ok bucket.id
  | none => .error (.local "zrt: shape bucket has not been prepared")

/-- `return_detached_lane`. -/
def returnDetachedLane (bucketId : PreparedBucketId) (lane : ServingLane ins outs) :
    Result ins outs Unit :=
  match (r.bucketIndex bucketId).bind fun i => (r.buckets[i]?).map fun bucket => (i, bucket) with
  | none => (r, .error (.local "zrt: shape bucket retired while an owned run was in flight"))
  | some (i, bucket) =>
    if bucket.detachedLanes = 0 ∨ r.laneCount ≤ bucket.lanes.length then
      ({ r with lost := ⟨lane, bucketId⟩ :: r.lost },
        .error (.local "zrt: detached-lane accounting is inconsistent"))
    else ({ r with
      buckets := r.buckets.set i { bucket with
        detachedLanes := bucket.detachedLanes - 1
        lanes := bucket.lanes ++ [lane] } }, .ok ())

/-- The first part of `enqueue_prepared`: a lane leaves its bucket. -/
def detachLane (bucketId : PreparedBucketId) :
    Result ins outs (ServingLane ins outs × PreparedBucketId) :=
  match (r.bucketIndex bucketId).bind fun i => (r.buckets[i]?).map fun bucket => (i, bucket) with
  | none => (r, .error (.local "zrt: prepared shape bucket is unavailable"))
  | some (i, bucket) =>
    if bucket.detachedLanes + bucket.lanes.length ≠ r.laneCount then
      (r, .error (.local "zrt: detached-lane accounting diverged from the lane slot count"))
    else match bucket.lanes.getLast? with
      | none => (r, .error (.local "zrt: all lanes for this serving shape are in flight"))
      | some lane => ({ r with
          buckets := r.buckets.set i { bucket with
            lanes := bucket.lanes.dropLast
            detachedLanes := bucket.detachedLanes + 1 } }, .ok (lane, bucket.id))

/-- A closure over a lane: the operations it performs, with the native outcomes it meets. A closure
that exchanges its lane is one whose caller has exchanged the bucket's before. -/
abbrev Script := List (Lane.Op × Native)

def ServingLane.play (l : ServingLane ins outs) (script : Script) : ServingLane ins outs :=
  script.foldl (fun l a => l.after (a.1.exec f l.toServingLane a.2)) l

/-- What the closure of an enqueue does and returns, and the outcomes of the run behind it. -/
structure EnqueueNative where
  prepare : Script
  prepared : Except Error Unit
  run : Native
  fence : Native

/-- `enqueue_prepared`, whose closure leaves `prepare lane` where it was lent `lane`. -/
def enqueueWith (bucketId : PreparedBucketId) (prepare : ServingLane ins outs →
    ServingLane ins outs)
    (prepared : Except Error Unit) (run fence : Native) :
    Result ins outs (OwnedDynamicIoRun ins outs) :=
  Result.andThen (detachLane (reclaimDroppedRuns r).1 bucketId) fun r detached =>
    let (lane, bucketId) := detached
    let lane := prepare lane
    match prepared with
    | .error error => ((returnDetachedLane r bucketId lane).1, .error error)
    | .ok () => match Lane.runEnqueued f lane.toServingLane run with
      | (l, .ok ()) => (r, .ok ⟨lane.after l, bucketId, r.name⟩)
      | (l, .error error) =>
        let lane := lane.after (Lane.finishInFlightBestEffort f l fence)
        if lane.inFlight then ({ r with leaked := ⟨lane, bucketId⟩ :: r.leaked }, .error error)
        else ((returnDetachedLane r bucketId lane).1, .error error)

def enqueuePrepared (bucketId : PreparedBucketId) (n : EnqueueNative) :
    Result ins outs (OwnedDynamicIoRun ins outs) :=
  enqueueWith f r bucketId (fun lane => lane.play f n.prepare) n.prepared n.run n.fence

def completeOwned {α : Type} (run : OwnedDynamicIoRun ins outs) (n : Native)
    (consume : ServingLane ins outs → Except Error α) : Result ins outs α :=
  let (l, syncResult) := Lane.synchronizeOutputs f run.lane.toServingLane n
  let lane := run.lane.after l
  let consumeResult := match syncResult with
    | .ok () => consume lane
    | .error error => .error error
  if lane.inFlight then
    ({ r with leaked := ⟨lane, run.bucketId⟩ :: r.leaked }, consumeResult)
  else
    let (r, returnResult) := returnDetachedLane r run.bucketId lane
    (r, match consumeResult, returnResult with
      | .error error, _ => .error error
      | .ok _, .error error => .error error
      | .ok value, .ok () => .ok value)

/-- `OwnedDynamicIoRun::drop`, on the runtime whose recovery slots the token holds. -/
def dropOwned (run : OwnedDynamicIoRun ins outs) (n : Native) : DynamicIoRuntime ins outs :=
  let lane := run.lane.after (Lane.finishInFlightBestEffort f run.lane.toServingLane n)
  let recovered : RecoveredDynamicLane ins outs := ⟨lane, run.bucketId⟩
  if lane.inFlight then { r with leaked := recovered :: r.leaked }
  else match lane.recoverySlot.bind fun slot => r.recovery.recover slot recovered with
    | some recovery => { r with recovery := recovery }
    | none => { r with lost := recovered :: r.lost }

def clearBuckets (n : Nat → Nat → Native) : Result ins outs Unit :=
  let r := (reclaimDroppedRuns r).1
  if r.buckets.any fun bucket => bucket.detachedLanes ≠ 0 then
    (r, .error (.local "zrt: cannot clear shape buckets while owned runs are in flight"))
  else
    let r := waitForRetiredBuckets { r with hotBucket := none }
    match drainActiveBucketsAndReleaseGraphs f r n with
    | (r, true) => (r, .ok ())
    | (r, false) => (r, .error (.local ("zrt: could not fence every in-flight lane while " ++
        "clearing buckets; affected resources were leaked for safety")))

/-- `bucket_mut`, with the index of the bucket it lends out. -/
def bucketMut (request : ShapeKey ins outs) : DynamicIoRuntime ins outs × Option Nat :=
  let r := (reclaimDroppedRuns r).1
  match findBucketIndex r request with
  | none => (r, none)
  | some i => (touch r i, some i)

def removeBucket (request : ShapeKey ins outs) (n : Nat → Native) :
    DynamicIoRuntime ins outs × Bool :=
  let r := (reclaimDroppedRuns r).1
  match findBucketIndex r request with
  | none => (r, false)
  | some i =>
    if (r.buckets[i]?).any fun bucket => bucket.detachedLanes ≠ 0 then (r, false)
    else retireBucketAt f { r with hotBucket := none } i n

/-- One operation on a lane of a lent-out bucket. -/
def bucketLane (i j : Nat) (op : Lane.Op) (n : Native) : DynamicIoRuntime ins outs :=
  { r with
    buckets := r.buckets.modify i fun bucket => { bucket with
      lanes := bucket.lanes.modify j fun l => l.after (op.exec f l.toServingLane n) } }

end Zrt.Dynamic
