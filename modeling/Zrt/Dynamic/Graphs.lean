import Zrt.Dynamic.Mixing
import Zrt.Dynamic.Unwinding

/-! A CUDA-graph runtime among the others of its process: graph ids, captures and releases. -/
namespace Zrt.Dynamic

open Lane (Features Native)

variable {ins outs : Nat}

/-- `i32::MAX`. -/
def i32Max : Int := 2 ^ 31 - 1

/-- `allocate_captured_graph_id`, where `NEXT_CAPTURED_GRAPH_ID` is at `next`. -/
def allocateCapturedGraphId (next : Int) : Except Error Int :=
  if next < i32Max then .ok next
  else .error (.local
    "zrt: gpu_graph_id exhausted (i32 overflow); restart the process or disable cuda_graph")

variable (f : Features) (r : DynamicIoRuntime ins outs)

/-- The runtime that a bucket request builds a lane set for, where it gets that far. -/
def buildsFor (request : ShapeKey ins outs) (allowCreate : Bool) (n : CreateNative) :
    Option (DynamicIoRuntime ins outs) :=
  match lookupBucket r request allowCreate n.released with
  | (r, .ok none) =>
    match (if r.options.cudaGraph then refuseGraphBucketCreationWhileInFlight r else .ok ()) with
    | .error _ => none
    | .ok () => match evictOneBucketIfFull f r n.fence with
      | (r, .ok ()) => some r
      | (_, .error _) => none
  | _ => none

/-- The lanes of a new bucket up to their eager capture: built, and assigned the graph id. -/
def annotateLanes (n : CreateNative) : Except Error (List Lane.ServingLane) :=
  match buildLaneSet f r n.build with
  | .error e => .error e
  | .ok lanes => match n.graphId with
    | .error e => .error e
    | .ok id => setGpuGraphIds f lanes id n.setGraph

/-- The lanes as a fallible call on every lane in turn leaves them, up to the first that fails. -/
def lanesAfter (g : Nat → Lane.ServingLane → Lane.Result Unit) :
    Nat → List Lane.ServingLane → List Lane.ServingLane
  | _, [] => []
  | i, l :: ls => match g i l with
    | (l, .error _) => l :: ls
    | (l, .ok ()) => l :: lanesAfter g (i + 1) ls

/-- The lanes that a bucket request which fails from the eager capture on drops, behind the fence
of `ServingLane::drop`. -/
def discardedLanes (n : CreateNative) (fence : Nat → Native) : List Lane.ServingLane :=
  match annotateLanes f r n with
  | .error _ => []
  | .ok lanes => (lanesAfter (captureLane f n.capture) 0 lanes).mapIdx fun i l =>
      Lane.finishInFlightBestEffort f l (fence i)

/-- The buckets as a drain finds them behind its fences. -/
def fencedBuckets (n : Nat → Nat → Native) : List (ShapeBucket ins outs) :=
  r.buckets.mapIdx fun i bucket => bucket.finishInFlight f (n i)

/-- The buckets that a call drops: retired ones, and those of a cache that is cleared. -/
def droppedBuckets : UnwindOp ins outs → List (ShapeBucket ins outs)
  | .call (.getOrCreateBucket request allowCreate n) => r.retiredBuckets.filter fun bucket =>
      bucket ∉ (getOrCreateBucketInner f r request allowCreate n).1.retiredBuckets
  | .call (.clearBuckets n) =>
    if (reclaimDroppedRuns r).1.buckets.any fun bucket => bucket.detachedLanes ≠ 0 then []
    else r.retiredBuckets ++
      (fencedBuckets f (reclaimDroppedRuns r).1 n).filter fun bucket => !bucket.anyInFlight
  | _ => []

def ShapeBucket.laneSet (b : ShapeBucket ins outs) : List Lane.ServingLane :=
  b.lanes.map fun l => l.toServingLane

/-- `DynamicIoRuntime::drop`. -/
def dropRuntime (n : Nat → Nat → Native) : DynamicIoRuntime ins outs :=
  (drainActiveBucketsAndReleaseGraphs f (waitForRetiredBuckets (reclaimDroppedRuns r).1) n).1

/-- The lane over an asynchronous run whose future is gone. -/
def ServingLane.letGo (l : ServingLane ins outs) : ServingLane ins outs :=
  if l.inFlight then l else l.after { l.toServingLane with work := .queued }

/-- A runtime and its surroundings: its lanes in tokens given away or otherwise in the caller's
hands, the counter that all runtimes take graph ids from, and the ids whose release has ended.
`discarded` are the lanes that were dropped, by failed bucket requests or with their bucket. -/
structure GraphState (ins outs : Nat) extends UnwindState ins outs where
  away : List (RecoveredDynamicLane ins outs)
  discarded : List Lane.ServingLane
  nextGraphId : Int
  finished : List Int
  alive : Bool

/-- The calls, with the last fences of lanes that a failed bucket request drops, and what happens
beside them: a token of another runtime is completed here, a token is completed on another runtime
or forgotten, a `RunFuture` of a lane is let go before its callback, another runtime takes a graph
id, a release ends, the runtime is dropped. -/
inductive GraphOp (ins outs : Nat) where
  | call (a : UnwindOp ins outs) (fence : Nat → Native)
  | completeForeign (run : OwnedDynamicIoRun ins outs) (n : Native)
      (consume : ServingLane ins outs → Except Error Unit)
  | giveAway (k : Nat)
  | letGo (i j : Nat)
  | letGoOwned (k : Nat)
  | allocateElsewhere
  | releaseEnds (id : Int)
  | dropRuntime (n : Nat → Nat → Native)

/-- What a call does beside its effect on the runtime and the tokens. -/
def GraphState.request (s : GraphState ins outs) (fence : Nat → Native) :
    UnwindOp ins outs → GraphState ins outs
  | .call (.getOrCreateBucket request allowCreate n) =>
    match buildsFor f s.runtime request allowCreate n with
    | none => s
    | some r => { s with
        nextGraphId :=
          if r.options.cudaGraph ∧ (buildLaneSet f r n.build).isOk ∧ s.nextGraphId < i32Max then
            s.nextGraphId + 1
          else s.nextGraphId
        discarded := match (getOrCreateBucketInner f s.runtime request allowCreate n).2 with
          | .ok _ => s.discarded
          | .error _ => discardedLanes f r n fence ++ s.discarded }
  | _ => s

def graphStep (s : GraphState ins outs) : GraphOp ins outs → GraphState ins outs
  | .call a fence => { s.request f fence a with
      toUnwindState := unwindStep f s.toUnwindState a
      discarded := (droppedBuckets f s.runtime a).flatMap ShapeBucket.laneSet ++
        (s.request f fence a).discarded }
  | .completeForeign run n consume => { s with
      runtime := { (completeOwned f s.runtime run n consume).1 with
        leaked := s.runtime.leaked
        lost := s.runtime.lost } }
  | .giveAway k => match s.runs[k]? with
    | some run => { s with
        runs := s.runs.eraseIdx k
        away := ⟨run.lane, run.bucketId⟩ :: s.away }
    | none => s
  | .letGo i j => { s with
      runtime := { s.runtime with
        buckets := s.runtime.buckets.modify i fun bucket => { bucket with
          lanes := bucket.lanes.modify j ServingLane.letGo } } }
  | .letGoOwned k => { s with
      runs := s.runs.modify k fun run => { run with lane := run.lane.letGo } }
  | .allocateElsewhere => { s with nextGraphId := s.nextGraphId + 1 }
  | .releaseEnds id => { s with finished := id :: s.finished }
  | .dropRuntime n => { s with
      runtime := dropRuntime f s.runtime n
      alive := false }

/-- The notification of the bucket's release has come, if it was asked for one. -/
def ShapeBucket.Finished (b : ShapeBucket ins outs) (finished : List Int) : Prop :=
  ∀ id, b.graphId = some id → id ∈ finished

/-- The call needs no runtime. -/
def UnwindOp.OnToken : UnwindOp ins outs → Prop
  | .call (.dropOwned ..) | .call (.runLane ..) => True
  | _ => False

/-- The outcomes a call meets are those of the counter and of the release notifications: an id is
taken from the counter, `try_recv` answers for a release that has ended, and a call that waits for
the notifications returns behind them. -/
def GraphState.Answers (s : GraphState ins outs) : UnwindOp ins outs → Prop
  | .call (.getOrCreateBucket _ _ n) => n.graphId = allocateCapturedGraphId s.nextGraphId ∧
      ∀ b ∈ s.runtime.retiredBuckets, n.released b.id = true → b.Finished s.finished
  | .call (.clearBuckets _) =>
    (∃ b ∈ (reclaimDroppedRuns s.runtime).1.buckets, b.detachedLanes ≠ 0) ∨
      ∀ b ∈ s.runtime.retiredBuckets, b.Finished s.finished
  | _ => True

def GraphState.Enabled (s : GraphState ins outs) : GraphOp ins outs → Prop
  | .call a _ => (s.alive = true ∨ a.OnToken) ∧ s.Answers a
  | .completeForeign run _ _ => s.alive = true ∧ run.recovery ≠ s.runtime.name
  | .letGo _ _ => s.alive = true
  | .allocateElsewhere => s.nextGraphId < i32Max
  | .releaseEnds id => id ∈ s.runtime.releaseRequests
  | .dropRuntime _ => s.alive = true ∧ ∀ b ∈ s.runtime.retiredBuckets, b.Finished s.finished
  | .giveAway _ | .letGoOwned _ => True

structure GraphState.Initial (s : GraphState ins outs) : Prop where
  runtime : Dynamic.Initial f s.toState
  graph : s.runtime.options.cudaGraph = true
  destroyed : s.destroyed = []
  away : s.away = []
  discarded : s.discarded = []
  finished : s.finished = []
  alive : s.alive = true

def graphLts (f : Features) (ins outs : Nat) :
    Lts.System (GraphState ins outs) (GraphOp ins outs) where
  Initial := GraphState.Initial f
  Tr s a t := s.Enabled a ∧ graphStep f s a = t

/-- The lanes that an exchange puts into the caller's hands. -/
def State.displaced (s : State ins outs) : Exchange ins outs → List (RecoveredDynamicLane ins outs)
  | .bucket i _ => ((s.runtime.buckets[i]?).elim [] ShapeBucket.lanes).map fun lane =>
      ⟨lane, lane.origin.bucketId⟩
  | .lane p _ => (s.laneAt p).toList.map fun lane => ⟨lane, lane.origin.bucketId⟩
  | _ => []

def GraphState.exchange (s : GraphState ins outs) (x : Exchange ins outs) : GraphState ins outs :=
  { s with
    toUnwindState := s.toUnwindState.exchange x
    away := s.displaced x ++ s.away }

/-- A graph runtime under a caller that makes calls and exchanges what it is lent. -/
def lentGraphs (f : Features) (ins outs : Nat) :
    Lts.System (GraphState ins outs) (GraphOp ins outs ⊕ Exchange ins outs) :=
  (graphLts f ins outs).beside GraphState.exchange

/-- The lane operations a call is given, its closure's included. -/
def UnwindOp.Uses (Q : Lane.Op → Prop) : UnwindOp ins outs → Prop
  | .call a => a.Uses Q
  | .enqueuePrepared _ c => ∀ x ∈ c.prepare, Q x.1
  | .completeOwned .. => True

def GraphOp.Uses (Q : Lane.Op → Prop) : GraphOp ins outs → Prop
  | .call a _ => a.Uses Q
  | _ => True

/-- A token that this runtime did not issue inserts its lane here, or a lane is let go of while an
asynchronous run of it is pending. -/
def Strays (f : Features) (s : GraphState ins outs) : GraphOp ins outs → Prop
  | .completeForeign run n _ => Accepts f s.runtime run n
  | .letGo .. | .letGoOwned _ => True
  | _ => False

/-- The lanes of tokens that were given away. -/
def GraphState.gone (s : GraphState ins outs) : Multiset (PreparedBucketId × Tag ins outs) :=
  (s.away.map RecoveredDynamicLane.loan : List (PreparedBucketId × Tag ins outs))

/-- The lanes that are not in a bucket. -/
def GraphState.elsewhere (s : GraphState ins outs) : List (RecoveredDynamicLane ins outs) :=
  s.runs.map (fun run => ⟨run.lane, run.bucketId⟩) ++ s.destroyed ++ s.away ++
    (s.runtime.recovery.lanes ++ s.runtime.leaked ++ s.runtime.lost)

end Zrt.Dynamic
