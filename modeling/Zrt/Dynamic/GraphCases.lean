import Zrt.Dynamic.Graphs
import Zrt.Lane.Graph

/-! What each step of a graph runtime does to its graphs. -/
namespace Zrt.Dynamic

open Lane (Features GraphLane Native)
open SwapRemove

variable {ins outs : Nat} {f : Features} {r r' r'' : DynamicIoRuntime ins outs}
  {b : ShapeBucket ins outs} {i : Nat} {request : ShapeKey ins outs} {allowCreate : Bool}
  {n : CreateNative} {lanes : List Lane.ServingLane × Option Int} {s : GraphState ins outs}
  {a : GraphOp ins outs}

def DynamicIoRuntime.graphs (r : DynamicIoRuntime ins outs) : List (Option Int) :=
  r.buckets.map ShapeBucket.graphId

/-- The graph ids, the releases and the buckets put aside are left alone. -/
structure SameGraphs (r r' : DynamicIoRuntime ins outs) : Prop where
  graphs : r'.graphs = r.graphs
  requests : r'.releaseRequests = r.releaseRequests
  retired : r'.retiredBuckets = r.retiredBuckets
  forgotten : r'.forgotten = r.forgotten
  options : r'.options = r.options

theorem SameGraphs.trans (h : SameGraphs r r') (h' : SameGraphs r' r'') : SameGraphs r r'' :=
  ⟨h'.graphs.trans h.graphs, h'.requests.trans h.requests, h'.retired.trans h.retired,
    h'.forgotten.trans h.forgotten, h'.options.trans h.options⟩

theorem stable_sameGraphs : Stable (@SameGraphs ins outs) where
  trans := SameGraphs.trans
  bucket hb _ hg := ⟨map_set_same hb hg, rfl, rfl, rfl, rfl⟩
  rest _ _ _ _ _ := ⟨rfl, rfl, rfl, rfl, rfl⟩

theorem SameGraphs.refl : SameGraphs r r := stable_sameGraphs.refl

/-- The calls that reach the graphs are a bucket request, a removal and a clearing. -/
theorem unwindStep_cases (f : Features) (s : UnwindState ins outs) (a : UnwindOp ins outs) :
    SameGraphs s.runtime (unwindStep f s a).runtime ∨
    (∃ request allowCreate n, a = .call (.getOrCreateBucket request allowCreate n)) ∨
    (∃ request n, a = .call (.removeBucket request n)) ∨ ∃ n, a = .call (.clearBuckets n) := by
  have hS : Stable (@SameGraphs ins outs) := stable_sameGraphs
  cases a with
  | call a => cases a with
    | getOrCreateBucket request allowCreate n => exact .inr (.inl ⟨request, allowCreate, n, rfl⟩)
    | removeBucket request n => exact .inr (.inr (.inl ⟨request, n, rfl⟩))
    | clearBuckets n => exact .inr (.inr (.inr ⟨n, rfl⟩))
    | bucketMut request => exact .inl hS.bucketMut
    | bucketLane i j op n => exact .inl hS.lanes.bucketLane
    | enqueuePrepared id n =>
      refine .inl ?_
      have h := hS.lanes.enqueuePrepared (f := f) s.runtime id n
      simp only [unwindStep, step]
      revert h
      obtain ⟨r', e | run⟩ := enqueuePrepared f s.runtime id n <;> exact fun h => h
    | completeOwned k n consume =>
      refine .inl ?_
      simp only [unwindStep, step]
      split
      · exact hS.lanes.completeOwned
      · exact .refl
    | dropOwned k n =>
      refine .inl ?_
      simp only [unwindStep, step]
      split
      · exact hS.lanes.dropOwned
      · exact .refl
    | runLane k op n => exact .inl .refl
    | reclaimDroppedRuns => exact .inl hS.lanes.reclaim
    | installShapePlan plan =>
      refine .inl ?_
      rcases installShapePlan_cases s.runtime plan with ⟨e, he⟩ | ⟨-, -, -, he⟩ <;>
        simp only [unwindStep, step, he]
      · exact .refl
      · exact ⟨rfl, rfl, rfl, rfl, rfl⟩
  | enqueuePrepared id c => exact .inl hS.enqueuePreparedEnding
  | completeOwned k n drop consume =>
    refine .inl ?_
    simp only [unwindStep]
    split
    · exact .refl
    · exact hS.completeOwnedEnding

/-- A removal that succeeds drops a bucket without detached lanes. -/
theorem removeBucket_cases (r : DynamicIoRuntime ins outs) (request : ShapeKey ins outs)
    (n : Nat → Native) : removeBucket f r request n = ((reclaimDroppedRuns r).1, false) ∨
    ∃ i b, (reclaimDroppedRuns r).1.buckets[i]? = some b ∧ b.key = request ∧ b.detachedLanes = 0 ∧
      removeBucket f r request n = (({ (reclaimDroppedRuns r).1 with
        hotBucket := none }.dropBucket i b).retired (b.finishInFlight f n), true) := by
  unfold removeBucket
  dsimp only
  split
  · exact .inl rfl
  · rename_i i hi
    obtain ⟨b, hb, hkey⟩ := findBucketIndex_some hi
    split
    · exact .inl rfl
    · rename_i hany
      have h0 : b.detachedLanes = 0 := by simpa [hb] using hany
      rcases retireBucketAt_cases (f := f) { (reclaimDroppedRuns r).1 with hotBucket := none } i n
        with ⟨-, hne⟩ | ⟨b', hb', -, he⟩
      · exact absurd h0 (hne b hb)
      · obtain rfl := Option.some.inj (hb.symm.trans hb')
        exact .inr ⟨i, b, hb, hkey, h0, he⟩

/-- A drain forgets the buckets with a lane in flight, and asks to release the graphs of those
that have no lane detached either. -/
theorem foldl_drainBucket (r : DynamicIoRuntime ins outs) (bs : List (ShapeBucket ins outs)) :
    bs.foldl drainBucket r = { r with
      forgotten := (bs.filter fun b => b.anyInFlight).reverse ++ r.forgotten
      releaseRequests := r.releaseRequests ++
        (bs.filter fun b => !b.anyInFlight && b.detachedLanes == 0).filterMap
          ShapeBucket.graphId } := by
  induction bs generalizing r with
  | nil => simp
  | cons b bs ih =>
    rw [List.foldl_cons, ih]
    unfold drainBucket
    by_cases hin : b.anyInFlight = true
    · simp [hin]
    · by_cases h0 : b.detachedLanes = 0
      · cases hg : b.graphId <;> simp [hin, h0, hg]
      · simp [hin, h0]

theorem drain_fenced (r : DynamicIoRuntime ins outs) (n : Nat → Nat → Native) :
    (drainActiveBucketsAndReleaseGraphs f r n).1 = { r.drained with
      forgotten := ((fencedBuckets f r n).filter fun b => b.anyInFlight).reverse ++ r.forgotten
      releaseRequests := r.releaseRequests ++ ((fencedBuckets f r n).filter fun b =>
        !b.anyInFlight && b.detachedLanes == 0).filterMap ShapeBucket.graphId } :=
  foldl_drainBucket _ _

theorem clearBuckets_cases (r : DynamicIoRuntime ins outs) (n : Nat → Nat → Native) :
    ((∃ b ∈ (reclaimDroppedRuns r).1.buckets, b.detachedLanes ≠ 0) ∧
      (clearBuckets f r n).1 = (reclaimDroppedRuns r).1) ∨
    ((∀ b ∈ (reclaimDroppedRuns r).1.buckets, b.detachedLanes = 0) ∧
      (clearBuckets f r n).1 = (drainActiveBucketsAndReleaseGraphs f
        (waitForRetiredBuckets { (reclaimDroppedRuns r).1 with hotBucket := none }) n).1) := by
  unfold clearBuckets
  dsimp only
  split
  · rename_i hany
    obtain ⟨b, hb, hd⟩ := List.any_eq_true.mp hany
    exact .inl ⟨⟨b, hb, by simpa using hd⟩, rfl⟩
  · rename_i hany
    refine .inr ⟨?_, ?_⟩
    · intro b hb
      by_contra hd
      exact hany (List.any_eq_true.mpr ⟨b, hb, by simpa using hd⟩)
    · split <;> rename_i hres <;> rw [hres]

/-- A graph runtime never evicts. -/
theorem evict_graph {n : Nat → Native} (hg : r.options.cudaGraph = true) :
    (evictOneBucketIfFull f r n).1 = r := by
  unfold evictOneBucketIfFull
  rw [if_pos hg]
  split <;> rfl

theorem eachLane_ok {g : Nat → Lane.ServingLane → Lane.Result Unit} {P P' : Lane.ServingLane → Prop}
    {ls ls' : List Lane.ServingLane}
    (hg : ∀ i l, P l → (g i l).2 = .ok () → P' (g i l).1) (hP : ∀ l ∈ ls, P l)
    (h : eachLane g i ls = .ok ls') : ∀ l ∈ ls', P' l := by
  induction ls generalizing i ls' with
  | nil =>
    obtain rfl := Except.ok.inj h
    simp
  | cons l ls ih =>
    have hl := hg i l (hP l List.mem_cons_self)
    revert h hl
    simp only [eachLane]
    obtain ⟨l₁, e | ⟨⟩⟩ := g i l
    · intro h
      cases h
    · cases hrest : eachLane g (i + 1) ls with
      | error e =>
        intro h
        cases h
      | ok rest =>
        intro h hl
        obtain rfl := Except.ok.inj h
        intro l' hl'
        rcases List.mem_cons.mp hl' with rfl | hl'
        · exact hl rfl
        · exact ih (fun x hx => hP x (List.mem_cons_of_mem _ hx)) hrest l' hl'

/-- Lanes just built have never run. -/
theorem buildLaneSet_ok {build : Except Error Unit} {ls : List Lane.ServingLane}
    (h : buildLaneSet f r build = .ok ls) : ∀ l ∈ ls, Lane.Coherent l ∧ l.work = .none := by
  intro l hl
  rw [buildLaneSet_eq_ok h] at hl
  rw [List.eq_of_mem_replicate hl]
  exact ⟨Lane.coherent_quiet Lane.coherent_new (.rebind _), rfl⟩

/-- Lanes about to be captured have a graph id and have never run. -/
theorem annotateLanes_ok {ls : List Lane.ServingLane} (h : annotateLanes f r n = .ok ls) :
    (∃ id, n.graphId = .ok id) ∧ ∀ l ∈ ls, GraphLane l ∧ l.inFlight = false := by
  unfold annotateLanes at h
  split at h
  · cases h
  · rename_i built hbuilt
    split at h
    · cases h
    · rename_i id hid
      refine ⟨⟨id, hid⟩, ?_⟩
      unfold setGpuGraphIds at h
      split at h
      · cases h
      · rename_i checked hchecked
        refine eachLane_ok (P := fun l => Lane.Coherent l ∧ l.work = .none)
          (fun i l hl hok => Lane.graphLane_setGpuGraphId hl.1 hl.2 hok) ?_ h
        refine eachLane_ok ?_ (buildLaneSet_ok hbuilt) hchecked
        intro i l hl _
        have hsame :
          ((Lane.ensureIdle l).andThen fun l _ => Lane.ensureGraphIdAssignable l).1 = l := by
          unfold Lane.ensureIdle Lane.ensureGraphIdAssignable
          split
          · rfl
          · simp only [Lane.Result.andThen]
            split <;> rfl
        rw [hsame]
        exact hl

theorem captureLane_ok {n : Nat → Native} {l : Lane.ServingLane}
    (h : (captureLane f n i l).2 = .ok ()) : captureLane f n i l = Lane.run f l (n i) ∧
      (Lane.run f l (n i)).2 = .ok () := by
  unfold captureLane at h ⊢
  split at h
  · rename_i l' hrun
    rw [hrun]
    exact ⟨rfl, rfl⟩
  · cases h

/-- A lane of a graph bucket as it is inserted: captured, and with nothing pending. -/
structure Captured (l : Lane.ServingLane) : Prop where
  graph : GraphLane l
  captured : l.graphCaptured = true
  idle : l.inFlight = false

/-- A graph runtime captures every lane of a bucket before it inserts it. -/
theorem prepareLanes_graph (hg : r.options.cudaGraph = true)
    (h : prepareLanes f r n = .ok lanes) :
    (∃ id, n.graphId = .ok id ∧ lanes.2 = some id) ∧ ∃ annotated,
      annotateLanes f r n = .ok annotated ∧ eachLane (captureLane f n.capture) 0 annotated =
        .ok lanes.1 ∧ ∀ l ∈ lanes.1, Captured l := by
  have hann : ∀ built id, buildLaneSet f r n.build = .ok built → n.graphId = .ok id →
      annotateLanes f r n = setGpuGraphIds f built id n.setGraph := by
    intro built id hb hid
    simp only [annotateLanes, hb, hid]
  unfold prepareLanes at h
  split at h
  · cases h
  · rename_i built hbuilt
    rw [if_pos hg] at h
    split at h
    · cases h
    · rename_i id hid
      split at h
      · cases h
      · rename_i annotated hset
        have ha := (hann built id hbuilt hid).trans hset
        cases hcap : eachLane (captureLane f n.capture) 0 annotated with
        | error e => simp [hcap, Except.map] at h
        | ok captured =>
          simp only [hcap, Except.map] at h
          obtain rfl := Except.ok.inj h
          refine ⟨⟨id, hid, rfl⟩, annotated, ha, hcap, ?_⟩
          refine eachLane_ok ?_ (annotateLanes_ok ha).2 hcap
          intro i l hl hok
          obtain ⟨he, hok⟩ := captureLane_ok hok
          rw [he]
          obtain ⟨hc, hi⟩ := Lane.run_ok hl.1 hok
          exact ⟨Lane.graphLane_exec .run _ hl.1, hc, hi⟩

theorem captured_slot {l : Lane.ServingLane} (h : Captured l) (slot : Option Nat) :
    Captured { l with recoverySlot := slot } :=
  ⟨⟨⟨h.graph.coherent.recorded, h.graph.coherent.held, h.graph.coherent.idle,
    h.graph.coherent.graphId, h.graph.coherent.runOpts, h.graph.coherent.enqueuedRunOpts⟩,
    h.graph.lease, h.graph.fenced⟩, h.captured, h.idle⟩

theorem captured_assigned {ls : List Lane.ServingLane} (h : ∀ l ∈ ls, Captured l)
    (id : PreparedBucketId) :
    ∀ l ∈ assignRecoverySlots r request id ls, Captured l.toServingLane := by
  intro l hl
  obtain ⟨i, hi, rfl⟩ := List.mem_mapIdx.mp hl
  exact captured_slot (h _ (List.getElem_mem hi)) _

theorem buildsFor_creates (h : Creates f r request allowCreate n r' lanes) :
    buildsFor f r request allowCreate n = some r' := by
  obtain ⟨r₁, hl, hp⟩ := h
  unfold prepareBucket at hp
  cases hidle : (if r₁.options.cudaGraph then refuseGraphBucketCreationWhileInFlight r₁
      else .ok ()) with
  | error e =>
    simp only [hidle] at hp
    cases (Prod.mk.inj hp).2
  | ok _ =>
    simp only [hidle] at hp
    simp only [buildsFor, hl, hidle]
    revert hp
    obtain ⟨r₂, e | ⟨⟩⟩ := evictOneBucketIfFull f r₁ n.fence
    · intro hp
      cases (Prod.mk.inj hp).2
    · intro hp
      exact congrArg some (Prod.mk.inj hp).1

/-- The lanes of a new bucket of a graph runtime. -/
theorem creates_captured (hg : r.options.cudaGraph = true)
    (hcr : Creates f r request allowCreate n r' lanes) (id : PreparedBucketId) :
    ∀ l ∈ assignRecoverySlots r' request id lanes.1, Captured l.toServingLane := by
  obtain ⟨hs, -, -⟩ := creates_shrinks hcr
  obtain ⟨r₁, -, -, hprep⟩ := creates_cases hcr
  obtain ⟨-, annotated, -, -, hcaptured⟩ := prepareLanes_graph (hs.options ▸ hg) hprep
  exact captured_assigned hcaptured id

/-- The lookup lets go of the retired buckets whose release has ended, and of nothing else. -/
def reapedBuckets (r : DynamicIoRuntime ins outs) (released : PreparedBucketId → Bool) :
    List (ShapeBucket ins outs) :=
  r.retiredBuckets.filter fun bucket => !released bucket.id

theorem lookup_sameGraphs (r : DynamicIoRuntime ins outs) (request : ShapeKey ins outs)
    (allowCreate : Bool) (released : PreparedBucketId → Bool) :
    SameGraphs r (lookupBucket r request allowCreate released).1 ∨
      SameGraphs { r with retiredBuckets := reapedBuckets r released }
        (lookupBucket r request allowCreate released).1 := by
  have hS : Stable (@SameGraphs ins outs) := stable_sameGraphs
  have hr : SameGraphs r (reclaimDroppedRuns r).1 := hS.lanes.reclaim
  have hreap : SameGraphs { r with retiredBuckets := reapedBuckets r released }
      (reapRetiredBuckets (reclaimDroppedRuns r).1 released) :=
    ⟨hr.graphs, hr.requests, by simp [reapRetiredBuckets, reapedBuckets, hr.retired],
      hr.forgotten, hr.options⟩
  rcases lookupBucket_cases (r := r) request allowCreate released rfl with
    ⟨-, e, he⟩ | ⟨-, e, he⟩ | ⟨i, b, -, -, he⟩ | ⟨-, -, he⟩ <;> rw [he]
  · exact .inl hr
  · exact .inr hreap
  · exact .inr (hreap.trans hS.touch)
  · exact .inr hreap

/-- A bucket request: retired buckets may go, and a bucket with a graph of its own may come. -/
structure Asks (f : Features) (r r' : DynamicIoRuntime ins outs) (request : ShapeKey ins outs)
    (allowCreate : Bool) (n : CreateNative) : Prop where
  options : r'.options = r.options
  requests : r'.releaseRequests = r.releaseRequests
  forgotten : r'.forgotten = r.forgotten
  retired : r'.retiredBuckets = r.retiredBuckets ∨ r'.retiredBuckets = reapedBuckets r n.released
  graphs : r'.graphs = r.graphs ∨ ∃ r₁ lanes id, r₁.options = r.options ∧
    Creates f r request allowCreate n r₁ lanes ∧ n.graphId = .ok id ∧
      r'.graphs = r.graphs ++ [some id]

theorem asks_getOrCreate (request : ShapeKey ins outs) (allowCreate : Bool) (n : CreateNative)
    (hg : r.options.cudaGraph = true) (hi : Cached r) :
    Asks f r (getOrCreateBucketInner f r request allowCreate n).1 request allowCreate n := by
  have hlookup : ∃ retired, (retired = r.retiredBuckets ∨ retired = reapedBuckets r n.released) ∧
      SameGraphs { r with retiredBuckets := retired }
        (lookupBucket r request allowCreate n.released).1 := by
    rcases lookup_sameGraphs r request allowCreate n.released with h | h
    · exact ⟨_, .inl rfl, h⟩
    · exact ⟨_, .inr rfl, h⟩
  obtain ⟨retired, hretired, hsame⟩ := hlookup
  have hg₁ : (lookupBucket r request allowCreate n.released).1.options.cudaGraph = true := by
    rw [hsame.options]
    exact hg
  have hasks : Asks f r (lookupBucket r request allowCreate n.released).1 request allowCreate n :=
    ⟨hsame.options, hsame.requests, hsame.forgotten, hsame.retired ▸ hretired, .inl hsame.graphs⟩
  rcases getOrCreate_outcomes (f := f) r request allowCreate n with
    he | ⟨r₁, hl, he⟩ | ⟨r', lanes, hcr, he⟩
  · rw [he]
    exact hasks
  · rw [hl] at hg₁ hasks
    rw [he]
    have hev := evict_graph (f := f) (n := n.fence) hg₁
    rcases prepareBucket_cases (f := f) r₁ n with ⟨-, e, hq⟩ | ⟨r', e, hr', hq⟩ | ⟨r', hr', hq⟩ <;>
      rw [hq]
    · exact hasks
    · rw [hr'] at hev
      obtain rfl : r' = r₁ := hev
      exact hasks
    · rw [hr'] at hev
      obtain rfl : r' = r₁ := hev
      exact hasks
  · obtain ⟨r₁, hl, hev', hprep⟩ := creates_cases hcr
    rw [hl] at hg₁ hasks hsame
    have hev := evict_graph (f := f) (n := n.fence) hg₁
    rw [hev'] at hev
    obtain rfl : r' = r₁ := hev
    obtain ⟨⟨id, hid, hlanes⟩, -⟩ := prepareLanes_graph hg₁ hprep
    obtain ⟨hs, -, -⟩ := creates_shrinks hcr
    rw [he]
    rcases insertBucket_cases request lanes.1 lanes.2 (hs.cached hi).indexed with
      ⟨-, e, hins⟩ | ⟨slots, bid, -, ⟨-, e, hins⟩ | ⟨-, hins⟩⟩ <;> rw [hins]
    · exact ⟨hasks.options, hasks.requests, hasks.forgotten, hasks.retired, hasks.graphs⟩
    · exact ⟨hasks.options, hasks.requests, hasks.forgotten, hasks.retired, hasks.graphs⟩
    · refine ⟨hasks.options, hasks.requests, hasks.forgotten, hasks.retired, .inr
        ⟨r', lanes, id, hasks.options, hcr, hid, ?_⟩⟩
      have hgraphs : r'.graphs = r.graphs := hsame.graphs
      rw [← hgraphs, ← hlanes]
      exact List.map_append

/-- The graph id of a bucket retired, if the retirement asks for its release. -/
def ShapeBucket.asked (b : ShapeBucket ins outs) : List Int :=
  if b.anyInFlight then [] else b.graphId.toList

/-- The bucket `b` leaves the cache, and is kept or leaked as these fences leave it. -/
structure Removes (f : Features) (r r' : DynamicIoRuntime ins outs) (request : ShapeKey ins outs)
    (n : Nat → Native) (i : Nat) (b : ShapeBucket ins outs) : Prop where
  bucket : (reclaimDroppedRuns r).1.buckets[i]? = some b
  key : b.key = request
  home : b.detachedLanes = 0
  graph : b.graphId ≠ none
  graphs : r'.graphs = swapRemove r.graphs i
  options : r'.options = r.options
  requests : r'.releaseRequests = r.releaseRequests ++ (b.finishInFlight f n).asked
  kept : (r'.retiredBuckets = r.retiredBuckets ∧
      r'.forgotten = b.finishInFlight f n :: r.forgotten) ∨
    ((b.finishInFlight f n).anyInFlight = false ∧
      r'.retiredBuckets = r.retiredBuckets ++ [b.finishInFlight f n] ∧ r'.forgotten = r.forgotten)
  books : r'.recovery = (reclaimDroppedRuns r).1.recovery ∧
    r'.leaked = (reclaimDroppedRuns r).1.leaked ∧ r'.lost = (reclaimDroppedRuns r).1.lost

theorem removes_removeBucket (request : ShapeKey ins outs) (n : Nat → Native)
    (hg : none ∉ r.graphs) : removeBucket f r request n = ((reclaimDroppedRuns r).1, false) ∨
    ∃ i b, Removes f r (removeBucket f r request n).1 request n i b := by
  have hsame := stable_sameGraphs.lanes.reclaim (r := r)
  rcases removeBucket_cases (f := f) r request n with he | ⟨i, b, hb, hkey, h0, he⟩
  · exact .inl he
  · have hgraph : b.graphId ≠ none := fun hnone => by
      rw [← show (reclaimDroppedRuns r).1.graphs = r.graphs from hsame.graphs] at hg
      exact hg (List.mem_map.mpr ⟨b, List.mem_of_getElem? hb, hnone⟩)
    have hgraphs : (({ (reclaimDroppedRuns r).1 with hotBucket := none }.dropBucket i b).retired
        (b.finishInFlight f n)).graphs = swapRemove r.graphs i := by
      rw [DynamicIoRuntime.graphs, retired_buckets, ← show _ = r.graphs from hsame.graphs]
      exact map_swapRemove _
    have hid : (b.finishInFlight f n).graphId = b.graphId := rfl
    refine .inr ⟨i, b, ?_⟩
    rw [he]
    unfold DynamicIoRuntime.retired at hgraphs ⊢
    by_cases hin : (b.finishInFlight f n).anyInFlight = true
    · rw [if_pos hin] at hgraphs ⊢
      refine ⟨hb, hkey, h0, hgraph, hgraphs, hsame.options, ?_, .inl ⟨hsame.retired, ?_⟩, ?_⟩
      · simp [ShapeBucket.asked, hin, DynamicIoRuntime.dropBucket, hsame.requests]
      · simp [DynamicIoRuntime.dropBucket, hsame.forgotten]
      · exact ⟨rfl, rfl, rfl⟩
    · rw [if_neg hin] at hgraphs ⊢
      cases hsome : b.graphId with
      | none => exact absurd hsome hgraph
      | some id =>
        simp only [hid, hsome] at hgraphs ⊢
        refine ⟨hb, hkey, h0, hgraph, hgraphs, hsame.options, ?_, .inr ⟨by simpa using hin, ?_,
          hsame.forgotten⟩, ⟨rfl, rfl, rfl⟩⟩
        · simp [ShapeBucket.asked, hin, hid, hsome, DynamicIoRuntime.dropBucket, hsame.requests]
        · simp [DynamicIoRuntime.dropBucket, hsame.retired]

/-- The cache is emptied behind these fences, and the retired buckets are let go of. -/
structure Drains (f : Features) (r r' : DynamicIoRuntime ins outs)
    (n : Nat → Nat → Native) : Prop where
  graphs : r'.graphs = []
  options : r'.options = r.options
  requests : r'.releaseRequests = r.releaseRequests ++
    ((fencedBuckets f (reclaimDroppedRuns r).1 n).filter fun b =>
      !b.anyInFlight && b.detachedLanes == 0).filterMap ShapeBucket.graphId
  retired : r'.retiredBuckets = []
  forgotten : r'.forgotten = ((fencedBuckets f (reclaimDroppedRuns r).1 n).filter fun b =>
    b.anyInFlight).reverse ++ r.forgotten
  books : r'.recovery = (reclaimDroppedRuns r).1.recovery ∧
    r'.leaked = (reclaimDroppedRuns r).1.leaked ∧ r'.lost = (reclaimDroppedRuns r).1.lost

theorem drains_drain (r : DynamicIoRuntime ins outs) (hot : Option Nat) (n : Nat → Nat → Native) :
    Drains f r (drainActiveBucketsAndReleaseGraphs f (waitForRetiredBuckets
      { (reclaimDroppedRuns r).1 with hotBucket := hot }) n).1 n := by
  have hsame := stable_sameGraphs.lanes.reclaim (r := r)
  rw [drain_fenced]
  exact ⟨rfl, hsame.options, congrArg (· ++ _) hsame.requests, rfl,
    congrArg (_ ++ ·) hsame.forgotten, ⟨rfl, rfl, rfl⟩⟩

/-- Every bucket has a graph. -/
structure GraphRuntime (r : DynamicIoRuntime ins outs) : Prop where
  cached : Cached r
  option : r.options.cudaGraph = true
  graphs : none ∉ r.buckets.map ShapeBucket.graphId
  retired : none ∉ r.retiredBuckets.map ShapeBucket.graphId

theorem GraphRuntime.same (h : GraphRuntime r) (hc : Cached r') (hs : SameGraphs r r') :
    GraphRuntime r' := by
  refine ⟨hc, hs.options ▸ h.option, ?_, hs.retired ▸ h.retired⟩
  show none ∉ r'.graphs
  rw [hs.graphs]
  exact h.graphs

/-- What a step does to the graphs: nothing, or one of the three. -/
theorem graphStep_cases (hr : GraphRuntime s.runtime) (hen : s.Enabled a) :
    SameGraphs s.runtime (graphStep f s a).runtime ∨
    (∃ request allowCreate n fence,
      a = .call (.call (.getOrCreateBucket request allowCreate n)) fence ∧
      Asks f s.runtime (graphStep f s a).runtime request allowCreate n) ∨
    (∃ request n fence i b, a = .call (.call (.removeBucket request n)) fence ∧
      Removes f s.runtime (graphStep f s a).runtime request n i b) ∨
    ∃ n, (((∃ fence, a = .call (.call (.clearBuckets n)) fence) ∧
        ∀ b ∈ (reclaimDroppedRuns s.runtime).1.buckets, b.detachedLanes = 0) ∨
        a = .dropRuntime n) ∧
      (∀ b ∈ s.runtime.retiredBuckets, b.Finished s.finished) ∧
      Drains f s.runtime (graphStep f s a).runtime n := by
  have hS : Stable (@SameGraphs ins outs) := stable_sameGraphs
  cases a with
  | call a fence =>
    rcases unwindStep_cases f s.toUnwindState a with
      h | ⟨request, allowCreate, n, rfl⟩ | ⟨request, n, rfl⟩ | ⟨n, rfl⟩
    · exact .inl h
    · exact .inr (.inl ⟨request, allowCreate, n, fence, rfl,
        asks_getOrCreate request allowCreate n hr.option hr.cached⟩)
    · rcases removes_removeBucket (f := f) request n hr.graphs with he | ⟨i, b, hremoves⟩
      · refine .inl ?_
        have hstep : (graphStep f s (.call (.call (.removeBucket request n)) fence)).runtime =
            (reclaimDroppedRuns s.runtime).1 := congrArg Prod.fst he
        rw [hstep]
        exact hS.lanes.reclaim
      · exact .inr (.inr (.inl ⟨request, n, fence, i, b, rfl, hremoves⟩))
    · rcases clearBuckets_cases (f := f) s.runtime n with ⟨-, he⟩ | ⟨h0, he⟩
      · refine .inl ?_
        have hstep : (graphStep f s (.call (.call (.clearBuckets n)) fence)).runtime =
            (reclaimDroppedRuns s.runtime).1 := he
        rw [hstep]
        exact hS.lanes.reclaim
      · have hdrains := drains_drain (f := f) s.runtime none n
        rw [← he] at hdrains
        refine .inr (.inr (.inr ⟨n, .inl ⟨⟨fence, rfl⟩, h0⟩, ?_, hdrains⟩))
        rcases hen.2 with ⟨b, hb, hne⟩ | hfinished
        · exact absurd (h0 b hb) hne
        · exact hfinished
  | completeForeign run n consume =>
    exact .inl (hS.trans hS.lanes.completeOwned (hS.rest _ _ _ _ _))
  | giveAway k =>
    refine .inl ?_
    simp only [graphStep]
    split <;> exact .refl
  | letGo i j => exact .inl (hS.modify (fun _ => rfl) fun _ => rfl)
  | letGoOwned k => exact .inl .refl
  | allocateElsewhere => exact .inl .refl
  | releaseEnds id => exact .inl .refl
  | dropRuntime n => exact .inr (.inr (.inr ⟨n, .inr rfl, hen.2, drains_drain _ _ n⟩))

theorem cached_drain (n : Nat → Nat → Native) (hc : Cached r) :
    Cached (drainActiveBucketsAndReleaseGraphs f (waitForRetiredBuckets r) n).1 := by
  obtain ⟨fo, rr, he⟩ := drain_eq (f := f) (waitForRetiredBuckets r) n
  rw [he]
  have hd := shrinks_drained.cached (r := r) hc
  exact ⟨hd.indexed, hd.keys, hd.bound⟩

theorem cached_graphStep (hc : Cached s.runtime) : Cached (graphStep f s a).runtime := by
  have hS : Stable (@SameIndex ins outs) := stable_sameIndex
  cases a with
  | call a fence => cases a with
    | call a => exact cached_step hc
    | enqueuePrepared id c => exact hS.enqueuePreparedEnding.shrinks.cached hc
    | completeOwned k n drop consume =>
      simp only [graphStep, unwindStep]
      split
      · exact hc
      · exact hS.completeOwnedEnding.shrinks.cached hc
  | completeForeign run n consume =>
    exact (hS.trans hS.lanes.completeOwned (hS.rest _ _ _ _ _)).shrinks.cached hc
  | giveAway k =>
    simp only [graphStep]
    split <;> exact hc
  | letGo i j =>
    exact (hS.modify (i := i) (r := s.runtime) (g := fun bucket => { bucket with
      lanes := bucket.lanes.modify j ServingLane.letGo }) (fun _ => rfl)
        fun _ => rfl).shrinks.cached hc
  | letGoOwned k => exact hc
  | allocateElsewhere => exact hc
  | releaseEnds id => exact hc
  | dropRuntime n => exact cached_drain n (sameIndex_reclaim.shrinks.cached hc)

theorem graphRuntime_step (h : GraphRuntime s.runtime) (hen : s.Enabled a) :
    GraphRuntime (graphStep f s a).runtime := by
  have hc : Cached (graphStep f s a).runtime := cached_graphStep h.cached
  have hg : none ∉ s.runtime.graphs := h.graphs
  rcases graphStep_cases (f := f) h hen with
    hsame | ⟨request, allowCreate, n, fence, -, hasks⟩ | ⟨request, n, fence, i, b, -, hremoves⟩ |
    ⟨n, -, -, hdrains⟩
  · exact h.same hc hsame
  · refine ⟨hc, hasks.options ▸ h.option, ?_, ?_⟩
    · show none ∉ (graphStep f s _).runtime.graphs
      rcases hasks.graphs with hgraphs | ⟨r₁, lanes, id, -, -, -, hgraphs⟩ <;> rw [hgraphs]
      · exact hg
      · simpa using hg
    · rcases hasks.retired with hretired | hretired <;> rw [hretired]
      · exact h.retired
      · exact fun hm => h.retired (List.map_subset _ List.filter_sublist.subset hm)
  · refine ⟨hc, hremoves.options ▸ h.option, ?_, ?_⟩
    · show none ∉ (graphStep f s a).runtime.graphs
      rw [hremoves.graphs]
      exact fun hm => hg (mem_of_mem_swapRemove hm)
    · rcases hremoves.kept with ⟨hretired, -⟩ | ⟨-, hretired, -⟩ <;> rw [hretired]
      · exact h.retired
      · rw [List.map_append]
        intro hm
        rcases List.mem_append.mp hm with hm | hm
        · exact h.retired hm
        · exact hremoves.graph (List.mem_singleton.mp hm).symm
  · refine ⟨hc, hdrains.options ▸ h.option, ?_, ?_⟩
    · show none ∉ (graphStep f s a).runtime.graphs
      rw [hdrains.graphs]
      exact List.not_mem_nil
    · rw [hdrains.retired]
      exact List.not_mem_nil

theorem graphRuntime_exchange {x : Exchange ins outs} (h : GraphRuntime s.runtime)
    (hx : x.KeepsBuckets) : GraphRuntime (s.exchange x).runtime :=
  h.same ((exchange_index hx).shrinks.cached h.cached) (exchange_stable stable_sameGraphs.lanes hx)

end Zrt.Dynamic
