import Zrt.Dynamic.GraphBooks
import Zrt.Dynamic.GraphCases
import Zrt.Dynamic.Planned

/-! A graph runtime asks to release a graph once, behind every lane of its bucket. -/
namespace Zrt.Dynamic

open Lane (Features GraphLane Native)
open Lending (lentBy)
open SwapRemove

variable {ins outs : Nat} {f : Features} {r r' r₁ : DynamicIoRuntime ins outs} {i : Nat} {g : Int}
  {b b' : ShapeBucket ins outs} {s t : GraphState ins outs} {a : GraphOp ins outs}
  {held : Multiset (PreparedBucketId × Tag ins outs)} {lost : List (RecoveredDynamicLane ins outs)}
  {n : Nat → Nat → Native}

/-- The graph ids of the cached buckets, and those that the runtime has asked to release. -/
def DynamicIoRuntime.graphIds (r : DynamicIoRuntime ins outs) : List Int :=
  (r.buckets.map ShapeBucket.graphId).reduceOption ++ r.releaseRequests

theorem graphIds_same (h : SameGraphs r r') : r'.graphIds = r.graphIds := by
  rw [DynamicIoRuntime.graphIds, DynamicIoRuntime.graphIds, h.requests]
  exact congrArg (fun graphs => graphs.reduceOption ++ _) h.graphs

theorem graphIds_asks {request : ShapeKey ins outs} {allowCreate : Bool} {n : CreateNative}
    (h : Asks f r r' request allowCreate n) : r'.graphIds = r.graphIds ∨
    ∃ r₁ lanes id, r₁.options = r.options ∧ Creates f r request allowCreate n r₁ lanes ∧
      n.graphId = .ok id ∧ r'.graphIds.Perm (id :: r.graphIds) := by
  have hids : r'.graphIds = r'.graphs.reduceOption ++ r.releaseRequests := by
    rw [DynamicIoRuntime.graphIds, h.requests]
    rfl
  rcases h.graphs with hgraphs | ⟨r₁, lanes, id, hoptions, hcr, hid, hgraphs⟩
  · exact .inl (by rw [hids, hgraphs]; rfl)
  · refine .inr ⟨r₁, lanes, id, hoptions, hcr, hid, ?_⟩
    rw [hids, hgraphs, List.reduceOption_append, List.append_assoc]
    exact List.perm_middle

theorem asked_sublist : b.asked.Sublist b.graphId.toList := by
  unfold ShapeBucket.asked
  split
  · exact List.nil_sublist _
  · exact .refl _

/-- A graph id goes with its bucket, or from the cache to the requests. -/
theorem graphIds_removes {request : ShapeKey ins outs} {n : Nat → Native}
    (h : Removes f r r' request n i b) : r'.graphIds.Subperm r.graphIds := by
  have hb : r.graphs[i]? = some b.graphId := by
    rw [← (stable_sameGraphs.lanes.reclaim (r := r)).graphs, DynamicIoRuntime.graphs,
      List.getElem?_map,
      h.bucket]
    rfl
  have hcons : (b.graphId :: swapRemove r.graphs i).Perm r.graphs :=
    Multiset.coe_eq_coe.mp (cons_swapRemove hb)
  have hids := (hcons.filterMap id).symm.append_right r.releaseRequests
  rw [← List.singleton_append, List.filterMap_append] at hids
  have hone : [b.graphId].filterMap id = b.graphId.toList := List.reduceOption_singleton _
  have hrest : r'.graphIds = r'.graphs.reduceOption ++ r'.releaseRequests := rfl
  rw [hrest, h.graphs, h.requests]
  refine .trans ?_ hids.symm.subperm
  rw [hone, List.append_assoc]
  refine .trans ?_ List.perm_append_comm.subperm
  rw [List.append_assoc]
  refine (List.subperm_append_left _).mpr ?_
  exact (List.subperm_append_left _).mpr asked_sublist.subperm

theorem fencedBuckets_graphs (r : DynamicIoRuntime ins outs) (n : Nat → Nat → Native) :
    (fencedBuckets f r n).map ShapeBucket.graphId = r.graphs :=
  map_mapIdx_same fun _ _ => rfl

theorem graphIds_drains (h : Drains f r r' n) : r'.graphIds.Subperm r.graphIds := by
  have hids : r.graphs.reduceOption =
      (fencedBuckets f (reclaimDroppedRuns r).1 n).filterMap ShapeBucket.graphId := by
    rw [← (stable_sameGraphs.lanes.reclaim (r := r)).graphs,
      ← fencedBuckets_graphs (f := f) (reclaimDroppedRuns r).1 n, List.reduceOption,
      List.filterMap_map]
    rfl
  have hrest : r'.graphIds = r'.graphs.reduceOption ++ r'.releaseRequests := rfl
  have hr : r.graphIds = r.graphs.reduceOption ++ r.releaseRequests := rfl
  rw [hrest, h.graphs, h.requests, List.reduceOption_nil, List.nil_append, hr, hids]
  refine .trans ?_ List.perm_append_comm.subperm
  exact (List.subperm_append_left _).mpr (List.filter_sublist.filterMap _).subperm

/-- A retired bucket goes when its release has ended, and not before. -/
theorem retired_step (h : GraphRuntime s.runtime) (hen : s.Enabled a)
    (hb : b ∈ s.runtime.retiredBuckets) :
    b ∈ (graphStep f s a).runtime.retiredBuckets ∨ b.Finished s.finished := by
  rcases graphStep_cases (f := f) h hen with
    hsame | ⟨request, allowCreate, n, fence, rfl, hasks⟩ | ⟨request, n, fence, i, b', -, hremoves⟩ |
    ⟨n, -, hfinished, -⟩
  · exact .inl (hsame.retired ▸ hb)
  · rcases hasks.retired with hretired | hretired <;> rw [hretired]
    · exact .inl hb
    · by_cases hrel : n.released b.id = true
      · exact .inr (hen.2.2 b hb hrel)
      · exact .inl (List.mem_filter.mpr ⟨hb, by simpa using hrel⟩)
  · rcases hremoves.kept with ⟨hretired, -⟩ | ⟨-, hretired, -⟩ <;> rw [hretired]
    · exact .inl hb
    · exact .inl (List.mem_append_left _ hb)
  · exact .inr (hfinished b hb)

theorem finished_step : s.finished ⊆ (graphStep f s a).finished := by
  cases a with
  | call a fence =>
    have hf := (request_rest (f := f) s fence a).2.1
    exact fun id hid => hf.symm ▸ hid
  | releaseEnds id => exact List.subset_cons_self id s.finished
  | giveAway k =>
    simp only [graphStep]
    split <;> exact fun _ h => h
  | _ => exact fun _ h => h

/-- The runs of a graph runtime in which no bucket leaves its place. -/
abbrev SettledGraphs (f : Features) (ins outs : Nat) :
    Lts.System (GraphState ins outs) (GraphOp ins outs ⊕ Exchange ins outs) :=
  (lentGraphs f ins outs).restrict fun _ => Sum.elim (fun _ => True) Exchange.KeepsBuckets

/-- A retired bucket is kept until its release has ended. -/
theorem retired_trace {xs : List (GraphOp ins outs ⊕ Exchange ins outs)}
    (h : GraphRuntime s.runtime)
    (hb : b ∈ s.runtime.retiredBuckets) (hx : Lts.Trace (SettledGraphs f ins outs) s xs t) :
    GraphRuntime t.runtime ∧ (b ∈ t.runtime.retiredBuckets ∨ b.Finished t.finished) := by
  refine Lts.invariant_trace (P := fun t => GraphRuntime t.runtime ∧
    (b ∈ t.runtime.retiredBuckets ∨ b.Finished t.finished)) ?_ ⟨h, .inl hb⟩ hx
  rintro s (a | x) t ⟨hr, hkept⟩ ⟨hkeeps, hstep⟩
  · obtain ⟨hen, rfl⟩ := hstep
    refine ⟨graphRuntime_step hr hen, ?_⟩
    rcases hkept with hb | hfinished
    · refine (retired_step (f := f) hr hen hb).imp_right ?_
      intro hf id hid
      exact finished_step (hf id hid)
    · exact .inr fun id hid => finished_step (hfinished id hid)
  · obtain rfl := hstep
    have hsame : SameGraphs s.runtime (s.exchange x).runtime :=
      exchange_stable stable_sameGraphs.lanes hkeeps
    exact ⟨graphRuntime_exchange hr hkeeps, hkept.imp_left fun hb => hsame.retired.symm ▸ hb⟩

theorem allocateCapturedGraphId_ok {next : Int} (h : allocateCapturedGraphId next = .ok g) :
    next < i32Max ∧ g = next := by
  unfold allocateCapturedGraphId at h
  split at h
  · rename_i hlt
    exact ⟨hlt, (Except.ok.inj h).symm⟩
  · cases h

theorem next_step : s.nextGraphId ≤ (graphStep f s a).nextGraphId := by
  cases a with
  | call a fence =>
    simp only [graphStep]
    unfold GraphState.request
    split
    · split
      · exact le_rfl
      · dsimp only
        split <;> omega
    · exact le_rfl
  | giveAway k =>
    simp only [graphStep]
    split <;> exact le_rfl
  | allocateElsewhere =>
    simp only [graphStep]
    omega
  | _ => exact le_rfl

/-- The counter moves behind the id of a new bucket. -/
theorem next_creates {request : ShapeKey ins outs} {allowCreate : Bool} {n : CreateNative}
    {fence : Nat → Native} {lanes : List Lane.ServingLane × Option Int}
    (hg : r₁.options.cudaGraph = true) (hlt : s.nextGraphId < i32Max)
    (hcr : Creates f s.runtime request allowCreate n r₁ lanes) :
    (graphStep f s (.call (.call (.getOrCreateBucket request allowCreate n)) fence)).nextGraphId =
      s.nextGraphId + 1 := by
  obtain ⟨r₀, -, -, hprep⟩ := creates_cases hcr
  obtain ⟨-, annotated, hann, -, -⟩ := prepareLanes_graph hg hprep
  have hbuilt : (buildLaneSet f r₁ n.build).isOk = true := by
    unfold annotateLanes at hann
    cases hb : buildLaneSet f r₁ n.build with
    | error e => simp [hb] at hann
    | ok built => rfl
  simp only [graphStep, GraphState.request, buildsFor_creates hcr]
  exact if_pos ⟨hg, hbuilt, hlt⟩

/-- Graph ids go, or the next of the counter comes. -/
theorem graphIds_step (h : GraphRuntime s.runtime) (hen : s.Enabled a) :
    (graphStep f s a).runtime.graphIds.Subperm s.runtime.graphIds ∨
    ((graphStep f s a).runtime.graphIds.Perm (s.nextGraphId :: s.runtime.graphIds) ∧
      (graphStep f s a).nextGraphId = s.nextGraphId + 1) := by
  rcases graphStep_cases (f := f) h hen with
    hsame | ⟨request, allowCreate, n, fence, rfl, hasks⟩ | ⟨request, n, fence, i, b, -, hremoves⟩ |
    ⟨n, -, -, hdrains⟩
  · rw [graphIds_same hsame]
    exact .inl (List.Subperm.refl _)
  · rcases graphIds_asks hasks with hids | ⟨r₁, lanes, id, hoptions, hcr, hid, hids⟩
    · rw [hids]
      exact .inl (List.Subperm.refl _)
    · obtain ⟨hlt, rfl⟩ := allocateCapturedGraphId_ok (hen.2.1 ▸ hid)
      exact .inr ⟨hids, next_creates (hoptions ▸ h.option) hlt hcr⟩
  · exact .inl (graphIds_removes hremoves)
  · exact .inl (graphIds_drains hdrains)

/-- What holds in every state of a graph runtime that nothing has strayed into or out of. -/
structure Orderly (s : GraphState ins outs) : Prop where
  graphs : GraphRuntime s.runtime
  nodup : s.runtime.graphIds.Nodup
  below : ∀ g ∈ s.runtime.graphIds, g < s.nextGraphId
  ledger : s.alive = true → ∃ lost, Ledger s.runtime (s.tokens + (s.debts + s.gone)) lost
  lanes : s.toState.Within fun _ l => GraphLane l.toServingLane

theorem closed_graphLane : Closed f (fun _ => True)
    fun (_ : PreparedBucketId) (l : ServingLane ins outs) => GraphLane l.toServingLane :=
  ⟨trivial, trivial, trivial, fun _ _ _ h => Lane.graphLane_exec _ _ h⟩

theorem orderly_initial (h : s.Initial f) : Orderly s := by
  have hc := (cached_initial h.runtime).1
  have hl := ledger_initial h.runtime
  have hgraph := h.graph
  obtain ⟨name, mode, laneCount, options, -, -, he⟩ := initial_cases h.runtime
  have hr : s.runtime = .fresh name mode laneCount options := congrArg State.runtime he
  have hids : s.runtime.graphIds = [] := by
    rw [hr]
    rfl
  have hdebts : s.debts + s.gone = 0 := by
    simp [UnwindState.debts, GraphState.gone, h.destroyed, h.away]
  refine ⟨⟨hc, hgraph, ?_, ?_⟩, ?_, ?_, fun _ => ⟨[], ?_⟩,
    within_initial h.runtime⟩
  · simp [hr, DynamicIoRuntime.fresh]
  · simp [hr, DynamicIoRuntime.fresh]
  · rw [hids]
    exact List.nodup_nil
  · simp [hids]
  · rw [hdebts, add_zero]
    exact hl

theorem alive_step (h : (graphStep f s a).alive = true) :
    s.alive = true ∧ ∀ n, a ≠ .dropRuntime n := by
  cases a with
  | call a fence =>
    have hr := (request_rest (f := f) s fence a).2.2
    exact ⟨hr ▸ h, fun _ h => by cases h⟩
  | giveAway k =>
    simp only [graphStep] at h
    split at h <;> exact ⟨h, fun _ h => by cases h⟩
  | dropRuntime n => cases h
  | _ => exact ⟨h, fun _ h => by cases h⟩

theorem orderly_step (h : Orderly s) (hen : s.Enabled a) (hno : ¬ Strays f s a) :
    Orderly (graphStep f s a) := by
  have hc := h.graphs.cached
  have hnext := next_step (f := f) (s := s) (a := a)
  refine ⟨graphRuntime_step h.graphs hen, ?_, ?_, ?_, ?_⟩
  · rcases graphIds_step (f := f) h.graphs hen with hsub | ⟨hperm, -⟩
    · exact Multiset.nodup_of_le (Multiset.coe_le.mpr hsub) h.nodup
    · rw [hperm.nodup_iff, List.nodup_cons]
      exact ⟨fun hm => lt_irrefl _ (h.below _ hm), h.nodup⟩
  · intro g hg
    rcases graphIds_step (f := f) h.graphs hen with hsub | ⟨hperm, he⟩
    · exact lt_of_lt_of_le (h.below g (hsub.subset hg)) hnext
    · rcases List.mem_cons.mp (hperm.mem_iff.mp hg) with rfl | hg
      · omega
      · have := h.below g hg
        omega
  · intro halive
    obtain ⟨halive, hdrop⟩ := alive_step halive
    obtain ⟨lost, hl⟩ := h.ledger halive
    exact ledger_graphStep hl hno hdrop
  · refine closed_graphLane.graphStep hc (uses_all fun _ => trivial) hno ?_ h.lanes
    intro request allowCreate n fence r' lanes _ hcr id l hl
    exact (creates_captured h.graphs.option hcr id l hl).graph

theorem orderly_exchange {x : Exchange ins outs} (h : Orderly s) (hx : x.InPlace) :
    Orderly (s.exchange x) := by
  have hkeeps := keepsBuckets_of_inPlace hx
  have hids := graphIds_same (exchange_stable (s := s.toState) stable_sameGraphs.lanes hkeeps)
  refine ⟨graphRuntime_exchange h.graphs hkeeps, hids.symm ▸ h.nodup, hids.symm ▸ h.below, ?_,
    within_exchange h.lanes hx⟩
  intro halive
  obtain ⟨lost, hl⟩ := h.ledger halive
  exact ⟨lost, ledger_graphExchange hx hl⟩

theorem orderly_reachable (h : Lts.Reachable ((lentGraphs f ins outs).restrict fun s =>
    Sum.elim (fun a => ¬ Strays f s a) Exchange.InPlace) s) : Orderly s := by
  refine Lts.invariant_beside (P := Orderly) (fun _ => orderly_initial) ?_ ?_ h
  · rintro s a t ho hno ⟨hen, rfl⟩
    exact orderly_step ho hen hno
  · exact fun s x ho hx => orderly_exchange ho hx

/-- The fences that a step puts behind the lanes of the buckets it drops, by bucket and lane. -/
inductive GraphOp.Fences : GraphOp ins outs → (Nat → Nat → Native) → Prop where
  | removeBucket (request : ShapeKey ins outs) (n fence : Nat → Native) :
      Fences (.call (.call (.removeBucket request n)) fence) fun _ => n
  | clearBuckets (n : Nat → Nat → Native) (fence : Nat → Native) :
      Fences (.call (.call (.clearBuckets n)) fence) n
  | dropRuntime (n : Nat → Nat → Native) : Fences (.dropRuntime n) n

/-- The graph of bucket `b` can be released behind these fences: the bucket has every lane it was
built with, each is fenced, and in the state that is left no lane built for it is anywhere else. -/
structure Releasable (f : Features) (r : DynamicIoRuntime ins outs) (b : ShapeBucket ins outs)
    (fence : Nat → Native) (t : GraphState ins outs) : Prop where
  whole : ((b.finishInFlight f fence).lanes.map fun l => l.origin).Perm
    ((List.range r.laneCount).map fun i => (⟨r.name, b.key, b.id, i⟩ : Origin ins outs))
  fenced : ∀ l ∈ (b.finishInFlight f fence).lanes, l.inFlight = false ∧ l.work = .none
  attached : b.detachedLanes = 0
  elsewhere : ∀ d ∈ t.elsewhere, d.lane.origin.bucketId ≠ b.id

/-- No graph is released twice; a step asks to release only the graphs of buckets that allow it; a
bucket removed is kept or leaked; and a bucket kept stays until its release has ended. -/
structure ReleasedOnce (f : Features) (s : GraphState ins outs) : Prop where
  once : s.runtime.releaseRequests.Nodup
  released : ∀ a t, (graphLts f ins outs).Tr s a t → ∃ new,
    t.runtime.releaseRequests = s.runtime.releaseRequests ++ new ∧ ∀ id ∈ new, ∃ fence i b,
      a.Fences fence ∧ (reclaimDroppedRuns s.runtime).1.buckets[i]? = some b ∧
      b.graphId = some id ∧ Releasable f s.runtime b (fence i) t
  kept : ∀ request n fence t,
    (graphLts f ins outs).Tr s (.call (.call (.removeBucket request n)) fence) t →
    (removeBucket f s.runtime request n).2 = true → ∃ (i : Nat) (b : ShapeBucket ins outs),
      (reclaimDroppedRuns s.runtime).1.buckets[i]? = some b ∧ b.key = request ∧
      b.finishInFlight f n ∈ t.runtime.retiredBuckets ++ t.runtime.forgotten
  retained : ∀ b ∈ s.runtime.retiredBuckets, ∃ id, b.graphId = some id ∧ ∀ xs t,
    Lts.Trace (SettledGraphs f ins outs) s xs t → b ∈ t.runtime.retiredBuckets ∨ id ∈ t.finished

/-- A bucket without detached lanes has every lane it was built with, and no other place has one. -/
theorem Ledger.home (h : Ledger r held lost) (hb : b ∈ r.buckets) (h0 : b.detachedLanes = 0) :
    (b.lanes.map fun l => l.origin).Perm
      ((List.range r.laneCount).map fun i => (⟨r.name, b.key, b.id, i⟩ : Origin ins outs)) ∧
    ∀ loan ∈ held + r.loans, loan.2.1.bucketId ≠ b.id := by
  obtain ⟨hstock, hlent⟩ := h.balanced hb
  have hnone : lentBy (held + r.loans) b.id = 0 := Multiset.card_eq_zero.mp (hlent.symm.trans h0)
  constructor
  · have hitems : ((b.lanes.map ServingLane.tag : List (Tag ins outs)) : Multiset (Tag ins outs)) =
        r.stock b := by
      rw [← show (r.shelf b).stock = r.stock b from rfl, ← hstock,
        show lentBy (held + r.loans) (r.shelf b).id = 0 from hnone, add_zero]
      rfl
    have hmap := congrArg (Multiset.map Prod.fst) hitems
    rw [DynamicIoRuntime.stock, Multiset.map_map, Multiset.map_coe, List.map_map] at hmap
    exact Multiset.coe_eq_coe.mp hmap
  · rintro ⟨id, t⟩ hl he
    obtain ⟨b', -, rfl, ht⟩ := h.source hl
    obtain ⟨j, -, rfl⟩ := mem_stock.mp ht
    have he : b'.id = b.id := he
    have hm := Lending.mem_lentBy.mpr (he ▸ hl)
    rw [hnone] at hm
    exact Multiset.notMem_zero _ hm

/-- Behind fences that leave no lane in flight, the graph of such a bucket can be released. -/
theorem Orderly.releasable {fence : Nat → Native} (h : Orderly s) (halive : s.alive = true)
    (hb : (reclaimDroppedRuns s.runtime).1.buckets[i]? = some b) (h0 : b.detachedLanes = 0)
    (hin : (b.finishInFlight f fence).anyInFlight = false)
    (ht : t.elsewhere = { s with runtime := (reclaimDroppedRuns s.runtime).1 }.elsewhere) :
    Releasable f s.runtime b fence t := by
  obtain ⟨lost, hl⟩ := h.ledger halive
  have hb := List.mem_of_getElem? hb
  obtain ⟨hwhole, haway⟩ := (ledger_reclaim hl).home hb h0
  have hsame := sameIndex_reclaim (r := s.runtime)
  rw [hsame.laneCount, hsame.name] at hwhole
  refine ⟨?_, ?_, h0, ?_⟩
  · have horigins : (b.finishInFlight f fence).lanes.map (fun l => l.origin) =
        b.lanes.map fun l => l.origin := map_mapIdx_same fun _ _ => rfl
    rw [horigins]
    exact hwhole
  · intro l hm
    have hidle : l.inFlight = false := by
      have hno := List.any_eq_false.mp hin l hm
      simpa using hno
    obtain ⟨j, hj, rfl⟩ := List.mem_mapIdx.mp hm
    have hlane := h.lanes.runtime.reclaim.buckets b hb _ (List.getElem_mem hj)
    exact ⟨hidle, (Lane.graphLane_exec .finishInFlightBestEffort _ hlane).fenced hidle⟩
  · intro d hd
    have hloan : d.loan ∈ s.tokens + (s.debts + s.gone) +
      (reclaimDroppedRuns s.runtime).1.loans := by
      have hloans := loans_elsewhere { s with runtime := (reclaimDroppedRuns s.runtime).1 }
      rw [ht] at hd
      have hm : d.loan ∈ ((GraphState.elsewhere { s with
          runtime := (reclaimDroppedRuns s.runtime).1 }).map RecoveredDynamicLane.loan) :=
        List.mem_map.mpr ⟨d, hd, rfl⟩
      rw [← Multiset.mem_coe, hloans] at hm
      exact hm
    exact haway d.loan hloan

theorem elsewhere_eq (hs : t.runs = s.runs ∧ t.destroyed = s.destroyed ∧ t.away = s.away)
    (hr : t.runtime.recovery = r.recovery ∧ t.runtime.leaked = r.leaked ∧
      t.runtime.lost = r.lost) : t.elsewhere = { s with runtime := r }.elsewhere := by
  simp only [GraphState.elsewhere, hs, hr]

theorem mem_asked (h : g ∈ b.asked) : b.anyInFlight = false ∧ b.graphId = some g := by
  unfold ShapeBucket.asked at h
  split at h
  · cases h
  · rename_i hin
    exact ⟨by simpa using hin, Option.mem_toList.mp h⟩

/-- A step asks to release the graphs of fenced buckets. -/
theorem Orderly.released (h : Orderly s) (hen : s.Enabled a) : ∃ new,
    (graphStep f s a).runtime.releaseRequests = s.runtime.releaseRequests ++ new ∧
    ∀ id ∈ new, ∃ fence i b, a.Fences fence ∧
      (reclaimDroppedRuns s.runtime).1.buckets[i]? = some b ∧ b.graphId = some id ∧
      Releasable f s.runtime b (fence i) (graphStep f s a) := by
  have hnone : ∀ {r : DynamicIoRuntime ins outs}, r.releaseRequests = s.runtime.releaseRequests →
      ∃ new, r.releaseRequests = s.runtime.releaseRequests ++ new ∧
      ∀ id ∈ new, ∃ fence i b, a.Fences fence ∧
        (reclaimDroppedRuns s.runtime).1.buckets[i]? = some b ∧ b.graphId = some id ∧
        Releasable f s.runtime b (fence i) (graphStep f s a) :=
    fun he => ⟨[], by simpa using he, by simp⟩
  rcases graphStep_cases (f := f) h.graphs hen with
    hsame | ⟨request, allowCreate, n, fence, rfl, hasks⟩ |
    ⟨request, n, fence, i, b, rfl, hremoves⟩ | ⟨n, hstep, -, hdrains⟩
  · exact hnone hsame.requests
  · exact hnone hasks.requests
  · have halive : s.alive = true := hen.1.resolve_right nofun
    refine ⟨_, hremoves.requests, ?_⟩
    intro id hid
    obtain ⟨hin, hid⟩ := mem_asked hid
    refine ⟨_, i, b, .removeBucket request n fence, hremoves.bucket, hid, ?_⟩
    exact h.releasable halive hremoves.bucket hremoves.home hin
      (elsewhere_eq ⟨rfl, rfl, rfl⟩ hremoves.books)
  · have halive : s.alive = true := by
      rcases hstep with ⟨⟨fence, rfl⟩, -⟩ | rfl
      · exact hen.1.resolve_right nofun
      · exact hen.1
    have hfences : a.Fences n := by
      rcases hstep with ⟨⟨fence, rfl⟩, -⟩ | rfl
      · exact .clearBuckets n fence
      · exact .dropRuntime n
    refine ⟨_, hdrains.requests, ?_⟩
    intro id hid
    obtain ⟨b', hb', hid⟩ := List.mem_filterMap.mp hid
    obtain ⟨hm, hok⟩ := List.mem_filter.mp hb'
    obtain ⟨i, hi, rfl⟩ := List.mem_mapIdx.mp hm
    simp only [Bool.and_eq_true, Bool.not_eq_true', beq_iff_eq] at hok
    have hb := List.getElem?_eq_getElem hi
    refine ⟨n, i, _, hfences, hb, hid, h.releasable halive hb hok.2 hok.1 ?_⟩
    refine elsewhere_eq ?_ hdrains.books
    rcases hstep with ⟨⟨fence, rfl⟩, -⟩ | rfl <;> exact ⟨rfl, rfl, rfl⟩

/-- A bucket that a removal takes out of the cache is not let go. -/
theorem Orderly.kept {request : ShapeKey ins outs} {n fence : Nat → Native} (h : Orderly s)
    (hok : (removeBucket f s.runtime request n).2 = true) :
    ∃ (i : Nat) (b : ShapeBucket ins outs), (reclaimDroppedRuns s.runtime).1.buckets[i]? = some b ∧
      b.key = request ∧ b.finishInFlight f n ∈
        (graphStep f s (.call (.call (.removeBucket request n)) fence)).runtime.retiredBuckets ++
        (graphStep f s (.call (.call (.removeBucket request n)) fence)).runtime.forgotten := by
  have hstep : (graphStep f s (.call (.call (.removeBucket request n)) fence)).runtime =
      (removeBucket f s.runtime request n).1 := rfl
  rcases removes_removeBucket (f := f) request n h.graphs.graphs with he | ⟨i, b, hremoves⟩
  · rw [he] at hok
    cases hok
  · refine ⟨i, b, hremoves.bucket, hremoves.key, ?_⟩
    rw [hstep]
    rcases hremoves.kept with ⟨-, hforgotten⟩ | ⟨-, hretired, -⟩
    · exact List.mem_append_right _ (hforgotten ▸ List.mem_cons_self)
    · exact List.mem_append_left _ (hretired ▸ List.mem_append_right _ (List.mem_singleton.mpr rfl))

/-- As long as no lane is brought in with another runtime's token, no lane is let go of over a
pending asynchronous run, and nothing lent is exchanged but the lanes of one bucket, every graph is
released once, and in time. -/
theorem graphs_released_once (h : Lts.Reachable ((lentGraphs f ins outs).restrict fun s =>
    Sum.elim (fun a => ¬ Strays f s a) Exchange.InPlace) s) : ReleasedOnce f s := by
  have ho := orderly_reachable h
  refine ⟨?_, ?_, ?_, ?_⟩
  · exact (List.nodup_append.mp ho.nodup).2.1
  · rintro a t ⟨hen, rfl⟩
    exact ho.released hen
  · rintro request n fence t ⟨-, rfl⟩ hok
    exact ho.kept hok
  · intro b hb
    cases hid : b.graphId with
    | none => exact absurd (List.mem_map.mpr ⟨b, hb, hid⟩) ho.graphs.retired
    | some id =>
      refine ⟨id, rfl, ?_⟩
      intro xs t hx
      exact (retired_trace ho.graphs hb hx).2.imp_right fun hf => hf id hid

/-- Graphs on the device 0, and one stream. -/
def graphOptions (maxBuckets : Nat) : DynamicIoOptions :=
  { DynamicIoOptions.new maxBuckets with
    cudaGraph := true
    deviceId := some 0
    stream := some 0 }

/-- A graph runtime for buckets of one lane, before any call. -/
def freshGraphs (name maxBuckets : Nat) : GraphState 1 1 where
  runtime := .fresh name .sharedSession 1 (graphOptions maxBuckets)
  runs := []
  destroyed := []
  away := []
  discarded := []
  nextGraphId := 1
  finished := []
  alive := true

theorem freshGraphs_initial {maxBuckets : Nat} (name : Nat) (hpos : maxBuckets ≠ 0)
    (hlt : maxBuckets < usizeBound) : (freshGraphs name maxBuckets).Initial ⟨true, true⟩ := by
  have hv : (graphOptions maxBuckets).validate ⟨true, true⟩ = .ok (graphOptions maxBuckets) := by
    simp [DynamicIoOptions.validate, graphOptions, DynamicIoOptions.new, hpos]
  have hnew : DynamicIoRuntime.new ⟨true, true⟩ name .sharedSession 1 (graphOptions maxBuckets) =
      .ok (freshGraphs name maxBuckets).runtime := by
    have hcapacity : (graphOptions maxBuckets).maxBuckets * 1 < usizeBound := by
      simpa [graphOptions, DynamicIoOptions.new] using hlt
    have hmode : (graphOptions maxBuckets).validateRuntimeMode ⟨true, true⟩ .sharedSession 1 =
        .ok () := rfl
    simp only [DynamicIoRuntime.new, Nat.one_ne_zero, if_false, hv, hmode, hcapacity, if_true]
    rfl
  exact ⟨⟨name, .sharedSession, 1, graphOptions maxBuckets, hnew, rfl⟩,
    rfl, rfl, rfl, rfl, rfl, rfl⟩

/-- A call behind which every fence succeeds. -/
def GraphOp.succeeds (a : Op 1 1) : GraphOp 1 1 := .call (.call a) fun _ => .success

/-- The runtime has a plan, a bucket and a token for its only lane. -/
def servingGraphs (name : Nat) : GraphState 1 1 :=
  [GraphOp.succeeds (.installShapePlan unitPlan),
    .succeeds (.getOrCreateBucket unitKey true .success),
    .succeeds (.enqueuePrepared ⟨0, 1⟩ .success)].foldl (graphStep ⟨true, true⟩)
      (freshGraphs name 1)

theorem servingGraphs_reachable (name : Nat) :
    Lts.Reachable ((graphLts ⟨true, true⟩ 1 1).restrict fun s a => ¬ Strays ⟨true, true⟩ s a)
      (servingGraphs name) := by
  have hinit : (freshGraphs name 1).Initial ⟨true, true⟩ :=
    freshGraphs_initial name (by decide) (by decide)
  have h₀ := Lts.Reachable.initial (L := (graphLts ⟨true, true⟩ 1 1).restrict fun s a =>
    ¬ Strays ⟨true, true⟩ s a) hinit
  have h₁ :=
    h₀.step (a := GraphOp.succeeds (.installShapePlan unitPlan)) ⟨id, ⟨.inl rfl, trivial⟩, rfl⟩
  have h₂ := h₁.step (a := GraphOp.succeeds (.getOrCreateBucket unitKey true .success))
    ⟨id, ⟨.inl rfl, rfl, nofun⟩, rfl⟩
  exact h₂.step (a := GraphOp.succeeds (.enqueuePrepared ⟨0, 1⟩ .success))
    ⟨id, ⟨.inl rfl, trivial⟩, rfl⟩

/-- The token is completed, and the bucket removed. -/
theorem graphs_released_once_removed : ∃ s : GraphState 1 1, ReleasedOnce ⟨true, true⟩ s ∧
    s.runtime.releaseRequests = [1] ∧ s.runtime.retiredBuckets.length = 1 := by
  have h₁ := (servingGraphs_reachable 0).step
    (a := GraphOp.succeeds (.completeOwned 0 .success fun _ => .ok ()))
    ⟨id, ⟨.inl rfl, trivial⟩, rfl⟩
  have h₂ := h₁.step (a := GraphOp.succeeds (.removeBucket unitKey fun _ => .success))
    ⟨id, ⟨.inl rfl, trivial⟩, rfl⟩
  exact ⟨_, graphs_released_once (Lts.reachable_beside h₂), rfl, rfl⟩

/-- A bucket request that is given the graph id 2. -/
def CreateNative.second : CreateNative := { CreateNative.success with graphId := .ok 2 }

/-- A runtime for two shapes, with a bucket for the first. -/
def halfBuilt : GraphState 1 1 :=
  [GraphOp.succeeds (.installShapePlan twoPlan),
    .succeeds (.getOrCreateBucket unitKey true .success)].foldl (graphStep ⟨true, true⟩)
      (freshGraphs 0 2)

theorem halfBuilt_reachable {C : GraphState 1 1 → GraphOp 1 1 → Prop}
    (hplan : C (freshGraphs 0 2) (.succeeds (.installShapePlan twoPlan)))
    (hcreate : C (graphStep ⟨true, true⟩ (freshGraphs 0 2) (.succeeds (.installShapePlan twoPlan)))
      (.succeeds (.getOrCreateBucket unitKey true .success))) :
    Lts.Reachable ((graphLts ⟨true, true⟩ 1 1).restrict C) halfBuilt := by
  have hinit : (freshGraphs 0 2).Initial ⟨true, true⟩ :=
    freshGraphs_initial 0 (by decide) (by decide)
  have h₀ := Lts.Reachable.initial (L := (graphLts ⟨true, true⟩ 1 1).restrict C) hinit
  have h₁ := h₀.step (a := GraphOp.succeeds (.installShapePlan twoPlan))
    ⟨hplan, ⟨.inl rfl, trivial⟩, rfl⟩
  exact h₁.step (a := GraphOp.succeeds (.getOrCreateBucket unitKey true .success))
    ⟨hcreate, ⟨.inl rfl, rfl, nofun⟩, rfl⟩

/-- A token of another runtime is completed on this one, which inserts its lane: as the bucket
misses none any more, a removal asks to release its graph while its own lane runs it. So it does
where the lanes of two buckets were exchanged. -/
theorem graphs_released_once_fails :
    (Lts.Reachable (graphLts ⟨true, true⟩ 1 1) (servingGraphs 1) ∧
      ∃ run ∈ (servingGraphs 1).runs, ∃ s, Lts.Reachable (graphLts ⟨true, true⟩ 1 1) s ∧
        s = graphStep ⟨true, true⟩ (servingGraphs 0)
          (.completeForeign run .success fun _ => .ok ()) ∧
        ¬ ReleasedOnce ⟨true, true⟩ s) ∧
    ∃ s : GraphState 1 1, Lts.Reachable (lentGraphs ⟨true, true⟩ 1 1) s ∧
      ¬ ReleasedOnce ⟨true, true⟩ s := by
  have hserving := fun name => Lts.restrict_reachable (servingGraphs_reachable name)
  constructor
  · refine ⟨hserving 1, _, List.mem_cons_self, _, ?_, rfl, fun h => ?_⟩
    · have hforeign : (1 : Nat) ≠ 0 := by decide
      exact (hserving 0).step (a := .completeForeign _ .success fun _ => .ok ())
        ⟨⟨rfl, hforeign⟩, rfl⟩
    obtain ⟨new, hnew, hreleased⟩ := h.released
      (GraphOp.succeeds (.removeBucket unitKey fun _ => .success)) _ ⟨⟨.inl rfl, trivial⟩, rfl⟩
    have hone : [(1 : Int)] = new := hnew
    obtain ⟨fence, i, b, -, hb, -, hr⟩ := hreleased 1 (hone ▸ List.mem_singleton.mpr rfl)
    have hi : i = 0 := Nat.lt_one_iff.mp (List.getElem?_eq_some_iff.mp hb).1
    subst hi
    obtain rfl := Option.some.inj hb
    exact hr.elsewhere _ List.mem_cons_self rfl
  · have h₀ := Lts.restrict_reachable (Lts.reachable_beside (g := GraphState.exchange)
      (E := Exchange.InPlace) (halfBuilt_reachable (C := fun _ _ => True) trivial trivial))
    have h₁ := h₀.ours (.call (.call (.getOrCreateBucket pairKey true .second)) fun _ => .success)
      ⟨⟨.inl rfl, rfl, nofun⟩, rfl⟩
    have h₂ := h₁.theirs (.lanes (.bucket 0 0) (.bucket 1 0))
    have h₃ :=
      h₂.ours (.succeeds (.bucketLane 1 0 .runEnqueued .success)) ⟨⟨.inl rfl, trivial⟩, rfl⟩
    refine ⟨_, h₃, fun h => ?_⟩
    obtain ⟨new, hnew, hreleased⟩ := h.released
      (GraphOp.succeeds (.removeBucket unitKey fun _ => .success)) _ ⟨⟨.inl rfl, trivial⟩, rfl⟩
    have hone : [(1 : Int)] = new := hnew
    obtain ⟨fence, i, b, -, hb, hid, hr⟩ := hreleased 1 (hone ▸ List.mem_singleton.mpr rfl)
    have hi : i < 2 := (List.getElem?_eq_some_iff.mp hb).1
    have hcases : i = 0 ∨ i = 1 := by omega
    rcases hcases with rfl | rfl <;> obtain rfl := Option.some.inj hb
    · obtain ⟨j, -, ho⟩ := List.mem_map.mp (hr.whole.mem_iff.mp List.mem_cons_self)
      have hkey : unitKey = pairKey := congrArg Origin.key ho
      exact absurd hkey (by decide)
    · have hid : (2 : Int) = 1 := Option.some.inj hid
      exact absurd hid (by decide)

end Zrt.Dynamic
