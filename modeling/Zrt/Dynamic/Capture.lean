import Zrt.Dynamic.Release

/-! A graph runtime captures a bucket's graphs while nothing else of it runs, and only then. -/
namespace Zrt.Dynamic

open Lane (Features GraphLane Native)

variable {ins outs : Nat} {f : Features} {r r' : DynamicIoRuntime ins outs} {i k : Nat}
  {b : ShapeBucket ins outs} {s : GraphState ins outs} {a : GraphOp ins outs}
  {request : ShapeKey ins outs} {allowCreate : Bool} {n : CreateNative}
  {ls : List Lane.ServingLane} {held : Multiset (PreparedBucketId × Tag ins outs)}
  {lost : List (RecoveredDynamicLane ins outs)}

/-- The work of every lane of the bucket is fenced. -/
def ShapeBucket.Quiet (b : ShapeBucket ins outs) : Prop := ∀ l ∈ b.laneSet, l.work = .none

/-- The lanes out of reach: leaked with their bucket, or dropped. -/
def GraphState.outOfReach (s : GraphState ins outs) : List Lane.ServingLane :=
  s.runtime.forgotten.flatMap ShapeBucket.laneSet ++ s.discarded

/-- The step leaves pending work behind on lanes that it puts out of reach: with a removed bucket,
a cleared one, or a bucket that it fails to create. -/
def Abandons (f : Features) (s : GraphState ins outs) : GraphOp ins outs → Prop
  | .call (.call (.removeBucket request n)) _ => ∃ b ∈ (reclaimDroppedRuns s.runtime).1.buckets,
      b.key = request ∧ b.detachedLanes = 0 ∧ ¬ (b.finishInFlight f n).Quiet
  | .call (.call (.clearBuckets n)) _ =>
      (∀ b ∈ (reclaimDroppedRuns s.runtime).1.buckets, b.detachedLanes = 0) ∧
      ∃ b ∈ fencedBuckets f (reclaimDroppedRuns s.runtime).1 n, ¬ b.Quiet
  | .call (.call (.getOrCreateBucket request allowCreate n)) fence =>
      ∃ r, buildsFor f s.runtime request allowCreate n = some r ∧
      (∀ i, (getOrCreateBucketInner f s.runtime request allowCreate n).2 ≠ .ok i) ∧
      ∃ l ∈ discardedLanes f r n fence, l.work ≠ .none
  | _ => False

/-- A bucket request begins the capture of lane `k` of its new bucket: it has found room for it in
the state `r`, and the captures of the lanes before have succeeded. -/
structure Captures (f : Features) (s : GraphState ins outs) (request : ShapeKey ins outs)
    (allowCreate : Bool) (n : CreateNative) (r : DynamicIoRuntime ins outs)
    (ls : List Lane.ServingLane) (k : Nat) : Prop where
  enabled : ∃ fence, s.Enabled (.call (.call (.getOrCreateBucket request allowCreate n)) fence)
  builds : buildsFor f s.runtime request allowCreate n = some r
  annotated : annotateLanes f r n = .ok ls
  lane : k < ls.length
  before : ∀ i < k, ∀ l, ls[i]? = some l → (captureLane f n.capture i l).2 = .ok ()

/-- The lanes of the new bucket then. -/
def lanesAtCapture (f : Features) (n : CreateNative) (ls : List Lane.ServingLane) (k : Nat) :
    List Lane.ServingLane :=
  ls.mapIdx fun i l => if i < k then (captureLane f n.capture i l).1 else l

/-- Whenever a lane is captured, the work of every lane is fenced that is in the cache, in a retired
bucket, away from its bucket or in the new bucket. -/
def CapturesIdle (f : Features) (s : GraphState ins outs) : Prop :=
  ∀ request allowCreate n r ls k, Captures f s request allowCreate n r ls k →
    (∀ b ∈ r.buckets ++ s.runtime.retiredBuckets, b.Quiet) ∧
    (∀ d ∈ ({ s with runtime := r } : GraphState ins outs).elsewhere, d.lane.work = .none) ∧
    ∀ l ∈ lanesAtCapture f n ls k, l.work = .none

/-- Whenever a lane is captured, the work of every other lane that the runtime has ever built is
fenced. -/
def CapturesAlone (f : Features) (s : GraphState ins outs) : Prop :=
  CapturesIdle f s ∧ ∀ request allowCreate n r ls k, Captures f s request allowCreate n r ls k →
    ∀ l ∈ ({ s with runtime := r } : GraphState ins outs).outOfReach, l.work = .none

/-- Retired buckets are fenced. -/
structure Resting (s : GraphState ins outs) : Prop where
  orderly : Orderly s
  retired : ∀ b ∈ s.runtime.retiredBuckets, b.Quiet

/-- Nothing but fenced work is out of reach. -/
structure Settled (s : GraphState ins outs) : Prop where
  resting : Resting s
  fenced : s.alive = true → ∀ l ∈ s.outOfReach, l.work = .none

theorem mem_outOfReach {l : Lane.ServingLane} : l ∈ s.outOfReach ↔
    (∃ b ∈ s.runtime.forgotten, l ∈ b.laneSet) ∨ l ∈ s.discarded := by
  rw [GraphState.outOfReach, List.mem_append, List.mem_flatMap]

theorem buildsFor_cases (h : buildsFor f r request allowCreate n = some r')
    (hg : r.options.cudaGraph = true) :
    lookupBucket r request allowCreate n.released = (r', .ok none) ∧
      r' = reapRetiredBuckets (reclaimDroppedRuns r).1 n.released ∧
      refuseGraphBucketCreationWhileInFlight r' = .ok () := by
  unfold buildsFor at h
  split at h
  · rename_i r₁ hl
    obtain ⟨-, -, hr₁⟩ := lookupBucket_miss hl
    have hg₁ : r₁.options.cudaGraph = true := by
      rw [hr₁]
      exact (stable_sameGraphs.lanes.reclaim (r := r)).options ▸ hg
    rw [if_pos hg₁] at h
    split at h
    · cases h
    · rename_i hrefuse
      have hev := evict_graph (f := f) (n := n.fence) hg₁
      revert h hev
      obtain ⟨r₂, e | ⟨⟩⟩ := evictOneBucketIfFull f r₁ n.fence
      · intro h
        cases h
      · intro h hev
        obtain rfl := Option.some.inj h
        obtain rfl : r₂ = r₁ := hev
        exact ⟨hl, hr₁, hrefuse⟩
  · cases h

/-- The runtime is idle where it does not refuse. -/
theorem refuse_ok (h : refuseGraphBucketCreationWhileInFlight r = .ok ()) (hb : b ∈ r.buckets) :
    b.detachedLanes = 0 ∧ b.anyInFlight = false := by
  unfold refuseGraphBucketCreationWhileInFlight at h
  split at h
  · rename_i hnone
    obtain ⟨i, hi⟩ := List.mem_iff_getElem?.mp hb
    have hp := List.find?_eq_none.mp hnone (b, i) (List.mem_zipIdx_iff_getElem?.mpr hi)
    simp only [decide_eq_true_eq, not_or, Bool.not_eq_true] at hp
    exact ⟨by omega, hp.2⟩
  · cases h

/-- A lane with nothing in flight is fenced. -/
theorem quiet_of_idle (hl : ∀ l ∈ b.lanes, GraphLane l.toServingLane)
    (hin : b.anyInFlight = false) :
    b.Quiet := by
  intro l hm
  obtain ⟨l, hl', rfl⟩ := List.mem_map.mp hm
  have hno := List.any_eq_false.mp hin l hl'
  exact (hl l hl').fenced (by simpa using hno)

/-- So is a bucket of such lanes behind fences that leave none in flight. -/
theorem quiet_of_fenced {n : Nat → Native} (hl : ∀ l ∈ b.lanes, GraphLane l.toServingLane)
    (hin : (b.finishInFlight f n).anyInFlight = false) : (b.finishInFlight f n).Quiet := by
  refine quiet_of_idle ?_ hin
  intro l hm
  obtain ⟨j, hj, rfl⟩ := List.mem_mapIdx.mp hm
  exact Lane.graphLane_exec .finishInFlightBestEffort _ (hl _ (List.getElem_mem hj))

theorem Resting.capturesIdle (h : Resting s) : CapturesIdle f s := by
  intro request allowCreate n r ls k hc
  obtain ⟨fence, halive, -⟩ := hc.enabled
  have halive : s.alive = true := halive.resolve_right nofun
  obtain ⟨-, hr, hrefuse⟩ := buildsFor_cases hc.builds h.orderly.graphs.option
  have hidle := fun b hb => refuse_ok (r := r) (b := b) hrefuse hb
  have hlanes : Within (fun _ (l : ServingLane ins outs) => GraphLane l.toServingLane) r := by
    rw [hr]
    exact h.orderly.lanes.runtime.reclaim.of_eq rfl rfl
  refine ⟨?_, ?_, ?_⟩
  · intro b hb
    rcases List.mem_append.mp hb with hb | hb
    · exact quiet_of_idle (hlanes.buckets b hb) (hidle b hb).2
    · exact h.retired b hb
  · intro d hd
    -- no lane is away, so no place but a bucket has one
    obtain ⟨lost, hledger⟩ := h.orderly.ledger halive
    have hr' : Ledger r (s.tokens + (s.debts + s.gone)) lost := by
      rw [hr]
      exact (ledger_reclaim hledger).of_same sameBooks_retired
    have hnone := hr'.none_away fun b hb => (hidle b hb).1
    have hloans := (loans_elsewhere ({ s with runtime := r } : GraphState ins outs)).trans hnone
    have hempty : ({ s with runtime := r } : GraphState ins outs).elsewhere = [] :=
      List.map_eq_nil_iff.mp ((Multiset.coe_eq_zero _).mp hloans)
    rw [hempty] at hd
    cases hd
  · intro l hl
    obtain ⟨i, hi, rfl⟩ := List.mem_mapIdx.mp hl
    obtain ⟨-, hall⟩ := annotateLanes_ok hc.annotated
    obtain ⟨hgraph, hidle⟩ := hall _ (List.getElem_mem hi)
    split
    · rename_i hlt
      obtain ⟨he, hok⟩ := captureLane_ok (hc.before i hlt _ (List.getElem?_eq_getElem hi))
      rw [he]
      exact (Lane.graphLane_exec .run _ hgraph).fenced (Lane.run_ok hgraph hok).2
    · exact hgraph.fenced hidle

theorem Settled.capturesAlone (h : Settled s) : CapturesAlone f s := by
  refine ⟨h.resting.capturesIdle, ?_⟩
  intro request allowCreate n r ls k hc l hl
  obtain ⟨fence, halive, -⟩ := hc.enabled
  obtain ⟨-, hr, -⟩ := buildsFor_cases hc.builds h.resting.orderly.graphs.option
  have hforgotten : r.forgotten = s.runtime.forgotten := by
    rw [hr]
    exact (stable_sameGraphs.lanes.reclaim (r := s.runtime)).forgotten
  refine h.fenced (halive.resolve_right nofun) l (mem_outOfReach.mpr ?_)
  exact hforgotten ▸ mem_outOfReach.mp hl

/-- What a step retires, it fences. -/
theorem retired_quiet (h : Orderly s) (hen : s.Enabled a)
    (hq : ∀ b ∈ s.runtime.retiredBuckets, b.Quiet) :
    ∀ b ∈ (graphStep f s a).runtime.retiredBuckets, b.Quiet := by
  rcases graphStep_cases (f := f) h.graphs hen with
    hsame | ⟨request, allowCreate, n, fence, -, hasks⟩ | ⟨request, n, fence, i, b, -, hremoves⟩ |
    ⟨n, -, -, hdrains⟩
  · rw [hsame.retired]
    exact hq
  · rcases hasks.retired with hretired | hretired <;> rw [hretired]
    · exact hq
    · exact fun b hb => hq b (List.mem_of_mem_filter hb)
  · have hlanes := h.lanes.runtime.reclaim.buckets b (List.mem_of_getElem? hremoves.bucket)
    rcases hremoves.kept with ⟨hretired, -⟩ | ⟨hin, hretired, -⟩ <;> rw [hretired]
    · exact hq
    · intro b' hb'
      rcases List.mem_append.mp hb' with hb' | hb'
      · exact hq b' hb'
      · obtain rfl := List.mem_singleton.mp hb'
        exact quiet_of_fenced hlanes hin
  · rw [hdrains.retired]
    exact fun b hb => nomatch hb

/-- What a step leaks is fenced all the same, unless it abandons it. -/
theorem forgotten_quiet (h : Orderly s) (hen : s.Enabled a) (hab : ¬ Abandons f s a)
    (hdrop : ∀ n, a ≠ .dropRuntime n) (hq : ∀ b ∈ s.runtime.forgotten, b.Quiet) :
    ∀ b ∈ (graphStep f s a).runtime.forgotten, b.Quiet := by
  rcases graphStep_cases (f := f) h.graphs hen with
    hsame | ⟨request, allowCreate, n, fence, -, hasks⟩ | ⟨request, n, fence, i, b, rfl, hremoves⟩ |
    ⟨n, hstep, -, hdrains⟩
  · rw [hsame.forgotten]
    exact hq
  · rw [hasks.forgotten]
    exact hq
  · rcases hremoves.kept with ⟨-, hforgotten⟩ | ⟨-, -, hforgotten⟩ <;> rw [hforgotten]
    · intro b' hb'
      rcases List.mem_cons.mp hb' with rfl | hb'
      · by_contra hquiet
        exact hab ⟨b, List.mem_of_getElem? hremoves.bucket, hremoves.key, hremoves.home, hquiet⟩
      · exact hq b' hb'
    · exact hq
  · obtain ⟨⟨fence, rfl⟩, h0⟩ := hstep.resolve_right (hdrop n)
    rw [hdrains.forgotten]
    intro b hb
    rcases List.mem_append.mp hb with hb | hb
    · by_contra hquiet
      exact hab ⟨h0, b, (List.mem_filter.mp (List.mem_reverse.mp hb)).1, hquiet⟩
    · exact hq b hb

/-- The buckets that a call drops are fenced. -/
theorem Resting.dropped {c : UnwindOp ins outs} (h : Resting s) :
    ∀ b ∈ droppedBuckets f s.runtime c, b.Quiet := by
  intro b hb
  unfold droppedBuckets at hb
  split at hb
  · exact h.retired b (List.mem_of_mem_filter hb)
  · split at hb
    · cases hb
    · rcases List.mem_append.mp hb with hb | hb
      · exact h.retired b hb
      · obtain ⟨hm, hin⟩ := List.mem_filter.mp hb
        obtain ⟨i, hi, rfl⟩ := List.mem_mapIdx.mp hm
        exact quiet_of_fenced (h.orderly.lanes.runtime.reclaim.buckets _ (List.getElem_mem hi))
          (by simpa using hin)
  · cases hb

theorem discarded_quiet (h : Resting s) (hab : ¬ Abandons f s a)
    (hd : ∀ l ∈ s.discarded, l.work = .none) :
    ∀ l ∈ (graphStep f s a).discarded, l.work = .none := by
  cases a with
  | call c fence =>
    intro l hl
    rcases List.mem_append.mp hl with hl | hl
    · obtain ⟨b, hb, hl⟩ := List.mem_flatMap.mp hl
      exact h.dropped b hb l hl
    · unfold GraphState.request at hl
      split at hl
      · rename_i request allowCreate n
        split at hl
        · exact hd l hl
        · rename_i r hbuild
          dsimp only at hl
          split at hl
          · exact hd l hl
          · rename_i e he
            rcases List.mem_append.mp hl with hl | hl
            · by_contra hpending
              refine hab ⟨r, hbuild, ?_, l, hl, hpending⟩
              intro i hi
              rw [he] at hi
              cases hi
            · exact hd l hl
      · exact hd l hl
  | giveAway k =>
    simp only [graphStep]
    split <;> exact hd
  | _ => exact hd

theorem resting_initial (h : s.Initial f) : Resting s := by
  refine ⟨orderly_initial h, ?_⟩
  intro b hb
  obtain ⟨name, mode, laneCount, options, -, -, he⟩ := initial_cases h.runtime
  have hr : s.runtime = .fresh name mode laneCount options := congrArg State.runtime he
  rw [hr] at hb
  cases hb

theorem settled_initial (h : s.Initial f) : Settled s := by
  refine ⟨resting_initial h, ?_⟩
  intro _ l hl
  obtain ⟨name, mode, laneCount, options, -, -, he⟩ := initial_cases h.runtime
  have hr : s.runtime = .fresh name mode laneCount options := congrArg State.runtime he
  simp [GraphState.outOfReach, hr, DynamicIoRuntime.fresh, h.discarded] at hl

theorem resting_step (h : Resting s) (hen : s.Enabled a) (hno : ¬ Strays f s a) :
    Resting (graphStep f s a) :=
  ⟨orderly_step h.orderly hen hno, retired_quiet h.orderly hen h.retired⟩

theorem settled_step (h : Settled s) (hen : s.Enabled a) (hno : ¬ Strays f s a)
    (hab : ¬ Abandons f s a) : Settled (graphStep f s a) := by
  refine ⟨resting_step h.resting hen hno, ?_⟩
  intro halive l hl
  obtain ⟨halive, hdrop⟩ := alive_step halive
  have hset := h.fenced halive
  rcases mem_outOfReach.mp hl with ⟨b, hb, hl⟩ | hl
  · refine forgotten_quiet h.resting.orderly hen hab hdrop ?_ b hb l hl
    intro b hb l hl
    exact hset l (mem_outOfReach.mpr (.inl ⟨b, hb, hl⟩))
  · refine discarded_quiet h.resting hab ?_ l hl
    intro l hl
    exact hset l (mem_outOfReach.mpr (.inr hl))

/-- The operation assigns no graph id. -/
def KeepsGraph (op : Lane.Op) : Prop := ∀ id, op ≠ .setGpuGraphId id

theorem closed_captured : Closed f KeepsGraph
    fun (_ : PreparedBucketId) (l : ServingLane ins outs) => l.graphCaptured = true :=
  ⟨nofun, nofun, nofun, fun _ _ hop h => Lane.captured_exec h hop⟩

/-- Every lane in the cache, in a token or in a recovery cell has captured its graph. -/
def AllCaptured (s : GraphState ins outs) : Prop :=
  s.toState.Within fun _ l => l.graphCaptured = true

theorem captured_reachable (h : Lts.Reachable ((lentGraphs f ins outs).restrict fun s =>
    Sum.elim (fun a => ¬ Strays f s a ∧ a.Uses KeepsGraph) Exchange.InPlace) s) :
    GraphRuntime s.runtime ∧ AllCaptured s := by
  refine Lts.invariant_beside (P := fun s => GraphRuntime s.runtime ∧ AllCaptured s) ?_ ?_ ?_ h
  · exact fun s hi => ⟨(orderly_initial hi).graphs, within_initial hi.runtime⟩
  · rintro s a t ⟨hr, hall⟩ ⟨hno, huses⟩ ⟨hen, rfl⟩
    refine ⟨graphRuntime_step hr hen, closed_captured.graphStep hr.cached huses hno ?_ hall⟩
    intro request allowCreate n fence r' lanes _ hcr id l hl
    exact (creates_captured hr.option hcr id l hl).captured
  · rintro s x ⟨hr, hall⟩ hx
    exact ⟨graphRuntime_exchange hr (keepsBuckets_of_inPlace hx), within_exchange hall hx⟩

theorem resting_exchange {x : Exchange ins outs} (h : Resting s) (hx : x.InPlace) :
    Resting (s.exchange x) := by
  have hsame : SameGraphs s.runtime (s.exchange x).runtime :=
    exchange_stable stable_sameGraphs.lanes (keepsBuckets_of_inPlace hx)
  exact ⟨orderly_exchange h.orderly hx, hsame.retired.symm ▸ h.retired⟩

theorem resting_reachable (h : Lts.Reachable ((lentGraphs f ins outs).restrict fun s =>
    Sum.elim (fun a => ¬ Strays f s a) Exchange.InPlace) s) : Resting s := by
  refine Lts.invariant_beside (P := Resting) (fun _ => resting_initial) ?_ ?_ h
  · rintro s a t hrest hno ⟨hen, rfl⟩
    exact resting_step hrest hen hno
  · exact fun s x hrest hx => resting_exchange hrest hx

theorem settled_reachable (h : Lts.Reachable ((lentGraphs f ins outs).restrict fun s =>
    Sum.elim (fun a => ¬ Strays f s a ∧ ¬ Abandons f s a) Exchange.InPlace) s) : Settled s := by
  refine Lts.invariant_beside (P := Settled) (fun _ => settled_initial) ?_ ?_ h
  · rintro s a t hset ⟨hno, hab⟩ ⟨hen, rfl⟩
    exact settled_step hset hen hno hab
  · intro s x hset hx
    have hsame : SameGraphs s.runtime (s.exchange x).runtime :=
      exchange_stable stable_sameGraphs.lanes (keepsBuckets_of_inPlace hx)
    refine ⟨resting_exchange hset.resting hx, fun halive l hl => hset.fenced halive l ?_⟩
    exact mem_outOfReach.mpr (hsame.forgotten ▸ mem_outOfReach.mp hl)

/-- As long as no lane is brought in with another runtime's token, no lane is let go of over a
pending asynchronous run, and nothing lent is exchanged but the lanes of one bucket: a capture finds
every lane within reach idle; if moreover no pending work was put out of reach, it has the runtime
for itself; and if nobody has assigned a lane a graph id, no lane of a cached bucket is captured
later. -/
theorem captures_alone (h : Lts.Reachable ((lentGraphs f ins outs).restrict fun s =>
    Sum.elim (fun a => ¬ Strays f s a) Exchange.InPlace) s) : CapturesIdle f s ∧
    (Lts.Reachable ((lentGraphs f ins outs).restrict fun s =>
      Sum.elim (fun a => ¬ Strays f s a ∧ ¬ Abandons f s a) Exchange.InPlace) s →
        CapturesAlone f s) ∧
    (Lts.Reachable ((lentGraphs f ins outs).restrict fun s =>
      Sum.elim (fun a => ¬ Strays f s a ∧ a.Uses KeepsGraph) Exchange.InPlace) s →
        AllCaptured s) :=
  ⟨(resting_reachable h).capturesIdle, fun h => (settled_reachable h).capturesAlone,
    fun h => (captured_reachable h).2⟩

/-- Every fence fails. -/
def unfenced : Native := { Lane.Native.failure with
  eventSync := .error (.local "event synchronization failed") }

/-- A bucket for the second shape is captured beside the first. -/
theorem captures_alone_second : CapturesAlone ⟨true, true⟩ halfBuilt ∧ AllCaptured halfBuilt ∧
    ∃ r ls, Captures ⟨true, true⟩ halfBuilt pairKey true .second r ls 0 ∧ r.buckets.length = 1 := by
  have hstays := halfBuilt_reachable (C := fun s a => ¬ Strays ⟨true, true⟩ s a) id id
  have hapart := halfBuilt_reachable (C := fun s a => ¬ Strays ⟨true, true⟩ s a ∧
    ¬ Abandons ⟨true, true⟩ s a) ⟨id, id⟩ ⟨id, fun ⟨_, _, hfail, _⟩ => hfail 0 rfl⟩
  have hkept := halfBuilt_reachable (C := fun s a => ¬ Strays ⟨true, true⟩ s a ∧ a.Uses KeepsGraph)
    ⟨id, trivial⟩ ⟨id, trivial⟩
  exact ⟨(captures_alone (Lts.reachable_beside hstays)).2.1 (Lts.reachable_beside hapart),
    (captures_alone (Lts.reachable_beside hstays)).2.2 (Lts.reachable_beside hkept), _, _,
    ⟨⟨fun _ => .success, .inl rfl, rfl, nofun⟩, rfl, rfl, Nat.one_pos, nofun⟩, rfl⟩

/-- A lane is assigned a graph id in its bucket and has to capture again; or a bucket is removed
while a run of its lane is pending and every fence fails, and the next one is captured meanwhile.
A token of another runtime and a lane let go of make room for a capture in the same way, and so does
a lane that was exchanged for a new one, which is not captured. -/
theorem captures_alone_fails :
    (∃ s : GraphState 1 1, Lts.Reachable (graphLts ⟨true, true⟩ 1 1) s ∧ ¬ AllCaptured s) ∧
    (∃ s : GraphState 1 1, Lts.Reachable (graphLts ⟨true, true⟩ 1 1) s ∧
      ¬ CapturesAlone ⟨true, true⟩ s) ∧
    (∃ run ∈ (servingGraphs 1).runs, ∃ s t, Lts.Reachable (graphLts ⟨true, true⟩ 1 1) s ∧
      (graphLts ⟨true, true⟩ 1 1).Tr s (.completeForeign run .success fun _ => .ok ()) t ∧
      ¬ CapturesIdle ⟨true, true⟩ t) ∧
    (∃ s t : GraphState 1 1, Lts.Reachable (graphLts ⟨true, true⟩ 1 1) s ∧
      (graphLts ⟨true, true⟩ 1 1).Tr s (.letGo 0 0) t ∧ ¬ CapturesIdle ⟨true, true⟩ t) ∧
    ∃ s : GraphState 1 1, Lts.Reachable (lentGraphs ⟨true, true⟩ 1 1) s ∧
      ¬ CapturesIdle ⟨true, true⟩ s ∧ ¬ AllCaptured s := by
  have hbuilt : Lts.Reachable (graphLts ⟨true, true⟩ 1 1) halfBuilt :=
    Lts.restrict_reachable (halfBuilt_reachable (C := fun _ _ => True) trivial trivial)
  refine ⟨?_, ?_, ?_, ?_, ?_⟩
  · have h₁ := hbuilt.step (a := GraphOp.succeeds (.bucketLane 0 0 (.setGpuGraphId 7) .success))
      ⟨⟨.inl rfl, trivial⟩, rfl⟩
    refine ⟨_, h₁, ?_⟩
    intro h
    have hcaptured := h.runtime.buckets _ List.mem_cons_self _ List.mem_cons_self
    exact Bool.false_ne_true hcaptured
  · have h₁ := hbuilt.step (a := GraphOp.succeeds (.bucketLane 0 0 .runEnqueued .success))
      ⟨⟨.inl rfl, trivial⟩, rfl⟩
    have h₂ := h₁.step (a := GraphOp.succeeds (.removeBucket unitKey fun _ => unfenced))
      ⟨⟨.inl rfl, trivial⟩, rfl⟩
    refine ⟨_, h₂, ?_⟩
    intro h
    have hpending := h.2 pairKey true .second _ _ 0
      ⟨⟨fun _ => .success, .inl rfl, rfl, nofun⟩, rfl, rfl, Nat.one_pos, nofun⟩
      _ List.mem_cons_self
    cases hpending
  · have h₁ := hbuilt.step (a := GraphOp.succeeds (.enqueuePrepared ⟨0, 1⟩ .success))
      ⟨⟨.inl rfl, trivial⟩, rfl⟩
    have hforeign : (1 : Nat) ≠ 0 := by decide
    refine ⟨_, List.mem_cons_self, _, _, h₁, ⟨⟨rfl, hforeign⟩, rfl⟩, ?_⟩
    intro h
    have hpending := (h pairKey true .second _ _ 0
      ⟨⟨fun _ => .success, .inl rfl, rfl, nofun⟩, rfl, rfl, Nat.one_pos, nofun⟩).2.1
      _ List.mem_cons_self
    cases hpending
  · refine ⟨_, _, hbuilt, ⟨rfl, rfl⟩, ?_⟩
    intro h
    have hpending := (h pairKey true .second _ _ 0
      ⟨⟨fun _ => .success, .inl rfl, rfl, nofun⟩, rfl, rfl, Nat.one_pos, nofun⟩).1
      _ List.mem_cons_self _ List.mem_cons_self
    cases hpending

  · have h₀ := Lts.restrict_reachable (Lts.reachable_beside (g := GraphState.exchange)
      (E := Exchange.InPlace) (halfBuilt_reachable (C := fun _ _ => True) trivial trivial))
    have h₁ :=
      h₀.ours (.succeeds (.bucketLane 0 0 .runEnqueued .success)) ⟨⟨.inl rfl, trivial⟩, rfl⟩
    have h₂ := h₁.theirs (.lane (.bucket 0 0) otherLane)
    refine ⟨_, h₂, ?_, ?_⟩
    · intro h
      have hpending := (h pairKey true .second _ _ 0
        ⟨⟨fun _ => .success, .inl rfl, rfl, nofun⟩, rfl, rfl, Nat.one_pos, nofun⟩).2.1
        _ List.mem_cons_self
      cases hpending
    · intro h
      have hcaptured := h.runtime.buckets _ List.mem_cons_self _ List.mem_cons_self
      exact Bool.false_ne_true hcaptured

end Zrt.Dynamic
