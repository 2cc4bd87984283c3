import Zrt.Dynamic.Exchange

/-! Under an installed shape plan the cache never evicts. -/
namespace Zrt.Dynamic

open Lane (Features Native)
open ShapePlan (CanonicalShape SealedPlan)

variable {ins outs : Nat} {f : Features} {r r' : DynamicIoRuntime ins outs} {s t : State ins outs}
  {request : ShapeKey ins outs} {plan : SealedPlan} {a : Op ins outs} {id : PreparedBucketId}
  {i j : Nat}

/-- The plan's bucket for exactly these shapes. -/
def ShapeKey.PlannedBy (key : ShapeKey ins outs) (c : CanonicalShape) : Prop :=
  c.inputShapes = key.inputShapes.toList ∧ c.outputShapes = key.outputShapes.toList

/-- The cache holds buckets of the plan only, and the plan fits it. -/
structure Planned (r : DynamicIoRuntime ins outs) (plan : SealedPlan) : Prop where
  fits : plan.len ≤ r.options.maxBuckets
  arity : ∀ c ∈ plan.buckets, c.inputShapes.length = ins ∧ c.outputShapes.length = outs
  keys : ∀ key ∈ r.keys, ∃ c ∈ plan.buckets, key.PlannedBy c

/-- The invariant: whatever plan is installed, the cache keeps to it. -/
def KeepsPlan (r : DynamicIoRuntime ins outs) : Prop :=
  ∀ plan, r.shapePlan = some plan → Planned r plan

/-- A plan's buckets have distinct inputs, so that one of them at most is planned for a key. -/
theorem plannedBy_unique {c c' : CanonicalShape} (hc : c ∈ plan.buckets) (hc' : c' ∈ plan.buckets)
    (h : request.PlannedBy c) (h' : request.PlannedBy c') : c = c' :=
  plan.sealed.inputs_inj hc hc' (h.1.trans h'.1.symm)

theorem plannedBy_inj {key key' : ShapeKey ins outs} {c : CanonicalShape} (h : key.PlannedBy c)
    (h' : key'.PlannedBy c) : key = key' := by
  obtain ⟨inputs, outputs⟩ := key
  obtain ⟨inputs', outputs'⟩ := key'
  have hin : inputs = inputs' := List.Vector.toList_injective (h.1.symm.trans h'.1)
  have hout : outputs = outputs' := List.Vector.toList_injective (h.2.symm.trans h'.2)
  rw [hin, hout]

/-- Distinct keys of the plan are at most as many as its buckets. -/
theorem length_le_plan {keys : List (ShapeKey ins outs)} (hn : keys.Nodup)
    (hk : ∀ key ∈ keys, ∃ c ∈ plan.buckets, key.PlannedBy c) : keys.length ≤ plan.len := by
  have hinj : ∀ key ∈ keys, ∀ key' ∈ keys,
      key.inputShapes.toList = key'.inputShapes.toList → key = key' := by
    intro key hkey key' hkey' he
    obtain ⟨c, hc, hp⟩ := hk key hkey
    obtain ⟨c', hc', hp'⟩ := hk key' hkey'
    obtain rfl := plan.sealed.inputs_inj hc hc' (hp.1.trans (he.trans hp'.1.symm))
    exact plannedBy_inj hp hp'
  have hsub : keys.map (fun key => key.inputShapes.toList) ⊆
      plan.buckets.map CanonicalShape.inputShapes := by
    intro x hx
    obtain ⟨key, hkey, rfl⟩ := List.mem_map.mp hx
    obtain ⟨c, hc, hp⟩ := hk key hkey
    exact List.mem_map.mpr ⟨c, hc, hp.1⟩
  have hle := ((hn.map_on hinj).subperm hsub).length_le
  simpa [ShapePlan.ServingShapePlan.len] using hle

theorem Planned.of_shrinks (h : Shrinks r r') (hp : Planned r plan) : Planned r' plan :=
  ⟨by rw [h.options]; exact hp.fits, hp.arity, fun key hkey => hp.keys key (h.keys hkey)⟩

/-- A miss that may create was admitted by the plan. -/
theorem lookup_planned {allowCreate : Bool} {released : PreparedBucketId → Bool}
    (hp : r.shapePlan = some plan) (hr : Planned r plan)
    (h : lookupBucket r request allowCreate released = (r', .ok none)) :
    SameIndex r r' ∧ request ∉ r'.keys ∧ ∃ c ∈ plan.buckets, request.PlannedBy c := by
  have hrec := sameIndex_reclaim (r := r)
  have hs := sameIndex_lookupBucket r request allowCreate released
  rw [h] at hs
  obtain ⟨hv, hno, -⟩ := lookupBucket_miss h
  exact ⟨hs, hno, validatePlannedShape_ok (hrec.plan.trans hp) hr.arity hv⟩

/-- The plan leaves room for each of its buckets that is not cached. -/
theorem planned_room (hc : Cached r) (hr : Planned r plan) (hno : request ∉ r.keys)
    (hreq : ∃ c ∈ plan.buckets, request.PlannedBy c) :
    r.buckets.length < r.options.maxBuckets := by
  have hle : (request :: r.keys).length ≤ plan.len :=
    length_le_plan (List.nodup_cons.mpr ⟨hno, hc.keys⟩) (by
    intro key hkey
    rcases List.mem_cons.mp hkey with rfl | hkey
    · exact hreq
    · exact hr.keys key hkey)
  have hfits := hr.fits
  simp only [List.length_cons, DynamicIoRuntime.keys, List.length_map] at hle
  omega

theorem keepsPlan_step (hc : Cached s.runtime) (h : KeepsPlan s.runtime) :
    KeepsPlan (step f s a).runtime := by
  intro plan hp
  rcases step_cases (f := f) s a with
    hs | ⟨plan', -, hok, he⟩ | ⟨r', request, lanes, graphId, hcr, hs, hk, hlt, he⟩
  · exact (h plan (hs.plan ▸ hp)).of_shrinks hs
  · rcases installShapePlan_cases s.runtime plan' with
      ⟨e, hi⟩ | ⟨hempty, hle, hlen, -⟩
    · simp [hi] at hok
    · rw [he] at hp ⊢
      obtain rfl := Option.some.inj hp
      exact ⟨hle, hlen, by simp [DynamicIoRuntime.keys, hempty]⟩
  · obtain ⟨allowCreate, n, lanes', -, r₁, hl, hprep⟩ := hcr
    have hplan : s.runtime.shapePlan = some plan := by
      rw [he] at hp
      exact hs.plan ▸ (insertBucket_spec lanes graphId (hs.cached hc) hk (hlt hc)).plan ▸ hp
    have hr := h plan hplan
    obtain ⟨-, -, hreq⟩ := lookup_planned hplan hr hl
    have hins := insertBucket_spec lanes graphId (hs.cached hc) hk (hlt hc)
    have hr' := hr.of_shrinks hs
    rw [he]
    refine ⟨hins.options ▸ hr'.fits, hr'.arity, ?_⟩
    intro key hkey
    rcases hins.keys key hkey with hkey | rfl
    · exact hr'.keys key hkey
    · exact hreq

theorem keepsPlan_initial (h : Initial f s) : KeepsPlan s.runtime := by
  obtain ⟨name, mode, laneCount, options, -, -, rfl⟩ := initial_cases h
  intro plan hp
  cases hp

/-- Lanes that leave their bucket do not matter to the plan. -/
theorem keepsPlan_settled (h : Lts.Reachable (SettledBuckets f ins outs) s) :
    KeepsPlan s.runtime := by
  have hboth : Cached s.runtime ∧ KeepsPlan s.runtime := by
    refine Lts.invariant_beside (P := fun s => Cached s.runtime ∧ KeepsPlan s.runtime)
      (fun s hi => ⟨(cached_initial hi).1, keepsPlan_initial hi⟩) ?_ ?_ h
    · rintro s a t ⟨hc, hk⟩ - rfl
      exact ⟨cached_step hc, keepsPlan_step hc hk⟩
    · rintro s x ⟨hc, hk⟩ hx
      have hs := exchange_index (s := s) hx
      exact ⟨hs.shrinks.cached hc, fun plan hp => (hk plan (hs.plan ▸ hp)).of_shrinks hs.shrinks⟩
  exact hboth.2

/-- Only another plan replaces a plan. -/
theorem installed_step (hp : s.runtime.shapePlan = some plan) :
    (step f s a).runtime.shapePlan = some plan ∨
    ∃ plan', a = .installShapePlan plan' ∧ (step f s a).runtime.shapePlan = some plan' := by
  rcases step_cases (f := f) s a with
    hs | ⟨plan', ha, -, he⟩ | ⟨r', request, lanes, graphId, -, hs, -, -, he⟩
  · exact .inl (hs.plan.trans hp)
  · exact .inr ⟨plan', ha, by rw [he]⟩
  · refine .inl ?_
    rw [he]
    unfold insertBucket
    dsimp only
    split
    · exact hs.plan.trans hp
    · split <;> exact hs.plan.trans hp

theorem installed_trace {xs : List (Op ins outs ⊕ Exchange ins outs)}
    (hp : s.runtime.shapePlan = some plan)
    (ht : Lts.Trace (SettledBuckets f ins outs) s xs t) : ∃ plan',
      t.runtime.shapePlan = some plan' ∧
        (plan' = plan ∨ .inl (.installShapePlan plan') ∈ xs) := by
  induction ht with
  | refl => exact ⟨plan, hp, .inl rfl⟩
  | @snoc u _ _ x _ hstep ih =>
    obtain ⟨plan', hp', hin⟩ := ih
    obtain ⟨hkeeps, hstep⟩ := hstep
    cases x with
    | inl a =>
      obtain rfl := hstep
      rcases installed_step (f := f) (a := a) hp' with hp' | ⟨plan'', rfl, hp''⟩
      · exact ⟨plan', hp', hin.imp_right fun hm => List.mem_append_left _ hm⟩
      · exact ⟨plan'', hp'', .inr (by simp)⟩
    | inr x =>
      obtain rfl := hstep
      have hs := exchange_index (s := u) hkeeps
      exact ⟨plan', hs.plan.trans hp', hin.imp_right fun hm => List.mem_append_left _ hm⟩

/-- The eviction of a bucket request finds room, whatever the request. -/
theorem evict_planned {allowCreate : Bool} {n : CreateNative} (hc : Cached r)
    (hp : r.shapePlan = some plan) (hr : Planned r plan)
    (h : lookupBucket r request allowCreate n.released = (r', .ok none)) :
    evictOneBucketIfFull f r' n.fence = (r', .ok ()) := by
  obtain ⟨hs, hno, hreq⟩ := lookup_planned hp hr h
  have hroom := planned_room (hs.shrinks.cached hc) (hr.of_shrinks hs.shrinks) hno hreq
  rcases evict_cases (f := f) r' n.fence with ⟨-, he⟩ | ⟨hge, -⟩
  · exact he
  · omega

/-- The calls that give up buckets by themselves. -/
def Op.Removes : Op ins outs → Prop
  | .removeBucket .. | .clearBuckets .. => True
  | _ => False

theorem getOrCreate_planned {allowCreate : Bool} {n : CreateNative} (hc : Cached r)
    (hp : r.shapePlan = some plan) (hr : Planned r plan) :
    r.bucketIds <+: (getOrCreateBucketInner f r request allowCreate n).1.bucketIds := by
  rcases getOrCreate_outcomes (f := f) r request allowCreate n with
    he | ⟨r₁, hl, he⟩ | ⟨r', lanes, hcr, he⟩ <;> rw [he]
  · have hids := (sameIndex_lookupBucket r request allowCreate n.released).ids
    exact hids ▸ List.prefix_rfl
  · have hev := evict_planned (f := f) hc hp hr hl
    obtain ⟨hs, -, -⟩ := lookup_planned hp hr hl
    rw [← hs.ids]
    rcases prepareBucket_cases (f := f) r₁ n with ⟨-, e, hq⟩ | ⟨r₂, e, hev', -⟩ | ⟨r₂, hev', hq⟩
    · have hids : (prepareBucket f r₁ n).1.bucketIds = r₁.bucketIds := by rw [hq]
      exact hids ▸ List.prefix_rfl
    · simp [hev] at hev'
    · obtain rfl := (Prod.mk.inj (hev.symm.trans hev')).1
      have hids : (prepareBucket f r₁ n).1.bucketIds = r₁.bucketIds := by rw [hq]
      exact hids ▸ List.prefix_rfl
  · obtain ⟨r₁, hl, hev, -⟩ := creates_cases hcr
    obtain ⟨hs, hno, hreq⟩ := lookup_planned hp hr hl
    obtain rfl := (Prod.mk.inj ((evict_planned (f := f) hc hp hr hl).symm.trans hev)).1
    have hc₁ := hs.shrinks.cached hc
    rw [← hs.ids]
    exact (insertBucket_spec _ _ hc₁ hno (planned_room hc₁ (hr.of_shrinks hs.shrinks) hno hreq)).ids

/-- No other call moves or removes a bucket. -/
theorem planned_step (hc : Cached s.runtime) (hp : s.runtime.shapePlan = some plan)
    (hr : Planned s.runtime plan) (ha : ¬ a.Removes) :
    s.runtime.bucketIds <+: (step f s a).runtime.bucketIds := by
  have hsame : ∀ {r : DynamicIoRuntime ins outs}, SameIndex s.runtime r →
      s.runtime.bucketIds <+: r.bucketIds := fun h => h.ids ▸ List.prefix_rfl
  cases a with
  | getOrCreateBucket request allowCreate n => exact getOrCreate_planned hc hp hr
  | bucketMut request => exact hsame sameIndex_bucketMut
  | bucketLane i j op n => exact hsame sameIndex_bucketLane
  | enqueuePrepared bucketId n => exact hsame sameIndex_enqueueStep
  | completeOwned k n consume => exact hsame sameIndex_completeStep
  | dropOwned k n => exact hsame sameIndex_dropStep
  | runLane k op n => exact List.prefix_rfl
  | reclaimDroppedRuns => exact hsame sameIndex_reclaim
  | removeBucket request n => exact absurd trivial ha
  | clearBuckets n => exact absurd trivial ha
  | installShapePlan plan' =>
    have hids : (step f s (.installShapePlan plan')).runtime.bucketIds = s.runtime.bucketIds := by
      rcases installShapePlan_cases s.runtime plan' with ⟨e, h⟩ | ⟨-, -, -, h⟩
      · simp only [step, h]
      · simp only [step, h]; rfl
    exact hids ▸ List.prefix_rfl

theorem planned_trace {xs : List (Op ins outs ⊕ Exchange ins outs)}
    (hs : Lts.Reachable (SettledBuckets f ins outs) s) (hp : s.runtime.shapePlan = some plan)
    (ht : Lts.Trace (SettledBuckets f ins outs) s xs t) (hx : ∀ a, .inl a ∈ xs → ¬ a.Removes) :
    s.runtime.bucketIds <+: t.runtime.bucketIds := by
  induction ht with
  | refl => exact List.prefix_rfl
  | @snoc u _ xs x htr hstep ih =>
    have hu := Lts.trace_reachable hs htr
    obtain ⟨plan', hp', -⟩ := installed_trace hp htr
    refine (ih fun a ha => hx a (by simp [ha])).trans ?_
    obtain ⟨hkeeps, hstep⟩ := hstep
    cases x with
    | inl a =>
      have hpre := planned_step (f := f) (cached_settled hu) hp' (keepsPlan_settled hu plan' hp')
        (hx a (by simp))
      exact hstep ▸ hpre
    | inr x =>
      obtain rfl := hstep
      have hids := (exchange_index (s := u) hkeeps).ids
      exact hids ▸ List.prefix_rfl

/-- From the installation of a plan on, whatever its fallback policy, as long as no cached bucket is
exchanged for another: the cached buckets are buckets of the installed plan, one for each; no bucket
request evicts or finds the cache full; and an id stays valid up to the next removal or clearing. -/
theorem sealed_plan_never_evicts {xs : List (Op ins outs ⊕ Exchange ins outs)}
    (hs : Lts.Reachable (SettledBuckets f ins outs) s)
    (hi : (installShapePlan s.runtime plan).2 = .ok ())
    (ht : Lts.Trace (SettledBuckets f ins outs) (step f s (.installShapePlan plan)) xs t) :
    ∃ plan', t.runtime.shapePlan = some plan' ∧
      (plan' = plan ∨ .inl (.installShapePlan plan') ∈ xs) ∧
      (∀ b ∈ t.runtime.buckets, ∃! c, c ∈ plan'.buckets ∧ b.key.PlannedBy c) ∧
      (∀ (i j : Nat) (b b' : ShapeBucket ins outs) (c : CanonicalShape),
        t.runtime.buckets[i]? = some b → t.runtime.buckets[j]? = some b' →
        b.key.PlannedBy c → b'.key.PlannedBy c → i = j) ∧
      (∀ request allowCreate (n : CreateNative) r',
        lookupBucket t.runtime request allowCreate n.released = (r', .ok none) →
        evictOneBucketIfFull f r' n.fence = (r', .ok ())) ∧
      ∀ ys u, Lts.Trace (SettledBuckets f ins outs) t ys u → (∀ a, .inl a ∈ ys → ¬ a.Removes) →
        ∀ id i, t.runtime.bucketIndex id = some i → u.runtime.bucketIndex id = some i := by
  have hpi : (step f s (.installShapePlan plan)).runtime.shapePlan = some plan := by
    rcases installShapePlan_cases s.runtime plan with ⟨e, h⟩ | ⟨-, -, -, h⟩
    · simp [h] at hi
    · rw [step, h]
  have hinstall : (SettledBuckets f ins outs).Tr s (.inl (.installShapePlan plan))
      (step f s (.installShapePlan plan)) := ⟨trivial, rfl⟩
  have ht' : Lts.Reachable (SettledBuckets f ins outs) t :=
    Lts.trace_reachable (.step hs hinstall) ht
  obtain ⟨plan', hp, hin⟩ := installed_trace hpi ht
  have hc := cached_settled ht'
  have hr := keepsPlan_settled ht' plan' hp
  refine ⟨plan', hp, hin, ?_, ?_, ?_, ?_⟩
  · intro b hb
    obtain ⟨c, hcm, hpc⟩ := hr.keys b.key (List.mem_map.mpr ⟨b, hb, rfl⟩)
    exact ⟨c, ⟨hcm, hpc⟩, fun c' h => plannedBy_unique h.1 hcm h.2 hpc⟩
  · intro i j b b' c hb hb' hpc hpc'
    have hlt : i < t.runtime.keys.length := by
      simpa [DynamicIoRuntime.keys] using (List.getElem?_eq_some_iff.mp hb).1
    refine (List.getElem?_inj hlt hc.keys).mp ?_
    simp [DynamicIoRuntime.keys, hb, hb', plannedBy_inj hpc hpc']
  · exact fun request allowCreate n r' hl => evict_planned hc hp hr hl
  · intro ys u hu hy id i hid
    have hcu := cached_settled (Lts.trace_reachable ht' hu)
    obtain ⟨ids, he⟩ := planned_trace ht' hp hu hy
    have hid := (preparedBucketIndex_iff hc.indexed).mp hid
    refine (preparedBucketIndex_iff hcu.indexed).mpr ?_
    rw [← he, List.getElem?_append_left (List.getElem?_eq_some_iff.mp hid).1]
    exact hid

/-- The plan of the unit shapes alone. -/
def unitPlan : SealedPlan where
  buckets := [⟨⟨0⟩, [[1]], [[1]], .hostBuffer⟩]
  index := Function.update (fun _ => []) (.fromSlices [[1]]) [⟨0⟩]
  fallback := .strict
  built := ⟨⟨[([[1]], [[1]], .hostBuffer)], .strict⟩, rfl⟩

theorem sealed_plan_never_evicts_unit : ∃ t : State 1 1,
    t.runtime.buckets.map ShapeBucket.key = [unitKey] ∧
      ∀ b ∈ t.runtime.buckets, ∃! c, c ∈ unitPlan.buckets ∧ b.key.PlannedBy c := by
  have hinit : Initial ⟨false, false⟩ ⟨emptyRuntime 1 1 2 ⟨[], []⟩ 0, []⟩ :=
    emptyRuntime_initial (by decide) (by decide)
  have hok : (installShapePlan (emptyRuntime 1 1 2 ⟨[], []⟩ 0) unitPlan).2 = .ok () := rfl
  have hcreate : (SettledBuckets ⟨false, false⟩ 1 1).Tr
      (step ⟨false, false⟩ ⟨emptyRuntime 1 1 2 ⟨[], []⟩ 0, []⟩ (.installShapePlan unitPlan))
      (.inl (.getOrCreateBucket unitKey true .success)) _ := ⟨trivial, rfl⟩
  obtain ⟨plan', -, hin, hb, -⟩ := sealed_plan_never_evicts (.initial hinit) hok (.single hcreate)
  obtain rfl := hin.resolve_right (by simp)
  exact ⟨_, rfl, hb⟩

/-- A plan of two shapes. -/
def twoPlan : SealedPlan where
  buckets := [⟨⟨0⟩, [[1]], [[1]], .hostBuffer⟩, ⟨⟨1⟩, [[2]], [[2]], .hostBuffer⟩]
  index := Function.update (Function.update (fun _ => []) (.fromSlices [[1]]) [⟨0⟩])
    (.fromSlices [[2]]) [⟨1⟩]
  fallback := .strict
  built := ⟨⟨[([[1]], [[1]], .hostBuffer), ([[2]], [[2]], .hostBuffer)], .strict⟩, rfl⟩

/-- Both buckets of the plan are cached. -/
def plannedPair : State 1 1 :=
  [Op.installShapePlan twoPlan, .getOrCreateBucket unitKey true .success,
    .getOrCreateBucket pairKey true .success].foldl (step ⟨false, false⟩)
      ⟨.fresh 0 .sharedSession 1 (.new 2), []⟩

/-- The two buckets of the plan are exchanged: the ids of both are lost. -/
theorem sealed_plan_never_evicts_fails :
    (∃ s : State 1 1, Lts.Reachable (lentLts ⟨false, false⟩ 1 1) s ∧
      (installShapePlan s.runtime twoPlan).2 = .ok () ∧
      Lts.Trace (lentLts ⟨false, false⟩ 1 1) (step ⟨false, false⟩ s (.installShapePlan twoPlan))
        [.inl (.getOrCreateBucket unitKey true .success),
          .inl (.getOrCreateBucket pairKey true .success)] plannedPair) ∧
    plannedPair.runtime.bucketIndex ⟨0, 1⟩ = some 0 ∧
    plannedPair.runtime.bucketIndex ⟨1, 1⟩ = some 1 ∧
    ∃ u : State 1 1, Lts.Trace (lentLts ⟨false, false⟩ 1 1) plannedPair [.inr (.buckets 0 1)] u ∧
      u.runtime.bucketIndex ⟨0, 1⟩ = none ∧ u.runtime.bucketIndex ⟨1, 1⟩ = none := by
  have hinit : Initial ⟨false, false⟩
      (⟨.fresh 0 .sharedSession 1 (.new 2), []⟩ : State 1 1) :=
    ⟨0, .sharedSession, 1, .new 2, rfl, rfl⟩
  refine ⟨⟨_, .initial hinit, rfl, ?_⟩, rfl, rfl, plannedPair.exchange (.buckets 0 1),
    .single rfl, rfl, rfl⟩
  have hunit := Lts.Trace.single (L := lentLts ⟨false, false⟩ 1 1)
    (s := step ⟨false, false⟩ ⟨.fresh 0 .sharedSession 1 (.new 2), []⟩ (.installShapePlan twoPlan))
    (a := .inl (.getOrCreateBucket unitKey true .success)) rfl
  exact hunit.snoc rfl

end Zrt.Dynamic
