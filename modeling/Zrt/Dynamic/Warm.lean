import Zrt.Dynamic.Planned
import Mathlib.Data.Finset.Basic
import Mathlib.Data.Finset.Card
import Mathlib.Data.Finset.Dedup

/-! A warm cache serves its shapes for good: nothing is built and nothing evicted. -/
namespace Zrt.Dynamic

open Lane (Features Native)
open ShapePlan (CanonicalShape SealedPlan)

variable {ins outs : Nat} {f : Features} {r r' : DynamicIoRuntime ins outs} {s t : State ins outs}
  {request key : ShapeKey ins outs} {a : Op ins outs} {i : Nat} {allowCreate : Bool}
  {n : CreateNative}

/-- The keys that are cached pass the plan's check. -/
def Admitted (r : DynamicIoRuntime ins outs) : Prop :=
  ∀ key ∈ r.keys, validatePlannedShape r key = .ok ()

/-- The check reads the plan, and the options where there is none. -/
theorem validate_congr (hp : r'.shapePlan = r.shapePlan) (ho : r'.options = r.options) :
    validatePlannedShape r' key = validatePlannedShape r key := by
  unfold validatePlannedShape
  rw [hp, ho]

theorem Admitted.shrinks (h : Admitted r) (hs : Shrinks r r') : Admitted r' :=
  fun key hkey => (validate_congr hs.plan hs.options).trans (h key (hs.keys hkey))

theorem admitted_step (hc : Cached s.runtime) (h : Admitted s.runtime) :
    Admitted (step f s a).runtime := by
  rcases step_cases (f := f) s a with
    hs | ⟨plan, -, hok, he⟩ | ⟨r', request, lanes, graphId, hcr, hs, hk, hlt, he⟩
  · exact h.shrinks hs
  · rcases installShapePlan_cases s.runtime plan with ⟨e, hi⟩ | ⟨hempty, -, -, -⟩
    · rw [hi] at hok
      cases hok
    · rw [he]
      intro key hkey
      simp [DynamicIoRuntime.keys, hempty] at hkey
  · obtain ⟨allowCreate, n, lanes', -, r₁, hl, hprep⟩ := hcr
    have hins := insertBucket_spec lanes graphId (hs.cached hc) hk (hlt hc)
    obtain ⟨hv, -, -⟩ := lookupBucket_miss hl
    have hrec := sameIndex_reclaim (r := s.runtime)
    rw [he]
    intro key hkey
    rw [validate_congr (hins.plan.trans hs.plan) (hins.options.trans hs.options)]
    rcases hins.keys key hkey with hkey | rfl
    · exact h key (hs.keys hkey)
    · exact (validate_congr hrec.plan hrec.options).symm.trans hv

theorem admitted_reachable (h : Reachable f s) : Admitted s.runtime := by
  induction h with
  | initial h =>
    obtain ⟨name, mode, laneCount, options, -, -, rfl⟩ := initial_cases h
    intro key hkey
    cases hkey
  | step hr h ih => exact h ▸ admitted_step (cached_reachable hr) ih

/-- A cached bucket is lent out as it is, whatever a construction would meet. -/
theorem request_hit (allowCreate : Bool) (n : CreateNative) (ha : Admitted r)
    (hk : request ∈ r.keys) :
    ∃ i, getOrCreateBucketInner f r request allowCreate n =
      ((lookupBucket r request allowCreate n.released).1, .ok i) ∧ r.keys[i]? = some request := by
  have hrec := sameIndex_reclaim (r := r)
  have hmem : request ∈ (reclaimDroppedRuns r).1.keys := by rwa [hrec.keys]
  rcases lookupBucket_cases (r := r) request allowCreate n.released rfl with
    ⟨hv, -⟩ | ⟨hno, -⟩ | ⟨i, b, hb, hkey, he⟩ | ⟨-, hno, -⟩
  · exact absurd ((validate_congr hrec.plan hrec.options).trans (ha request hk)) hv
  · exact absurd hmem hno
  · refine ⟨i, by simp [getOrCreateBucketInner, he, Result.andThen], ?_⟩
    rw [← hrec.keys]
    simp [DynamicIoRuntime.keys, hb, hkey]
  · exact absurd hmem hno

/-- What a request that succeeds leaves of a cache with room for its shape. -/
structure Serves (r r' : DynamicIoRuntime ins outs) (request : ShapeKey ins outs) : Prop where
  options : r'.options = r.options
  labels : r.labels <+: r'.labels
  cached : request ∈ r'.keys
  keys : ∀ key ∈ r'.keys, key ∈ r.keys ∨ key = request

theorem insertBucket_ok {lanes : List Lane.ServingLane} {graphId : Option Int} (hc : Cached r)
    (h : insertBucket r request lanes graphId = (r', .ok i)) : Serves r r' request := by
  rcases insertBucket_cases request lanes graphId hc.indexed with
    ⟨-, e, he⟩ | ⟨slots, id, ha, ⟨-, e, he⟩ | ⟨-, he⟩⟩ <;> rw [he] at h
  · cases h
  · cases h
  · obtain ⟨rfl, -⟩ := Prod.mk.inj h
    have hlabels : (r.pushed slots (r.newBucket request id lanes graphId)).labels =
        r.labels ++ [(id, request)] := List.map_append
    have hkeys : (r.pushed slots (r.newBucket request id lanes graphId)).keys =
        r.keys ++ [request] := List.map_append
    refine ⟨rfl, ?_, ?_, fun key hkey => ?_⟩
    · rw [hlabels]
      exact List.prefix_append _ _
    · rw [hkeys]
      exact List.mem_append_right _ (List.mem_singleton_self request)
    · rw [hkeys] at hkey
      exact (List.mem_append.mp hkey).imp_right List.mem_singleton.mp

theorem request_serves (hc : Cached r) (ha : Admitted r)
    (hroom : request ∈ r.keys ∨ r.buckets.length < r.options.maxBuckets)
    (h : getOrCreateBucketInner f r request allowCreate n = (r', .ok i)) : Serves r r' request := by
  have hs := sameIndex_lookupBucket r request allowCreate n.released
  by_cases hk : request ∈ r.keys
  · obtain ⟨j, he, -⟩ := request_hit (f := f) allowCreate n ha hk
    rw [he] at h
    obtain ⟨rfl, -⟩ := Prod.mk.inj h
    exact ⟨hs.options, hs.labels ▸ List.prefix_rfl, hs.keys ▸ hk, fun key hkey =>
      .inl (hs.keys ▸ hkey)⟩
  · have hlt := hroom.resolve_left hk
    unfold getOrCreateBucketInner at h
    rcases lookupBucket_cases (r := r) request allowCreate n.released rfl with
      ⟨-, e, he⟩ | ⟨-, e, he⟩ | ⟨j, b, hb, hkey, he⟩ | ⟨-, -, he⟩
    · simp [he, Result.andThen] at h
    · simp [he, Result.andThen] at h
    · have hmem : request ∈ (reclaimDroppedRuns r).1.keys :=
        hkey ▸ List.mem_map_of_mem (List.mem_of_getElem? hb)
      rw [sameIndex_reclaim.keys] at hmem
      exact absurd hmem hk
    · generalize hr₁ : reapRetiredBuckets (reclaimDroppedRuns r).1 n.released = r₁ at he
      rw [he] at hs h
      have hroom₁ : r₁.buckets.length < r₁.options.maxBuckets := by
        rw [hs.length, hs.options]
        exact hlt
      simp only [Result.andThen] at h
      rcases prepareBucket_cases (f := f) r₁ n with ⟨-, e, hq⟩ | ⟨r₂, e, hev, -⟩ | ⟨r₂, hev, hq⟩
      · simp [hq] at h
      · rcases evict_cases (f := f) r₁ n.fence with ⟨-, he'⟩ | ⟨hge, -⟩
        · simp [he'] at hev
        · omega
      · rcases evict_cases (f := f) r₁ n.fence with ⟨-, he'⟩ | ⟨hge, -⟩
        · obtain rfl := (Prod.mk.inj (he'.symm.trans hev)).1
          rw [hq] at h
          cases hp : prepareLanes f r₁ n with
          | error e => simp [hp] at h
          | ok lanes =>
            rw [hp] at h
            have hins := insertBucket_ok (hs.shrinks.cached hc) h
            exact ⟨hins.options.trans hs.options, hs.labels ▸ hins.labels, hins.cached,
              fun key hkey => hs.keys ▸ hins.keys key hkey⟩
        · omega

theorem sameIndex_andThen {α β : Type} {x : Result ins outs α}
    {k : DynamicIoRuntime ins outs → α → Result ins outs β} (hx : SameIndex r x.1)
    (hk : ∀ r' a, SameIndex r r' → SameIndex r (k r' a).1) : SameIndex r (x.andThen k).1 := by
  obtain ⟨r', e | a⟩ := x
  · exact hx
  · exact hk r' a hx

theorem sameIndex_primeLane {j : Nat} {ops : List (Lane.Op × Native)} (h : SameIndex r r') :
    SameIndex r (primeLane f r' i j ops).1 := by
  induction ops generalizing r' with
  | nil => exact h
  | cons a ops ih =>
    unfold primeLane
    split
    · exact h
    · exact sameIndex_andThen (h.trans sameIndex_bucketLane) fun r' _ h => ih h

/-- Priming runs lanes of buckets that are cached. -/
theorem sameIndex_primeBucketAt {enqueued : Bool} {runs : Nat} {m : Nat → Nat → Lane.Op → Native} :
    SameIndex r (primeBucketAt f r enqueued runs m i).1 := by
  unfold primeBucketAt
  have hlanes (lanes j : Nat) (r' : DynamicIoRuntime ins outs) (h : SameIndex r r') :
      SameIndex r (primeBucketLanes f enqueued runs m i r' j lanes).1 := by
    induction lanes generalizing r' j with
    | zero => exact h
    | succ lanes ih => exact sameIndex_andThen (sameIndex_primeLane h) fun r' _ h => ih _ r' h
  exact hlanes _ _ r .refl

/-- The calls that fill a cache before it serves. -/
inductive WarmUp (ins outs : Nat) where
  | prebuild (specs : List (ShapeKey ins outs × CreateNative))
  | warm (enqueued : Bool) (runs : Nat)
      (specs : List (ShapeKey ins outs × CreateNative × (Nat → Nat → Lane.Op → Native)))

def WarmUp.keys : WarmUp ins outs → List (ShapeKey ins outs)
  | .prebuild specs => specs.map Prod.fst
  | .warm _ _ specs => specs.map Prod.fst

def WarmUp.exec (f : Features) (r : DynamicIoRuntime ins outs) :
    WarmUp ins outs → Result ins outs Nat
  | .prebuild specs => prebuildBuckets f r specs
  | .warm enqueued runs specs => warmBuckets f enqueued runs r specs

/-- What a warm-up that succeeds leaves. -/
structure Warmed (r r' : DynamicIoRuntime ins outs) (keys : List (ShapeKey ins outs)) : Prop where
  labels : r.labels <+: r'.labels
  cached : ∀ key ∈ keys, key ∈ r'.keys

/-- There is room for the shapes of `keys` beside those that are cached. -/
def Room (r : DynamicIoRuntime ins outs) (keys : List (ShapeKey ins outs)) : Prop :=
  (r.keys ++ keys).toFinset.card ≤ r.options.maxBuckets

instance (keys : List (ShapeKey ins outs)) : Decidable (Room r keys) :=
  inferInstanceAs (Decidable (_ ≤ _))

theorem Room.one {keys : List (ShapeKey ins outs)} (hc : Cached r) (h : Room r (key :: keys)) :
    key ∈ r.keys ∨ r.buckets.length < r.options.maxBuckets := by
  by_cases hk : key ∈ r.keys
  · exact .inl hk
  · refine .inr ?_
    have hsub : (key :: r.keys).toFinset ⊆ (r.keys ++ key :: keys).toFinset := by
      intro x hx
      simp only [List.mem_toFinset, List.mem_cons, List.mem_append] at hx ⊢
      exact hx.elim (fun hx => .inr (.inl hx)) .inl
    have hcard := (Finset.card_le_card hsub).trans h
    rw [List.toFinset_card_of_nodup (List.nodup_cons.mpr ⟨hk, hc.keys⟩)] at hcard
    simpa [DynamicIoRuntime.keys, Nat.succ_le_iff] using hcard

theorem Room.rest {keys : List (ShapeKey ins outs)} (h : Room r (key :: keys))
    (hs : Serves r r' key) :
    Room r' keys := by
  unfold Room at h ⊢
  rw [hs.options]
  refine (Finset.card_le_card ?_).trans h
  intro x hx
  simp only [List.mem_toFinset, List.mem_append, List.mem_cons] at hx ⊢
  rcases hx with hx | hx
  · exact (hs.keys x hx).imp_right .inl
  · exact .inr (.inr hx)

theorem Serves.sameIndex {r'' : DynamicIoRuntime ins outs} (h : Serves r r' request)
    (hs : SameIndex r' r'') : Serves r r'' request :=
  ⟨hs.options.trans h.options, hs.labels ▸ h.labels, hs.keys ▸ h.cached,
    fun key hkey => h.keys key (hs.keys ▸ hkey)⟩

theorem Serves.warmed {r'' : DynamicIoRuntime ins outs} {keys : List (ShapeKey ins outs)}
    (h : Serves r r' request) (hw : Warmed r' r'' keys) : Warmed r r'' (request :: keys) := by
  refine ⟨h.labels.trans hw.labels, fun key hkey => ?_⟩
  rcases List.mem_cons.mp hkey with rfl | hkey
  · have hsub : r'.keys ⊆ r''.keys := by
      rw [← map_snd_labels, ← map_snd_labels]
      exact List.map_subset _ hw.labels.subset
    exact hsub h.cached
  · exact hw.cached key hkey

theorem andThen_ok {α β : Type} {x : Result ins outs α} {b : β}
    {k : DynamicIoRuntime ins outs → α → Result ins outs β} (h : x.andThen k = (r', .ok b)) :
    ∃ r₁ a, x = (r₁, .ok a) ∧ k r₁ a = (r', .ok b) := by
  obtain ⟨r₁, e | a⟩ := x
  · cases h
  · exact ⟨r₁, a, rfl, h⟩

theorem prebuild_warmed {specs : List (ShapeKey ins outs × CreateNative)} {count : Nat}
    {runs : List (OwnedDynamicIoRun ins outs)} (hs : Reachable f ⟨r, runs⟩)
    (hroom : Room r (specs.map Prod.fst)) (h : prebuildBuckets f r specs = (r', .ok count)) :
    Warmed r r' (specs.map Prod.fst) := by
  induction specs generalizing r count with
  | nil =>
    obtain ⟨rfl, -⟩ := Prod.mk.inj h
    exact ⟨List.prefix_rfl, by simp⟩
  | cons spec specs ih =>
    obtain ⟨r₁, i, hreq, h⟩ := andThen_ok h
    obtain ⟨r₂, count, hrest, h⟩ := andThen_ok h
    obtain ⟨rfl, -⟩ := Prod.mk.inj h
    have hserves := request_serves (cached_reachable hs) (admitted_reachable hs)
      (hroom.one (cached_reachable hs)) hreq
    have hr₁ : Reachable f ⟨r₁, runs⟩ := by
      have hruns : Runs f ⟨r, runs⟩ ⟨(getOrCreateBucketInner f r spec.1 true spec.2).1, runs⟩ :=
        runs_getOrCreate _ _ _ .refl
      rw [hreq] at hruns
      exact hruns.reachable hs
    exact hserves.warmed (ih hr₁ (hroom.rest hserves) hrest)

theorem warm_warmed {enqueued : Bool} {k count : Nat}
    {specs : List (ShapeKey ins outs × CreateNative × (Nat → Nat → Lane.Op → Native))}
    {runs : List (OwnedDynamicIoRun ins outs)} (hs : Reachable f ⟨r, runs⟩)
    (hroom : Room r (specs.map Prod.fst)) (h : warmBuckets f enqueued k r specs = (r', .ok count)) :
    Warmed r r' (specs.map Prod.fst) := by
  induction specs generalizing r count with
  | nil =>
    obtain ⟨rfl, -⟩ := Prod.mk.inj h
    exact ⟨List.prefix_rfl, by simp⟩
  | cons spec specs ih =>
    obtain ⟨key, n, m⟩ := spec
    obtain ⟨r₁, u, hprime, h⟩ := andThen_ok h
    obtain ⟨r₂, count, hrest, h⟩ := andThen_ok h
    obtain ⟨rfl, -⟩ := Prod.mk.inj h
    obtain ⟨r₀, i, hreq, hlanes⟩ := andThen_ok hprime
    have hsame : SameIndex r₀ (primeBucketAt f r₀ enqueued k m i).1 := sameIndex_primeBucketAt
    rw [hlanes] at hsame
    have hserves := (request_serves (cached_reachable hs) (admitted_reachable hs)
      (hroom.one (cached_reachable hs)) hreq).sameIndex hsame
    have hr₁ : Reachable f ⟨r₁, runs⟩ := by
      have hruns : Runs f ⟨r, runs⟩ ⟨(primeBucket f r enqueued key k n m).1, runs⟩ :=
        runs_primeBucket .refl
      rw [hprime] at hruns
      exact hruns.reachable hs
    exact hserves.warmed (ih hr₁ (hroom.rest hserves) hrest)

theorem WarmUp.runs (w : WarmUp ins outs) (runs : List (OwnedDynamicIoRun ins outs)) :
    Runs f ⟨r, runs⟩ ⟨(w.exec f r).1, runs⟩ := by
  cases w with
  | prebuild specs => exact runs_prebuildBuckets .refl
  | warm enqueued k specs => exact runs_warmBuckets .refl

theorem WarmUp.warmed {w : WarmUp ins outs} {count : Nat} (hs : Reachable f s)
    (hroom : Room s.runtime w.keys) (h : (w.exec f s.runtime).2 = .ok count) :
    Warmed s.runtime (w.exec f s.runtime).1 w.keys := by
  cases w with
  | prebuild specs => exact prebuild_warmed hs hroom (Prod.ext rfl h)
  | warm enqueued k specs => exact warm_warmed hs hroom (Prod.ext rfl h)

/-- A call of steady traffic over the shapes `keys`: it asks for no other shape, and removes no
bucket by itself. -/
def Op.Steady (keys : List (ShapeKey ins outs)) (a : Op ins outs) : Prop :=
  ¬ a.Removes ∧ ∀ request allowCreate n, a = .getOrCreateBucket request allowCreate n →
    request ∈ keys

theorem steady_step (hs : Reachable f s) (ha : a.Steady s.runtime.keys) :
    (step f s a).runtime.labels = s.runtime.labels := by
  cases a with
  | getOrCreateBucket request allowCreate n =>
    obtain ⟨i, he, -⟩ := request_hit (f := f) allowCreate n (admitted_reachable hs)
      (ha.2 _ _ _ rfl)
    simp only [step, he]
    exact (sameIndex_lookupBucket s.runtime request allowCreate n.released).labels
  | bucketMut request => exact sameIndex_bucketMut.labels
  | bucketLane i j op n => exact sameIndex_bucketLane.labels
  | enqueuePrepared bucketId n => exact sameIndex_enqueueStep.labels
  | completeOwned k n consume => exact sameIndex_completeStep.labels
  | dropOwned k n => exact sameIndex_dropStep.labels
  | runLane k op n => rfl
  | reclaimDroppedRuns => exact sameIndex_reclaim.labels
  | removeBucket request n => exact absurd trivial ha.1
  | clearBuckets n => exact absurd trivial ha.1
  | installShapePlan plan =>
    rcases installShapePlan_cases s.runtime plan with ⟨e, h⟩ | ⟨-, -, -, h⟩
    · simp only [step, h]
    · simp only [step, h]; rfl

theorem steady_trace {xs : List (Op ins outs)} (hs : Reachable f s)
    (ht : Lts.Trace (dynamicLts f ins outs) s xs t) (hx : ∀ a ∈ xs, a.Steady s.runtime.keys) :
    t.runtime.labels = s.runtime.labels := by
  induction ht with
  | refl => rfl
  | @snoc u _ xs a htr hstep ih =>
    have hl := ih fun b hb => hx b (List.mem_append_left _ hb)
    have hkeys : u.runtime.keys = s.runtime.keys := by
      rw [← map_snd_labels, ← map_snd_labels, hl]
    have ha : a.Steady u.runtime.keys := hkeys ▸ hx a (by simp)
    rw [← show step f u a = _ from hstep]
    exact (steady_step (Lts.trace_reachable hs htr) ha).trans hl

/-- A warm-up that succeeds, on a cache with room for its shapes, evicts nothing and caches them
all. Traffic over the cached shapes then never builds or evicts a bucket: whatever the calls and
their order, every bucket keeps its place and id, and a request for a cached shape, even one that
may not create, does no more than the lookup. -/
theorem warmed_requests_hit {w : WarmUp ins outs} {count : Nat} (hs : Reachable f s)
    (hroom : Room s.runtime w.keys) (h : (w.exec f s.runtime).2 = .ok count) :
    s.runtime.labels <+: (w.exec f s.runtime).1.labels ∧
    (∀ key ∈ w.keys, key ∈ (w.exec f s.runtime).1.keys) ∧
    ∀ xs t, Lts.Trace (dynamicLts f ins outs) ⟨(w.exec f s.runtime).1, s.runs⟩ xs t →
      (∀ a ∈ xs, a.Steady (w.exec f s.runtime).1.keys) →
      t.runtime.labels = (w.exec f s.runtime).1.labels ∧
      ∀ key ∈ (w.exec f s.runtime).1.keys, ∀ allowCreate n,
        ∃ i, getOrCreateBucketInner f t.runtime key allowCreate n =
          ((lookupBucket t.runtime key allowCreate n.released).1, .ok i) ∧
          t.runtime.keys[i]? = some key := by
  have hwarm := WarmUp.warmed hs hroom h
  refine ⟨hwarm.labels, hwarm.cached, ?_⟩
  intro xs t ht hx
  have hr := (WarmUp.runs w s.runs).reachable hs
  have hl := steady_trace hr ht hx
  refine ⟨hl, fun key hkey allowCreate n => ?_⟩
  refine request_hit allowCreate n (admitted_reachable (Lts.trace_reachable hr ht)) ?_
  rw [← map_snd_labels, hl, map_snd_labels]
  exact hkey

/-- Two shapes in a cache of two. -/
theorem warmed_requests_hit_pair : ∃ r : DynamicIoRuntime 1 1, r.keys = [unitKey, pairKey] ∧
    ∃ i, getOrCreateBucketInner ⟨false, false⟩ r pairKey false .success =
      ((lookupBucket r pairKey false CreateNative.success.released).1, .ok i) ∧
      r.keys[i]? = some pairKey := by
  have hinit : Initial ⟨false, false⟩ (⟨.fresh 0 .sharedSession 1 (.new 2), []⟩ : State 1 1) :=
    ⟨0, .sharedSession, 1, .new 2, rfl, rfl⟩
  obtain ⟨-, -, h⟩ := warmed_requests_hit (f := ⟨false, false⟩)
    (s := (⟨.fresh 0 .sharedSession 1 (.new 2), []⟩ : State 1 1))
    (w := .prebuild [(unitKey, .success), (pairKey, .success)]) (.initial hinit) (by decide) rfl
  exact ⟨_, rfl, (h [] _ .refl (by simp)).2 pairKey (by decide) false .success⟩

end Zrt.Dynamic
