import Zrt.Dynamic.Eviction
import Zrt.Recency

/-! The stamps of the cached buckets are a clock of the keyed accesses: eviction by least stamp is
eviction of the bucket accessed longest ago. -/
namespace Zrt.Dynamic

open Lane (Features Native)
open Recency (lastAccess Stamped)
open SwapRemove

variable {ins outs : Nat} {f : Features} {r r' r'' : DynamicIoRuntime ins outs}
  {request key : ShapeKey ins outs} {allowCreate : Bool} {i : Nat} {b : ShapeBucket ins outs}
  {s t u : State ins outs} {a : Op ins outs} {xs : List (Op ins outs)}

/-- The shapes that a keyed access names. -/
def Op.accessed : Op ins outs → Option (ShapeKey ins outs)
  | .getOrCreateBucket request _ _ => some request
  | .bucketMut request => some request
  | _ => none

/-- The keyed accesses of a run, in order. -/
def accesses (xs : List (Op ins outs)) : List (ShapeKey ins outs) := xs.filterMap Op.accessed

def ShapeBucket.stamp (b : ShapeBucket ins outs) : ShapeKey ins outs × Nat := (b.key, b.lastUsed)

def DynamicIoRuntime.stamps (r : DynamicIoRuntime ins outs) : List (ShapeKey ins outs × Nat) :=
  r.buckets.map ShapeBucket.stamp

theorem map_fst_stamps (r : DynamicIoRuntime ins outs) : r.stamps.map Prod.fst = r.keys :=
  List.map_map

theorem map_snd_stamps (r : DynamicIoRuntime ins outs) :
    r.stamps.map Prod.snd = r.buckets.map ShapeBucket.lastUsed := List.map_map

/-- A cached key has one place. -/
theorem bucket_index_unique (hk : r.keys.Nodup) {j : Nat} {c : ShapeBucket ins outs}
    (hb : r.buckets[i]? = some b) (hc : r.buckets[j]? = some c) (he : b.key = c.key) : i = j := by
  have hi : r.keys[i]? = some b.key := by simp [DynamicIoRuntime.keys, hb]
  have hj : r.keys[j]? = some c.key := by simp [DynamicIoRuntime.keys, hc]
  have hlt := (List.getElem?_eq_some_iff.mp hi).1
  exact (List.getElem?_inj hlt hk).mp (by rw [hi, hj, he])

/-- The hot bucket is consulted only where its key matches, and no other key does. -/
theorem findBucketIndex_eq (hk : r.keys.Nodup) (request : ShapeKey ins outs) :
    findBucketIndex r request = r.buckets.findIdx? fun bucket => bucket.key.matches request := by
  symm
  cases hf : findBucketIndex r request with
  | none =>
    rw [List.findIdx?_eq_none_iff]
    intro b hb
    by_contra hm
    have hkey := ShapeKey.matches_iff.mp (Bool.not_eq_false _ ▸ hm)
    exact findBucketIndex_none hf (List.mem_map.mpr ⟨b, hb, hkey⟩)
  | some i =>
    obtain ⟨b, hb, rfl⟩ := findBucketIndex_some hf
    obtain ⟨hlt, hget⟩ := List.getElem?_eq_some_iff.mp hb
    rw [List.findIdx?_eq_some_iff_getElem]
    refine ⟨hlt, ?_, ?_⟩
    · rw [hget]
      exact ShapeKey.matches_iff.mpr rfl
    · intro j hj hm
      have hkey := ShapeKey.matches_iff.mp hm
      have := bucket_index_unique hk hb (List.getElem?_eq_getElem (by omega)) hkey.symm
      omega

/-- Clock and stamps are left alone. -/
structure SameStamps (r r' : DynamicIoRuntime ins outs) : Prop where
  tick : r'.tick = r.tick
  stamps : r'.stamps = r.stamps

/-- The clock is left alone, and stamps may go. -/
structure Forgets (r r' : DynamicIoRuntime ins outs) : Prop where
  tick : r'.tick = r.tick
  stamps : r'.stamps ⊆ r.stamps

/-- A keyed access: the other stamps stand or go, and that of the key is a new clock reading. -/
structure Touches (r r' : DynamicIoRuntime ins outs) (key : ShapeKey ins outs) : Prop where
  le : r.tick ≤ r'.tick
  tick : r'.tick ≤ r.tick + 1
  stamps : ∀ p ∈ r'.stamps, p = (key, r'.tick) ∧ r.tick < r'.tick ∨ p ∈ r.stamps ∧ p.1 ≠ key

theorem SameStamps.forgets (h : SameStamps r r') : Forgets r r' :=
  ⟨h.tick, by rw [h.stamps]; exact fun _ hp => hp⟩

theorem Forgets.refl : Forgets r r := ⟨rfl, fun _ hp => hp⟩

theorem Forgets.trans (h : Forgets r r') (h' : Forgets r' r'') : Forgets r r'' :=
  ⟨h'.tick.trans h.tick, fun _ hp => h.stamps (h'.stamps hp)⟩

theorem Forgets.keys (h : Forgets r r') : r'.keys ⊆ r.keys := by
  rw [← map_fst_stamps, ← map_fst_stamps]
  exact List.map_subset _ h.stamps

theorem Touches.after (h' : Touches r' r'' key) (h : Forgets r r') : Touches r r'' key := by
  refine ⟨h.tick ▸ h'.le, h.tick ▸ h'.tick, ?_⟩
  intro p hp
  rcases h'.stamps p hp with ⟨he, hlt⟩ | ⟨hp, hne⟩
  · exact .inl ⟨he, h.tick ▸ hlt⟩
  · exact .inr ⟨h.stamps hp, hne⟩

/-- An access that finds no bucket and leaves none. -/
theorem Forgets.touches (h : Forgets r r') (hno : key ∉ r'.keys) : Touches r r' key := by
  refine ⟨h.tick.ge, by rw [h.tick]; exact Nat.le_succ _, ?_⟩
  intro p hp
  refine .inr ⟨h.stamps hp, ?_⟩
  rintro rfl
  rw [← map_fst_stamps] at hno
  exact hno (List.mem_map_of_mem hp)

theorem laneStable_sameStamps : LaneStable (@SameStamps ins outs) where
  trans h h' := ⟨h'.tick.trans h.tick, h'.stamps.trans h.stamps⟩
  bucket hb hl _ hu := ⟨rfl, map_set_same hb (Prod.ext (congrArg Prod.snd hl) hu)⟩
  rest _ _ _ := ⟨rfl, rfl⟩

theorem forgets_reclaim : Forgets r (reclaimDroppedRuns r).1 :=
  laneStable_sameStamps.reclaim.forgets

theorem forgets_reap (released : PreparedBucketId → Bool) :
    Forgets r (reapRetiredBuckets r released) := ⟨rfl, fun _ hp => hp⟩

theorem forgets_dropBucket (r : DynamicIoRuntime ins outs) : Forgets r (r.dropBucket i b) := by
  refine ⟨rfl, ?_⟩
  intro p hp
  have hmap : p ∈ (swapRemove r.buckets i).map ShapeBucket.stamp := hp
  rw [map_swapRemove] at hmap
  exact mem_of_mem_swapRemove hmap

theorem forgets_retired (b : ShapeBucket ins outs) : Forgets r (r.retired b) := by
  obtain ⟨rb, fo, rr, h⟩ := retired_eq r b
  rw [h]
  exact ⟨rfl, fun _ hp => hp⟩

theorem forgets_hot {hot : Option Nat} : Forgets r { r with hotBucket := hot } :=
  ⟨rfl, fun _ hp => hp⟩

theorem forgets_evict (r : DynamicIoRuntime ins outs) (n : Nat → Native) :
    Forgets r (evictOneBucketIfFull f r n).1 := by
  rcases evict_cases (f := f) r n with
    ⟨-, h⟩ | ⟨-, ⟨e, h⟩ | ⟨e, h⟩ | ⟨i, b, -, -, h⟩⟩ <;> rw [h]
  · exact .refl
  · exact .refl
  · exact forgets_hot
  · exact forgets_hot.trans ((forgets_dropBucket _).trans (forgets_retired _))

theorem forgets_removeBucket {n : Nat → Native} : Forgets r (removeBucket f r request n).1 := by
  refine forgets_reclaim.trans ?_
  unfold removeBucket
  dsimp only
  split
  · exact .refl
  · split
    · exact .refl
    · rename_i i _ _
      rcases retireBucketAt_cases (f := f) { (reclaimDroppedRuns r).1 with hotBucket := none } i n
        with
        ⟨h, -⟩ | ⟨b, -, -, h⟩ <;> rw [h]
      · exact forgets_hot
      · exact forgets_hot.trans ((forgets_dropBucket _).trans (forgets_retired _))

theorem forgets_clearBuckets {n : Nat → Nat → Native} : Forgets r (clearBuckets f r n).1 := by
  refine forgets_reclaim.trans ?_
  unfold clearBuckets
  dsimp only
  split
  · exact .refl
  · obtain ⟨fo, rr, h⟩ := drain_eq (f := f)
      (waitForRetiredBuckets { (reclaimDroppedRuns r).1 with hotBucket := none }) n
    have hd : Forgets (reclaimDroppedRuns r).1 (drainActiveBucketsAndReleaseGraphs f
        (waitForRetiredBuckets { (reclaimDroppedRuns r).1 with hotBucket := none }) n).1 := by
      rw [h]
      exact ⟨rfl, List.nil_subset _⟩
    split <;> rename_i hr <;> rw [hr] at hd <;> exact hd

/-- Short of `2 ^ 64` ticks the clock just counts. -/
theorem nextTick_tick (h : r.tick + 1 < 2 ^ 64) : (nextTick r).tick = r.tick + 1 := by
  rw [nextTick]
  dsimp only
  rw [Nat.mod_eq_of_lt h]
  exact Nat.max_eq_left (Nat.succ_pos _)

theorem touches_touch (hk : r.keys.Nodup) (hb : r.buckets[i]? = some b)
    (ht : r.tick + 1 < 2 ^ 64) : Touches r (touch r i) b.key := by
  have htick : (touch r i).tick = r.tick + 1 := nextTick_tick ht
  refine ⟨by omega, htick.le, ?_⟩
  intro p hp
  obtain ⟨c, hc, rfl⟩ := List.mem_map.mp hp
  obtain ⟨j, hj⟩ := List.getElem?_of_mem hc
  change (r.buckets.modify i fun bucket => { bucket with lastUsed := (nextTick r).tick })[j]? =
    some c at hj
  rw [List.getElem?_modify] at hj
  obtain ⟨d, hd, rfl⟩ := Option.map_eq_some_iff.mp hj
  by_cases hij : i = j
  · subst hij
    obtain rfl := Option.some.inj (hb.symm.trans hd)
    rw [if_pos rfl]
    exact .inl ⟨rfl, by omega⟩
  · rw [if_neg hij]
    refine .inr ⟨List.mem_map_of_mem (List.mem_of_getElem? hd), ?_⟩
    intro he
    exact hij (bucket_index_unique hk hb hd he.symm)

/-- A tick that stamps no bucket. -/
theorem touches_tick (hno : key ∉ r.keys) (ht : r'.tick = r.tick + 1) (hs : r'.stamps = r.stamps) :
    Touches r r' key := by
  refine ⟨by omega, ht.le, ?_⟩
  intro p hp
  refine .inr ⟨hs ▸ hp, ?_⟩
  rintro rfl
  rw [← map_fst_stamps, ← hs] at hno
  exact hno (List.mem_map_of_mem hp)

theorem touches_insertBucket (hc : Cached r) (hno : key ∉ r.keys) (ht : r.tick + 1 < 2 ^ 64)
    (lanes : List Lane.ServingLane) (graphId : Option Int) :
    Touches r (insertBucket r key lanes graphId).1 key := by
  have htick := nextTick_tick ht
  rcases insertBucket_cases key lanes graphId hc.indexed with
    ⟨-, e, h⟩ | ⟨slots, id, -, ⟨-, e, h⟩ | ⟨-, h⟩⟩ <;> rw [h]
  · exact touches_tick hno htick rfl
  · exact touches_tick hno htick rfl
  · refine ⟨htick ▸ Nat.le_succ _, htick.le, ?_⟩
    intro p hp
    have hmap : p ∈ (r.buckets ++ [r.newBucket key id lanes graphId]).map ShapeBucket.stamp := hp
    rw [List.map_append, List.mem_append] at hmap
    rcases hmap with hold | hnew
    · refine .inr ⟨hold, ?_⟩
      rintro rfl
      rw [← map_fst_stamps] at hno
      exact hno (List.mem_map_of_mem hold)
    · obtain rfl := List.mem_singleton.mp hnew
      exact .inl ⟨rfl, by rw [DynamicIoRuntime.pushed, htick]; exact Nat.lt_succ_self _⟩

/-- No CUDA graphs and no plan: no shape is refused. -/
structure Unplanned (r : DynamicIoRuntime ins outs) : Prop where
  graph : r.options.cudaGraph = false
  plan : r.shapePlan = none

theorem Unplanned.validate (h : Unplanned r) (key : ShapeKey ins outs) :
    validatePlannedShape r key = .ok () := by
  simp [validatePlannedShape, h.plan, h.graph]

theorem touches_bucketMut (hc : Cached r) (ht : r.tick + 1 < 2 ^ 64) :
    Touches r (bucketMut r key).1 key := by
  have hr := forgets_reclaim (r := r)
  have hc₁ := sameIndex_reclaim.shrinks.cached hc
  simp only [bucketMut]
  cases hf : findBucketIndex (reclaimDroppedRuns r).1 key with
  | none => exact hr.touches (findBucketIndex_none hf)
  | some i =>
    obtain ⟨b, hb, rfl⟩ := findBucketIndex_some hf
    exact (touches_touch hc₁.keys hb (hr.tick ▸ ht)).after hr

theorem touches_lookupBucket (hc : Cached r) (hu : Unplanned r) (ht : r.tick + 1 < 2 ^ 64)
    (key : ShapeKey ins outs) (allowCreate : Bool) (released : PreparedBucketId → Bool) :
    Touches r (lookupBucket r key allowCreate released).1 key := by
  have hr := forgets_reclaim (r := r)
  have hreap := hr.trans (forgets_reap released)
  have hs := sameIndex_reclaim (r := r)
  have hc₁ := hs.shrinks.cached hc
  have hu₁ : Unplanned (reclaimDroppedRuns r).1 := ⟨hs.options ▸ hu.graph, hs.plan ▸ hu.plan⟩
  have hk : (reapRetiredBuckets (reclaimDroppedRuns r).1 released).keys.Nodup := hc₁.keys
  rcases lookupBucket_cases (r := r) key allowCreate released rfl with
    ⟨hv, -⟩ | ⟨hno, e, h⟩ | ⟨i, b, hb, rfl, h⟩ | ⟨-, hno, h⟩
  · exact absurd (hu₁.validate key) hv
  · rw [h]
    exact hreap.touches hno
  · rw [h]
    exact (touches_touch hk hb (hreap.tick ▸ ht)).after hreap
  · rw [h]
    exact hreap.touches hno

theorem forgets_prepareBucket (r : DynamicIoRuntime ins outs) (n : CreateNative) :
    Forgets r (prepareBucket f r n).1 := by
  have he := forgets_evict (f := f) r n.fence
  rcases prepareBucket_cases (f := f) r n with ⟨-, e, h⟩ | ⟨r', e, hr, h⟩ | ⟨r', hr, h⟩ <;> rw [h]
  · exact .refl
  · rw [hr] at he
    exact he
  · rw [hr] at he
    exact he

theorem touches_getOrCreate (hc : Cached r) (hu : Unplanned r) (ht : r.tick + 1 < 2 ^ 64)
    (allowCreate : Bool) (n : CreateNative) :
    Touches r (getOrCreateBucketInner f r key allowCreate n).1 key := by
  have hl := touches_lookupBucket hc hu ht key allowCreate n.released
  have hmiss : ∀ {r₁}, lookupBucket r key allowCreate n.released = (r₁, .ok none) →
      Forgets r r₁ ∧ key ∉ r₁.keys := by
    intro r₁ h
    obtain ⟨-, hno, rfl⟩ := lookupBucket_miss h
    exact ⟨forgets_reclaim.trans (forgets_reap _), hno⟩
  rcases getOrCreate_outcomes (f := f) r key allowCreate n
    with he | ⟨r₁, hl', he⟩ | ⟨r', lanes, hcr, he⟩
  · rw [he]
    exact hl
  · obtain ⟨hf, hno⟩ := hmiss hl'
    have hp := forgets_prepareBucket (f := f) r₁ n
    rw [he]
    exact (hf.trans hp).touches fun hk => hno (hp.keys hk)
  · obtain ⟨r₁, hl', hev, -⟩ := creates_cases hcr
    obtain ⟨hf, -⟩ := hmiss hl'
    have hev' := forgets_evict (f := f) r₁ n.fence
    rw [hev] at hev'
    have hf' := hf.trans hev'
    obtain ⟨hs, hno, -⟩ := creates_shrinks hcr
    rw [he]
    exact (touches_insertBucket (hs.cached hc) hno (hf'.tick ▸ ht) _ _).after hf'

/-- A call that names no key leaves the clock alone and stamps nothing. -/
theorem forgets_step (ha : a.accessed = none) : Forgets s.runtime (step f s a).runtime := by
  have hS : LaneStable (@SameStamps ins outs) := laneStable_sameStamps
  cases a with
  | getOrCreateBucket request allowCreate n => cases ha
  | bucketMut request => cases ha
  | bucketLane i j op n => exact hS.bucketLane.forgets
  | enqueuePrepared id n =>
    have h := hS.enqueuePrepared (f := f) s.runtime id n
    simp only [step]
    revert h
    obtain ⟨r', e | run⟩ := enqueuePrepared f s.runtime id n <;> exact fun h => h.forgets
  | completeOwned k n consume =>
    simp only [step]
    split
    · exact hS.completeOwned.forgets
    · exact .refl
  | dropOwned k n =>
    simp only [step]
    split
    · exact hS.dropOwned.forgets
    · exact .refl
  | runLane k op n => exact .refl
  | reclaimDroppedRuns => exact forgets_reclaim
  | removeBucket request n => exact forgets_removeBucket
  | clearBuckets n => exact forgets_clearBuckets
  | installShapePlan plan =>
    rcases installShapePlan_cases s.runtime plan with ⟨e, h⟩ | ⟨-, -, -, h⟩ <;> rw [step, h]
    · exact .refl
    · exact ⟨rfl, fun _ hp => hp⟩

theorem touches_step (hc : Cached s.runtime) (hu : Unplanned s.runtime)
    (ht : s.runtime.tick + 1 < 2 ^ 64) (ha : a.accessed = some key) :
    Touches s.runtime (step f s a).runtime key := by
  cases a with
  | getOrCreateBucket request allowCreate n =>
    obtain rfl := Option.some.inj ha
    exact touches_getOrCreate hc hu ht allowCreate n
  | bucketMut request =>
    obtain rfl := Option.some.inj ha
    exact touches_bucketMut hc ht
  | _ => cases ha

theorem unplanned_step (hc : Cached s.runtime) (hu : Unplanned s.runtime)
    (ha : ∀ plan, a ≠ .installShapePlan plan) : Unplanned (step f s a).runtime := by
  rcases step_cases (f := f) s a with
    hs | ⟨plan, he, -, -⟩ | ⟨r', request, lanes, graphId, -, hs, hk, hlt, he⟩
  · exact ⟨hs.options ▸ hu.graph, hs.plan ▸ hu.plan⟩
  · exact absurd he (ha plan)
  · have hins := insertBucket_spec lanes graphId (hs.cached hc) hk (hlt hc)
    rw [he]
    exact ⟨hins.options ▸ hs.options ▸ hu.graph, hins.plan ▸ hs.plan ▸ hu.plan⟩

/-- What a run without plan keeps: the clock is not past the number of keyed accesses, and the
stamps order the cached keys by their last access. -/
structure Recent (history : List (ShapeKey ins outs)) (r : DynamicIoRuntime ins outs) : Prop where
  cached : Cached r
  unplanned : Unplanned r
  tick : r.tick ≤ history.length
  stamped : Stamped history r.tick r.stamps

theorem recent_step {history : List (ShapeKey ins outs)} (h : Recent history s.runtime)
    (ha : ∀ plan, a ≠ .installShapePlan plan) (hlen : history.length + 1 < 2 ^ 64 ∨
      a.accessed = none) :
    Recent (history ++ a.accessed.toList) (step f s a).runtime := by
  have hc := cached_step (f := f) (a := a) h.cached
  have hu := unplanned_step (f := f) h.cached h.unplanned ha
  have htick := h.tick
  cases hk : a.accessed with
  | none =>
    have hf := forgets_step (f := f) (s := s) hk
    refine ⟨hc, hu, ?_, ?_⟩
    · simpa [hf.tick] using htick
    · rw [hf.tick]
      simpa using h.stamped.subset hf.stamps
  | some key =>
    have hlt : history.length + 1 < 2 ^ 64 := by simpa [hk] using hlen
    have ht := touches_step (f := f) h.cached h.unplanned (by omega) hk
    have hle := ht.tick
    refine ⟨hc, hu, ?_, h.stamped.access ht.le ht.stamps⟩
    simp only [Option.toList_some, List.length_append, List.length_singleton]
    omega

theorem recent_initial (hs : Initial f s) (hg : s.runtime.options.cudaGraph = false) :
    Recent [] s.runtime := by
  have hc := (cached_initial hs).1
  obtain ⟨name, mode, laneCount, options, -, -, hr⟩ := initial_cases hs
  rw [hr] at hc hg ⊢
  exact ⟨hc, ⟨hg, rfl⟩, Nat.zero_le _, .nil⟩

theorem recent_trace (hs : Initial f s) (hg : s.runtime.options.cudaGraph = false)
    (ht : Lts.Trace (dynamicLts f ins outs) s xs t) (hplan : ∀ plan, .installShapePlan plan ∉ xs)
    (hlen : (accesses xs).length < 2 ^ 64) : Recent (accesses xs) t.runtime := by
  induction ht with
  | refl => exact recent_initial hs hg
  | @snoc t u xs a _ hstep ih =>
    have hsplit : accesses (xs ++ [a]) = accesses xs ++ a.accessed.toList := by
      simp only [accesses, List.filterMap_append]
      cases hk : a.accessed <;> simp [hk]
    rw [hsplit, List.length_append] at hlen
    have hprev := ih (fun plan hm => hplan plan (List.mem_append_left _ hm)) (by omega)
    have hstep' := recent_step (f := f) (a := a) hprev ?_ ?_
    · rw [hsplit]
      exact hstep ▸ hstep'
    · rintro plan rfl
      exact hplan plan (by simp)
    · cases hk : a.accessed with
      | none => exact .inr rfl
      | some key => exact .inl (by simpa [hk] using hlen)

theorem keys_insertBucket (hc : Cached r) (lanes : List Lane.ServingLane) (graphId : Option Int) :
    r.keys ⊆ (insertBucket r request lanes graphId).1.keys := by
  rcases insertBucket_cases request lanes graphId hc.indexed with
    ⟨-, e, h⟩ | ⟨slots, id, -, ⟨-, e, h⟩ | ⟨-, h⟩⟩ <;> rw [h]
  · exact fun _ hk => hk
  · exact fun _ hk => hk
  · have hkeys : (r.pushed slots (r.newBucket request id lanes graphId)).keys =
        r.keys ++ [request] := List.map_append
    rw [hkeys]
    exact List.subset_append_left _ _

/-- A bucket request loses a cached key only by evicting its bucket. -/
theorem lost_by_evict (hc : Cached r) {n : CreateNative} (hk : key ∈ r.keys)
    (hlost : key ∉ (getOrCreateBucketInner f r request allowCreate n).1.keys) :
    key ∉ (evictOneBucketIfFull f (reapRetiredBuckets (reclaimDroppedRuns r).1 n.released)
      n.fence).1.keys := by
  have hlookup := sameIndex_lookupBucket r request allowCreate n.released
  rcases getOrCreate_outcomes (f := f) r request allowCreate n with
    he | ⟨r₁, hl, he⟩ | ⟨r', lanes, hcr, he⟩ <;> rw [he] at hlost
  · exact absurd (hlookup.keys ▸ hk) hlost
  · rw [hl] at hlookup
    obtain ⟨-, -, rfl⟩ := lookupBucket_miss hl
    rcases prepareBucket_cases (f := f) (reapRetiredBuckets (reclaimDroppedRuns r).1 n.released) n
      with
      ⟨-, e, h⟩ | ⟨r', e, hev, h⟩ | ⟨r', hev, h⟩
    · rw [h] at hlost
      exact absurd (hlookup.keys ▸ hk) hlost
    · rw [hev]
      rwa [h] at hlost
    · rw [hev]
      rwa [h] at hlost
  · obtain ⟨r₁, hl, hev, -⟩ := creates_cases hcr
    obtain ⟨-, -, rfl⟩ := lookupBucket_miss hl
    rw [hev]
    have hc' := (creates_shrinks hcr).1.cached hc
    exact fun hk' => hlost (keys_insertBucket hc' _ _ hk')

/-- The bucket of a key that an eviction loses is the oldest idle one. -/
theorem evict_loses (hc : Cached r) (hk : key ∈ r.keys) {m : Nat → Native}
    (hlost : key ∉ (evictOneBucketIfFull f r m).1.keys) : ∃ i b, oldestIdleBucket r = some i ∧
      r.buckets[i]? = some b ∧ b.key = key ∧ b.detachedLanes = 0 := by
  rcases evict_labels (f := f) r m with ⟨-, h⟩ | ⟨i, b, hi, hb, hd, -, -, h⟩
  · rw [← map_snd_labels, h, map_snd_labels] at hlost
    exact absurd hk hlost
  · refine ⟨i, b, hi, hb, ?_, hd⟩
    have hkey : r.keys[i]? = some b.key := by simp [DynamicIoRuntime.keys, hb]
    rw [← map_snd_labels, h, map_swapRemove, map_snd_labels,
      mem_swapRemove_iff hc.keys hkey] at hlost
    by_contra hne
    exact hlost ⟨hk, fun he => hne he.symm⟩

/-- On a runtime without CUDA graphs and without a plan, short of `2 ^ 64` keyed accesses: the
stamps of the cached buckets differ, the hot bucket answers as the search does, and a bucket that a
request evicts is, of those without detached lanes, the one accessed longest ago. -/
theorem eviction_is_lru (hs : Initial f s) (hg : s.runtime.options.cudaGraph = false)
    (ht : Lts.Trace (dynamicLts f ins outs) s xs t) (hplan : ∀ plan, .installShapePlan plan ∉ xs)
    (hlen : (accesses xs).length < 2 ^ 64) :
    (t.runtime.buckets.map ShapeBucket.lastUsed).Nodup ∧
    (∀ request, findBucketIndex t.runtime request =
      t.runtime.buckets.findIdx? fun bucket => bucket.key.matches request) ∧
    (∀ request, findBucketIndex (reclaimDroppedRuns t.runtime).1 request =
      (reclaimDroppedRuns t.runtime).1.buckets.findIdx? fun bucket => bucket.key.matches request) ∧
    ∀ request allowCreate n, ∀ key ∈ t.runtime.keys,
      key ∉ (getOrCreateBucketInner f t.runtime request allowCreate n).1.keys →
      ∃ b ∈ (reclaimDroppedRuns t.runtime).1.buckets, b.key = key ∧ b.detachedLanes = 0 ∧
        ∀ b' ∈ (reclaimDroppedRuns t.runtime).1.buckets, b'.detachedLanes = 0 → b' ≠ b →
          lastAccess (accesses xs) b.key < lastAccess (accesses xs) b'.key := by
  have h := recent_trace hs hg ht hplan hlen
  have hsame := sameIndex_reclaim (r := t.runtime)
  have hc := hsame.shrinks.cached h.cached
  refine ⟨?_, findBucketIndex_eq h.cached.keys, findBucketIndex_eq hc.keys, ?_⟩
  · rw [← map_snd_stamps]
    exact h.stamped.nodup (map_fst_stamps t.runtime ▸ h.cached.keys)
  · intro request allowCreate n key hk hlost
    have hev := lost_by_evict h.cached hk hlost
    have hreap : Cached (reapRetiredBuckets (reclaimDroppedRuns t.runtime).1 n.released) :=
      ⟨hc.indexed, hc.keys, hc.bound⟩
    have hkr : key ∈ (reapRetiredBuckets (reclaimDroppedRuns t.runtime).1 n.released).keys :=
      hsame.keys ▸ hk
    obtain ⟨i, b, hi, hb, hkey, hd⟩ := evict_loses hreap hkr hev
    have hmem : b ∈ (reclaimDroppedRuns t.runtime).1.buckets := List.mem_of_getElem? hb
    refine ⟨b, hmem, hkey, hd, ?_⟩
    intro b' hb' hd' hne
    have hstamped := h.stamped.subset (forgets_reclaim (r := t.runtime)).stamps
    have hle := oldestIdleBucket_le hi hb hb' hd'
    have hkeys : b.key ≠ b'.key := by
      intro he
      obtain ⟨j, hj⟩ := List.getElem?_of_mem hb'
      obtain rfl := bucket_index_unique hc.keys hb hj he
      exact hne (Option.some.inj (hj.symm.trans hb))
    exact hstamped.lt_of_le (List.mem_map_of_mem hmem) (List.mem_map_of_mem hb') hkeys hle

/-- A runtime of two buckets, before any call. -/
def roomForTwo : State 1 1 :=
  ⟨.fresh 0 .sharedSession 1 (.new 2), []⟩

/-- The first of two buckets is accessed again. -/
def twoAccesses : List (Op 1 1) :=
  [.getOrCreateBucket unitKey true .success, .getOrCreateBucket pairKey true .success,
    .bucketMut unitKey]

theorem eviction_is_lru_two :
    ∃ t, Lts.Trace (dynamicLts ⟨false, false⟩ 1 1) roomForTwo twoAccesses t ∧
    t.runtime.keys = [unitKey, pairKey] ∧
    ∃ b ∈ (reclaimDroppedRuns t.runtime).1.buckets, b.key = pairKey ∧ b.detachedLanes = 0 ∧
      ∀ b' ∈ (reclaimDroppedRuns t.runtime).1.buckets, b'.detachedLanes = 0 → b' ≠ b →
        lastAccess (accesses twoAccesses) b.key < lastAccess (accesses twoAccesses) b'.key := by
  have hs : Initial ⟨false, false⟩ roomForTwo := ⟨0, .sharedSession, 1, .new 2, rfl, rfl⟩
  have h₁ := (Lts.Trace.refl (L := dynamicLts ⟨false, false⟩ 1 1) (s := roomForTwo)).snoc
    (a := .getOrCreateBucket unitKey true .success) rfl
  have h₃ := (h₁.snoc (a := .getOrCreateBucket pairKey true .success) rfl).snoc
    (a := .bucketMut unitKey) rfl
  have hplan : ∀ plan, Op.installShapePlan plan ∉ twoAccesses := by simp [twoAccesses]
  have hlen : (accesses twoAccesses).length < 2 ^ 64 := by decide
  refine ⟨_, h₃, by decide, ?_⟩
  exact (eviction_is_lru hs rfl h₃ hplan hlen).2.2.2 tripleKey true .success pairKey
    (by decide) (by decide)

end Zrt.Dynamic
