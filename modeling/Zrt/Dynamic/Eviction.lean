import Zrt.Dynamic.Exchange

/-! What a failed bucket request leaves of the cache. -/
namespace Zrt.Dynamic

open Lane (Features Native)
open SwapRemove

variable {ins outs : Nat} {f : Features} {r r' : DynamicIoRuntime ins outs}
  {request key : ShapeKey ins outs} {allowCreate : Bool} {n : CreateNative} {e : Error}
  {id : PreparedBucketId} {i : Nat}

/-- The shapes an id stands for, while its bucket is cached. -/
def DynamicIoRuntime.resolve (r : DynamicIoRuntime ins outs) (id : PreparedBucketId) :
    Option (ShapeKey ins outs) :=
  ((r.bucketIndex id).bind (r.buckets[·]?)).map ShapeBucket.key

/-- The cached keys are the same, and what every id stands for. -/
structure SameCache (r r' : DynamicIoRuntime ins outs) : Prop where
  keys : ∀ key, key ∈ r'.keys ↔ key ∈ r.keys
  resolve : ∀ id, r'.resolve id = r.resolve id

/-- The least recently used bucket without detached lanes is gone, and no other. -/
structure LosesOldest (r r' : DynamicIoRuntime ins outs) (b : ShapeBucket ins outs) : Prop where
  cached : b ∈ r.buckets
  idle : b.detachedLanes = 0
  oldest : ∀ b' ∈ r.buckets, b'.detachedLanes = 0 → b.lastUsed ≤ b'.lastUsed
  keys : ∀ key, key ∈ r'.keys ↔ key ∈ r.keys ∧ key ≠ b.key
  resolve : ∀ id, r'.resolve id = if id = b.id then none else r.resolve id

/-- A request of `key` gets as far as evicting a bucket. -/
structure Evicts (r : DynamicIoRuntime ins outs) (key : ShapeKey ins outs) (allowCreate : Bool) :
    Prop where
  graph : r.options.cudaGraph = false
  planned : validatePlannedShape r key = .ok ()
  miss : key ∉ r.keys
  create : allowCreate = true
  full : r.options.maxBuckets ≤ r.buckets.length
  idle : ∃ b ∈ r.buckets, b.detachedLanes = 0

theorem resolve_iff (hc : Cached r) : r.resolve id = some key ↔ (id, key) ∈ r.labels := by
  simp only [DynamicIoRuntime.resolve, Option.map_eq_some_iff, Option.bind_eq_some_iff,
    DynamicIoRuntime.labels, List.mem_map]
  constructor
  · rintro ⟨b, ⟨i, hi, hb⟩, rfl⟩
    obtain ⟨b', hb', rfl⟩ := bucketIndex_some hi
    obtain rfl := Option.some.inj (hb.symm.trans hb')
    exact ⟨b, List.mem_of_getElem? hb, rfl⟩
  · rintro ⟨b, hb, hl⟩
    obtain ⟨rfl, rfl⟩ := Prod.mk.inj hl
    obtain ⟨i, hi⟩ := List.getElem?_of_mem hb
    refine ⟨b, ⟨i, ?_, hi⟩, rfl⟩
    rw [DynamicIoRuntime.bucketIndex, preparedBucketIndex_iff hc.indexed]
    simp [DynamicIoRuntime.bucketIds, hi]

/-- The labels say all there is to say of a cache. -/
theorem sameCache_of_labels (hc : Cached r) (hc' : Cached r') (h : r'.labels = r.labels) :
    SameCache r r' := by
  refine ⟨?_, fun id => Option.ext ?_⟩
  · intro key
    rw [← map_snd_labels, ← map_snd_labels, h]
  · intro key
    rw [resolve_iff hc, resolve_iff hc', h]

/-- No bucket before the oldest idle one was used longer ago. -/
theorem oldestIdleBucket_le {b b' : ShapeBucket ins outs} (h : oldestIdleBucket r = some i)
    (hb : r.buckets[i]? = some b) (hb' : b' ∈ r.buckets) (hd : b'.detachedLanes = 0) :
    b.lastUsed ≤ b'.lastUsed := by
  obtain ⟨⟨c, k⟩, hc, rfl⟩ := Option.map_eq_some_iff.mp h
  obtain ⟨j, hj⟩ := List.getElem?_of_mem hb'
  have hm := List.argmin_mem hc
  rw [List.mem_filter, List.mem_zipIdx_iff_getElem?] at hm
  obtain rfl := Option.some.inj (hb.symm.trans hm.1)
  have hmem : (b', j) ∈ r.buckets.zipIdx.filter fun p => p.1.detachedLanes = 0 := by
    rw [List.mem_filter, List.mem_zipIdx_iff_getElem?]
    exact ⟨hj, by simpa using hd⟩
  exact List.le_of_mem_argmin (f := fun p : ShapeBucket ins outs × Nat => p.1.lastUsed) hmem hc

theorem oldestIdleBucket_none (h : oldestIdleBucket r = none) :
    ∀ b ∈ r.buckets, b.detachedLanes ≠ 0 := by
  intro b hb hd
  obtain ⟨j, hj⟩ := List.getElem?_of_mem hb
  rw [oldestIdleBucket, Option.map_eq_none_iff, List.argmin_eq_none, List.filter_eq_nil_iff] at h
  exact h (b, j) (List.mem_zipIdx_iff_getElem?.mpr hj) (by simpa using hd)

/-- An eviction drops the oldest idle bucket of a full cache, or changes no bucket. -/
theorem evict_labels (r : DynamicIoRuntime ins outs) (m : Nat → Native) :
    ((r.options.cudaGraph = true ∨ r.buckets.length < r.options.maxBuckets ∨
        ∀ b ∈ r.buckets, b.detachedLanes ≠ 0) ∧
      (evictOneBucketIfFull f r m).1.labels = r.labels) ∨
    ∃ i b, oldestIdleBucket r = some i ∧ r.buckets[i]? = some b ∧ b.detachedLanes = 0 ∧
      r.options.cudaGraph = false ∧ r.options.maxBuckets ≤ r.buckets.length ∧
      (evictOneBucketIfFull f r m).1.labels = swapRemove r.labels i := by
  unfold evictOneBucketIfFull
  rcases Nat.lt_or_ge r.buckets.length r.options.maxBuckets with hlt | hge
  · exact .inl ⟨.inr (.inl hlt), by rw [if_pos hlt]⟩
  · rw [if_neg (Nat.not_lt.mpr hge)]
    cases hg : r.options.cudaGraph with
    | true => exact .inl ⟨.inl rfl, by rw [if_pos rfl]⟩
    | false =>
      have hsame : oldestIdleBucket { r with hotBucket := none } = oldestIdleBucket r := rfl
      rw [if_neg Bool.false_ne_true]
      dsimp only
      rw [hsame]
      cases hi : oldestIdleBucket r with
      | none => exact .inl ⟨.inr (.inr (oldestIdleBucket_none hi)), rfl⟩
      | some i =>
        obtain ⟨b, hb, hd⟩ := oldestIdleBucket_some hi
        refine .inr ⟨i, b, rfl, hb, hd, rfl, hge, ?_⟩
        rcases retireBucketAt_cases (f := f) { r with hotBucket := none } i m with
          ⟨-, hne⟩ | ⟨b', -, -, he⟩
        · exact absurd hd (hne b hb)
        · dsimp only [DynamicIoRuntime.labels]
          rw [he]
          exact (congrArg _ (retired_buckets _)).trans (map_swapRemove _)

/-- An evicting request misses the cache. -/
theorem Evicts.lookup (h : Evicts (reclaimDroppedRuns r).1 key allowCreate)
    (released : PreparedBucketId → Bool) : lookupBucket r key allowCreate released =
      (reapRetiredBuckets (reclaimDroppedRuns r).1 released, .ok none) := by
  have hmiss : findBucketIndex (reapRetiredBuckets (reclaimDroppedRuns r).1 released)
    key = none := by
    cases hf : findBucketIndex (reapRetiredBuckets (reclaimDroppedRuns r).1 released) key with
    | none => rfl
    | some i =>
      obtain ⟨b, hb, rfl⟩ := findBucketIndex_some hf
      exact absurd (List.mem_map.mpr ⟨b, List.mem_of_getElem? hb, rfl⟩) h.miss
  simp only [lookupBucket, h.planned, hmiss, h.create, if_true]

/-- A failed insertion leaves the buckets alone. -/
theorem insertBucket_error {lanes : List Lane.ServingLane} {graphId : Option Int} (hc : Cached r)
    (he : (insertBucket r request lanes graphId).2 = .error e) :
    (insertBucket r request lanes graphId).1.labels = r.labels := by
  rcases insertBucket_cases request lanes graphId hc.indexed with
    ⟨-, e, h⟩ | ⟨slots, id, -, ⟨-, e, h⟩ | ⟨-, h⟩⟩ <;> rw [h] at he ⊢
  · rfl
  · rfl
  · cases he

/-- A miss that fails leaves the labels as its eviction does. -/
theorem createBucket_error (hl : lookupBucket r key allowCreate n.released = (r', .ok none))
    (hc : Cached r') (he : (getOrCreateBucketInner f r key allowCreate n).2 = .error e) :
    (getOrCreateBucketInner f r key allowCreate n).1.labels =
      (evictOneBucketIfFull f r' n.fence).1.labels := by
  have hr : getOrCreateBucketInner f r key allowCreate n =
      Result.andThen (prepareBucket f r' n) fun r lanes => insertBucket r key lanes.1 lanes.2 := by
    simp only [getOrCreateBucketInner, hl, Result.andThen]
  rw [hr] at he ⊢
  have hevict := (shrinks_evict (f := f) r' n.fence).cached hc
  rcases prepareBucket_cases (f := f) r' n with ⟨hg, e', h⟩ | ⟨r₂, e', hr, h⟩ | ⟨r₂, hr, h⟩
  · rw [h]
    rcases evict_labels (f := f) r' n.fence with ⟨-, hl⟩ | ⟨i, b, -, -, -, hg', -⟩
    · exact hl.symm
    · simp [hg] at hg'
  · rw [h, hr]
    rfl
  · rw [hr] at hevict ⊢
    rw [h] at he ⊢
    cases hp : prepareLanes f r₂ n with
    | error e' => rfl
    | ok lanes =>
      rw [hp] at he
      exact insertBucket_error hevict he

/-- Only a request that may create gets past a miss. -/
theorem lookupBucket_create {released : PreparedBucketId → Bool}
    (h : lookupBucket r key allowCreate released = (r', .ok none)) : allowCreate = true := by
  obtain ⟨hv, -, -⟩ := lookupBucket_miss h
  cases allowCreate with
  | true => rfl
  | false =>
    simp only [lookupBucket, hv] at h
    split at h
    · cases (Prod.mk.inj h).2
    · rw [if_neg Bool.false_ne_true] at h
      cases (Prod.mk.inj h).2

/-- A failed request keeps every label, or all but that of the oldest idle bucket. -/
theorem getOrCreate_error (hc : Cached r)
    (he : (getOrCreateBucketInner f r key allowCreate n).2 = .error e) :
    (¬ Evicts (reclaimDroppedRuns r).1 key allowCreate →
      (getOrCreateBucketInner f r key allowCreate n).1.labels = (reclaimDroppedRuns r).1.labels) ∧
    (Evicts (reclaimDroppedRuns r).1 key allowCreate → ∃ i b,
      oldestIdleBucket (reclaimDroppedRuns r).1 = some i ∧
      (reclaimDroppedRuns r).1.buckets[i]? = some b ∧ b.detachedLanes = 0 ∧
      (getOrCreateBucketInner f r key allowCreate n).1.labels =
        swapRemove (reclaimDroppedRuns r).1.labels i) := by
  have hc₀ : Cached (reapRetiredBuckets (reclaimDroppedRuns r).1 n.released) := by
    obtain ⟨hi, hk, hb⟩ := sameIndex_reclaim.shrinks.cached hc
    exact ⟨hi, hk, hb⟩
  have hev := evict_labels (f := f) (reapRetiredBuckets (reclaimDroppedRuns r).1 n.released) n.fence
  constructor
  · intro hno
    cases hl : lookupBucket r key allowCreate n.released with
    | mk r₁ o => cases o with
      | error e' =>
        have hs := sameIndex_lookupBucket r key allowCreate n.released
        rw [hl] at hs
        simp only [getOrCreateBucketInner, hl, Result.andThen]
        exact hs.labels.trans sameIndex_reclaim.labels.symm
      | ok found => cases found with
        | some i => simp [getOrCreateBucketInner, hl, Result.andThen] at he
        | none =>
          obtain ⟨hv, hmiss, rfl⟩ := lookupBucket_miss hl
          rw [createBucket_error hl hc₀ he]
          rcases hev with ⟨-, h⟩ | ⟨i, b, hi, hb, hd, hg, hfull, -⟩
          · exact h
          · exact absurd ⟨hg, hv, hmiss, lookupBucket_create hl, hfull, b,
              List.mem_of_getElem? hb, hd⟩ hno
  · intro hyes
    rw [createBucket_error (hyes.lookup n.released) hc₀ he]
    rcases hev with ⟨hg | hlt | hall, -⟩ | ⟨i, b, hi, hb, hd, -, -, h⟩
    · simp [reapRetiredBuckets, hyes.graph] at hg
    · exact absurd hyes.full (Nat.not_le.mpr hlt)
    · obtain ⟨b, hb, hd⟩ := hyes.idle
      exact absurd hd (hall b hb)
    · exact ⟨i, b, hi, hb, hd, h⟩

/-- Without its label, a bucket's key and id are not cached; the others are. -/
theorem losesOldest_of_labels {b : ShapeBucket ins outs} (hc : Cached r) (hc' : Cached r')
    (hi : oldestIdleBucket r = some i) (hb : r.buckets[i]? = some b) (hd : b.detachedLanes = 0)
    (h : r'.labels = swapRemove r.labels i) : LosesOldest r r' b := by
  have hl : r.labels[i]? = some b.label := by simp [DynamicIoRuntime.labels, hb]
  have hk : r.keys[i]? = some b.key := by simp [DynamicIoRuntime.keys, hb]
  have hids : r.bucketIds[i]? = some b.id := by simp [DynamicIoRuntime.bucketIds, hb]
  have hkeys : r'.keys = swapRemove r.keys i := by
    rw [← map_snd_labels, h, map_swapRemove, map_snd_labels]
  have hids' : r'.bucketIds = swapRemove r.bucketIds i := by
    rw [← map_fst_labels, h, map_swapRemove, map_fst_labels]
  have hlabels : r.labels.Nodup := List.Nodup.of_map Prod.snd (map_snd_labels r ▸ hc.keys)
  refine ⟨List.mem_of_getElem? hb, hd, fun b' => oldestIdleBucket_le hi hb, ?_,
    fun id => Option.ext ?_⟩
  · intro key
    rw [hkeys, mem_swapRemove_iff hc.keys hk]
  · intro key
    rw [resolve_iff hc', h, mem_swapRemove_iff hlabels hl]
    by_cases hid : id = b.id
    · rw [if_pos hid]
      refine ⟨?_, fun hx => by cases hx⟩
      rintro ⟨hx, hne⟩
      have hx' : (id, key) ∈ r'.labels := h ▸ (mem_swapRemove_iff hlabels hl).mpr ⟨hx, hne⟩
      have hid' : id ∈ r'.bucketIds := map_fst_labels r' ▸ List.mem_map_of_mem hx'
      rw [hids', mem_swapRemove_iff hc.indexed.nodup hids] at hid'
      exact absurd hid hid'.2
    · rw [if_neg hid, resolve_iff hc]
      exact ⟨fun hx => hx.1, fun hx => ⟨hx, fun he => hid (congrArg Prod.fst he)⟩⟩

/-- The calls that make one bucket request. -/
inductive Request where
  | getOrCreateBucket
  | enqueueOwned (e : EnqueueNative)
  | runOn (lane : Nat) (script : Script) (result : Except Error Unit)
  | prebuildBucket

/-- Whether the call may create a bucket. -/
def Request.mayCreate (r : DynamicIoRuntime ins outs) : Request → Bool
  | .prebuildBucket => true
  | _ => !r.options.strictShapeCache

/-- A result without its value. -/
def Result.void {α : Type} (x : Result ins outs α) : Result ins outs Unit :=
  (x.1, x.2.map fun _ => ())

def Request.exec (f : Features) (r : DynamicIoRuntime ins outs) (key : ShapeKey ins outs)
    (n : CreateNative) : Request → Result ins outs Unit
  | .getOrCreateBucket => (Dynamic.getOrCreateBucket f r key n).void
  | .enqueueOwned e => (Dynamic.enqueueOwned f r key n e).void
  | .runOn lane script result => Dynamic.runOn f r key lane n script result
  | .prebuildBucket => (Dynamic.prebuildBuckets f r [(key, n)]).void

/-- The call fails with its bucket request, which is the last thing it does. -/
theorem Request.exec_error {call : Request}
    (he : (getOrCreateBucketInner f r key (call.mayCreate r) n).2 = .error e) :
    call.exec f r key n =
      ((getOrCreateBucketInner f r key (call.mayCreate r) n).1, .error e) := by
  cases hr : getOrCreateBucketInner f r key (call.mayCreate r) n with
  | mk r₁ o =>
    rw [hr] at he
    obtain rfl := he
    cases call with
    | getOrCreateBucket =>
      simp only [Request.exec, Dynamic.getOrCreateBucket, Result.void]
      rw [show getOrCreateBucketInner f r key (!r.options.strictShapeCache) n = _ from hr]
      rfl
    | enqueueOwned m =>
      simp only [Request.exec, Dynamic.enqueueOwned, Dynamic.getOrCreateBucket, Result.void]
      rw [show getOrCreateBucketInner f r key (!r.options.strictShapeCache) n = _ from hr]
      rfl
    | runOn lane script result =>
      simp only [Request.exec, Dynamic.runOn]
      rw [show getOrCreateBucketInner f r key (!r.options.strictShapeCache) n = _ from hr]
      rfl
    | prebuildBucket =>
      simp only [Request.exec, Dynamic.prebuildBuckets, Result.void]
      rw [show getOrCreateBucketInner f r key true n = _ from hr]
      rfl

variable {s : State ins outs}

/-- As long as no cached bucket is exchanged for another, a call whose bucket request fails returns
the error; it leaves the cache alone, but where the request gets as far as the eviction: then
exactly the oldest idle bucket is gone. -/
theorem failed_request (call : Request) (key : ShapeKey ins outs) (n : CreateNative) (e : Error)
    (h : Lts.Reachable (SettledBuckets f ins outs) s)
    (he : (getOrCreateBucketInner f s.runtime key (call.mayCreate s.runtime) n).2 = .error e) :
    (call.exec f s.runtime key n).2 = .error e ∧
    (¬ Evicts (reclaimDroppedRuns s.runtime).1 key (call.mayCreate s.runtime) →
      SameCache (reclaimDroppedRuns s.runtime).1 (call.exec f s.runtime key n).1) ∧
    (Evicts (reclaimDroppedRuns s.runtime).1 key (call.mayCreate s.runtime) → ∃ b,
      LosesOldest (reclaimDroppedRuns s.runtime).1 (call.exec f s.runtime key n).1 b) := by
  have hc : Cached s.runtime := cached_settled h
  have hc₀ : Cached (reclaimDroppedRuns s.runtime).1 := sameIndex_reclaim.shrinks.cached hc
  have hc' : Cached (getOrCreateBucketInner f s.runtime key (call.mayCreate s.runtime) n).1 :=
    cached_step (f := f) (a := .getOrCreateBucket key (call.mayCreate s.runtime) n) hc
  obtain ⟨hkeep, hlose⟩ := getOrCreate_error hc he
  rw [Request.exec_error he]
  refine ⟨rfl, fun hno => sameCache_of_labels hc₀ hc' (hkeep hno), ?_⟩
  intro hyes
  obtain ⟨i, b, hi, hb, hd, hl⟩ := hlose hyes
  exact ⟨b, losesOldest_of_labels hc₀ hc' hi hb hd hl⟩

/-- A cache of one bucket, full. -/
def unitCached : State 1 1 :=
  step ⟨false, false⟩ ⟨emptyRuntime 1 1 2 ⟨[], []⟩ 0, []⟩ (.getOrCreateBucket unitKey true .success)

theorem unitCached_reachable : Reachable ⟨false, false⟩ unitCached :=
  .step (.initial (emptyRuntime_initial (by decide) (by decide))) rfl

/-- The lanes cannot be built. -/
def CreateNative.unbuilt : CreateNative :=
  { CreateNative.success with build := .error (.local "zrt: no lane") }

theorem failed_request_evicted : ∃ b, LosesOldest (reclaimDroppedRuns unitCached.runtime).1
    (Request.exec ⟨false, false⟩ unitCached.runtime pairKey .unbuilt .getOrCreateBucket).1 b := by
  refine (failed_request .getOrCreateBucket pairKey .unbuilt (.local "zrt: no lane")
    (settled_of_reachable unitCached_reachable) rfl).2.2 ⟨rfl, rfl, by decide, rfl, by decide, ?_⟩
  exact ⟨_, List.mem_singleton_self _, rfl⟩

/-- Two buckets, of which the second was used less recently, exchanged. -/
def swappedPair : State 1 1 :=
  (step ⟨false, false⟩ pairState (.getOrCreateBucket unitKey true .success)).exchange (.buckets 0 1)

/-- The request of a second shape fails, and the bucket of the first is gone. Behind an exchange of
the buckets the eviction moreover makes an id valid again that no longer was. -/
theorem failed_request_flushes :
    (Reachable ⟨false, false⟩ unitCached ∧
      (getOrCreateBucket ⟨false, false⟩ unitCached.runtime pairKey .unbuilt).2 =
        .error (.local "zrt: no lane") ∧
      ¬ SameCache (reclaimDroppedRuns unitCached.runtime).1
        (getOrCreateBucket ⟨false, false⟩ unitCached.runtime pairKey .unbuilt).1) ∧
    Lts.Reachable (lentLts ⟨false, false⟩ 1 1) swappedPair ∧
    (getOrCreateBucket ⟨false, false⟩ swappedPair.runtime tripleKey .unbuilt).2 =
      .error (.local "zrt: no lane") ∧
    ∀ b, ¬ LosesOldest (reclaimDroppedRuns swappedPair.runtime).1
      (getOrCreateBucket ⟨false, false⟩ swappedPair.runtime tripleKey .unbuilt).1 b := by
  refine ⟨⟨unitCached_reachable, rfl, ?_⟩, ?_, rfl, ?_⟩
  · intro h
    exact absurd ((h.keys unitKey).mpr (by decide)) (by decide)
  · have h₁ := pairState_reachable.ours (.getOrCreateBucket unitKey true .success) rfl
    exact h₁.theirs (.buckets 0 1)
  · intro b h
    have hbefore : (reclaimDroppedRuns swappedPair.runtime).1.resolve ⟨0, 1⟩ = none := rfl
    have hafter := h.resolve ⟨0, 1⟩
    rw [hbefore, ite_self] at hafter
    cases hafter

end Zrt.Dynamic
