import Zrt.Dynamic.Exhaustion

/-! Bucket keys, bucket ids and prepared slots agree in every reachable state. -/
namespace Zrt.Dynamic

open Lane (Features Native)
open ShapePlan (SealedPlan zipEqual)
open SwapRemove

variable {ins outs : Nat} {f : Features} {r r' r'' : DynamicIoRuntime ins outs}
  {request : ShapeKey ins outs} {i : Nat}

def DynamicIoRuntime.keys (r : DynamicIoRuntime ins outs) : List (ShapeKey ins outs) :=
  r.buckets.map ShapeBucket.key

/-- A bucket's id and what it stands for. -/
def ShapeBucket.label (b : ShapeBucket ins outs) : PreparedBucketId × ShapeKey ins outs :=
  (b.id, b.key)

def DynamicIoRuntime.labels (r : DynamicIoRuntime ins outs) :
    List (PreparedBucketId × ShapeKey ins outs) :=
  r.buckets.map ShapeBucket.label

theorem map_fst_labels (r : DynamicIoRuntime ins outs) : r.labels.map Prod.fst = r.bucketIds :=
  List.map_map

theorem map_snd_labels (r : DynamicIoRuntime ins outs) : r.labels.map Prod.snd = r.keys :=
  List.map_map

/-- The cache's own invariant. -/
structure Cached (r : DynamicIoRuntime ins outs) : Prop where
  indexed : Indexed r.toPreparedSlots r.bucketIds
  keys : r.keys.Nodup
  bound : r.buckets.length ≤ r.options.maxBuckets

/-- What every call but the creation of a bucket does to the index: buckets may go, and what is
said of the others and of the slots stays true. -/
structure Shrinks (r r' : DynamicIoRuntime ins outs) : Prop where
  name : r'.name = r.name
  laneCount : r'.laneCount = r.laneCount
  options : r'.options = r.options
  plan : r'.shapePlan = r.shapePlan
  labels : r'.labels ⊆ r.labels
  cached : Cached r → Cached r'
  issued : Cached r → ∀ id, Issued r.toPreparedSlots id → Issued r'.toPreparedSlots id
  accounted : Cached r → Accounted r.toPreparedSlots r.bucketIds →
    Accounted r'.toPreparedSlots r'.bucketIds

theorem Shrinks.ids (h : Shrinks r r') : r'.bucketIds ⊆ r.bucketIds := by
  rw [← map_fst_labels, ← map_fst_labels]
  exact List.map_subset _ h.labels

theorem Shrinks.keys (h : Shrinks r r') : r'.keys ⊆ r.keys := by
  rw [← map_snd_labels, ← map_snd_labels]
  exact List.map_subset _ h.labels

theorem Shrinks.refl : Shrinks r r :=
  ⟨rfl, rfl, rfl, rfl, fun _ h => h, fun h => h, fun _ _ h => h, fun _ h => h⟩

theorem Shrinks.trans (h : Shrinks r r') (h' : Shrinks r' r'') : Shrinks r r'' where
  name := h'.name.trans h.name
  laneCount := h'.laneCount.trans h.laneCount
  options := h'.options.trans h.options
  plan := h'.plan.trans h.plan
  labels := fun _ hx => h.labels (h'.labels hx)
  cached := fun hc => h'.cached (h.cached hc)
  issued := fun hc id hid => h'.issued (h.cached hc) id (h.issued hc id hid)
  accounted := fun hc ha => h'.accounted (h.cached hc) (h.accounted hc ha)

/-- The index is left alone. -/
structure SameIndex (r r' : DynamicIoRuntime ins outs) : Prop where
  name : r'.name = r.name
  laneCount : r'.laneCount = r.laneCount
  options : r'.options = r.options
  plan : r'.shapePlan = r.shapePlan
  slots : r'.toPreparedSlots = r.toPreparedSlots
  labels : r'.labels = r.labels

theorem SameIndex.ids (h : SameIndex r r') : r'.bucketIds = r.bucketIds := by
  rw [← map_fst_labels, ← map_fst_labels, h.labels]

theorem SameIndex.keys (h : SameIndex r r') : r'.keys = r.keys := by
  rw [← map_snd_labels, ← map_snd_labels, h.labels]

theorem SameIndex.refl : SameIndex r r := ⟨rfl, rfl, rfl, rfl, rfl, rfl⟩

theorem SameIndex.trans (h : SameIndex r r') (h' : SameIndex r' r'') : SameIndex r r'' :=
  ⟨h'.name.trans h.name, h'.laneCount.trans h.laneCount, h'.options.trans h.options,
    h'.plan.trans h.plan, h'.slots.trans h.slots, h'.labels.trans h.labels⟩

theorem SameIndex.length (h : SameIndex r r') : r'.buckets.length = r.buckets.length := by
  have := congrArg List.length h.ids
  simpa [DynamicIoRuntime.bucketIds] using this

theorem SameIndex.shrinks (h : SameIndex r r') : Shrinks r r' where
  name := h.name
  laneCount := h.laneCount
  options := h.options
  plan := h.plan
  labels := by rw [h.labels]; exact fun _ h => h
  cached := fun hc => ⟨by rw [h.slots, h.ids]; exact hc.indexed, by rw [h.keys]; exact hc.keys, by
    rw [h.length, h.options]; exact hc.bound⟩
  issued := fun _ _ hid => by rw [h.slots]; exact hid
  accounted := fun _ ha => by rw [h.slots, h.ids]; exact ha

/-- A change of one element that a map does not see. -/
theorem map_modify_same {α β : Type} {xs : List α} {g : α → α} {h : α → β}
    (hg : ∀ x, h (g x) = h x) : (xs.modify i g).map h = xs.map h := by
  refine List.ext_getElem? ?_
  intro j
  rw [List.getElem?_map, List.getElem?_map, List.getElem?_modify]
  cases xs[j]? with
  | none => rfl
  | some x =>
    by_cases hj : i = j
    · simp [hj, hg]
    · simp [hj]

theorem map_mapIdx_same {α β : Type} {xs : List α} {g : Nat → α → α} {h : α → β}
    (hg : ∀ i x, h (g i x) = h x) : (xs.mapIdx g).map h = xs.map h := by
  refine List.ext_getElem? ?_
  intro j
  rw [List.getElem?_map, List.getElem?_map, List.getElem?_mapIdx]
  cases xs[j]? with
  | none => rfl
  | some x => simp [hg]

/-- Writing back an element that a map does not tell from the old one. -/
theorem map_set_same {α β : Type} {xs : List α} {x y : α} {h : α → β} (hx : xs[i]? = some x)
    (hy : h y = h x) : (xs.set i y).map h = xs.map h := by
  refine List.ext_getElem? ?_
  intro j
  rw [List.getElem?_map, List.getElem?_map, List.getElem?_set]
  grind

theorem modify_eq_set {α : Type} {xs : List α} {g : α → α} {x : α} (hx : xs[i]? = some x) :
    xs.modify i g = xs.set i (g x) := by
  refine List.ext_getElem? ?_
  intro j
  rw [List.getElem?_modify, List.getElem?_set]
  grind

/-- What the runtime and its tokens do to lanes keeps this relation: it tolerates a bucket written
back under its key, id, graph id and stamp, and any change of the lanes elsewhere. -/
structure LaneStable (R : DynamicIoRuntime ins outs → DynamicIoRuntime ins outs → Prop) : Prop where
  trans : ∀ {r r' r''}, R r r' → R r' r'' → R r r''
  bucket : ∀ {r i} {b b' : ShapeBucket ins outs}, r.buckets[i]? = some b → b'.label = b.label →
    b'.graphId = b.graphId → b'.lastUsed = b.lastUsed → R r (r.setBucket i b')
  rest : ∀ {r} recovery leaked lost, R r { r with
    recovery := recovery
    leaked := leaked
    lost := lost }

/-- The same for whatever lends a bucket out: its stamp, the tick and the hot bucket may change. -/
structure Stable (R : DynamicIoRuntime ins outs → DynamicIoRuntime ins outs → Prop) : Prop where
  trans : ∀ {r r' r''}, R r r' → R r' r'' → R r r''
  bucket : ∀ {r i} {b b' : ShapeBucket ins outs}, r.buckets[i]? = some b → b'.label = b.label →
    b'.graphId = b.graphId → R r (r.setBucket i b')
  rest : ∀ {r} recovery hot tick leaked lost, R r { r with
    recovery := recovery
    hotBucket := hot
    tick := tick
    leaked := leaked
    lost := lost }

namespace LaneStable

variable {R : DynamicIoRuntime ins outs → DynamicIoRuntime ins outs → Prop}

theorem refl (hR : LaneStable R) : R r r := hR.rest _ _ _

theorem modify (hR : LaneStable R) {g : ShapeBucket ins outs → ShapeBucket ins outs}
    (hl : ∀ b, (g b).label = b.label) (hg : ∀ b, (g b).graphId = b.graphId)
    (hu : ∀ b, (g b).lastUsed = b.lastUsed) :
    R r { r with buckets := r.buckets.modify i g } := by
  cases hb : r.buckets[i]? with
  | none =>
    rw [List.modify_eq_self (List.getElem?_eq_none_iff.mp hb)]
    exact hR.refl
  | some b =>
    rw [modify_eq_set hb]
    exact hR.bucket hb (hl b) (hg b) (hu b)

theorem reclaimSlot (hR : LaneStable R) {slot : Nat} : R r (reclaimSlot r slot).1 := by
  rcases reclaimSlot_cases r slot with
    ⟨-, h⟩ | ⟨d, -, ⟨-, h⟩ | ⟨i, b, -, hb, -, -, h⟩⟩ <;> rw [h]
  · exact hR.refl
  · exact hR.rest _ _ _
  · have hcell : R r (r.emptyCell slot) := hR.rest _ _ _
    exact hR.trans hcell (hR.bucket hb rfl rfl rfl)

theorem reclaimReady (hR : LaneStable R) {ready : List Nat} : R r (reclaimReady r ready).1 := by
  induction ready generalizing r with
  | nil => exact hR.refl
  | cons slot ready ih =>
    have hset : R r { r with recovery := { r.recovery with ready := ready } } :=
      hR.rest _ _ _
    exact hR.trans hset (hR.trans hR.reclaimSlot ih)

theorem reclaim (hR : LaneStable R) : R r (reclaimDroppedRuns r).1 := hR.reclaimReady

theorem returnDetachedLane (hR : LaneStable R) {bucketId : PreparedBucketId}
    {lane : ServingLane ins outs} : R r (returnDetachedLane r bucketId lane).1 := by
  rcases returnDetachedLane_cases r bucketId lane with
    ⟨-, e, h⟩ | ⟨i, b, -, hb, -, ⟨-, e, h⟩ | ⟨-, -, h⟩⟩ <;> rw [h]
  · exact hR.refl
  · exact hR.rest _ _ _
  · exact hR.bucket hb rfl rfl rfl

theorem detachLane (hR : LaneStable R) (r : DynamicIoRuntime ins outs)
    (bucketId : PreparedBucketId) :
    R r (detachLane r bucketId).1 := by
  rcases detachLane_cases r bucketId with ⟨e, h⟩ | ⟨i, b, lane, -, hb, -, -, h⟩ <;>
    rw [h]
  · exact hR.refl
  · exact hR.bucket hb rfl rfl rfl

theorem enqueuePrepared (hR : LaneStable R) (r : DynamicIoRuntime ins outs)
    (bucketId : PreparedBucketId) (n : EnqueueNative) :
    R r (enqueuePrepared f r bucketId n).1 := by
  refine hR.trans hR.reclaim ?_
  unfold Dynamic.enqueuePrepared enqueueWith
  have h := hR.detachLane (reclaimDroppedRuns r).1 bucketId
  revert h
  obtain ⟨r', ⟨lane, id⟩ | ⟨lane, id⟩⟩ := Dynamic.detachLane (reclaimDroppedRuns r).1 bucketId
  · exact fun h => h
  · intro h
    refine hR.trans h ?_
    simp only [Result.andThen]
    split
    · exact hR.returnDetachedLane
    · split
      · exact hR.refl
      · split
        · exact hR.rest _ _ _
        · exact hR.returnDetachedLane

theorem completeOwned (hR : LaneStable R) {α : Type} {run : OwnedDynamicIoRun ins outs} {n : Native}
    {consume : ServingLane ins outs → Except Error α} :
    R r (completeOwned f r run n consume).1 := by
  unfold Dynamic.completeOwned
  dsimp only
  split
  · exact hR.rest _ _ _
  · exact hR.returnDetachedLane

theorem dropOwned (hR : LaneStable R) {run : OwnedDynamicIoRun ins outs} {n : Native} :
    R r (dropOwned f r run n) := by
  unfold Dynamic.dropOwned
  dsimp only
  split
  · exact hR.rest _ _ _
  · split <;> exact hR.rest _ _ _

theorem bucketLane (hR : LaneStable R) {j : Nat} {op : Lane.Op} {n : Native} :
    R r (bucketLane f r i j op n) :=
  hR.modify (fun _ => rfl) (fun _ => rfl) fun _ => rfl

end LaneStable

namespace Stable

variable {R : DynamicIoRuntime ins outs → DynamicIoRuntime ins outs → Prop}

theorem lanes (hR : Stable R) : LaneStable R where
  trans := hR.trans
  bucket hb hl hg _ := hR.bucket hb hl hg
  rest _ _ _ := hR.rest _ _ _ _ _

theorem refl (hR : Stable R) : R r r := hR.lanes.refl

theorem modify (hR : Stable R) {g : ShapeBucket ins outs → ShapeBucket ins outs}
    (hl : ∀ b, (g b).label = b.label) (hg : ∀ b, (g b).graphId = b.graphId) :
    R r { r with buckets := r.buckets.modify i g } := by
  cases hb : r.buckets[i]? with
  | none =>
    rw [List.modify_eq_self (List.getElem?_eq_none_iff.mp hb)]
    exact hR.refl
  | some b =>
    rw [modify_eq_set hb]
    exact hR.bucket hb (hl b) (hg b)

theorem touch (hR : Stable R) : R r (touch r i) := by
  have htick : R r (nextTick r) := hR.rest _ _ _ _ _
  have hused : R (nextTick r) { nextTick r with
      buckets := (nextTick r).buckets.modify i fun bucket =>
        { bucket with lastUsed := (nextTick r).tick } } :=
    hR.modify (fun _ => rfl) fun _ => rfl
  exact hR.trans htick (hR.trans hused (hR.rest _ _ _ _ _))

theorem bucketMut (hR : Stable R) : R r (bucketMut r request).1 := by
  refine hR.trans hR.lanes.reclaim ?_
  unfold Dynamic.bucketMut
  dsimp only
  split
  · exact hR.refl
  · exact hR.touch

end Stable

theorem stable_sameIndex : Stable (@SameIndex ins outs) where
  trans := SameIndex.trans
  bucket hb hl _ := ⟨rfl, rfl, rfl, rfl, rfl, map_set_same hb hl⟩
  rest _ _ _ _ _ := ⟨rfl, rfl, rfl, rfl, rfl, rfl⟩

/-- Writing a bucket back under its own key and id. -/
theorem sameIndex_set {bucket bucket' : ShapeBucket ins outs} (hb : r.buckets[i]? = some bucket)
    (hl : bucket'.label = bucket.label) :
    SameIndex r { r with buckets := r.buckets.set i bucket' } :=
  ⟨rfl, rfl, rfl, rfl, rfl, map_set_same hb hl⟩

theorem sameIndex_modify {g : ShapeBucket ins outs → ShapeBucket ins outs}
    (hl : ∀ b, (g b).label = b.label) :
    SameIndex r { r with buckets := r.buckets.modify i g } :=
  ⟨rfl, rfl, rfl, rfl, rfl, map_modify_same hl⟩

theorem sameIndex_hot {hot : Option Nat} : SameIndex r { r with hotBucket := hot } :=
  ⟨rfl, rfl, rfl, rfl, rfl, rfl⟩

theorem sameIndex_reclaim : SameIndex r (reclaimDroppedRuns r).1 := stable_sameIndex.lanes.reclaim

theorem sameIndex_touch : SameIndex r (touch r i) := stable_sameIndex.touch

theorem sameIndex_detachLane (r : DynamicIoRuntime ins outs) (bucketId : PreparedBucketId) :
    SameIndex r (detachLane r bucketId).1 :=
  stable_sameIndex.lanes.detachLane r bucketId

theorem sameIndex_enqueuePrepared (r : DynamicIoRuntime ins outs) (bucketId : PreparedBucketId)
    (n : EnqueueNative) : SameIndex r (enqueuePrepared f r bucketId n).1 :=
  stable_sameIndex.lanes.enqueuePrepared r bucketId n

theorem sameIndex_completeOwned {α : Type} {run : OwnedDynamicIoRun ins outs} {n : Native}
    {consume : ServingLane ins outs → Except Error α} :
    SameIndex r (completeOwned f r run n consume).1 :=
  stable_sameIndex.lanes.completeOwned

theorem sameIndex_dropOwned {run : OwnedDynamicIoRun ins outs} {n : Native} :
    SameIndex r (dropOwned f r run n) :=
  stable_sameIndex.lanes.dropOwned

theorem sameIndex_bucketLane {j : Nat} {op : Lane.Op} {n : Native} :
    SameIndex r (bucketLane f r i j op n) :=
  stable_sameIndex.lanes.bucketLane

theorem sameIndex_bucketMut : SameIndex r (bucketMut r request).1 := stable_sameIndex.bucketMut

theorem bucketIds_dropBucket {b : ShapeBucket ins outs} :
    (r.dropBucket i b).bucketIds = swapRemove r.bucketIds i := map_swapRemove _

theorem shrinks_dropBucket {b : ShapeBucket ins outs} (hb : r.buckets[i]? = some b) :
    Shrinks r (r.dropBucket i b) := by
  have hi : r.bucketIds[i]? = some b.id := by simp [DynamicIoRuntime.bucketIds, hb]
  have hkeys : (r.dropBucket i b).keys = swapRemove r.keys i := map_swapRemove _
  have hlabels : (r.dropBucket i b).labels = swapRemove r.labels i := map_swapRemove _
  refine ⟨rfl, rfl, rfl, rfl, ?_, ?_, ?_, ?_⟩
  · rw [hlabels]
    exact fun _ h => mem_of_mem_swapRemove h
  · intro hc
    refine ⟨bucketIds_dropBucket ▸ (remove_spec hc.indexed hi).1, ?_, ?_⟩
    · rw [hkeys]
      exact nodup_swapRemove hc.keys
    · have := hc.bound
      simp only [DynamicIoRuntime.dropBucket, length_swapRemove]
      omega
  · exact fun hc => (remove_spec hc.indexed hi).2.issued
  · exact fun hc ha => bucketIds_dropBucket ▸ (remove_spec hc.indexed hi).2.accounted ha

theorem shrinks_retired (b : ShapeBucket ins outs) : Shrinks r (r.retired b) := by
  obtain ⟨rb, fo, rr, h⟩ := retired_eq r b
  rw [h]
  exact SameIndex.shrinks ⟨rfl, rfl, rfl, rfl, rfl, rfl⟩

theorem shrinks_retireBucketAt {n : Nat → Native} : Shrinks r (retireBucketAt f r i n).1 := by
  rcases retireBucketAt_cases (f := f) r i n with
    ⟨h, -⟩ | ⟨b, hb, -, h⟩ <;> rw [h]
  · exact .refl
  · exact (shrinks_dropBucket hb).trans (shrinks_retired _)

theorem shrinks_drained : Shrinks r r.drained := by
  refine ⟨rfl, rfl, rfl, rfl, List.nil_subset _, ?_, ?_, ?_⟩
  · intro hc
    obtain ⟨ht, -⟩ := retire_all hc.indexed.tracked
    refine ⟨⟨?_, ht.free_nodup, ht.vacant, ht.bound, ht.size⟩, ?_, ?_⟩
    all_goals simp [DynamicIoRuntime.drained, DynamicIoRuntime.bucketIds, DynamicIoRuntime.keys]
  · exact fun hc => (retire_all hc.indexed.tracked).2.issued
  · exact fun hc ha => (retire_all hc.indexed.tracked).2.accounted ha

theorem shrinks_clearBuckets {n : Nat → Nat → Native} : Shrinks r (clearBuckets f r n).1 := by
  refine sameIndex_reclaim.shrinks.trans ?_
  unfold clearBuckets
  dsimp only
  split
  · exact .refl
  · have hd : ∀ r : DynamicIoRuntime ins outs,
        Shrinks r (drainActiveBucketsAndReleaseGraphs f r n).1 := by
      intro r
      obtain ⟨fo, rr, h⟩ := drain_eq (f := f) r n
      rw [h]
      exact shrinks_drained.trans (SameIndex.shrinks ⟨rfl, rfl, rfl, rfl, rfl, rfl⟩)
    refine Shrinks.trans (SameIndex.shrinks ?_)
      ((hd (waitForRetiredBuckets { (reclaimDroppedRuns r).1 with hotBucket := none })).trans ?_)
    · exact ⟨rfl, rfl, rfl, rfl, rfl, rfl⟩
    · split <;> rename_i h <;> rw [h] <;> exact .refl

theorem shrinks_removeBucket {n : Nat → Native} : Shrinks r (removeBucket f r request n).1 := by
  refine sameIndex_reclaim.shrinks.trans ?_
  unfold removeBucket
  dsimp only
  split
  · exact .refl
  · split
    · exact .refl
    · exact sameIndex_hot.shrinks.trans shrinks_retireBucketAt

theorem shrinks_evict (r : DynamicIoRuntime ins outs) (n : Nat → Native) :
    Shrinks r (evictOneBucketIfFull f r n).1 := by
  have hot : Shrinks r { r with hotBucket := none } := sameIndex_hot.shrinks
  rcases evict_cases (f := f) r n with
    ⟨-, h⟩ | ⟨-, ⟨e, h⟩ | ⟨e, h⟩ | ⟨i, b, hb, -, h⟩⟩ <;> rw [h]
  · exact .refl
  · exact .refl
  · exact hot
  · exact hot.trans (Shrinks.trans (shrinks_dropBucket hb) (shrinks_retired _))

theorem evict_room {n : Nat → Native} {r' : DynamicIoRuntime ins outs} (hc : Cached r)
    (h : evictOneBucketIfFull f r n = (r', .ok ())) :
    r'.buckets.length < r'.options.maxBuckets := by
  rcases evict_cases (f := f) r n with
    ⟨hlt, h'⟩ | ⟨-, ⟨e, h'⟩ | ⟨e, h'⟩ | ⟨i, b, hb, -, h'⟩⟩ <;> rw [h'] at h
  · obtain rfl := (Prod.mk.inj h).1
    exact hlt
  · cases (Prod.mk.inj h).2
  · cases (Prod.mk.inj h).2
  · obtain rfl := (Prod.mk.inj h).1
    have hlt := (List.getElem?_eq_some_iff.mp hb).1
    have := hc.bound
    simp only [retired_buckets, retired_options, DynamicIoRuntime.dropBucket, length_swapRemove]
    omega

theorem sameIndex_lookupBucket (r : DynamicIoRuntime ins outs) (request : ShapeKey ins outs)
    (allowCreate : Bool) (released : PreparedBucketId → Bool) :
    SameIndex r (lookupBucket r request allowCreate released).1 := by
  refine sameIndex_reclaim.trans ?_
  have hreap : ∀ r : DynamicIoRuntime ins outs, SameIndex r (reapRetiredBuckets r released) :=
    fun _ => ⟨rfl, rfl, rfl, rfl, rfl, rfl⟩
  rcases lookupBucket_cases (r := r) request allowCreate released rfl with
    ⟨-, e, h⟩ | ⟨-, e, h⟩ | ⟨i, b, -, -, h⟩ | ⟨-, -, h⟩ <;> rw [h]
  · exact .refl
  · exact hreap _
  · exact (hreap _).trans sameIndex_touch
  · exact hreap _

theorem shrinks_prepareBucket (r : DynamicIoRuntime ins outs) (n : CreateNative) :
    Shrinks r (prepareBucket f r n).1 := by
  have he := shrinks_evict (f := f) r n.fence
  rcases prepareBucket_cases (f := f) r n with ⟨-, e, h⟩ | ⟨r', e, hr, h⟩ | ⟨r', hr, h⟩ <;>
    rw [h]
  · exact .refl
  · rw [hr] at he
    exact he
  · rw [hr] at he
    exact he

theorem shrinks_lookup {allowCreate : Bool} {n : CreateNative}
    (h : lookupBucket r request allowCreate n.released = (r', .ok none)) : Shrinks r r' := by
  have hs := (sameIndex_lookupBucket r request allowCreate n.released).shrinks
  rw [h] at hs
  exact hs

/-- A creation starts with room for a bucket whose key is not cached. -/
theorem creates_shrinks {allowCreate : Bool} {n : CreateNative}
    {lanes : List Lane.ServingLane × Option Int}
    (h : Creates f r request allowCreate n r' lanes) : Shrinks r r' ∧ request ∉ r'.keys ∧
      (Cached r → r'.buckets.length < r'.options.maxBuckets) := by
  obtain ⟨r₁, hl, hev, -⟩ := creates_cases h
  have hs := shrinks_lookup hl
  have he := shrinks_evict (f := f) r₁ n.fence
  rw [hev] at he
  obtain ⟨-, hno, -⟩ := lookupBucket_miss hl
  exact ⟨hs.trans he, fun hk => hno (he.keys hk), fun hc => evict_room (hs.cached hc) hev⟩

/-- A bucket request keeps the buckets or loses some, or creates one. -/
theorem getOrCreate_cases (r : DynamicIoRuntime ins outs) (request : ShapeKey ins outs)
    (allowCreate : Bool) (n : CreateNative) :
    Shrinks r (getOrCreateBucketInner f r request allowCreate n).1 ∨
    ∃ r' lanes, Creates f r request allowCreate n r' lanes ∧
      getOrCreateBucketInner f r request allowCreate n =
        insertBucket r' request lanes.1 lanes.2 := by
  rcases getOrCreate_outcomes (f := f) r request allowCreate n with he | ⟨r₁, hl, he⟩ | hcr
  · rw [he]
    exact .inl (sameIndex_lookupBucket r request allowCreate n.released).shrinks
  · rw [he]
    exact .inl ((shrinks_lookup hl).trans (shrinks_prepareBucket r₁ n))
  · exact .inr hcr

/-- What a creation leaves behind: the cache with at most one bucket more, under a fresh id. -/
structure Inserts (r r' : DynamicIoRuntime ins outs) (request : ShapeKey ins outs) : Prop where
  name : r'.name = r.name
  laneCount : r'.laneCount = r.laneCount
  options : r'.options = r.options
  plan : r'.shapePlan = r.shapePlan
  labels : ∀ x ∈ r'.labels, x ∈ r.labels ∨ (¬ Issued r.toPreparedSlots x.1 ∧ x.2 = request)
  cached : Cached r'
  issued : ∀ id, Issued r.toPreparedSlots id → Issued r'.toPreparedSlots id
  ids : r.bucketIds <+: r'.bucketIds
  accounted : (nextSlot r.toPreparedSlots ≤ u32Max →
      nextSlot r.toPreparedSlots * r.laneCount < usizeBound) →
    Accounted r.toPreparedSlots r.bucketIds → Accounted r'.toPreparedSlots r'.bucketIds

theorem Inserts.keys (h : Inserts r r' request) : ∀ k ∈ r'.keys, k ∈ r.keys ∨ k = request := by
  rw [← map_snd_labels, ← map_snd_labels]
  intro k hk
  obtain ⟨x, hx, rfl⟩ := List.mem_map.mp hk
  rcases h.labels x hx with hx | ⟨-, hk⟩
  · exact .inl (List.mem_map_of_mem hx)
  · exact .inr hk

theorem Inserts.fresh (h : Inserts r r' request) :
    ∀ id ∈ r'.bucketIds, id ∈ r.bucketIds ∨ ¬ Issued r.toPreparedSlots id := by
  rw [← map_fst_labels, ← map_fst_labels]
  intro id hid
  obtain ⟨x, hx, rfl⟩ := List.mem_map.mp hid
  rcases h.labels x hx with hx | ⟨hid, -⟩
  · exact .inl (List.mem_map_of_mem hx)
  · exact .inr hid

theorem insertBucket_spec (lanes : List Lane.ServingLane) (graphId : Option Int) (hc : Cached r)
    (hk : request ∉ r.keys) (hlt : r.buckets.length < r.options.maxBuckets) :
    Inserts r (insertBucket r request lanes graphId).1 request := by
  rcases insertBucket_cases request lanes graphId hc.indexed with
     ⟨-, e, h⟩ | ⟨slots, id, ha, ⟨hge, e, h⟩ | ⟨-, h⟩⟩ <;> rw [h]
  · exact ⟨rfl, rfl, rfl, rfl, fun _ h => .inl h, ⟨hc.indexed, hc.keys, hc.bound⟩, fun _ h => h,
      List.prefix_rfl, fun _ h => h⟩
  · refine ⟨rfl, rfl, rfl, rfl, fun _ h => .inl h, ⟨⟨?_, ha.indexed.free_nodup,
      ha.indexed.vacant, ha.indexed.bound, ha.indexed.size⟩, hc.keys, hc.bound⟩, ha.issued,
      List.prefix_rfl, ?_⟩
    · intro i id' hid
      have hid : r.bucketIds[i]? = some id' := hid
      refine ha.indexed.entry i id' ?_
      rw [List.getElem?_append_left (List.getElem?_eq_some_iff.mp hid).1]
      exact hid
    · rw [← ha.slot]
      intro hno
      have := hno ha.slot_le
      omega
  · have hids : (r.pushed slots (r.newBucket request id lanes graphId)).bucketIds =
        r.bucketIds ++ [id] := List.map_append
    have hkeys : (r.pushed slots (r.newBucket request id lanes graphId)).keys =
        r.keys ++ [request] := List.map_append
    have hlabels : (r.pushed slots (r.newBucket request id lanes graphId)).labels =
        r.labels ++ [(id, request)] := List.map_append
    refine ⟨rfl, rfl, rfl, rfl, ?_, ⟨hids ▸ ha.indexed, ?_, ?_⟩, ha.issued, ?_, ?_⟩
    · intro x hx
      rw [hlabels] at hx
      rcases List.mem_append.mp hx with hx | hx
      · exact .inl hx
      · obtain rfl := List.mem_singleton.mp hx
        exact .inr ⟨ha.fresh, rfl⟩
    · rw [hkeys, List.nodup_append]
      refine ⟨hc.keys, List.nodup_singleton _, ?_⟩
      intro x hx y hy he
      obtain rfl := List.mem_singleton.mp hy
      exact hk (he ▸ hx)
    · rw [DynamicIoRuntime.pushed, List.length_append]
      exact hlt
    · rw [hids]
      exact List.prefix_append _ _
    · rw [hids]
      exact fun _ => ha.accounted

variable {s t u : State ins outs} {a : Op ins outs} {id : PreparedBucketId}

/-- The call creates a bucket, with `r'` the runtime right before `allocate_prepared_bucket_id`. -/
def CreatesAt (f : Features) (s : State ins outs) (a : Op ins outs) (request : ShapeKey ins outs)
    (r' : DynamicIoRuntime ins outs) : Prop :=
  ∃ allowCreate n lanes, a = .getOrCreateBucket request allowCreate n ∧
    Creates f s.runtime request allowCreate n r' lanes

theorem sameIndex_enqueueStep {n : EnqueueNative} :
    SameIndex s.runtime (step f s (.enqueuePrepared id n)).runtime := by
  have h := sameIndex_enqueuePrepared (f := f) s.runtime id n
  simp only [step]
  revert h
  obtain ⟨r', e | run⟩ := enqueuePrepared f s.runtime id n <;> exact fun h => h

theorem sameIndex_completeStep {k : Nat} {n : Native}
    {consume : ServingLane ins outs → Except Error Unit} :
    SameIndex s.runtime (step f s (.completeOwned k n consume)).runtime := by
  simp only [step]
  split
  · exact sameIndex_completeOwned
  · exact .refl

theorem sameIndex_dropStep {k : Nat} {n : Native} :
    SameIndex s.runtime (step f s (.dropOwned k n)).runtime := by
  simp only [step]
  split
  · exact sameIndex_dropOwned
  · exact .refl

/-- A call keeps the buckets or loses some, creates one, or installs a plan. -/
theorem step_cases (s : State ins outs) (a : Op ins outs) :
    Shrinks s.runtime (step f s a).runtime ∨
    (∃ plan, a = .installShapePlan plan ∧ (installShapePlan s.runtime plan).2 = .ok () ∧
      (step f s a).runtime = { s.runtime with shapePlan := some plan }) ∨
    ∃ r' request lanes graphId,
      CreatesAt f s a request r' ∧
      Shrinks s.runtime r' ∧ request ∉ r'.keys ∧
      (Cached s.runtime → r'.buckets.length < r'.options.maxBuckets) ∧
      (step f s a).runtime = (insertBucket r' request lanes graphId).1 := by
  cases a with
  | getOrCreateBucket request allowCreate n =>
    rcases getOrCreate_cases (f := f) s.runtime request allowCreate n with h | ⟨r', lanes, hcr, he⟩
    · exact .inl h
    · obtain ⟨hs, hk, hlt⟩ := creates_shrinks hcr
      exact .inr (.inr ⟨r', request, lanes.1, lanes.2, ⟨allowCreate, n, lanes, rfl, hcr⟩, hs,
        hk, hlt, congrArg Prod.fst he⟩)
  | bucketMut request => exact .inl sameIndex_bucketMut.shrinks
  | bucketLane i j op n => exact .inl sameIndex_bucketLane.shrinks
  | enqueuePrepared bucketId n => exact .inl sameIndex_enqueueStep.shrinks
  | completeOwned k n consume => exact .inl sameIndex_completeStep.shrinks
  | dropOwned k n => exact .inl sameIndex_dropStep.shrinks
  | runLane k op n => exact .inl .refl
  | reclaimDroppedRuns => exact .inl sameIndex_reclaim.shrinks
  | removeBucket request n => exact .inl shrinks_removeBucket
  | clearBuckets n => exact .inl shrinks_clearBuckets
  | installShapePlan plan =>
    rcases installShapePlan_cases s.runtime plan with ⟨e, h⟩ | ⟨-, -, -, h⟩
    · refine .inl ?_
      rw [step, h]
      exact .refl
    · exact .inr (.inl ⟨plan, rfl, congrArg Prod.snd h, congrArg Prod.fst h⟩)

theorem cached_initial (h : Initial f s) : Cached s.runtime ∧
    Accounted s.runtime.toPreparedSlots s.runtime.bucketIds := by
  obtain ⟨name, mode, laneCount, options, -, -, rfl⟩ := initial_cases h
  exact ⟨⟨indexed_new, List.nodup_nil, Nat.zero_le _⟩, accounted_new⟩

theorem cached_step (h : Cached s.runtime) : Cached (step f s a).runtime := by
  rcases step_cases (f := f) s a with
    hs | ⟨plan, -, -, he⟩ | ⟨r', request, lanes, graphId, -, hs, hk, hlt, he⟩
  · exact hs.cached h
  · exact he ▸ ⟨h.indexed, h.keys, h.bound⟩
  · rw [he]
    exact (insertBucket_spec lanes graphId (hs.cached h) hk (hlt h)).cached

theorem cached_reachable (h : Reachable f s) : Cached s.runtime := by
  induction h with
  | initial h => exact (cached_initial h).1
  | step _ h ih => exact h ▸ cached_step ih

/-- An id handed out stays so, and is not handed out again. -/
theorem issued_step (h : Cached s.runtime) (hi : Issued s.runtime.toPreparedSlots id) :
    Issued (step f s a).runtime.toPreparedSlots id ∧
      (id ∉ s.runtime.bucketIds → id ∉ (step f s a).runtime.bucketIds) := by
  rcases step_cases (f := f) s a with
    hs | ⟨plan, -, -, he⟩ | ⟨r', request, lanes, graphId, -, hs, hk, hlt, he⟩
  · exact ⟨hs.issued h id hi, fun hid hid' => hid (hs.ids hid')⟩
  · exact he ▸ ⟨hi, fun hid => hid⟩
  · rw [he]
    have hins := insertBucket_spec lanes graphId (hs.cached h) hk (hlt h)
    refine ⟨hins.issued id (hs.issued h id hi), ?_⟩
    intro hid hid'
    rcases hins.fresh id hid' with hid'' | hfresh
    · exact hid (hs.ids hid'')
    · exact hfresh (hs.issued h id hi)

theorem issued_trace {xs : List (Op ins outs)} (h : Cached s.runtime)
    (hi : Issued s.runtime.toPreparedSlots id) (ht : Lts.Trace (dynamicLts f ins outs) s xs t) :
    Cached t.runtime ∧ Issued t.runtime.toPreparedSlots id ∧
      (id ∉ s.runtime.bucketIds → id ∉ t.runtime.bucketIds) := by
  induction ht with
  | refl => exact ⟨h, hi, fun h => h⟩
  | snoc _ hstep ih =>
    obtain ⟨hc, hi, hg⟩ := ih
    obtain ⟨hi', hg'⟩ := issued_step (f := f) hc hi
    exact ⟨hstep ▸ cached_step hc, hstep ▸ hi', fun hid => hstep ▸ hg' (hg hid)⟩

/-- The call creates a bucket in a slot so high that the first recovery slot of its lanes is past
`usize::MAX`. -/
def SlotOverflow (f : Features) (s : State ins outs) (a : Op ins outs) : Prop :=
  ∃ request r', CreatesAt f s a request r' ∧ nextSlot r'.toPreparedSlots ≤ u32Max ∧
    usizeBound ≤ nextSlot r'.toPreparedSlots * r'.laneCount

theorem accounted_step (h : Cached s.runtime) (hno : ¬ SlotOverflow f s a)
    (ha : Accounted s.runtime.toPreparedSlots s.runtime.bucketIds) :
    Accounted (step f s a).runtime.toPreparedSlots (step f s a).runtime.bucketIds := by
  rcases step_cases (f := f) s a with
    hs | ⟨plan, -, -, he⟩ | ⟨r', request, lanes, graphId, hcr, hs, hk, hlt, he⟩
  · exact hs.accounted h ha
  · exact he ▸ ha
  · rw [he]
    refine (insertBucket_spec lanes graphId (hs.cached h) hk (hlt h)).accounted ?_
      (hs.accounted h ha)
    intro hle
    exact Nat.lt_of_not_le fun hge => hno ⟨request, r', hcr, hle, hge⟩

/-- The tables of the cache agree: the slots lead to the cached buckets and nowhere else, and every
other slot is free once, or exhausted. -/
structure Represented (r : DynamicIoRuntime ins outs) : Prop where
  keys : (r.buckets.map ShapeBucket.key).Nodup
  bound : r.buckets.length ≤ r.options.maxBuckets
  slot : ∀ (i : Nat) (b : ShapeBucket ins outs), r.buckets[i]? = some b →
    r.preparedSlots[b.id.slot]? = some ⟨b.id.generation, some i⟩
  other : ∀ (slot : Nat) (e : PreparedBucketSlot), r.preparedSlots[slot]? = some e →
    (∀ b ∈ r.buckets, b.id.slot ≠ slot) → e.bucketIndex = none ∧
      (r.freePreparedSlots.count slot = 1 ∨ e.generation = u32Max)
  resolves : ∀ (id : PreparedBucketId) (i : Nat), r.bucketIndex id = some i ↔
    ∃ b, r.buckets[i]? = some b ∧ b.id = id

theorem represented (hc : Cached r) (ha : Accounted r.toPreparedSlots r.bucketIds) :
    Represented r := by
  refine ⟨hc.keys, hc.bound, ?_, ?_, ?_⟩
  · intro i b hb
    exact hc.indexed.entry i b.id (by simp [DynamicIoRuntime.bucketIds, hb])
  · intro slot e he hno
    rcases ha slot e he with ⟨id, hid, hs⟩ | ⟨hnone, hfree⟩
    · obtain ⟨b, hb, rfl⟩ := List.mem_map.mp hid
      exact absurd hs (hno b hb)
    · exact ⟨hnone, hfree.imp_left (List.count_eq_one_of_mem hc.indexed.free_nodup)⟩
  · intro id i
    rw [DynamicIoRuntime.bucketIndex, preparedBucketIndex_iff hc.indexed]
    simp [DynamicIoRuntime.bucketIds]

/-- As long as no creation overflows its recovery slots: the cache is represented as it should be,
and the id of a bucket that is no longer cached never resolves again. -/
theorem cache_represented
    (h : Lts.Reachable ((dynamicLts f ins outs).restrict fun s a => ¬ SlotOverflow f s a) s) :
    Represented s.runtime ∧ ∀ b ∈ s.runtime.buckets, ∀ xs t ys u,
      Lts.Trace (dynamicLts f ins outs) s xs t → (∀ b' ∈ t.runtime.buckets, b'.id ≠ b.id) →
      Lts.Trace (dynamicLts f ins outs) t ys u → u.runtime.bucketIndex b.id = none := by
  have hinv : Cached s.runtime ∧ Accounted s.runtime.toPreparedSlots s.runtime.bucketIds := by
    induction h with
    | initial h => exact cached_initial h
    | step _ h ih => exact h.2 ▸ ⟨cached_step ih.1, accounted_step ih.1 h.1 ih.2⟩
  refine ⟨represented hinv.1 hinv.2, ?_⟩
  intro b hb xs t ys u hst hgone htu
  have hid : b.id ∈ s.runtime.bucketIds := List.mem_map.mpr ⟨b, hb, rfl⟩
  obtain ⟨hct, hit, -⟩ := issued_trace hinv.1 (hinv.1.indexed.issued hid) hst
  obtain ⟨hcu, -, hnot⟩ := issued_trace hct hit htu
  refine (preparedBucketIndex_none hcu.indexed).mpr (hnot ?_)
  intro hmem
  obtain ⟨b', hb', he⟩ := List.mem_map.mp hmem
  exact hgone b' hb' he

/-- The condition is exact: every overflowing creation leaves a slot that leads to no bucket. -/
theorem slotOverflow_step (h : Cached s.runtime) (ho : SlotOverflow f s a) :
    ¬ Represented (step f s a).runtime := by
  obtain ⟨request, r', ⟨allowCreate, n, lanes, rfl, hcr⟩, hle, hge⟩ := ho
  have hc := (creates_shrinks hcr).1.cached h
  have hstep : (step f s (.getOrCreateBucket request allowCreate n)).runtime =
      (insertBucket r' request lanes.1 lanes.2).1 := congrArg Prod.fst (getOrCreate_creates hcr)
  rw [hstep]
  rcases insertBucket_cases request lanes.1 lanes.2 hc.indexed with
     ⟨hlt, -⟩ | ⟨slots, id, ha, ⟨-, e, he⟩ | ⟨hlt, -⟩⟩
  · omega
  · rw [he]
    intro hrep
    have hid := ha.indexed.entry r'.bucketIds.length id (by simp)
    refine absurd (hrep.other id.slot _ hid fun b hb hs => ?_).1 (by simp)
    have hmem : b.id ∈ r'.bucketIds := List.mem_map.mpr ⟨b, hb, rfl⟩
    have heq : b.id = id := ha.indexed.slot_inj (by simp [hmem]) (by simp) hs
    exact ha.fresh (heq ▸ hc.indexed.issued hmem)
  · rw [ha.slot] at hlt
    omega

/-- The shapes of a request with one input and one output of one element. -/
def unitKey : ShapeKey 1 1 := ⟨⟨[[1]], rfl⟩, ⟨[[1]], rfl⟩⟩

/-- The shapes of a request with one input and one output of two elements. -/
def pairKey : ShapeKey 1 1 := ⟨⟨[[2]], rfl⟩, ⟨[[2]], rfl⟩⟩

def tripleKey : ShapeKey 1 1 := ⟨⟨[[3]], rfl⟩, ⟨[[3]], rfl⟩⟩

theorem cache_represented_one : ∃ s : State 1 1, Represented s.runtime ∧
    s.runtime.buckets.map ShapeBucket.key = [unitKey] ∧
    s.runtime.bucketIndex ⟨0, 1⟩ = some 0 := by
  have hinit : Initial ⟨false, false⟩ ⟨emptyRuntime 1 1 2 ⟨[], []⟩ 0, []⟩ :=
    emptyRuntime_initial (by decide) (by decide)
  have hno : ¬ SlotOverflow ⟨false, false⟩ ⟨emptyRuntime 1 1 2 ⟨[], []⟩ 0, []⟩
      (.getOrCreateBucket unitKey true .success) := by
    rintro ⟨request, r', ⟨allowCreate, n, lanes, ha, r₁, hl, hp⟩, -, hge⟩
    cases ha
    cases hl
    cases hp
    exact absurd hge (by decide)
  exact ⟨_, (cache_represented (.step (.initial hinit) ⟨hno, rfl⟩)).1, rfl, rfl⟩

/-- A bucket of 2^33 lanes requested after 2^31 slots are exhausted: the call fails, and its slot
leads to a bucket that does not exist. -/
theorem cache_represented_fails :
    ∃ s : State 1 1, Reachable ⟨false, false⟩ s ∧ ¬ Represented s.runtime := by
  obtain ⟨tick, hr⟩ := worn_exhausted (f := ⟨false, false⟩) (k := 2 ^ 31) unitKey
    (show 2 ^ 33 ≠ 0 by decide) (by decide) (by decide) (by decide)
  have hstep : step ⟨false, false⟩ ⟨emptyRuntime 1 1 (2 ^ 33) (exhaustedSlots (2 ^ 31)) tick, []⟩
      (.getOrCreateBucket unitKey true .success) =
      ⟨nextTick (emptyRuntime 1 1 (2 ^ 33) (heldSlots (2 ^ 31) 1) tick), []⟩ := by
    simp only [step, create_emptyRuntime]
    rw [insert_emptyRuntime (allocate_exhaustedSlots (by decide)), if_neg (by decide)]
  refine ⟨_, .step hr hstep, ?_⟩
  intro hrep
  have hslot : (heldSlots (2 ^ 31) 1).preparedSlots[2 ^ 31]? = some ⟨1, some 0⟩ := by
    rw [heldSlots, List.getElem?_append_right (by rw [List.length_replicate]),
      List.length_replicate, Nat.sub_self]
    rfl
  have hno : ∀ b ∈ (nextTick (emptyRuntime 1 1 (2 ^ 33) (heldSlots (2 ^ 31) 1) tick)).buckets,
      b.id.slot ≠ 2 ^ 31 := fun b hb => absurd hb List.not_mem_nil
  exact absurd (hrep.other _ _ hslot hno).1 (by decide)

end Zrt.Dynamic
