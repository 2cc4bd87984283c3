import Zrt.Dynamic.System
import Zrt.ShapePlan.Safety

/-! What each method of the runtime can do, case by case. -/
namespace Zrt.Dynamic

open Lane (Features Native)
open ShapePlan (SealedPlan zipEqual_iff)
open SwapRemove

variable {ins outs : Nat} {f : Features} {r : DynamicIoRuntime ins outs} {i : Nat}
  {id : PreparedBucketId} {lane : ServingLane ins outs}

/-- A runtime starts with at least one lane, room for a bucket, and nothing else. -/
theorem initial_cases {s : State ins outs} (h : Initial f s) :
    ∃ name mode laneCount options, laneCount ≠ 0 ∧ options.maxBuckets * laneCount < usizeBound ∧
      s = ⟨.fresh name mode laneCount options, []⟩ := by
  obtain ⟨name, mode, laneCount, options, hr, hruns⟩ := h
  obtain ⟨r, runs⟩ := s
  unfold DynamicIoRuntime.new at hr
  split at hr
  · cases hr
  · rename_i hl
    split at hr
    · cases hr
    · rename_i options _
      split at hr
      · cases hr
      · split at hr
        · rename_i hb
          obtain rfl := Except.ok.inj hr
          obtain rfl := hruns
          exact ⟨name, mode, laneCount, options, hl, hb, rfl⟩
        · cases hr

/-- An id only resolves to a bucket that carries it. -/
theorem bucketIndex_some (h : r.bucketIndex id = some i) :
    ∃ b, r.buckets[i]? = some b ∧ b.id = id := by
  simp only [DynamicIoRuntime.bucketIndex, preparedBucketIndex, Option.filter_eq_some_iff,
    decide_eq_true_eq, DynamicIoRuntime.bucketIds, List.getElem?_map, Option.map_eq_some_iff] at h
  exact h.2

/-- The lane and the count of a bucket that gets a lane back. -/
def ShapeBucket.takeBack (b : ShapeBucket ins outs) (lane : ServingLane ins outs) :
    ShapeBucket ins outs :=
  { b with detachedLanes := b.detachedLanes - 1, lanes := b.lanes ++ [lane] }

/-- The runtime with bucket `i` written back. -/
def DynamicIoRuntime.setBucket (r : DynamicIoRuntime ins outs) (i : Nat)
    (b : ShapeBucket ins outs) : DynamicIoRuntime ins outs :=
  { r with buckets := r.buckets.set i b }

def DynamicIoRuntime.lose (r : DynamicIoRuntime ins outs) (d : RecoveredDynamicLane ins outs) :
    DynamicIoRuntime ins outs :=
  { r with lost := d :: r.lost }

/-- A returned lane is refused, leaked where the accounting failed, or back in its bucket. -/
theorem returnDetachedLane_cases (r : DynamicIoRuntime ins outs) (id : PreparedBucketId)
    (lane : ServingLane ins outs) :
    (r.bucketIndex id = none ∧ ∃ e, returnDetachedLane r id lane = (r, .error e)) ∨
    ∃ i b, r.bucketIndex id = some i ∧ r.buckets[i]? = some b ∧ b.id = id ∧
      (((b.detachedLanes = 0 ∨ r.laneCount ≤ b.lanes.length) ∧
          ∃ e, returnDetachedLane r id lane = (r.lose ⟨lane, id⟩, .error e)) ∨
        (b.detachedLanes ≠ 0 ∧ b.lanes.length < r.laneCount ∧
          returnDetachedLane r id lane = (r.setBucket i (b.takeBack lane), .ok ()))) := by
  cases hi : r.bucketIndex id with
  | none => exact .inl ⟨rfl, _, by simp [returnDetachedLane, hi]; rfl⟩
  | some i =>
    obtain ⟨b, hb, hid⟩ := bucketIndex_some hi
    refine .inr ⟨i, b, rfl, hb, hid, ?_⟩
    by_cases hc : b.detachedLanes = 0 ∨ r.laneCount ≤ b.lanes.length
    · exact .inl ⟨hc, _, by simp [returnDetachedLane, hi, hb, hc]; exact ⟨rfl, rfl⟩⟩
    · refine .inr ⟨fun h => hc (.inl h), Nat.lt_of_not_le fun h => hc (.inr h), ?_⟩
      simp [returnDetachedLane, hi, hb, hc, DynamicIoRuntime.setBucket, ShapeBucket.takeBack]

/-- A bucket without its last lane. -/
def ShapeBucket.giveOut (b : ShapeBucket ins outs) : ShapeBucket ins outs :=
  { b with lanes := b.lanes.dropLast, detachedLanes := b.detachedLanes + 1 }

/-- A detached lane is the last of the bucket the id names. -/
theorem detachLane_cases (r : DynamicIoRuntime ins outs) (id : PreparedBucketId) :
    (∃ e, detachLane r id = (r, .error e)) ∨
    ∃ i b lane, r.bucketIndex id = some i ∧ r.buckets[i]? = some b ∧ b.id = id ∧
      b.lanes.getLast? = some lane ∧
        detachLane r id = (r.setBucket i b.giveOut, .ok (lane, id)) := by
  cases hi : r.bucketIndex id with
  | none => exact .inl ⟨_, by simp [detachLane, hi]; rfl⟩
  | some i =>
    obtain ⟨b, hb, rfl⟩ := bucketIndex_some hi
    by_cases hc : b.detachedLanes + b.lanes.length ≠ r.laneCount
    · exact .inl ⟨_, by simp [detachLane, hi, hb, hc]; rfl⟩
    · cases hl : b.lanes.getLast? with
      | none => exact .inl ⟨_, by simp [detachLane, hi, hb, hc, hl]; rfl⟩
      | some lane =>
        refine .inr ⟨i, b, lane, rfl, hb, rfl, hl, ?_⟩
        simp [detachLane, hi, hb, hc, hl, DynamicIoRuntime.setBucket, ShapeBucket.giveOut]

/-- The runtime with the recovery cell at `slot` emptied. -/
def DynamicIoRuntime.emptyCell (r : DynamicIoRuntime ins outs) (slot : Nat) :
    DynamicIoRuntime ins outs :=
  { r with recovery := { r.recovery with slots := r.recovery.slots.set slot none } }

/-- A recovered lane is leaked where the accounting failed, or back in its bucket. -/
theorem reclaimSlot_cases (r : DynamicIoRuntime ins outs) (slot : Nat) :
    ((∀ d, r.recovery.slots[slot]? ≠ some (some d)) ∧ reclaimSlot r slot = (r, 0)) ∨
    ∃ d, r.recovery.slots[slot]? = some (some d) ∧
      ((((r.bucketIndex d.bucketId = none ∨ ∃ i b, r.bucketIndex d.bucketId = some i ∧
            r.buckets[i]? = some b ∧ b.detachedLanes = 0)) ∧
          reclaimSlot r slot = ((r.emptyCell slot).lose d, 0)) ∨
        ∃ i b, r.bucketIndex d.bucketId = some i ∧ r.buckets[i]? = some b ∧ b.id = d.bucketId ∧
          b.detachedLanes ≠ 0 ∧
          reclaimSlot r slot = ((r.emptyCell slot).setBucket i (b.takeBack d.lane), 1)) := by
  cases hs : (r.recovery.slots[slot]?).join with
  | none =>
    refine .inl ⟨fun d hd => ?_, by simp [reclaimSlot, hs]⟩
    simp [hd] at hs
  | some d =>
    refine .inr ⟨d, Option.join_eq_some_iff.mp hs, ?_⟩
    have hidx : ∀ recovery : RecoverySlots ins outs,
        { r with recovery := recovery }.bucketIndex d.bucketId = r.bucketIndex d.bucketId :=
      fun _ => rfl
    cases hi : r.bucketIndex d.bucketId with
    | none =>
      refine .inl ⟨.inl rfl, ?_⟩
      simp [reclaimSlot, hs, hidx, hi, DynamicIoRuntime.emptyCell, DynamicIoRuntime.lose]
    | some i =>
      obtain ⟨b, hb, hid⟩ := bucketIndex_some hi
      by_cases hc : b.detachedLanes = 0
      · refine .inl ⟨.inr ⟨i, b, rfl, hb, hc⟩, ?_⟩
        simp [reclaimSlot, hs, hidx, hi, hb, hc, DynamicIoRuntime.emptyCell, DynamicIoRuntime.lose]
      · refine .inr ⟨i, b, rfl, hb, hid, hc, ?_⟩
        simp [reclaimSlot, hs, hidx, hi, hb, hc, DynamicIoRuntime.emptyCell,
          DynamicIoRuntime.setBucket, ShapeBucket.takeBack]

/-- The runtime without the bucket at `index`, fenced or not. -/
def DynamicIoRuntime.dropBucket (r : DynamicIoRuntime ins outs) (index : Nat)
    (b : ShapeBucket ins outs) : DynamicIoRuntime ins outs :=
  { r with
    toPreparedSlots := removePreparedBucketId r.toPreparedSlots r.bucketIds index b.id
    buckets := swapRemove r.buckets index }

/-- What retiring a bucket records beside its removal. -/
def DynamicIoRuntime.retired (r : DynamicIoRuntime ins outs) (b : ShapeBucket ins outs) :
    DynamicIoRuntime ins outs :=
  if b.anyInFlight then { r with forgotten := b :: r.forgotten }
  else match b.graphId with
    | some id => { r with
        retiredBuckets := r.retiredBuckets ++ [b]
        releaseRequests := r.releaseRequests ++ [id] }
    | none => r

/-- Only a bucket without detached lanes is retired. -/
theorem retireBucketAt_cases (r : DynamicIoRuntime ins outs) (index : Nat) (n : Nat → Native) :
    (retireBucketAt f r index n = (r, false) ∧
      ∀ b, r.buckets[index]? = some b → b.detachedLanes ≠ 0) ∨
    ∃ b, r.buckets[index]? = some b ∧ b.detachedLanes = 0 ∧ retireBucketAt f r index n =
      ((r.dropBucket index b).retired (b.finishInFlight f n), true) := by
  cases hb : r.buckets[index]? with
  | none => exact .inl ⟨by simp [retireBucketAt, hb], by simp⟩
  | some b =>
    by_cases hc : b.detachedLanes ≠ 0
    · exact .inl ⟨by simp [retireBucketAt, hb, hc], by simpa using hc⟩
    · refine .inr ⟨b, rfl, not_not.mp hc, ?_⟩
      have hid : (b.finishInFlight f n).id = b.id := rfl
      simp only [retireBucketAt, hb, hc, if_false, hid]
      by_cases ha : (b.finishInFlight f n).anyInFlight = true
      · simp [ha, DynamicIoRuntime.retired, DynamicIoRuntime.dropBucket]
      · cases hg : (b.finishInFlight f n).graphId <;>
          simp [ha, hg, DynamicIoRuntime.retired, DynamicIoRuntime.dropBucket]

/-- The bucket evicted is in the cache and has no lane detached. -/
theorem oldestIdleBucket_some (h : oldestIdleBucket r = some i) :
    ∃ b, r.buckets[i]? = some b ∧ b.detachedLanes = 0 := by
  simp only [oldestIdleBucket, Option.map_eq_some_iff] at h
  obtain ⟨⟨b, j⟩, hb, rfl⟩ := h
  have hm := List.argmin_mem hb
  rw [List.mem_filter, List.mem_zipIdx_iff_getElem?] at hm
  exact ⟨b, hm.1, by simpa using hm.2⟩

/-- Retiring a bucket writes nothing but its records. -/
theorem retired_eq (r : DynamicIoRuntime ins outs) (b : ShapeBucket ins outs) :
    ∃ rb fo rr, r.retired b =
      { r with retiredBuckets := rb, forgotten := fo, releaseRequests := rr } := by
  unfold DynamicIoRuntime.retired
  split
  · exact ⟨_, _, _, rfl⟩
  · split <;> exact ⟨_, _, _, rfl⟩

@[simp] theorem retired_buckets (b : ShapeBucket ins outs) :
    (r.retired b).buckets = r.buckets := by
  obtain ⟨rb, fo, rr, h⟩ := retired_eq r b
  rw [h]

@[simp] theorem retired_options (b : ShapeBucket ins outs) :
    (r.retired b).options = r.options := by
  obtain ⟨rb, fo, rr, h⟩ := retired_eq r b
  rw [h]

theorem foldl_drainBucket_eq (r : DynamicIoRuntime ins outs) (bs : List (ShapeBucket ins outs)) :
    ∃ fo rr, bs.foldl drainBucket r = { r with forgotten := fo, releaseRequests := rr } := by
  induction bs generalizing r with
  | nil => exact ⟨_, _, rfl⟩
  | cons b bs ih =>
    obtain ⟨fo, rr, h⟩ := ih (drainBucket r b)
    have hb : ∃ fo' rr', drainBucket r b = { r with forgotten := fo', releaseRequests := rr' } := by
      unfold drainBucket
      split
      · exact ⟨_, _, rfl⟩
      · split <;> exact ⟨_, _, rfl⟩
    obtain ⟨fo', rr', hb⟩ := hb
    exact ⟨fo, rr, by rw [List.foldl_cons, h, hb]⟩

/-- The runtime with every id retired and no bucket left. -/
def DynamicIoRuntime.drained (r : DynamicIoRuntime ins outs) : DynamicIoRuntime ins outs :=
  { r with
    toPreparedSlots := r.bucketIds.foldl retirePreparedBucketId r.toPreparedSlots
    buckets := [] }

theorem drain_eq (r : DynamicIoRuntime ins outs) (n : Nat → Nat → Native) :
    ∃ fo rr, (drainActiveBucketsAndReleaseGraphs f r n).1 =
      { r.drained with forgotten := fo, releaseRequests := rr } :=
  foldl_drainBucket_eq _ _

theorem ShapeKey.matches_iff {key request : ShapeKey ins outs} :
    key.matches request ↔ key = request := by
  obtain ⟨inputs, outputs⟩ := key
  obtain ⟨inputs', outputs'⟩ := request
  have hi : inputs.toList = inputs'.toList ↔ inputs = inputs' :=
    ⟨fun h => List.Vector.toList_injective h, fun h => h ▸ rfl⟩
  have ho : outputs.toList = outputs'.toList ↔ outputs = outputs' :=
    ⟨fun h => List.Vector.toList_injective h, fun h => h ▸ rfl⟩
  simp [ShapeKey.matches, zipEqual_iff, hi, ho]

variable {request : ShapeKey ins outs}

/-- The shortcut through the hot bucket finds what the search would. -/
theorem findBucketIndex_some (h : findBucketIndex r request = some i) :
    ∃ b, r.buckets[i]? = some b ∧ b.key = request := by
  unfold findBucketIndex at h
  dsimp only at h
  split at h
  · rename_i j hj
    obtain rfl := Option.some.inj h
    split at hj
    · obtain ⟨-, hany⟩ := Option.filter_eq_some_iff.mp hj
      cases hb : r.buckets[j]? with
      | none => simp [hb] at hany
      | some b => exact ⟨b, rfl, ShapeKey.matches_iff.mp (by simpa [hb] using hany)⟩
    · cases hj
  · obtain ⟨hlt, hk, -⟩ := List.findIdx?_eq_some_iff_getElem.mp h
    exact ⟨_, List.getElem?_eq_getElem hlt, ShapeKey.matches_iff.mp hk⟩

theorem findBucketIndex_none (h : findBucketIndex r request = none) :
    request ∉ r.buckets.map ShapeBucket.key := by
  unfold findBucketIndex at h
  dsimp only at h
  split at h
  · cases h
  · intro hm
    obtain ⟨b, hb, hk⟩ := List.mem_map.mp hm
    have := List.findIdx?_eq_none_iff.mp h b hb
    rw [ShapeKey.matches_iff.mpr hk] at this
    cases this

/-- An eviction leaves room for one bucket, or fails. -/
theorem evict_cases (r : DynamicIoRuntime ins outs) (n : Nat → Native) :
    (r.buckets.length < r.options.maxBuckets ∧ evictOneBucketIfFull f r n = (r, .ok ())) ∨
    (r.options.maxBuckets ≤ r.buckets.length ∧ ((∃ e, evictOneBucketIfFull f r n = (r, .error e)) ∨
      (∃ e, evictOneBucketIfFull f r n = ({ r with hotBucket := none }, .error e)) ∨
      ∃ i b, r.buckets[i]? = some b ∧ b.detachedLanes = 0 ∧ evictOneBucketIfFull f r n =
        (({ r with hotBucket := none }.dropBucket i b).retired (b.finishInFlight f n),
          .ok ()))) := by
  unfold evictOneBucketIfFull
  rcases Nat.lt_or_ge r.buckets.length r.options.maxBuckets with hlt | hge
  · exact .inl ⟨hlt, if_pos hlt⟩
  · refine .inr ⟨hge, ?_⟩
    rw [if_neg (Nat.not_lt.mpr hge)]
    split
    · exact .inl ⟨_, rfl⟩
    · refine .inr ?_
      dsimp only
      split
      · exact .inl ⟨_, rfl⟩
      · rename_i i hi
        obtain ⟨b, hb, hd⟩ := oldestIdleBucket_some hi
        rcases retireBucketAt_cases (f := f) { r with hotBucket := none } i n with
          ⟨-, hne⟩ | ⟨b', hb', -, he⟩
        · exact absurd hd (hne b hb)
        · obtain rfl := Option.some.inj (hb.symm.trans hb')
          exact .inr ⟨i, b, hb, hd, by rw [he]⟩

/-- A lookup ends in an error, in a hit, or in a miss that may create. -/
theorem lookupBucket_cases (request : ShapeKey ins outs) (allowCreate : Bool)
    (released : PreparedBucketId → Bool) {r₁ : DynamicIoRuntime ins outs}
    (hr : (reclaimDroppedRuns r).1 = r₁) :
    (validatePlannedShape r₁ request ≠ .ok () ∧
      ∃ e, lookupBucket r request allowCreate released = (r₁, .error e)) ∨
    (request ∉ r₁.buckets.map ShapeBucket.key ∧ ∃ e,
      lookupBucket r request allowCreate released = (reapRetiredBuckets r₁ released, .error e)) ∨
    (∃ i b, r₁.buckets[i]? = some b ∧ b.key = request ∧
      lookupBucket r request allowCreate released =
        (touch (reapRetiredBuckets r₁ released) i, .ok (some i))) ∨
    (validatePlannedShape r₁ request = .ok () ∧
      request ∉ r₁.buckets.map ShapeBucket.key ∧
      lookupBucket r request allowCreate released =
        (reapRetiredBuckets r₁ released, .ok none)) := by
  unfold lookupBucket
  rw [hr]
  cases hv : validatePlannedShape r₁ request with
  | error e => exact .inl ⟨by simp, e, by simp only [hv]⟩
  | ok _ =>
    refine .inr ?_
    cases hf : findBucketIndex (reapRetiredBuckets r₁ released) request with
    | some i =>
      obtain ⟨b, hb, hk⟩ := findBucketIndex_some hf
      exact .inr (.inl ⟨i, b, hb, hk, by simp only [hv, hf]⟩)
    | none =>
      cases allowCreate with
      | true => exact .inr (.inr ⟨rfl, findBucketIndex_none hf, by simp only [hv, hf, if_true]⟩)
      | false => exact .inl ⟨findBucketIndex_none hf, _, by simp only [hv, hf]; rfl⟩

/-- A miss that may create was admitted by the plan, and its key is not cached. -/
theorem lookupBucket_miss {allowCreate : Bool} {released : PreparedBucketId → Bool}
    {r' : DynamicIoRuntime ins outs}
    (h : lookupBucket r request allowCreate released = (r', .ok none)) :
    validatePlannedShape (reclaimDroppedRuns r).1 request = .ok () ∧
      request ∉ r'.buckets.map ShapeBucket.key ∧
      r' = reapRetiredBuckets (reclaimDroppedRuns r).1 released := by
  rcases lookupBucket_cases (r := r) request allowCreate released rfl with
    ⟨-, e, he⟩ | ⟨-, e, he⟩ | ⟨i, b, -, -, he⟩ | ⟨hv, hno, he⟩ <;> rw [he] at h
  · simp at h
  · simp at h
  · simp at h
  · obtain rfl := (Prod.mk.inj h).1
    exact ⟨hv, hno, rfl⟩

/-- A new bucket needs room for it and its lanes. -/
theorem prepareBucket_cases (r : DynamicIoRuntime ins outs) (n : CreateNative) :
    (r.options.cudaGraph = true ∧ ∃ e, prepareBucket f r n = (r, .error e)) ∨
    (∃ r' e, evictOneBucketIfFull f r n.fence = (r', .error e) ∧
      prepareBucket f r n = (r', .error e)) ∨
    ∃ r', evictOneBucketIfFull f r n.fence = (r', .ok ()) ∧
      prepareBucket f r n = (r', prepareLanes f r' n) := by
  unfold prepareBucket
  split
  · rename_i e he
    refine .inl ⟨?_, e, rfl⟩
    split at he
    · assumption
    · cases he
  · refine .inr ?_
    obtain ⟨r', e | ⟨⟩⟩ := evictOneBucketIfFull f r n.fence
    · exact .inl ⟨r', e, rfl, rfl⟩
    · exact .inr ⟨r', rfl, rfl⟩

theorem checkPlanBucket_ok {c : ShapePlan.CanonicalShape} (h : checkPlanBucket r c = .ok ()) :
    c.inputShapes.length = ins ∧ c.outputShapes.length = outs := by
  unfold checkPlanBucket at h
  split at h
  · cases h
  · rename_i hn
    exact ⟨not_not.mp fun he => hn (.inl he), not_not.mp fun he => hn (.inr he)⟩

theorem forM_checkPlanBucket {cs : List ShapePlan.CanonicalShape}
    (h : cs.forM (checkPlanBucket r) = .ok ()) : ∀ c ∈ cs, checkPlanBucket r c = .ok () := by
  induction cs with
  | nil => simp
  | cons c cs ih =>
    rw [List.forM_eq_forM, List.forM_cons] at h
    cases hc : checkPlanBucket r c with
    | error e => simp [hc, bind, Except.bind] at h
    | ok _ =>
      intro c' hc'
      rcases List.mem_cons.mp hc' with rfl | hc'
      · exact hc
      · exact ih (by simpa [hc, bind, Except.bind] using h) c' hc'

/-- A plan is installed over an empty cache that can hold all its buckets. -/
theorem installShapePlan_cases (r : DynamicIoRuntime ins outs) (plan : SealedPlan) :
    (∃ e, installShapePlan r plan = (r, .error e)) ∨
    (r.buckets = [] ∧ plan.len ≤ r.options.maxBuckets ∧
      (∀ c ∈ plan.buckets, c.inputShapes.length = ins ∧ c.outputShapes.length = outs) ∧
      installShapePlan r plan = ({ r with shapePlan := some plan }, .ok ())) := by
  unfold installShapePlan
  split
  · exact .inl ⟨_, rfl⟩
  · rename_i hempty
    split
    · exact .inl ⟨_, rfl⟩
    · rename_i hlen
      split
      · exact .inl ⟨_, rfl⟩
      · rename_i hall
        exact .inr ⟨not_not.mp fun he => hempty (.inl he), Nat.le_of_not_lt hlen,
          fun c hc => checkPlanBucket_ok (forM_checkPlanBucket hall c hc), rfl⟩

/-- A request that passes the plan is one of its buckets, shape by shape. -/
theorem validatePlannedShape_ok {plan : SealedPlan} (hp : r.shapePlan = some plan)
    (hlen : ∀ c ∈ plan.buckets, c.inputShapes.length = ins ∧ c.outputShapes.length = outs)
    (h : validatePlannedShape r request = .ok ()) : ∃ c ∈ plan.buckets,
      c.inputShapes = request.inputShapes.toList ∧
        c.outputShapes = request.outputShapes.toList := by
  unfold validatePlannedShape at h
  rw [hp] at h
  dsimp only at h
  split at h
  · cases h
  · split at h
    · cases h
    · rename_i c hc
      have hmem : c ∈ plan.buckets := List.mem_of_getElem? hc
      obtain ⟨hi, ho⟩ := hlen c hmem
      split at h
      · cases h
      · rename_i hz
        have hin := not_not.mp fun he => hz (.inl he)
        have hout := not_not.mp fun he => hz (.inr he)
        exact ⟨c, hmem, (zipEqual_iff (by simp [hi])).mp hin, (zipEqual_iff (by simp [ho])).mp hout⟩

/-- The bucket `insertBucket` pushes under the id it was given. -/
def DynamicIoRuntime.newBucket (r : DynamicIoRuntime ins outs) (request : ShapeKey ins outs)
    (id : PreparedBucketId) (lanes : List Lane.ServingLane) (graphId : Option Int) :
    ShapeBucket ins outs where
  key := request
  id := id
  lanes := assignRecoverySlots r request id lanes
  lastUsed := (nextTick r).tick
  detachedLanes := 0
  graphId := graphId

/-- The runtime with a bucket pushed behind the others. -/
def DynamicIoRuntime.pushed (r : DynamicIoRuntime ins outs) (slots : PreparedSlots)
    (b : ShapeBucket ins outs) : DynamicIoRuntime ins outs :=
  { nextTick r with
    toPreparedSlots := slots
    buckets := r.buckets ++ [b]
    hotBucket := some r.buckets.length }

/-- The lanes of a new bucket are all alike. -/
theorem buildLaneSet_eq_ok {build : Except Error Unit} {ls : List Lane.ServingLane}
    (h : buildLaneSet f r build = .ok ls) : ls = List.replicate r.laneCount
      (Lane.setRebindInputsEachRun (.new r.options.deviceId) r.options.rebindInputsEachRun) := by
  unfold buildLaneSet at h
  split at h
  · cases h
  · split at h
    · cases h
    · cases build with
      | error e => cases h
      | ok _ => exact (Except.ok.inj h).symm

/-- An id handed out over an overflowing recovery slot is not handed back. -/
theorem insertBucket_cases (request : ShapeKey ins outs) (lanes : List Lane.ServingLane)
    (graphId : Option Int) (h : Indexed r.toPreparedSlots r.bucketIds) :
    (u32Max < nextSlot r.toPreparedSlots ∧
      ∃ e, insertBucket r request lanes graphId = (nextTick r, .error e)) ∨
    ∃ slots id, Allocated r.toPreparedSlots slots r.bucketIds id ∧
      ((usizeBound ≤ id.slot * r.laneCount ∧ ∃ e, insertBucket r request lanes graphId =
          ({ nextTick r with toPreparedSlots := slots }, .error e)) ∨
        (id.slot * r.laneCount < usizeBound ∧ insertBucket r request lanes graphId =
          (r.pushed slots (r.newBucket request id lanes graphId), .ok r.buckets.length))) := by
  have hlen : (nextTick r).buckets.length = r.bucketIds.length :=
    (List.length_map ShapeBucket.id).symm
  rcases allocate_spec h with ⟨hmax, e, he⟩ | ⟨slots, id, he, ha⟩
  · have he' : allocatePreparedBucketId (nextTick r).toPreparedSlots (nextTick r).buckets.length =
        (r.toPreparedSlots, .error e) := hlen ▸ he
    exact .inl ⟨hmax, e, by simp only [insertBucket, he']; rfl⟩
  · have he' : allocatePreparedBucketId (nextTick r).toPreparedSlots (nextTick r).buckets.length =
        (slots, .ok id) := hlen ▸ he
    refine .inr ⟨slots, id, ha, ?_⟩
    rcases Nat.lt_or_ge (id.slot * r.laneCount) usizeBound with hlt | hge
    · refine .inr ⟨hlt, ?_⟩
      simp only [insertBucket, he']
      exact (if_pos (show id.slot * (nextTick r).laneCount < usizeBound from hlt)).trans rfl
    · refine .inl ⟨hge, .local "zrt: dynamic recovery slot index overflow", ?_⟩
      simp only [insertBucket, he']
      exact if_neg (show ¬ id.slot * (nextTick r).laneCount < usizeBound from Nat.not_lt.mpr hge)

/-- The call creates a bucket: it gets to `insertBucket` in the state `r'`. -/
def Creates (f : Features) (r : DynamicIoRuntime ins outs) (request : ShapeKey ins outs)
    (allowCreate : Bool) (n : CreateNative) (r' : DynamicIoRuntime ins outs)
    (lanes : List Lane.ServingLane × Option Int) : Prop :=
  ∃ r₁, lookupBucket r request allowCreate n.released = (r₁, .ok none) ∧
    prepareBucket f r₁ n = (r', .ok lanes)

theorem creates_cases {allowCreate : Bool} {n : CreateNative} {r' : DynamicIoRuntime ins outs}
    {lanes : List Lane.ServingLane × Option Int}
    (h : Creates f r request allowCreate n r' lanes) : ∃ r₁,
      lookupBucket r request allowCreate n.released = (r₁, .ok none) ∧
      evictOneBucketIfFull f r₁ n.fence = (r', .ok ()) ∧ prepareLanes f r' n = .ok lanes := by
  obtain ⟨r₁, hl, hp⟩ := h
  refine ⟨r₁, hl, ?_⟩
  rcases prepareBucket_cases (f := f) r₁ n with ⟨-, e, he⟩ | ⟨r', e, -, he⟩ | ⟨r', hev, he⟩ <;>
    rw [he] at hp
  · simp at hp
  · simp at hp
  · obtain rfl := (Prod.mk.inj hp).1
    exact ⟨hev, (Prod.mk.inj hp).2⟩

theorem getOrCreate_creates {allowCreate : Bool} {n : CreateNative}
    {r' : DynamicIoRuntime ins outs} {lanes : List Lane.ServingLane × Option Int}
    (h : Creates f r request allowCreate n r' lanes) :
    getOrCreateBucketInner f r request allowCreate n = insertBucket r' request lanes.1 lanes.2 := by
  obtain ⟨r₁, hl, hp⟩ := h
  simp [getOrCreateBucketInner, hl, hp, Result.andThen]

/-- A bucket request ends with the lookup, with the preparation, or with a new bucket. -/
theorem getOrCreate_outcomes (r : DynamicIoRuntime ins outs) (request : ShapeKey ins outs)
    (allowCreate : Bool) (n : CreateNative) :
    (getOrCreateBucketInner f r request allowCreate n).1 =
      (lookupBucket r request allowCreate n.released).1 ∨
    (∃ r₁, lookupBucket r request allowCreate n.released = (r₁, .ok none) ∧
      (getOrCreateBucketInner f r request allowCreate n).1 = (prepareBucket f r₁ n).1) ∨
    ∃ r' lanes, Creates f r request allowCreate n r' lanes ∧
      getOrCreateBucketInner f r request allowCreate n =
        insertBucket r' request lanes.1 lanes.2 := by
  cases hl : lookupBucket r request allowCreate n.released with
  | mk r₁ o => cases o with
    | error e => exact .inl (by simp [getOrCreateBucketInner, hl, Result.andThen])
    | ok found => cases found with
      | some i => exact .inl (by simp [getOrCreateBucketInner, hl, Result.andThen])
      | none => cases hp : prepareBucket f r₁ n with
        | mk r₂ o => cases o with
          | error e =>
            exact .inr (.inl ⟨r₁, rfl, by simp [getOrCreateBucketInner, hl, hp, Result.andThen]⟩)
          | ok lanes =>
            have hcr : Creates f r request allowCreate n r₂ lanes := ⟨r₁, hl, hp⟩
            exact .inr (.inr ⟨r₂, lanes, hcr, getOrCreate_creates hcr⟩)

end Zrt.Dynamic
