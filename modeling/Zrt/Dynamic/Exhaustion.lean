import Zrt.Dynamic.Cases
import Zrt.Lane.Safety

/-! A cache of one bucket, created and removed until its prepared slots are exhausted. -/
namespace Zrt.Dynamic

open Lane (Features Native)
open SwapRemove

variable {ins outs : Nat} {f : Features} {laneCount tick k g : Nat} {p p' : PreparedSlots}
  {id : PreparedBucketId} {request : ShapeKey ins outs}

/-- A runtime for one bucket on host buffers, between buckets. -/
def emptyRuntime (ins outs laneCount : Nat) (p : PreparedSlots) (tick : Nat) :
    DynamicIoRuntime ins outs :=
  { DynamicIoRuntime.fresh 0 .sharedSession laneCount (.new 1) with
    toPreparedSlots := p
    tick := tick }

/-- Everything a bucket request calls succeeds. -/
def CreateNative.success : CreateNative where
  released := fun _ => true
  fence := fun _ => .success
  build := .ok ()
  graphId := .ok 1
  setGraph := fun _ => .success
  capture := fun _ => .success

/-- An enqueue whose closure does nothing and whose run succeeds. -/
def EnqueueNative.success : EnqueueNative where
  prepare := []
  prepared := .ok ()
  run := .success
  fence := .success

theorem emptyRuntime_initial (hl : laneCount ≠ 0) (hb : laneCount < usizeBound) :
    Initial f ⟨emptyRuntime ins outs laneCount ⟨[], []⟩ 0, []⟩ := by
  have hv : (DynamicIoOptions.new 1).validate f = .ok (.new 1) := by
    simp [DynamicIoOptions.validate, DynamicIoOptions.new]
  have hm : (DynamicIoOptions.new 1).validateRuntimeMode f .sharedSession laneCount = .ok () := by
    simp [DynamicIoOptions.validateRuntimeMode, DynamicIoOptions.new]
  have hb' : (DynamicIoOptions.new 1).maxBuckets * laneCount < usizeBound := by
    simpa [DynamicIoOptions.new] using hb
  refine ⟨0, .sharedSession, laneCount, .new 1, ?_, rfl⟩
  simp only [DynamicIoRuntime.new, hl, if_false, hv, hm, hb', if_true]
  rfl

/-- The lanes of a bucket on host buffers. -/
def hostLanes (laneCount : Nat) : List Lane.ServingLane :=
  List.replicate laneCount (Lane.setRebindInputsEachRun (.new none) false)

theorem create_emptyRuntime :
    getOrCreateBucketInner f (emptyRuntime ins outs laneCount p tick) request true .success =
      insertBucket (emptyRuntime ins outs laneCount p tick) request (hostLanes laneCount) none := by
  have hcr : Creates f (emptyRuntime ins outs laneCount p tick) request true .success
      (emptyRuntime ins outs laneCount p tick) (hostLanes laneCount, none) := ⟨_, rfl, rfl⟩
  exact getOrCreate_creates hcr

/-- The runtime with its only bucket, in the slot of `id`. -/
def oneBucket (laneCount tick : Nat) (request : ShapeKey ins outs) (id : PreparedBucketId)
    (p : PreparedSlots) : DynamicIoRuntime ins outs :=
  (emptyRuntime ins outs laneCount p tick).pushed p
    ((emptyRuntime ins outs laneCount p tick).newBucket request id (hostLanes laneCount) none)

theorem insert_emptyRuntime (ha : allocatePreparedBucketId p 0 = (p', .ok id)) :
    (insertBucket (emptyRuntime ins outs laneCount p tick) request (hostLanes laneCount) none).1 =
      if id.slot * laneCount < usizeBound then oneBucket laneCount tick request id p'
      else nextTick (emptyRuntime ins outs laneCount p' tick) := by
  have ha' : allocatePreparedBucketId
      (nextTick (emptyRuntime ins outs laneCount p tick)).toPreparedSlots
      (nextTick (emptyRuntime ins outs laneCount p tick)).buckets.length = (p', .ok id) := ha
  simp only [insertBucket, ha']
  by_cases hlt : id.slot * laneCount < usizeBound
  · rw [if_pos hlt]
    exact (congrArg Prod.fst (if_pos hlt)).trans rfl
  · rw [if_neg hlt]
    exact (congrArg Prod.fst (if_neg hlt)).trans rfl

/-- No lane of a new bucket is in flight. -/
theorem newBucket_idle {b : ShapeBucket ins outs} {n : Nat → Native}
    (h : ∀ l ∈ b.lanes, l.inFlight = false) : (b.finishInFlight f n).anyInFlight = false := by
  simp only [ShapeBucket.anyInFlight, ShapeBucket.finishInFlight, List.any_eq_false,
    List.mem_mapIdx]
  rintro l ⟨i, hi, rfl⟩
  have := h _ (List.getElem_mem hi)
  simp [ServingLane.after, Lane.finishInFlightBestEffort, this]

theorem hostLanes_idle {l : ServingLane ins outs} {r : DynamicIoRuntime ins outs}
    (h : l ∈ assignRecoverySlots r request id (hostLanes laneCount)) : l.inFlight = false := by
  simp only [assignRecoverySlots, List.mem_mapIdx] at h
  obtain ⟨i, hi, rfl⟩ := h
  simp [hostLanes, Lane.setRebindInputsEachRun, Lane.ServingLane.new]

theorem find_oneBucket :
    findBucketIndex (oneBucket laneCount tick request id p) request = some 0 := by
  have hm : request.matches request := ShapeKey.matches_iff.mpr rfl
  simp [findBucketIndex, oneBucket, DynamicIoRuntime.pushed, DynamicIoRuntime.newBucket,
    DynamicIoRuntime.fresh, emptyRuntime, nextTick, hm]

/-- Removing the bucket retires its id, and nothing else is left of it. -/
theorem remove_oneBucket {n : Nat → Native} :
    (removeBucket f (oneBucket laneCount tick request id p) request n).1 =
      nextTick (emptyRuntime ins outs laneCount (retirePreparedBucketId p id) tick) := by
  have hreclaim : reclaimDroppedRuns (oneBucket laneCount tick request id p) =
      (oneBucket laneCount tick request id p, 0) := rfl
  simp only [removeBucket, hreclaim, find_oneBucket]
  rcases retireBucketAt_cases (f := f)
    { oneBucket laneCount tick request id p with hotBucket := none } 0 n with
    ⟨-, hne⟩ | ⟨b, hb, -, he⟩
  · exact absurd rfl (hne _ rfl)
  · obtain rfl := Option.some.inj hb
    have hidle : (((emptyRuntime ins outs laneCount p tick).newBucket request id
        (hostLanes laneCount) none).finishInFlight f n).anyInFlight = false :=
      newBucket_idle fun l hl => hostLanes_idle hl
    refine (congrArg Prod.fst he).trans ?_
    unfold DynamicIoRuntime.retired
    rw [if_neg (by rw [hidle]; exact Bool.false_ne_true)]
    rfl

/-- A state between buckets, at any tick. -/
def Worn (f : Features) (ins outs laneCount : Nat) (p : PreparedSlots) : Prop :=
  ∃ tick, Reachable f ⟨emptyRuntime ins outs laneCount p tick, []⟩

/-- One bucket created and removed. -/
theorem worn_cycle (request : ShapeKey ins outs) (h : Worn f ins outs laneCount p)
    (ha : allocatePreparedBucketId p 0 = (p', .ok id)) (hlt : id.slot * laneCount < usizeBound) :
    Worn f ins outs laneCount (retirePreparedBucketId p' id) := by
  obtain ⟨tick, hr⟩ := h
  have hcreate : step f ⟨emptyRuntime ins outs laneCount p tick, []⟩
      (.getOrCreateBucket request true .success) =
        ⟨oneBucket laneCount tick request id p', []⟩ := by
    simp only [step, create_emptyRuntime, insert_emptyRuntime ha, if_pos hlt]
  have hremove : step f ⟨oneBucket laneCount tick request id p', []⟩
      (.removeBucket request fun _ => .success) =
      ⟨nextTick (emptyRuntime ins outs laneCount (retirePreparedBucketId p' id) tick), []⟩ := by
    simp only [step, remove_oneBucket]
  exact ⟨_, .step (.step hr hcreate) hremove⟩

/-- `k` exhausted slots, then one of generation `g` that is free. -/
def wornSlots (k g : Nat) : PreparedSlots :=
  ⟨List.replicate k ⟨u32Max, none⟩ ++ [⟨g, none⟩], [k]⟩

/-- `k` exhausted slots, and no other. -/
def exhaustedSlots (k : Nat) : PreparedSlots := ⟨List.replicate k ⟨u32Max, none⟩, []⟩

/-- `k` exhausted slots, then one that a bucket holds. -/
def heldSlots (k g : Nat) : PreparedSlots :=
  ⟨List.replicate k ⟨u32Max, none⟩ ++ [⟨g, some 0⟩], []⟩

theorem allocate_wornSlots : allocatePreparedBucketId (wornSlots k g) 0 =
    (heldSlots k g, .ok ⟨k, g⟩) := by
  simp [allocatePreparedBucketId, wornSlots, heldSlots]

theorem allocate_exhaustedSlots (hk : k ≤ u32Max) :
    allocatePreparedBucketId (exhaustedSlots k) 0 = (heldSlots k 1, .ok ⟨k, 1⟩) := by
  simp [allocatePreparedBucketId, exhaustedSlots, heldSlots, hk]

theorem retire_heldSlots (hg : g < u32Max) :
    retirePreparedBucketId (heldSlots k g) ⟨k, g⟩ = wornSlots k (g + 1) := by
  simp [retirePreparedBucketId, heldSlots, wornSlots, Nat.succ_le_of_lt hg]

theorem retire_heldSlots_last :
    retirePreparedBucketId (heldSlots k u32Max) ⟨k, u32Max⟩ = exhaustedSlots (k + 1) := by
  simp [retirePreparedBucketId, heldSlots, exhaustedSlots, List.replicate_succ']

/-- Every create and remove uses up one generation of the slot. -/
theorem worn_generation (request : ShapeKey ins outs)
    (h : Worn f ins outs laneCount (exhaustedSlots k)) (hk : k ≤ u32Max)
    (hlt : k * laneCount < usizeBound) (hg : 1 ≤ g) (hmax : g < u32Max) :
    Worn f ins outs laneCount (wornSlots k (g + 1)) := by
  induction g, hg using Nat.le_induction with
  | base =>
    rw [← retire_heldSlots hmax]
    exact worn_cycle request h (allocate_exhaustedSlots hk) hlt
  | succ g _ ih =>
    rw [← retire_heldSlots hmax]
    exact worn_cycle request (ih (by omega)) allocate_wornSlots hlt

/-- All its generations used up, the slot is never handed out again. -/
theorem worn_exhausted (request : ShapeKey ins outs) (hl : laneCount ≠ 0)
    (hb : laneCount < usizeBound) (hk : k ≤ u32Max + 1) (hlt : (k - 1) * laneCount < usizeBound) :
    Worn f ins outs laneCount (exhaustedSlots k) := by
  induction k with
  | zero => exact ⟨0, .initial (emptyRuntime_initial hl hb)⟩
  | succ k ih =>
    have hlt : k * laneCount < usizeBound := hlt
    have hpred : (k - 1) * laneCount < usizeBound :=
      Nat.lt_of_le_of_lt (Nat.mul_le_mul_right _ (Nat.sub_le k 1)) hlt
    have hworn := worn_generation (g := u32Max - 1) request (ih (by omega) hpred) (by omega) hlt
      (by decide) (by decide)
    rw [← retire_heldSlots_last]
    exact worn_cycle request hworn allocate_wornSlots hlt

/-- A bucket requested behind `k` exhausted slots is in slot `k`. -/
theorem worn_create (request : ShapeKey ins outs)
    (h : Worn f ins outs laneCount (exhaustedSlots k)) (hk : k ≤ u32Max)
    (hlt : k * laneCount < usizeBound) : ∃ tick,
      Reachable f ⟨oneBucket laneCount tick request ⟨k, 1⟩ (heldSlots k 1), []⟩ := by
  obtain ⟨tick, hr⟩ := h
  refine ⟨tick, .step (a := .getOrCreateBucket request true .success) hr ?_⟩
  simp only [dynamicLts, Lts.System.ofNext, step, create_emptyRuntime]
  rw [insert_emptyRuntime (allocate_exhaustedSlots hk), if_pos hlt]

end Zrt.Dynamic
