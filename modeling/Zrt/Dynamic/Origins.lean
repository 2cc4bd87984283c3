import Zrt.Dynamic.Index

/-! What holds of every lane a runtime has at hand, and that it makes up none: a lane was there
before, came in, or was just built. -/
namespace Zrt.Dynamic

open Lane (Features Native)
open SwapRemove

variable {ins outs : Nat} {f : Features} {r r' r'' : DynamicIoRuntime ins outs} {i slot : Nat}
  {b b' : ShapeBucket ins outs} {id : PreparedBucketId} {o : Origin ins outs}
  {lane : ServingLane ins outs} {d : RecoveredDynamicLane ins outs} {s : State ins outs}
  {a : Op ins outs} {request : ShapeKey ins outs} {allowCreate : Bool} {n : CreateNative}
  {P : PreparedBucketId → ServingLane ins outs → Prop} {Q : Lane.Op → Prop}

/-- Every lane in a bucket or a recovery cell has the property, under its bucket's id. -/
structure Within (P : PreparedBucketId → ServingLane ins outs → Prop)
    (r : DynamicIoRuntime ins outs) : Prop where
  buckets : ∀ b ∈ r.buckets, ∀ l ∈ b.lanes, P b.id l
  cells : ∀ (slot : Nat) (d : RecoveredDynamicLane ins outs),
    r.recovery.slots[slot]? = some (some d) → P d.bucketId d.lane

theorem Within.of_eq (h : Within P r) (hb : r'.buckets = r.buckets)
    (hr : r'.recovery.slots = r.recovery.slots) : Within P r' :=
  ⟨hb ▸ h.buckets, hr ▸ h.cells⟩

/-- Fewer buckets, over the same recovery cells. -/
theorem Within.of_subset (h : Within P r) (hb : r'.buckets ⊆ r.buckets)
    (hr : r'.recovery.slots = r.recovery.slots) : Within P r' :=
  ⟨fun b hm => h.buckets b (hb hm), hr ▸ h.cells⟩

theorem mem_modify {α : Type} {xs : List α} {g : α → α} {y : α} (h : y ∈ xs.modify i g) :
    ∃ x ∈ xs, y = x ∨ y = g x := by
  obtain ⟨j, hj⟩ := List.mem_iff_getElem?.mp h
  rw [List.getElem?_modify] at hj
  cases hx : xs[j]? with
  | none => simp [hx] at hj
  | some x =>
    refine ⟨x, List.mem_of_getElem? hx, ?_⟩
    by_cases he : i = j
    · exact .inr (by simpa [hx, he, eq_comm] using hj)
    · exact .inl (by simpa [hx, he, eq_comm] using hj)

theorem Within.modify {g : ShapeBucket ins outs → ShapeBucket ins outs} (h : Within P r)
    (hg : ∀ b ∈ r.buckets, ∀ l ∈ (g b).lanes, P (g b).id l) :
    Within P { r with buckets := r.buckets.modify i g } := by
  refine ⟨?_, h.cells⟩
  intro b hb
  obtain ⟨c, hc, rfl | rfl⟩ := mem_modify hb
  · exact h.buckets b hc
  · exact hg c hc

theorem Within.reorder {lanes : List (ServingLane ins outs)} (h : Within P r)
    (hb : r.buckets[i]? = some b) (hl : lanes.Perm b.lanes) :
    Within P (r.setBucket i { b with lanes := lanes }) := by
  refine ⟨?_, h.cells⟩
  intro b' hb' l hm
  rcases List.mem_or_eq_of_mem_set hb' with hb' | rfl
  · exact h.buckets b' hb' l hm
  · exact h.buckets b (List.mem_of_getElem? hb) l (hl.mem_iff.mp hm)

theorem Within.giveOut (h : Within P r) (hb : r.buckets[i]? = some b) :
    Within P (r.setBucket i b.giveOut) := by
  refine ⟨?_, h.cells⟩
  intro c hc
  rcases List.mem_or_eq_of_mem_set hc with hc | rfl
  · exact h.buckets c hc
  · exact fun l hl => h.buckets b (List.mem_of_getElem? hb) l (List.dropLast_subset _ hl)

theorem Within.takeBack (lane : ServingLane ins outs) (h : Within P r) (hb : r.buckets[i]? = some b)
    (hl : P b.id lane) :
    Within P (r.setBucket i (b.takeBack lane)) := by
  refine ⟨?_, h.cells⟩
  intro c hc
  rcases List.mem_or_eq_of_mem_set hc with hc | rfl
  · exact h.buckets c hc
  · intro l hm
    rcases List.mem_append.mp hm with hm | hm
    · exact h.buckets b (List.mem_of_getElem? hb) l hm
    · obtain rfl := List.mem_singleton.mp hm
      exact hl

theorem Within.emptyCell (h : Within P r) : Within P (r.emptyCell slot) := by
  refine ⟨h.buckets, fun slot' d hd => h.cells slot' d ?_⟩
  have hd : (r.recovery.slots.set slot none)[slot']? = some (some d) := hd
  rw [List.getElem?_set] at hd
  split at hd
  · split at hd <;> simp at hd
  · exact hd

theorem Within.reclaimSlot (h : Within P r) (slot : Nat) : Within P (reclaimSlot r slot).1 := by
  rcases reclaimSlot_cases r slot with
    ⟨-, he⟩ | ⟨d, hd, ⟨-, he⟩ | ⟨i, b, -, hb, hid, -, he⟩⟩ <;> rw [he]
  · exact h
  · exact h.emptyCell.of_eq rfl rfl
  · exact h.emptyCell.takeBack (r := r.emptyCell slot) d.lane hb (hid ▸ h.cells slot d hd)

theorem Within.reclaimReady (h : Within P r) (ready : List Nat) :
    Within P (reclaimReady r ready).1 := by
  induction ready generalizing r with
  | nil => exact h
  | cons slot ready ih =>
    have hset : Within P { r with recovery := { r.recovery with ready := ready } } :=
      h.of_eq rfl rfl
    exact ih (hset.reclaimSlot slot)

theorem Within.reclaim (h : Within P r) : Within P (reclaimDroppedRuns r).1 := h.reclaimReady _

theorem Within.touch (h : Within P r) : Within P (touch r i) := by
  have hm : Within P { nextTick r with
      buckets := (nextTick r).buckets.modify i fun bucket =>
        { bucket with lastUsed := (nextTick r).tick } } :=
    Within.modify (h.of_eq rfl rfl) fun b hb => h.buckets b hb
  exact hm.of_eq rfl rfl

theorem Within.dropBucket (h : Within P r) : Within P (r.dropBucket i b) :=
  h.of_subset (fun _ hm => mem_of_mem_swapRemove hm) rfl

theorem Within.retired (h : Within P r) (b : ShapeBucket ins outs) : Within P (r.retired b) := by
  obtain ⟨rb, fo, rr, he⟩ := retired_eq r b
  rw [he]
  exact h.of_eq rfl rfl

theorem Within.retireBucketAt {n : Nat → Native} (h : Within P r) :
    Within P (retireBucketAt f r i n).1 := by
  rcases retireBucketAt_cases (f := f) r i n with ⟨he, -⟩ | ⟨b, -, -, he⟩ <;> rw [he]
  · exact h
  · exact h.dropBucket.retired _

theorem Within.hot {hot : Option Nat} (h : Within P r) : Within P { r with hotBucket := hot } :=
  h.of_eq rfl rfl

theorem Within.evict {n : Nat → Native} (h : Within P r) :
    Within P (evictOneBucketIfFull f r n).1 := by
  rcases evict_cases (f := f) r n
    with ⟨-, he⟩ | ⟨-, ⟨e, he⟩ | ⟨e, he⟩ | ⟨i, b, -, -, he⟩⟩ <;> rw [he]
  · exact h
  · exact h
  · exact h.hot
  · exact h.hot.dropBucket.retired _

theorem Within.drain {n : Nat → Nat → Native} (h : Within P r) :
    Within P (drainActiveBucketsAndReleaseGraphs f r n).1 := by
  obtain ⟨fo, rr, he⟩ := drain_eq (f := f) r n
  rw [he]
  exact h.of_subset (List.nil_subset _) rfl

theorem Within.clearBuckets {n : Nat → Nat → Native} (h : Within P r) :
    Within P (clearBuckets f r n).1 := by
  unfold Dynamic.clearBuckets
  dsimp only
  split
  · exact h.reclaim
  · have hw : Within P (waitForRetiredBuckets
        { (reclaimDroppedRuns r).1 with hotBucket := none }) := h.reclaim.of_eq rfl rfl
    have hd := hw.drain (f := f) (n := n)
    split <;> rename_i hres <;> rw [hres] at hd <;> exact hd

theorem Within.removeBucket {n : Nat → Native} (h : Within P r) :
    Within P (removeBucket f r request n).1 := by
  unfold Dynamic.removeBucket
  dsimp only
  split
  · exact h.reclaim
  · split
    · exact h.reclaim
    · exact h.reclaim.hot.retireBucketAt

theorem Within.bucketMut (h : Within P r) : Within P (bucketMut r request).1 := by
  unfold Dynamic.bucketMut
  dsimp only
  split
  · exact h.reclaim
  · exact h.reclaim.touch

theorem Within.lookupBucket (h : Within P r) (request : ShapeKey ins outs) (allowCreate : Bool)
    (released : PreparedBucketId → Bool) :
    Within P (lookupBucket r request allowCreate released).1 := by
  have hreap : Within P (reapRetiredBuckets (reclaimDroppedRuns r).1 released) :=
    h.reclaim.of_eq rfl rfl
  rcases lookupBucket_cases (r := r) request allowCreate released rfl with
    ⟨-, e, he⟩ | ⟨-, e, he⟩ | ⟨i, b, -, -, he⟩ | ⟨-, -, he⟩ <;> rw [he]
  · exact h.reclaim
  · exact hreap
  · exact hreap.touch
  · exact hreap

theorem Within.prepareBucket (h : Within P r) (n : CreateNative) :
    Within P (prepareBucket f r n).1 := by
  have hevict := h.evict (f := f) (n := n.fence)
  rcases prepareBucket_cases (f := f) r n
    with ⟨-, e, hq⟩ | ⟨r', e, hr', hq⟩ | ⟨r', hr', hq⟩ <;> rw [hq]
  · exact h
  · rw [hr'] at hevict
    exact hevict
  · rw [hr'] at hevict
    exact hevict

theorem Within.creates {lanes : List Lane.ServingLane × Option Int} (h : Within P r)
    (hcr : Creates f r request allowCreate n r' lanes) : Within P r' := by
  obtain ⟨r₁, hl, hev, -⟩ := creates_cases hcr
  have hlookup := h.lookupBucket request allowCreate n.released
  rw [hl] at hlookup
  have hevict := hlookup.evict (f := f) (n := n.fence)
  rw [hev] at hevict
  exact hevict

theorem Within.insertBucket {lanes : List Lane.ServingLane} {graphId : Option Int} (h : Within P r)
    (hi : Indexed r.toPreparedSlots r.bucketIds)
    (hnew : ∀ id, ∀ l ∈ assignRecoverySlots r request id lanes, P id l) :
    Within P (insertBucket r request lanes graphId).1 := by
  rcases insertBucket_cases request lanes graphId hi with
    ⟨-, e, he⟩ | ⟨slots, id, -, ⟨-, e, he⟩ | ⟨-, he⟩⟩ <;> rw [he]
  · exact h.of_eq rfl rfl
  · exact h.of_eq rfl rfl
  · refine ⟨?_, h.cells⟩
    intro b hb
    rcases List.mem_append.mp hb with hb | hb
    · exact h.buckets b hb
    · obtain rfl := List.mem_singleton.mp hb
      exact hnew id

theorem Within.getOrCreate (h : Within P r) (hc : Cached r)
    (hnew : ∀ r' lanes, Creates f r request allowCreate n r' lanes →
      ∀ id, ∀ l ∈ assignRecoverySlots r' request id lanes.1, P id l) :
    Within P (getOrCreateBucketInner f r request allowCreate n).1 := by
  rcases getOrCreate_outcomes (f := f) r request allowCreate n with
    he | ⟨r₁, hl, he⟩ | ⟨r', lanes, hcr, he⟩ <;> rw [he]
  · exact h.lookupBucket request allowCreate n.released
  · have hlookup := h.lookupBucket request allowCreate n.released
    rw [hl] at hlookup
    exact hlookup.prepareBucket n
  · obtain ⟨hs, -, -⟩ := creates_shrinks hcr
    exact (h.creates hcr).insertBucket (hs.cached hc).indexed (hnew r' lanes hcr)

theorem Within.returnDetachedLane (h : Within P r) (hl : P id lane) :
    Within P (returnDetachedLane r id lane).1 := by
  rcases returnDetachedLane_cases r id lane with
    ⟨-, e, he⟩ | ⟨i, b, -, hb, hid, ⟨-, e, he⟩ | ⟨-, -, he⟩⟩ <;> rw [he]
  · exact h
  · exact h.of_eq rfl rfl
  · exact h.takeBack lane hb (hid ▸ hl)

/-- A detached lane was in the bucket its id names. -/
theorem Within.detachLane (h : Within P r) (id : PreparedBucketId) :
    Within P (detachLane r id).1 ∧ ∀ lane id', (detachLane r id).2 = .ok (lane, id') →
      P id' lane := by
  rcases detachLane_cases r id with ⟨e, he⟩ | ⟨i, b, lane, -, hb, hid, hl, he⟩ <;> rw [he]
  · refine ⟨h, ?_⟩
    intro lane id' hno
    cases hno
  · refine ⟨h.giveOut hb, ?_⟩
    intro lane' id' heq
    obtain ⟨rfl, rfl⟩ := Prod.mk.inj (Except.ok.inj heq)
    exact hid ▸ h.buckets b (List.mem_of_getElem? hb) lane (List.mem_of_getLast? hl)

/-- The property survives the lane operations in `Q`, and those are all that is done to lanes. -/
structure Closed (f : Features) (Q : Lane.Op → Prop)
    (P : PreparedBucketId → ServingLane ins outs → Prop) : Prop where
  runEnqueued : Q .runEnqueued
  synchronizeOutputs : Q .synchronizeOutputs
  finishInFlightBestEffort : Q .finishInFlightBestEffort
  exec : ∀ {id l} op n, Q op → P id l → P id (l.after (op.exec f l.toServingLane n))

theorem Closed.play {script : Script} (hP : Closed f Q P) (hQ : ∀ x ∈ script, Q x.1)
    (h : P id lane) : P id (lane.play f script) := by
  induction script generalizing lane with
  | nil => exact h
  | cons x script ih =>
    exact ih (fun y hy => hQ y (List.mem_cons_of_mem _ hy))
      (hP.exec x.1 x.2 (hQ x List.mem_cons_self) h)

theorem Closed.bucketLane {j : Nat} {op : Lane.Op} {n : Native} (hP : Closed f Q P) (hQ : Q op)
    (h : Within P r) : Within P (bucketLane f r i j op n) := by
  refine h.modify ?_
  intro b hb l hl
  obtain ⟨l', hl', rfl | rfl⟩ := mem_modify hl
  · exact h.buckets b hb l hl'
  · exact hP.exec op n hQ (h.buckets b hb l' hl')

/-- An enqueued lane was in the bucket its token names. -/
theorem Closed.enqueuePrepared {n : EnqueueNative} (hP : Closed f Q P)
    (hQ : ∀ x ∈ n.prepare, Q x.1) (h : Within P r) (id : PreparedBucketId) :
    Within P (enqueuePrepared f r id n).1 ∧
      ∀ run, (enqueuePrepared f r id n).2 = .ok run → P run.bucketId run.lane := by
  obtain ⟨hdetach, hlane⟩ := h.reclaim.detachLane id
  unfold Dynamic.enqueuePrepared enqueueWith
  revert hdetach hlane
  obtain ⟨r₁, e | ⟨lane, id'⟩⟩ := Dynamic.detachLane (reclaimDroppedRuns r).1 id
  · intro hdetach _
    refine ⟨hdetach, ?_⟩
    intro run hno
    cases hno
  · intro hdetach hlane
    have hplay := hP.play hQ (hlane lane id' rfl)
    simp only [Result.andThen]
    cases n.prepared with
    | error e =>
      refine ⟨hdetach.returnDetachedLane hplay, ?_⟩
      intro run hno
      cases hno
    | ok _ =>
      have hrun := hP.exec .runEnqueued n.run hP.runEnqueued hplay
      revert hrun
      simp only [Lane.Op.exec]
      obtain ⟨l, e | ⟨⟩⟩ := Lane.runEnqueued f (lane.play f n.prepare).toServingLane n.run
      · intro hrun
        have hfence := hP.exec .finishInFlightBestEffort n.fence hP.finishInFlightBestEffort hrun
        dsimp only
        split
        · refine ⟨hdetach.of_eq rfl rfl, ?_⟩
          intro run hno
          cases hno
        · refine ⟨hdetach.returnDetachedLane hfence, ?_⟩
          intro run hno
          cases hno
      · intro hrun
        refine ⟨hdetach, ?_⟩
        intro run he
        obtain rfl := Except.ok.inj he
        exact hrun

theorem Closed.completeOwned {α : Type} {run : OwnedDynamicIoRun ins outs} {n : Native}
    {consume : ServingLane ins outs → Except Error α} (hP : Closed f Q P) (h : Within P r)
    (hrun : P run.bucketId run.lane) : Within P (completeOwned f r run n consume).1 := by
  have hsync := hP.exec .synchronizeOutputs n hP.synchronizeOutputs hrun
  unfold Dynamic.completeOwned
  dsimp only
  split
  · exact h.of_eq rfl rfl
  · exact h.returnDetachedLane hsync

theorem Within.recover {recovery : RecoverySlots ins outs} (h : Within P r)
    (hd : P d.bucketId d.lane) (he : r.recovery.recover slot d = some recovery) :
    Within P { r with recovery := recovery } := by
  refine ⟨h.buckets, ?_⟩
  intro slot' d' hd'
  unfold RecoverySlots.recover at he
  split at he
  · obtain rfl := Option.some.inj he
    rw [List.getElem?_set] at hd'
    split at hd'
    · split at hd'
      · obtain rfl := Option.some.inj (Option.some.inj hd')
        exact hd
      · cases hd'
    · exact h.cells slot' d' hd'
  · cases he

theorem Closed.dropOwned {n : Native} (run : OwnedDynamicIoRun ins outs) (hP : Closed f Q P)
    (h : Within P r) (hrun : P run.bucketId run.lane) : Within P (dropOwned f r run n) := by
  have hfence := hP.exec .finishInFlightBestEffort n hP.finishInFlightBestEffort hrun
  unfold Dynamic.dropOwned
  dsimp only
  split
  · exact h.of_eq rfl rfl
  · split
    · rename_i recovery hrec
      obtain ⟨slot, -, hrec⟩ := Option.bind_eq_some_iff.mp hrec
      exact h.recover hfence hrec
    · exact h.of_eq rfl rfl

/-- The lane operations a call is given. -/
def Op.Uses (Q : Lane.Op → Prop) : Op ins outs → Prop
  | .bucketLane _ _ op _ => Q op
  | .runLane _ op _ => Q op
  | .enqueuePrepared _ n => ∀ x ∈ n.prepare, Q x.1
  | _ => True

/-- The lanes of the runtime and those of its tokens. -/
structure State.Within (P : PreparedBucketId → ServingLane ins outs → Prop) (s : State ins outs) :
    Prop where
  runtime : Dynamic.Within P s.runtime
  runs : ∀ run ∈ s.runs, P run.bucketId run.lane

theorem within_initial (h : Initial f s) : s.Within P := by
  obtain ⟨name, mode, laneCount, options, -, -, rfl⟩ := initial_cases h
  refine ⟨⟨?_, ?_⟩, ?_⟩
  · intro b hb
    cases hb
  · intro slot d hd
    simp [DynamicIoRuntime.fresh, RecoverySlots.new, List.getElem?_replicate] at hd
  · intro run hrun
    cases hrun

/-- Every call keeps a property that its lane operations keep and new lanes have. -/
theorem Closed.step (hP : Closed f Q P) (hc : Cached s.runtime) (hQ : a.Uses Q)
    (hnew : ∀ request allowCreate n r' lanes, a = .getOrCreateBucket request allowCreate n →
      Creates f s.runtime request allowCreate n r' lanes →
      ∀ id, ∀ l ∈ assignRecoverySlots r' request id lanes.1, P id l) (h : s.Within P) :
    (step f s a).Within P := by
  obtain ⟨hr, hruns⟩ := h
  cases a with
  | getOrCreateBucket request allowCreate n =>
    exact ⟨hr.getOrCreate hc fun r' lanes => hnew request allowCreate n r' lanes rfl, hruns⟩
  | bucketMut request => exact ⟨hr.bucketMut, hruns⟩
  | bucketLane i j op n => exact ⟨hP.bucketLane hQ hr, hruns⟩
  | enqueuePrepared id n =>
    obtain ⟨hr', hrun⟩ := hP.enqueuePrepared hQ hr id
    simp only [Dynamic.step]
    revert hr' hrun
    obtain ⟨r', e | run⟩ := Dynamic.enqueuePrepared f s.runtime id n
    · exact fun hr' _ => ⟨hr', hruns⟩
    · intro hr' hrun
      refine ⟨hr', ?_⟩
      intro run' hm
      rcases List.mem_cons.mp hm with rfl | hm
      · exact hrun run' rfl
      · exact hruns run' hm
  | completeOwned k n consume =>
    simp only [Dynamic.step]
    split
    · rename_i run hk
      have hrun := hruns run (List.mem_of_getElem? hk)
      exact ⟨hP.completeOwned hr hrun, fun run' hm => hruns run' (List.mem_of_mem_eraseIdx hm)⟩
    · exact ⟨hr, hruns⟩
  | dropOwned k n =>
    simp only [Dynamic.step]
    split
    · rename_i run hk
      have hrun := hruns run (List.mem_of_getElem? hk)
      exact ⟨hP.dropOwned run hr hrun, fun run' hm => hruns run' (List.mem_of_mem_eraseIdx hm)⟩
    · exact ⟨hr, hruns⟩
  | runLane k op n =>
    refine ⟨hr, ?_⟩
    intro run hm
    obtain ⟨run', hm', rfl | rfl⟩ := mem_modify hm
    · exact hruns run hm'
    · have hrun := hruns run' hm'
      unfold OwnedDynamicIoRun.exec
      split
      · exact hP.exec op n hQ hrun
      · exact hrun
  | reclaimDroppedRuns => exact ⟨hr.reclaim, hruns⟩
  | removeBucket request n => exact ⟨hr.removeBucket, hruns⟩
  | clearBuckets n => exact ⟨hr.clearBuckets, hruns⟩
  | installShapePlan plan =>
    rcases installShapePlan_cases s.runtime plan with ⟨e, he⟩ | ⟨-, -, -, he⟩
    · simp only [Dynamic.step, he]
      exact ⟨hr, hruns⟩
    · simp only [Dynamic.step, he]
      exact ⟨hr.of_eq rfl rfl, hruns⟩

/-- A lane with this origin is in a bucket, or waits in a recovery cell, under this id. -/
def Holds (r : DynamicIoRuntime ins outs) (id : PreparedBucketId) (o : Origin ins outs) : Prop :=
  (∃ b ∈ r.buckets, b.id = id ∧ ∃ l ∈ b.lanes, l.origin = o) ∨
    ∃ (slot : Nat) (d : RecoveredDynamicLane ins outs),
      r.recovery.slots[slot]? = some (some d) ∧ d.bucketId = id ∧ d.lane.origin = o

/-- Every lane held was held before. -/
def NoNew (r r' : DynamicIoRuntime ins outs) : Prop := ∀ id o, Holds r' id o → Holds r id o

theorem within_iff (R : PreparedBucketId → Origin ins outs → Prop) :
    Within (fun id l => R id l.origin) r ↔ ∀ id o, Holds r id o → R id o := by
  constructor
  · rintro h id o (⟨b, hb, rfl, l, hl, rfl⟩ | ⟨slot, d, hd, rfl, rfl⟩)
    · exact h.buckets b hb l hl
    · exact h.cells slot d hd
  · intro h
    exact ⟨fun b hb l hl => h _ _ (.inl ⟨b, hb, rfl, l, hl, rfl⟩),
      fun slot d hd => h _ _ (.inr ⟨slot, d, hd, rfl, rfl⟩)⟩

theorem within_holds (r : DynamicIoRuntime ins outs) :
    Within (fun id l => Holds r id l.origin) r :=
  (within_iff (Holds r)).mpr fun _ _ h => h

/-- What keeps every property of lanes makes up no lane. -/
theorem noNew_of_within (h : Within (fun id l => Holds r id l.origin) r') : NoNew r r' :=
  (within_iff (Holds r)).mp h

theorem NoNew.trans (h : NoNew r r') (h' : NoNew r' r'') : NoNew r r'' :=
  fun id o hh => h id o (h' id o hh)

theorem noNew_of_eq (hb : r'.buckets = r.buckets) (hr : r'.recovery.slots = r.recovery.slots) :
    NoNew r r' :=
  noNew_of_within ((within_holds r).of_eq hb hr)

/-- No operation on a lane changes what it was built for. -/
theorem closed_origin {R : PreparedBucketId → Origin ins outs → Prop} :
    Closed f (fun _ => True) fun id (l : ServingLane ins outs) => R id l.origin :=
  ⟨trivial, trivial, trivial, fun _ _ _ h => h⟩

theorem holds_takeBack (hb : r.buckets[i]? = some b)
    (h : Holds (r.setBucket i (b.takeBack lane)) id o) :
    Holds r id o ∨ (b.id = id ∧ lane.origin = o) := by
  have hw := within_iff (r := r) fun id o => Holds r id o ∨ (b.id = id ∧ lane.origin = o)
  have hw' := (hw.mpr fun _ _ hh => .inl hh).takeBack lane hb (.inr ⟨rfl, rfl⟩)
  exact (within_iff fun id o => Holds r id o ∨ (b.id = id ∧ lane.origin = o)).mp hw' id o h

end Zrt.Dynamic
