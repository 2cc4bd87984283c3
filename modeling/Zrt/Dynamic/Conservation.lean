import Zrt.Dynamic.Exchange
import Zrt.Dynamic.Ledger

/-! Lanes are conserved over every run whose dropped tokens find their recovery cells. -/
namespace Zrt.Dynamic

open Lane (Features Native)
open Lending (lentBy)

variable {ins outs : Nat} {f : Features} {r r' : DynamicIoRuntime ins outs} {s t : State ins outs}
  {a : Op ins outs} {b : ShapeBucket ins outs} {run : OwnedDynamicIoRun ins outs} {n : Native}
  {held : Multiset (PreparedBucketId × Tag ins outs)} {lost : List (RecoveredDynamicLane ins outs)}
  {i k : Nat} {id : PreparedBucketId} {tag : Tag ins outs}

/-- The lane of a dropped token, after its last fence. -/
def OwnedDynamicIoRun.fenced (f : Features) (run : OwnedDynamicIoRun ins outs) (n : Native) :
    ServingLane ins outs :=
  run.lane.after (Lane.finishInFlightBestEffort f run.lane.toServingLane n)

/-- A token is dropped, its lane can be fenced, and there is no cell for the lane's recovery
slot. -/
def DropsBeyond (f : Features) (s : State ins outs) (a : Op ins outs) : Prop :=
  ∃ k n run, a = .dropOwned k n ∧ s.runs[k]? = some run ∧ (run.fenced f n).inFlight = false ∧
    ∀ slot, run.lane.recoverySlot = some slot → s.runtime.recovery.slots.length ≤ slot

/-- The lanes in the hands of the tokens. -/
def State.tokens (s : State ins outs) : Multiset (PreparedBucketId × Tag ins outs) :=
  (s.runs.map OwnedDynamicIoRun.loan : List (PreparedBucketId × Tag ins outs))

theorem tokens_erase (hk : s.runs[k]? = some run) : s.tokens = run.loan ::ₘ
    ((s.runs.eraseIdx k).map OwnedDynamicIoRun.loan : List (PreparedBucketId × Tag ins outs)) := by
  obtain ⟨hlt, rfl⟩ := List.getElem?_eq_some_iff.mp hk
  refine Multiset.coe_eq_coe.mpr ?_
  exact ((List.getElem_cons_eraseIdx_perm hlt).map OwnedDynamicIoRun.loan).symm

theorem fenced_tag : (run.fenced f n).tag = run.lane.tag :=
  tag_after Lane.slot_finishInFlightBestEffort

theorem dropOwned_eq : dropOwned f r run n =
    if (run.fenced f n).inFlight then
      { r with leaked := ⟨run.fenced f n, run.bucketId⟩ :: r.leaked }
    else match (run.fenced f n).recoverySlot.bind fun slot =>
        r.recovery.recover slot ⟨run.fenced f n, run.bucketId⟩ with
      | some recovery => { r with recovery := recovery }
      | none => r.lose ⟨run.fenced f n, run.bucketId⟩ := rfl

/-- A dropped lane goes to its cell, or stays unfenced on the books. -/
theorem ledger_dropOwned (h : Ledger r (run.loan ::ₘ held) lost)
    (hcell : (run.fenced f n).inFlight = false → ∃ slot, run.lane.recoverySlot = some slot ∧
      slot < r.recovery.slots.length) : Ledger (dropOwned f r run n) held lost := by
  have hl : Ledger r ((run.bucketId, (run.fenced f n).tag) ::ₘ held) lost := h.used fenced_tag
  rw [dropOwned_eq]
  cases hin : (run.fenced f n).inFlight with
  | true => exact ledger_leak (d := ⟨_, run.bucketId⟩) hl hin
  | false =>
    obtain ⟨slot, hs, hlt⟩ := hcell hin
    have hs' : (run.fenced f n).recoverySlot = some slot :=
      (congrArg Prod.snd (fenced_tag (f := f) (n := n))).trans hs
    have hr := hl.recover_eq (d := ⟨run.fenced f n, run.bucketId⟩) hs' hlt
    simp only [hs', Option.bind_some, hr]
    exact ledger_recover (d := ⟨run.fenced f n, run.bucketId⟩) hl hs' hr

/-- Without a cell it is lost to its bucket. -/
theorem ledger_dropOwned_beyond (h : Ledger r (run.loan ::ₘ held) lost)
    (hin : (run.fenced f n).inFlight = false)
    (hcell : ∀ slot, run.lane.recoverySlot = some slot → r.recovery.slots.length ≤ slot) :
    Ledger (dropOwned f r run n) held (⟨run.fenced f n, run.bucketId⟩ :: lost) := by
  have hl : Ledger r ((run.bucketId, (run.fenced f n).tag) ::ₘ held) lost := h.used fenced_tag
  have hs : (run.fenced f n).recoverySlot = run.lane.recoverySlot :=
    congrArg Prod.snd (fenced_tag (f := f) (n := n))
  have hnone : ((run.fenced f n).recoverySlot.bind fun slot =>
      r.recovery.recover slot ⟨run.fenced f n, run.bucketId⟩) = none := by
    rw [hs, Option.bind_eq_none_iff]
    intro slot hslot
    simp [RecoverySlots.recover, List.getElem?_eq_none (hcell slot hslot)]
  rw [dropOwned_eq, hin, hnone]
  exact ledger_lose (d := ⟨_, run.bucketId⟩) hl

theorem ledger_initial (h : Initial f s) : Ledger s.runtime s.tokens [] := by
  have hc := (cached_initial h).1
  obtain ⟨name, mode, laneCount, options, -, -, rfl⟩ := initial_cases h
  have hnone : ∀ k : Nat,
    (List.replicate k (none : Option (RecoveredDynamicLane ins outs))).reduceOption =
      [] := by
    intro k
    induction k with
    | zero => rfl
    | succ k ih => exact ih
  refine ⟨hc, ?_, ⟨List.length_replicate, ?_, List.nodup_nil, ?_⟩, by simp [DynamicIoRuntime.fresh],
    rfl⟩
  · have hloans : (DynamicIoRuntime.fresh name mode laneCount options :
      DynamicIoRuntime ins outs).loans = 0 := by
      simp only [DynamicIoRuntime.loans, DynamicIoRuntime.fresh, RecoverySlots.new,
        RecoverySlots.lanes, hnone]
      rfl
    rw [hloans]
    exact Lending.conserved_zero
  · intro i d hd
    simp [DynamicIoRuntime.fresh, RecoverySlots.new, List.getElem?_replicate] at hd
  · intro i
    simp [DynamicIoRuntime.fresh, RecoverySlots.new, List.getElem?_replicate]

/-- Every call keeps the books, whoever else holds lanes. -/
theorem ledger_step_held (h : Ledger s.runtime (s.tokens + held) lost) (hno : ¬ DropsBeyond f s a) :
    Ledger (step f s a).runtime ((step f s a).tokens + held) lost := by
  cases a with
  | getOrCreateBucket request allowCreate n => exact ledger_getOrCreate h
  | bucketMut request => exact ledger_bucketMut h
  | bucketLane i j op n => exact h.of_same sameBooks_bucketLane
  | enqueuePrepared id n =>
    have he := ledger_enqueuePrepared (f := f) id n h
    simp only [step]
    revert he
    obtain ⟨r', e | run⟩ := enqueuePrepared f s.runtime id n
    · rintro (⟨-, he⟩ | ⟨run, hrun, -⟩)
      · exact he
      · cases hrun
    · rintro (⟨⟨e, he⟩, -⟩ | ⟨run', hrun, he⟩)
      · cases he
      · obtain rfl := Except.ok.inj hrun
        rw [← Multiset.cons_add] at he
        exact he
  | completeOwned k n consume =>
    simp only [step]
    split
    · rename_i run hk
      rw [tokens_erase hk, Multiset.cons_add] at h
      exact ledger_completeOwned h
    · exact h
  | dropOwned k n =>
    simp only [step]
    split
    · rename_i run hk
      rw [tokens_erase hk, Multiset.cons_add] at h
      refine ledger_dropOwned h ?_
      intro hin
      by_contra hcell
      exact hno ⟨k, n, run, rfl, hk, hin, fun slot hs => Nat.le_of_not_lt fun hlt =>
        hcell ⟨slot, hs, hlt⟩⟩
    · exact h
  | runLane k op n =>
    have htokens : (step f s (.runLane k op n)).tokens = s.tokens := by
      refine congrArg Multiset.ofList (map_modify_same ?_)
      intro run
      unfold OwnedDynamicIoRun.exec
      split
      · exact congrArg (Prod.mk run.bucketId) (tag_after Lane.slot_exec)
      · rfl
    rw [htokens]
    exact h
  | reclaimDroppedRuns => exact ledger_reclaim h
  | removeBucket request n => exact ledger_removeBucket h
  | clearBuckets n => exact ledger_clearBuckets h
  | installShapePlan plan =>
    rcases installShapePlan_cases s.runtime plan with ⟨e, he⟩ | ⟨-, -, -, he⟩
    · simp only [step, he]
      exact h
    · simp only [step, he]
      exact ⟨⟨h.cached.indexed, h.cached.keys, h.cached.bound⟩, h.conserved, h.stored, h.unfenced,
        h.lost⟩

/-- The order of a bucket's lanes is not in the books. -/
theorem sameBooks_reorder {lanes : List (ServingLane ins outs)} (hb : r.buckets[i]? = some b)
    (hperm : lanes.Perm b.lanes) : SameBooks r (r.setBucket i { b with lanes := lanes }) := by
  have hshelf : r.shelf { b with lanes := lanes } = r.shelf b := by
    have htags : ((lanes.map ServingLane.tag : List (Tag ins outs)) : Multiset (Tag ins outs)) =
        (b.lanes.map ServingLane.tag : List (Tag ins outs)) :=
      Multiset.coe_eq_coe.mpr (hperm.map _)
    simp only [DynamicIoRuntime.shelf, htags]
    rfl
  have hmap : (r.setBucket i { b with lanes := lanes }).buckets.map r.shelf =
      r.buckets.map r.shelf := map_set_same hb hshelf
  exact ⟨sameIndex_set hb rfl, congrArg Multiset.ofList hmap, rfl, rfl, rfl⟩

/-- An exchange in place keeps the books. -/
theorem ledger_exchange {x : Exchange ins outs} (h : Ledger s.runtime (s.tokens + held) lost)
    (hx : x.InPlace) : Ledger (s.exchange x).runtime ((s.exchange x).tokens + held) lost := by
  rcases exchange_inPlace (s := s) hx with he | ⟨i, b, lanes, hb, hperm, he⟩ <;> rw [he]
  · exact h
  · exact h.of_same (sameBooks_reorder hb hperm)

/-- A lane dropped without a cell is lost to its bucket. -/
theorem ledger_dropsBeyond (h : Ledger s.runtime (s.tokens + held) lost) (hd : DropsBeyond f s a) :
    ∃ d, Ledger (step f s a).runtime ((step f s a).tokens + held) (d :: lost) := by
  obtain ⟨k, n, run, rfl, hk, hin, hcell⟩ := hd
  rw [tokens_erase hk, Multiset.cons_add] at h
  simp only [step, hk]
  exact ⟨_, ledger_dropOwned_beyond h hin hcell⟩

/-- The lanes, place by place: in a bucket, in a token, in a recovery cell, leaked. -/
def State.places (s : State ins outs) : List (ServingLane ins outs) :=
  s.runtime.buckets.flatMap ShapeBucket.lanes ++ s.runs.map OwnedDynamicIoRun.lane ++
    (s.runtime.recovery.lanes.map RecoveredDynamicLane.lane ++
      s.runtime.leaked.map RecoveredDynamicLane.lane)

/-- No lane appears, disappears, or ends up where it does not belong. -/
structure LanesConserved (s : State ins outs) : Prop where
  whole : ∀ b ∈ s.runtime.buckets, b.lanes.length + b.detachedLanes = s.runtime.laneCount
  detached : ∀ b ∈ s.runtime.buckets, b.detachedLanes =
    (s.runs.countP fun run => run.bucketId = b.id) +
      (s.runtime.recovery.lanes.countP fun d => d.bucketId = b.id) +
      s.runtime.leaked.countP fun d => d.bucketId = b.id
  unfenced : ∀ d ∈ s.runtime.leaked, d.lane.inFlight = true
  apart : (s.places.map fun l => l.origin).Nodup
  home : ∀ b ∈ s.runtime.buckets, ∀ l ∈ b.lanes, l.origin.bucketId = b.id
  tokens : ∀ run ∈ s.runs, run.lane.origin.bucketId = run.bucketId ∧
    run.bucketId ∈ s.runtime.bucketIds
  away : ∀ d ∈ s.runtime.recovery.lanes ++ s.runtime.leaked,
    d.lane.origin.bucketId = d.bucketId ∧ d.bucketId ∈ s.runtime.bucketIds

/-- The loans of a bucket are its detached lanes. -/
theorem Ledger.detached (h : Ledger s.runtime s.tokens lost) (hb : b ∈ s.runtime.buckets) :
    b.detachedLanes = (s.runs.countP fun run => run.bucketId = b.id) +
      (s.runtime.recovery.lanes.countP fun d => d.bucketId = b.id) +
      (s.runtime.leaked.countP fun d => d.bucketId = b.id) +
      lost.countP fun d => d.bucketId = b.id := by
  have hl := (h.balanced hb).lent
  rw [Lending.card_lentBy, Multiset.countP_add, State.tokens, DynamicIoRuntime.loans, h.lost,
    Multiset.coe_countP, Multiset.coe_countP, List.countP_map, List.countP_map, List.countP_append,
    List.countP_append, ← Nat.add_assoc, ← Nat.add_assoc] at hl
  exact hl

/-- The tags of all lanes, those on the books and those lost. -/
theorem places_tags (h : Ledger s.runtime s.tokens []) :
    ((s.places.map ServingLane.tag : List (Tag ins outs)) : Multiset (Tag ins outs)) =
      s.runtime.shelves.bind Lending.Shelf.items + (s.tokens + s.runtime.loans).map Prod.snd := by
  have hbuckets : s.runtime.shelves.bind Lending.Shelf.items =
      ((s.runtime.buckets.flatMap ShapeBucket.lanes).map ServingLane.tag :
        List (Tag ins outs)) := by
    rw [DynamicIoRuntime.shelves, ← Multiset.map_coe, Multiset.bind_map, List.map_flatMap,
      ← Multiset.coe_bind]
    rfl
  rw [hbuckets, Multiset.map_add, State.tokens, DynamicIoRuntime.loans, h.lost, List.append_nil,
    Multiset.map_coe, Multiset.map_coe, Multiset.coe_add, Multiset.coe_add, State.places,
    List.map_append, List.map_append, List.map_append, List.append_assoc]
  simp only [List.map_map, List.map_append]
  rfl

/-- Every lane is one of those its bucket was built with. -/
theorem Ledger.of_tag (h : Ledger s.runtime s.tokens lost)
    (ht : tag ∈ s.runtime.shelves.bind Lending.Shelf.items +
      (s.tokens + s.runtime.loans).map Prod.snd) :
    ∃ b ∈ s.runtime.buckets, tag ∈ s.runtime.stock b := by
  rw [h.conserved.total, Multiset.mem_bind] at ht
  obtain ⟨shelf, hs, ht⟩ := ht
  obtain ⟨b, hb, rfl⟩ := mem_shelves.mp hs
  exact ⟨b, hb, ht⟩

theorem Ledger.slots_apart (h : Ledger s.runtime s.tokens []) :
    (s.places.map fun l => l.recoverySlot).Nodup := by
  have hn := h.nodup_slots
  rw [← places_tags h, Multiset.map_coe, Multiset.coe_nodup, List.map_map] at hn
  exact hn

/-- A lane's recovery slot is fixed by the bucket it was built for and its place there. -/
theorem Ledger.slot_eq (h : Ledger s.runtime s.tokens []) {l : ServingLane ins outs}
    (hl : l ∈ s.places) : ∃ b ∈ s.runtime.buckets, l.origin.bucketId = b.id ∧
      l.origin.index < s.runtime.laneCount ∧ l.recoverySlot =
        some (l.origin.bucketId.slot * s.runtime.laneCount + l.origin.index) := by
  have hm : l.tag ∈ ((s.places.map ServingLane.tag : List (Tag ins outs)) :
      Multiset (Tag ins outs)) := List.mem_map_of_mem hl
  rw [places_tags h] at hm
  obtain ⟨b, hb, ht⟩ := h.of_tag hm
  obtain ⟨i, hi, he⟩ := mem_stock.mp ht
  obtain ⟨ho, hs⟩ := Prod.mk.inj he
  rw [hs, ho]
  exact ⟨b, hb, rfl, hi, rfl⟩

theorem Ledger.lanesConserved (h : Ledger s.runtime s.tokens []) : LanesConserved s := by
  have haway : ∀ id (l : ServingLane ins outs), (id, l.tag) ∈ s.tokens + s.runtime.loans →
      l.origin.bucketId = id ∧ id ∈ s.runtime.bucketIds := by
    intro id l hl
    obtain ⟨b, hb, rfl, ht⟩ := h.source hl
    obtain ⟨i, -, he⟩ := mem_stock.mp ht
    exact ⟨congrArg (fun tag : Tag ins outs => tag.1.bucketId) he, List.mem_map.mpr ⟨b, hb, rfl⟩⟩
  refine ⟨fun b hb => h.whole hb, ?_, h.unfenced, ?_, ?_, ?_, ?_⟩
  · intro b hb
    exact h.detached hb
  · -- the recovery slots differ, and each is determined by the lane's origin
    refine List.Nodup.of_map (fun o : Origin ins outs =>
      some (o.bucketId.slot * s.runtime.laneCount + o.index)) ?_
    have hn := h.slots_apart
    rw [List.map_congr_left fun l hl => (h.slot_eq hl).choose_spec.2.2.2] at hn
    rw [List.map_map]
    exact hn
  · intro b hb l hl
    have hm : l.tag ∈ (s.runtime.shelf b).items := List.mem_map_of_mem hl
    obtain ⟨i, -, he⟩ := mem_stock.mp ((h.balanced hb).mem_stock_of_item hm)
    exact congrArg (fun tag : Tag ins outs => tag.1.bucketId) he
  · intro run hrun
    have hm : run.loan ∈ s.tokens := List.mem_map_of_mem hrun
    exact haway run.bucketId run.lane (Multiset.mem_add.mpr (.inl hm))
  · intro d hd
    have hm : d.loan ∈ s.runtime.loans := List.mem_map_of_mem (List.mem_append_left _ hd)
    exact haway d.bucketId d.lane (Multiset.mem_add.mpr (.inr hm))

/-- The buckets with detached lanes are still cached. -/
def Pins (r r' : DynamicIoRuntime ins outs) : Prop :=
  ∀ b ∈ r.buckets, b.detachedLanes ≠ 0 → b.id ∈ r'.bucketIds

theorem pins_of_ids (h : r.bucketIds ⊆ r'.bucketIds) : Pins r r' :=
  fun b hb _ => h (List.mem_map.mpr ⟨b, hb, rfl⟩)

theorem pins_dropBucket (hb : r.buckets[i]? = some b) (h0 : b.detachedLanes = 0) :
    Pins r (r.dropBucket i b) := by
  intro c hc hd
  have hm : c ∈ (r.buckets : Multiset (ShapeBucket ins outs)) := hc
  rw [← SwapRemove.cons_swapRemove hb] at hm
  rcases Multiset.mem_cons.mp hm with rfl | hm
  · exact absurd h0 hd
  · exact List.mem_map.mpr ⟨c, hm, rfl⟩

theorem retired_bucketIds (b : ShapeBucket ins outs) :
    (r.retired b).bucketIds = r.bucketIds := by
  rw [DynamicIoRuntime.bucketIds, retired_buckets]
  rfl

theorem pins_retireBucketAt {n : Nat → Native} : Pins r (retireBucketAt f r i n).1 := by
  rcases retireBucketAt_cases (f := f) r i n with ⟨he, -⟩ | ⟨b, hb, h0, he⟩ <;> rw [he]
  · exact pins_of_ids fun _ h => h
  · intro c hc hd
    rw [retired_bucketIds]
    exact pins_dropBucket hb h0 c hc hd

theorem pins_evict {n : Nat → Native} : Pins r (evictOneBucketIfFull f r n).1 := by
  rcases evict_cases (f := f) r n with ⟨-, he⟩ | ⟨-, ⟨e, he⟩ | ⟨e, he⟩ | ⟨i, b, hb, h0, he⟩⟩ <;>
    rw [he]
  · exact pins_of_ids fun _ h => h
  · exact pins_of_ids fun _ h => h
  · exact pins_of_ids fun _ h => h
  · intro c hc hd
    rw [retired_bucketIds]
    exact pins_dropBucket (r := { r with hotBucket := none }) hb h0 c hc hd

theorem pins_clearBuckets {n : Nat → Nat → Native} :
    Pins (reclaimDroppedRuns r).1 (clearBuckets f r n).1 := by
  unfold clearBuckets
  dsimp only
  split
  · exact pins_of_ids fun _ h => h
  · rename_i hany
    intro b hb hd
    exact absurd (List.any_eq_true.mpr ⟨b, hb, by simpa using hd⟩) hany

theorem pins_removeBucket {request : ShapeKey ins outs} {n : Nat → Native} :
    Pins (reclaimDroppedRuns r).1 (removeBucket f r request n).1 := by
  unfold removeBucket
  dsimp only
  split
  · exact pins_of_ids fun _ h => h
  · split
    · exact pins_of_ids fun _ h => h
    · exact pins_retireBucketAt (r := { (reclaimDroppedRuns r).1 with hotBucket := none })

theorem pins_getOrCreate {request : ShapeKey ins outs} {allowCreate : Bool} {n : CreateNative}
    (hc : Cached r) :
    Pins (reclaimDroppedRuns r).1 (getOrCreateBucketInner f r request allowCreate n).1 := by
  have hids : (reclaimDroppedRuns r).1.bucketIds = r.bucketIds := sameIndex_reclaim.ids
  rcases getOrCreate_outcomes (f := f) r request allowCreate n with
    he | ⟨r₁, hl, he⟩ | ⟨r', lanes, hcr, he⟩ <;> rw [he]
  · refine pins_of_ids ?_
    rw [(sameIndex_lookupBucket r request allowCreate n.released).ids, hids]
    exact fun _ h => h
  · obtain ⟨-, -, rfl⟩ := lookupBucket_miss hl
    have hev := pins_evict (f := f) (n := n.fence)
      (r := reapRetiredBuckets (reclaimDroppedRuns r).1 n.released)
    rcases prepareBucket_cases (f := f) (reapRetiredBuckets (reclaimDroppedRuns r).1 n.released) n
      with ⟨-, e, hq⟩ | ⟨r', e, hr', hq⟩ | ⟨r', hr', hq⟩
    · rw [hq]
      exact pins_of_ids fun _ h => h
    · rw [hr'] at hev
      rw [hq]
      exact hev
    · rw [hr'] at hev
      rw [hq]
      exact hev
  · obtain ⟨hs, hk, hroom⟩ := creates_shrinks hcr
    obtain ⟨r₁, hl, hev, -⟩ := creates_cases hcr
    obtain ⟨-, -, rfl⟩ := lookupBucket_miss hl
    have hpins := pins_evict (f := f) (n := n.fence)
      (r := reapRetiredBuckets (reclaimDroppedRuns r).1 n.released)
    rw [hev] at hpins
    intro b hb hd
    exact (insertBucket_spec _ _ (hs.cached hc) hk (hroom hc)).ids.subset (hpins b hb hd)

/-- No call gives up a bucket that still has detached lanes once the dropped runs are back. -/
theorem pins_step (hc : Cached s.runtime) :
    Pins (reclaimDroppedRuns s.runtime).1 (step f s a).runtime := by
  have hsame : ∀ {r : DynamicIoRuntime ins outs}, SameIndex s.runtime r →
      Pins (reclaimDroppedRuns s.runtime).1 r := by
    intro r h
    refine pins_of_ids ?_
    rw [h.ids, sameIndex_reclaim.ids]
    exact fun _ h => h
  cases a with
  | getOrCreateBucket request allowCreate n => exact pins_getOrCreate hc
  | removeBucket request n => exact pins_removeBucket
  | clearBuckets n => exact pins_clearBuckets
  | bucketMut request => exact hsame sameIndex_bucketMut
  | bucketLane i j op n => exact hsame sameIndex_bucketLane
  | enqueuePrepared id n => exact hsame sameIndex_enqueueStep
  | completeOwned k n consume => exact hsame sameIndex_completeStep
  | dropOwned k n => exact hsame sameIndex_dropStep
  | runLane k op n => exact hsame .refl
  | reclaimDroppedRuns => exact hsame sameIndex_reclaim
  | installShapePlan plan =>
    have hids : (step f s (.installShapePlan plan)).runtime.bucketIds = s.runtime.bucketIds := by
      rcases installShapePlan_cases s.runtime plan with ⟨e, he⟩ | ⟨-, -, -, he⟩
      · rw [step, he]
      · rw [step, he]
        rfl
    refine pins_of_ids ?_
    rw [hids, sameIndex_reclaim.ids]
    exact fun _ h => h

/-- As long as no token is dropped whose lane can be fenced but has no recovery cell, and nothing
lent is exchanged but the lanes of one bucket: every lane is in its bucket or away from it in
exactly one place, and its bucket stays while it is away. -/
theorem lanes_conserved
    (h : Lts.Reachable ((lentLts f ins outs).restrict fun s =>
      Sum.elim (fun a => ¬ DropsBeyond f s a) Exchange.InPlace) s) :
    LanesConserved s ∧ ∀ a, ∀ b ∈ (reclaimDroppedRuns s.runtime).1.buckets, b.detachedLanes ≠ 0 →
      b.id ∈ (step f s a).runtime.bucketIds := by
  have hl : Ledger s.runtime (s.tokens + 0) [] := by
    refine Lts.invariant_beside (P := fun s => Ledger s.runtime (s.tokens + 0) []) ?_ ?_ ?_ h
    · intro s hi
      rw [add_zero]
      exact ledger_initial hi
    · rintro s a t hl hno rfl
      exact ledger_step_held hl hno
    · exact fun s x hl hx => ledger_exchange hl hx
  rw [add_zero] at hl
  exact ⟨hl.lanesConserved, fun a => pins_step hl.cached⟩

/-- The condition is exact: a token so dropped takes its lane out of the account. -/
theorem dropsBeyond_step (h : Ledger s.runtime s.tokens []) (hd : DropsBeyond f s a) :
    ¬ LanesConserved (step f s a) := by
  obtain ⟨k, n, run, rfl, hk, hin, hcell⟩ := hd
  rw [tokens_erase hk] at h
  have hstep : step f s (.dropOwned k n) = ⟨dropOwned f s.runtime run n, s.runs.eraseIdx k⟩ := by
    simp only [step, hk]
  have hl : Ledger (step f s (.dropOwned k n)).runtime (step f s (.dropOwned k n)).tokens
      [⟨run.fenced f n, run.bucketId⟩] := by
    rw [hstep]
    exact ledger_dropOwned_beyond h hin hcell
  intro hc
  have hlost : (run.bucketId, (run.fenced f n).tag) ∈
      (step f s (.dropOwned k n)).runtime.loans := by
    have hm : ⟨run.fenced f n, run.bucketId⟩ ∈ (step f s (.dropOwned k n)).runtime.lost := by
      rw [hl.lost]
      exact List.mem_singleton.mpr rfl
    have hloan := List.mem_map_of_mem (f := RecoveredDynamicLane.loan)
      (List.mem_append_right ((step f s (.dropOwned k n)).runtime.recovery.lanes ++
        (step f s (.dropOwned k n)).runtime.leaked) hm)
    exact hloan
  obtain ⟨b, hb, hid, -⟩ := hl.source (Multiset.mem_add.mpr (.inr hlost))
  have h₁ := hl.detached hb
  have h₂ := hc.detached b hb
  simp only [List.countP_cons, List.countP_nil, hid, decide_true, if_true] at h₁ h₂
  omega

theorem lanes_conserved_enqueued : ∃ s : State 1 1, LanesConserved s ∧ s.runs.length = 1 ∧
    s.runtime.buckets.map (fun b => (b.lanes.length, b.detachedLanes)) = [(1, 1)] := by
  have hinit : Initial ⟨false, false⟩ ⟨emptyRuntime 1 1 2 ⟨[], []⟩ 0, []⟩ :=
    emptyRuntime_initial (by decide) (by decide)
  have hno : ∀ (s : State 1 1) (a : Op 1 1), (∀ k n, a ≠ .dropOwned k n) →
      ¬ DropsBeyond ⟨false, false⟩ s a := by
    rintro s a ha ⟨k, n, -, rfl, -⟩
    exact ha k n rfl
  have hcreate := hno ⟨emptyRuntime 1 1 2 ⟨[], []⟩ 0, []⟩ (.getOrCreateBucket unitKey true .success)
    (by simp)
  have henqueue := hno (step ⟨false, false⟩ ⟨emptyRuntime 1 1 2 ⟨[], []⟩ 0, []⟩
    (.getOrCreateBucket unitKey true .success)) (.enqueuePrepared ⟨0, 1⟩ .success) (by simp)
  have h₀ := Lts.Reachable.initial (L := (dynamicLts ⟨false, false⟩ 1 1).restrict fun s a =>
    ¬ DropsBeyond ⟨false, false⟩ s a) hinit
  have h₁ := Lts.Reachable.step h₀ ⟨hcreate, rfl⟩
  have h₂ := Lts.Reachable.step h₁ ⟨henqueue, rfl⟩
  exact ⟨_, (lanes_conserved (Lts.reachable_beside h₂)).1, rfl, rfl⟩

/-- With one slot exhausted the only bucket gets the second, and its lane a recovery slot past the
only cell: a token that is dropped is lost to it. So is one that is completed after its bucket was
exchanged for another, as its id leads nowhere. -/
theorem lanes_conserved_fails :
    (∃ s : State 1 1, Reachable ⟨false, false⟩ s ∧ ¬ LanesConserved s) ∧
    ∃ s : State 1 1, Lts.Reachable (lentLts ⟨false, false⟩ 1 1) s ∧ ¬ LanesConserved s := by
  constructor
  · have hworn : Worn ⟨false, false⟩ 1 1 1 (exhaustedSlots 1) :=
      worn_exhausted unitKey (by decide) (by decide) (by decide) (by decide)
    obtain ⟨tick, hr⟩ := worn_create unitKey hworn (by decide) (by decide)
    refine ⟨_, .step (a := .dropOwned 0 .success) (.step (a := .enqueuePrepared ⟨1,
      1⟩ .success) hr rfl) rfl, ?_⟩
    intro hc
    have hcount : 1 = 0 := hc.detached _ (List.mem_singleton.mpr rfl)
    exact absurd hcount (by decide)
  · have h₁ := pairState_reachable.ours (.enqueuePrepared ⟨0, 1⟩ .success) rfl
    have h₂ := h₁.theirs (.buckets 0 1)
    have h₃ := h₂.ours (.completeOwned 0 .success fun _ => .ok ()) rfl
    refine ⟨_, h₃, ?_⟩
    intro hc
    have hcount : 1 = 0 := hc.detached _ (List.mem_cons_of_mem _ List.mem_cons_self)
    exact absurd hcount (by decide)

end Zrt.Dynamic
