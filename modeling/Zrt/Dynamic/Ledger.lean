import Mathlib.Data.List.ReduceOption
import Mathlib.Data.Multiset.Range
import Zrt.Dynamic.Index
import Zrt.Lane.Frame
import Zrt.Lending

/-! Every lane of a runtime is in its bucket, or away from it in one place. -/
namespace Zrt.Dynamic

open Lane (Features Native)
open Lending (Conserved Shelf)
open SwapRemove

variable {ins outs : Nat} {f : Features} {r : DynamicIoRuntime ins outs}
  {b b' : ShapeBucket ins outs} {lane lane' : ServingLane ins outs} {i slot : Nat}
  {id : PreparedBucketId} {d : RecoveredDynamicLane ins outs}

/-- What a lane keeps for life: what it was built for, and its recovery slot. -/
abbrev Tag (ins outs : Nat) : Type := Origin ins outs × Option Nat

def ServingLane.tag (l : ServingLane ins outs) : Tag ins outs := (l.origin, l.recoverySlot)

/-- The lanes bucket `b` was built with. -/
def DynamicIoRuntime.stock (r : DynamicIoRuntime ins outs) (b : ShapeBucket ins outs) :
    Multiset (Tag ins outs) :=
  (Multiset.range r.laneCount).map fun i =>
    (⟨r.name, b.key, b.id, i⟩, some (b.id.slot * r.laneCount + i))

/-- A bucket as a shelf that lends out its lanes. -/
def DynamicIoRuntime.shelf (r : DynamicIoRuntime ins outs) (b : ShapeBucket ins outs) :
    Shelf PreparedBucketId (Tag ins outs) where
  id := b.id
  stock := r.stock b
  items := (b.lanes.map ServingLane.tag : List (Tag ins outs))
  lent := b.detachedLanes

def DynamicIoRuntime.shelves (r : DynamicIoRuntime ins outs) :
    Multiset (Shelf PreparedBucketId (Tag ins outs)) :=
  (r.buckets.map r.shelf : List (Shelf PreparedBucketId (Tag ins outs)))

def RecoveredDynamicLane.loan (d : RecoveredDynamicLane ins outs) :
    PreparedBucketId × Tag ins outs :=
  (d.bucketId, d.lane.tag)

def OwnedDynamicIoRun.loan (run : OwnedDynamicIoRun ins outs) : PreparedBucketId × Tag ins outs :=
  (run.bucketId, run.lane.tag)

/-- The lanes that wait in recovery cells. -/
def RecoverySlots.lanes (s : RecoverySlots ins outs) : List (RecoveredDynamicLane ins outs) :=
  s.slots.reduceOption

/-- The lanes that are neither in a bucket nor in anyone's hands. -/
def DynamicIoRuntime.loans (r : DynamicIoRuntime ins outs) :
    Multiset (PreparedBucketId × Tag ins outs) :=
  ((r.recovery.lanes ++ r.leaked ++ r.lost).map RecoveredDynamicLane.loan :
    List (PreparedBucketId × Tag ins outs))

/-- Recovered lanes are in their own cells, and the ready stack lists these cells. -/
structure Stored (s : RecoverySlots ins outs) (capacity : Nat) : Prop where
  length : s.slots.length = capacity
  slot : ∀ (i : Nat) (d : RecoveredDynamicLane ins outs), s.slots[i]? = some (some d) →
    d.lane.recoverySlot = some i
  nodup : s.ready.Nodup
  ready : ∀ i, i ∈ s.ready ↔ ∃ d, s.slots[i]? = some (some d)

/-- The books of a runtime, with `held` the lanes in the hands of others and `lost` those that
were forgotten without need. -/
structure Ledger (r : DynamicIoRuntime ins outs) (held : Multiset (PreparedBucketId × Tag ins outs))
    (lost : List (RecoveredDynamicLane ins outs)) : Prop where
  cached : Cached r
  conserved : Conserved r.shelves (held + r.loans)
  stored : Stored r.recovery (r.options.maxBuckets * r.laneCount)
  unfenced : ∀ d ∈ r.leaked, d.lane.inFlight = true
  lost : r.lost = lost

variable {held : Multiset (PreparedBucketId × Tag ins outs)}
  {lost : List (RecoveredDynamicLane ins outs)} {t : Tag ins outs}

theorem mem_stock : t ∈ r.stock b ↔ ∃ i < r.laneCount,
    t = (⟨r.name, b.key, b.id, i⟩, some (b.id.slot * r.laneCount + i)) := by
  simp only [DynamicIoRuntime.stock, Multiset.mem_map, Multiset.mem_range]
  exact ⟨fun ⟨i, hi, he⟩ => ⟨i, hi, he.symm⟩, fun ⟨i, hi, he⟩ => ⟨i, hi, he.symm⟩⟩

theorem card_stock : (r.stock b).card = r.laneCount := by
  simp [DynamicIoRuntime.stock]

theorem mem_shelves {s : Shelf PreparedBucketId (Tag ins outs)} :
    s ∈ r.shelves ↔ ∃ b ∈ r.buckets, r.shelf b = s := by
  simp [DynamicIoRuntime.shelves]

theorem Ledger.balanced (h : Ledger r held lost) (hb : b ∈ r.buckets) :
    (r.shelf b).Balanced (held + r.loans) :=
  h.conserved.balanced _ (mem_shelves.mpr ⟨b, hb, rfl⟩)

/-- The lanes in a bucket and its detached lanes are as many as it was built with. -/
theorem Ledger.whole (h : Ledger r held lost) (hb : b ∈ r.buckets) :
    b.lanes.length + b.detachedLanes = r.laneCount := by
  have hcard := (h.balanced hb).card
  simpa [DynamicIoRuntime.shelf, card_stock] using hcard

/-- A lane away from its bucket belongs to a cached one. -/
theorem Ledger.source (h : Ledger r held lost) (hl : (id, t) ∈ held + r.loans) :
    ∃ b ∈ r.buckets, b.id = id ∧ t ∈ r.stock b := by
  obtain ⟨s, hs, hid⟩ := h.conserved.known _ hl
  obtain ⟨b, hb, rfl⟩ := mem_shelves.mp hs
  obtain rfl : b.id = id := hid
  exact ⟨b, hb, rfl, (h.balanced hb).mem_stock hl⟩

/-- Its bucket's id resolves. -/
theorem Ledger.resolves (h : Ledger r held lost) (hl : (id, t) ∈ held + r.loans) :
    ∃ i b, r.bucketIndex id = some i ∧ r.buckets[i]? = some b ∧ b.id = id := by
  obtain ⟨b, hb, hid, -⟩ := h.source hl
  obtain ⟨i, hi⟩ := List.mem_iff_getElem?.mp hb
  refine ⟨i, b, (preparedBucketIndex_iff h.cached.indexed).mpr ?_, hi, hid⟩
  simp [DynamicIoRuntime.bucketIds, hi, hid]

/-- Writing a bucket back replaces its shelf. -/
theorem shelves_set (hb : r.buckets[i]? = some b) : ∃ rest, r.shelves = r.shelf b ::ₘ rest ∧
    ∀ b', (r.setBucket i b').shelves = r.shelf b' ::ₘ rest := by
  obtain ⟨hi, rfl⟩ := List.getElem?_eq_some_iff.mp hb
  refine ⟨((r.buckets.eraseIdx i).map r.shelf : List _), ?_, ?_⟩
  · refine Multiset.coe_eq_coe.mpr ?_
    exact ((List.getElem_cons_eraseIdx_perm hi).map r.shelf).symm
  · intro b'
    refine Multiset.coe_eq_coe.mpr ?_
    exact (List.set_perm_cons_eraseIdx hi b').map r.shelf

theorem ledger_giveOut (h : Ledger r held lost) (hb : r.buckets[i]? = some b)
    (hl : b.lanes.getLast? = some lane) :
    Ledger (r.setBucket i b.giveOut) ((b.id, lane.tag) ::ₘ held) lost := by
  obtain ⟨rest, hs, hs'⟩ := shelves_set hb
  have hlanes : b.lanes.dropLast ++ [lane] = b.lanes := List.dropLast_append_getLast? lane hl
  have hitems : ((b.lanes.map ServingLane.tag : List (Tag ins outs)) : Multiset (Tag ins outs)) =
      lane.tag ::ₘ (b.lanes.dropLast.map ServingLane.tag : List (Tag ins outs)) := by
    conv_lhs => rw [← hlanes]
    refine Multiset.coe_eq_coe.mpr ?_
    rw [List.map_append]
    exact List.perm_append_singleton _ _
  have hshelf : r.shelf b = ⟨b.id, r.stock b,
      lane.tag ::ₘ (b.lanes.dropLast.map ServingLane.tag : List (Tag ins outs)),
      b.detachedLanes⟩ := by
    rw [← hitems]
    rfl
  have hc := h.conserved
  rw [hs, hshelf] at hc
  have hidx : SameIndex r (r.setBucket i b.giveOut) := sameIndex_set hb rfl
  refine ⟨hidx.shrinks.cached h.cached, ?_, h.stored, h.unfenced, h.lost⟩
  rw [hs', Multiset.cons_add]
  exact Lending.conserved_exchange.mpr hc

/-- A lane can always go back to the bucket it is away from. -/
theorem ledger_takeBack (h : Ledger r ((b.id, lane.tag) ::ₘ held) lost)
    (hb : r.buckets[i]? = some b) : b.detachedLanes ≠ 0 ∧ b.lanes.length < r.laneCount ∧
      Ledger (r.setBucket i (b.takeBack lane)) held lost := by
  obtain ⟨rest, hs, hs'⟩ := shelves_set hb
  have hc := h.conserved
  rw [hs, Multiset.cons_add] at hc
  have hpos : b.detachedLanes ≠ 0 := Lending.Conserved.lent_pos (s := r.shelf b) hc
  have hwhole := h.whole (List.mem_of_getElem? hb)
  have hshelf : r.shelf b = ⟨b.id, r.stock b, (b.lanes.map ServingLane.tag : List (Tag ins outs)),
      b.detachedLanes - 1 + 1⟩ := by
    rw [Nat.sub_add_cancel (by omega)]
    rfl
  have hback : r.shelf (b.takeBack lane) = ⟨b.id, r.stock b,
      lane.tag ::ₘ (b.lanes.map ServingLane.tag : List (Tag ins outs)), b.detachedLanes - 1⟩ := by
    have hitems : ((b.lanes ++ [lane]).map ServingLane.tag : Multiset (Tag ins outs)) =
        lane.tag ::ₘ (b.lanes.map ServingLane.tag : List (Tag ins outs)) := by
      refine Multiset.coe_eq_coe.mpr ?_
      rw [List.map_append]
      exact List.perm_append_singleton _ _
    rw [← hitems]
    rfl
  have hidx : SameIndex r (r.setBucket i (b.takeBack lane)) := sameIndex_set hb rfl
  refine ⟨hpos, by omega, hidx.shrinks.cached h.cached, ?_, h.stored, h.unfenced, h.lost⟩
  rw [hs', hback]
  rw [hshelf] at hc
  exact Lending.conserved_exchange.mp hc

/-- A lane that returns is never refused. -/
theorem ledger_returnDetachedLane (h : Ledger r ((id, lane.tag) ::ₘ held) lost) :
    ∃ i b, r.buckets[i]? = some b ∧ b.id = id ∧
      returnDetachedLane r id lane = (r.setBucket i (b.takeBack lane), .ok ()) ∧
      Ledger (r.setBucket i (b.takeBack lane)) held lost := by
  have hl : (id, lane.tag) ∈ (id, lane.tag) ::ₘ held + r.loans := by simp
  obtain ⟨i, b, hi, hb, rfl⟩ := h.resolves hl
  obtain ⟨hpos, hlt, hback⟩ := ledger_takeBack h hb
  rcases returnDetachedLane_cases r b.id lane with ⟨hno, -⟩ | ⟨i', b', hi', hb', -, hc⟩
  · rw [hi] at hno
    cases hno
  · obtain rfl := Option.some.inj (hi.symm.trans hi')
    obtain rfl := Option.some.inj (hb.symm.trans hb')
    rcases hc with ⟨hfull, -⟩ | ⟨-, -, he⟩
    · omega
    · exact ⟨i, b, hb, rfl, he, hback⟩

/-- Writing a cell replaces its lane. -/
theorem lanes_set {s : RecoverySlots ins outs} {c : Option (RecoveredDynamicLane ins outs)}
    (hs : s.slots[slot]? = some c) : ∃ rest, s.lanes.Perm (c.toList ++ rest) ∧
    ∀ c' ready, (RecoverySlots.lanes ⟨s.slots.set slot c', ready⟩).Perm (c'.toList ++ rest) := by
  obtain ⟨hlt, rfl⟩ := List.getElem?_eq_some_iff.mp hs
  have hcons : ∀ (c : Option (RecoveredDynamicLane ins outs)) cs,
      (c :: cs).reduceOption = c.toList ++ cs.reduceOption := by
    intro c cs
    cases c <;> rfl
  refine ⟨(s.slots.eraseIdx slot).reduceOption, ?_, ?_⟩
  · rw [← hcons]
    exact ((List.getElem_cons_eraseIdx_perm hlt).filterMap id).symm
  · intro c' ready
    rw [← hcons]
    exact (List.set_perm_cons_eraseIdx hlt c').filterMap id

theorem loans_emptyCell (hs : r.recovery.slots[slot]? = some (some d)) :
    r.loans = d.loan ::ₘ (r.emptyCell slot).loans := by
  obtain ⟨rest, hl, hl'⟩ := lanes_set hs
  have hl' : (r.emptyCell slot).recovery.lanes.Perm rest := hl' none _
  refine Multiset.coe_eq_coe.mpr ?_
  refine (((hl.append_right _).append_right _).map _).trans (.cons _ ?_)
  exact (((hl'.symm.append_right _).append_right _).map _)

theorem loans_recover {recovery : RecoverySlots ins outs}
    (hr : r.recovery.recover slot d = some recovery) :
    ({ r with recovery := recovery } : DynamicIoRuntime ins outs).loans = d.loan ::ₘ r.loans := by
  unfold RecoverySlots.recover at hr
  split at hr
  · rename_i hs
    obtain rfl := Option.some.inj hr
    obtain ⟨rest, hl, hl'⟩ := lanes_set hs
    refine Multiset.coe_eq_coe.mpr ?_
    refine ((((hl' (some d) _).append_right _).append_right _).map _).trans (.cons _ ?_)
    exact (((hl.symm.append_right _).append_right _).map _)
  · cases hr

theorem loans_leak : ({ r with leaked := d :: r.leaked } : DynamicIoRuntime ins outs).loans =
    d.loan ::ₘ r.loans := by
  refine Multiset.coe_eq_coe.mpr ?_
  simp only [List.append_assoc, List.cons_append]
  exact List.perm_middle.map _

theorem loans_lose : (r.lose d).loans = d.loan ::ₘ r.loans :=
  Multiset.coe_eq_coe.mpr (List.perm_middle.map _)

/-- An unfenced lane stays on the books of its bucket. -/
theorem ledger_leak (h : Ledger r (d.loan ::ₘ held) lost) (hd : d.lane.inFlight = true) :
    Ledger { r with leaked := d :: r.leaked } held lost := by
  have hidx : SameIndex r { r with leaked := d :: r.leaked } := ⟨rfl, rfl, rfl, rfl, rfl, rfl⟩
  refine ⟨hidx.shrinks.cached h.cached, ?_, h.stored, ?_, h.lost⟩
  · rw [loans_leak, Multiset.add_cons, ← Multiset.cons_add]
    exact h.conserved
  · intro d' hd'
    rcases List.mem_cons.mp hd' with rfl | hd'
    · exact hd
    · exact h.unfenced d' hd'

/-- So does a lane that finds no cell. -/
theorem ledger_lose (h : Ledger r (d.loan ::ₘ held) lost) : Ledger (r.lose d) held (d :: lost) := by
  have hidx : SameIndex r (r.lose d) := ⟨rfl, rfl, rfl, rfl, rfl, rfl⟩
  refine ⟨hidx.shrinks.cached h.cached, ?_, h.stored, h.unfenced, congrArg _ h.lost⟩
  rw [loans_lose, Multiset.add_cons, ← Multiset.cons_add]
  exact h.conserved

/-- A lane taken off the top of the ready stack is in the hands of its taker. -/
theorem ledger_pop {ready : List Nat} (h : Ledger r held lost)
    (hr : r.recovery.ready = slot :: ready) :
    ∃ d, r.recovery.slots[slot]? = some (some d) ∧
      Ledger { r with recovery := ⟨r.recovery.slots.set slot none, ready⟩ } (d.loan ::ₘ held)
        lost := by
  have hnd := h.stored.nodup
  rw [hr] at hnd
  obtain ⟨hno, hnd⟩ := List.nodup_cons.mp hnd
  obtain ⟨d, hd⟩ := (h.stored.ready slot).mp (hr ▸ List.mem_cons_self)
  have hlt : slot < r.recovery.slots.length := (List.getElem?_eq_some_iff.mp hd).1
  have hloans := loans_emptyCell hd
  refine ⟨d, hd, ⟨h.cached.indexed, h.cached.keys, h.cached.bound⟩, ?_, ⟨?_, ?_, hnd, ?_⟩,
    h.unfenced, h.lost⟩
  · have hc := h.conserved
    rw [hloans, Multiset.add_cons, ← Multiset.cons_add] at hc
    exact hc
  · rw [List.length_set]
    exact h.stored.length
  · intro i d' hd'
    rw [List.getElem?_set] at hd'
    split at hd'
    · simp at hd'
    · exact h.stored.slot i d' hd'
  · intro i
    have hi := h.stored.ready i
    rw [hr, List.mem_cons] at hi
    rw [List.getElem?_set]
    by_cases he : slot = i
    · subst he
      simp [hlt, hno]
    · rw [if_neg he, ← hi]
      exact ⟨.inr, fun hm => hm.resolve_left (Ne.symm he)⟩

/-- A recovered lane waits in its own cell. -/
theorem ledger_recover {recovery : RecoverySlots ins outs} (h : Ledger r (d.loan ::ₘ held) lost)
    (hs : d.lane.recoverySlot = some slot) (hr : r.recovery.recover slot d = some recovery) :
    Ledger { r with recovery := recovery } held lost := by
  have hloans := loans_recover hr
  unfold RecoverySlots.recover at hr
  split at hr
  · rename_i hempty
    obtain rfl := Option.some.inj hr
    have hlt : slot < r.recovery.slots.length := (List.getElem?_eq_some_iff.mp hempty).1
    have hno : slot ∉ r.recovery.ready := by
      intro hm
      obtain ⟨d', hd'⟩ := (h.stored.ready slot).mp hm
      rw [hempty] at hd'
      cases Option.some.inj hd'
    refine ⟨⟨h.cached.indexed, h.cached.keys, h.cached.bound⟩, ?_,
      ⟨?_, ?_, List.nodup_cons.mpr ⟨hno, h.stored.nodup⟩, ?_⟩, h.unfenced, h.lost⟩
    · have hc := h.conserved
      rw [Multiset.cons_add, ← Multiset.add_cons, ← hloans] at hc
      exact hc
    · rw [List.length_set]
      exact h.stored.length
    · intro i d' hd'
      rw [List.getElem?_set] at hd'
      split at hd'
      · rename_i he
        simp only [Option.some.injEq] at hd'
        exact hd' ▸ he ▸ hs
      · exact h.stored.slot i d' hd'
    · intro i
      rw [List.mem_cons, List.getElem?_set, h.stored.ready i]
      by_cases he : slot = i
      · subst he
        simp [hlt]
      · rw [if_neg he]
        exact ⟨fun hm => hm.resolve_left (Ne.symm he), .inr⟩
  · cases hr

/-- The buckets are still there, with their lanes. -/
def Keeps (r r' : DynamicIoRuntime ins outs) : Prop :=
  ∀ b ∈ r.buckets, ∃ b' ∈ r'.buckets, b'.id = b.id ∧ b.lanes ⊆ b'.lanes

theorem Keeps.refl : Keeps r r := fun b hb => ⟨b, hb, rfl, fun _ h => h⟩

theorem Keeps.trans {r' r'' : DynamicIoRuntime ins outs} (h : Keeps r r') (h' : Keeps r' r'') :
    Keeps r r'' := by
  intro b hb
  obtain ⟨b', hb', hid, hl⟩ := h b hb
  obtain ⟨b'', hb'', hid', hl'⟩ := h' b' hb'
  exact ⟨b'', hb'', hid'.trans hid, fun _ hm => hl' (hl hm)⟩

theorem keeps_setBucket (hb : r.buckets[i]? = some b) (hid : b'.id = b.id)
    (hl : b.lanes ⊆ b'.lanes) : Keeps r (r.setBucket i b') := by
  intro c hc
  obtain ⟨j, hj⟩ := List.mem_iff_getElem?.mp hc
  have hlt : i < r.buckets.length := (List.getElem?_eq_some_iff.mp hb).1
  by_cases he : i = j
  · subst he
    obtain rfl := Option.some.inj (hb.symm.trans hj)
    exact ⟨b', List.mem_set hlt b', hid, hl⟩
  · refine ⟨c, List.mem_iff_getElem?.mpr ⟨j, ?_⟩, rfl, fun _ h => h⟩
    rw [DynamicIoRuntime.setBucket, List.getElem?_set_ne he]
    exact hj

/-- A recovered lane goes back to its bucket. -/
theorem ledger_reclaimSlot {ready : List Nat} (h : Ledger r held lost)
    (hr : r.recovery.ready = slot :: ready) :
    ∃ d i b, r.recovery.slots[slot]? = some (some d) ∧ r.buckets[i]? = some b ∧ b.id = d.bucketId ∧
      reclaimSlot { r with recovery := { r.recovery with ready := ready } } slot =
        (DynamicIoRuntime.setBucket { r with recovery := ⟨r.recovery.slots.set slot none, ready⟩ } i
          (b.takeBack d.lane), 1) ∧
      Ledger (DynamicIoRuntime.setBucket
        { r with recovery := ⟨r.recovery.slots.set slot none, ready⟩ } i (b.takeBack d.lane))
        held lost := by
  obtain ⟨d, hd, hpop⟩ := ledger_pop h hr
  obtain ⟨i, b, hi, hb, hid⟩ :=
    hpop.resolves (Multiset.mem_add.mpr (.inl (Multiset.mem_cons_self _ _)))
  have hloan : d.loan = (b.id, d.lane.tag) := by rw [hid]; rfl
  obtain ⟨hpos, -, hback⟩ := ledger_takeBack (hloan ▸ hpop) hb
  refine ⟨d, i, b, hd, hb, hid, ?_, hback⟩
  rcases reclaimSlot_cases { r with recovery := { r.recovery with ready := ready } } slot with
    ⟨hno, -⟩ | ⟨d', hd', hc⟩
  · exact absurd hd (hno d)
  · obtain rfl : d = d' := Option.some.inj (Option.some.inj (hd.symm.trans hd'))
    rcases hc with ⟨hno | ⟨i', b', hi', hb', h0⟩, -⟩ | ⟨i', b', hi', hb', -, -, he⟩
    · cases hno.symm.trans hi
    · obtain rfl := Option.some.inj (hi.symm.trans hi')
      obtain rfl := Option.some.inj (hb.symm.trans hb')
      exact absurd h0 hpos
    · obtain rfl := Option.some.inj (hi.symm.trans hi')
      obtain rfl := Option.some.inj (hb.symm.trans hb')
      exact he

/-- Reclaiming brings every recovered lane back. -/
theorem ledger_reclaimReady {ready : List Nat} (h : Ledger r held lost)
    (hr : r.recovery.ready = ready) :
    Ledger (reclaimReady r ready).1 held lost ∧ Keeps r (reclaimReady r ready).1 ∧
      ∀ (slot : Nat) (d : RecoveredDynamicLane ins outs), r.recovery.slots[slot]? = some (some d) →
        ∃ b ∈ (reclaimReady r ready).1.buckets, b.id = d.bucketId ∧ d.lane ∈ b.lanes := by
  induction ready generalizing r with
  | nil =>
    refine ⟨h, .refl, ?_⟩
    intro slot d hd
    have hm := (h.stored.ready slot).mpr ⟨d, hd⟩
    rw [hr] at hm
    cases hm
  | cons slot ready ih =>
    obtain ⟨d, i, b, hd, hb, hid, he, hl⟩ := ledger_reclaimSlot h hr
    obtain ⟨hl', hk, hback⟩ := ih hl rfl
    simp only [reclaimReady, he]
    have hstep : Keeps r (DynamicIoRuntime.setBucket
        { r with recovery := ⟨r.recovery.slots.set slot none, ready⟩ } i (b.takeBack d.lane)) :=
      keeps_setBucket (r := { r with recovery := ⟨r.recovery.slots.set slot none, ready⟩ }) hb rfl
        fun _ hm => List.mem_append_left _ hm
    refine ⟨hl', hstep.trans hk, ?_⟩
    intro slot' d' hd'
    by_cases hs : slot = slot'
    · subst hs
      obtain rfl := Option.some.inj (Option.some.inj (hd.symm.trans hd'))
      have hlt : i < r.buckets.length := (List.getElem?_eq_some_iff.mp hb).1
      obtain ⟨b', hb', hid', hsub⟩ := hk (b.takeBack d.lane) (List.mem_set hlt _)
      exact ⟨b', hb', hid'.trans hid, hsub (List.mem_append_right _ (List.mem_singleton.mpr rfl))⟩
    · refine hback slot' d' ?_
      exact (List.getElem?_set_ne hs).trans hd'

theorem ledger_reclaim (h : Ledger r held lost) : Ledger (reclaimDroppedRuns r).1 held lost :=
  (ledger_reclaimReady h rfl).1

/-- Nothing the books speak of has changed. -/
structure SameBooks (r r' : DynamicIoRuntime ins outs) : Prop where
  index : SameIndex r r'
  shelves : r'.shelves = r.shelves
  recovery : r'.recovery = r.recovery
  leaked : r'.leaked = r.leaked
  lost : r'.lost = r.lost

theorem Ledger.of_same {r' : DynamicIoRuntime ins outs} (h : Ledger r held lost)
    (hs : SameBooks r r') : Ledger r' held lost := by
  refine ⟨hs.index.shrinks.cached h.cached, ?_, ?_, ?_, hs.lost.trans h.lost⟩
  · have hl : r'.loans = r.loans := by
      simp only [DynamicIoRuntime.loans, hs.recovery, hs.leaked, hs.lost]
    rw [hs.shelves, hl]
    exact h.conserved
  · rw [hs.recovery, hs.index.options, hs.index.laneCount]
    exact h.stored
  · rw [hs.leaked]
    exact h.unfenced

theorem sameBooks_hot {hot : Option Nat} : SameBooks r { r with hotBucket := hot } :=
  ⟨sameIndex_hot, rfl, rfl, rfl, rfl⟩

theorem sameBooks_retired {retired : List (ShapeBucket ins outs)} :
    SameBooks r { r with retiredBuckets := retired } :=
  ⟨⟨rfl, rfl, rfl, rfl, rfl, rfl⟩, rfl, rfl, rfl, rfl⟩

theorem sameBooks_nextTick : SameBooks r (nextTick r) :=
  ⟨⟨rfl, rfl, rfl, rfl, rfl, rfl⟩, rfl, rfl, rfl, rfl⟩

theorem sameBooks_modify {g : ShapeBucket ins outs → ShapeBucket ins outs}
    (hl : ∀ b, (g b).label = b.label) (hg : ∀ b, r.shelf (g b) = r.shelf b) :
    SameBooks r { r with buckets := r.buckets.modify i g } := by
  have hmap : (r.buckets.modify i g).map r.shelf = r.buckets.map r.shelf := map_modify_same hg
  exact ⟨sameIndex_modify hl, congrArg Multiset.ofList hmap, rfl, rfl, rfl⟩

theorem ledger_touch (h : Ledger r held lost) : Ledger (touch r i) held lost := by
  have hm : SameBooks (nextTick r) { nextTick r with
      buckets := (nextTick r).buckets.modify i fun bucket =>
        { bucket with lastUsed := (nextTick r).tick } } :=
    sameBooks_modify (fun _ => rfl) fun _ => rfl
  exact ((h.of_same sameBooks_nextTick).of_same hm).of_same sameBooks_hot

theorem tag_after {l : Lane.ServingLane} (hl : l.recoverySlot = lane.recoverySlot) :
    (lane.after l).tag = lane.tag := by
  simp [ServingLane.tag, ServingLane.after, hl]

theorem tag_play {script : Script} : (lane.play f script).tag = lane.tag := by
  induction script generalizing lane with
  | nil => rfl
  | cons a script ih => exact ih.trans (tag_after Lane.slot_exec)

theorem sameBooks_bucketLane {j : Nat} {op : Lane.Op} {n : Native} :
    SameBooks r (bucketLane f r i j op n) := by
  refine sameBooks_modify (fun _ => rfl) ?_
  intro b
  have htags : (b.lanes.modify j fun l => l.after (op.exec f l.toServingLane n)).map
      ServingLane.tag = b.lanes.map ServingLane.tag :=
    map_modify_same fun l => tag_after Lane.slot_exec
  simp only [DynamicIoRuntime.shelf, htags]
  rfl

/-- A bucket goes with all its lanes, or not at all. -/
theorem ledger_dropBucket (h : Ledger r held lost) (hb : r.buckets[i]? = some b)
    (h0 : b.detachedLanes = 0) : Ledger (r.dropBucket i b) held lost := by
  have hshelves : r.shelf b ::ₘ (r.dropBucket i b).shelves = r.shelves := by
    have hmap : (r.buckets.map r.shelf)[i]? = some (r.shelf b) := by simp [hb]
    rw [DynamicIoRuntime.shelves, DynamicIoRuntime.shelves, ← cons_swapRemove hmap]
    exact congrArg _ (congrArg _ (map_swapRemove _))
  have hc := h.conserved
  rw [← hshelves] at hc
  exact ⟨(shrinks_dropBucket hb).cached h.cached, Lending.conserved_remove hc h0, h.stored,
    h.unfenced, h.lost⟩

theorem sameBooks_retire (b : ShapeBucket ins outs) : SameBooks r (r.retired b) := by
  obtain ⟨rb, fo, rr, h⟩ := retired_eq r b
  rw [h]
  exact ⟨⟨rfl, rfl, rfl, rfl, rfl, rfl⟩, rfl, rfl, rfl, rfl⟩

theorem ledger_retireBucketAt {n : Nat → Native} (h : Ledger r held lost) :
    Ledger (retireBucketAt f r i n).1 held lost := by
  rcases retireBucketAt_cases (f := f) r i n with ⟨he, -⟩ | ⟨b, hb, h0, he⟩ <;> rw [he]
  · exact h
  · exact (ledger_dropBucket h hb h0).of_same (sameBooks_retire _)

theorem ledger_evict {n : Nat → Native} (h : Ledger r held lost) :
    Ledger (evictOneBucketIfFull f r n).1 held lost := by
  have hot : Ledger { r with hotBucket := none } held lost := h.of_same sameBooks_hot
  rcases evict_cases (f := f) r n with ⟨-, he⟩ | ⟨-, ⟨e, he⟩ | ⟨e, he⟩ | ⟨i, b, hb, h0, he⟩⟩ <;>
    rw [he]
  · exact h
  · exact h
  · exact hot
  · exact (ledger_dropBucket hot hb h0).of_same (sameBooks_retire _)

/-- No lane is away while no bucket misses one. -/
theorem Ledger.none_away (h : Ledger r held lost) (h0 : ∀ b ∈ r.buckets, b.detachedLanes = 0) :
    held + r.loans = 0 :=
  h.conserved.eq_zero fun s hs => by
    obtain ⟨b, hb, rfl⟩ := mem_shelves.mp hs
    exact h0 b hb

/-- The buckets can only be cleared together when no lane is away. -/
theorem ledger_drained (h : Ledger r held lost) (h0 : ∀ b ∈ r.buckets, b.detachedLanes = 0) :
    Ledger r.drained held lost := by
  have hnone : held + r.loans = 0 := h.none_away h0
  have hloans : r.drained.loans = r.loans := rfl
  refine ⟨shrinks_drained.cached h.cached, ?_, h.stored, h.unfenced, h.lost⟩
  rw [hloans, hnone]
  exact Lending.conserved_zero

theorem ledger_clearBuckets {n : Nat → Nat → Native} (h : Ledger r held lost) :
    Ledger (clearBuckets f r n).1 held lost := by
  have hr := ledger_reclaim h
  unfold clearBuckets
  dsimp only
  split
  · exact hr
  · rename_i hany
    have h0 : ∀ b ∈ (reclaimDroppedRuns r).1.buckets, b.detachedLanes = 0 := by
      intro b hb
      by_contra hne
      exact hany (List.any_eq_true.mpr ⟨b, hb, by simpa using hne⟩)
    have hw : Ledger (waitForRetiredBuckets { (reclaimDroppedRuns r).1 with hotBucket := none })
        held lost := (hr.of_same sameBooks_hot).of_same sameBooks_retired
    obtain ⟨fo, rr, he⟩ := drain_eq (f := f)
      (waitForRetiredBuckets { (reclaimDroppedRuns r).1 with hotBucket := none }) n
    have hd : Ledger (drainActiveBucketsAndReleaseGraphs f
        (waitForRetiredBuckets { (reclaimDroppedRuns r).1 with hotBucket := none }) n).1
        held lost := by
      rw [he]
      exact (ledger_drained hw h0).of_same ⟨⟨rfl, rfl, rfl, rfl, rfl, rfl⟩, rfl, rfl, rfl, rfl⟩
    split <;> rename_i hres <;> rw [hres] at hd <;> exact hd

theorem ledger_removeBucket {request : ShapeKey ins outs} {n : Nat → Native}
    (h : Ledger r held lost) : Ledger (removeBucket f r request n).1 held lost := by
  have hr := ledger_reclaim h
  unfold removeBucket
  dsimp only
  split
  · exact hr
  · split
    · exact hr
    · exact ledger_retireBucketAt (hr.of_same sameBooks_hot)

theorem ledger_bucketMut {request : ShapeKey ins outs} (h : Ledger r held lost) :
    Ledger (bucketMut r request).1 held lost := by
  have hr := ledger_reclaim h
  unfold bucketMut
  dsimp only
  split
  · exact hr
  · exact ledger_touch hr

theorem ledger_lookupBucket (request : ShapeKey ins outs) (allowCreate : Bool)
    (released : PreparedBucketId → Bool) (h : Ledger r held lost) :
    Ledger (lookupBucket r request allowCreate released).1 held lost := by
  have hr := ledger_reclaim h
  have hreap : Ledger (reapRetiredBuckets (reclaimDroppedRuns r).1 released) held lost :=
    hr.of_same sameBooks_retired
  rcases lookupBucket_cases (r := r) request allowCreate released rfl with
    ⟨-, e, he⟩ | ⟨-, e, he⟩ | ⟨i, b, -, -, he⟩ | ⟨-, -, he⟩ <;> rw [he]
  · exact hr
  · exact hreap
  · exact ledger_touch hreap
  · exact hreap

theorem length_eachLane {g : Nat → Lane.ServingLane → Lane.Result Unit} {k : Nat}
    {ls ls' : List Lane.ServingLane} (h : eachLane g k ls = .ok ls') : ls'.length = ls.length := by
  induction ls generalizing k ls' with
  | nil =>
    obtain rfl := Except.ok.inj h
    rfl
  | cons l ls ih =>
    unfold eachLane at h
    split at h
    · cases h
    · cases hls : eachLane g (k + 1) ls with
      | error e => simp [hls, Except.map] at h
      | ok ls'' =>
        simp only [hls, Except.map, Except.ok.injEq] at h
        subst h
        simp [ih hls]

theorem length_buildLaneSet {build : Except Error Unit} {ls : List Lane.ServingLane}
    (h : buildLaneSet f r build = .ok ls) : ls.length = r.laneCount := by
  rw [buildLaneSet_eq_ok h, List.length_replicate]

theorem length_setGpuGraphIds {ls ls' : List Lane.ServingLane} {g : Int} {n : Nat → Native}
    (h : setGpuGraphIds f ls g n = .ok ls') : ls'.length = ls.length := by
  unfold setGpuGraphIds at h
  split at h
  · cases h
  · rename_i hidle
    exact (length_eachLane h).trans (length_eachLane hidle)

/-- A new bucket has as many lanes as the runtime prescribes. -/
theorem length_prepareLanes {n : CreateNative} {lanes : List Lane.ServingLane × Option Int}
    (h : prepareLanes f r n = .ok lanes) : lanes.1.length = r.laneCount := by
  unfold prepareLanes at h
  split at h
  · cases h
  · rename_i ls hb
    have hlen := length_buildLaneSet hb
    split at h
    · split at h
      · cases h
      · split at h
        · cases h
        · rename_i ls' hset
          cases hcap : eachLane (captureLane f n.capture) 0 ls' with
          | error e => simp [hcap, Except.map] at h
          | ok ls'' =>
            simp only [hcap, Except.map, Except.ok.injEq] at h
            subst h
            exact (length_eachLane hcap).trans ((length_setGpuGraphIds hset).trans hlen)
    · obtain rfl := Except.ok.inj h
      exact hlen

/-- The tags of a new bucket's lanes are its whole stock. -/
theorem tags_newBucket {request : ShapeKey ins outs} {lanes : List Lane.ServingLane}
    {graphId : Option Int} (hlen : lanes.length = r.laneCount) :
    (((r.newBucket request id lanes graphId).lanes.map ServingLane.tag : List (Tag ins outs)) :
      Multiset (Tag ins outs)) = r.stock (r.newBucket request id lanes graphId) := by
  have hmap : (assignRecoverySlots r request id lanes).map ServingLane.tag =
      (List.range r.laneCount).map fun i =>
        (⟨r.name, request, id, i⟩, some (id.slot * r.laneCount + i)) := by
    refine List.ext_getElem? ?_
    intro i
    simp only [assignRecoverySlots, List.getElem?_map, List.getElem?_mapIdx]
    rcases Nat.lt_or_ge i lanes.length with hi | hi
    · rw [List.getElem?_eq_getElem hi, List.getElem?_range (hlen ▸ hi)]
      rfl
    · rw [List.getElem?_eq_none hi, List.getElem?_eq_none (by simpa [hlen] using hi)]
      rfl
  exact congrArg Multiset.ofList hmap

/-- A new bucket starts with all its lanes. -/
theorem ledger_insertBucket {request : ShapeKey ins outs} {lanes : List Lane.ServingLane}
    {graphId : Option Int} (h : Ledger r held lost) (hk : request ∉ r.keys)
    (hlt : r.buckets.length < r.options.maxBuckets) (hlen : lanes.length = r.laneCount) :
    Ledger (insertBucket r request lanes graphId).1 held lost := by
  have hc := (insertBucket_spec lanes graphId h.cached hk hlt).cached
  rcases insertBucket_cases request lanes graphId h.cached.indexed with
    ⟨-, e, he⟩ | ⟨slots, id, ha, ⟨-, e, he⟩ | ⟨-, he⟩⟩ <;> rw [he] at hc ⊢
  · exact ⟨hc, h.conserved, h.stored, h.unfenced, h.lost⟩
  · exact ⟨hc, h.conserved, h.stored, h.unfenced, h.lost⟩
  · refine ⟨hc, ?_, h.stored, h.unfenced, h.lost⟩
    have hshelf : r.shelf (r.newBucket request id lanes graphId) =
        ⟨id, r.stock (r.newBucket request id lanes graphId),
          r.stock (r.newBucket request id lanes graphId), 0⟩ :=
      congrArg
        (fun items => Lending.Shelf.mk id (r.stock (r.newBucket request id lanes graphId)) items 0)
        (tags_newBucket hlen)
    have hshelves : (r.pushed slots (r.newBucket request id lanes graphId)).shelves =
        r.shelf (r.newBucket request id lanes graphId) ::ₘ r.shelves := by
      refine Multiset.coe_eq_coe.mpr ?_
      rw [DynamicIoRuntime.pushed, List.map_append]
      exact List.perm_append_singleton _ _
    rw [hshelves, hshelf]
    refine Lending.conserved_add h.conserved ?_
    intro s hs
    obtain ⟨b, hb, rfl⟩ := mem_shelves.mp hs
    intro hid
    exact ha.fresh (h.cached.indexed.issued (hid ▸ List.mem_map.mpr ⟨b, hb, rfl⟩))

theorem ledger_getOrCreate {request : ShapeKey ins outs} {allowCreate : Bool} {n : CreateNative}
    (h : Ledger r held lost) :
    Ledger (getOrCreateBucketInner f r request allowCreate n).1 held lost := by
  have hlookup : ∀ r₁, lookupBucket r request allowCreate n.released = (r₁, .ok none) →
      Ledger r₁ held lost := by
    intro r₁ hl
    have hr := ledger_lookupBucket request allowCreate n.released h
    rw [hl] at hr
    exact hr
  rcases getOrCreate_outcomes (f := f) r request allowCreate n with
    he | ⟨r₁, hl, he⟩ | ⟨r', lanes, hcr, he⟩ <;> rw [he]
  · exact ledger_lookupBucket _ _ _ h
  · have hev := ledger_evict (f := f) (n := n.fence) (hlookup r₁ hl)
    rcases prepareBucket_cases (f := f) r₁ n with ⟨-, e, hq⟩ | ⟨r', e, hr', hq⟩ | ⟨r', hr', hq⟩
    · rw [hq]
      exact hlookup r₁ hl
    · rw [hr'] at hev
      rw [hq]
      exact hev
    · rw [hr'] at hev
      rw [hq]
      exact hev
  · obtain ⟨hs, hk, hroom⟩ := creates_shrinks hcr
    obtain ⟨r₁, hl, hev, hprep⟩ := creates_cases hcr
    have hr := ledger_evict (f := f) (n := n.fence) (hlookup r₁ hl)
    rw [hev] at hr
    exact ledger_insertBucket hr hk (hroom h.cached) (length_prepareLanes hprep)

/-- A lane leaves its bucket into the hands of the caller. -/
theorem ledger_detachLane (id : PreparedBucketId) (h : Ledger r held lost) :
    ((∃ e, (detachLane r id).2 = .error e) ∧
      Ledger (detachLane r id).1 held lost) ∨
    ∃ lane, (detachLane r id).2 = .ok (lane, id) ∧
      Ledger (detachLane r id).1 ((id, lane.tag) ::ₘ held) lost := by
  rcases detachLane_cases r id with ⟨e, he⟩ | ⟨i, b, lane, -, hb, rfl, hl, he⟩ <;> rw [he]
  · exact .inl ⟨⟨e, rfl⟩, h⟩
  · exact .inr ⟨lane, rfl, ledger_giveOut h hb hl⟩

/-- A lane in hand may be used in any way that keeps its tag. -/
theorem Ledger.used (h : Ledger r ((id, lane.tag) ::ₘ held) lost) (ht : lane'.tag = lane.tag) :
    Ledger r ((id, lane'.tag) ::ₘ held) lost := by
  rw [ht]
  exact h

/-- An enqueued lane is in the token; otherwise it is back, or stays unfenced on the books. -/
theorem ledger_enqueuePrepared (id : PreparedBucketId) (n : EnqueueNative)
    (h : Ledger r held lost) :
    ((∃ e, (enqueuePrepared f r id n).2 = .error e) ∧
      Ledger (enqueuePrepared f r id n).1 held lost) ∨
    ∃ run, (enqueuePrepared f r id n).2 = .ok run ∧
      Ledger (enqueuePrepared f r id n).1 (run.loan ::ₘ held) lost := by
  have hreturn : ∀ {r : DynamicIoRuntime ins outs} {l : ServingLane ins outs},
      Ledger r ((id, l.tag) ::ₘ held) lost → Ledger (returnDetachedLane r id l).1 held lost := by
    intro r l hl
    obtain ⟨i, b, -, -, he, hback⟩ := ledger_returnDetachedLane hl
    rw [he]
    exact hback
  unfold enqueuePrepared enqueueWith
  have hdetach := ledger_detachLane id (ledger_reclaim h)
  revert hdetach
  obtain ⟨r₁, e | ⟨lane, id'⟩⟩ := detachLane (reclaimDroppedRuns r).1 id
  · rintro (⟨-, h₁⟩ | ⟨lane, hno, -⟩)
    · exact .inl ⟨⟨e, rfl⟩, h₁⟩
    · cases hno
  · rintro (⟨⟨e, hno⟩, -⟩ | ⟨lane', hid, h₁⟩)
    · cases hno
    · obtain ⟨rfl, rfl⟩ := Prod.mk.inj (Except.ok.inj hid)
      have hplay : Ledger r₁ ((id', (lane.play f n.prepare).tag) ::ₘ held) lost :=
        h₁.used tag_play
      simp only [Result.andThen]
      cases n.prepared with
      | error e => exact .inl ⟨⟨e, rfl⟩, hreturn hplay⟩
      | ok _ =>
        have hrun := Lane.slot_runEnqueued (f := f) (l := (lane.play f n.prepare).toServingLane)
          (n := n.run)
        revert hrun
        obtain ⟨l, e | ⟨⟩⟩ := Lane.runEnqueued f (lane.play f n.prepare).toServingLane n.run
        · intro hrun
          have hslot := (Lane.slot_finishInFlightBestEffort (f := f) (n := n.fence)).trans hrun
          have hfence := hplay.used (tag_after hslot)
          dsimp only
          split
          · rename_i hin
            exact .inl ⟨⟨e, rfl⟩, ledger_leak (d := ⟨_, id'⟩) hfence hin⟩
          · exact .inl ⟨⟨e, rfl⟩, hreturn hfence⟩
        · intro hrun
          exact .inr ⟨_, rfl, hplay.used (tag_after hrun)⟩

/-- A completed lane is back, or stays unfenced on the books. -/
theorem ledger_completeOwned {α : Type} {run : OwnedDynamicIoRun ins outs} {n : Native}
    {consume : ServingLane ins outs → Except Error α} (h : Ledger r (run.loan ::ₘ held) lost) :
    Ledger (completeOwned f r run n consume).1 held lost := by
  have hsync : Ledger r ((run.bucketId, (run.lane.after
      (Lane.synchronizeOutputs f run.lane.toServingLane n).1).tag) ::ₘ held) lost :=
    h.used (tag_after Lane.slot_synchronizeOutputs)
  unfold completeOwned
  dsimp only
  split
  · rename_i hin
    exact ledger_leak (d := ⟨_, run.bucketId⟩) hsync hin
  · obtain ⟨i, b, -, -, he, hback⟩ := ledger_returnDetachedLane hsync
    rw [he]
    exact hback

/-- A recovery slot names the bucket's slot and the lane's place. -/
theorem place_inj {k i j s t : Nat} (hi : i < k) (hj : j < k) (h : s * k + i = t * k + j) :
    s = t ∧ i = j := by
  have hs : (s * k + i) / k = s := by
    rw [Nat.mul_comm, Nat.mul_add_div (by omega), Nat.div_eq_of_lt hi, Nat.add_zero]
  have ht : (t * k + j) / k = t := by
    rw [Nat.mul_comm, Nat.mul_add_div (by omega), Nat.div_eq_of_lt hj, Nat.add_zero]
  have he : s = t := by rw [← hs, h, ht]
  subst he
  exact ⟨rfl, by omega⟩

/-- All recovery slots ever fixed for the lanes of cached buckets differ. -/
theorem nodup_places (h : Cached r) : (r.buckets.flatMap fun b =>
    (List.range r.laneCount).map fun i => some (b.id.slot * r.laneCount + i)).Nodup := by
  rw [List.nodup_flatMap]
  constructor
  · intro b _
    refine List.nodup_range.map ?_
    intro i j hij
    have := Option.some.inj hij
    omega
  · have hslots := h.indexed.tracked.slot_nodup
    rw [DynamicIoRuntime.bucketIds, List.map_map] at hslots
    refine (List.pairwise_map.mp hslots).imp ?_
    intro b b' hne x hx hx'
    obtain ⟨i, hi, rfl⟩ := List.mem_map.mp hx
    obtain ⟨j, hj, he⟩ := List.mem_map.mp hx'
    exact hne (place_inj (List.mem_range.mp hj) (List.mem_range.mp hi) (Option.some.inj he)).1.symm

theorem stock_places : (r.shelves.bind Shelf.stock).map Prod.snd =
    (r.buckets.flatMap fun b => (List.range r.laneCount).map fun i =>
      some (b.id.slot * r.laneCount + i) : List (Option Nat)) := by
  rw [Multiset.map_bind, DynamicIoRuntime.shelves, ← Multiset.map_coe, Multiset.bind_map,
    ← Multiset.coe_bind]
  refine Multiset.bind_congr ?_
  intro b _
  simp only [DynamicIoRuntime.shelf, DynamicIoRuntime.stock, Multiset.map_map]
  rfl

/-- No two lanes share a recovery slot. -/
theorem Ledger.nodup_slots (h : Ledger r held lost) :
    ((r.shelves.bind Shelf.items + (held + r.loans).map Prod.snd).map Prod.snd).Nodup := by
  rw [h.conserved.total, stock_places]
  exact Multiset.coe_nodup.mpr (nodup_places h.cached)

theorem Ledger.nodup_loans (h : Ledger r held lost) :
    ((held + r.loans).map fun loan => loan.2.2).Nodup := by
  have hn := h.nodup_slots
  rw [Multiset.map_add] at hn
  have hle := Multiset.nodup_of_le (Multiset.le_add_left _ _) hn
  rwa [Multiset.map_map] at hle

/-- The cell of a lane in hand is free, if there is one. -/
theorem Ledger.recover_eq (h : Ledger r ((id, lane.tag) ::ₘ held) lost)
    (hs : lane.recoverySlot = some slot) (hlt : slot < r.recovery.slots.length) :
    r.recovery.recover slot d =
      some ⟨r.recovery.slots.set slot (some d), slot :: r.recovery.ready⟩ := by
  unfold RecoverySlots.recover
  cases hc : r.recovery.slots[slot]? with
  | none => exact absurd (List.getElem?_eq_none_iff.mp hc) (by omega)
  | some c => cases c with
    | none => rfl
    | some d' =>
      have hloans := loans_emptyCell hc
      have hn := h.nodup_loans
      rw [hloans, Multiset.cons_add, Multiset.add_cons, Multiset.map_cons, Multiset.map_cons,
        Multiset.nodup_cons] at hn
      refine absurd (Multiset.mem_cons.mpr (.inl ?_)) hn.1
      exact hs.trans (h.stored.slot slot d' hc).symm

end Zrt.Dynamic
