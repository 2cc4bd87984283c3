import Mathlib.Algebra.Group.Nat.Defs
import Mathlib.Data.List.Nodup
import Zrt.Error
import Zrt.SwapRemove

/-! Prepared-bucket ids of `runtime.rs`: slots with checked generations and a free list. -/
namespace Zrt.Dynamic

open SwapRemove

/-- `PreparedBucketId`. -/
structure PreparedBucketId where
  slot : Nat
  generation : Nat
  deriving DecidableEq

/-- `PreparedBucketSlot`. -/
structure PreparedBucketSlot where
  generation : Nat
  bucketIndex : Option Nat
  deriving DecidableEq

/-- `u32::MAX`. -/
def u32Max : Nat := 2 ^ 32 - 1

/-- `prepared_slots` and `free_prepared_slots` of a runtime, the latter from its top down. -/
structure PreparedSlots where
  preparedSlots : List PreparedBucketSlot
  freePreparedSlots : List Nat
  deriving DecidableEq

variable (p : PreparedSlots) (ids : List PreparedBucketId)

def allocatePreparedBucketId (bucketIndex : Nat) : PreparedSlots × Except Error PreparedBucketId :=
  match p.freePreparedSlots with
  | slot :: free =>
    let p := { p with freePreparedSlots := free }
    match p.preparedSlots[slot]? with
    | none => (p, .error (.local "zrt: prepared bucket free-slot index is invalid"))
    | some entry =>
      if entry.bucketIndex.isSome then
        (p, .error (.local "zrt: prepared bucket free-slot accounting is inconsistent"))
      else ({ p with
        preparedSlots := p.preparedSlots.set slot { entry with bucketIndex := some bucketIndex } },
        .ok ⟨slot, entry.generation⟩)
  | [] =>
    if p.preparedSlots.length ≤ u32Max then
      ({ p with preparedSlots := p.preparedSlots ++ [⟨1, some bucketIndex⟩] },
        .ok ⟨p.preparedSlots.length, 1⟩)
    else (p, .error (.local "zrt: prepared bucket slot space exhausted"))

/-- `prepared_bucket_index`, for cached buckets with the given ids. -/
def preparedBucketIndex (id : PreparedBucketId) : Option Nat :=
  ((((p.preparedSlots[id.slot]?).filter fun entry => entry.generation = id.generation).bind
    PreparedBucketSlot.bucketIndex).filter fun index => ids[index]? = some id)

def retirePreparedBucketId (id : PreparedBucketId) : PreparedSlots :=
  match p.preparedSlots[id.slot]? with
  | none => p
  | some entry =>
    if entry.generation ≠ id.generation ∨ entry.bucketIndex = none then p
    else if entry.generation + 1 ≤ u32Max then
      { preparedSlots := p.preparedSlots.set id.slot ⟨entry.generation + 1, none⟩
        freePreparedSlots := id.slot :: p.freePreparedSlots }
    else { p with
      preparedSlots := p.preparedSlots.set id.slot { entry with bucketIndex := none } }

def repairPreparedBucketIndex (bucket : PreparedBucketId × Nat) : PreparedSlots :=
  match p.preparedSlots[bucket.1.slot]? with
  | none => p
  | some entry =>
    if entry.generation ≠ bucket.1.generation then p
    else { p with
      preparedSlots := p.preparedSlots.set bucket.1.slot
        { entry with bucketIndex := some bucket.2 } }

def repairPreparedBucketIndicesFrom (start : Nat) : PreparedSlots :=
  (ids.zipIdx.drop start).foldl repairPreparedBucketIndex p

/-- The slots once the bucket at `index` is retired and its place taken by the last one. -/
def removePreparedBucketId (index : Nat) (id : PreparedBucketId) : PreparedSlots :=
  let p := retirePreparedBucketId p id
  let ids := swapRemove ids index
  if index < ids.length then repairPreparedBucketIndicesFrom p ids index else p

/-- Every cached bucket's slot leads to it, and the free slots lead nowhere. -/
structure Indexed (p : PreparedSlots) (ids : List PreparedBucketId) : Prop where
  entry : ∀ (i : Nat) (id : PreparedBucketId), ids[i]? = some id →
    p.preparedSlots[id.slot]? = some ⟨id.generation, some i⟩
  free_nodup : p.freePreparedSlots.Nodup
  vacant : ∀ s ∈ p.freePreparedSlots, ∃ g, p.preparedSlots[s]? = some ⟨g, none⟩
  bound : ∀ (s : Nat) (e : PreparedBucketSlot), p.preparedSlots[s]? = some e →
    e.generation ≤ u32Max
  size : p.preparedSlots.length ≤ u32Max + 1

/-- `Indexed` up to the places themselves: the slots lead to some place each. -/
structure Tracked (p : PreparedSlots) (ids : List PreparedBucketId) : Prop where
  slot_nodup : (ids.map PreparedBucketId.slot).Nodup
  entry : ∀ id ∈ ids, ∃ i, p.preparedSlots[id.slot]? = some ⟨id.generation, some i⟩
  free_nodup : p.freePreparedSlots.Nodup
  vacant : ∀ s ∈ p.freePreparedSlots, ∃ g, p.preparedSlots[s]? = some ⟨g, none⟩
  bound : ∀ (s : Nat) (e : PreparedBucketSlot), p.preparedSlots[s]? = some e →
    e.generation ≤ u32Max
  size : p.preparedSlots.length ≤ u32Max + 1

/-- No other slot leads anywhere, and each can be handed out again unless it is exhausted. -/
def Accounted (p : PreparedSlots) (ids : List PreparedBucketId) : Prop :=
  ∀ s e, p.preparedSlots[s]? = some e → (∃ id ∈ ids, id.slot = s) ∨
    (e.bucketIndex = none ∧ (s ∈ p.freePreparedSlots ∨ e.generation = u32Max))

/-- The id has been handed out, now or earlier. -/
def Issued (p : PreparedSlots) (id : PreparedBucketId) : Prop :=
  ∃ e, p.preparedSlots[id.slot]? = some e ∧ (id.generation < e.generation ∨
    (id.generation = e.generation ∧ id.slot ∉ p.freePreparedSlots))

variable {p ids} {p' : PreparedSlots} {id id' : PreparedBucketId} {i j n : Nat}

theorem Indexed.getElem?_inj (h : Indexed p ids) (hi : ids[i]? = some id) (hj : ids[j]? = some id')
    (hs : id.slot = id'.slot) : i = j := by
  have hi := h.entry i id hi
  have hj := h.entry j id' hj
  rw [hs, hj] at hi
  simp_all

theorem Indexed.nodup (h : Indexed p ids) : ids.Nodup := by
  rw [List.nodup_iff_getElem?_ne_getElem?]
  intro i j hij hj he
  obtain ⟨id, hid⟩ : ∃ id, ids[j]? = some id := ⟨_, List.getElem?_eq_getElem hj⟩
  have := h.getElem?_inj (he.trans hid) hid rfl
  omega

theorem Indexed.tracked (h : Indexed p ids) : Tracked p ids := by
  refine ⟨?_, ?_, h.free_nodup, h.vacant, h.bound, h.size⟩
  · refine h.nodup.map_on ?_
    intro id hi id' hj hs
    obtain ⟨i, hi⟩ := List.mem_iff_getElem?.mp hi
    obtain ⟨j, hj⟩ := List.mem_iff_getElem?.mp hj
    obtain rfl := h.getElem?_inj hi hj hs
    exact Option.some.inj (hi.symm.trans hj)
  · intro id hid
    obtain ⟨i, hi⟩ := List.mem_iff_getElem?.mp hid
    exact ⟨i, h.entry i id hi⟩

theorem Indexed.slot_inj (h : Indexed p ids) (hi : id ∈ ids) (hj : id' ∈ ids)
    (hs : id.slot = id'.slot) : id = id' :=
  List.inj_on_of_nodup_map h.tracked.slot_nodup hi hj hs

theorem Indexed.notMem_free (h : Indexed p ids) (hi : id ∈ ids) :
    id.slot ∉ p.freePreparedSlots := by
  intro hf
  obtain ⟨i, hi⟩ := List.mem_iff_getElem?.mp hi
  obtain ⟨g, hg⟩ := h.vacant _ hf
  have := h.entry i id hi
  simp_all

theorem Indexed.issued (h : Indexed p ids) (hi : id ∈ ids) : Issued p id := by
  obtain ⟨i, hi'⟩ := List.mem_iff_getElem?.mp hi
  exact ⟨_, h.entry i id hi', .inr ⟨rfl, h.notMem_free hi⟩⟩

/-- An id resolves to the place of its bucket, and only while the bucket is cached. -/
theorem preparedBucketIndex_iff (h : Indexed p ids) :
    preparedBucketIndex p ids id = some i ↔ ids[i]? = some id := by
  constructor
  · intro hi
    simp only [preparedBucketIndex, Option.filter_eq_some_iff, decide_eq_true_eq] at hi
    exact hi.2
  · intro hi
    simp [preparedBucketIndex, h.entry i id hi, Option.filter, hi]

theorem preparedBucketIndex_none (h : Indexed p ids) :
    preparedBucketIndex p ids id = none ↔ id ∉ ids := by
  rw [Option.eq_none_iff_forall_ne_some, List.mem_iff_getElem?]
  simp only [ne_eq, preparedBucketIndex_iff h, not_exists]

theorem indexed_new : Indexed ⟨[], []⟩ [] := ⟨by simp, by simp, by simp, by simp, by simp⟩

theorem accounted_new : Accounted ⟨[], []⟩ [] := by
  intro s e he
  simp at he

/-- The slot the next id gets. -/
def nextSlot (p : PreparedSlots) : Nat :=
  p.freePreparedSlots.head?.getD p.preparedSlots.length

/-- What an allocation hands out, and the two ways it comes by the slot. -/
theorem allocate_cases (h : Indexed p ids) :
    (u32Max < nextSlot p ∧ ∃ e, allocatePreparedBucketId p n = (p, .error e)) ∨
    (∃ s free g, p.freePreparedSlots = s :: free ∧ p.preparedSlots[s]? = some ⟨g, none⟩ ∧
      allocatePreparedBucketId p n = (⟨p.preparedSlots.set s ⟨g, some n⟩, free⟩, .ok ⟨s, g⟩)) ∨
    (p.freePreparedSlots = [] ∧ p.preparedSlots.length ≤ u32Max ∧ allocatePreparedBucketId p n =
      (⟨p.preparedSlots ++ [⟨1, some n⟩], []⟩, .ok ⟨p.preparedSlots.length, 1⟩)) := by
  obtain ⟨slots, free⟩ := p
  cases free with
  | nil =>
    by_cases hlen : slots.length ≤ u32Max
    · exact .inr (.inr ⟨rfl, hlen, by simp [allocatePreparedBucketId, hlen]⟩)
    · exact .inl ⟨Nat.lt_of_not_le hlen, _, by simp [allocatePreparedBucketId, hlen]; rfl⟩
  | cons s free =>
    obtain ⟨g, hg⟩ := h.vacant s (by simp)
    exact .inr (.inl ⟨s, free, g, rfl, hg, by simp_all [allocatePreparedBucketId]⟩)

/-- What an allocation for the bucket about to be pushed does to the slots. -/
structure Allocated (p p' : PreparedSlots) (ids : List PreparedBucketId) (id : PreparedBucketId) :
    Prop where
  slot : id.slot = nextSlot p
  slot_le : id.slot ≤ u32Max
  indexed : Indexed p' (ids ++ [id])
  fresh : ¬ Issued p id
  issued : ∀ j, Issued p j → Issued p' j
  accounted : Accounted p ids → Accounted p' (ids ++ [id])
  length : p'.preparedSlots.length = max p.preparedSlots.length (id.slot + 1)

theorem allocated_recycled {s g : Nat} {free : List Nat} (h : Indexed p ids)
    (hf : p.freePreparedSlots = s :: free) (hg : p.preparedSlots[s]? = some ⟨g, none⟩) :
    Allocated p ⟨p.preparedSlots.set s ⟨g, some ids.length⟩, free⟩ ids ⟨s, g⟩ := by
  have hs : s < p.preparedSlots.length := (List.getElem?_eq_some_iff.mp hg).1
  have hn := h.free_nodup
  rw [hf, List.nodup_cons] at hn
  have hne : ∀ id ∈ ids, s ≠ id.slot := by
    rintro id hid rfl
    exact h.notMem_free hid (by simp [hf])
  have hsize := h.size
  refine ⟨by simp [nextSlot, hf], by simp only; omega, ⟨?_, hn.2, ?_, ?_, by simpa using hsize⟩, ?_,
    ?_, ?_, ?_⟩
  · intro i id hid
    rcases Nat.lt_or_ge i ids.length with hi | hi
    · rw [List.getElem?_append_left hi] at hid
      rw [List.getElem?_set_ne (hne id (List.mem_of_getElem? hid))]
      exact h.entry i id hid
    · rw [List.getElem?_append_right hi, List.getElem?_singleton] at hid
      split at hid
      · obtain rfl := Option.some.inj hid
        rw [List.getElem?_set_self hs]
        simp only [Option.some.injEq, PreparedBucketSlot.mk.injEq, true_and]
        omega
      · cases hid
  · intro t ht
    obtain ⟨g', hg'⟩ := h.vacant t (by simp [hf, ht])
    refine ⟨g', ?_⟩
    rw [List.getElem?_set_ne (by rintro rfl; exact hn.1 ht), hg']
  · intro t e he
    by_cases hts : s = t
    · subst hts
      rw [List.getElem?_set_self hs] at he
      obtain rfl := Option.some.inj he
      exact (h.bound s _ hg :)
    · rw [List.getElem?_set_ne hts] at he
      exact h.bound t e he
  · rintro ⟨e, he, hlt | ⟨-, hmem⟩⟩
    · rw [hg] at he
      obtain rfl := Option.some.inj he
      simp at hlt
    · simp [hf] at hmem
  · rintro j ⟨e, he, hj⟩
    by_cases hjs : s = j.slot
    · subst hjs
      rw [hg] at he
      obtain rfl := Option.some.inj he
      exact ⟨_, List.getElem?_set_self hs, by simp_all⟩
    · refine ⟨e, ?_, hj.imp_right fun ⟨hg, hmem⟩ => ⟨hg, fun h => hmem (by simp [hf, h])⟩⟩
      rw [List.getElem?_set_ne hjs]
      exact he
  · intro ha t e he
    by_cases hts : s = t
    · exact .inl ⟨⟨s, g⟩, by simp, hts⟩
    · rw [List.getElem?_set_ne hts] at he
      rcases ha t e he with ⟨id, hid, rfl⟩ | ⟨hnone, hfree | hmax⟩
      · exact .inl ⟨id, by simp [hid], rfl⟩
      · simp only [hf, List.mem_cons] at hfree
        exact .inr ⟨hnone, .inl (hfree.resolve_left fun h => hts h.symm)⟩
      · exact .inr ⟨hnone, .inr hmax⟩
  · simp
    omega

theorem allocated_appended (h : Indexed p ids) (hf : p.freePreparedSlots = [])
    (hlen : p.preparedSlots.length ≤ u32Max) :
    Allocated p ⟨p.preparedSlots ++ [⟨1, some ids.length⟩], []⟩ ids
      ⟨p.preparedSlots.length, 1⟩ := by
  refine ⟨by simp [nextSlot, hf], hlen, ⟨?_, List.nodup_nil, by simp, ?_, by simpa using hlen⟩, ?_,
    ?_, ?_, by simp⟩
  · intro i id hid
    rcases Nat.lt_or_ge i ids.length with hi | hi
    · rw [List.getElem?_append_left hi] at hid
      have he := h.entry i id hid
      rw [List.getElem?_append_left (List.getElem?_eq_some_iff.mp he).1, he]
    · rw [List.getElem?_append_right hi, List.getElem?_singleton] at hid
      split at hid
      · obtain rfl := Option.some.inj hid
        simp only [List.getElem?_concat_length, Option.some.injEq, PreparedBucketSlot.mk.injEq,
          true_and]
        omega
      · cases hid
  · intro t e he
    rcases List.mem_append.mp (List.mem_of_getElem? he) with hm | hm
    · obtain ⟨t, ht⟩ := List.mem_iff_getElem?.mp hm
      exact h.bound t e ht
    · obtain rfl := List.mem_singleton.mp hm
      simp [u32Max]
  · rintro ⟨e, he, -⟩
    simp at he
  · rintro j ⟨e, he, hj⟩
    refine ⟨e, ?_, by simp_all⟩
    rw [List.getElem?_append_left (List.getElem?_eq_some_iff.mp he).1]
    exact he
  · intro ha t e he
    rcases Nat.lt_or_ge t p.preparedSlots.length with ht | ht
    · rw [List.getElem?_append_left ht] at he
      rcases ha t e he with ⟨id, hid, rfl⟩ | ⟨hnone, hfree | hmax⟩
      · exact .inl ⟨id, by simp [hid], rfl⟩
      · simp [hf] at hfree
      · exact .inr ⟨hnone, .inr hmax⟩
    · rw [List.getElem?_append_right ht, List.getElem?_singleton] at he
      split at he
      · refine .inl ⟨⟨p.preparedSlots.length, 1⟩, by simp, ?_⟩
        simp only
        omega
      · cases he

theorem allocate_spec (h : Indexed p ids) :
    (u32Max < nextSlot p ∧ ∃ e, allocatePreparedBucketId p ids.length = (p, .error e)) ∨
    ∃ p' id, allocatePreparedBucketId p ids.length = (p', .ok id) ∧ Allocated p p' ids id := by
  rcases allocate_cases (n := ids.length) h with
    he | ⟨s, free, g, hf, hg, he⟩ | ⟨hf, hlen, he⟩
  · exact .inl he
  · exact .inr ⟨_, _, he, allocated_recycled h hf hg⟩
  · exact .inr ⟨_, _, he, allocated_appended h hf hlen⟩

/-- What retiring and repairing leave as it is. -/
structure Kept (p p' : PreparedSlots) (ids ids' : List PreparedBucketId) : Prop where
  issued : ∀ j, Issued p j → Issued p' j
  accounted : Accounted p ids → Accounted p' ids'
  length : p'.preparedSlots.length = p.preparedSlots.length

theorem Kept.trans {p'' : PreparedSlots} {ids' ids'' : List PreparedBucketId}
    (h : Kept p p' ids ids') (h' : Kept p' p'' ids' ids'') : Kept p p'' ids ids'' :=
  ⟨fun j hj => h'.issued j (h.issued j hj), fun ha => h'.accounted (h.accounted ha),
    h'.length.trans h.length⟩

/-- A retired slot leads nowhere, and is free again with its next generation if it has one. -/
theorem retire_cases {i : Nat} (h : p.preparedSlots[id.slot]? = some ⟨id.generation, some i⟩) :
    ∃ g free, retirePreparedBucketId p id = ⟨p.preparedSlots.set id.slot ⟨g, none⟩, free⟩ ∧
      ((id.generation < u32Max ∧ g = id.generation + 1 ∧ free = id.slot :: p.freePreparedSlots) ∨
        (u32Max ≤ id.generation ∧ g = id.generation ∧ free = p.freePreparedSlots)) := by
  have hlive : ¬ (id.generation ≠ id.generation ∨ some i = none) := by simp
  rcases Nat.lt_or_ge id.generation u32Max with hg | hg
  · have hnext : id.generation + 1 ≤ u32Max := hg
    refine ⟨_, _, ?_, .inl ⟨hg, rfl, rfl⟩⟩
    simp only [retirePreparedBucketId, h, if_neg hlive, if_pos hnext]
  · have hlast : ¬ id.generation + 1 ≤ u32Max := by omega
    refine ⟨_, _, ?_, .inr ⟨hg, rfl, rfl⟩⟩
    simp only [retirePreparedBucketId, h, if_neg hlive, if_neg hlast]

/-- The slot of `id` leads nowhere, at generation `g`, and all others are as they were. -/
structure RetiresSlot (p p' : PreparedSlots) (id : PreparedBucketId) (g : Nat) : Prop where
  self : p'.preparedSlots[id.slot]? = some ⟨g, none⟩
  other : ∀ s, s ≠ id.slot → p'.preparedSlots[s]? = p.preparedSlots[s]?
  length : p'.preparedSlots.length = p.preparedSlots.length
  next : (id.generation < u32Max ∧ g = id.generation + 1 ∧
      p'.freePreparedSlots = id.slot :: p.freePreparedSlots) ∨
    (u32Max ≤ id.generation ∧ g = id.generation ∧ p'.freePreparedSlots = p.freePreparedSlots)

theorem retiresSlot {i : Nat} (h : p.preparedSlots[id.slot]? = some ⟨id.generation, some i⟩) :
    ∃ g, RetiresSlot p (retirePreparedBucketId p id) id g := by
  have hs : id.slot < p.preparedSlots.length := (List.getElem?_eq_some_iff.mp h).1
  obtain ⟨g, free, hr, hc⟩ := retire_cases h
  rw [hr]
  refine ⟨g, List.getElem?_set_self hs, fun s hne => List.getElem?_set_ne (Ne.symm hne),
    List.length_set .., hc⟩

theorem RetiresSlot.mem_free {g s : Nat} (hr : RetiresSlot p p' id g) (hs : s ≠ id.slot) :
    s ∈ p'.freePreparedSlots ↔ s ∈ p.freePreparedSlots := by
  rcases hr.next with ⟨-, -, hfree⟩ | ⟨-, -, hfree⟩ <;> simp [hfree, hs]

theorem RetiresSlot.tracked {g : Nat} {ids' : List PreparedBucketId} (hr : RetiresSlot p p' id g)
    (h : Tracked p ids) (hmem : ∀ j, j ∈ ids ↔ j = id ∨ j ∈ ids')
    (hnodup : (ids'.map PreparedBucketId.slot).Nodup) (hne : ∀ j ∈ ids', j.slot ≠ id.slot) :
    Tracked p' ids' := by
  obtain ⟨i, hi⟩ := h.entry id ((hmem id).mpr (.inl rfl))
  have hmax := h.bound _ _ hi
  refine ⟨hnodup, ?_, ?_, ?_, ?_, by simpa [hr.length] using h.size⟩
  · intro j hj
    obtain ⟨k, hk⟩ := h.entry j ((hmem j).mpr (.inr hj))
    exact ⟨k, (hr.other _ (hne j hj)).trans hk⟩
  · have hfree : id.slot ∉ p.freePreparedSlots := by
      intro hf
      obtain ⟨g, hg⟩ := h.vacant _ hf
      simp_all
    rcases hr.next with ⟨-, -, hf⟩ | ⟨-, -, hf⟩ <;> rw [hf]
    · exact List.nodup_cons.mpr ⟨hfree, h.free_nodup⟩
    · exact h.free_nodup
  · intro s hs
    by_cases hsid : s = id.slot
    · exact ⟨g, hsid ▸ hr.self⟩
    · obtain ⟨g', hg'⟩ := h.vacant s ((hr.mem_free hsid).mp hs)
      exact ⟨g', (hr.other s hsid).trans hg'⟩
  · intro s e he
    by_cases hsid : s = id.slot
    · subst hsid
      obtain rfl := Option.some.inj (hr.self.symm.trans he)
      rcases hr.next with ⟨hlt, rfl, -⟩ | ⟨-, rfl, -⟩
      · exact hlt
      · exact hmax
    · exact h.bound s e ((hr.other s hsid).symm.trans he)

theorem RetiresSlot.issued {g i : Nat} {j : PreparedBucketId} (hr : RetiresSlot p p' id g)
    (hi : p.preparedSlots[id.slot]? = some ⟨id.generation, some i⟩) (hj : Issued p j) :
    Issued p' j := by
  obtain ⟨e, he, hj⟩ := hj
  by_cases hjs : j.slot = id.slot
  · refine ⟨⟨g, none⟩, hjs ▸ hr.self, ?_⟩
    rw [hjs, hi] at he
    obtain rfl := Option.some.inj he
    rcases hr.next with ⟨-, rfl, hf⟩ | ⟨-, rfl, hf⟩ <;> rw [hf]
    · simp only at hj ⊢
      omega
    · exact hj
  · refine ⟨e, (hr.other _ hjs).trans he, ?_⟩
    rw [hr.mem_free hjs]
    exact hj

theorem RetiresSlot.accounted {g : Nat} {ids' : List PreparedBucketId} (hr : RetiresSlot p p' id g)
    (hle : id.generation ≤ u32Max) (hmem : ∀ j, j ∈ ids ↔ j = id ∨ j ∈ ids')
    (ha : Accounted p ids) : Accounted p' ids' := by
  intro s e he
  by_cases hsid : s = id.slot
  · subst hsid
    obtain rfl := Option.some.inj (hr.self.symm.trans he)
    refine .inr ⟨rfl, ?_⟩
    rcases hr.next with ⟨-, -, hf⟩ | ⟨hge, rfl, -⟩
    · exact .inl (by simp [hf])
    · exact .inr (le_antisymm hle hge)
  · rw [hr.mem_free hsid]
    refine (ha s e ((hr.other s hsid).symm.trans he)).imp_left ?_
    rintro ⟨j, hj, rfl⟩
    exact ⟨j, ((hmem j).mp hj).resolve_left (by rintro rfl; exact hsid rfl), rfl⟩

theorem retire_spec {ids' : List PreparedBucketId} (h : Tracked p ids)
    (hm : id ::ₘ (ids' : Multiset PreparedBucketId) = ids) :
    Tracked (retirePreparedBucketId p id) ids' ∧ Kept p (retirePreparedBucketId p id) ids ids' ∧
      ∀ s, s ≠ id.slot → (retirePreparedBucketId p id).preparedSlots[s]? = p.preparedSlots[s]? := by
  have hperm : (id :: ids').Perm ids := Multiset.coe_eq_coe.mp hm
  have hmem : ∀ j, j ∈ ids ↔ j = id ∨ j ∈ ids' := fun j => by rw [← hperm.mem_iff, List.mem_cons]
  have hnodup := (hperm.map PreparedBucketId.slot).nodup_iff.mpr h.slot_nodup
  rw [List.map_cons, List.nodup_cons] at hnodup
  have hne : ∀ j ∈ ids', j.slot ≠ id.slot := fun j hj he =>
    hnodup.1 (List.mem_map.mpr ⟨j, hj, he⟩)
  obtain ⟨i, hi⟩ := h.entry id ((hmem id).mpr (.inl rfl))
  obtain ⟨g, hr⟩ := retiresSlot hi
  exact ⟨hr.tracked h hmem hnodup.2 hne,
    ⟨fun j hj => hr.issued hi hj, hr.accounted (h.bound _ _ hi) hmem, hr.length⟩, hr.other⟩

/-- Every cached bucket retired in turn, as when the cache is cleared. -/
theorem retire_all (h : Tracked p ids) :
    Tracked (ids.foldl retirePreparedBucketId p) [] ∧
      Kept p (ids.foldl retirePreparedBucketId p) ids [] := by
  induction ids generalizing p with
  | nil => exact ⟨h, fun _ h => h, fun h => h, rfl⟩
  | cons id ids ih =>
    obtain ⟨ht, hk, -⟩ := retire_spec h rfl
    obtain ⟨ht', hk'⟩ := ih ht
    exact ⟨ht', hk.trans hk'⟩

/-- The repair loop sets the places it walks over, and touches no other slot. -/
theorem foldl_repair {bs : List (PreparedBucketId × Nat)} (hn : (bs.map (·.1.slot)).Nodup)
    (hg : ∀ b ∈ bs, ∃ o, p.preparedSlots[b.1.slot]? = some ⟨b.1.generation, o⟩) :
    let p' := bs.foldl repairPreparedBucketIndex p
    p'.freePreparedSlots = p.freePreparedSlots ∧
      p'.preparedSlots.length = p.preparedSlots.length ∧
      (∀ b ∈ bs, p'.preparedSlots[b.1.slot]? = some ⟨b.1.generation, some b.2⟩) ∧
      ∀ s, (∀ b ∈ bs, b.1.slot ≠ s) → p'.preparedSlots[s]? = p.preparedSlots[s]? := by
  induction bs generalizing p with
  | nil => simp
  | cons b bs ih =>
    rw [List.map_cons, List.nodup_cons] at hn
    obtain ⟨o, ho⟩ := hg b (by simp)
    have hs : b.1.slot < p.preparedSlots.length := (List.getElem?_eq_some_iff.mp ho).1
    have hne : ∀ c ∈ bs, c.1.slot ≠ b.1.slot := fun c hc he =>
      hn.1 (List.mem_map.mpr ⟨c, hc, he⟩)
    have hstep : repairPreparedBucketIndex p b = { p with
        preparedSlots := p.preparedSlots.set b.1.slot ⟨b.1.generation, some b.2⟩ } := by
      simp [repairPreparedBucketIndex, ho]
    obtain ⟨hf, hl, ha, hb⟩ := ih (p := repairPreparedBucketIndex p b) hn.2 fun c hc => by
      obtain ⟨o', ho'⟩ := hg c (by simp [hc])
      exact ⟨o', by rw [hstep, List.getElem?_set_ne (hne c hc).symm, ho']⟩
    rw [List.foldl_cons]
    refine ⟨by rw [hf, hstep], by rw [hl, hstep, List.length_set], ?_, ?_⟩
    · intro c hc
      rcases List.mem_cons.mp hc with rfl | hc
      · rw [hb _ hne, hstep]
        exact List.getElem?_set_self hs
      · exact ha c hc
    · intro s hs'
      rw [hb s fun c hc => hs' c (by simp [hc]), hstep]
      exact List.getElem?_set_ne (hs' b (by simp))

theorem mem_zipIdx_drop {start : Nat} {b : PreparedBucketId × Nat} :
    b ∈ ids.zipIdx.drop start ↔ start ≤ b.2 ∧ ids[b.2]? = some b.1 := by
  rw [List.mem_iff_getElem?]
  simp only [List.getElem?_drop, List.getElem?_zipIdx, Option.map_eq_some_iff, Nat.zero_add]
  constructor
  · rintro ⟨j, id, hid, rfl⟩
    exact ⟨Nat.le_add_right _ _, hid⟩
  · rintro ⟨hle, hid⟩
    exact ⟨b.2 - start, b.1, by rwa [Nat.add_sub_cancel' hle], by rw [Nat.add_sub_cancel' hle]⟩

theorem Tracked.index_inj (h : Tracked p ids) (hi : ids[i]? = some id) (hj : ids[j]? = some id')
    (hs : id.slot = id'.slot) : i = j := by
  have hlt : i < (ids.map PreparedBucketId.slot).length := by
    simpa using (List.getElem?_eq_some_iff.mp hi).1
  refine (List.getElem?_inj hlt h.slot_nodup).mp ?_
  simp [hi, hj, hs]

theorem repair_spec (start : Nat) (h : Tracked p ids)
    (hb : ∀ (j : Nat) (id : PreparedBucketId), j < start → ids[j]? = some id →
      p.preparedSlots[id.slot]? = some ⟨id.generation, some j⟩) :
    Indexed (repairPreparedBucketIndicesFrom p ids start) ids ∧
      Kept p (repairPreparedBucketIndicesFrom p ids start) ids ids := by
  have hnodup : ((ids.zipIdx.drop start).map (·.1.slot)).Nodup := by
    have hmap : (ids.zipIdx.map (·.1.slot)) = ids.map PreparedBucketId.slot := by
      conv_rhs => rw [← List.zipIdx_map_fst 0 ids, List.map_map]
      rfl
    rw [List.map_drop, hmap]
    exact h.slot_nodup.sublist (List.drop_sublist ..)
  obtain ⟨hf, hl, ha, ho⟩ := foldl_repair (p := p) hnodup fun b hb => by
    obtain ⟨k, hk⟩ := h.entry b.1 (List.mem_of_getElem? (mem_zipIdx_drop.mp hb).2)
    exact ⟨_, hk⟩
  rw [repairPreparedBucketIndicesFrom]
  generalize (ids.zipIdx.drop start).foldl repairPreparedBucketIndex p = p' at hf hl ha ho ⊢
  have hentry : ∀ (j : Nat) (id : PreparedBucketId), ids[j]? = some id →
      p'.preparedSlots[id.slot]? = some ⟨id.generation, some j⟩ := by
    intro j id hj
    rcases Nat.lt_or_ge j start with hlt | hge
    · refine (ho id.slot ?_).trans (hb j id hlt hj)
      intro b hb hs
      have := h.index_inj (mem_zipIdx_drop.mp hb).2 hj hs
      have := (mem_zipIdx_drop.mp hb).1
      omega
    · exact ha (id, j) (mem_zipIdx_drop.mpr ⟨hge, hj⟩)
  have hother : ∀ s, (∀ id ∈ ids, id.slot ≠ s) → p'.preparedSlots[s]? = p.preparedSlots[s]? :=
    fun s hs => ho s fun b hb => hs b.1 (List.mem_of_getElem? (mem_zipIdx_drop.mp hb).2)
  have hslot : ∀ s e', p'.preparedSlots[s]? = some e' → ∃ e, p.preparedSlots[s]? = some e ∧
      e'.generation = e.generation ∧ (e' = e ∨ ∃ id ∈ ids, id.slot = s) := by
    intro s e' he
    by_cases hs : ∃ id ∈ ids, id.slot = s
    · obtain ⟨id, hid, rfl⟩ := hs
      obtain ⟨j, hj⟩ := List.mem_iff_getElem?.mp hid
      obtain ⟨k, hk⟩ := h.entry id hid
      obtain rfl := Option.some.inj ((hentry j id hj).symm.trans he)
      exact ⟨_, hk, rfl, .inr ⟨id, hid, rfl⟩⟩
    · push Not at hs
      exact ⟨e', (hother s hs).symm.trans he, rfl, .inl rfl⟩
  refine ⟨⟨hentry, hf ▸ h.free_nodup, ?_, ?_, hl ▸ h.size⟩, ⟨?_, ?_, hl⟩⟩
  · intro s hs
    obtain ⟨g, hg⟩ := h.vacant s (hf ▸ hs)
    refine ⟨g, (hother s ?_).trans hg⟩
    rintro id hid rfl
    obtain ⟨k, hk⟩ := h.entry id hid
    simp_all
  · intro s e' he
    obtain ⟨e, he, hg, -⟩ := hslot s e' he
    exact hg ▸ h.bound s e he
  · rintro j ⟨e, he, hj⟩
    obtain ⟨e', he'⟩ : ∃ e', p'.preparedSlots[j.slot]? = some e' :=
      ⟨_, List.getElem?_eq_getElem (hl ▸ (List.getElem?_eq_some_iff.mp he).1)⟩
    obtain ⟨e'', he'', hg, -⟩ := hslot _ _ he'
    obtain rfl := Option.some.inj (he.symm.trans he'')
    exact ⟨e', he', by rw [hf, hg]; exact hj⟩
  · intro hacc s e' he
    obtain ⟨e, he, -, rfl | hid⟩ := hslot s e' he
    · rw [hf]
      exact hacc s _ he
    · exact .inl hid

/-- Retiring the bucket at a place and closing the gap with the last one. -/
theorem remove_spec (h : Indexed p ids) (hi : ids[i]? = some id) :
    Indexed (removePreparedBucketId p ids i id) (swapRemove ids i) ∧
      Kept p (removePreparedBucketId p ids i id) ids (swapRemove ids i) := by
  have hlt : i < ids.length := (List.getElem?_eq_some_iff.mp hi).1
  obtain ⟨ht, hk, ho⟩ := retire_spec h.tracked (cons_swapRemove hi)
  have hb : ∀ j id', j ≠ i → (swapRemove ids i)[j]? = some id' →
      (retirePreparedBucketId p id).preparedSlots[id'.slot]? = some ⟨id'.generation, some j⟩ := by
    intro j id' hne hj
    have hj' := ((getElem?_of_swapRemove hlt hj).2.resolve_left fun h => hne h.1).2
    rw [ho _ fun hs => hne (h.getElem?_inj hj' hi hs)]
    exact h.entry j id' hj'
  simp only [removePreparedBucketId]
  split
  · obtain ⟨hx, hk'⟩ := repair_spec i ht fun j id' hj => hb j id' (by omega)
    exact ⟨hx, hk.trans hk'⟩
  · rename_i hlen
    refine ⟨⟨?_, ht.free_nodup, ht.vacant, ht.bound, ht.size⟩, hk⟩
    intro j id' hj
    have := (List.getElem?_eq_some_iff.mp hj).1
    exact hb j id' (by omega) hj

end Zrt.Dynamic
