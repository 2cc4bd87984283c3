import Mathlib.Data.Finset.Card

/-! Shared objects that their last holder destroys, and a ledger of what was released. -/
namespace Refcount

variable {η ρ : Type*} [DecidableEq η]

/-- A shared object: who holds a reference to it, and what its destructor releases. -/
structure Shared (η ρ : Type*) where
  holders : Finset η
  contents : List ρ

/-- How often each resource was released. -/
abbrev Ledger (ρ : Type*) := ρ → Nat

def Ledger.add [DecidableEq ρ] (l : Ledger ρ) (r : List ρ) : Ledger ρ := fun x => l x + r.count x

def Shared.new (h : η) (contents : List ρ) : Shared η ρ := ⟨{h}, contents⟩

def Shared.clone (o : Shared η ρ) (h : η) : Shared η ρ := { o with holders := insert h o.holders }

/-- The object without a holder, and what is released with the last one. -/
def Shared.drop (o : Shared η ρ) (h : η) : Shared η ρ × List ρ :=
  ({ o with holders := o.holders.erase h }, if o.holders.erase h = ∅ then o.contents else [])

/-- The contents are released once if nobody holds the object any more, and not before. -/
structure Shared.Accounted (o : Shared η ρ) (l : Ledger ρ) : Prop where
  distinct : o.contents.Nodup
  released : ∀ x ∈ o.contents, l x = if o.holders = ∅ then 1 else 0

variable {o : Shared η ρ} {l : Ledger ρ} {h : η} {x : ρ} {r contents : List ρ}

section Ledger

variable [DecidableEq ρ]

@[simp] theorem Ledger.add_apply : l.add r x = l x + r.count x := rfl

@[simp] theorem Ledger.add_nil : l.add [] = l := by
  funext x
  simp

theorem Ledger.add_of_notMem (hx : x ∉ r) : l.add r x = l x := by
  simp [List.count_eq_zero_of_not_mem hx]

theorem Ledger.add_add : (l.add r).add contents = l.add (r ++ contents) := by
  funext x
  simp [Nat.add_assoc]

end Ledger

@[simp] theorem Shared.drop_contents : (o.drop h).1.contents = o.contents := rfl

/-- A destructor releases nothing but the contents. -/
theorem Shared.drop_released (hx : x ∈ (o.drop h).2) : x ∈ o.contents := by
  unfold Shared.drop at hx
  split at hx
  · exact hx
  · simp at hx

namespace Shared.Accounted

theorem new (hn : contents.Nodup) (hx : ∀ x ∈ contents, l x = 0) :
    (Shared.new h contents).Accounted l := by
  refine ⟨hn, ?_⟩
  intro x hm
  rw [hx x hm]
  exact (if_neg (Finset.singleton_ne_empty h)).symm

/-- A holder keeps the contents alive. -/
theorem held (ha : o.Accounted l) (hh : h ∈ o.holders) (hx : x ∈ o.contents) : l x = 0 := by
  rw [ha.released x hx, if_neg (Finset.ne_empty_of_mem hh)]

theorem le_one (ha : o.Accounted l) (hx : x ∈ o.contents) : l x ≤ 1 := by
  rw [ha.released x hx]
  split <;> omega

/-- Only a holder can make another one. -/
theorem clone (ha : o.Accounted l) {h' : η} (hh : h' ∈ o.holders) : (o.clone h).Accounted l := by
  refine ⟨ha.distinct, ?_⟩
  intro x hx
  rw [ha.held hh hx, if_neg]
  exact Finset.insert_ne_empty h o.holders

/-- Dropping a reference releases the contents exactly when it was the last one. -/
theorem drop [DecidableEq ρ] (ha : o.Accounted l) (hh : h ∈ o.holders) :
    (o.drop h).1.Accounted (l.add (o.drop h).2) := by
  refine ⟨ha.distinct, ?_⟩
  intro x hx
  rw [Ledger.add_apply, ha.held hh hx, Nat.zero_add]
  by_cases hlast : (o.drop h).1.holders = ∅
  · rw [if_pos hlast, show (o.drop h).2 = o.contents from if_pos hlast]
    exact List.count_eq_one_of_mem ha.distinct hx
  · rw [if_neg hlast, show (o.drop h).2 = [] from if_neg hlast]
    rfl

/-- What others release does not touch the object. -/
theorem frame [DecidableEq ρ] (ha : o.Accounted l) (hd : ∀ x ∈ o.contents, x ∉ r) :
    o.Accounted (l.add r) := by
  refine ⟨ha.distinct, ?_⟩
  intro x hx
  rw [Ledger.add_of_notMem (hd x hx), ha.released x hx]

end Shared.Accounted

/-- A growing list of objects, each of which releases only what is its own, and once. -/
structure Family (own : Nat → ρ → Prop) (objects : List (Shared η ρ)) (l : Ledger ρ) : Prop where
  accounted : ∀ (i : Nat) (o : Shared η ρ), objects[i]? = some o → o.Accounted l
  owned : ∀ (i : Nat) (o : Shared η ρ), objects[i]? = some o → ∀ x ∈ o.contents, own i x
  unused : ∀ (i : Nat) (x : ρ), own i x → (∀ o, objects[i]? = some o → x ∉ o.contents) → l x = 0

namespace Family

variable {own : Nat → ρ → Prop} {objects : List (Shared η ρ)} {p : Shared η ρ} {i : Nat}

theorem nil : Family own ([] : List (Shared η ρ)) fun _ => 0 :=
  ⟨nofun, nofun, fun _ _ _ _ => rfl⟩

/-- The parts of an object that was not made yet. -/
theorem unmade (hf : Family own objects l) (hi : objects.length ≤ i) (hx : own i x) : l x = 0 :=
  hf.unused i x hx fun o ho => by simp [List.getElem?_eq_none hi] at ho

theorem le_one (hf : Family own objects l) (hx : own i x) : l x ≤ 1 := by
  by_cases h : ∃ o, objects[i]? = some o ∧ x ∈ o.contents
  · obtain ⟨o, hi, hm⟩ := h
    exact (hf.accounted i o hi).le_one hm
  · rw [hf.unused i x hx fun o ho hm => h ⟨o, ho, hm⟩]
    omega

variable [DecidableEq ρ]

/-- What no object owns may be released. -/
theorem frame (hf : Family own objects l) (hr : ∀ x ∈ r, ∀ i, ¬ own i x) :
    Family own objects (l.add r) where
  accounted i o hi := (hf.accounted i o hi).frame fun x hx hm => hr x hm i (hf.owned i o hi x hx)
  owned := hf.owned
  unused i x hx ho := (Ledger.add_of_notMem fun hm => hr x hm i hx).trans (hf.unused i x hx ho)

/-- One object is made or changed, and may release its own. -/
theorem replace {objects' : List (Shared η ρ)} (hf : Family own objects l)
    (hown : ∀ i j x, own i x → own j x → i = j) (hp : p.Accounted (l.add r))
    (hx : ∀ x ∈ p.contents, own i x) (hr : ∀ x ∈ r, x ∈ p.contents) (hi : objects'[i]? = some p)
    (hj : ∀ j, j ≠ i → objects'[j]? = objects[j]?)
    (hbefore : ∀ o, objects[i]? = some o → o.contents = p.contents) :
    Family own objects' (l.add r) := by
  have hsame : ∀ j x, j ≠ i → own j x → l.add r x = l x := fun j x hne hj =>
    Ledger.add_of_notMem fun hm => hne (hown j i x hj (hx x (hr x hm)))
  refine ⟨?_, ?_, ?_⟩
  · intro j o ho
    by_cases he : j = i
    · subst he
      obtain rfl := Option.some.inj (hi.symm.trans ho)
      exact hp
    · rw [hj j he] at ho
      refine ⟨(hf.accounted j o ho).distinct, ?_⟩
      intro x hm
      rw [hsame j x he (hf.owned j o ho x hm), (hf.accounted j o ho).released x hm]
  · intro j o ho
    by_cases he : j = i
    · subst he
      obtain rfl := Option.some.inj (hi.symm.trans ho)
      exact hx
    · exact hf.owned j o (hj j he ▸ ho)
  · intro j x hjx ho
    by_cases he : j = i
    · subst he
      have hm := ho p hi
      rw [Ledger.add_of_notMem fun hc => hm (hr x hc)]
      exact hf.unused j x hjx fun o hb => hbefore o hb ▸ hm
    · rw [hsame j x he hjx]
      exact hf.unused j x hjx fun o hb => ho o ((hj j he).trans hb)

/-- One more object, which may have released its own at once. -/
theorem push (hf : Family own objects l) (hown : ∀ i j x, own i x → own j x → i = j)
    (hp : p.Accounted (l.add r)) (hx : ∀ x ∈ p.contents, own objects.length x)
    (hr : ∀ x ∈ r, x ∈ p.contents) : Family own (objects ++ [p]) (l.add r) := by
  refine hf.replace hown hp hx hr (by simp) (fun j hj => ?_) fun o ho => by simp at ho
  rcases Nat.lt_or_gt_of_ne hj with hlt | hgt
  · exact List.getElem?_append_left hlt
  · rw [List.getElem?_eq_none_iff.mpr hgt.le,
      List.getElem?_eq_none_iff.mpr (by simpa using Nat.succ_le_of_lt hgt)]

/-- One object changes, and may release its own. -/
theorem set (hf : Family own objects l) (hown : ∀ i j x, own i x → own j x → i = j)
    (hi : objects[i]? = some o) (hp : p.Accounted (l.add r)) (hc : p.contents = o.contents)
    (hr : ∀ x ∈ r, x ∈ o.contents) : Family own (objects.set i p) (l.add r) := by
  have hlen : i < objects.length := (List.getElem?_eq_some_iff.mp hi).1
  refine hf.replace hown hp (fun x hx => hf.owned i o hi x (hc ▸ hx)) (fun x hx => hc ▸ hr x hx)
    (List.getElem?_set_self hlen) (fun j hj => List.getElem?_set_ne hj.symm) fun o' ho => ?_
  rw [hc, Option.some.inj (hi.symm.trans ho)]

theorem clone (hf : Family own objects l) (hown : ∀ i j x, own i x → own j x → i = j)
    (hi : objects[i]? = some o) {h' : η} (hh : h' ∈ o.holders) :
    Family own (objects.set i (o.clone h)) l := by
  have hset := hf.set (r := []) (p := o.clone h) hown hi
    (by simpa using (hf.accounted i o hi).clone (h := h) hh) rfl nofun
  simpa using hset

theorem drop (hf : Family own objects l) (hown : ∀ i j x, own i x → own j x → i = j)
    (hi : objects[i]? = some o) (hh : h ∈ o.holders) :
    Family own (objects.set i (o.drop h).1) (l.add (o.drop h).2) :=
  hf.set hown hi ((hf.accounted i o hi).drop hh) rfl fun _ hx => Shared.drop_released hx

/-- A new object with a holder. -/
theorem new (hf : Family own objects l) (hown : ∀ i j x, own i x → own j x → i = j)
    (hn : contents.Nodup) (hx : ∀ x ∈ contents, own objects.length x) :
    Family own (objects ++ [.new h contents]) l := by
  have hpush := hf.push (r := []) (p := Shared.new h contents) hown ?_ hx nofun
  · simpa using hpush
  · simpa using Shared.Accounted.new (h := h) hn fun x hm => hf.unmade le_rfl (hx x hm)

end Family

section Alive

variable {objects : List (Shared η ρ)} {p : Shared η ρ} {i : Nat}

/-- How many objects somebody holds. -/
def alive (objects : List (Shared η ρ)) : Nat := objects.countP fun o => o.holders ≠ ∅

theorem alive_append :
    alive (objects ++ [p]) = alive objects + if p.holders = ∅ then 0 else 1 := by
  rw [alive, List.countP_append, List.countP_singleton]
  by_cases hp : p.holders = ∅ <;> simp [hp, alive]

/-- An object that was held counts until nobody holds it. -/
theorem alive_set (hi : objects[i]? = some o) (ho : o.holders ≠ ∅) :
    alive (objects.set i p) + (if p.holders = ∅ then 1 else 0) = alive objects := by
  obtain ⟨hlen, he⟩ := List.getElem?_eq_some_iff.mp hi
  have hpos : 0 < alive objects :=
    List.countP_pos_iff.mpr ⟨o, List.mem_of_getElem? hi, by simpa using ho⟩
  have hset := List.countP_set (p := fun o : Shared η ρ => decide (o.holders ≠ ∅)) (a := p) hlen
  rw [he] at hset
  have hcount : alive (objects.set i p) = alive objects - 1 + if p.holders = ∅ then 0 else 1 := by
    rw [alive, hset]
    by_cases hp : p.holders = ∅ <;> simp [hp, ho, alive]
  rw [hcount]
  split <;> omega

theorem alive_one_lt (hi : objects[i]? = some o) (ho : o.holders ≠ ∅) :
    1 < alive objects ↔ ∃ j p, j ≠ i ∧ objects[j]? = some p ∧ p.holders.Nonempty := by
  have hlen := (List.getElem?_eq_some_iff.mp hi).1
  have hset := alive_set (p := { o with holders := ∅ }) hi ho
  rw [if_pos rfl] at hset
  rw [← hset, Nat.lt_add_left_iff_pos, alive, List.countP_pos_iff]
  constructor
  · rintro ⟨p, hp, hne⟩
    obtain ⟨j, hj⟩ := List.getElem?_of_mem hp
    have hne : p.holders ≠ ∅ := by simpa using hne
    by_cases he : i = j
    · subst he
      rw [List.getElem?_set_self hlen] at hj
      exact absurd (Option.some.inj hj ▸ rfl) hne
    · rw [List.getElem?_set_ne he] at hj
      exact ⟨j, p, fun hc => he hc.symm, hj, Finset.nonempty_iff_ne_empty.mpr hne⟩
  · rintro ⟨j, p, hne, hj, hp⟩
    rw [← List.getElem?_set_ne hne.symm] at hj
    exact ⟨p, List.mem_of_getElem? hj, by simpa using hp.ne_empty⟩

end Alive

end Refcount
