import Mathlib.Order.Basic

/-! Objects that an outside holder releases, or the object that owns them. Objects are numbered as
they are made; ownership is told by the outermost owner. -/
namespace Ownership

structure Books where
  count : Nat
  held : Nat → Bool
  owner : Nat → Option Nat
  released : Nat → Nat

namespace Books

def empty : Books := ⟨0, fun _ => false, fun _ => none, fun _ => 0⟩

variable (b : Books)

/-- Who has to be released for the object to be: itself, or its owner. -/
def holder (x : Nat) : Nat := (b.owner x).getD x

/-- A new object, held from the outside. -/
def make : Books :=
  { b with
    count := b.count + 1
    held := fun y => if y = b.count then true else b.held y }

/-- The object is released, and with it what it owns. -/
def release (x : Nat) : Books :=
  { b with released := fun y => b.released y + if y = x ∨ b.owner y = some x then 1 else 0 }

/-- The outside holder is gone without a release. -/
def forget (x : Nat) : Books := { b with held := fun y => if y = x then false else b.held y }

/-- The outside holder releases the object. -/
def drop (x : Nat) : Books := (b.release x).forget x

/-- `p` becomes the owner of the object, and of what it owns. -/
def own (p x : Nat) : Books :=
  { b with owner := fun y => if y = x ∨ b.owner y = some x then some p else b.owner y }

/-- The outside holder hands the object over to `p`. -/
def give (p x : Nat) : Books := (b.own p x).forget x

/-- `p` releases some of what it owns. -/
def letGo (p : Nat) (gone : List Nat) : Books :=
  { b with
    owner := fun y => if y ∈ gone ∧ b.owner y = some p then none else b.owner y
    released := fun y => b.released y + if y ∈ gone ∧ b.owner y = some p then 1 else 0 }

/-- Objects are released once, when nobody holds them any more. -/
structure Sound : Prop where
  unmade : ∀ x, b.count ≤ x → b.held x = false ∧ b.owner x = none ∧ b.released x = 0
  owned : ∀ x p, b.owner x = some p → p < b.count ∧ b.held x = false ∧ b.owner p = none
  released : ∀ x, x < b.count → b.released x = if b.held (b.holder x) then 0 else 1

variable {b} {p x y : Nat} {gone : List Nat}

theorem make_held : b.make.held y = if y = b.count then true else b.held y := rfl

theorem drop_held : (b.drop x).held y = if y = x then false else b.held y := rfl

theorem give_held : (b.give p x).held y = if y = x then false else b.held y := rfl

theorem give_owner : (b.give p x).owner y =
    if y = x ∨ b.owner y = some x then some p else b.owner y := rfl

theorem letGo_owner : (b.letGo p gone).owner y =
    if y ∈ gone ∧ b.owner y = some p then none else b.owner y := rfl

theorem letGo_holder : (b.letGo p gone).holder y =
    if y ∈ gone ∧ b.owner y = some p then y else b.holder y := by
  rw [holder, letGo_owner]
  split
  · rw [Option.getD_none]
  · rw [holder]

theorem sound_empty : empty.Sound where
  unmade _ _ := ⟨rfl, rfl, rfl⟩
  owned _ _ h := by cases h
  released x h := absurd h (Nat.not_lt_zero x)

namespace Sound

theorem lt_count (h : b.Sound) (hx : b.held x = true) : x < b.count := by
  by_contra hlt
  rw [(h.unmade x (Nat.le_of_not_lt hlt)).1] at hx
  cases hx

/-- A held object has no owner. -/
theorem owner_none (h : b.Sound) (hx : b.held x = true) : b.owner x = none := by
  cases ho : b.owner x with
  | none => rfl
  | some p =>
    rw [(h.owned x p ho).2.1] at hx
    cases hx

theorem holder_self (h : b.Sound) (hx : b.held x = true) : b.holder x = x := by
  rw [holder, h.owner_none hx, Option.getD_none]

theorem released_held (h : b.Sound) (hx : b.held x = true) : b.released x = 0 := by
  rw [h.released x (h.lt_count hx), h.holder_self hx, if_pos hx]

/-- What a held object has to be released for. -/
theorem holder_iff (h : b.Sound) (hx : b.held x = true) :
    b.holder y = x ↔ y = x ∨ b.owner y = some x := by
  unfold holder
  cases ho : b.owner y with
  | none => simp
  | some p =>
    have hne : y ≠ x := by
      rintro rfl
      rw [h.owner_none hx] at ho
      cases ho
    simp [hne]

theorem holder_lt (h : b.Sound) (hy : y < b.count) : b.holder y < b.count := by
  unfold holder
  cases ho : b.owner y with
  | none => exact hy
  | some p => exact (h.owned y p ho).1

theorem make (h : b.Sound) : b.make.Sound := by
  refine ⟨?_, ?_, ?_⟩
  · intro y hy
    obtain ⟨hh, ho, hr⟩ := h.unmade y (Nat.le_of_succ_le hy)
    exact ⟨by rw [make_held, if_neg (Nat.ne_of_gt hy), hh], ho, hr⟩
  · intro y p ho
    obtain ⟨hp, hh, hop⟩ := h.owned y p ho
    have hne : y ≠ b.count := by
      rintro rfl
      have hnone := (h.unmade b.count (Nat.le_refl _)).2.1
      cases hnone.symm.trans ho
    exact ⟨Nat.lt_succ_of_lt hp, by rw [make_held, if_neg hne, hh], hop⟩
  · intro y hy
    have hholder : b.make.holder y = b.holder y := rfl
    rcases Nat.lt_succ_iff_lt_or_eq.mp hy with hy | rfl
    · rw [hholder, make_held, if_neg (Nat.ne_of_lt (h.holder_lt hy))]
      exact h.released y hy
    · obtain ⟨-, ho, hr⟩ := h.unmade b.count (Nat.le_refl _)
      rw [hholder, holder, ho, Option.getD_none, make_held, if_pos rfl, if_pos rfl]
      exact hr

/-- Only the object and what it owns are released. -/
theorem drop (h : b.Sound) (hx : b.held x = true) : (b.drop x).Sound := by
  refine ⟨?_, ?_, ?_⟩
  · intro y hy
    obtain ⟨hh, ho, hr⟩ := h.unmade y hy
    have hne : y ≠ x := Nat.ne_of_gt (Nat.lt_of_lt_of_le (h.lt_count hx) hy)
    refine ⟨by rw [drop_held, if_neg hne, hh], ho, ?_⟩
    have hkept : ¬ (y = x ∨ b.owner y = some x) := by simp [hne, ho]
    exact (congrArg (b.released y + ·) (if_neg hkept)).trans hr
  · intro y p ho
    obtain ⟨hp, hh, hop⟩ := h.owned y p ho
    exact ⟨hp, by rw [drop_held, hh, ite_self], hop⟩
  · intro y hy
    have hholder : (b.drop x).holder y = b.holder y := rfl
    have hreleased : (b.drop x).released y =
        b.released y + if y = x ∨ b.owner y = some x then 1 else 0 := rfl
    rw [hholder, drop_held, hreleased, h.released y hy]
    by_cases he : b.holder y = x
    · rw [if_pos ((h.holder_iff hx).mp he), he, if_pos hx, if_pos rfl]
      rfl
    · rw [if_neg (he ∘ (h.holder_iff hx).mpr), if_neg he, Nat.add_zero]

/-- What the object was held for, its new owner is. -/
theorem give_holder (h : b.Sound) (hx : b.held x = true) :
    (b.give p x).holder y = if b.holder y = x then p else b.holder y := by
  rw [holder, give_owner]
  by_cases he : b.holder y = x
  · rw [if_pos ((h.holder_iff hx).mp he), if_pos he, Option.getD_some]
  · rw [if_neg (he ∘ (h.holder_iff hx).mpr), if_neg he, holder]

/-- Only a held object can become the owner of another. -/
theorem give (h : b.Sound) (hp : b.held p = true) (hx : b.held x = true) (hne : p ≠ x) :
    (b.give p x).Sound := by
  have hheld : ∀ y, b.held y = false → (b.give p x).held y = false := fun y hy => by
    rw [give_held, hy, ite_self]
  refine ⟨?_, ?_, ?_⟩
  · intro y hy
    obtain ⟨hh, ho, hr⟩ := h.unmade y hy
    have hyx : y ≠ x := Nat.ne_of_gt (Nat.lt_of_lt_of_le (h.lt_count hx) hy)
    refine ⟨hheld y hh, ?_, hr⟩
    rw [give_owner, if_neg (by simp [hyx, ho]), ho]
  · intro y q ho
    rw [give_owner] at ho
    split at ho
    · rename_i hyx
      obtain rfl := Option.some.inj ho
      refine ⟨h.lt_count hp, ?_, ?_⟩
      · rcases hyx with rfl | hyx
        · exact if_pos rfl
        · exact hheld y (h.owned y x hyx).2.1
      · rw [give_owner, if_neg (by simp [hne, h.owner_none hp]), h.owner_none hp]
    · obtain ⟨hq, hh, hoq⟩ := h.owned y q ho
      refine ⟨hq, hheld y hh, ?_⟩
      rename_i hyx
      have hqx : q ≠ x := fun he => hyx (.inr (he ▸ ho))
      rw [give_owner, if_neg (by simp [hqx, hoq]), hoq]
  · intro y hy
    have hreleased : (b.give p x).released y = b.released y := rfl
    rw [h.give_holder hx, give_held, hreleased, h.released y hy]
    by_cases he : b.holder y = x
    · rw [he, if_pos hx, if_pos rfl, if_neg hne, if_pos hp]
    · rw [if_neg he, if_neg he]

/-- Nobody holds what an owner let go. -/
theorem letGo (h : b.Sound) (hp : b.held p = true) : (b.letGo p gone).Sound := by
  refine ⟨?_, ?_, ?_⟩
  · intro y hy
    obtain ⟨hh, ho, hr⟩ := h.unmade y hy
    refine ⟨hh, by rw [letGo_owner, ho, ite_self], ?_⟩
    have hkept : ¬ (y ∈ gone ∧ b.owner y = some p) := by simp [ho]
    exact (congrArg (b.released y + ·) (if_neg hkept)).trans hr
  · intro y q ho
    rw [letGo_owner] at ho
    split at ho
    · cases ho
    · obtain ⟨hq, hh, hoq⟩ := h.owned y q ho
      exact ⟨hq, hh, by rw [letGo_owner, hoq, ite_self]⟩
  · intro y hy
    have hreleased : (b.letGo p gone).released y =
        b.released y + if y ∈ gone ∧ b.owner y = some p then 1 else 0 := rfl
    have hheld : (b.letGo p gone).held = b.held := rfl
    rw [hreleased, h.released y hy, hheld, letGo_holder]
    by_cases hy : y ∈ gone ∧ b.owner y = some p
    · have hown := (h.owned y p hy.2).2.1
      rw [if_pos hy, if_pos hy, holder, hy.2, Option.getD_some, if_pos hp, hown]
      rfl
    · rw [if_neg hy, if_neg hy, Nat.add_zero]

end Sound

end Books

end Ownership
