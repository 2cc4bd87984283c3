import Mathlib.Data.List.Induction
import Mathlib.Data.Multiset.AddSub

/-! Arrays whose elements are removed by moving the last one into the gap. -/
namespace SwapRemove

open scoped List

variable {α β : Type*} {xs : List α} {i j : Nat} {x y : α}

/-- `Vec::swap_remove`: the last element takes the place of the one at `i`. -/
def swapRemove (xs : List α) (i : Nat) : List α :=
  match xs.getLast? with
  | none => []
  | some x => (xs.set i x).dropLast

theorem swapRemove_eq (h : xs[xs.length - 1]? = some x) :
    swapRemove xs i = (xs.set i x).dropLast := by
  rw [← List.getLast?_eq_getElem?] at h
  simp [swapRemove, h]

theorem exists_last (h : i < xs.length) : ∃ x, xs[xs.length - 1]? = some x := by
  have hlt : xs.length - 1 < xs.length := by omega
  exact ⟨xs[xs.length - 1], List.getElem?_eq_getElem hlt⟩

theorem length_swapRemove : (swapRemove xs i).length = xs.length - 1 := by
  cases h : xs.getLast? with
  | none => simp_all [swapRemove]
  | some x => simp [swapRemove, h]

theorem map_swapRemove (f : α → β) : (swapRemove xs i).map f = swapRemove (xs.map f) i := by
  cases h : xs.getLast? with
  | none => simp [swapRemove, h]
  | some x => simp [swapRemove, h]

/-- What stands where afterwards: the gap holds the former last element. -/
theorem getElem?_swapRemove (h : i < xs.length) : (swapRemove xs i)[j]? =
    if j + 1 < xs.length then (if j = i then xs[xs.length - 1]? else xs[j]?) else none := by
  obtain ⟨x, hx⟩ := exists_last h
  rw [swapRemove_eq hx, List.getElem?_dropLast, List.getElem?_set, List.length_set, hx]
  grind

/-- The former place of an element that is still there. -/
theorem getElem?_of_swapRemove (h : i < xs.length) (hj : (swapRemove xs i)[j]? = some x) :
    j + 1 < xs.length ∧ ((j = i ∧ xs[xs.length - 1]? = some x) ∨ (j ≠ i ∧ xs[j]? = some x)) := by
  rw [getElem?_swapRemove h] at hj
  grind

theorem mem_of_mem_swapRemove (hx : x ∈ swapRemove xs i) : x ∈ xs := by
  cases h : xs.getLast? with
  | none => simp [swapRemove, h] at hx
  | some y =>
    have hy : y ∈ xs := List.mem_of_getLast? h
    simp only [swapRemove, h] at hx
    rcases List.mem_or_eq_of_mem_set (List.dropLast_subset _ hx) with hx | rfl
    · exact hx
    · exact hy

/-- Nothing but the element at `i` goes. -/
theorem cons_swapRemove (h : xs[i]? = some x) :
    (x ::ₘ (swapRemove xs i : Multiset α)) = (xs : Multiset α) := by
  induction xs using List.reverseRecOn generalizing i with
  | nil => simp at h
  | append_singleton ys y _ =>
    have hlast : (ys ++ [y])[(ys ++ [y]).length - 1]? = some y := by simp
    rw [swapRemove_eq hlast, Multiset.cons_coe, Multiset.coe_eq_coe]
    rcases Nat.lt_or_ge i ys.length with hi | hi
    · rw [List.getElem?_append_left hi] at h
      obtain ⟨-, rfl⟩ := List.getElem?_eq_some_iff.mp h
      rw [List.set_append_left _ _ hi, List.dropLast_concat]
      have hset := List.set_eq_take_append_cons_drop (l := ys) (i := i) (a := y)
      rw [if_pos hi] at hset
      calc ys[i] :: ys.set i y
          _ = ys[i] :: (ys.take i ++ y :: ys.drop (i + 1)) := by rw [hset]
          _ ~ ys[i] :: y :: (ys.take i ++ ys.drop (i + 1)) := .cons _ List.perm_middle
          _ ~ y :: ys[i] :: (ys.take i ++ ys.drop (i + 1)) := .swap ..
          _ ~ y :: (ys.take i ++ ys[i] :: ys.drop (i + 1)) := .cons _ List.perm_middle.symm
          _ = y :: ys := by rw [List.getElem_cons_drop, List.take_append_drop]
          _ ~ ys ++ [y] := (List.perm_append_singleton y ys).symm
    · have hi' : i = ys.length := by
        have := (List.getElem?_eq_some_iff.mp h).1
        simp at this
        omega
      subst hi'
      simp only [List.getElem?_concat_length, Option.some.injEq] at h
      subst h
      simpa using (List.perm_append_singleton y ys).symm

theorem nodup_swapRemove (h : xs.Nodup) : (swapRemove xs i).Nodup := by
  rcases Nat.lt_or_ge i xs.length with hi | hi
  · have hx := cons_swapRemove (List.getElem?_eq_getElem hi)
    have hn : (xs[i] ::ₘ (swapRemove xs i : Multiset α)).Nodup := by
      rw [hx]
      exact Multiset.coe_nodup.mpr h
    exact Multiset.coe_nodup.mp (Multiset.nodup_cons.mp hn).2
  · cases hl : xs.getLast? with
    | none => simp [swapRemove, hl]
    | some y =>
      simp only [swapRemove, hl, List.set_eq_of_length_le hi]
      exact h.sublist (List.dropLast_sublist xs)

/-- Without duplicates, exactly the element at `i` goes. -/
theorem mem_swapRemove_iff (hn : xs.Nodup) (h : xs[i]? = some x) :
    y ∈ swapRemove xs i ↔ y ∈ xs ∧ y ≠ x := by
  have hcons := cons_swapRemove h
  have hy : y ∈ xs ↔ y = x ∨ y ∈ swapRemove xs i := by
    rw [← Multiset.mem_coe, ← hcons, Multiset.mem_cons, Multiset.mem_coe]
  have hx : x ∉ swapRemove xs i := by
    rw [← Multiset.coe_nodup, ← hcons] at hn
    exact (Multiset.nodup_cons.mp hn).1
  rw [hy]
  constructor
  · intro hm
    exact ⟨.inr hm, fun he => hx (he ▸ hm)⟩
  · rintro ⟨rfl | hm, hne⟩
    · exact absurd rfl hne
    · exact hm

end SwapRemove
