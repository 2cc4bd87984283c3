import Mathlib.Algebra.BigOperators.Group.Finset.Basic
import Mathlib.Algebra.Order.BigOperators.Group.Finset
import Mathlib.Algebra.Order.Group.Multiset

/-! What the members of a family hold together, where all but finitely many hold nothing. -/
namespace Tally

variable {ι P M : Type*}

/-- The members together hold `m`. -/
def Totals [AddCommMonoid M] (w : P → M) (ps : ι → P) (m : M) : Prop :=
  ∃ s : Finset ι, (∀ i, i ∉ s → w (ps i) = 0) ∧ ∑ i ∈ s, w (ps i) = m

section
variable [AddCommMonoid M] {w : P → M} {ps : ι → P} {m m' : M}

theorem totals_zero (h : ∀ i, w (ps i) = 0) : Totals w ps 0 :=
  ⟨∅, fun i _ => h i, Finset.sum_empty⟩

theorem Totals.eq_zero (h : Totals w ps m) (hw : ∀ i, w (ps i) = 0) : m = 0 := by
  obtain ⟨s, -, rfl⟩ := h
  exact Finset.sum_eq_zero fun i _ => hw i

/-- More members may be counted. -/
theorem Totals.extend [DecidableEq ι] (h : Totals w ps m) (i : ι) :
    ∃ s : Finset ι, i ∈ s ∧ (∀ j, j ∉ s → w (ps j) = 0) ∧ ∑ j ∈ s, w (ps j) = m := by
  obtain ⟨s, hout, hsum⟩ := h
  refine ⟨insert i s, Finset.mem_insert_self i s, ?_, ?_⟩
  · exact fun j hj => hout j fun hs => hj (Finset.mem_insert_of_mem hs)
  · rw [← hsum]
    refine (Finset.sum_subset (Finset.subset_insert i s) ?_).symm
    exact fun j _ hj => hout j hj

/-- One member's share and that of the others. -/
theorem Totals.split [DecidableEq ι] (h : Totals w ps m) (i : ι) :
    ∃ rest, m = w (ps i) + rest ∧ ∀ p, Totals w (Function.update ps i p) (w p + rest) := by
  obtain ⟨s, hi, hout, rfl⟩ := h.extend i
  refine ⟨∑ j ∈ s.erase i, w (ps j), (Finset.add_sum_erase s _ hi).symm, fun p => ⟨s, ?_, ?_⟩⟩
  · intro j hj
    have hne : j ≠ i := fun he => hj (he ▸ hi)
    rw [Function.update_of_ne hne]
    exact hout j hj
  · rw [← Finset.add_sum_erase s _ hi, Function.update_self]
    refine congrArg (w p + ·) (Finset.sum_congr rfl ?_)
    intro j hj
    rw [Function.update_of_ne (Finset.ne_of_mem_erase hj)]

theorem Totals.exists_update [DecidableEq ι] (h : Totals w ps m) (i : ι) (p : P) :
    ∃ m', Totals w (Function.update ps i p) m' := by
  obtain ⟨rest, -, hrest⟩ := h.split i
  exact ⟨_, hrest p⟩

end

section
variable [AddCancelCommMonoid M] {w : P → M} {ps : ι → P} {m m' : M} {i : ι} {p : P}

/-- What one member gains or gives up, they all do. -/
theorem Totals.update [DecidableEq ι] (h : Totals w ps m) (hm : m' + w (ps i) = m + w p) :
    Totals w (Function.update ps i p) m' := by
  obtain ⟨rest, rfl, hrest⟩ := h.split i
  have he : m' = w p + rest := by
    refine add_right_cancel (b := w (ps i)) ?_
    rw [hm, add_comm (w (ps i)) rest, add_right_comm, add_comm rest]
  exact he ▸ hrest p

/-- A member that trades its place for one that holds as much. -/
theorem Totals.same [DecidableEq ι] (h : Totals w ps m) (hw : w p = w (ps i)) :
    Totals w (Function.update ps i p) m :=
  h.update (by rw [hw])

end

variable [AddCommMonoid M] [PartialOrder M] [CanonicallyOrderedAdd M] {w : P → M}
  {ps : ι → P} {m : M}

theorem Totals.le [DecidableEq ι] (h : Totals w ps m) (i : ι) : w (ps i) ≤ m := by
  obtain ⟨rest, rfl, -⟩ := h.split i
  exact le_self_add

end Tally
