import Mathlib.Logic.Function.Basic

/-! A family of processes of which at most one is not idle, and the one process it amounts to. -/
namespace Solo

variable {ι P : Type*} {idle p q : P} {ps : ι → P} {i : ι}

/-- `p` is the only member that is not idle, or idle as they all are. -/
def Represents (idle : P) (ps : ι → P) (p : P) : Prop :=
  (p = idle ∧ ∀ i, ps i = idle) ∨ ∃ i, p = ps i ∧ ps i ≠ idle ∧ ∀ j, j ≠ i → ps j = idle

theorem represents_idle : Represents idle (fun _ : ι => idle) idle := .inl ⟨rfl, fun _ => rfl⟩

theorem Represents.active (h : Represents idle ps p) (hi : ps i ≠ idle) :
    p = ps i ∧ ∀ j, j ≠ i → ps j = idle := by
  rcases h with ⟨-, hall⟩ | ⟨k, rfl, -, hothers⟩
  · exact absurd (hall i) hi
  · have he : i = k := by
      by_contra hne
      exact hi (hothers i hne)
    subst he
    exact ⟨rfl, hothers⟩

theorem Represents.quiet (h : Represents idle ps p) (hall : ∀ j, ps j = idle) : p = idle := by
  rcases h with ⟨rfl, -⟩ | ⟨k, -, hk, -⟩
  · rfl
  · exact absurd (hall k) hk

/-- With all others idle, whatever `i` does is what the family does. -/
theorem represents_update [DecidableEq ι] (hothers : ∀ j, j ≠ i → ps j = idle) :
    Represents idle (Function.update ps i q) q := by
  by_cases hq : q = idle
  · refine .inl ⟨hq, ?_⟩
    intro j
    by_cases hj : j = i
    · subst hj
      simpa using hq
    · simpa [hj] using hothers j hj
  · refine .inr ⟨i, by simp, by simpa using hq, fun j hj => ?_⟩
    simpa [hj] using hothers j hj

end Solo
