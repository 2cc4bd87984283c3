import Mathlib.Algebra.Order.Floor.Div

/-! Pages of an address space, and points of an interval that come by each of its pages. -/
namespace Paging

variable {page q a b d n : Nat}

/-- Page `q` holds an address from `a` up to, but not including, `b`. -/
def Meets (page q a b : Nat) : Prop := ∃ x, a ≤ x ∧ x < b ∧ x / page = q

theorem meets_iff (hp : 0 < page) :
    Meets page q a b ↔ a < b ∧ a < q * page + page ∧ q * page < b := by
  constructor
  · rintro ⟨x, ha, hb, hx⟩
    have hx := (Nat.div_eq_iff hp).mp hx
    omega
  · rintro ⟨hab, ha, hb⟩
    have hmax : a ≤ max a (q * page) ∧ q * page ≤ max a (q * page) := by omega
    refine ⟨max a (q * page), hmax.1, by omega, (Nat.div_eq_iff hp).mpr ⟨hmax.2, ?_⟩⟩
    omega

/-- The first of the points `a`, `a + d`, .. that is not below `n`. -/
theorem step_bounds (hd : 0 < d) (hn : a < n) :
    n ≤ a + d * ((n - a) ⌈/⌉ d) ∧ a + d * ((n - a) ⌈/⌉ d) < n + d := by
  have hle : n - a ≤ d * ((n - a) ⌈/⌉ d) := le_smul_ceilDiv hd
  have hpos : (n - a) ⌈/⌉ d ≠ 0 := by
    intro hzero
    rw [hzero, Nat.mul_zero] at hle
    omega
  have hlt : d * ((n - a) ⌈/⌉ d - 1) < n - a := by
    by_contra hge
    have hceil : (n - a) ⌈/⌉ d ≤ (n - a) ⌈/⌉ d - 1 := (ceilDiv_le_iff_le_mul hd).mpr (by omega)
    omega
  rw [Nat.mul_sub_one] at hlt
  omega

/-- Steps no wider than a page come by each page of an interval but its last, which holds the last
address of the interval. -/
theorem meets_step (hd : 0 < d) (hdp : d ≤ page) (h : Meets page q a b) :
    (b - 1) / page = q ∨ ∃ j, a + d * j < b ∧ (a + d * j) / page = q := by
  have hp : 0 < page := Nat.lt_of_lt_of_le hd hdp
  obtain ⟨hab, ha, hb⟩ := (meets_iff hp).mp h
  rcases Nat.lt_or_ge a (q * page) with hlt | hge
  · obtain ⟨hl, hu⟩ := step_bounds hd hlt
    rcases Nat.lt_or_ge (q * page + page) b with hend | hend
    · refine .inr ⟨(q * page - a) ⌈/⌉ d, by omega, (Nat.div_eq_iff hp).mpr ⟨hl, by omega⟩⟩
    · exact .inl ((Nat.div_eq_iff hp).mpr ⟨by omega, by omega⟩)
  · refine .inr ⟨0, by omega, (Nat.div_eq_iff hp).mpr ⟨by omega, by omega⟩⟩

end Paging
