import Mathlib.Algebra.Order.Floor.Ring
import Mathlib.Data.Int.Log
import Mathlib.Tactic.Linarith
import Mathlib.Tactic.Positivity
import Mathlib.Tactic.Ring

/-! Rounding to the nearest integer and to a number of binary digits, ties to even. -/
namespace Rounding

variable {R : Type*} [Field R] [LinearOrder R] [IsStrictOrderedRing R] [FloorRing R]
  {x y : R} {n e k : ℤ} {p : ℕ}

/-- The integer nearest to `x`, the even one when two are. -/
def nearestEven (x : R) : ℤ :=
  if Int.fract x < 1 / 2 then ⌊x⌋
  else if Int.fract x = 1 / 2 then ⌊x⌋ + ⌊x⌋ % 2
  else ⌊x⌋ + 1

omit [IsStrictOrderedRing R] in
theorem floor_le_nearestEven (x : R) : ⌊x⌋ ≤ nearestEven x := by
  unfold nearestEven
  split
  · exact Int.le_refl _
  · split <;> omega

omit [IsStrictOrderedRing R] in
theorem nearestEven_le_floor_add_one (x : R) : nearestEven x ≤ ⌊x⌋ + 1 := by
  unfold nearestEven
  split
  · omega
  · split <;> omega

@[simp] theorem nearestEven_intCast (n : ℤ) : nearestEven (n : R) = n := by
  have h : Int.fract (n : R) < 1 / 2 := by
    rw [Int.fract_intCast]
    positivity
  rw [nearestEven, if_pos h, Int.floor_intCast]

theorem nearestEven_mono (h : x ≤ y) : nearestEven x ≤ nearestEven y := by
  have hx := nearestEven_le_floor_add_one x
  have hy := floor_le_nearestEven y
  rcases (Int.floor_mono h).lt_or_eq with hlt | heq
  · omega
  · -- within one unit the distances from the floor are ordered as the numbers are
    have hfract : Int.fract x ≤ Int.fract y := by
      rw [← Int.self_sub_floor, ← Int.self_sub_floor, heq]
      exact sub_le_sub_right h _
    rcases lt_trichotomy (Int.fract x) (1 / 2) with hlt | hhalf | hgt
    · rw [nearestEven, if_pos hlt]
      omega
    · have hnot : ¬ Int.fract y < 1 / 2 := not_lt.mpr (hhalf ▸ hfract)
      rw [nearestEven, nearestEven, if_neg (not_lt.mpr hhalf.ge), if_pos hhalf, if_neg hnot, heq]
      split <;> omega
    · have hgt' := lt_of_lt_of_le hgt hfract
      rw [nearestEven, nearestEven, if_neg (not_lt.mpr hgt.le), if_neg hgt.ne',
        if_neg (not_lt.mpr hgt'.le), if_neg hgt'.ne', heq]

theorem le_nearestEven (h : (n : R) ≤ x) : n ≤ nearestEven x := by
  have := nearestEven_mono h
  rwa [nearestEven_intCast] at this

theorem nearestEven_le (h : x ≤ (n : R)) : nearestEven x ≤ n := by
  have := nearestEven_mono h
  rwa [nearestEven_intCast] at this

theorem lt_nearestEven (h : (n : R) + 1 / 2 < x) : n < nearestEven x := by
  have hn : n ≤ ⌊x⌋ := by
    rw [Int.le_floor]
    linarith
  rcases hn.lt_or_eq with hlt | heq
  · have := floor_le_nearestEven x
    omega
  · have hfract : 1 / 2 < Int.fract x := by
      rw [← Int.self_sub_floor, ← heq]
      linarith
    rw [nearestEven, if_neg (not_lt.mpr hfract.le), if_neg hfract.ne']
    omega

/-- The exponent of the last of `p` digits of `x`. -/
def unitExponent (p : ℕ) (x : R) : ℤ := Int.log 2 x + 1 - p

/-- `x` rounded to `p` binary digits. -/
def roundTo (p : ℕ) (x : R) : R :=
  nearestEven (x / 2 ^ unitExponent p x) * 2 ^ unitExponent p x

theorem two_zpow_pos (k : ℤ) : (0 : R) < 2 ^ k :=
  zpow_pos two_pos k

theorem two_ne : (2 : R) ≠ 0 := by
  have hpos := two_zpow_pos (R := R) 1
  rw [zpow_one] at hpos
  exact hpos.ne'

theorem log_le (h : 0 < x) : (2 : R) ^ Int.log 2 x ≤ x := by
  exact_mod_cast Int.zpow_log_le_self (b := 2) (by norm_num) h

theorem lt_log_succ (x : R) : x < 2 ^ (Int.log 2 x + 1) := by
  exact_mod_cast Int.lt_zpow_succ_log_self (b := 2) (by norm_num) x

theorem zpow_le_iff_le_log (h : 0 < x) : (2 : R) ^ k ≤ x ↔ k ≤ Int.log 2 x := by
  exact_mod_cast Int.zpow_le_iff_le_log (b := 2) (by norm_num) h

theorem log_mul_zpow (h : 0 < x) (k : ℤ) : Int.log 2 (x * 2 ^ k) = Int.log 2 x + k := by
  have hk := mul_pos h (two_zpow_pos k)
  refine Int.le_antisymm ?_ ?_
  · have hlt := (mul_lt_mul_iff_left₀ (two_zpow_pos k)).mpr (lt_log_succ x)
    rw [← zpow_add₀ two_ne_zero, ← not_le, zpow_le_iff_le_log hk] at hlt
    omega
  · rw [← zpow_le_iff_le_log hk, zpow_add₀ two_ne_zero]
    exact mul_le_mul_of_nonneg_right (log_le h) (two_zpow_pos k).le

@[simp] theorem roundTo_zero (p : ℕ) : roundTo p (0 : R) = 0 := by
  have h : nearestEven (0 : R) = 0 := by exact_mod_cast nearestEven_intCast (R := R) 0
  rw [roundTo, zero_div, h, Int.cast_zero, zero_mul]

/-- What has no digit below the last place is not changed. -/
theorem roundTo_eq_self (hu : unitExponent p x ≤ e) (hx : x = n * 2 ^ e) : roundTo p x = x := by
  have hdiv : x / 2 ^ unitExponent p x = ((n * 2 ^ (e - unitExponent p x).toNat : ℤ) : R) := by
    rw [div_eq_iff (two_zpow_pos _).ne']
    push_cast
    rw [← zpow_natCast, Int.toNat_of_nonneg (by omega), mul_assoc,
      ← zpow_add₀ (two_ne_zero), Int.sub_add_cancel]
    exact hx
  rw [roundTo, hdiv, nearestEven_intCast, ← hdiv, div_mul_cancel₀ _ (two_zpow_pos _).ne']

/-- A number of at most `p` digits is not changed. -/
theorem roundTo_natCast_mul {m : ℕ} (h : m < 2 ^ p) :
    roundTo p ((m : R) * 2 ^ e) = m * 2 ^ e := by
  rcases Nat.eq_zero_or_pos m with rfl | hm
  · rw [Nat.cast_zero, zero_mul, roundTo_zero]
  · have hx : (0 : R) < m * 2 ^ e := mul_pos (Nat.cast_pos.mpr hm) (two_zpow_pos e)
    have hlog : Int.log 2 ((m : R) * 2 ^ e) < p + e := by
      rw [← not_le, ← zpow_le_iff_le_log hx, not_le, zpow_add₀ two_ne_zero, zpow_natCast]
      exact mul_lt_mul_of_pos_right (by exact_mod_cast h) (two_zpow_pos e)
    refine roundTo_eq_self (n := m) (e := e) ?_ (by push_cast; rfl)
    unfold unitExponent
    omega

theorem two_zpow_log (hp : 0 < p) (x : R) :
    (2 : R) ^ Int.log 2 x = ((2 ^ (p - 1) : ℤ) : R) * 2 ^ unitExponent p x := by
  push_cast
  rw [← zpow_natCast, ← zpow_add₀ two_ne]
  congr 1
  unfold unitExponent
  omega

theorem two_zpow_log_succ (p : ℕ) (x : R) :
    (2 : R) ^ (Int.log 2 x + 1) = ((2 ^ p : ℤ) : R) * 2 ^ unitExponent p x := by
  push_cast
  rw [← zpow_natCast, ← zpow_add₀ two_ne]
  congr 1
  unfold unitExponent
  omega

/-- The rounded digits are `p` digits, or the first number of one digit more. -/
theorem two_pow_le_digits (hp : 0 < p) (h : 0 < x) :
    2 ^ (p - 1) ≤ nearestEven (x / 2 ^ unitExponent p x) := by
  apply le_nearestEven
  rw [le_div_iff₀ (two_zpow_pos _), ← two_zpow_log hp]
  exact log_le h

theorem digits_le_two_pow (p : ℕ) (x : R) :
    nearestEven (x / 2 ^ unitExponent p x) ≤ 2 ^ p := by
  apply nearestEven_le
  rw [div_le_iff₀ (two_zpow_pos _), ← two_zpow_log_succ]
  exact (lt_log_succ x).le

/-- Rounding does not cross a power of two downwards. -/
theorem zpow_le_roundTo (hp : 0 < p) (h : (2 : R) ^ k ≤ x) : 2 ^ k ≤ roundTo p x := by
  have hx : 0 < x := lt_of_lt_of_le (two_zpow_pos k) h
  have hk : k ≤ Int.log 2 x := (zpow_le_iff_le_log hx).mp h
  calc (2 : R) ^ k ≤ 2 ^ Int.log 2 x := zpow_le_zpow_right₀ one_le_two hk
    _ = ((2 ^ (p - 1) : ℤ) : R) * 2 ^ unitExponent p x := two_zpow_log hp x
    _ ≤ roundTo p x := by
      apply mul_le_mul_of_nonneg_right _ (two_zpow_pos _).le
      exact_mod_cast two_pow_le_digits hp hx

theorem roundTo_le_log_succ (p : ℕ) (x : R) : roundTo p x ≤ 2 ^ (Int.log 2 x + 1) := by
  rw [two_zpow_log_succ p]
  apply mul_le_mul_of_nonneg_right _ (two_zpow_pos _).le
  exact_mod_cast digits_le_two_pow p x

theorem roundTo_pos (hp : 0 < p) (h : 0 < x) : 0 < roundTo p x :=
  lt_of_lt_of_le (two_zpow_pos _) (zpow_le_roundTo hp (log_le h))

theorem roundTo_mono (hp : 0 < p) (hx : 0 ≤ x) (h : x ≤ y) : roundTo p x ≤ roundTo p y := by
  rcases hx.eq_or_lt with rfl | hx
  · rcases h.eq_or_lt with rfl | hy
    · exact le_refl _
    · rw [roundTo_zero]
      exact (roundTo_pos hp hy).le
  · have hy := lt_of_lt_of_le hx h
    rcases (Int.log_mono_right hx h : Int.log 2 x ≤ Int.log 2 y).lt_or_eq with hlt | heq
    · calc roundTo p x ≤ 2 ^ (Int.log 2 x + 1) := roundTo_le_log_succ p x
        _ ≤ 2 ^ Int.log 2 y := zpow_le_zpow_right₀ one_le_two hlt
        _ ≤ roundTo p y := zpow_le_roundTo hp (log_le hy)
    · have hunit : unitExponent p x = unitExponent p y := by rw [unitExponent, unitExponent, heq]
      rw [roundTo, roundTo, hunit]
      apply mul_le_mul_of_nonneg_right _ (two_zpow_pos _).le
      have := nearestEven_mono (div_le_div_of_nonneg_right h (two_zpow_pos (unitExponent p y)).le)
      exact_mod_cast this

theorem roundTo_le_zpow (hp : 0 < p) (hx : 0 ≤ x) (h : x ≤ 2 ^ k) : roundTo p x ≤ 2 ^ k := by
  have hone : (1 : ℕ) < 2 ^ p := Nat.one_lt_two_pow hp.ne'
  have hself := roundTo_natCast_mul (R := R) (e := k) hone
  rw [Nat.cast_one, one_mul] at hself
  rw [← hself]
  exact roundTo_mono hp hx h

/-- A number more than half a unit above a multiple of the unit stays above it. -/
theorem lt_roundTo (h : (n : R) * 2 ^ unitExponent p x + 2 ^ (unitExponent p x - 1) < x) :
    (n : R) * 2 ^ unitExponent p x < roundTo p x := by
  have hunit := two_zpow_pos (R := R) (unitExponent p x)
  have hhalf : (n : R) + 1 / 2 < x / 2 ^ unitExponent p x := by
    rw [lt_div_iff₀ hunit, add_mul]
    rw [zpow_sub_one₀ two_ne_zero] at h
    linarith
  exact mul_lt_mul_of_pos_right (by exact_mod_cast lt_nearestEven hhalf) hunit

/-- Two multiples of `2 ^ e` that differ, differ by as much. -/
theorem add_zpow_le {a b : ℕ} (h : (a : R) * 2 ^ e < b * 2 ^ e) :
    (a : R) * 2 ^ e + 2 ^ e ≤ b * 2 ^ e := by
  have hab : a + 1 ≤ b := by exact_mod_cast lt_of_mul_lt_mul_right h (two_zpow_pos e).le
  have hcast : (a : R) + 1 ≤ b := by exact_mod_cast hab
  calc (a : R) * 2 ^ e + 2 ^ e = (a + 1) * 2 ^ e := by ring
    _ ≤ b * 2 ^ e := mul_le_mul_of_nonneg_right hcast (two_zpow_pos e).le

theorem natCast_mul_zpow (a : ℕ) (h : e ≤ k) :
    (a : R) * 2 ^ k = ((a * 2 ^ (k - e).toNat : ℕ) : R) * 2 ^ e := by
  push_cast
  rw [← zpow_natCast, Int.toNat_of_nonneg (by omega), mul_assoc, ← zpow_add₀ two_ne,
    Int.sub_add_cancel]

section Quotient

variable {w r a s : ℕ}

theorem exponent_lt (ha : a < 2 ^ s) (h : (2 : R) ^ k ≤ a * 2 ^ e) : k < s + e := by
  have hlt : (2 : R) ^ k < 2 ^ ((s : ℤ) + e) := by
    rw [zpow_add₀ two_ne_zero, zpow_natCast]
    exact lt_of_le_of_lt h (mul_lt_mul_of_pos_right (by exact_mod_cast ha) (two_zpow_pos e))
  exact (zpow_lt_zpow_iff_right₀ one_lt_two).mp hlt

/-- The least distance between a quotient of two integers and a number of `s` digits below it,
when the numerator has `p` digits and the denominator at most `p - s`. -/
theorem quotient_gap (hr : 0 < r) (hw : w < 2 ^ p) (hrs : r * 2 ^ s ≤ 2 ^ p) (ha : a < 2 ^ s)
    (hlow : (2 : R) ^ k ≤ a * 2 ^ e) (hlt : (a : R) * 2 ^ e < w / r) :
    (a : R) * 2 ^ e + 2 ^ (k - p) < w / r := by
  have hr' : (0 : R) < r := Nat.cast_pos.mpr hr
  have hwr : (2 : R) ^ k * r < 2 ^ p := by
    have hk := (le_div_iff₀ hr').mp (hlow.trans hlt.le)
    exact lt_of_le_of_lt hk (by exact_mod_cast hw)
  have he := exponent_lt ha hlow
  -- both products are multiples of `2 ^ c`, and a step of `2 ^ c` is worth more than the gap
  obtain ⟨c, hce, hc0, hstep⟩ : ∃ c : ℤ, c ≤ e ∧ c ≤ 0 ∧ (2 : R) ^ (k - p) * r < 2 ^ c := by
    rcases Int.le_total 0 (k - s + 1) with hpos | hneg
    · refine ⟨0, by omega, Int.le_refl 0, ?_⟩
      rw [zpow_zero, zpow_sub₀ two_ne_zero, zpow_natCast, div_mul_eq_mul_div,
        div_lt_one (by positivity)]
      exact hwr
    · refine ⟨k - s + 1, by omega, hneg, ?_⟩
      have hrs' : (r : R) * 2 ^ s ≤ 2 ^ p := by exact_mod_cast hrs
      have hle : (2 : R) ^ (k - p) * r ≤ 2 ^ (k - s) := by
        rw [zpow_sub₀ two_ne_zero, zpow_sub₀ two_ne_zero, zpow_natCast, zpow_natCast,
          div_mul_eq_mul_div, div_le_div_iff₀ (by positivity) (by positivity), mul_assoc]
        exact mul_le_mul_of_nonneg_left hrs' (two_zpow_pos k).le
      exact lt_of_le_of_lt hle (zpow_lt_zpow_right₀ one_lt_two (by omega))
  have hnum := natCast_mul_zpow (R := R) w hc0
  have hden := natCast_mul_zpow (R := R) (r * a) hce
  rw [zpow_zero, mul_one] at hnum
  push_cast at hden
  rw [lt_div_iff₀ hr'] at hlt ⊢
  have hgap := add_zpow_le (R := R) (e := c) (a := r * a * 2 ^ (e - c).toNat)
    (b := w * 2 ^ (0 - c).toNat) (by push_cast at hnum ⊢; rw [← hnum, ← hden]; linarith)
  push_cast at hnum hgap
  rw [← hnum, ← hden] at hgap
  linarith

/-- Against a number of `s` digits a rounded quotient compares as the quotient does, when the
numerator has `p` digits and the denominator at most `p - s`. -/
theorem roundTo_div_le_iff (hp : 0 < p) (hs : s ≤ p) (hr : 0 < r) (hw : w < 2 ^ p)
    (hrs : r * 2 ^ s ≤ 2 ^ p) (ha : a < 2 ^ s) :
    roundTo p ((w : R) / r) ≤ a * 2 ^ e ↔ (w : R) / r ≤ a * 2 ^ e := by
  have hpow : 2 ^ s ≤ 2 ^ p := Nat.pow_le_pow_right two_pos hs
  constructor
  · intro h
    by_contra hlt
    rw [not_le] at hlt
    have hnonneg : (0 : R) ≤ a * 2 ^ e := mul_nonneg (Nat.cast_nonneg a) (two_zpow_pos e).le
    have hpos : (0 : R) < w / r := lt_of_le_of_lt hnonneg hlt
    rcases lt_or_ge ((a : R) * 2 ^ e) (2 ^ Int.log 2 ((w : R) / r)) with hbelow | habove
    · exact absurd (hbelow.trans_le (zpow_le_roundTo hp (log_le hpos))) (not_lt.mpr h)
    · have hgap := quotient_gap hr hw hrs ha habove hlt
      have he := exponent_lt ha habove
      have hunit : unitExponent p ((w : R) / r) ≤ e := by
        unfold unitExponent
        omega
      have hexp : unitExponent p ((w : R) / r) - 1 = Int.log 2 ((w : R) / r) - p := by
        unfold unitExponent
        omega
      have hmul := natCast_mul_zpow (R := R) a hunit
      rw [← Int.cast_natCast (_ * _)] at hmul
      rw [hmul] at hgap h
      rw [← hexp] at hgap
      exact absurd (lt_roundTo hgap) (not_lt.mpr h)
  · intro h
    have hself := roundTo_natCast_mul (R := R) (e := e) (lt_of_lt_of_le ha hpow)
    rw [← hself]
    exact roundTo_mono hp (div_nonneg (Nat.cast_nonneg w) (Nat.cast_nonneg r)) h

end Quotient

end Rounding
