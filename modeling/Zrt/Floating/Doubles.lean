import Zrt.Floating
import Zrt.Floating.Operations
import Zrt.Floating.Packing

/-! The values of doubles: counts converted to them, their quotients and their comparison, widened
singles, and the decimals they are displayed with. -/
namespace Zrt.Floating

open Float.Model UnpackedFloat Rounding

variable {q r : ℚ} {n : Nat}

theorem binary64_mantissaBits : Format.binary64.mantissaBits = 53 := rfl

theorem binary64_minExponent : Format.binary64.minExponent = -1074 := by decide

theorem binary64_biased (e : Int) : biased .binary64 e = (e + 1075).toNat := by
  have hbias : Format.binary64.exponentBias = 1023 := by decide
  rw [biased, hbias]
  change (e + 1023 + 52).toNat = _
  omega

theorem binary64_small : Format.binary64.minExponent + Format.binary64.mantissaBits ≤ 1 := by
  decide

/-- What a double holds. -/
def HasValue (f : Float) (q : ℚ) : Prop := Denotes .binary64 f.toModel.unpack q

theorem hasValue_lt {f g : Float} (hf : HasValue f q) (hg : HasValue g r) : f < g ↔ q < r := by
  rw [← denotes_lt hf hg]
  change (decide (f.toModel < g.toModel)) = true ↔ _
  rw [decide_eq_true_eq]
  rfl

/-- A number in the normal range of the doubles keeps its value when it is packed. -/
theorem hasValue_pack {u : UnpackedFloat} (hu : Denotes .binary64 u q)
    (hlow : q ≠ 0 → 2 ^ (-1022 : Int) ≤ q) (hhigh : q < 2 ^ (1024 : Int)) :
    HasValue (.ofModel (.pack u)) q := by
  have hsame : UnpackedFloat.unpack .binary64 (UnpackedFloat.pack .binary64 u) = u := by
    cases hu with
    | zero s => cases s <;> rfl
    | @finite m e hm hbits =>
      rw [binary64_mantissaBits] at hbits
      have hpos : (0 : ℚ) < m * 2 ^ e := mul_pos (Nat.cast_pos.mpr hm) (two_zpow_pos e)
      have hlog := log_natCast_mul hm e
      have hlow' := (zpow_le_iff_le_log hpos).mp (hlow hpos.ne')
      rw [← not_le, zpow_le_iff_le_log hpos] at hhigh
      apply unpack_pack_finite hm (by rw [binary64_mantissaBits]; exact hbits)
      · rw [binary64_biased]
        omega
      · rw [binary64_biased]
        have : 2 ^ Format.binary64.exponentBits = 2048 := by decide
        omega
  change Denotes .binary64 (UnpackedFloat.unpack .binary64 (UnpackedFloat.pack .binary64 u)) q
  rw [hsame]
  exact hu

/-- A positive number between two powers of two in range keeps its value. -/
theorem hasValue_pack_of_le {u : UnpackedFloat} {j k : Int} (hu : Denotes .binary64 u q)
    (hj : -1022 ≤ j) (hk : k < 1024) (hlow : q ≠ 0 → 2 ^ j ≤ q) (hhigh : q ≤ 2 ^ k) :
    HasValue (.ofModel (.pack u)) q := by
  refine hasValue_pack hu ?_ ?_
  · intro hq
    exact (zpow_le_zpow_right₀ one_le_two hj).trans (hlow hq)
  · exact lt_of_le_of_lt hhigh (zpow_lt_zpow_right₀ one_lt_two hk)

theorem roundTo_bounds {j k : Int} (hq : 0 ≤ q) (hlow : q ≠ 0 → 2 ^ j ≤ q) (hhigh : q ≤ 2 ^ k) :
    (roundTo 53 q ≠ 0 → 2 ^ j ≤ roundTo 53 q) ∧ roundTo 53 q ≤ 2 ^ k := by
  refine ⟨?_, roundTo_le_zpow (by decide) hq hhigh⟩
  intro hne
  refine zpow_le_roundTo (by decide) (hlow ?_)
  rintro rfl
  exact hne (roundTo_zero 53)

/-- What an operation has rounded to a number in range, packed. -/
theorem hasValue_pack_roundTo {u : UnpackedFloat} {j k : Int}
    (hu : Denotes .binary64 u (roundTo 53 q)) (hj : -1022 ≤ j) (hk : k < 1024) (hq : 0 ≤ q)
    (hlow : q ≠ 0 → 2 ^ j ≤ q) (hhigh : q ≤ 2 ^ k) :
    HasValue (.ofModel (.pack u)) (roundTo 53 q) :=
  hasValue_pack_of_le hu hj hk (roundTo_bounds hq hlow hhigh).1 (roundTo_bounds hq hlow hhigh).2

theorem hasValue_mul {f g : Float} {j k : Int} (hf : HasValue f q) (hg : HasValue g r)
    (hj : -1022 ≤ j) (hk : k < 1024) (hlow : q * r ≠ 0 → 2 ^ j ≤ q * r) (hhigh : q * r ≤ 2 ^ k) :
    HasValue (f * g) (roundTo 53 (q * r)) := by
  have hnonneg : 0 ≤ q * r := mul_nonneg hf.nonneg hg.nonneg
  refine hasValue_pack_roundTo (denotes_mul hf hg ?_) hj hk hnonneg hlow hhigh
  intro hne
  have hlog := (zpow_le_iff_le_log (lt_of_le_of_ne hnonneg hne.symm)).mp (hlow hne)
  rw [binary64_minExponent, binary64_mantissaBits]
  omega

theorem hasValue_div {f g : Float} {j k : Int} (hf : HasValue f q) (hg : HasValue g r)
    (hr : r ≠ 0) (hj : -1021 ≤ j) (hk : k < 1024) (hlow : q / r ≠ 0 → 2 ^ j ≤ q / r)
    (hhigh : q / r ≤ 2 ^ k) : HasValue (f / g) (roundTo 53 (q / r)) := by
  have hnonneg : 0 ≤ q / r := div_nonneg hf.nonneg hg.nonneg
  refine hasValue_pack_roundTo (denotes_div hf hg hr ?_) (by omega) hk hnonneg hlow hhigh
  intro hq
  have hne := div_ne_zero hq hr
  have hlog := (zpow_le_iff_le_log (lt_of_le_of_ne hnonneg hne.symm)).mp (hlow hne)
  rw [binary64_minExponent, binary64_mantissaBits]
  omega

theorem natCast_bounds {k : Nat} (h : n ≤ 2 ^ k) :
    ((n : ℚ) ≠ 0 → (2 : ℚ) ^ (0 : Int) ≤ n) ∧ (n : ℚ) ≤ 2 ^ (k : Int) := by
  refine ⟨?_, by exact_mod_cast h⟩
  intro hn
  rw [zpow_zero]
  exact_mod_cast Nat.pos_of_ne_zero (Nat.cast_ne_zero.mp hn)

theorem hasValue_toFloat (n : UInt64) : HasValue n.toFloat (roundTo 53 n.toNat) := by
  obtain ⟨hlow, hhigh⟩ := natCast_bounds (k := 64) n.toNat_lt.le
  exact hasValue_pack_roundTo (denotes_ofNat binary64_small n.toNat) (by omega) (by omega)
    (Nat.cast_nonneg _) hlow hhigh

theorem hasValue_one : HasValue (Float.ofBits 0x3FF0000000000000) 1 := by
  have hpack : Float.ofBits 0x3FF0000000000000 =
      .ofModel (.pack (.finite .positive (2 ^ 52) (-52) (by decide))) := by decide
  have hdenotes : Denotes .binary64 (.finite .positive (2 ^ 52) (-52) (by decide))
      ((2 ^ 52 : Nat) * 2 ^ (-52 : Int)) := .finite _ (by rw [Nat.log2_two_pow]; rfl)
  have hone : ((2 ^ 52 : Nat) : ℚ) * 2 ^ (-52 : Int) = 1 := by norm_num
  rw [hone] at hdenotes
  rw [hpack]
  exact hasValue_pack_of_le (j := 0) (k := 0) hdenotes (by omega) (by omega) (by simp) (by simp)

theorem ofNat_of_lt (h : n < 2 ^ 53) :
    Float.ofNat n = n.toUInt64.toFloat * Float.ofBits 0x3FF0000000000000 :=
  dif_pos ⟨h, Nat.zero_le 22⟩

theorem ofNat_of_le (h : 2 ^ 53 ≤ n) : Float.ofNat n = .ofModel (.ofScientific n 0) :=
  dif_neg fun hn => Nat.not_lt.mpr h hn.1

/-- A count below `2 ^ 128` converts to the nearest double. -/
theorem hasValue_ofNat (h : n < 2 ^ 128) : HasValue (Float.ofNat n) (roundTo 53 n) := by
  obtain ⟨hlow, hhigh⟩ := natCast_bounds h.le
  rcases Nat.lt_or_ge n (2 ^ 53) with hsmall | hlarge
  · have hself : roundTo 53 (n : ℚ) = n := by
      simpa using roundTo_natCast_mul (R := ℚ) (e := 0) hsmall
    have hnat : n.toUInt64.toNat = n := Nat.mod_eq_of_lt (by omega)
    have hconv := hasValue_toFloat n.toUInt64
    rw [hnat, hself] at hconv
    have hmul := hasValue_mul (j := 0) (k := 128) hconv hasValue_one (by omega) (by omega)
      (by rwa [mul_one]) (by rwa [mul_one])
    rw [ofNat_of_lt hsmall]
    rwa [mul_one] at hmul
  · rw [ofNat_of_le hlarge]
    exact hasValue_pack_roundTo (denotes_ofScientific (by omega) binary64_small) (by omega)
      (by omega) (Nat.cast_nonneg n) hlow hhigh

/-- The quotient of two counts is that of the doubles nearest to them, rounded. -/
theorem hasValue_ofNat_div {a b : Nat} (ha : a < 2 ^ 128) (hb : b < 2 ^ 128) (hpos : 0 < b) :
    HasValue (Float.ofNat a / Float.ofNat b)
      (roundTo 53 (roundTo 53 (a : ℚ) / roundTo 53 (b : ℚ))) := by
  obtain ⟨halow, hahigh⟩ := natCast_bounds ha.le
  obtain ⟨hblow, hbhigh⟩ := natCast_bounds hb.le
  obtain ⟨hqlow, hqhigh⟩ := roundTo_bounds (Nat.cast_nonneg a) halow hahigh
  obtain ⟨hrlow, hrhigh⟩ := roundTo_bounds (Nat.cast_nonneg b) hblow hbhigh
  have hr : 0 < roundTo 53 (b : ℚ) := roundTo_pos (by decide) (by exact_mod_cast hpos)
  have hone : 1 ≤ roundTo 53 (b : ℚ) := by simpa using hrlow hr.ne'
  refine hasValue_div (j := -128) (k := 128) (hasValue_ofNat ha) (hasValue_ofNat hb) hr.ne'
    (by omega) (by omega) ?_ ?_
  · intro hne
    have hq : (1 : ℚ) ≤ roundTo 53 (a : ℚ) := by
      simpa using hqlow fun hz => hne (by rw [hz, zero_div])
    rw [le_div_iff₀ hr]
    calc (2 : ℚ) ^ (-128 : Int) * roundTo 53 (b : ℚ) ≤ 2 ^ (-128 : Int) * 2 ^ (128 : Int) :=
          mul_le_mul_of_nonneg_left hrhigh (two_zpow_pos _).le
      _ = 1 := by rw [← zpow_add₀ two_ne_zero]; rfl
      _ ≤ roundTo 53 (a : ℚ) := hq
  · exact (div_le_self (hasValue_ofNat ha).nonneg hone).trans hqhigh

/-- The number that a finite single is. -/
def f32Value (x : Float32) : ℚ :=
  match x.toModel.unpack with
  | .finite sign mantissa exponent _ => sign.apply mantissa * 2 ^ exponent
  | _ => 0

/-- A single that is not negative is zero, or a mantissa of at most 24 digits times a power of
two. -/
theorem f32_cases {x : Float32} (hf : x.isFinite = true) (h0 : 0 ≤ x) :
    (∃ s, x.toModel.unpack = .zero s) ∨
      ∃ m e hm, x.toModel.unpack = .finite .positive m e hm ∧ m < 2 ^ 24 ∧ -149 ≤ e ∧ e ≤ 105 := by
  have hf' : x.toModel.unpack.isFinite = true := hf
  rw [f32_le_iff, f32_unpack_zero] at h0
  cases hu : x.toModel.unpack with
  | infinity s =>
    rw [hu] at hf'
    cases hf'
  | notANumber =>
    rw [hu] at hf'
    cases hf'
  | zero s => exact .inl ⟨s, rfl⟩
  | finite s m e hm =>
    rw [hu] at h0
    cases s with
    | negative => cases h0
    | positive =>
      have hbias : Format.binary32.exponentBias = 127 := by decide
      obtain ⟨hm24, hlow, hhigh⟩ := unpack_bounds hu
      rw [hbias] at hlow hhigh
      change 1 ≤ e + 127 + 23 at hlow
      change e + 127 + 23 < 2 ^ 8 at hhigh
      exact .inr ⟨m, e, hm, rfl, hm24, by omega, by omega⟩

theorem f32Value_eq {x : Float32} (hf : x.isFinite = true) (h0 : 0 ≤ x) :
    ∃ (m : Nat) (e : Int), m < 2 ^ 24 ∧ f32Value x = m * 2 ^ e := by
  unfold f32Value
  obtain ⟨s, hu⟩ | ⟨m, e, hm, hu, hlt, -, -⟩ := f32_cases hf h0
  · rw [hu]
    exact ⟨0, 0, by decide, by simp⟩
  · rw [hu]
    exact ⟨m, e, hlt, by simp [Sign.apply]⟩

/-- Widening a single does not change its value. -/
theorem hasValue_f64From {x : Float32} (hf : x.isFinite = true) (h0 : 0 ≤ x) :
    HasValue (f64From x) (f32Value x) := by
  unfold f64From f32Value
  obtain ⟨s, hu⟩ | ⟨m, e, hm, hu, hlt, hlow, hhigh⟩ := f32_cases hf h0
  · rw [hu]
    exact hasValue_pack_of_le (j := 0) (k := 0) (.zero s) (by omega) (by omega) (by simp)
      (by simp)
  · have hround := denotes_round .binary64 (e := e) hm
      (by rw [binary64_minExponent, binary64_mantissaBits]; omega)
    have hself : roundTo 53 ((m : ℚ) * 2 ^ e) = m * 2 ^ e := roundTo_natCast_mul (by omega)
    rw [binary64_mantissaBits, hself] at hround
    have hone : (1 : ℚ) ≤ m := by exact_mod_cast hm
    have hmax : (m : ℚ) ≤ 2 ^ (24 : Int) := by exact_mod_cast hlt.le
    rw [hu]
    have hvalue : ((Sign.positive.apply m : Int) : ℚ) * 2 ^ e = m * 2 ^ e := by
      simp [Sign.apply]
    dsimp only
    rw [hvalue]
    refine hasValue_pack_of_le (j := e) (k := 24 + e) hround (by omega) (by omega) ?_ ?_
    · intro _
      exact le_mul_of_one_le_left (two_zpow_pos e).le hone
    · rw [zpow_add₀ two_ne_zero]
      exact mul_le_mul_of_nonneg_right hmax (two_zpow_pos e).le

theorem roundQuotient_eq (n : Nat) {d : Nat} (hd : 0 < d) :
    (roundQuotient n d : Int) = nearestEven ((n : ℚ) / d) := by
  have hfloor : ⌊(n : ℚ) / d⌋ = (n / d : Nat) := Rat.floor_natCast_div_natCast n d
  have hfract : Int.fract ((n : ℚ) / d) = (n % d : Nat) / d :=
    Int.fract_div_natCast_eq_div_natCast_mod
  have hpos : (0 : ℚ) < d := Nat.cast_pos.mpr hd
  have hlow : ((n % d : Nat) : ℚ) / d < 1 / 2 ↔ 2 * (n % d) < d := by
    rw [div_lt_div_iff₀ hpos two_pos]
    norm_cast
    omega
  have htie : ((n % d : Nat) : ℚ) / d = 1 / 2 ↔ 2 * (n % d) = d := by
    rw [div_eq_div_iff hpos.ne' two_ne_zero]
    norm_cast
    omega
  unfold roundQuotient nearestEven
  rw [hfloor, hfract]
  simp only [hlow, htie]
  split <;> split <;> (try split) <;> omega

/-- A number is shown to the nearest thousandth, of two the even one. -/
theorem thousandths_eq (m : Nat) (e : Int) :
    (thousandths m e : Int) = nearestEven (1000 * (m * 2 ^ e) : ℚ) := by
  unfold thousandths
  rw [roundQuotient_eq _ (Nat.two_pow_pos _)]
  congr 1
  have hexp : (2 : ℚ) ^ e = 2 ^ e.toNat / 2 ^ (-e).toNat := by
    rw [← zpow_natCast, ← zpow_natCast, ← zpow_sub₀ two_ne_zero]
    congr 1
    omega
  rw [hexp]
  push_cast
  ring

/-- A sixteenth: two thousandths are as near. -/
example : displayThree (.ofBits 0x3FB0000000000000) = "0.062" := by decide

end Zrt.Floating
