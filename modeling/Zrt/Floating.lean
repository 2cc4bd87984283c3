import Mathlib.Algebra.Group.Nat.Defs
import Mathlib.Logic.Function.Basic

/-! The widening of a single to a double, how a double is displayed, and the comparisons of singles,
read off the unpacked numbers. -/
namespace Zrt.Floating

open Float.Model

/-- `f64::from`: the double of the same value. -/
def f64From (x : Float32) : Float :=
  .ofModel (.pack (match x.toModel.unpack with
    | .finite sign mantissa exponent _ => UnpackedFloat.round .binary64 sign mantissa exponent
    | unpacked => unpacked))

/-- The quotient to the nearest number, of two the even one. -/
def roundQuotient (n d : Nat) : Nat :=
  if 2 * (n % d) < d ∨ 2 * (n % d) = d ∧ n / d % 2 = 0 then n / d else n / d + 1

def thousandths (mantissa : Nat) (exponent : Int) : Nat :=
  roundQuotient (1000 * mantissa * 2 ^ exponent.toNat) (2 ^ (-exponent).toNat)

def displaySign : UnpackedFloat.Sign → String
  | .positive => ""
  | .negative => "-"

/-- `{:.3}`. -/
def displayThree (x : Float) : String :=
  match x.toModel.unpack with
  | .notANumber => "NaN"
  | .infinity sign => displaySign sign ++ "inf"
  | .zero sign => displaySign sign ++ "0.000"
  | .finite sign mantissa exponent _ =>
    let n := thousandths mantissa exponent
    let digits := toString (n % 1000)
    displaySign sign ++ toString (n / 1000) ++ "." ++ "".pushn '0' (3 - digits.length) ++ digits

theorem f32_lt_iff (a b : Float32) : a < b ↔ a.toModel.unpack.lt b.toModel.unpack = true := by
  change (decide (a.toModel < b.toModel)) = true ↔ _
  rw [decide_eq_true_eq]
  rfl

theorem f32_le_iff (a b : Float32) : a ≤ b ↔ a.toModel.unpack.le b.toModel.unpack = true := by
  change (decide (a.toModel ≤ b.toModel)) = true ↔ _
  rw [decide_eq_true_eq]
  rfl

theorem f32_unpack_zero : (0 : Float32).toModel.unpack = .zero .positive := by
  have h : (0 : Float32).toModel.toBits = 0 := by decide
  rw [Float32.Model.unpack, h]
  rfl

/-- A number that is not NaN is compared with zero one way or the other. -/
theorem not_neg_iff {ratio : Float32} (h : ratio.isFinite = true) : ¬ ratio < 0 ↔ 0 ≤ ratio := by
  have hf : ratio.toModel.unpack.isFinite = true := h
  rw [f32_lt_iff, f32_le_iff, f32_unpack_zero]
  generalize ratio.toModel.unpack = u at hf
  cases u with
  | infinity sign => cases hf
  | notANumber => cases hf
  | zero sign => exact iff_of_true (fun h => Bool.false_ne_true h) rfl
  | finite sign mantissa exponent hm =>
    cases sign with
    | positive => exact iff_of_true (fun h => Bool.false_ne_true h) rfl
    | negative => exact iff_of_false (fun h => h rfl) fun h => Bool.false_ne_true h

end Zrt.Floating
