import Mathlib.Data.Nat.Bitwise

/-! A machine word with a flag in its top bit and a counter in the bits below it. -/
namespace FlagWord

variable {b m n : Nat} {f g : Bool}

/-- The top bit of a word of `b + 1` bits. -/
def flag (b : Nat) : BitVec (b + 1) := 1#(b + 1) <<< b

/-- The bits below the flag. -/
def mask (b : Nat) : BitVec (b + 1) := flag b - 1#(b + 1)

/-- The word whose flag is `f` and whose counter is `n`. -/
def pack (b : Nat) (f : Bool) (n : Nat) : BitVec (b + 1) :=
  BitVec.ofNat (b + 1) ((if f then 2 ^ b else 0) + n)

theorem toNat_flag (b : Nat) : (flag b).toNat = 2 ^ b := by
  have h : 2 ^ b < 2 ^ (b + 1) := Nat.pow_lt_pow_right (by omega) (by omega)
  have h1 : 1 < 2 ^ (b + 1) := Nat.one_lt_two_pow (by omega)
  rw [flag, BitVec.toNat_shiftLeft, BitVec.toNat_ofNat, Nat.mod_eq_of_lt h1, Nat.shiftLeft_eq,
    one_mul, Nat.mod_eq_of_lt h]

theorem toNat_mask (b : Nat) : (mask b).toNat = 2 ^ b - 1 := by
  have h : 0 < 2 ^ b := Nat.two_pow_pos b
  have h1 : 1 < 2 ^ (b + 1) := Nat.one_lt_two_pow (by omega)
  have hle : 1#(b + 1) ≤ flag b := by
    rw [BitVec.le_def, toNat_flag, BitVec.toNat_ofNat, Nat.mod_eq_of_lt h1]
    exact h
  rw [mask, BitVec.toNat_sub_of_le hle, toNat_flag, BitVec.toNat_ofNat, Nat.mod_eq_of_lt h1]

theorem toNat_pack (hn : n < 2 ^ b) : (pack b f n).toNat = (if f then 2 ^ b else 0) + n := by
  rw [pack, BitVec.toNat_ofNat, Nat.mod_eq_of_lt]
  rw [pow_succ]
  split <;> omega

/-- The counter reads back. -/
theorem pack_and_mask (hn : n < 2 ^ b) : (pack b f n &&& mask b).toNat = n := by
  rw [BitVec.toNat_and, toNat_mask, Nat.and_two_pow_sub_one_eq_mod, toNat_pack hn]
  cases f
  · simpa using Nat.mod_eq_of_lt hn
  · simpa using Nat.mod_eq_of_lt hn

theorem pack_and_mask_eq_zero (hn : n < 2 ^ b) : pack b f n &&& mask b = 0 ↔ n = 0 := by
  rw [← BitVec.toNat_inj, pack_and_mask hn]
  simp

theorem pack_and_mask_eq_one (hn : n < 2 ^ b) : pack b f n &&& mask b = 1 ↔ n = 1 := by
  rw [← BitVec.toNat_inj, pack_and_mask hn]
  simp

/-- The flag reads back. -/
theorem pack_and_flag_eq_zero (hn : n < 2 ^ b) : pack b f n &&& flag b = 0 ↔ f = false := by
  have hbit : (pack b f n).toNat.testBit b = f := by
    rw [toNat_pack hn]
    cases f
    · simpa using Nat.testBit_lt_two_pow hn
    · simp [Nat.testBit_two_pow_add_eq, Nat.testBit_lt_two_pow hn]
  rw [← BitVec.toNat_inj, BitVec.toNat_and, toNat_flag, Nat.and_two_pow, hbit]
  cases f <;> simp

theorem pack_add_one : pack b f n + 1#(b + 1) = pack b f (n + 1) := by
  rw [pack, pack, BitVec.ofNat_add_ofNat, Nat.add_assoc]

theorem pack_sub_one (hn : 0 < n) : pack b f n - 1#(b + 1) = pack b f (n - 1) := by
  rw [BitVec.sub_eq_iff_eq_add, pack_add_one, Nat.sub_add_cancel hn]

theorem pack_or_flag (hn : n < 2 ^ b) : pack b false n ||| flag b = pack b true n := by
  rw [← BitVec.toNat_inj, BitVec.toNat_or, toNat_pack hn, toNat_pack hn, toNat_flag]
  simp [Nat.or_two_pow_eq_add_of_lt hn, Nat.add_comm]

theorem pack_lt_mask (hn : n < 2 ^ b) : pack b false n < mask b ↔ n + 1 < 2 ^ b := by
  rw [BitVec.lt_def, toNat_pack hn, toNat_mask]
  simp
  omega

theorem pack_zero : pack b false 0 = 0 := by simp [pack]

end FlagWord
