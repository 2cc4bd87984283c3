import Mathlib
import Zrt.Floating.Mantissa

/-! Packing a number into its bits and unpacking it. -/
namespace Zrt.Floating

open Float.Model UnpackedFloat Rounding

variable {spec : Format} {m : Nat} {e : Int}

@[simp] theorem unpackSign_packComponents (sign : Sign) (exponent : BitVec spec.exponentBits)
    (mantissa : BitVec spec.mantissaBitsWithoutImplicit) :
    unpackSign (packComponents spec sign exponent mantissa) = sign.toBitVec := by
  ext i hi
  obtain rfl : i = 0 := by omega
  simp [unpackSign, packComponents, BitVec.getLsbD_append, BitVec.getElem_append]

theorem implicit_append {k : Nat} (hlow : 2 ^ k ≤ m) (hhigh : m < 2 ^ (k + 1)) :
    (1#1 ++ BitVec.ofNat k m).toNat = m := by
  have hmod : m % 2 ^ k = m - 2 ^ k := by
    rw [Nat.mod_eq_sub_mod hlow, Nat.mod_eq_of_lt (by rw [Nat.pow_succ] at hhigh; omega)]
  rw [BitVec.toNat_append, ← Nat.shiftLeft_add_eq_or_of_lt (BitVec.isLt _), BitVec.toNat_ofNat,
    BitVec.toNat_ofNat, hmod, Nat.shiftLeft_eq]
  omega

/-- The exponent field of a number. -/
def biased (spec : Format) (e : Int) : Nat :=
  (e + spec.exponentBias + spec.mantissaBitsWithoutImplicit).toNat

/-- A number with a full mantissa, whose exponent field is neither the least nor the greatest, is
unpacked as it was packed. -/
theorem unpack_pack_finite (hm : 0 < m) (hbits : m.log2 + 1 = spec.mantissaBits)
    (hlow : 0 < biased spec e) (hhigh : biased spec e + 1 < 2 ^ spec.exponentBits) :
    UnpackedFloat.unpack spec (UnpackedFloat.pack spec (.finite .positive m e hm)) =
      .finite .positive m e hm := by
  have hpack : UnpackedFloat.pack spec (.finite .positive m e hm) =
      packComponents spec .positive (BitVec.ofNat _ (biased spec e)) (BitVec.ofNat _ m) := by
    exact (if_neg (Nat.not_le.mpr hhigh)).trans (if_pos hbits)
  have hvec : (BitVec.ofNat spec.exponentBits (biased spec e)).toNat = biased spec e := by
    rw [BitVec.toNat_ofNat, Nat.mod_eq_of_lt (by omega)]
  have hones : ¬ BitVec.ofNat spec.exponentBits (biased spec e) = -1#_ := by
    intro h
    rw [← BitVec.toNat_inj, hvec, BitVec.neg_one_eq_allOnes, BitVec.toNat_allOnes] at h
    omega
  have hzero : ¬ BitVec.ofNat spec.exponentBits (biased spec e) = 0#_ := by
    intro h
    rw [← BitVec.toNat_inj, hvec, BitVec.toNat_zero] at h
    omega
  have hexponent : ((biased spec e : Nat) : Int) -
      (spec.exponentBias + spec.mantissaBitsWithoutImplicit) = e := by
    unfold biased at hlow ⊢
    omega
  have hbounds := mantissa_bounds hm hbits
  have hmantissa := implicit_append (k := spec.mantissaBitsWithoutImplicit) (m := m)
    (by simpa [Format.mantissaBits] using hbounds.1)
    (by simpa [Format.mantissaBits, Nat.add_comm] using hbounds.2)
  rw [hpack]
  simp only [UnpackedFloat.unpack, unpackMantissa_packComponents, unpackExponent_packComponents,
    unpackSign_packComponents, if_neg hones, if_neg hzero, hvec, hexponent, hmantissa]
  rfl

/-- A number unpacked from a format has no more digits than the format, and an exponent in its
range. -/
theorem unpack_bounds {b : BitVec spec.numBits} {s : Sign} {hm : 0 < m}
    (h : UnpackedFloat.unpack spec b = .finite s m e hm) : m < 2 ^ spec.mantissaBits ∧
      1 ≤ e + spec.exponentBias + spec.mantissaBitsWithoutImplicit ∧
      e + spec.exponentBias + spec.mantissaBitsWithoutImplicit < 2 ^ spec.exponentBits := by
  have hexp := (unpackExponent b).isLt
  have htwo : 1 < 2 ^ spec.exponentBits := Nat.one_lt_two_pow (Nat.ne_of_gt spec.he)
  have hbits : 2 ^ spec.mantissaBits = 2 * 2 ^ spec.mantissaBitsWithoutImplicit := by
    rw [Format.mantissaBits, Nat.pow_add, Nat.pow_one]
  have hcast : ((2 ^ spec.exponentBits : Nat) : Int) = 2 ^ spec.exponentBits := by push_cast; rfl
  rw [← hcast]
  simp only [UnpackedFloat.unpack] at h
  split at h
  · split at h <;> cases h
  · split at h
    · rename_i hzero
      split at h
      · cases h
      · have hm' := (unpackMantissa b).isLt
        injection h with _ hmantissa hexponent
        rw [hzero, BitVec.toNat_zero] at hexponent
        omega
    · rename_i hzero
      have hm' := (1#1 ++ unpackMantissa b).isLt
      have hne : (unpackExponent b).toNat ≠ 0 := by
        intro hz
        exact hzero (BitVec.eq_of_toNat_eq (by rw [hz, BitVec.toNat_zero]))
      injection h with _ hmantissa hexponent
      rw [hmantissa, Nat.pow_add, Nat.pow_one] at hm'
      omega

end Zrt.Floating
