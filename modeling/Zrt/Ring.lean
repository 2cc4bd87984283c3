import Mathlib.Data.List.Basic
import Mathlib.Data.Nat.ModEq

/-! A ring of slots as a window of an unbounded stream, and the fixed-width counters into it. -/
namespace Ring

variable {T : Type*} {slots : List (Option T)} {lo w k m n : Nat} {xs : List T} {v : T}

/-- The slots hold positions `lo` up to `lo + slots.length` of `xs`, and nothing past its end. -/
def Window (slots : List (Option T)) (lo : Nat) (xs : List T) : Prop :=
  ∀ n, lo ≤ n → n < lo + slots.length → slots[n % slots.length]? = some xs[n]?

theorem mod_injective {c : Nat} (hm : lo ≤ m) (hmc : m < lo + c) (hn : lo ≤ n)
    (hnc : n < lo + c) (h : m % c = n % c) : m = n := by
  have hsub : ∀ {a b : Nat}, a ≤ b → b < a + c → a % c = b % c → a = b := by
    intro a b hab hb he
    have hz : (b - a) % c = 0 := Nat.sub_mod_eq_zero_of_mod_eq he.symm
    rw [Nat.mod_eq_of_lt (by omega)] at hz
    omega
  rcases Nat.le_total m n with hmn | hmn
  · exact hsub hmn (by omega) h
  · exact (hsub hmn (by omega) h.symm).symm

theorem window_empty (c : Nat) : Window (List.replicate c (none : Option T)) 0 [] := by
  intro n _ hn
  have hc : 0 < c := by simp at hn; omega
  simp [Nat.mod_lt n hc]

/-- The oldest position still in the window is there to be read. -/
theorem window_read (h : Window slots lo xs) (hs : 0 < slots.length) (hlo : lo < xs.length) :
    slots[lo % slots.length]? = some (some xs[lo]) := by
  rw [h lo le_rfl (by omega), List.getElem?_eq_getElem hlo]

/-- While the window is not full the slot of the next position is empty. -/
theorem window_free (h : Window slots lo xs) (hlo : lo ≤ xs.length)
    (hx : xs.length < lo + slots.length) : slots[xs.length % slots.length]? = some none := by
  rw [h xs.length hlo hx, List.getElem?_eq_none le_rfl]

theorem window_write (h : Window slots lo xs) (hlo : lo ≤ xs.length)
    (hx : xs.length < lo + slots.length) :
    Window (slots.set (xs.length % slots.length) (some v)) lo (xs ++ [v]) := by
  have hs : xs.length % slots.length < slots.length := Nat.mod_lt _ (by omega)
  intro n hn hnc
  simp only [List.length_set] at hnc ⊢
  by_cases he : n = xs.length
  · subst he
    simp [List.getElem?_set_self hs]
  · have hne : xs.length % slots.length ≠ n % slots.length := by
      intro hmod
      exact he (mod_injective hn hnc hlo hx hmod.symm)
    rw [List.getElem?_set_ne hne, h n hn hnc]
    rcases Nat.lt_or_gt_of_ne he with hlt | hgt
    · rw [List.getElem?_append_left hlt]
    · rw [List.getElem?_eq_none (by omega), List.getElem?_eq_none (by simp; omega)]

theorem window_take (h : Window slots lo xs) (hs : 0 < slots.length)
    (hx : xs.length ≤ lo + slots.length) :
    Window (slots.set (lo % slots.length) none) (lo + 1) xs := by
  have hl : lo % slots.length < slots.length := Nat.mod_lt _ hs
  intro n hn hnc
  simp only [List.length_set] at hnc ⊢
  by_cases he : n = lo + slots.length
  · subst he
    simp [List.getElem?_set_self hl, List.getElem?_eq_none hx]
  · have hne : lo % slots.length ≠ n % slots.length := by
      intro hmod
      have hlo : lo ≤ lo := le_rfl
      have := mod_injective hlo (by omega) (by omega) (by omega) hmod
      omega
    rw [List.getElem?_set_ne hne, h n (by omega) (by omega)]

/-! Counters of `w` bits that stand for unbounded positions less than `2 ^ w` apart. -/

theorem counter_eq_iff (h : n ≤ m) (hw : m - n < 2 ^ w) :
    BitVec.ofNat w n = BitVec.ofNat w m ↔ n = m := by
  constructor
  · intro he
    have hmod : n % 2 ^ w = m % 2 ^ w := by simpa using congrArg BitVec.toNat he
    exact mod_injective le_rfl (by omega) h (by omega) hmod
  · rintro rfl
    rfl

theorem counter_sub (h : n ≤ m) : BitVec.ofNat w m - BitVec.ofNat w n = BitVec.ofNat w (m - n) := by
  rw [BitVec.sub_eq_iff_eq_add, BitVec.ofNat_add_ofNat, Nat.sub_add_cancel h]

theorem counter_add_one (n : Nat) : BitVec.ofNat w n + 1#w = BitVec.ofNat w (n + 1) := by
  rw [BitVec.ofNat_add_ofNat]

/-- Masking a counter with a power of two selects the slot of its position. -/
theorem counter_and_mask (hk : k < w) :
    (BitVec.ofNat w n &&& BitVec.ofNat w (2 ^ k - 1)).toNat = n % 2 ^ k := by
  have hpow : 2 ^ k < 2 ^ w := Nat.pow_lt_pow_right (by omega) hk
  rw [BitVec.toNat_and, BitVec.toNat_ofNat, BitVec.toNat_ofNat,
    Nat.mod_eq_of_lt (Nat.lt_of_le_of_lt (Nat.sub_le _ 1) hpow), Nat.and_two_pow_sub_one_eq_mod]
  exact Nat.mod_mod_of_dvd n (Nat.pow_dvd_pow 2 hk.le)

end Ring
