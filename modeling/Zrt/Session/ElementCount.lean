import Mathlib.Algebra.Order.Floor.Div
import Mathlib.Algebra.BigOperators.Group.List.Lemmas
import Mathlib.Algebra.BigOperators.Ring.List
import Mathlib.Data.List.TakeWhile
import Mathlib.GroupTheory.GroupAction.Ring
import Zrt.Session.Outputs

/-! Element counts and byte lengths: `checked_element_count` of `type_info.rs`, `tensor_byte_len` of
`lib.rs`, `validate_shape_len` and `validate_packed_bytes_len` of `tensor.rs`. The width of `usize`
is `bits`. -/
namespace Zrt.Outputs

def packedElementBits : ElementType → Option Nat
  | .uint4 | .int4 | .float4E2M1 => some 4
  | .uint2 | .int2 => some 2
  | _ => none

def tensorByteLen (bits : Nat) (elemType : ElementType) (count : Nat) : Except Error Nat :=
  match packedElementBits elemType with
  | some packed =>
    if 2 ^ bits ≤ count * packed ∨ 2 ^ bits ≤ count * packed + 7 then
      .error (.local "tensor byte length overflows usize")
    else .ok ((count * packed + 7) / 8)
  | none =>
    if 2 ^ bits ≤ count * elementSize elemType then
      .error (.local "tensor byte length overflows usize")
    else .ok (count * elementSize elemType)

def validateShapeLen (bits : Nat) (shape : List Int) (len : Nat) : Except Error Unit :=
  (checkedElementCount bits shape).bind fun expected =>
    if expected ≠ len then .error (.local s!"tensor shape expects {expected} elements, got {len}")
    else .ok ()

def validatePackedBytesLen (bits : Nat) (shape : List Int) (elemType : ElementType) (len : Nat) :
    Except Error Unit :=
  if (packedElementBits elemType).isNone then
    .error (.local ("zrt: " ++ elemType.debug ++ " is not a packed sub-byte tensor element type"))
  else (checkedElementCount bits shape).bind fun count =>
    (tensorByteLen bits elemType count).bind fun expected =>
      if expected ≠ len then
        .error (.local
          (s!"packed {elemType.debug} tensor shape expects {expected} bytes " ++
            s!"for {count} elements, got {len}"))
      else .ok ()

/-- Each dimension is representable, and so is the product of those before the first zero. -/
def Representable (bits : Nat) (dims : List Int) : Prop :=
  (∀ dim ∈ dims, dim.toNat < 2 ^ bits) ∧ elementCount (dims.takeWhile (0 < ·)) < 2 ^ bits

/-- The count is the exact product, if that is representable. -/
def Exact (bits : Nat) (dims : List Int) : Prop :=
  ∀ n, checkedElementCount bits dims = .ok n ↔
    (∀ dim ∈ dims, 0 ≤ dim) ∧ n = elementCount dims ∧ n < 2 ^ bits

/-- The byte length is that of the bits rounded up, if it is representable. -/
def ExactLen (bits packed : Nat) (elemType : ElementType) (count : Nat) : Prop :=
  ∀ b, tensorByteLen bits elemType count = .ok b ↔ b = (count * packed) ⌈/⌉ 8 ∧ b < 2 ^ bits

variable {bits n start count packed len : Nat} {dim : Int} {dims dims' : List Int}
  {elemType : ElementType}

theorem elementCount_cons : elementCount (dim :: dims) = dim.toNat * elementCount dims := by
  rw [elementCount, List.map_cons, List.prod_cons, elementCount]

theorem elementCount_pos (h : ∀ dim ∈ dims, 0 < dim) : 0 < elementCount dims := by
  induction dims with
  | nil => exact Nat.one_pos
  | cons dim dims ih =>
    rw [elementCount_cons]
    have hd := h dim (List.mem_cons_self)
    exact Nat.mul_pos (by omega) (ih fun d hd => h d (List.mem_cons_of_mem _ hd))

theorem elementCount_zero (h : 0 ∈ dims) : elementCount dims = 0 := by
  apply List.prod_eq_zero
  exact List.mem_map.mpr ⟨0, h, rfl⟩

/-- A dimension of a shape of positive ones is at most their product. -/
theorem le_elementCount (h : ∀ dim ∈ dims, 0 < dim) (hd : dim ∈ dims) :
    dim.toNat ≤ elementCount dims := by
  apply Nat.le_of_dvd (elementCount_pos h)
  exact List.dvd_prod (List.mem_map_of_mem hd)

theorem countDim_ok_iff : countDim bits start dim = .ok count ↔
    0 ≤ dim ∧ dim.toNat < 2 ^ bits ∧ start * dim.toNat < 2 ^ bits ∧ count = start * dim.toNat := by
  unfold countDim
  by_cases hneg : dim < 0
  · rw [if_pos hneg]
    exact iff_of_false (fun h => by cases h) fun h => absurd h.1 (Int.not_le.mpr hneg)
  rw [if_neg hneg, and_iff_right (Int.not_lt.mp hneg)]
  by_cases hfit : 2 ^ bits ≤ dim.toNat
  · rw [if_pos hfit]
    exact iff_of_false (fun h => by cases h) fun h => absurd h.1 (Nat.not_lt.mpr hfit)
  rw [if_neg hfit, and_iff_right (Nat.not_le.mp hfit)]
  by_cases hover : 2 ^ bits ≤ start * dim.toNat
  · rw [if_pos hover]
    exact iff_of_false (fun h => by cases h) fun h => absurd h.1 (Nat.not_lt.mpr hover)
  · rw [if_neg hover, and_iff_right (Nat.not_le.mp hover)]
    exact ⟨fun h => (Except.ok.inj h).symm, fun h => congrArg _ h.symm⟩

/-- The loop from a running count that is representable. -/
theorem foldlM_countDim_iff (hs : start < 2 ^ bits) :
    dims.foldlM (countDim bits) start = .ok count ↔ (∀ dim ∈ dims, 0 ≤ dim) ∧
      (∀ dim ∈ dims, dim.toNat < 2 ^ bits) ∧
      start * elementCount (dims.takeWhile (0 < ·)) < 2 ^ bits ∧
      count = start * elementCount dims := by
  induction dims generalizing start with
  | nil =>
    rw [List.takeWhile_nil, elementCount, List.map_nil, List.prod_nil, Nat.mul_one]
    simp [hs, eq_comm, pure, Except.pure]
  | cons dim dims ih =>
    rw [List.foldlM_cons, elementCount_cons, List.forall_mem_cons, List.forall_mem_cons]
    constructor
    · intro h
      obtain ⟨next, hn, h⟩ := bind_eq_ok h
      obtain ⟨hd, hlt, hnext, rfl⟩ := countDim_ok_iff.mp hn
      obtain ⟨hnonneg, hall, hfirst, rfl⟩ := (ih hnext).mp h
      refine ⟨⟨hd, hnonneg⟩, ⟨hlt, hall⟩, ?_, Nat.mul_assoc ..⟩
      by_cases hpos : 0 < dim
      · rwa [List.takeWhile_cons_of_pos (by simpa using hpos), elementCount_cons, ← Nat.mul_assoc]
      · rw [List.takeWhile_cons_of_neg (by simpa using hpos)]
        simpa [elementCount] using hs
    · rintro ⟨⟨hd, hnonneg⟩, ⟨hlt, hall⟩, hfirst, rfl⟩
      have hnext : start * dim.toNat < 2 ^ bits ∧
          start * dim.toNat * elementCount (dims.takeWhile (0 < ·)) < 2 ^ bits := by
        by_cases hpos : 0 < dim
        · rw [List.takeWhile_cons_of_pos (by simpa using hpos), elementCount_cons,
            ← Nat.mul_assoc] at hfirst
          have hone : 0 < elementCount (dims.takeWhile (0 < ·)) :=
            elementCount_pos fun d hd => by simpa using List.mem_takeWhile_imp hd
          exact ⟨Nat.lt_of_le_of_lt (Nat.le_mul_of_pos_right _ hone) hfirst, hfirst⟩
        · -- from a zero on, the running count is zero
          obtain rfl : dim = 0 := by omega
          rw [Int.toNat_zero, Nat.mul_zero, Nat.zero_mul, and_self]
          exact Nat.two_pow_pos bits
      have hn : countDim bits start dim = .ok (start * dim.toNat) :=
        countDim_ok_iff.mpr ⟨hd, hlt, hnext.1, rfl⟩
      rw [hn]
      exact (ih hnext.1).mpr ⟨hnonneg, hall, hnext.2, (Nat.mul_assoc ..).symm⟩

theorem checkedElementCount_iff (hw : 0 < bits) : checkedElementCount bits dims = .ok count ↔
    (∀ dim ∈ dims, 0 ≤ dim) ∧ Representable bits dims ∧ count = elementCount dims := by
  rw [checkedElementCount, foldlM_countDim_iff (Nat.one_lt_two_pow hw.ne'),
    Nat.one_mul, Nat.one_mul,
    Representable, and_assoc]

/-- Without a zero, the product says it all. -/
theorem representable_iff (hn : ∀ dim ∈ dims, 0 ≤ dim) (hz : 0 ∉ dims) :
    Representable bits dims ↔ elementCount dims < 2 ^ bits := by
  have hpos : ∀ dim ∈ dims, 0 < dim := by
    intro dim hd
    exact lt_of_le_of_ne (hn dim hd) fun he => hz (he ▸ hd)
  have htake : dims.takeWhile (0 < ·) = dims :=
    List.takeWhile_eq_self_iff.mpr fun d hd => by simpa using hpos d hd
  rw [Representable, htake]
  refine and_iff_right_of_imp ?_
  intro hlt dim hd
  exact Nat.lt_of_le_of_lt (le_elementCount hpos hd) hlt

/-- The count is exact but for shapes with a zero. -/
theorem exact_iff (hw : 0 < bits) : Exact bits dims ↔
    ((∀ dim ∈ dims, 0 ≤ dim) → 0 ∈ dims → Representable bits dims) := by
  unfold Exact
  constructor
  · intro h hn hz
    have hsmall : elementCount dims < 2 ^ bits := by
      rw [elementCount_zero hz]
      exact Nat.two_pow_pos bits
    have hok := (h _).mpr ⟨hn, rfl, hsmall⟩
    exact ((checkedElementCount_iff hw).mp hok).2.1
  · intro h n
    rw [checkedElementCount_iff hw]
    refine and_congr_right fun hn => ?_
    rw [and_comm]
    refine and_congr_right fun he => ?_
    subst he
    by_cases hz : 0 ∈ dims
    · rw [elementCount_zero hz]
      exact iff_of_true (h hn hz) (Nat.two_pow_pos bits)
    · exact representable_iff hn hz

/-- In an order with the zeros behind, all other dimensions count. -/
theorem takeWhile_zeros_last :
    (dims.filter (0 < ·) ++ dims.filter (fun d => !decide (0 < d))).takeWhile (0 < ·) =
      dims.filter (0 < ·) := by
  rw [List.takeWhile_append_of_pos fun d hd => (List.mem_filter.mp hd).2]
  refine List.append_right_eq_self.mpr (List.takeWhile_eq_nil_iff.mpr ?_)
  intro hl h
  have hnot := (List.mem_filter.mp (List.get_mem _ ⟨0, hl⟩)).2
  rw [h] at hnot
  cases hnot

/-- A shape is counted exactly in each order when the dimensions that are not zero can be. -/
theorem exact_perm_iff (hw : 0 < bits) : (∀ dims', dims'.Perm dims → Exact bits dims') ↔
    ((∀ dim ∈ dims, 0 ≤ dim) → 0 ∈ dims → elementCount (dims.filter (0 < ·)) < 2 ^ bits) := by
  constructor
  · intro h hn hz
    have hp : (dims.filter (0 < ·) ++ dims.filter (fun d => !decide (0 < d))).Perm dims :=
      List.filter_append_perm ..
    have hr :=
      ((exact_iff hw).mp (h _ hp)) (fun d hd => hn d (hp.mem_iff.mp hd)) (hp.mem_iff.mpr hz)
    have hlt := hr.2
    rwa [takeWhile_zeros_last] at hlt
  · intro h dims' hp
    rw [exact_iff hw]
    intro hn hz
    have hlt := h (fun d hd => hn d (hp.mem_iff.mpr hd)) (hp.mem_iff.mp hz)
    have hcount : elementCount (dims'.filter (0 < ·)) = elementCount (dims.filter (0 < ·)) :=
      ((hp.filter _).map _).prod_eq
    have hpos : ∀ d ∈ dims'.filter (0 < ·), 0 < d := fun d hd => by
      simpa using (List.mem_filter.mp hd).2
    rw [← hcount] at hlt
    constructor
    · intro d hd
      by_cases hz : 0 < d
      · have hmem : d ∈ dims'.filter (0 < ·) := List.mem_filter.mpr ⟨hd, by simpa using hz⟩
        exact Nat.lt_of_le_of_lt (le_elementCount hpos hmem) hlt
      · have hzero : d.toNat = 0 := by omega
        rw [hzero]
        exact Nat.two_pow_pos bits
    · refine Nat.lt_of_le_of_lt (Nat.le_of_dvd (elementCount_pos hpos) ?_) hlt
      have hsub : (dims'.takeWhile (0 < ·)).Sublist (dims'.filter (0 < ·)) := by
        have hfilter :=
          (List.takeWhile_sublist (l := dims') (fun d => decide (0 < d))).filter (0 < ·)
        rwa [List.filter_eq_self.mpr fun d hd => List.mem_takeWhile_imp
          (p := fun d => decide (0 < d)) hd] at hfilter
      exact (hsub.map _).prod_dvd_prod

theorem packed_le (h : packedElementBits elemType = some packed) : packed ≤ 4 := by
  cases elemType <;> simp_all [packedElementBits] <;> omega

theorem tensorByteLen_iff (h : packedElementBits elemType = some packed) :
    tensorByteLen bits elemType count = .ok len ↔
      count * packed + 7 < 2 ^ bits ∧ len = (count * packed) ⌈/⌉ 8 := by
  rw [tensorByteLen, h, Nat.ceilDiv_eq_add_pred_div]
  dsimp only
  by_cases hover : 2 ^ bits ≤ count * packed ∨ 2 ^ bits ≤ count * packed + 7
  · rw [if_pos hover]
    refine iff_of_false (fun h => by cases h) fun h => ?_
    rcases hover with hover | hover <;> exact absurd h.1 (by omega)
  · rw [if_neg hover, and_iff_right (Nat.not_le.mp fun h => hover (.inr h))]
    exact ⟨fun h => (Except.ok.inj h).symm, fun h => congrArg _ h.symm⟩

/-- A byte length is exact when its bits can be rounded up. -/
theorem exactLen_iff (hw : 0 < bits) (h : packedElementBits elemType = some packed)
    (hc : count < 2 ^ bits) : ExactLen bits packed elemType count ↔
      count * packed + 7 < 2 ^ bits := by
  have htwo : 1 < 2 ^ bits := Nat.one_lt_two_pow hw.ne'
  have hmul : count * packed ≤ count * 4 := Nat.mul_le_mul_left _ (packed_le h)
  have hlen : (count * packed) ⌈/⌉ 8 < 2 ^ bits := by
    rw [Nat.ceilDiv_eq_add_pred_div]
    omega
  constructor
  · intro he
    exact ((tensorByteLen_iff h).mp ((he _).mpr ⟨rfl, hlen⟩)).1
  · intro hlt b
    rw [tensorByteLen_iff h, and_iff_right hlt]
    refine (and_iff_left_of_imp ?_).symm
    rintro rfl
    exact hlen

theorem validateShapeLen_iff : validateShapeLen bits dims len = .ok () ↔
    checkedElementCount bits dims = .ok len := by
  unfold validateShapeLen
  cases checkedElementCount bits dims with
  | error err => simp [Except.bind]
  | ok expected =>
    rw [Except.bind]
    split <;> simp_all

/-- A packed buffer has the bytes of its shape. -/
theorem validatePackedBytesLen_ok (h : validatePackedBytesLen bits dims elemType len = .ok ()) :
    ∃ packed, packedElementBits elemType = some packed ∧
      len = (elementCount dims * packed) ⌈/⌉ 8 := by
  unfold validatePackedBytesLen at h
  split at h
  · cases h
  · rename_i hp
    obtain ⟨packed, hp⟩ := Option.ne_none_iff_exists'.mp (by simpa using hp)
    obtain ⟨count, hc, h⟩ := bind_eq_ok h
    obtain ⟨expected, hb, h⟩ := bind_eq_ok h
    split at h
    · cases h
    · rename_i he
      refine ⟨packed, hp, ?_⟩
      rw [← not_not.mp he, ((tensorByteLen_iff hp).mp hb).2, checkedElementCount_ok hc]

/-- When counts and packed byte lengths are exact. -/
theorem counts_exact (bits : Nat) (hw : 0 < bits) :
    (∀ dims, Exact bits dims ↔
      ((∀ dim ∈ dims, 0 ≤ dim) → 0 ∈ dims → Representable bits dims)) ∧
    (∀ dims, (∀ dims', dims'.Perm dims → Exact bits dims') ↔
      ((∀ dim ∈ dims, 0 ≤ dim) → 0 ∈ dims →
        elementCount (dims.filter (0 < ·)) < 2 ^ bits)) ∧
    ∀ elemType packed count, packedElementBits elemType = some packed → count < 2 ^ bits →
      (ExactLen bits packed elemType count ↔ count * packed + 7 < 2 ^ bits) := by
  refine ⟨fun _ => exact_iff hw, fun _ => exact_perm_iff hw, ?_⟩
  intro elemType packed count h hc
  exact exactLen_iff hw h hc

theorem counts_exact_word :
    (Exact 64 [0, 2 ^ 40, 2 ^ 40] ∧ ¬ Exact 64 [2 ^ 40, 2 ^ 40, 0]) ∧
    ((∀ dims, dims.Perm [2 ^ 20, 0, 2 ^ 20] → Exact 64 dims) ∧
      ¬ ∀ dims, dims.Perm [0, 2 ^ 40, 2 ^ 40] → Exact 64 dims) ∧
    ExactLen 64 4 .uint4 3 ∧ ¬ ExactLen 64 4 .uint4 (2 ^ 62) := by
  obtain ⟨hexact, hperm, hlen⟩ := counts_exact 64 (by decide)
  have hcut : ¬ Representable 64 [2 ^ 40, 2 ^ 40, 0] := by
    rintro ⟨-, hlt⟩
    exact absurd hlt (by decide)
  refine ⟨⟨?_, ?_⟩, ⟨?_, ?_⟩, ?_, ?_⟩
  · exact (hexact _).mpr fun _ _ => ⟨by decide, by decide⟩
  · exact fun h => hcut ((hexact _).mp h (by decide) (by decide))
  · exact (hperm _).mpr fun _ _ => by decide
  · exact fun h => absurd ((hperm _).mp h (by decide) (by decide)) (by decide)
  · exact (hlen .uint4 4 3 rfl (by decide)).mpr (by decide)
  · exact fun h => absurd ((hlen .uint4 4 (2 ^ 62) rfl (by decide)).mp h) (by decide)

theorem counts_exact_fails :
    ¬ Exact 64 [2 ^ 40, 2 ^ 40, 0] ∧ checkedElementCount 64 [0, 2 ^ 40, 2 ^ 40] = .ok 0 ∧
      ¬ ExactLen 64 4 .uint4 (2 ^ 63) := by
  refine ⟨fun h => ?_, rfl, fun h => ?_⟩
  · cases (h 0).mpr (by decide)
  · cases (h (2 ^ 62)).mpr (by decide)

end Zrt.Outputs
