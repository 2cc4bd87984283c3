import Mathlib.Algebra.BigOperators.Group.List.Basic
import Mathlib.Algebra.GroupWithZero.Nat
import Zrt.ShapePlan.Specification

/-! Element counts: what the checked arithmetic computes, and when it does not overflow. -/
namespace Zrt.ShapePlan

variable {request bucket shape : List Int} {requested canonical : Shapes} {a b m n : Nat}
  {r : Nat × Nat} {x y : Int}

/-- The elements of a tensor of one shape. -/
def elements (shape : List Int) : Nat := (shape.map Int.toNat).prod

def totalElements (shapes : Shapes) : Nat := (shapes.map elements).sum

/-- A requested dimension under the planned one. -/
def Within (actual planned : Int) : Prop := 0 < actual ∧ actual ≤ planned

/-- The requested shapes can be padded to the planned ones: as many of them, of the same ranks,
no dimension above the planned one, and both element counts within 128 bits. -/
structure Fits (requested canonical : Shapes) : Prop where
  within : List.Forall₂ (List.Forall₂ Within) requested canonical
  requested_lt : totalElements requested < 2 ^ 128
  canonical_lt : totalElements canonical < 2 ^ 128

theorem u128Checked_iff : u128Checked n = some m ↔ n < 2 ^ 128 ∧ n = m := by
  rw [u128Checked]
  by_cases h : n < 2 ^ 128
  · rw [if_pos h, Option.some.injEq]
    exact ⟨fun he => ⟨h, he⟩, And.right⟩
  · rw [if_neg h]
    exact ⟨fun he => (Option.some_ne_none m he.symm).elim, fun he => absurd he.1 h⟩

theorem elements_cons : elements (x :: shape) = x.toNat * elements shape := by
  rw [elements, List.map_cons, List.prod_cons]
  rfl

theorem totalElements_cons :
    totalElements (shape :: requested) = elements shape + totalElements requested := by
  rw [totalElements, List.map_cons, List.sum_cons]
  rfl

theorem elements_pos (h : ∀ dimension ∈ shape, 0 < dimension) : 0 < elements shape := by
  induction shape with
  | nil => exact Nat.one_pos
  | cons x xs ih =>
    have hx := h x (by simp)
    have hxs := ih fun dimension hd => h dimension (List.mem_cons_of_mem x hd)
    rw [elements_cons]
    exact Nat.mul_pos (by omega) hxs

theorem within_pos (h : List.Forall₂ Within request bucket) :
    ∀ dimension ∈ request, 0 < dimension := by
  induction h with
  | nil => simp
  | cons hxy _ ih => simpa using ⟨hxy.1, ih⟩

theorem within_pos_planned (h : List.Forall₂ Within request bucket) :
    ∀ dimension ∈ bucket, 0 < dimension := by
  induction h with
  | nil => simp
  | cons hxy _ ih => simpa using ⟨Int.lt_of_lt_of_le hxy.1 hxy.2, ih⟩

/-- One pass of the inner loop of `fitting_element_counts`. -/
def growProducts (products : Nat × Nat) (dims : Int × Int) : Option (Nat × Nat) :=
  if dims.1 ≤ 0 ∨ dims.2 < dims.1 then none
  else do
    let requestProduct ← u128Checked (products.1 * dims.1.toNat)
    let bucketProduct ← u128Checked (products.2 * dims.2.toNat)
    some (requestProduct, bucketProduct)

theorem growProducts_iff : growProducts (a, b) (x, y) = some r ↔
    Within x y ∧ a * x.toNat < 2 ^ 128 ∧ b * y.toNat < 2 ^ 128 ∧
      (a * x.toNat, b * y.toNat) = r := by
  unfold growProducts
  split
  · rename_i h
    simp only [Within, reduceCtorEq, false_iff]
    omega
  · rename_i h
    have hwithin : Within x y := by
      unfold Within
      omega
    simp only [Option.bind_eq_bind, Option.bind_eq_some_iff, u128Checked_iff, Option.some.injEq]
    constructor
    · rintro ⟨p, ⟨hp, rfl⟩, q, ⟨hq, rfl⟩, rfl⟩
      exact ⟨hwithin, hp, hq, rfl⟩
    · rintro ⟨-, hp, hq, rfl⟩
      exact ⟨_, ⟨hp, rfl⟩, _, ⟨hq, rfl⟩, rfl⟩

/-- The products never shrink, so the checks on the way pass when the last does. -/
theorem foldlM_growProducts_iff (hlen : request.length = bucket.length) (ha : a < 2 ^ 128)
    (hb : b < 2 ^ 128) : (request.zip bucket).foldlM growProducts (a, b) = some r ↔
      List.Forall₂ Within request bucket ∧ a * elements request < 2 ^ 128 ∧
        b * elements bucket < 2 ^ 128 ∧ (a * elements request, b * elements bucket) = r := by
  induction request generalizing bucket a b with
  | nil =>
    obtain rfl := List.length_eq_zero_iff.mp hlen.symm
    have hone : elements [] = 1 := rfl
    rw [hone, Nat.mul_one, Nat.mul_one]
    exact ⟨fun h => ⟨.nil, ha, hb, Option.some.inj h⟩, fun h => congrArg some h.2.2.2⟩
  | cons x xs ih =>
    obtain _ | ⟨y, ys⟩ := bucket
    · cases hlen
    · have hlen' : xs.length = ys.length := Nat.succ.inj hlen
      rw [List.zip_cons_cons, List.foldlM_cons, Option.bind_eq_bind, Option.bind_eq_some_iff,
        elements_cons, elements_cons, ← Nat.mul_assoc, ← Nat.mul_assoc]
      constructor
      · rintro ⟨p, hp, hrest⟩
        obtain ⟨hxy, hax, hby, rfl⟩ := growProducts_iff.mp hp
        obtain ⟨hwithin, hreq, hbuc, hr⟩ := (ih hlen' hax hby).mp hrest
        exact ⟨.cons hxy hwithin, hreq, hbuc, hr⟩
      · rintro ⟨hwithin, hreq, hbuc, hr⟩
        obtain ⟨hxy, hwithin⟩ := List.forall₂_cons.mp hwithin
        have hax : a * x.toNat < 2 ^ 128 :=
          Nat.lt_of_le_of_lt (Nat.le_mul_of_pos_right _ (elements_pos (within_pos hwithin))) hreq
        have hby : b * y.toNat < 2 ^ 128 :=
          Nat.lt_of_le_of_lt (Nat.le_mul_of_pos_right _ (elements_pos (within_pos_planned hwithin)))
            hbuc
        exact ⟨_, growProducts_iff.mpr ⟨hxy, hax, hby, rfl⟩,
          (ih hlen' hax hby).mpr ⟨hwithin, hreq, hbuc, hr⟩⟩

theorem fittingShapeCounts_iff : fittingShapeCounts request bucket = some r ↔
    List.Forall₂ Within request bucket ∧ elements request < 2 ^ 128 ∧
      elements bucket < 2 ^ 128 ∧ (elements request, elements bucket) = r := by
  by_cases hlen : request.length = bucket.length
  · have h := foldlM_growProducts_iff (a := 1) (b := 1) (r := r) hlen (by decide) (by decide)
    rw [Nat.one_mul, Nat.one_mul] at h
    rw [← h, fittingShapeCounts, if_neg (not_not.mpr hlen)]
    rfl
  · rw [fittingShapeCounts, if_pos hlen]
    constructor
    · intro h
      cases h
    · intro h
      exact absurd h.1.length_eq hlen

/-- One pass of the outer loop of `fitting_element_counts`. -/
def growSums (sums : Nat × Nat) (shapes : List Int × List Int) : Option (Nat × Nat) := do
  let products ← fittingShapeCounts shapes.1 shapes.2
  let requestedSum ← u128Checked (sums.1 + products.1)
  let canonicalSum ← u128Checked (sums.2 + products.2)
  some (requestedSum, canonicalSum)

theorem growSums_iff : growSums (a, b) (request, bucket) = some r ↔
    List.Forall₂ Within request bucket ∧ a + elements request < 2 ^ 128 ∧
      b + elements bucket < 2 ^ 128 ∧ (a + elements request, b + elements bucket) = r := by
  simp only [growSums, Option.bind_eq_bind, Option.bind_eq_some_iff, fittingShapeCounts_iff,
    u128Checked_iff, Option.some.injEq]
  constructor
  · rintro ⟨products, ⟨hwithin, -, -, rfl⟩, p, ⟨hp, rfl⟩, q, ⟨hq, rfl⟩, rfl⟩
    exact ⟨hwithin, hp, hq, rfl⟩
  · rintro ⟨hwithin, hp, hq, rfl⟩
    exact ⟨_, ⟨hwithin, by omega, by omega, rfl⟩, _, ⟨hp, rfl⟩, _, ⟨hq, rfl⟩, rfl⟩

theorem foldlM_growSums_iff (hlen : requested.length = canonical.length) (ha : a < 2 ^ 128)
    (hb : b < 2 ^ 128) : (requested.zip canonical).foldlM growSums (a, b) = some r ↔
      List.Forall₂ (List.Forall₂ Within) requested canonical ∧
        a + totalElements requested < 2 ^ 128 ∧ b + totalElements canonical < 2 ^ 128 ∧
          (a + totalElements requested, b + totalElements canonical) = r := by
  induction requested generalizing canonical a b with
  | nil =>
    obtain rfl := List.length_eq_zero_iff.mp hlen.symm
    have hzero : totalElements [] = 0 := rfl
    rw [hzero, Nat.add_zero, Nat.add_zero]
    exact ⟨fun h => ⟨.nil, ha, hb, Option.some.inj h⟩, fun h => congrArg some h.2.2.2⟩
  | cons request requested ih =>
    obtain _ | ⟨bucket, canonical⟩ := canonical
    · cases hlen
    · have hlen' : requested.length = canonical.length := Nat.succ.inj hlen
      rw [List.zip_cons_cons, List.foldlM_cons, Option.bind_eq_bind, Option.bind_eq_some_iff,
        totalElements_cons, totalElements_cons, ← Nat.add_assoc, ← Nat.add_assoc]
      constructor
      · rintro ⟨p, hp, hrest⟩
        obtain ⟨hshape, har, hbb, rfl⟩ := growSums_iff.mp hp
        obtain ⟨hwithin, hreq, hcan, hr⟩ := (ih hlen' har hbb).mp hrest
        exact ⟨.cons hshape hwithin, hreq, hcan, hr⟩
      · rintro ⟨hwithin, hreq, hcan, hr⟩
        obtain ⟨hshape, hwithin⟩ := List.forall₂_cons.mp hwithin
        have har : a + elements request < 2 ^ 128 := by omega
        have hbb : b + elements bucket < 2 ^ 128 := by omega
        exact ⟨_, growSums_iff.mpr ⟨hshape, har, hbb, rfl⟩,
          (ih hlen' har hbb).mpr ⟨hwithin, hreq, hcan, hr⟩⟩

/-- The search counts a bucket exactly when the request fits it, and counts both in full. -/
theorem fittingElementCounts_iff : fittingElementCounts requested canonical = some r ↔
    Fits requested canonical ∧ (totalElements requested, totalElements canonical) = r := by
  by_cases hlen : requested.length = canonical.length
  · have h := foldlM_growSums_iff (a := 0) (b := 0) (r := r) hlen (by decide) (by decide)
    rw [Nat.zero_add, Nat.zero_add] at h
    rw [fittingElementCounts, if_neg (not_not.mpr hlen)]
    refine Iff.trans h ?_
    constructor
    · rintro ⟨hwithin, hreq, hcan, hr⟩
      exact ⟨⟨hwithin, hreq, hcan⟩, hr⟩
    · rintro ⟨⟨hwithin, hreq, hcan⟩, hr⟩
      exact ⟨hwithin, hreq, hcan, hr⟩
  · rw [fittingElementCounts, if_pos hlen]
    constructor
    · intro h
      cases h
    · intro h
      exact absurd h.1.within.length_eq hlen

theorem fittingElementCounts_none : fittingElementCounts requested canonical = none ↔
    ¬ Fits requested canonical := by
  rw [Option.eq_none_iff_forall_ne_some]
  constructor
  · intro h hf
    exact h _ (fittingElementCounts_iff.mpr ⟨hf, rfl⟩)
  · intro h counts hs
    exact h (fittingElementCounts_iff.mp hs).1

/-- One pass of the inner loop of `requested_element_count`. -/
def growProduct (product : Nat) (dimension : Int) : Option Nat :=
  if 0 < dimension then u128Checked (product * dimension.toNat) else none

theorem foldlM_growProduct (hpos : ∀ dimension ∈ shape, 0 < dimension)
    (ha : a * elements shape < 2 ^ 128) :
    shape.foldlM growProduct a = some (a * elements shape) := by
  induction shape generalizing a with
  | nil =>
    have hone : elements [] = 1 := rfl
    rw [hone, Nat.mul_one]
    rfl
  | cons x xs ih =>
    obtain ⟨hx, hxs⟩ := List.forall_mem_cons.mp hpos
    rw [elements_cons, ← Nat.mul_assoc] at ha ⊢
    have hax : a * x.toNat < 2 ^ 128 :=
      Nat.lt_of_le_of_lt (Nat.le_mul_of_pos_right _ (elements_pos hxs)) ha
    rw [List.foldlM_cons, growProduct, if_pos hx, u128Checked_iff.mpr ⟨hax, rfl⟩]
    exact ih hxs ha

/-- One pass of the outer loop of `requested_element_count`. -/
def growSum (sum : Nat) (shape : List Int) : Option Nat := do
  let product ← shapeElementCount shape
  u128Checked (sum + product)

theorem foldlM_growSum (hpos : ∀ shape ∈ requested, ∀ dimension ∈ shape, 0 < dimension)
    (ha : a + totalElements requested < 2 ^ 128) :
    requested.foldlM growSum a = some (a + totalElements requested) := by
  induction requested generalizing a with
  | nil => rfl
  | cons shape requested ih =>
    obtain ⟨hshape, hrest⟩ := List.forall_mem_cons.mp hpos
    rw [totalElements_cons, ← Nat.add_assoc] at ha ⊢
    have hcount : shapeElementCount shape = some (elements shape) := by
      have h := foldlM_growProduct (a := 1) hshape (by omega)
      rwa [Nat.one_mul] at h
    have hgrow : growSum a shape = some (a + elements shape) := by
      rw [growSum, hcount]
      exact u128Checked_iff.mpr ⟨by omega, rfl⟩
    rw [List.foldlM_cons, hgrow]
    exact ih hrest ha

theorem Fits.requested_pos (h : Fits requested canonical) :
    ∀ shape ∈ requested, ∀ dimension ∈ shape, 0 < dimension := by
  have hwithin := h.within
  clear h
  induction hwithin with
  | nil => simp
  | cons hshape _ ih => simpa using ⟨within_pos hshape, ih⟩

theorem totalElements_pos (hne : requested ≠ [])
    (hpos : ∀ shape ∈ requested, ∀ dimension ∈ shape, 0 < dimension) :
    0 < totalElements requested := by
  obtain _ | ⟨shape, rest⟩ := requested
  · exact absurd rfl hne
  · have := elements_pos (hpos shape (by simp))
    rw [totalElements_cons]
    omega

/-- The second count of a request that fits some bucket is the first. -/
theorem requestedElementCount_eq (h : Fits requested canonical) (hne : requested ≠ []) :
    requestedElementCount requested = some (totalElements requested) := by
  have hfold := foldlM_growSum (a := 0) h.requested_pos (by rw [Nat.zero_add]; exact h.requested_lt)
  rw [Nat.zero_add] at hfold
  have hpos := totalElements_pos hne h.requested_pos
  change (requested.foldlM growSum 0 >>= fun sum => if sum ≠ 0 then some sum else none) = _
  rw [hfold]
  exact if_pos (Nat.ne_of_gt hpos)

theorem elements_le (h : List.Forall₂ Within request bucket) :
    elements request ≤ elements bucket := by
  induction h with
  | nil => exact Nat.le_refl _
  | cons hxy _ ih =>
    rw [elements_cons, elements_cons]
    exact Nat.mul_le_mul (Int.toNat_le_toNat hxy.2) ih

/-- A bucket that fits has no fewer elements than the request, so the waste is never cut off. -/
theorem Fits.totalElements_le (h : Fits requested canonical) :
    totalElements requested ≤ totalElements canonical := by
  have hwithin := h.within
  clear h
  induction hwithin with
  | nil => exact Nat.le_refl _
  | cons hshape _ ih =>
    rw [totalElements_cons, totalElements_cons]
    exact Nat.add_le_add (elements_le hshape) ih

end Zrt.ShapePlan
