import Mathlib.Data.List.MinMax
import Zrt.Floating.Doubles
import Zrt.ShapePlan.Elements
import Zrt.ShapePlan.Lookup

/-! Padding a request to the tightest bucket that holds it. -/
namespace Zrt.ShapePlan

open Floating Rounding

variable {plan : ServingShapePlan} {builder : ServingShapePlanBuilder} {requested : Shapes}
  {c c' : CanonicalShape} {buckets : List CanonicalShape} {maximum : Float32}

/-- The bucket that padding considers: of those that fit the one with the fewest elements, and of
these the one with the least id. -/
structure Tightest (buckets : List CanonicalShape) (requested : Shapes) (c : CanonicalShape) :
    Prop where
  mem : c ∈ buckets
  fits : Fits requested c.inputShapes
  least : ∀ c' ∈ buckets, Fits requested c'.inputShapes →
    totalElements c.inputShapes ≤ totalElements c'.inputShapes
  first : ∀ c' ∈ buckets, Fits requested c'.inputShapes →
    totalElements c'.inputShapes = totalElements c.inputShapes → c.id.index ≤ c'.id.index

def paddingWaste (requested : Shapes) (c : CanonicalShape) : Nat :=
  totalElements c.inputShapes - totalElements requested

/-- What the search keeps of a bucket. -/
def candidate (requested : Shapes) (c : CanonicalShape) : Nat × Nat × ShapeId :=
  (paddingWaste requested c, totalElements c.inputShapes, c.id)

def fits (requested : Shapes) (c : CanonicalShape) : Bool :=
  (fittingElementCounts requested c.inputShapes).isSome

theorem fits_iff : fits requested c = true ↔ Fits requested c.inputShapes := by
  rw [fits, Option.isSome_iff_ne_none, Ne, fittingElementCounts_none, not_not]

instance (requested : Shapes) (c : CanonicalShape) : Decidable (Fits requested c.inputShapes) :=
  decidable_of_iff _ fits_iff

/-- Against the same request the lesser waste is the lesser element count. -/
theorem betterFit_candidate (best : Option CanonicalShape) (c : CanonicalShape) :
    betterFit requested (best.map (candidate requested)) c =
      (if fits requested c then
        List.argAux (fun b c => totalElements b.inputShapes < totalElements c.inputShapes) best c
      else best).map (candidate requested) := by
  by_cases hf : Fits requested c.inputShapes
  · rw [if_pos (fits_iff.mpr hf), betterFit, fittingElementCounts_iff.mpr ⟨hf, rfl⟩]
    cases best with
    | none => rfl
    | some b =>
      have hiff : (paddingWaste requested c < paddingWaste requested b ∨
          paddingWaste requested c = paddingWaste requested b ∧
            totalElements c.inputShapes < totalElements b.inputShapes) ↔
          totalElements c.inputShapes < totalElements b.inputShapes := by
        unfold paddingWaste
        omega
      simp only [Option.map_some, candidate, List.argAux]
      by_cases hlt : totalElements c.inputShapes < totalElements b.inputShapes
      · rw [if_pos hlt]
        exact if_pos (hiff.mpr hlt)
      · rw [if_neg hlt]
        exact if_neg fun h => hlt (hiff.mp h)
  · rw [if_neg (fun h => hf (fits_iff.mp h)), betterFit, fittingElementCounts_none.mpr hf]

/-- The loop over the buckets finds the first of the fitting ones with the fewest elements. -/
theorem search_eq_argmin (requested : Shapes) (buckets : List CanonicalShape) :
    buckets.foldl (betterFit requested) none =
      ((buckets.filter (fits requested)).argmin fun c => totalElements c.inputShapes).map
        (candidate requested) := by
  rw [List.argmin, List.foldl_filter]
  have hnone : (none : Option CanonicalShape).map (candidate requested) = none := rfl
  rw [← hnone]
  exact List.foldl_hom (Option.map (candidate requested)) betterFit_candidate

theorem Sealed.ids_increase (h : Sealed plan) :
    plan.buckets.Pairwise fun c c' => c.id.index < c'.id.index := by
  rw [List.pairwise_iff_getElem]
  intro i j hi hj hij
  rw [h.id i _ (List.getElem?_eq_getElem hi), h.id j _ (List.getElem?_eq_getElem hj)]
  exact hij

theorem Sealed.id_inj (h : Sealed plan) (hc : c ∈ plan.buckets) (hc' : c' ∈ plan.buckets)
    (he : c.id = c'.id) : c = c' := by
  obtain ⟨i, hi⟩ := List.mem_iff_getElem?.mp hc
  obtain ⟨j, hj⟩ := List.mem_iff_getElem?.mp hc'
  rw [h.id i c hi, h.id j c' hj, ShapeId.mk.injEq] at he
  subst he
  exact Option.some.inj (hi.symm.trans hj)

theorem id_le_of_idxOf_le (hids : buckets.Pairwise fun c c' => c.id.index < c'.id.index)
    (hc : c ∈ buckets) (hc' : c' ∈ buckets) (h : buckets.idxOf c ≤ buckets.idxOf c') :
    c.id.index ≤ c'.id.index := by
  have hlt := List.idxOf_lt_length_of_mem hc
  have hlt' := List.idxOf_lt_length_of_mem hc'
  rcases h.lt_or_eq with h | h
  · have := List.pairwise_iff_getElem.mp hids _ _ hlt hlt' h
    rw [List.getElem_idxOf hlt, List.getElem_idxOf hlt'] at this
    exact this.le
  · rw [(List.idxOf_inj hc).mp h]

theorem tightest_of_argmin (hids : buckets.Pairwise fun c c' => c.id.index < c'.id.index)
    (h : (buckets.filter (fits requested)).argmin (fun c => totalElements c.inputShapes) = some c) :
    Tightest buckets requested c := by
  have hfilter : ∀ c', c' ∈ buckets.filter (fits requested) ↔
      c' ∈ buckets ∧ Fits requested c'.inputShapes := by
    intro c'
    rw [List.mem_filter, fits_iff]
  obtain ⟨hmem, hleast, hfirst⟩ := List.mem_argmin_iff.mp h
  refine ⟨((hfilter c).mp hmem).1, ((hfilter c).mp hmem).2, ?_, ?_⟩
  · intro c' hc' hf
    exact hleast c' ((hfilter c').mpr ⟨hc', hf⟩)
  · intro c' hc' hf he
    have hc'' := (hfilter c').mpr ⟨hc', hf⟩
    exact id_le_of_idxOf_le (hids.filter _) hmem hc'' (hfirst c' hc'' he.le)

/-- The search ends with the tightest bucket, or without one when none fits. -/
theorem search_spec (h : Sealed plan) (requested : Shapes) :
    (plan.buckets.foldl (betterFit requested) none = none ∧
      ∀ c ∈ plan.buckets, ¬ Fits requested c.inputShapes) ∨
    ∃ c, plan.buckets.foldl (betterFit requested) none = some (candidate requested c) ∧
      Tightest plan.buckets requested c := by
  rw [search_eq_argmin]
  cases hmin : (plan.buckets.filter (fits requested)).argmin fun c =>
    totalElements c.inputShapes with
  | none =>
    refine .inl ⟨rfl, ?_⟩
    intro c hc hf
    have := List.filter_eq_nil_iff.mp (List.argmin_eq_none.mp hmin) c hc
    exact this (fits_iff.mpr hf)
  | some c => exact .inr ⟨c, rfl, tightest_of_argmin h.ids_increase hmin⟩

theorem shapeId_eq {i j : ShapeId} (h : i.index = j.index) : i = j := by
  cases i
  cases j
  exact congrArg ShapeId.mk h

theorem Tightest.unique (h : Sealed plan) (hc : Tightest plan.buckets requested c)
    (hc' : Tightest plan.buckets requested c') : c = c' := by
  have htotal := le_antisymm (hc.least c' hc'.mem hc'.fits) (hc'.least c hc.mem hc.fits)
  have hid := le_antisymm (hc.first c' hc'.mem hc'.fits htotal.symm)
    (hc'.first c hc.mem hc.fits htotal)
  exact h.id_inj hc.mem hc'.mem (shapeId_eq hid)

/-- With padding a request that no bucket equals is padded. -/
theorem classify_padToNearest (hp : plan.fallback = .padToNearest maximum)
    (hm : ∀ c ∈ plan.buckets, c.inputShapes ≠ requested) :
    plan.classify requested = plan.classifyPadded requested maximum := by
  rw [ServingShapePlan.classify, find_eq_none hm, hp]

theorem inputs_ne_nil (h : builder.build = .ok plan) (hc : c ∈ plan.buckets) :
    c.inputShapes ≠ [] := by
  have hvalid := (build_iff.mp ⟨plan, h⟩).valid
  rw [(filed_build h).entries, List.mem_map] at hc
  obtain ⟨⟨entry, n⟩, hentry, rfl⟩ := hc
  exact (hvalid entry (List.fst_mem_of_mem_zipIdx hentry)).nonempty

theorem Fits.ne_nil {canonical : Shapes} (h : Fits requested canonical) (hne : canonical ≠ []) :
    requested ≠ [] := by
  rintro rfl
  exact hne (List.forall₂_nil_left_iff.mp h.within)

/-- The waste over the requested elements as `classify_padded` computes it. -/
def actualRatio (requested : Shapes) (c : CanonicalShape) : Float :=
  Float.ofNat (paddingWaste requested c) / Float.ofNat (totalElements requested)

/-- The same with rationals: both counts and then their quotient, rounded to double precision. -/
def paddingRatio (requested : Shapes) (c : CanonicalShape) : ℚ :=
  roundTo 53 (roundTo 53 (paddingWaste requested c : ℚ) / roundTo 53 (totalElements requested : ℚ))

/-- The waste over the requested elements, exactly. -/
def exactRatio (requested : Shapes) (c : CanonicalShape) : ℚ :=
  paddingWaste requested c / totalElements requested

theorem hasValue_actualRatio (hf : Fits requested c.inputShapes) (hne : requested ≠ []) :
    HasValue (actualRatio requested c) (paddingRatio requested c) := by
  have hpos := totalElements_pos hne hf.requested_pos
  have hwaste : paddingWaste requested c < 2 ^ 128 :=
    Nat.lt_of_le_of_lt (Nat.sub_le _ _) hf.canonical_lt
  exact hasValue_ofNat_div hwaste hf.requested_lt hpos

/-- A bucket with more elements does not have the lesser ratio. -/
theorem paddingRatio_mono (h : totalElements c.inputShapes ≤ totalElements c'.inputShapes) :
    paddingRatio requested c ≤ paddingRatio requested c' := by
  have hwaste : (paddingWaste requested c : ℚ) ≤ paddingWaste requested c' := by
    unfold paddingWaste
    exact_mod_cast Nat.sub_le_sub_right h _
  have hround := roundTo_mono (p := 53) (by decide) (Nat.cast_nonneg _) hwaste
  have hwaste0 : 0 ≤ roundTo 53 (paddingWaste requested c : ℚ) := by
    rw [← roundTo_zero (R := ℚ) 53]
    exact roundTo_mono (by decide) (le_refl _) (Nat.cast_nonneg _)
  have htotal0 : 0 ≤ roundTo 53 (totalElements requested : ℚ) := by
    rw [← roundTo_zero (R := ℚ) 53]
    exact roundTo_mono (by decide) (le_refl _) (Nat.cast_nonneg _)
  exact roundTo_mono (by decide) (div_nonneg hwaste0 htotal0)
    (div_le_div_of_nonneg_right hround htotal0)

/-- What `classify_padded` answers once the tightest bucket is known. -/
theorem classifyPadded_tightest (h : builder.build = .ok plan)
    (hc : Tightest plan.buckets requested c) (hf : maximum.isFinite = true) (h0 : 0 ≤ maximum) :
    plan.classifyPadded requested maximum =
      if f32Value maximum < paddingRatio requested c then
        .error (.paddingWasteExceeded (actualRatio requested c) maximum)
      else .ok c.id := by
  have hsealed := (filed_build h).sealed
  have hne := hc.fits.ne_nil (inputs_ne_nil h hc.mem)
  have hlt := hasValue_lt (hasValue_f64From hf h0) (hasValue_actualRatio hc.fits hne)
  obtain ⟨-, hnone⟩ | ⟨c', hsearch, hc'⟩ := search_spec hsealed requested
  · exact absurd hc.fits (hnone c hc.mem)
  · obtain rfl := hc.unique hsealed hc'
    rw [ServingShapePlan.classifyPadded, hsearch, candidate, requestedElementCount_eq hc.fits hne]
    by_cases hexceeds : f32Value maximum < paddingRatio requested c
    · rw [if_pos hexceeds]
      exact if_pos (hlt.mpr hexceeds)
    · rw [if_neg hexceeds]
      exact if_neg fun hgt => hexceeds (hlt.mp hgt)

/-- Below these bounds the rounding does not change the comparison with the limit. -/
theorem paddingRatio_le_iff (hpos : 0 < totalElements requested)
    (hsmall : totalElements requested ≤ 2 ^ 29) (hwaste : paddingWaste requested c < 2 ^ 53)
    (hf : maximum.isFinite = true) (h0 : 0 ≤ maximum) :
    paddingRatio requested c ≤ f32Value maximum ↔ exactRatio requested c ≤ f32Value maximum := by
  obtain ⟨m, e, hm, hvalue⟩ := f32Value_eq hf h0
  have hround : ∀ n : Nat, n < 2 ^ 53 → roundTo 53 (n : ℚ) = n := by
    intro n hn
    simpa using roundTo_natCast_mul (R := ℚ) (e := 0) hn
  rw [hvalue, paddingRatio, exactRatio, hround _ hwaste, hround _ (by omega)]
  exact roundTo_div_le_iff (by decide) (by decide) hpos hwaste (by omega) hm

theorem limit_of_build (h : builder.build = .ok plan)
    (hp : plan.fallback = .padToNearest maximum) : maximum.isFinite = true ∧ 0 ≤ maximum :=
  (build_iff.mp ⟨plan, h⟩).ratio maximum ((filed_build h).fallback ▸ hp)

theorem classify_tightest (h : builder.build = .ok plan)
    (hp : plan.fallback = .padToNearest maximum)
    (hm : ∀ c ∈ plan.buckets, c.inputShapes ≠ requested)
    (hc : Tightest plan.buckets requested c) : plan.classify requested =
      if f32Value maximum < paddingRatio requested c then
        .error (.paddingWasteExceeded (actualRatio requested c) maximum)
      else .ok c.id := by
  obtain ⟨hf, h0⟩ := limit_of_build h hp
  rw [classify_padToNearest hp hm, classifyPadded_tightest h hc hf h0]

theorem classify_noFittingShape_iff (h : builder.build = .ok plan)
    (hp : plan.fallback = .padToNearest maximum)
    (hm : ∀ c ∈ plan.buckets, c.inputShapes ≠ requested) :
    plan.classify requested = .error .noFittingShape ↔
      ∀ c ∈ plan.buckets, ¬ Fits requested c.inputShapes := by
  obtain ⟨hsearch, hnone⟩ | ⟨c, -, hc⟩ := search_spec (filed_build h).sealed requested
  · refine iff_of_true ?_ hnone
    rw [classify_padToNearest hp hm, ServingShapePlan.classifyPadded, hsearch]
  · refine iff_of_false ?_ fun hnone => hnone c hc.mem hc.fits
    rw [classify_tightest h hp hm hc]
    split <;> simp

theorem tightest_singleton (h : Fits requested c.inputShapes) : Tightest [c] requested c := by
  refine ⟨List.mem_singleton_self c, h, ?_, ?_⟩
  · intro c' hc' _
    rw [List.mem_singleton.mp hc']
  · intro c' hc' _ _
    rw [List.mem_singleton.mp hc']

/-- A plan of one bucket, of one input with one dimension. -/
def oneBucket (planned : Int) (maximum : Float32) : ServingShapePlanBuilder :=
  ⟨[([[planned]], [[planned]], .hostBuffer)], .padToNearest maximum⟩

theorem oneBucket_build (planned : Int) (maximum : Float32) (hpos : 0 < planned)
    (hf : maximum.isFinite = true) (h0 : 0 ≤ maximum) :
    ∃ plan, (oneBucket planned maximum).build = .ok plan ∧
      plan.buckets = [⟨⟨0⟩, [[planned]], [[planned]], .hostBuffer⟩] ∧
      plan.fallback = .padToNearest maximum := by
  have hvalid : ValidShapes [[planned]] [[planned]] := ⟨by simp, by simpa, by simpa⟩
  have hbuildable : Buildable (oneBucket planned maximum) := by
    refine ⟨by simp [oneBucket], by simp [oneBucket], by simpa [oneBucket], by simp [oneBucket], ?_⟩
    rintro ratio ⟨⟩
    exact ⟨hf, h0⟩
  obtain ⟨plan, hplan⟩ := build_iff.mpr hbuildable
  exact ⟨plan, hplan, (filed_build hplan).entries, (filed_build hplan).fallback⟩

theorem fits_dimension {actual planned : Int} (h : Within actual planned)
    (hlt : planned < 2 ^ 128) : Fits [[actual]] [[planned]] := by
  have hle := h.2
  refine ⟨.cons (.cons h .nil) .nil, ?_, ?_⟩
  · change actual.toNat * 1 + 0 < 2 ^ 128
    omega
  · change planned.toNat * 1 + 0 < 2 ^ 128
    omega

/-- A request that no bucket equals is refused for want of room exactly when no bucket fits it.
Otherwise one bucket is the tightest; no subtraction is cut off and nothing is divided by zero.
Its id is the answer exactly when its ratio, as double precision rounds it, is within the limit,
and the waste is refused exactly when the ratio of every fitting bucket is above the limit. The
rounding plays no part for requests of up to `2 ^ 29` elements and waste below `2 ^ 53`. -/
theorem padding_picks_tightest (h : builder.build = .ok plan)
    (hp : plan.fallback = .padToNearest maximum)
    (hm : ∀ c ∈ plan.buckets, c.inputShapes ≠ requested) :
    (plan.classify requested = .error .noFittingShape ↔
      ∀ c ∈ plan.buckets, ¬ Fits requested c.inputShapes) ∧
    ((∃ c ∈ plan.buckets, Fits requested c.inputShapes) →
      ∃ c, Tightest plan.buckets requested c) ∧
    ∀ c, Tightest plan.buckets requested c →
      0 < totalElements requested ∧
      totalElements requested ≤ totalElements c.inputShapes ∧
      HasValue (actualRatio requested c) (paddingRatio requested c) ∧
      (plan.classify requested = .ok c.id ↔ paddingRatio requested c ≤ f32Value maximum) ∧
      (plan.classify requested =
          .error (.paddingWasteExceeded (actualRatio requested c) maximum) ↔
        ∀ c' ∈ plan.buckets, Fits requested c'.inputShapes →
          f32Value maximum < paddingRatio requested c') ∧
      (totalElements requested ≤ 2 ^ 29 → paddingWaste requested c < 2 ^ 53 →
        (paddingRatio requested c ≤ f32Value maximum ↔
          exactRatio requested c ≤ f32Value maximum)) := by
  refine ⟨classify_noFittingShape_iff h hp hm, ?_, ?_⟩
  · rintro ⟨c, hc, hfits⟩
    obtain ⟨-, hnone⟩ | ⟨c', -, hc'⟩ := search_spec (filed_build h).sealed requested
    · exact absurd hfits (hnone c hc)
    · exact ⟨c', hc'⟩
  · intro c hc
    obtain ⟨hf, h0⟩ := limit_of_build h hp
    have hne := hc.fits.ne_nil (inputs_ne_nil h hc.mem)
    have hpos := totalElements_pos hne hc.fits.requested_pos
    have hclassify := classify_tightest h hp hm hc
    refine ⟨hpos, hc.fits.totalElements_le, hasValue_actualRatio hc.fits hne, ?_, ?_, ?_⟩
    · rw [hclassify, ← not_lt]
      split
      · rename_i hlt
        simp [hlt]
      · rename_i hnot
        simp [hnot]
    · rw [hclassify]
      constructor
      · intro he c' hc' hfits
        split at he
        · rename_i hlt
          exact lt_of_lt_of_le hlt (paddingRatio_mono (hc.least c' hc' hfits))
        · cases he
      · intro hall
        rw [if_pos (hall c hc.mem hc.fits)]
    · intro hsmall hwaste
      exact paddingRatio_le_iff hpos hsmall hwaste hf h0

/-- Four buckets of one matrix each: the second and the third tie, and the last is too small. -/
def tiedBuckets (maximum : Float32) : ServingShapePlanBuilder :=
  ⟨[([[4, 4]], [[1]], .hostBuffer), ([[3, 4]], [[1]], .hostBuffer),
    ([[4, 3]], [[1]], .hostBuffer), ([[2, 4]], [[1]], .hostBuffer)], .padToNearest maximum⟩

theorem tiedBuckets_build (maximum : Float32) (hf : maximum.isFinite = true) (h0 : 0 ≤ maximum) :
    ∃ plan, (tiedBuckets maximum).build = .ok plan ∧
      plan.buckets = [⟨⟨0⟩, [[4, 4]], [[1]], .hostBuffer⟩, ⟨⟨1⟩, [[3, 4]], [[1]], .hostBuffer⟩,
        ⟨⟨2⟩, [[4, 3]], [[1]], .hostBuffer⟩, ⟨⟨3⟩, [[2, 4]], [[1]], .hostBuffer⟩] ∧
      plan.fallback = .padToNearest maximum := by
  have hvalid : ∀ entry ∈ (tiedBuckets maximum).buckets, ValidShapes entry.1 entry.2.1 := by
    simp only [tiedBuckets, List.forall_mem_cons]
    exact ⟨⟨by simp, by simp, by simp⟩, ⟨by simp, by simp, by simp⟩, ⟨by simp, by simp, by simp⟩,
      ⟨by simp, by simp, by simp⟩, List.forall_mem_nil _⟩
  have hbuildable : Buildable (tiedBuckets maximum) := by
    refine ⟨by simp [tiedBuckets], by simp [tiedBuckets], hvalid, by simp [tiedBuckets], ?_⟩
    rintro ratio ⟨⟩
    exact ⟨hf, h0⟩
  obtain ⟨plan, hplan⟩ := build_iff.mpr hbuildable
  exact ⟨plan, hplan, (filed_build hplan).entries, (filed_build hplan).fallback⟩

/-- Of the two that tie the first is picked; a second request finds no room. -/
theorem padding_picks_tightest_bucket : ∃ plan, (tiedBuckets 1).build = .ok plan ∧
    plan.classify [[3, 3]] = .ok ⟨1⟩ ∧ plan.classify [[5, 1]] = .error .noFittingShape := by
  obtain ⟨plan, h, hbuckets, hp⟩ := tiedBuckets_build 1 (by decide) (by decide)
  have hm : ∀ c ∈ plan.buckets, c.inputShapes ≠ [[3, 3]] := by
    rw [hbuckets]
    simp
  have hm' : ∀ c ∈ plan.buckets, c.inputShapes ≠ [[5, 1]] := by
    rw [hbuckets]
    simp
  have hc : Tightest plan.buckets [[3, 3]] ⟨⟨1⟩, [[3, 4]], [[1]], .hostBuffer⟩ := by
    rw [hbuckets]
    exact ⟨by decide, fits_iff.mp (by decide), by decide, by decide⟩
  have hratio : paddingRatio [[3, 3]] ⟨⟨1⟩, [[3, 4]], [[1]], .hostBuffer⟩ ≤ f32Value 1 := by
    decide +kernel
  have hnone : ∀ c ∈ plan.buckets, ¬ Fits [[5, 1]] c.inputShapes := by
    rw [hbuckets]
    decide
  exact ⟨plan, h, ((padding_picks_tightest h hp hm).2.2 _ hc).2.2.2.1.mpr hratio,
    (padding_picks_tightest h hp hm').1.mpr hnone⟩

/-- The exact ratio does not decide: against a limit of 1 a waste of `2 ^ 60 + 1` elements over
`2 ^ 60` requested passes, since the nearest double of the waste is `2 ^ 60`. -/
theorem padding_picks_tightest_fails : ¬ ∀ (builder : ServingShapePlanBuilder)
    (plan : ServingShapePlan) (maximum : Float32) (requested : Shapes),
    builder.build = .ok plan → plan.fallback = .padToNearest maximum →
    (∀ c ∈ plan.buckets, c.inputShapes ≠ requested) →
    ∀ c, Tightest plan.buckets requested c →
      (plan.classify requested = .ok c.id ↔ exactRatio requested c ≤ f32Value maximum) := by
  intro hall
  obtain ⟨plan, h, hbuckets, hp⟩ := oneBucket_build (2 ^ 61 + 1) 1 (by decide) (by decide)
    (by decide)
  have hm : ∀ c ∈ plan.buckets, c.inputShapes ≠ [[2 ^ 60]] := by
    rw [hbuckets]
    simp
  have hc : Tightest plan.buckets [[2 ^ 60]]
      ⟨⟨0⟩, [[2 ^ 61 + 1]], [[2 ^ 61 + 1]], .hostBuffer⟩ :=
    hbuckets ▸ tightest_singleton (fits_dimension ⟨by decide, by decide⟩ (by decide))
  have hwithin : ¬ f32Value 1 < paddingRatio [[2 ^ 60]]
      ⟨⟨0⟩, [[2 ^ 61 + 1]], [[2 ^ 61 + 1]], .hostBuffer⟩ := by decide +kernel
  have hexceeds : ¬ exactRatio [[2 ^ 60]]
      ⟨⟨0⟩, [[2 ^ 61 + 1]], [[2 ^ 61 + 1]], .hostBuffer⟩ ≤ f32Value 1 := by decide +kernel
  have hclassify := classify_tightest h hp hm hc
  rw [if_neg hwithin] at hclassify
  exact hexceeds ((hall _ plan 1 _ h hp hm _ hc).mp hclassify)

end Zrt.ShapePlan
