import Mathlib.Data.List.Nodup
import Zrt.ShapePlan.Specification

/-! What a built plan promises: distinct canonical inputs, each filed under its hash. -/
namespace Zrt.ShapePlan

variable {plan plan' : ServingShapePlan} {builder : ServingShapePlanBuilder} {left right : Shapes}
  {i n : Nat}
  {entry : Shapes × Shapes × OutputPolicy}

theorem zipEqual_iff (h : left.length = right.length) : zipEqual left right ↔ left = right := by
  induction left generalizing right with
  | nil =>
    cases right with
    | nil => simp [zipEqual]
    | cons _ _ => cases h
  | cons x xs ih =>
    cases right with
    | nil => cases h
    | cons y ys =>
      have := ih (Nat.succ.inj h)
      simp_all [zipEqual]

theorem shapesEqual_iff : shapesEqual left right ↔ left = right := by
  constructor
  · intro h
    simp only [shapesEqual, Bool.decide_and, Bool.decide_eq_true, Bool.and_eq_true,
      decide_eq_true_eq] at h
    exact (zipEqual_iff h.1).mp h.2
  · rintro rfl
    simp [shapesEqual, (zipEqual_iff rfl).mpr]

/-- The state of the builder's loop: bucket `i` has id `i` and is filed under the hash of its
inputs, nothing else is filed, and no two buckets have the same inputs. -/
structure Sealed (plan : ServingShapePlan) : Prop where
  id : ∀ (i : Nat) (c : CanonicalShape), plan.buckets[i]? = some c → c.id = ⟨i⟩
  indexed : ∀ (i : Nat) (c : CanonicalShape), plan.buckets[i]? = some c →
    ⟨i⟩ ∈ plan.index (.fromSlices c.inputShapes)
  filed : ∀ hash, ∀ id ∈ plan.index hash, ∃ c, plan.bucket id = some c ∧
    ShapeHash.fromSlices c.inputShapes = hash
  distinct : (plan.buckets.map CanonicalShape.inputShapes).Nodup

/-- The duplicate search under one hash finds an equal bucket wherever it is. -/
theorem duplicate_iff (h : Sealed plan) (inputShapes : Shapes) :
    ((plan.index (.fromSlices inputShapes)).any fun id =>
      (plan.bucket id).any fun bucket => bucket.inputShapes = inputShapes) = true ↔
    inputShapes ∈ plan.buckets.map CanonicalShape.inputShapes := by
  simp only [List.any_eq_true, Option.any_eq_true, decide_eq_true_eq, List.mem_map]
  constructor
  · rintro ⟨id, -, c, hc, he⟩
    exact ⟨c, List.mem_of_getElem? hc, he⟩
  · rintro ⟨c, hc, rfl⟩
    obtain ⟨i, hi⟩ := List.mem_iff_getElem?.mp hc
    exact ⟨⟨i⟩, h.indexed i c hi, c, hi, rfl⟩

theorem sealed_addBucket (h : Sealed plan) (hn : plan.buckets.length = n)
    (ha : addBucket plan (entry, n) = .ok plan') :
    Sealed plan' ∧ plan'.buckets.length = n + 1 := by
  obtain ⟨inputShapes, outputShapes, outputPolicy⟩ := entry
  simp only [addBucket] at ha
  split at ha
  · cases ha
  · split at ha
    · cases ha
    · rename_i hnew
      rw [duplicate_iff h] at hnew
      obtain rfl := Except.ok.inj ha
      have hlast : ∀ (i : Nat) (c : CanonicalShape),
          (plan.buckets ++ [⟨⟨n⟩, inputShapes, outputShapes, outputPolicy⟩])[i]? = some c →
          plan.buckets[i]? = some c ∨ i = n ∧
            c = ⟨⟨n⟩, inputShapes, outputShapes, outputPolicy⟩ := by
        intro i c hc
        rw [List.getElem?_append, List.getElem?_singleton] at hc
        grind
      refine ⟨⟨?_, ?_, ?_, ?_⟩, by simp [hn]⟩
      · intro i c hc
        rcases hlast i c hc with hc | ⟨rfl, rfl⟩
        · exact h.id i c hc
        · rfl
      · intro i c hc
        simp only [Function.update_apply]
        rcases hlast i c hc with hc | ⟨rfl, rfl⟩
        · have := h.indexed i c hc
          split <;> simp_all
        · simp
      · intro hash id hid
        simp only [Function.update_apply] at hid
        have hold : id ∈ plan.index hash → ∃ c, (plan.buckets ++
            [⟨⟨n⟩, inputShapes, outputShapes, outputPolicy⟩])[id.index]? = some c ∧
            ShapeHash.fromSlices c.inputShapes = hash := by
          intro hid
          obtain ⟨c, hc, hh⟩ := h.filed hash id hid
          exact ⟨c, by rw [List.getElem?_append_left (List.getElem?_eq_some_iff.mp hc).1]; exact hc,
            hh⟩
        split at hid
        · rename_i hh
          rcases List.mem_append.mp hid with hid | hid
          · exact hold (hh ▸ hid)
          · obtain rfl := List.mem_singleton.mp hid
            exact ⟨⟨⟨n⟩, inputShapes, outputShapes, outputPolicy⟩, by
              simp [ServingShapePlan.bucket, ← hn], hh.symm⟩
        · exact hold hid
      · rw [List.map_append, List.nodup_append]
        refine ⟨h.distinct, List.nodup_singleton _, ?_⟩
        intro x hx y hy he
        obtain rfl := List.mem_singleton.mp hy
        exact hnew (he ▸ hx)

theorem sealed_foldlM {entries : List (Shapes × Shapes × OutputPolicy)} (h : Sealed plan)
    (hn : plan.buckets.length = n)
    (hf : (entries.zipIdx n).foldlM addBucket plan = .ok plan') : Sealed plan' := by
  induction entries generalizing plan n with
  | nil =>
    obtain rfl := Except.ok.inj hf
    exact h
  | cons entry entries ih =>
    rw [List.zipIdx_cons, List.foldlM_cons] at hf
    cases ha : addBucket plan (entry, n) with
    | error e => simp [ha, bind, Except.bind] at hf
    | ok plan₁ =>
      obtain ⟨h₁, hn₁⟩ := sealed_addBucket h hn ha
      exact ih h₁ hn₁ (by simpa [ha, bind, Except.bind] using hf)

/-- `build` once its three checks have passed is its loop. -/
theorem build_eq_foldlM (hne : builder.buckets ≠ []) (hs : builder.buckets.length ≤ 2 ^ 32 - 1)
    (hv : builder.fallback.validate = .ok ()) :
    builder.build = builder.buckets.zipIdx.foldlM addBucket
      ⟨[], fun _ => [], builder.fallback⟩ := by
  have hempty : ¬ builder.buckets.isEmpty = true := by simpa using hne
  rw [ServingShapePlanBuilder.build, if_neg hempty, if_neg (Nat.not_lt.mpr hs), hv]

theorem build_checks (h : builder.build = .ok plan) : builder.buckets ≠ [] ∧
    builder.buckets.length ≤ 2 ^ 32 - 1 ∧ builder.fallback.validate = .ok () := by
  simp only [ServingShapePlanBuilder.build] at h
  split at h
  · cases h
  · split at h
    · cases h
    · split at h
      · cases h
      · rename_i hne hs _ hv
        exact ⟨by simpa using hne, Nat.not_lt.mp hs, hv⟩

theorem sealed_build (h : builder.build = .ok plan) : Sealed plan := by
  obtain ⟨hne, hs, hv⟩ := build_checks h
  rw [build_eq_foldlM hne hs hv] at h
  exact sealed_foldlM ⟨by simp, by simp, by simp, by simp⟩ rfl h

theorem SealedPlan.sealed (plan : SealedPlan) : Sealed plan.toServingShapePlan := by
  obtain ⟨builder, h⟩ := plan.built
  exact sealed_build h

/-- A plan has at most one bucket with given inputs. -/
theorem Sealed.inputs_inj (h : Sealed plan) {c c' : CanonicalShape} (hc : c ∈ plan.buckets)
    (hc' : c' ∈ plan.buckets) (he : c.inputShapes = c'.inputShapes) : c = c' :=
  List.inj_on_of_nodup_map h.distinct hc hc' he

end Zrt.ShapePlan
