import Zrt.ShapePlan.Safety

/-! Which builders build, and that classifying in the built plan is looking the request up in
the list of its buckets. -/
namespace Zrt.ShapePlan

variable {plan plan' : ServingShapePlan} {builder : ServingShapePlanBuilder} {c : CanonicalShape}
  {entry : Shapes × Shapes × OutputPolicy} {entries : List (Shapes × Shapes × OutputPolicy)}
  {inputs outputs requested : Shapes} {n : Nat}

/-- The bucket that the builder makes of its entry at `n`. -/
def canonicalShape (n : Nat) (entry : Shapes × Shapes × OutputPolicy) : CanonicalShape :=
  ⟨⟨n⟩, entry.1, entry.2.1, entry.2.2⟩

/-- At least one input, and positive dimensions only. -/
structure ValidShapes (inputs outputs : Shapes) : Prop where
  nonempty : inputs ≠ []
  inputs_pos : ∀ shape ∈ inputs, ∀ dimension ∈ shape, 0 < dimension
  outputs_pos : ∀ shape ∈ outputs, ∀ dimension ∈ shape, 0 < dimension

/-- What `build` asks of its entries and of the policy. -/
structure Buildable (builder : ServingShapePlanBuilder) : Prop where
  nonempty : builder.buckets ≠ []
  short : builder.buckets.length ≤ 2 ^ 32 - 1
  valid : ∀ entry ∈ builder.buckets, ValidShapes entry.1 entry.2.1
  distinct : (builder.buckets.map fun entry => entry.1).Nodup
  ratio : ∀ ratio, builder.fallback = .padToNearest ratio → ratio.isFinite = true ∧ 0 ≤ ratio

theorem find_nonPositive_iff (shapes : Shapes) :
    shapes.flatten.find? (· ≤ 0) = none ↔
      ∀ shape ∈ shapes, ∀ dimension ∈ shape, 0 < dimension := by
  simp only [List.find?_eq_none, List.mem_flatten, decide_eq_true_eq, Int.not_le]
  constructor
  · intro h shape hs dimension hd
    exact h dimension ⟨shape, hs, hd⟩
  · rintro h dimension ⟨shape, hs, hd⟩
    exact h shape hs dimension hd

theorem validateShapes_iff : validateShapes inputs outputs = .ok () ↔
    ValidShapes inputs outputs := by
  have hi := find_nonPositive_iff inputs
  have ho := find_nonPositive_iff outputs
  constructor
  · intro h
    simp only [validateShapes] at h
    split at h
    · cases h
    · rename_i hne
      split at h
      · cases h
      · rename_i hin
        split at h
        · cases h
        · rename_i hout
          exact ⟨by simpa using hne, hi.mp hin, ho.mp hout⟩
  · rintro ⟨hne, hin, hout⟩
    simp [validateShapes, hne, hi.mpr hin, ho.mpr hout]

/-- An entry is added when it is valid and its inputs are new, and this is the plan then. -/
theorem addBucket_iff (h : Sealed plan) : addBucket plan (entry, n) = .ok plan' ↔
    ValidShapes entry.1 entry.2.1 ∧
    entry.1 ∉ plan.buckets.map CanonicalShape.inputShapes ∧
    plan' = { plan with
      buckets := plan.buckets ++ [canonicalShape n entry]
      index := Function.update plan.index (.fromSlices entry.1)
        (plan.index (.fromSlices entry.1) ++ [⟨n⟩]) } := by
  obtain ⟨inputs, outputs, policy⟩ := entry
  rw [← validateShapes_iff, ← duplicate_iff h]
  cases hv : validateShapes inputs outputs with
  | error e => simp [addBucket, hv]
  | ok _ =>
    simp only [addBucket, hv, canonicalShape]
    split
    · rename_i hd
      simp [hd]
    · rename_i hd
      rw [Except.ok.injEq, eq_comm]
      exact ⟨fun he => ⟨trivial, hd, he⟩, fun he => he.2.2⟩

/-- The loop of `build` succeeds when every entry is valid and no two inputs are equal. -/
theorem foldlM_addBucket_iff (h : Sealed plan) (hn : plan.buckets.length = n) :
    (∃ plan', (entries.zipIdx n).foldlM addBucket plan = .ok plan') ↔
      (∀ entry ∈ entries, ValidShapes entry.1 entry.2.1) ∧
      (entries.map fun entry => entry.1).Nodup ∧
      ∀ entry ∈ entries, entry.1 ∉ plan.buckets.map CanonicalShape.inputShapes := by
  induction entries generalizing plan n with
  | nil => simp [pure, Except.pure]
  | cons entry entries ih =>
    rw [List.zipIdx_cons, List.foldlM_cons]
    cases ha : addBucket plan (entry, n) with
    | error e =>
      constructor
      · rintro ⟨plan', hp⟩
        cases hp
      · rintro ⟨hvalid, -, hnew⟩
        have := (addBucket_iff (n := n) h).mpr ⟨hvalid entry (by simp), hnew entry (by simp), rfl⟩
        rw [ha] at this
        cases this
    | ok plan₁ =>
      obtain ⟨h₁, hn₁⟩ := sealed_addBucket h hn ha
      obtain ⟨hvalid, hnew, rfl⟩ := (addBucket_iff h).mp ha
      simp only [bind, Except.bind]
      rw [ih h₁ hn₁]
      simp only [List.map_append, List.map_cons, List.map_nil, List.mem_append,
        List.mem_singleton, List.nodup_cons, List.forall_mem_cons, List.mem_map]
      grind [canonicalShape]

theorem validate_iff {policy : FallbackPolicy} : policy.validate = .ok () ↔
    ∀ ratio, policy = .padToNearest ratio → ratio.isFinite = true ∧ 0 ≤ ratio := by
  cases policy with
  | strict => simp [FallbackPolicy.validate]
  | fallbackSession => simp [FallbackPolicy.validate]
  | padToNearest ratio =>
    simp only [FallbackPolicy.validate, FallbackPolicy.padToNearest.injEq, forall_eq']
    by_cases hf : ratio.isFinite = true
    · rw [← Floating.not_neg_iff hf]
      simp [hf]
    · simp [hf]

theorem sealed_empty (fallback : FallbackPolicy) : Sealed ⟨[], fun _ => [], fallback⟩ :=
  ⟨by simp, by simp, by simp, by simp⟩

theorem build_iff : (∃ plan, builder.build = .ok plan) ↔ Buildable builder := by
  constructor
  · rintro ⟨plan, h⟩
    obtain ⟨hne, hs, hv⟩ := build_checks h
    rw [build_eq_foldlM hne hs hv] at h
    obtain ⟨hvalid, hdistinct, -⟩ := (foldlM_addBucket_iff (sealed_empty _) rfl).mp ⟨plan, h⟩
    exact ⟨hne, hs, hvalid, hdistinct, validate_iff.mp hv⟩
  · rintro ⟨hne, hs, hvalid, hdistinct, hratio⟩
    rw [build_eq_foldlM hne hs (validate_iff.mpr hratio)]
    exact (foldlM_addBucket_iff (sealed_empty _) rfl).mpr ⟨hvalid, hdistinct, by simp⟩

/-- What the loop of `build` has made of the entries it has passed: a bucket for each, the policy
as it was, and an index that lists no id twice under one hash. -/
structure Filed (entries : List (Shapes × Shapes × OutputPolicy)) (fallback : FallbackPolicy)
    (plan : ServingShapePlan) : Prop where
  sealed : Sealed plan
  entries : plan.buckets = entries.zipIdx.map fun entry => canonicalShape entry.2 entry.1
  fallback : plan.fallback = fallback
  once : ∀ hash, (plan.index hash).Nodup

/-- The next id is not in the index yet. -/
theorem Sealed.fresh (h : Sealed plan) (hash : ShapeHash) :
    (⟨plan.buckets.length⟩ : ShapeId) ∉ plan.index hash := by
  intro hm
  obtain ⟨c, hc, -⟩ := h.filed hash _ hm
  have hlt := (List.getElem?_eq_some_iff.mp hc).1
  exact Nat.lt_irrefl _ hlt

theorem filed_addBucket {fallback : FallbackPolicy} (h : Filed entries fallback plan)
    (ha : addBucket plan (entry, entries.length) = .ok plan') :
    Filed (entries ++ [entry]) fallback plan' := by
  have hn : plan.buckets.length = entries.length := by simp [h.entries]
  have hsealed := (sealed_addBucket h.sealed hn ha).1
  obtain ⟨-, -, rfl⟩ := (addBucket_iff h.sealed).mp ha
  refine ⟨hsealed, ?_, h.fallback, ?_⟩
  · simp [h.entries, List.zipIdx_append]
  · intro hash
    simp only [Function.update_apply]
    split
    · rw [List.nodup_append]
      refine ⟨h.once _, List.nodup_singleton _, ?_⟩
      intro x hx y hy he
      obtain rfl := List.mem_singleton.mp hy
      exact h.sealed.fresh _ (hn ▸ he ▸ hx)
    · exact h.once hash

theorem filed_foldlM {fallback : FallbackPolicy} {rest : List (Shapes × Shapes × OutputPolicy)}
    (h : Filed entries fallback plan)
    (hf : (rest.zipIdx entries.length).foldlM addBucket plan = .ok plan') :
    Filed (entries ++ rest) fallback plan' := by
  induction rest generalizing plan entries with
  | nil =>
    obtain rfl := Except.ok.inj hf
    simpa using h
  | cons entry rest ih =>
    rw [List.zipIdx_cons, List.foldlM_cons] at hf
    cases ha : addBucket plan (entry, entries.length) with
    | error e => simp [ha, bind, Except.bind] at hf
    | ok plan₁ =>
      have h₁ := filed_addBucket h ha
      have := ih h₁ (by simpa [ha, bind, Except.bind] using hf)
      simpa using this

theorem filed_build (h : builder.build = .ok plan) :
    Filed builder.buckets builder.fallback plan := by
  obtain ⟨hne, hs, hv⟩ := build_checks h
  rw [build_eq_foldlM hne hs hv] at h
  have hempty : Filed [] builder.fallback ⟨[], fun _ => [], builder.fallback⟩ :=
    ⟨sealed_empty _, rfl, rfl, by simp⟩
  exact filed_foldlM hempty h

/-- A bucket's id is filed once, and under one hash. -/
theorem Filed.count {fallback : FallbackPolicy} (h : Filed entries fallback plan) {i : Nat}
    (hc : plan.buckets[i]? = some c) (hash : ShapeHash) :
    (plan.index hash).count ⟨i⟩ = if hash = .fromSlices c.inputShapes then 1 else 0 := by
  split
  · rename_i he
    subst he
    exact List.count_eq_one_of_mem (h.once _) (h.sealed.indexed i c hc)
  · rename_i hne
    rw [List.count_eq_zero]
    intro hm
    obtain ⟨c', hc', rfl⟩ := h.sealed.filed hash _ hm
    obtain rfl := Option.some.inj (hc.symm.trans hc')
    exact hne rfl

/-- A candidate that the search takes is a bucket with the shapes asked for. -/
theorem candidate_of_find {candidates : List ShapeId} {id : ShapeId}
    (h : (candidates.find? fun id =>
      (plan.bucket id).any fun bucket => shapesEqual bucket.inputShapes requested) = some id) :
    ∃ c, plan.bucket id = some c ∧ c.inputShapes = requested := by
  have hany := List.find?_some h
  simp only [Option.any_eq_true] at hany
  obtain ⟨c, hc, he⟩ := hany
  exact ⟨c, hc, shapesEqual_iff.mp he⟩

/-- The candidates of a request that a bucket equals hold that bucket, and no other candidate
passes the full comparison, whichever shapes share the hash. -/
theorem classify_exact (h : Sealed plan) (hc : c ∈ plan.buckets) :
    plan.classify c.inputShapes = .ok c.id := by
  obtain ⟨i, hi⟩ := List.mem_iff_getElem?.mp hc
  have hid := h.id i c hi
  simp only [ServingShapePlan.classify]
  cases hf : (plan.index (.fromSlices c.inputShapes)).find? fun id =>
      (plan.bucket id).any fun bucket => shapesEqual bucket.inputShapes c.inputShapes with
  | none =>
    have := List.find?_eq_none.mp hf ⟨i⟩ (h.indexed i c hi)
    simp [ServingShapePlan.bucket, hi, shapesEqual_iff] at this
  | some id =>
    obtain ⟨c', hc', he⟩ := candidate_of_find hf
    have heq := h.inputs_inj (List.mem_of_getElem? hc') hc he
    rw [← heq, h.id _ _ hc']

/-- No candidate passes the full comparison when no bucket equals the request. -/
theorem find_eq_none (hm : ∀ c ∈ plan.buckets, c.inputShapes ≠ requested)
    (candidates : List ShapeId) : (candidates.find? fun id =>
      (plan.bucket id).any fun bucket => shapesEqual bucket.inputShapes requested) = none := by
  cases hfind : candidates.find? fun id =>
      (plan.bucket id).any fun bucket => shapesEqual bucket.inputShapes requested with
  | none => rfl
  | some id =>
    obtain ⟨c, hc, he⟩ := candidate_of_find hfind
    exact absurd he (hm c (List.mem_of_getElem? hc))

/-- Without padding a request that no bucket equals is refused. -/
theorem classify_missing (hf : ∀ ratio, plan.fallback ≠ .padToNearest ratio)
    (hm : ∀ c ∈ plan.buckets, c.inputShapes ≠ requested) :
    plan.classify requested = .error .notInPlan := by
  rw [ServingShapePlan.classify, find_eq_none hm]
  cases hp : plan.fallback with
  | strict => rfl
  | fallbackSession => rfl
  | padToNearest ratio => exact absurd hp (hf ratio)

/-- Building checks exactly what a plan needs; in a built plan every id is filed once, under the
hash of its own inputs, and classifying is looking the request up in the list of the buckets. -/
theorem classification_is_lookup (builder : ServingShapePlanBuilder) :
    ((∃ plan, builder.build = .ok plan) ↔ Buildable builder) ∧
    ∀ plan, builder.build = .ok plan →
      plan.buckets = builder.buckets.zipIdx.map (fun entry => canonicalShape entry.2 entry.1) ∧
      plan.fallback = builder.fallback ∧
      (∀ (i : Nat) (c : CanonicalShape), plan.buckets[i]? = some c → c.id = ⟨i⟩ ∧
        ∀ hash, (plan.index hash).count ⟨i⟩ =
          if hash = .fromSlices c.inputShapes then 1 else 0) ∧
      (∀ hash, ∀ id ∈ plan.index hash, id.index < plan.buckets.length) ∧
      ∀ requested : Shapes,
        (∀ c ∈ plan.buckets, c.inputShapes = requested → plan.classify requested = .ok c.id) ∧
        ((∀ ratio, plan.fallback ≠ .padToNearest ratio) →
          ((∃ id, plan.classify requested = .ok id) ↔
            ∃ c ∈ plan.buckets, c.inputShapes = requested)) := by
  refine ⟨build_iff, ?_⟩
  intro plan h
  have hfiled := filed_build h
  have hexact : ∀ requested, ∀ c ∈ plan.buckets, c.inputShapes = requested →
      plan.classify requested = .ok c.id := by
    rintro requested c hc rfl
    exact classify_exact hfiled.sealed hc
  refine ⟨hfiled.entries, hfiled.fallback, ?_, ?_, ?_⟩
  · intro i c hc
    exact ⟨hfiled.sealed.id i c hc, hfiled.count hc⟩
  · intro hash id hid
    obtain ⟨c, hc, -⟩ := hfiled.sealed.filed hash id hid
    exact (List.getElem?_eq_some_iff.mp hc).1
  · intro requested
    refine ⟨hexact requested, ?_⟩
    intro hpolicy
    constructor
    · rintro ⟨id, hid⟩
      by_contra hm
      push Not at hm
      rw [classify_missing hpolicy hm] at hid
      cases hid
    · rintro ⟨c, hc, he⟩
      exact ⟨c.id, hexact requested c hc he⟩

end Zrt.ShapePlan
