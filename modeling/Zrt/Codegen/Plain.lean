import Zrt.Codegen.Analysis

/-! Parameters that are no function pointers: what the generator maps them to. -/
namespace Zrt.Codegen
open Text

variable {m : DataModel} {c d : Char} {s x c' : List Char} {Bound : List Char → Prop}
  {p : Plain Bound} {ts : Spaced}
  {dims : List (Nat × List Char)} {k n idx : Nat}

theorem trim_padded (hx : ∃ d y, x = d :: y ∧ isWhitespace d = false)
    (hx' : ∃ y d, x = y ++ [d] ∧ isWhitespace d = false) :
    trim (List.replicate k ' ' ++ (x ++ List.replicate n ' ')) = x := by
  rw [trim_append_left (blank_replicate k), trim_append_right (blank_replicate n)]
  obtain ⟨d, y, rfl, hd⟩ := hx
  obtain ⟨y', d', he, hd'⟩ := hx'
  apply trim_eq_self
  · exact fun e he => Option.some.inj he ▸ hd
  · rw [he, List.getLast?_concat]
    exact fun e he => Option.some.inj he ▸ hd'

theorem dimsText_concat (dims : List (Nat × List Char)) (e : Nat × List Char) :
    dimsText (dims ++ [e]) =
      dimsText dims ++ (List.replicate e.1 ' ' ++ '[' :: (e.2 ++ [']'])) := by
  simp [dimsText]

/-- What a bound does not hold does not stand in the brackets either. -/
theorem dimsText_infix (hb : ∀ e ∈ dims, ¬ "(*".toList <:+: e.2) :
    ¬ "(*".toList <:+: dimsText dims := by
  induction dims with
  | nil =>
    intro h
    cases List.infix_nil.mp h
  | cons e dims ih =>
    obtain ⟨he, hrest⟩ := List.forall_mem_cons.mp hb
    have htext : dimsText (e :: dims) =
        List.replicate e.1 ' ' ++ '[' :: (e.2 ++ ']' :: dimsText dims) := by
      simp [dimsText]
    rw [htext]
    intro h
    rcases infix_append_cons (by decide) h with h | h
    · have hmem : '(' ∈ List.replicate e.1 ' ' := h.subset (by decide)
      cases List.eq_of_mem_replicate hmem
    rcases infix_append_cons (by decide) h with h | h
    · exact he h
    · exact ih hrest h

theorem dimsText_char (hb : ∀ e ∈ dims, InnerBound e.2)
    (hc : c ∈ dimsText dims) : c ∉ "*(),".toList := by
  obtain ⟨e, he, hc⟩ := List.mem_flatMap.mp hc
  rcases List.mem_append.mp hc with hc | hc
  · rw [List.eq_of_mem_replicate hc]
    decide
  rcases List.mem_cons.mp hc with rfl | hc
  · decide
  rcases List.mem_append.mp hc with hc | hc
  · have hsub : "*(),".toList ⊆ "*()[],".toList := by decide
    exact fun h => hb e he c hc (hsub h)
  · rw [List.mem_singleton.mp hc]
    decide

theorem body_concat (p : Plain Bound) (dims : List (Nat × List Char)) :
    ∃ y d, p.core ++ dimsText dims = y ++ [d] ∧ isWhitespace d = false := by
  rcases List.eq_nil_or_concat' dims with rfl | ⟨dims, e, rfl⟩
  · obtain ⟨y, d, h, hd⟩ := core_concat p
    exact ⟨y, d, (List.append_nil _).trans h, hd⟩
  · refine ⟨p.core ++ (dimsText dims ++ (List.replicate e.1 ' ' ++ '[' :: e.2)), ']', ?_,
      by decide⟩
    rw [dimsText_concat]
    simp

theorem trim_text (p : Plain Bound) : trim p.text = p.core ++ dimsText p.dims := by
  obtain ⟨g, hg⟩ := spell_ungap (lexemes_ne_nil p)
  have htext : p.text = List.replicate g ' ' ++
      ((p.core ++ dimsText p.dims) ++ List.replicate p.trail ' ') := by
    rw [Plain.text, hg, Plain.core]
    simp only [List.append_assoc]
  obtain ⟨d, y, h, hd⟩ := core_cons p
  rw [htext, trim_padded ⟨d, y ++ dimsText p.dims, by rw [h]; rfl, hd⟩ (body_concat p p.dims)]

theorem text_char {p : Plain InnerBound} (hc : c ∈ p.text) : c ∉ "(),".toList := by
  obtain ⟨u, v, h, hu, hv⟩ := exists_trim p.text
  have hblank : isWhitespace c = true → c ∉ "(),".toList := by
    intro hw hm
    have hno : ∀ e ∈ "(),".toList, isWhitespace e = false := by decide
    rw [hno c hm] at hw
    cases hw
  rw [h, trim_text] at hc
  rcases List.mem_append.mp hc with hc | hc
  · exact hblank (hu c hc)
  rcases List.mem_append.mp hc with hc | hc
  · rcases List.mem_append.mp hc with hc | hc
    · have hsub : "(),".toList ⊆ "()[],".toList := by decide
      exact fun h => (core_char hc).2 (hsub h)
    · have hsub : "(),".toList ⊆ "*(),".toList := by decide
      exact fun h => dimsText_char p.bounds hc (hsub h)
  · exact hblank (hv c hc)

/-- The brackets are taken off from the right. -/
theorem stripArrays_dims (hb : ∀ e ∈ dims, ArrayBound e.2) :
    stripArrays (p.core ++ dimsText dims) k = (p.core, k + dims.length) := by
  induction dims using List.reverseRecOn generalizing k with
  | nil =>
    have hnone : splitLast '[' (p.core ++ dimsText []) = none := by
      rw [splitLast_eq_none]
      intro h
      have hmem : '[' ∈ p.core := by simpa [dimsText] using h
      exact (core_char hmem).2 (by decide)
    rw [stripArrays, hnone]
    simp [dimsText]
  | append_singleton dims e ih =>
    have hsome : splitLast '[' (p.core ++ dimsText (dims ++ [e])) =
        some (p.core ++ dimsText dims ++ List.replicate e.1 ' ', e.2 ++ [']']) := by
      rw [splitLast_eq_some, dimsText_concat]
      constructor
      · simp
      · intro h
        rcases List.mem_append.mp h with h | h
        · exact (hb e (by simp)).1 h
        · cases List.mem_singleton.mp h
    obtain ⟨y, d, hy, hd⟩ := body_concat p dims
    have htrim : trimEnd (p.core ++ dimsText dims ++ List.replicate e.1 ' ') =
        p.core ++ dimsText dims := by
      rw [trimEnd_append (blank_replicate e.1), hy, trimEnd_concat hd]
    rw [stripArrays, hsome]
    simp only [List.getLast?_concat, if_true]
    rw [htrim, ih fun e' he => hb e' (List.mem_append_left _ he), List.length_append]
    simp [Nat.add_assoc, Nat.add_comm 1]

theorem parseFnPtrParam_none (h : ¬ "(*".toList <:+: s) : parseFnPtrParam s = none := by
  rw [parseFnPtrParam, splitFirst_eq_none.mpr h]
  rfl

theorem tokenize_stars (n : Nat) : tokenize (List.replicate n '*') = List.replicate n .star := by
  induction n with
  | zero => rfl
  | succ n ih =>
    have hstar : tokenize ([] ++ '*' :: List.replicate n '*') = _ := tokenize_star
    rw [List.replicate_succ, List.replicate_succ, ← ih]
    exact hstar

/-- The text that a parameter's type is mapped from. -/
theorem parseParam_plain (p : Plain ArrayBound) (idx : Nat) : ∃ c,
    (parseParam p.text idx).rustType = mapType c ∧
      tokenize c = tokenize (typePart p.core) ++ List.replicate p.dims.length .star := by
  have hnone : parseFnPtrParam (p.core ++ dimsText p.dims) = none := by
    have hcore : '(' ∉ p.core := fun h => (core_char h).2 (by decide)
    apply parseFnPtrParam_none
    exact fun h => dimsText_infix (fun e he => (p.bounds e he).2.2) (infix_of_not_mem hcore h)
  have hty : ∀ name : List Char,
      ((splitParamName p.core).getD (p.core, name)).1 = typePart p.core := by
    intro name
    rw [typePart]
    cases splitParamName p.core <;> rfl
  refine ⟨if 0 < p.dims.length then typePart p.core ++ ' ' :: List.replicate p.dims.length '*'
    else typePart p.core, ?_, ?_⟩
  · rw [parseParam, trim_text, hnone]
    dsimp only
    rw [stripArraySuffix, ← trim_text, trim_trim, trim_text,
      stripArrays_dims p.bounds, Nat.zero_add]
    dsimp only
    rw [hty]
  · split
    · rw [tokenize_space (by decide), tokenize_stars]
    · rename_i h
      rw [Nat.eq_zero_of_not_pos h, List.replicate_zero, List.append_nil]

theorem count_typePart_core (p : Plain Bound) :
    (tokenize (typePart p.core)).count .star = p.stars := by
  rw [count_tokenize, count_typePart, count_core]

/-- The type in front of the name, under `n` more stars, is mapped to the declared one exactly when
its first type word tells it. -/
theorem mapType_told (hc : tokenize c' = tokenize (typePart p.core) ++ List.replicate n .star) :
    (mapType c').abi m = Abi.pointer^[p.stars + n] (.prim (p.base.prim m)) ↔ p.Told m := by
  have hcount : (tokenize c').count .star = p.stars + n := by
    rw [hc, List.count_append, count_typePart_core, List.count_replicate_self]
  by_cases hk : p.Kept
  · obtain ⟨q, f, r, hf, htok, hq⟩ := typePart_kept hk
    rw [htok, List.append_assoc, List.cons_append] at hc
    rw [mapType_ident hc hq, hcount, pointer_iterate_inj, firstTells_iff p.known hf, Plain.Told,
      and_iff_left hk]
  · obtain ⟨hstars, hq⟩ := typePart_lost hk
    have hname : (analyze (tokenize c')).1 = "void" := by rw [hc, analyze_void hq]
    refine iff_of_false ?_ fun h => hk h.2
    rw [mapType_abi, analyze_depth, hcount, hname, pointer_iterate_inj]
    intro hvoid
    have hpos := p.complete ((base_void m).mp hvoid.symm)
    omega

theorem pointer_ne_array {a : Prim} {y : Abi} :
    Abi.pointer^[k] (.prim a) ≠ .pointer (.array y) := by
  cases k with
  | zero => exact fun h => by cases h
  | succ k =>
    rw [Function.iterate_succ_apply']
    cases k with
    | zero => exact fun h => by cases h
    | succ k =>
      rw [Function.iterate_succ_apply']
      exact fun h => by cases h

theorem plain_right (p : Plain ArrayBound) (idx : Nat) :
    (parseParam p.text idx).rustType.abi m = p.abi m ↔ p.Told m ∧ p.dims.length ≤ 1 := by
  obtain ⟨c, hp, hc⟩ := parseParam_plain p idx
  rw [hp, Plain.abi]
  rcases hd : p.dims with - | ⟨e, dims⟩
  · rw [hd] at hc
    rw [if_pos rfl, TypeName.abi, and_iff_left (by exact Nat.zero_le _)]
    exact mapType_told hc
  rw [if_neg (List.cons_ne_nil e dims), TypeName.abi]
  cases dims with
  | nil =>
    rw [hd] at hc
    have hone : [e].length ≤ 1 := Nat.le_refl 1
    rw [and_iff_left hone, List.length_singleton, Nat.sub_self, Function.iterate_zero_apply,
      ← Function.iterate_succ_apply' (f := Abi.pointer)]
    exact mapType_told hc
  | cons e' dims =>
    refine iff_of_false ?_ fun h => by simp at h
    rw [mapType_abi, List.length_cons, List.length_cons, Nat.add_sub_cancel,
      Function.iterate_succ_apply']
    exact pointer_ne_array

/-- In the parameters of a callback, brackets are not read. -/
theorem inner_right (p : Plain InnerBound) :
    (mapType (paramTypeOnly (trim p.text))).abi m = p.abi m ↔ p.Told m ∧ p.dims = [] := by
  have htype : ∀ s, tokenize (paramTypeOnly s) = tokenize (typePart s) := by
    intro s
    rw [paramTypeOnly, typePart]
    cases splitParamName s <;> exact tokenize_trim _
  rw [trim_text, Plain.abi]
  by_cases hd : p.dims = []
  · rw [if_pos hd, hd, TypeName.abi, and_iff_left rfl]
    refine mapType_told (n := 0) ?_
    rw [htype]
    simp [dimsText]
  · refine iff_of_false ?_ fun h => hd h.2
    intro h
    have hdepth := congrArg Abi.depth h
    have hdims : (dimsText p.dims).count '*' = 0 :=
      List.count_eq_zero.mpr fun h => dimsText_char p.bounds h (by decide)
    rw [if_neg hd, mapType_depth, ← count_tokenize, htype, count_tokenize, count_typePart,
      List.count_append, count_core, hdims, Abi.depth, depth_array, TypeName.abi,
      depth_pointer] at hdepth
    omega

end Zrt.Codegen
