import Zrt.Codegen.Plain

/-! Function pointers: what the generator reads of their texts. -/
namespace Zrt.Codegen
open Text

variable {m : DataModel} {s a b i t : List Char} {q : Param} {head : CallbackHead}
  {ps : List (Plain InnerBound)} {texts : List (List Char)} {idx trail : Nat}

/-- The types of a function pointer's parameters that the generator reads off their text. -/
def innerTypes (inner : List Char) : List RustType :=
  if trim inner = [] ∨ trim inner = "void".toList then []
  else (splitTopLevel inner).map fun p => mapType (paramTypeOnly p)

theorem parseParam_none (idx : Nat) (h : parseFnPtrParam (trim s) = none) :
    ∃ c, (parseParam s idx).rustType = mapType c := by
  rw [parseParam, h]
  exact ⟨_, rfl⟩

/-- Whatever the text, it is mapped to no function pointer, or to one that returns nothing and takes
none. -/
theorem parseParam_abi (s : List Char) (idx : Nat) :
    ¬ ((parseParam s idx).rustType.abi m).IsFunction ∨
      ∃ l, (parseParam s idx).rustType.abi m = .function l (.prim .void) ∧
        ∀ x ∈ l, ¬ x.IsFunction := by
  cases h : parseFnPtrParam (trim s) with
  | none =>
    obtain ⟨c, hc⟩ := parseParam_none idx h
    rw [hc]
    exact .inl (mapType_not_function c)
  | some q =>
    right
    have hq : (parseParam s idx).rustType = q.rustType := by rw [parseParam, h]
    rw [parseFnPtrParam] at h
    obtain ⟨_, -, h⟩ := Option.bind_eq_some_iff.mp h
    obtain ⟨_, -, h⟩ := Option.bind_eq_some_iff.mp h
    dsimp only at h
    split at h
    · cases h
    obtain ⟨rest, -, h⟩ := Option.bind_eq_some_iff.mp h
    obtain ⟨k, -, rfl⟩ := Option.map_eq_some_iff.mp h
    refine ⟨(innerTypes (rest.2.take k)).map fun t => t.abi m, ?_, ?_⟩
    · rw [hq, RustType.abi]
      rfl
    · intro x hx
      obtain ⟨t, ht, rfl⟩ := List.mem_map.mp hx
      rw [innerTypes] at ht
      split at ht
      · cases ht
      · obtain ⟨p, -, rfl⟩ := List.mem_map.mp ht
        exact mapType_not_function _

theorem matchCloseParen_balanced (h : Balanced s) : matchCloseParen (s ++ [')']) = some s.length :=
  matchClose_eq_some.mpr ⟨s, [], rfl, rfl, h⟩

/-- Where the star follows the parenthesis, the function pointer is read if a name does. -/
theorem parseFnPtrParam_star (ha : '(' ∉ a) (hi : ')' ∉ i) (hstar : '*' ∉ i) (hb : '(' ∉ b)
    (hs : Balanced s) :
    (parseFnPtrParam (a ++ '(' :: '*' :: (i ++ ')' :: (b ++ '(' :: (s ++ [')']))))).map
      Param.rustType = if trim i = [] then none else some (.callback (innerTypes s)) := by
  have hopen :
    splitFirst "(*".toList (a ++ '(' :: '*' :: (i ++ ')' :: (b ++ '(' :: (s ++ [')'])))) =
      some (a, i ++ ')' :: (b ++ '(' :: (s ++ [')']))) := splitFirst_of_not_mem ha
  have hclose : splitFirst [')'] (i ++ ')' :: (b ++ '(' :: (s ++ [')']))) =
      some (i, b ++ '(' :: (s ++ [')'])) := splitFirst_singleton.mpr ⟨rfl, hi⟩
  have hinner : splitFirst ['('] (b ++ '(' :: (s ++ [')'])) = some (b, s ++ [')']) :=
    splitFirst_singleton.mpr ⟨rfl, hb⟩
  have hname : '*' ∉ trim i := fun h => hstar (trim_subset i h)
  rw [parseFnPtrParam, hopen, Option.bind_some]
  dsimp only
  rw [hclose, Option.bind_some]
  dsimp only
  by_cases hnil : trim i = []
  · rw [if_pos (.inl hnil), if_pos hnil]
    rfl
  rw [if_neg (not_or.mpr ⟨hnil, hname⟩), if_neg hnil, hinner, Option.bind_some,
    matchCloseParen_balanced hs, Option.map_some, Option.map_some, List.take_left]
  rfl

/-- Where spaces stand between the parenthesis and the star, no function pointer is read. -/
theorem parseFnPtrParam_gap {g : Nat} (ha : '(' ∉ a) (hb : '(' ∉ b) (hs : '(' ∉ s)
    (hhead : ∀ c ∈ s.head?, c ≠ '*') :
    parseFnPtrParam
      (a ++ '(' :: (List.replicate (g + 1) ' ' ++ '*' :: (b ++ '(' :: (s ++ [')'])))) =
      none := by
  have hfirst : '(' ∉ List.replicate (g + 1) ' ' ++ '*' :: b := by
    intro h
    rcases List.mem_append.mp h with h | h
    · cases List.eq_of_mem_replicate h
    · rcases List.mem_cons.mp h with h | h
      · cases h
      · exact hb h
  apply parseFnPtrParam_none
  intro h
  rcases List.infix_cons_iff.mp (infix_of_not_mem ha h) with h | h
  · cases (List.cons_prefix_cons.mp (List.cons_prefix_cons.mp h).2).1
  rw [← List.cons_append, ← List.append_assoc] at h
  rcases List.infix_cons_iff.mp (infix_of_not_mem hfirst h) with h | h
  · cases s with
    | nil => cases (List.cons_prefix_cons.mp (List.cons_prefix_cons.mp h).2).1
    | cons c s => exact hhead c rfl (List.cons_prefix_cons.mp (List.cons_prefix_cons.mp h).2).1.symm
  · rcases List.mem_append.mp (h.subset List.mem_cons_self) with h | h
    · exact hs h
    · cases List.mem_singleton.mp h

theorem foldl_splitStep_text {out : List (List Char)} {depth : Int}
    (h : ∀ c ∈ s, c ∉ "(),".toList) :
    s.foldl splitStep (out, depth, t) = (out, depth, t ++ s) := by
  induction s generalizing t with
  | nil => rw [List.append_nil]; rfl
  | cons c s ih =>
    obtain ⟨hc, hs⟩ := List.forall_mem_cons.mp h
    have hstep : splitStep (out, depth, t) c = (out, depth, t ++ [c]) := by
      have hof : ∀ d ∈ "(),".toList, c ≠ d := fun d hd he => hc (he ▸ hd)
      rw [splitStep, if_neg (hof _ (by decide)), if_neg (hof _ (by decide)),
        if_neg fun h => hof _ (by decide) h.1]
    rw [List.foldl_cons, hstep, ih hs, List.append_assoc]
    rfl

/-- At each comma a part ends. -/
theorem foldl_splitStep_intercalate (out : List (List Char))
    (h : ∀ s ∈ t :: texts, ∀ c ∈ s, c ∉ "(),".toList) (hne : ∀ s ∈ t :: texts, trim s ≠ []) :
    ∃ out' cur, ([','].intercalate (t :: texts)).foldl splitStep (out, 0, []) = (out', 0, cur) ∧
      out' ++ [trim cur] = out ++ (t :: texts).map trim ∧ trim cur ≠ [] := by
  induction texts generalizing t out with
  | nil =>
    refine ⟨out, t, ?_, rfl, hne t List.mem_cons_self⟩
    rw [List.intercalate_singleton]
    exact foldl_splitStep_text (h t List.mem_cons_self)
  | cons u texts ih =>
    obtain ⟨ht, hts⟩ := List.forall_mem_cons.mp h
    obtain ⟨out', cur, hfold, hout, hcur⟩ := ih (out ++ [trim t]) hts
      (List.forall_mem_cons.mp hne).2
    have hcomma : splitStep (out, 0, t) ',' = (out ++ [trim t], 0, []) := by
      rw [splitStep, if_neg (by decide), if_neg (by decide), if_pos ⟨rfl, rfl⟩]
    refine ⟨out', cur, ?_, ?_, hcur⟩
    · rw [List.intercalate_cons_cons, List.foldl_append, List.foldl_append,
        foldl_splitStep_text ht, List.nil_append, List.foldl_cons, hcomma, List.foldl_nil, hfold]
    · rw [hout, List.append_assoc]
      rfl

theorem splitTopLevel_intercalate (hnil : texts ≠ []) (h : ∀ s ∈ texts, ∀ c ∈ s, c ∉ "(),".toList)
    (hne : ∀ s ∈ texts, trim s ≠ []) :
    splitTopLevel ([','].intercalate texts) = texts.map trim := by
  cases texts with
  | nil => exact absurd rfl hnil
  | cons t texts =>
    obtain ⟨out, cur, hfold, hout, hcur⟩ := foldl_splitStep_intercalate [] h hne
    rw [splitTopLevel, hfold]
    dsimp only
    rw [if_neg hcur, hout, List.nil_append]

/-- What stands behind the star, up to the parenthesis. -/
def CallbackHead.declarator (head : CallbackHead) : List Char :=
  spell (asWords head.inner) ++ List.replicate head.innerTrail ' '

theorem asWords_word (h : ∀ w ∈ head.inner, IsWord w.2) : ∀ l ∈ asWords head.inner, l.2.IsWord := by
  intro l hl
  obtain ⟨w, hw, rfl⟩ := List.mem_map.mp hl
  exact h w hw

theorem declarator_not_mem (head : CallbackHead) : ∀ c ∈ "*()".toList, c ∉ head.declarator := by
  intro c hc hmem
  have hw := asWords_word head.inner_word
  rcases List.mem_append.mp hmem with h | h
  · rcases List.mem_cons.mp hc with rfl | hc
    · have hcount := count_spell hw
      rw [count_asWords] at hcount
      exact List.count_eq_zero.mp hcount h
    · have hsub : "()".toList ⊆ "()[],".toList := by decide
      exact (spell_char hw h).2 (hsub hc)
  · rw [List.eq_of_mem_replicate h] at hc
    exact absurd hc (by decide)

theorem trim_declarator : trim head.declarator = [] ↔ head.inner = [] := by
  rw [trim_eq_nil]
  constructor
  · intro h
    by_contra hne
    have hwords : asWords head.inner ≠ [] := fun h => hne (List.map_eq_nil_iff.mp h)
    obtain ⟨x, c, hx, hc⟩ := spell_concat (asWords_word head.inner_word) hwords
    have hmem : c ∈ head.declarator := by
      rw [CallbackHead.declarator, hx]
      simp
    rw [h c hmem] at hc
    cases hc
  · intro h
    rw [CallbackHead.declarator, h]
    exact blank_replicate _

/-- A function pointer without the spaces around it. -/
theorem trim_callback (head : CallbackHead) (s : List Char) (trail : Nat) : ∃ a, '(' ∉ a ∧
    trim (head.text ++ '(' :: (s ++ ')' :: List.replicate trail ' ')) =
      a ++ '(' :: (List.replicate head.gap ' ' ++ '*' :: (head.declarator ++
        ')' :: (List.replicate head.after ' ' ++ '(' :: (s ++ [')'])))) := by
  obtain ⟨g, hg⟩ := spell_ungap (typeName_ne_nil head.ret)
  have hword := ungap_word (typeName_word head.ret)
  obtain ⟨d, x, hcons, hd⟩ := spell_ungap_cons (typeName_word head.ret) (typeName_ne_nil head.ret)
  refine ⟨spell (ungap head.ret.lexemes) ++ List.replicate head.before ' ', ?_, ?_⟩
  · intro h
    rcases List.mem_append.mp h with h | h
    · exact (spell_char hword h).2 (by decide)
    · cases List.eq_of_mem_replicate h
  generalize hbody : spell (ungap head.ret.lexemes) ++ List.replicate head.before ' ' ++
    '(' :: (List.replicate head.gap ' ' ++ '*' :: (head.declarator ++
      ')' :: (List.replicate head.after ' ' ++ '(' :: (s ++ [')'])))) = body
  have htext : head.text ++ '(' :: (s ++ ')' :: List.replicate trail ' ') =
      List.replicate g ' ' ++ (body ++ List.replicate trail ' ') := by
    rw [CallbackHead.text, hg, ← hbody, CallbackHead.declarator]
    simp
  rw [htext, trim_padded]
  · rw [← hbody, hcons]
    exact ⟨d, _, rfl, hd⟩
  · refine ⟨spell (ungap head.ret.lexemes) ++ List.replicate head.before ' ' ++
      '(' :: (List.replicate head.gap ' ' ++ '*' :: (head.declarator ++
        ')' :: (List.replicate head.after ' ' ++ '(' :: s))), ')', ?_, by decide⟩
    rw [← hbody]
    simp

theorem trim_text_ne_nil (p : Plain InnerBound) : trim p.text ≠ [] := by
  obtain ⟨d, x, h, -⟩ := core_cons p
  rw [trim_text, h]
  exact List.cons_ne_nil _ _

/-- A parameter is not taken for the `void` that stands for none. -/
theorem trim_text_ne_void (p : Plain InnerBound) : trim p.text ≠ "void".toList := by
  rw [trim_text]
  intro h
  have hdims : p.dims = [] := by
    cases hd : p.dims with
    | nil => rfl
    | cons e dims =>
      have hmem : '[' ∈ "void".toList := by
        rw [← h, hd]
        simp [dimsText]
      exact absurd hmem (by decide)
  obtain ⟨u, f, v, hspec, hu, hf, htype, htok⟩ := core_tokens p
  have hcore : p.core = "void".toList := by
    rw [hdims] at h
    exact (List.append_nil _).symm.trans h
  have hvoid : tokenize "void".toList = [.ident "void"] := by decide
  rw [hcore, hvoid] at htok
  rcases List.singleton_eq_append_iff.mp htok with ⟨-, hrest⟩ | ⟨-, hrest⟩
  · obtain ⟨hname, hrest⟩ := List.cons.inj hrest
    obtain ⟨hv, hrest⟩ := List.append_eq_nil_iff.mp hrest
    have hmarks := List.map_eq_nil_iff.mp (List.append_eq_nil_iff.mp hrest).1
    have hfirst : f = "void".toList := by
      have hlist := congrArg String.toList (Tok.ident.inj hname)
      rwa [String.toList_ofList] at hlist
    rw [List.map_eq_nil_iff.mp hv, hfirst] at htype
    have hstars := p.complete (typeWords_void htype)
    rw [TypeName.stars, hmarks] at hstars
    cases hstars
  · cases hrest

theorem noParams_char (head : CallbackHead) :
    ∀ c ∈ head.noParams, isWhitespace c = true ∨ c ∈ "void".toList := by
  intro c hc
  rcases head.noParams_void with h | h
  · exact .inl (trim_eq_nil.mp h c hc)
  · obtain ⟨u, v, htext, hu, hv⟩ := exists_trim head.noParams
    rw [htext, h] at hc
    rcases List.mem_append.mp hc with hc | hc
    · exact .inl (hu c hc)
    rcases List.mem_append.mp hc with hc | hc
    · exact .inr hc
    · exact .inl (hv c hc)

theorem noParams_not_mem (head : CallbackHead) : ∀ c ∈ "*()".toList, c ∉ head.noParams := by
  intro c hc hmem
  have hno : ∀ c ∈ "*()".toList, isWhitespace c = false ∧ c ∉ "void".toList := by decide
  rcases noParams_char head c hmem with h | h
  · rw [(hno c hc).1] at h
    cases h
  · exact (hno c hc).2 h

/-- A parameter starts with a space or its first word. -/
theorem text_head (p : Plain InnerBound) : ∃ c x, p.text = c :: x ∧ c ≠ '*' := by
  obtain ⟨u, f, v, hspec, -, -, -, -, hall⟩ := spec_words p.toTypeName
  cases hs : p.spec with
  | nil =>
    rw [hs] at hspec
    cases u <;> cases hspec
  | cons w spec =>
    have hword : IsWord w.2 := hall w.2 (by rw [hs]; exact List.mem_cons_self)
    have htext : ∃ x, p.text = List.replicate w.1 ' ' ++ (w.2 ++ x) := by
      rw [Plain.text, Plain.lexemes, TypeName.lexemes, hs, asWords, List.map_cons,
        List.cons_append, List.cons_append, spell_cons, List.append_assoc, List.append_assoc]
      exact ⟨_, rfl⟩
    obtain ⟨x, hx⟩ := htext
    rcases Nat.eq_zero_or_pos w.1 with hzero | hpos
    · obtain ⟨c, y, hc⟩ := List.exists_cons_of_ne_nil hword.1
      refine ⟨c, y ++ x, by rw [hx, hzero, hc]; rfl, ?_⟩
      rintro rfl
      exact star_not_mem hword (by rw [hc]; exact List.mem_cons_self)
    · obtain ⟨n, hn⟩ := Nat.exists_eq_add_of_lt hpos
      refine ⟨' ', List.replicate n ' ' ++ (w.2 ++ x), ?_, by decide⟩
      rw [hx, hn, Nat.zero_add, List.replicate_succ, List.cons_append]

theorem paramsText_cons (noParams : List Char) (ts : List (List Char)) :
    ∃ x, paramsText noParams (t :: ts) = t ++ x := by
  have htext : paramsText noParams (t :: ts) = [','].intercalate (t :: ts) := rfl
  rw [htext]
  cases ts with
  | nil => exact ⟨[], by rw [List.intercalate_singleton, List.append_nil]⟩
  | cons u ts =>
    rw [List.intercalate_cons_cons, List.append_assoc]
    exact ⟨_, rfl⟩

theorem paramsText_head (head : CallbackHead) (ps : List (Plain InnerBound)) :
    ∀ c ∈ (paramsText head.noParams (ps.map Plain.text)).head?, c ≠ '*' := by
  cases ps with
  | nil =>
    rintro c hc rfl
    exact noParams_not_mem head '*' (by decide) (List.mem_of_head? hc)
  | cons p ps =>
    obtain ⟨x, hx⟩ := paramsText_cons head.noParams (t := p.text) (ps.map Plain.text)
    obtain ⟨c, y, hc, hstar⟩ := text_head p
    rw [List.map_cons, hx, hc]
    exact fun d hd => Option.some.inj hd ▸ hstar

theorem paramsText_not_mem (head : CallbackHead) (ps : List (Plain InnerBound)) {c : Char}
    (hc : c ∈ "()".toList) : c ∉ paramsText head.noParams (ps.map Plain.text) := by
  cases ps with
  | nil =>
    have hsub : "()".toList ⊆ "*()".toList := by decide
    exact noParams_not_mem head c (hsub hc)
  | cons p ps =>
    intro h
    rcases mem_intercalate h with h | ⟨s, hs, h⟩
    · have hcomma : ',' ∉ "()".toList := by decide
      exact hcomma (List.mem_singleton.mp h ▸ hc)
    · obtain ⟨p', -, rfl⟩ := List.mem_map.mp hs
      have hsub : "()".toList ⊆ "(),".toList := by decide
      exact text_char h (hsub hc)

/-- The parameters are not taken for none. -/
theorem trim_paramsText (noParams : List Char) (hne : ps ≠ []) :
    ¬ (trim (paramsText noParams (ps.map Plain.text)) = [] ∨
      trim (paramsText noParams (ps.map Plain.text)) = "void".toList) := by
  cases ps with
  | nil => exact absurd rfl hne
  | cons p ps =>
    cases ps with
    | nil =>
      have htext : paramsText noParams ([p].map Plain.text) = [','].intercalate [p.text] := rfl
      rw [htext, List.intercalate_singleton]
      exact not_or.mpr ⟨trim_text_ne_nil p, trim_text_ne_void p⟩
    | cons p' ps =>
      have hmem : ',' ∈ paramsText noParams ((p :: p' :: ps).map Plain.text) := by
        have htext : paramsText noParams ((p :: p' :: ps).map Plain.text) =
          [','].intercalate (p.text :: p'.text :: ps.map Plain.text) := rfl
        rw [htext, List.intercalate_cons_cons]
        simp
      have htrim := mem_trim (by decide) hmem
      rintro (h | h) <;> rw [h] at htrim
      · cases htrim
      · exact absurd htrim (by decide)

/-- The types of the parameters are read one by one. -/
theorem innerTypes_paramsText (head : CallbackHead) (ps : List (Plain InnerBound)) :
    innerTypes (paramsText head.noParams (ps.map Plain.text)) =
      ps.map fun p => mapType (paramTypeOnly (trim p.text)) := by
  by_cases hnil : ps = []
  · have htext : paramsText head.noParams (([] : List (Plain InnerBound)).map Plain.text) =
        head.noParams := rfl
    rw [hnil, htext, innerTypes, if_pos head.noParams_void, List.map_nil]
  have htexts : ps.map Plain.text ≠ [] := fun h => hnil (List.map_eq_nil_iff.mp h)
  have hchar : ∀ s ∈ ps.map Plain.text, ∀ c ∈ s, c ∉ "(),".toList := by
    intro s hs c hc
    obtain ⟨p, -, rfl⟩ := List.mem_map.mp hs
    exact text_char hc
  have hne : ∀ s ∈ ps.map Plain.text, trim s ≠ [] := by
    intro s hs
    obtain ⟨p, -, rfl⟩ := List.mem_map.mp hs
    exact trim_text_ne_nil p
  have hparams : paramsText head.noParams (ps.map Plain.text) =
      [','].intercalate (ps.map Plain.text) :=
    if_neg fun h => htexts (List.isEmpty_iff.mp h)
  rw [innerTypes, if_neg (trim_paramsText head.noParams hnil), hparams,
    splitTopLevel_intercalate htexts hchar hne]
  simp only [List.map_map, Function.comp_def]

/-- A callback with a name, whose star follows the parenthesis, is mapped to one that takes what its
parameters are mapped to. -/
theorem callback_mapped (hgap : head.gap = 0) (hinner : head.inner ≠ []) :
    (parseParam (head.text ++ '(' :: (paramsText head.noParams (ps.map Plain.text) ++
      ')' :: List.replicate trail ' ')) idx).rustType =
      .callback (ps.map fun p => mapType (paramTypeOnly (trim p.text))) := by
  obtain ⟨a, ha, htrim⟩ := trim_callback head (paramsText head.noParams (ps.map Plain.text)) trail
  have hbalanced := balanced_of_not_mem (paramsText_not_mem head ps (c := '(') (by decide))
    (paramsText_not_mem head ps (by decide))
  have hafter : '(' ∉ List.replicate head.after ' ' := fun h => by
    cases List.eq_of_mem_replicate h
  have hclose := declarator_not_mem head ')' (by decide)
  have hstar := declarator_not_mem head '*' (by decide)
  have hread := parseFnPtrParam_star ha hclose hstar hafter
    hbalanced
  rw [if_neg (mt trim_declarator.mp hinner), innerTypes_paramsText] at hread
  obtain ⟨q, hq, htype⟩ := Option.map_eq_some_iff.mp hread
  rw [hgap] at htrim
  rw [parseParam, htrim, List.replicate_zero, List.nil_append, hq]
  exact htype

/-- Any other is taken for no function pointer. -/
theorem callback_unmapped (m : DataModel) (ps : List (Plain InnerBound)) (trail idx : Nat)
    (h : ¬ (head.gap = 0 ∧ head.inner ≠ [])) :
    ¬ ((parseParam (head.text ++ '(' :: (paramsText head.noParams (ps.map Plain.text) ++
      ')' :: List.replicate trail ' ')) idx).rustType.abi m).IsFunction := by
  obtain ⟨a, ha, htrim⟩ := trim_callback head (paramsText head.noParams (ps.map Plain.text)) trail
  have hopen := paramsText_not_mem head ps (c := '(') (by decide)
  have hafter : '(' ∉ List.replicate head.after ' ' := fun h => by
    cases List.eq_of_mem_replicate h
  have hclose := declarator_not_mem head ')' (by decide)
  have hstar := declarator_not_mem head '*' (by decide)
  have hnone : parseFnPtrParam (trim (head.text ++ '(' :: (paramsText head.noParams
      (ps.map Plain.text) ++ ')' :: List.replicate trail ' '))) = none := by
    rw [htrim]
    cases hgap : head.gap with
    | zero =>
      have hinner : head.inner = [] := by
        by_contra hinner
        exact h ⟨hgap, hinner⟩
      have hread := parseFnPtrParam_star ha hclose hstar hafter
        (balanced_of_not_mem hopen (paramsText_not_mem head ps (by decide)))
      rw [if_pos (trim_declarator.mpr hinner), Option.map_eq_none_iff] at hread
      exact hread
    | succ g =>
      have hb : '(' ∉ head.declarator ++ ')' :: List.replicate head.after ' ' := by
        intro h
        rcases List.mem_append.mp h with h | h
        · exact declarator_not_mem head '(' (by decide) h
        · rcases List.mem_cons.mp h with h | h
          · cases h
          · exact hafter h
      have hgap := parseFnPtrParam_gap (g := g) ha hb hopen (paramsText_head head ps)
      rwa [List.append_assoc] at hgap
  obtain ⟨c, hc⟩ := parseParam_none idx hnone
  rw [hc]
  exact mapType_not_function c

end Zrt.Codegen
