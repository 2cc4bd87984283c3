import Zrt.Codegen.Bases
import Zrt.Codegen.Tokens

/-! The type that the generator reads off a parameter that is no function pointer. -/
namespace Zrt.Codegen
open Text

variable {m : DataModel} {c f s : List Char} {q r toks : List Tok} {ts : Spaced}
  {Bound : List Char → Prop} {p : Plain Bound} {t : TypeName} {k n : Nat} {a b : Prim}

/-- Nothing that tells the type is taken for a name: without a name and a star, the last word is a
`const`, stands alone, or follows another type word. -/
def Plain.Kept (p : Plain Bound) : Prop :=
  p.name = none → p.marks = [] → (p.spec.map Prod.snd).getLast? = some "const".toList ∨
    p.spec.length = 1 ∨ 2 ≤ p.base.typeWords.length

/-- The parameter tells its type by its first type word. -/
def Plain.Told (m : DataModel) (p : Plain Bound) : Prop := p.base.FirstTells m ∧ p.Kept

def Abi.IsFunction : Abi → Prop
  | .function _ _ => True
  | _ => False

/-- How many pointers and arrays a type is. -/
def Abi.depth : Abi → Nat
  | .pointer a | .array a => a.depth + 1
  | .prim _ | .function _ _ => 0

theorem pointer_iterate_inj : Abi.pointer^[k] (.prim a) = Abi.pointer^[k] (.prim b) ↔ a = b := by
  have hinj : Function.Injective Abi.pointer := fun x y h => Abi.pointer.inj h
  rw [(hinj.iterate k).eq_iff]
  exact ⟨Abi.prim.inj, congrArg _⟩

theorem depth_pointer : (Abi.pointer^[k] (.prim a)).depth = k := by
  induction k with
  | zero => rfl
  | succ k ih => rw [Function.iterate_succ_apply', Abi.depth, ih]

theorem depth_array (x : Abi) : (Abi.array^[k] x).depth = k + x.depth := by
  induction k with
  | zero => exact (Nat.zero_add _).symm
  | succ k ih => rw [Function.iterate_succ_apply', Abi.depth, ih, Nat.add_right_comm]

theorem not_isFunction_pointer : ¬ (Abi.pointer^[k] (.prim a)).IsFunction := by
  cases k with
  | zero => exact id
  | succ k =>
    rw [Function.iterate_succ_apply']
    exact id

theorem buildRust_abi (base : String) (baseConst : Bool) (depth : Nat) :
    (buildRust base baseConst depth).abi m =
      Abi.pointer^[depth] (.prim (rustPrim m (mapBase base))) := by
  rw [buildRust]
  induction depth with
  | zero => rw [Function.iterate_zero_apply, RustType.abi]; rfl
  | succ depth ih =>
    rw [Function.iterate_succ_apply', RustType.abi, ih, Function.iterate_succ_apply']

theorem mapType_abi (c : List Char) : (mapType c).abi m =
    Abi.pointer^[(analyze (tokenize c)).2.2]
      (.prim (rustPrim m (mapBase (analyze (tokenize c)).1))) :=
  buildRust_abi ..

theorem analyze_depth (toks : List Tok) : (analyze toks).2.2 = toks.count .star := by
  have hq : (toks.takeWhile Tok.isQualifier).count .star = 0 :=
    List.count_eq_zero.mpr fun h => by cases List.mem_takeWhile_imp h
  conv_rhs => rw [← List.takeWhile_append_dropWhile (p := Tok.isQualifier) (l := toks),
    List.count_append, hq, Nat.zero_add]
  rfl

theorem analyze_ident {w : String} (hq : ∀ x ∈ q, x.isQualifier = true) :
    (analyze (q ++ .ident w :: r)).1 = w := by
  rw [analyze]
  dsimp only
  rw [List.dropWhile_append_of_pos hq]
  rfl

theorem analyze_void (hq : ∀ x ∈ q, x.isQualifier = true) :
    (analyze (q ++ List.replicate n .star)).1 = "void" := by
  rw [analyze]
  dsimp only
  rw [List.dropWhile_append_of_pos hq]
  cases n <;> rfl

/-- The type of a text is that of its first word, under its stars. -/
theorem mapType_ident (h : tokenize c = q ++ .ident (String.ofList f) :: r)
    (hq : ∀ x ∈ q, x.isQualifier = true) : (mapType c).abi m =
      Abi.pointer^[(tokenize c).count .star] (.prim (rustPrim m (mapBase (String.ofList f)))) := by
  have hname : (analyze (tokenize c)).1 = String.ofList f := by rw [h, analyze_ident hq]
  rw [mapType_abi, analyze_depth, hname]

theorem mapType_depth (c : List Char) : ((mapType c).abi m).depth = c.count '*' := by
  rw [mapType_abi, depth_pointer, analyze_depth, count_tokenize]

theorem mapType_not_function (c : List Char) : ¬ ((mapType c).abi m).IsFunction := by
  rw [mapType_abi]
  exact not_isFunction_pointer

theorem isWord_const : IsWord "const".toList := by decide

/-- The specifiers are qualifiers, the first type word, and the rest of the type words among
further qualifiers. -/
theorem spec_words (t : TypeName) : ∃ u f v, t.spec.map Prod.snd = u ++ f :: v ∧
    (∀ w ∈ u, (Tok.ofWord w).isQualifier = true) ∧ Tok.ofWord f = .ident (String.ofList f) ∧
    t.base.typeWords = f :: v.filter (· ≠ "const".toList) ∧
    (∀ w ∈ v, Tok.ofWord w ≠ .star) ∧ ∀ w ∈ t.spec.map Prod.snd, IsWord w := by
  obtain ⟨tags, f, rest, hwords, htype, htags, hrest⟩ := base_words t.known
  have hspec := t.spec_base
  rw [hwords] at hspec
  obtain ⟨l₁, l, hl, htag, hl'⟩ := List.filter_eq_append_iff.mp hspec
  obtain ⟨l₂, v, rfl, hconst, -, hv⟩ := List.filter_eq_cons_iff.mp hl'
  have hmem : ∀ (l : List (List Char)) (l' : List (List Char)),
      l.filter (· ≠ "const".toList) = l' → ∀ w ∈ l, w = "const".toList ∨ w ∈ l' := by
    rintro l - rfl w hw
    by_cases hc : w = "const".toList
    · exact .inl hc
    · exact .inr (List.mem_filter.mpr ⟨hw, by simpa using hc⟩)
  have hall : ∀ w ∈ t.spec.map Prod.snd, IsWord w := by
    intro w hw
    rcases hmem _ _ hspec w hw with rfl | hw
    · exact isWord_const
    rcases List.mem_append.mp hw with hw | hw
    · exact (htags w hw).1
    · exact (hrest w hw).1
  refine ⟨l₁ ++ l₂, f, v, by rw [hl, List.append_assoc], ?_, (hrest f List.mem_cons_self).2,
    by rw [htype, hv], ?_, hall⟩
  · intro w hw
    rcases List.mem_append.mp hw with hw | hw
    · rcases hmem _ _ htag w hw with rfl | hw
      · decide
      · exact (htags w hw).2
    · have hc : w = "const".toList := by simpa using hconst w hw
      rw [hc]
      decide
  · intro w hw
    apply ofWord_ne_star
    apply star_not_mem
    apply hall
    rw [hl]
    simp [hw]

/-- Lexemes without the spaces in front of them. -/
def ungap : Spaced → Spaced
  | [] => []
  | t :: ts => (0, t.2) :: ts

theorem ungap_word (hw : ∀ t ∈ ts, t.2.IsWord) : ∀ t ∈ ungap ts, t.2.IsWord := by
  cases ts with
  | nil => exact hw
  | cons t ts =>
    obtain ⟨ht, hts⟩ := List.forall_mem_cons.mp hw
    exact List.forall_mem_cons.mpr ⟨ht, hts⟩

theorem ungap_apart (ha : ts.IsChain Apart) : (ungap ts).IsChain Apart := by
  cases ts with
  | nil => exact ha
  | cons t ts =>
    obtain ⟨hhead, htail⟩ := List.isChain_cons.mp ha
    exact List.isChain_cons.mpr ⟨hhead, htail⟩

theorem spell_ungap (hne : ts ≠ []) : ∃ g, spell ts = List.replicate g ' ' ++ spell (ungap ts) := by
  cases ts with
  | nil => exact absurd rfl hne
  | cons t ts => exact ⟨t.1, by rw [ungap, spell_cons, ← Prod.eta t, spell_cons]; rfl⟩

theorem map_ungap {α : Type} (g : Lexeme → α) :
    (ungap ts).map (fun t => g t.2) = ts.map fun t => g t.2 := by
  cases ts <;> rfl

theorem spell_ungap_cons (hw : ∀ t ∈ ts, t.2.IsWord) (hne : ts ≠ []) :
    ∃ d x, spell (ungap ts) = d :: x ∧ isWhitespace d = false := by
  cases ts with
  | nil => exact absurd rfl hne
  | cons t ts =>
    obtain ⟨d, x, h, hd⟩ := text_cons (hw t List.mem_cons_self)
    exact ⟨d, x ++ spell ts, by rw [ungap, spell_cons, h]; rfl, hd⟩

/-- The text of a parameter up to its brackets. -/
def Plain.core (p : Plain Bound) : List Char := spell (ungap p.lexemes)

theorem typeName_word (t : TypeName) : ∀ l ∈ t.lexemes, l.2.IsWord := by
  obtain ⟨u, f, v, -, -, -, -, -, hall⟩ := spec_words t
  intro l hl
  rcases List.mem_append.mp hl with hl | hl
  · obtain ⟨w, hw, rfl⟩ := List.mem_map.mp hl
    exact hall w.2 (List.mem_map_of_mem hw)
  · rcases t.marks_star l hl with h | h <;> rw [h]
    · trivial
    · exact isWord_const

theorem typeName_ne_nil (t : TypeName) : t.lexemes ≠ [] := by
  obtain ⟨u, f, v, hspec, -⟩ := spec_words t
  intro h
  have hnil : t.spec = [] := by
    have hwords := (List.append_eq_nil_iff.mp h).1
    exact List.map_eq_nil_iff.mp hwords
  rw [hnil] at hspec
  cases u <;> cases hspec

theorem lexemes_word (p : Plain Bound) : ∀ l ∈ p.lexemes, l.2.IsWord := by
  intro l hl
  rcases List.mem_append.mp hl with hl | hl
  · exact typeName_word _ l hl
  · obtain ⟨w, hw, rfl⟩ := List.mem_map.mp hl
    exact p.name_word w (Option.mem_toList.mp hw)

theorem lexemes_ne_nil (p : Plain Bound) : p.lexemes ≠ [] := fun h =>
  typeName_ne_nil _ (List.append_eq_nil_iff.mp h).1

theorem asWords_tok (ws : List (Nat × List Char)) :
    (asWords ws).map (fun t => t.2.tok) = (ws.map Prod.snd).map Tok.ofWord := by
  simp [asWords, Lexeme.tok]

theorem count_asWords (ws : List (Nat × List Char)) :
    ((asWords ws).map Prod.snd).count .star = 0 := by
  rw [List.count_eq_zero]
  intro h
  obtain ⟨t, ht, he⟩ := List.mem_map.mp h
  obtain ⟨w, -, rfl⟩ := List.mem_map.mp ht
  cases he

theorem tokenize_core (p : Plain Bound) : tokenize p.core = p.lexemes.map fun t => t.2.tok := by
  rw [Plain.core, tokenize_spell (ungap_word (lexemes_word p)) (ungap_apart p.apart), map_ungap]

theorem count_core (p : Plain Bound) : p.core.count '*' = p.stars := by
  have hsnd : (ungap p.lexemes).map Prod.snd = p.lexemes.map Prod.snd := map_ungap id
  rw [Plain.core, count_spell (ungap_word (lexemes_word p)), hsnd, Plain.lexemes, TypeName.lexemes,
    List.map_append, List.map_append, List.count_append, List.count_append, count_asWords,
    count_asWords, Nat.zero_add, Nat.add_zero]
  rfl

theorem core_char {d : Char} (hd : d ∈ p.core) :
    (isWhitespace d = true → d = ' ') ∧ d ∉ "()[],".toList :=
  spell_char (ungap_word (lexemes_word p)) hd

theorem core_concat (p : Plain Bound) : ∃ x d, p.core = x ++ [d] ∧ isWhitespace d = false :=
  spell_concat (ungap_word (lexemes_word p)) fun h => lexemes_ne_nil p (by
    cases hl : p.lexemes with
    | nil => rfl
    | cons t ts =>
      rw [hl] at h
      cases h)

theorem core_cons (p : Plain Bound) : ∃ d x, p.core = d :: x ∧ isWhitespace d = false :=
  spell_ungap_cons (lexemes_word p) (lexemes_ne_nil p)

/-- The tokens of a parameter around its first type word. -/
theorem core_tokens (p : Plain Bound) : ∃ u f v, p.spec.map Prod.snd = u ++ f :: v ∧
    (∀ w ∈ u, (Tok.ofWord w).isQualifier = true) ∧ Tok.ofWord f = .ident (String.ofList f) ∧
    p.base.typeWords = f :: v.filter (· ≠ "const".toList) ∧
    tokenize p.core = u.map Tok.ofWord ++ .ident (String.ofList f) ::
      (v.map Tok.ofWord ++ (p.marks.map (fun t => t.2.tok) ++
        (p.name.toList.map Prod.snd).map Tok.ofWord)) := by
  obtain ⟨u, f, v, hspec, hu, hf, htype, -, -⟩ := spec_words p.toTypeName
  refine ⟨u, f, v, hspec, hu, hf, htype, ?_⟩
  rw [tokenize_core, Plain.lexemes, TypeName.lexemes, List.map_append, List.map_append,
    asWords_tok, asWords_tok, hspec, List.map_append, List.map_cons, hf]
  simp

/-- A single word with nothing behind it is the whole text. -/
theorem space_not_mem_core (hone : p.spec.length = 1) (hmarks : p.marks = [])
    (hname : p.name = none) :
    ' ' ∉ p.core := by
  obtain ⟨w, hw⟩ := List.length_eq_one_iff.mp hone
  have hlex : p.lexemes = [(w.1, .word w.2)] := by
    rw [Plain.lexemes, TypeName.lexemes, hw, hmarks, hname]
    rfl
  have hcore : p.core = w.2 := by
    rw [Plain.core, hlex]
    simp [ungap, spell, Lexeme.text]
  have hword := lexemes_word p (w.1, .word w.2) (by rw [hlex]; exact List.mem_cons_self)
  rw [hcore]
  intro hspace
  cases (isWord_char hword hspace).1

/-- The first type word is kept in front of the name. -/
theorem typePart_kept (hk : p.Kept) : ∃ q f r, p.base.typeWords.head? = some f ∧
    tokenize (typePart p.core) = q ++ .ident (String.ofList f) :: r ∧
    ∀ x ∈ q, x.isQualifier = true := by
  obtain ⟨u, f, v, hspec, hu, hf, htype, htok⟩ := core_tokens p
  have hq : ∀ x ∈ u.map Tok.ofWord, x.isQualifier = true := by
    intro x hx
    obtain ⟨w, hw, rfl⟩ := List.mem_map.mp hx
    exact hu w hw
  have hhead : p.base.typeWords.head? = some f := by rw [htype]; rfl
  have hlast : ∀ d ∈ p.core.getLast?, isWhitespace d = false := by
    obtain ⟨x, d, h, hd⟩ := core_concat p
    rw [h, List.getLast?_concat]
    exact fun d' hd' => Option.some.inj hd' ▸ hd
  rcases typePart_cases (fun d hd => (core_char hd).1) hlast with h | ⟨x, y, hc, hy, h⟩
  · exact ⟨_, f, _, hhead, by rw [h, htok], hq⟩
  have hsplit : tokenize p.core = tokenize x ++ [Tok.ofWord y] := by
    rw [hc, tokenize_space (by decide), tokenize_word hy.1 hy.2.1 hy.2.2.1]
  rw [h, tokenize_trim]
  rw [hsplit] at htok
  generalize hr : v.map Tok.ofWord ++ (p.marks.map (fun t => t.2.tok) ++
    (p.name.toList.map Prod.snd).map Tok.ofWord) = r at htok
  rcases List.eq_nil_or_concat' r with rfl | ⟨r', z, rfl⟩
  · -- nothing stands behind the first type word, so that it is the whole text
    obtain ⟨hv, hr⟩ := List.append_eq_nil_iff.mp hr
    obtain ⟨hmarks, hname⟩ := List.append_eq_nil_iff.mp hr
    obtain rfl := List.map_eq_nil_iff.mp hv
    have hmarks := List.map_eq_nil_iff.mp hmarks
    have hname :=
      Option.toList_eq_nil_iff.mp (List.map_eq_nil_iff.mp (List.map_eq_nil_iff.mp hname))
    rcases hk hname hmarks with hlastc | hone | htwo
    · rw [hspec, List.getLast?_concat] at hlastc
      rw [Option.some.inj hlastc] at hf
      cases hf
    · exact absurd (by rw [hc]; simp) (space_not_mem_core hone hmarks hname)
    · rw [htype] at htwo
      simp at htwo
  · have happ : tokenize x ++ [Tok.ofWord y] =
        (u.map Tok.ofWord ++ .ident (String.ofList f) :: r') ++ [z] := by
      rw [htok]
      simp
    exact ⟨_, f, r', hhead, (List.append_inj' happ rfl).1, hq⟩

theorem typeWords_void (h : t.base.typeWords = ["void".toList]) : t.base.IsVoid := by
  cases hb : t.base with
  | type n =>
    rw [hb] at h
    exact String.toList_inj.mp (List.cons.inj h).1
  | tagged tag n =>
    rw [hb] at h
    exact String.toList_inj.mp (List.cons.inj h).1
  | integer words =>
    rw [hb] at h
    have hmem : "void".toList ∈ words.map fun w => w.text.toList := by
      rw [show (words.map fun w => w.text.toList) = ["void".toList] from h]
      exact List.mem_cons_self
    obtain ⟨w, -, hw⟩ := List.mem_map.mp hmem
    cases w <;> exact absurd hw (by decide)

/-- The last of two words stands behind a space. -/
theorem spell_last_word {us : Spaced} {g g' : Nat} {w : List Char}
    (ha : (us ++ [(g', Lexeme.word w), (g, Lexeme.word f)]).IsChain Apart) :
    ∃ x, spell (ungap (us ++ [(g', Lexeme.word w), (g, Lexeme.word f)])) = x ++ ' ' :: f := by
  have hpos : 0 < g := by
    have htail := (List.isChain_append.mp ha).2.1
    exact (List.isChain_cons_cons.mp htail).1 (by simp) (by simp)
  obtain ⟨n, rfl⟩ := Nat.exists_eq_add_of_lt hpos
  have hspell : spell [(0 + n + 1, Lexeme.word f)] = List.replicate n ' ' ++ ' ' :: f := by
    rw [spell_cons, Nat.zero_add, List.replicate_succ', List.append_assoc]
    simp [spell, Lexeme.text]
  have happ : ∃ vs, ungap (us ++ [(g', .word w), (0 + n + 1, .word f)]) =
      vs ++ [(0 + n + 1, .word f)] := by
    cases us with
    | nil => exact ⟨[(0, .word w)], rfl⟩
    | cons u us => exact ⟨(0, u.2) :: us ++ [(g', .word w)], by simp [ungap]⟩
  obtain ⟨vs, hvs⟩ := happ
  exact ⟨spell vs ++ List.replicate n ' ', by rw [hvs, spell_append, hspell, List.append_assoc]⟩

/-- Of several words, another one stands before the last. -/
theorem asWords_concat {ws : List (Nat × List Char)} {u : List (List Char)}
    (h : ws.map Prod.snd = u ++ [f]) (hlen : ws.length ≠ 1) :
    ∃ us g' w g, asWords ws = us ++ [(g', .word w), (g, .word f)] := by
  rcases List.eq_nil_or_concat' ws with rfl | ⟨ws, b, rfl⟩
  · cases u <;> cases h
  rcases List.eq_nil_or_concat' ws with rfl | ⟨ws, a, rfl⟩
  · exact absurd rfl hlen
  · rw [List.map_append] at h
    have hlast := (List.append_inj' h rfl).2
    refine ⟨asWords ws, a.1, a.2, b.1, ?_⟩
    rw [← (List.cons.inj hlast).1]
    simp [asWords]

/-- Where it is not, only qualifiers are. -/
theorem typePart_lost (hk : ¬ p.Kept) : p.stars = 0 ∧
    ∀ x ∈ tokenize (typePart p.core), x.isQualifier = true := by
  obtain ⟨u, f, v, hspec, hu, hf, htype, htok⟩ := core_tokens p
  simp only [Plain.Kept, Classical.not_imp, not_or] at hk
  obtain ⟨hname, hmarks, hlast, hone, htwo⟩ := hk
  have hstars : p.stars = 0 := by
    rw [TypeName.stars, hmarks]
    rfl
  refine ⟨hstars, ?_⟩
  have hrest : v.filter (· ≠ "const".toList) = [] := by
    rw [htype, List.length_cons] at htwo
    exact List.length_eq_zero_iff.mp (by omega)
  have hv : v = [] := by
    by_contra hne
    apply hlast
    rw [hspec, List.getLast?_append_of_ne_nil _ (List.cons_ne_nil f v),
      List.getLast?_cons_of_ne_nil hne, List.getLast?_eq_some_getLast hne]
    have hconst := List.filter_eq_nil_iff.mp hrest _ (List.getLast_mem hne)
    simpa using hconst
  subst hv
  have hfirst : f ≠ "void".toList := by
    rintro rfl
    have hstar := p.complete (typeWords_void htype)
    omega
  obtain ⟨us, g', w, g, hwords⟩ := asWords_concat hspec hone
  have hlex : p.lexemes = us ++ [(g', .word w), (g, .word f)] := by
    rw [Plain.lexemes, TypeName.lexemes, hmarks, hname, hwords, List.append_nil]
    exact List.append_nil _
  have hapart : p.lexemes.IsChain Apart := p.apart
  rw [hlex] at hapart
  obtain ⟨x, hx⟩ := spell_last_word hapart
  have hword := lexemes_word p (g, .word f) (by rw [hlex]; simp)
  have hbare : IsBare f := by
    refine ⟨hword.1, fun d hd => (isWord_char hword hd).1, star_not_mem hword, ?_⟩
    intro hmem
    simp only [List.mem_cons, List.not_mem_nil, or_false] at hmem
    rcases hmem with rfl | rfl | rfl | rfl
    · cases hf
    · cases hf
    · cases hf
    · exact hfirst rfl
  have hcore : p.core = x ++ ' ' :: f := by rw [Plain.core, hlex, hx]
  rw [hcore, typePart_bare hbare, tokenize_trim]
  rw [hcore, tokenize_space (by decide), tokenize_word hbare.1 hbare.2.1 hbare.2.2.1, hmarks, hname,
    hf] at htok
  have hq := (List.append_inj' htok rfl).1
  rw [hq]
  intro y hy
  obtain ⟨w, hw, rfl⟩ := List.mem_map.mp hy
  exact hu w hw

end Zrt.Codegen
