import Mathlib.Data.List.Chain
import Zrt.Codegen.Declarations

/-! What the tokenizer makes of a text, and of the type in front of a parameter's name. -/
namespace Zrt.Codegen
open Text

variable {a b s t w x y : List Char} {c : Char} {ts : Spaced}

theorem splitWhitespace_append (hc : isWhitespace c = true) :
    splitWhitespace (a ++ c :: b) = splitWhitespace a ++ splitWhitespace b := by
  rw [splitWhitespace, List.splitOnP_append_cons _ _ hc, List.filter_append]
  rfl

theorem splitWhitespace_word (hne : w ≠ []) (hw : ∀ c ∈ w, isWhitespace c = false) :
    splitWhitespace w = [w] := by
  rw [splitWhitespace, List.splitOnP_eq_singleton hw]
  simp [hne]

theorem spaceStars_append : spaceStars (a ++ b) = spaceStars a ++ spaceStars b :=
  List.flatMap_append

theorem spaceStars_eq_self (h : '*' ∉ a) : spaceStars a = a := by
  induction a with
  | nil => rfl
  | cons c a ih =>
    rw [List.mem_cons, not_or] at h
    rw [spaceStars, List.flatMap_cons, if_neg (Ne.symm h.1)]
    exact congrArg (c :: ·) (ih h.2)

theorem tokenize_space (hc : isWhitespace c = true) :
    tokenize (a ++ c :: b) = tokenize a ++ tokenize b := by
  have hstar : spaceStars (c :: b) = c :: spaceStars b := by
    rw [spaceStars, List.flatMap_cons, if_neg (by rintro rfl; cases hc)]
    rfl
  rw [tokenize, spaceStars_append, hstar, splitWhitespace_append hc, List.map_append]
  rfl

theorem tokenize_star : tokenize (a ++ '*' :: b) = tokenize a ++ .star :: tokenize b := by
  have hstar : spaceStars ('*' :: b) = ' ' :: (['*'] ++ ' ' :: spaceStars b) := rfl
  rw [tokenize, spaceStars_append, hstar, splitWhitespace_append (by decide),
    splitWhitespace_append (by decide), List.map_append, List.map_append]
  rfl

theorem tokenize_word (hne : w ≠ []) (hw : ∀ c ∈ w, isWhitespace c = false) (hs : '*' ∉ w) :
    tokenize w = [Tok.ofWord w] := by
  rw [tokenize, spaceStars_eq_self hs, splitWhitespace_word hne hw]
  rfl

theorem tokenize_blank_append (h : Blank a) : tokenize (a ++ b) = tokenize b := by
  induction a with
  | nil => rfl
  | cons c a ih =>
    obtain ⟨hc, ha⟩ := blank_cons.mp h
    have hspace : tokenize ([] ++ c :: (a ++ b)) = tokenize (a ++ b) := tokenize_space hc
    exact hspace.trans (ih ha)

theorem tokenize_append_blank (h : Blank b) : tokenize (a ++ b) = tokenize a := by
  cases b with
  | nil => rw [List.append_nil]
  | cons c b =>
    obtain ⟨hc, hb⟩ := blank_cons.mp h
    have hnil := tokenize_blank_append (b := []) hb
    rw [List.append_nil] at hnil
    rw [tokenize_space hc, hnil]
    exact List.append_nil _

theorem tokenize_trim (s : List Char) : tokenize (trim s) = tokenize s := by
  obtain ⟨u, v, h, hu, hv⟩ := exists_trim s
  conv_rhs => rw [h, tokenize_blank_append hu, tokenize_append_blank hv]

/-- A word ends where a blank or a star stands. -/
theorem tokenize_word_append (hne : w ≠ []) (hw : ∀ c ∈ w, isWhitespace c = false) (hs : '*' ∉ w)
    (ht : ∀ c ∈ t.head?, isWhitespace c = true ∨ c = '*') :
    tokenize (w ++ t) = Tok.ofWord w :: tokenize t := by
  cases t with
  | nil =>
    rw [List.append_nil, tokenize_word hne hw hs]
    rfl
  | cons c t =>
    rcases ht c rfl with hc | rfl
    · have htail : tokenize ([] ++ c :: t) = tokenize t := tokenize_space hc
      rw [tokenize_space hc, tokenize_word hne hw hs, ← htail]
      rfl
    · have htail : tokenize ([] ++ '*' :: t) = .star :: tokenize t := tokenize_star
      rw [tokenize_star, tokenize_word hne hw hs, ← htail]
      rfl

theorem ofWord_ne_star (h : '*' ∉ w) : Tok.ofWord w ≠ .star := by
  unfold Tok.ofWord
  split_ifs with hc hs he ht
  · exact fun h => by cases h
  · exact fun h => by cases h
  · exact fun h => by cases h
  · rw [ht] at h
    exact absurd List.mem_cons_self h
  · exact fun h => by cases h

/-- Each star is a token. -/
theorem count_tokenize (s : List Char) : (tokenize s).count .star = s.count '*' := by
  induction hn : s.length using Nat.strong_induction_on generalizing s with
  | _ n ih =>
    subst hn
    by_cases hs : '*' ∈ s
    · obtain ⟨a, b, rfl⟩ := List.append_of_mem hs
      rw [tokenize_star, List.count_append, List.count_append, List.count_cons_self,
        List.count_cons_self, ih a.length (by simp) a rfl, ih b.length (by simp; omega) b rfl]
    rw [List.count_eq_zero.mpr hs]
    by_cases hb : ∃ c ∈ s, isWhitespace c = true
    · obtain ⟨c, hc, hw⟩ := hb
      obtain ⟨a, b, rfl⟩ := List.append_of_mem hc
      rw [List.mem_append, List.mem_cons, not_or, not_or] at hs
      rw [tokenize_space hw, List.count_append, ih a.length (by simp) a rfl,
        ih b.length (by simp; omega) b rfl, List.count_eq_zero.mpr hs.1,
        List.count_eq_zero.mpr hs.2.2]
    · by_cases hne : s = []
      · subst hne
        rfl
      · rw [tokenize_word hne (fun c hc => Bool.eq_false_iff.mpr fun h => hb ⟨c, hc, h⟩) hs]
        exact List.count_eq_zero.mpr fun h => ofWord_ne_star hs (List.mem_singleton.mp h).symm

theorem wordChar_range (h : (c.isAlphanum || c = '_') = true) :
    (48 ≤ c.toNat ∧ c.toNat ≤ 57) ∨ (65 ≤ c.toNat ∧ c.toNat ≤ 90) ∨
      (97 ≤ c.toNat ∧ c.toNat ≤ 122) ∨ c.toNat = 95 := by
  have hchar : (((decide (65 ≤ c.val ∧ c.val ≤ 90)) ||
      (decide (97 ≤ c.val) && decide (c.val ≤ 122)) ||
      (decide (48 ≤ c.val) && decide (c.val ≤ 57))) || decide (c = '_')) = true := h
  simp only [Bool.or_eq_true, Bool.and_eq_true, decide_eq_true_eq] at hchar
  rcases hchar with ((⟨hl, hu⟩ | ⟨hl, hu⟩) | ⟨hl, hu⟩) | rfl
  · exact .inr (.inl ⟨UInt32.le_iff_toNat_le.mp hl, UInt32.le_iff_toNat_le.mp hu⟩)
  · exact .inr (.inr (.inl ⟨UInt32.le_iff_toNat_le.mp hl, UInt32.le_iff_toNat_le.mp hu⟩))
  · exact .inl ⟨UInt32.le_iff_toNat_le.mp hl, UInt32.le_iff_toNat_le.mp hu⟩
  · exact .inr (.inr (.inr rfl))

/-- No character of a word is a blank or a mark. -/
theorem isWord_char (hw : IsWord w) (hc : c ∈ w) :
    isWhitespace c = false ∧ c ∉ "*()[],".toList := by
  have hrange := wordChar_range (hw.2 c hc)
  constructor
  · rw [isWhitespace]
    simp only [Bool.or_eq_false_iff, List.contains_cons, List.contains_nil, beq_eq_false_iff_ne,
      Bool.and_eq_false_iff, decide_eq_false_iff_not, and_true]
    omega
  · intro hm
    have hmark : ∀ d ∈ "*()[],".toList, d.toNat = 42 ∨ d.toNat = 40 ∨ d.toNat = 41 ∨
        d.toNat = 91 ∨ d.toNat = 93 ∨ d.toNat = 44 := by decide
    have hmark := hmark c hm
    omega

theorem star_not_mem (hw : IsWord w) : '*' ∉ w := fun h => (isWord_char hw h).2 (by decide)

/-- The token of a lexeme. -/
def Lexeme.tok : Lexeme → Tok
  | .word w => Tok.ofWord w
  | .star => .star

theorem blank_replicate (n : Nat) : Blank (List.replicate n ' ') := by
  intro c hc
  rw [List.eq_of_mem_replicate hc]
  decide

theorem spell_cons (g : Nat) (l : Lexeme) :
    spell ((g, l) :: ts) = List.replicate g ' ' ++ (l.text ++ spell ts) := by
  rw [spell, List.flatMap_cons, List.append_assoc]
  rfl

/-- Behind a word comes a space or a star. -/
theorem spell_head (g : Nat) (ha : ((g, .word w) :: ts).IsChain Apart) :
    ∀ c ∈ (spell ts).head?, isWhitespace c = true ∨ c = '*' := by
  cases ts with
  | nil => exact fun c hc => by cases hc
  | cons u ts =>
    obtain ⟨g', l⟩ := u
    rw [spell_cons]
    intro c hc
    cases g' with
    | zero =>
      cases l with
      | word v =>
        have hpos := (List.isChain_cons_cons.mp ha).1 (by simp) (by simp)
        exact absurd hpos (Nat.lt_irrefl 0)
      | star => exact .inr (Option.some.inj hc).symm
    | succ g' => exact .inl (by rw [← Option.some.inj hc]; decide)

/-- Spaced lexemes are read back. -/
theorem tokenize_spell (hw : ∀ t ∈ ts, t.2.IsWord) (ha : ts.IsChain Apart) :
    tokenize (spell ts) = ts.map fun t => t.2.tok := by
  induction ts with
  | nil => rfl
  | cons t ts ih =>
    obtain ⟨g, l⟩ := t
    obtain ⟨hl, hts⟩ := List.forall_mem_cons.mp hw
    rw [spell_cons, tokenize_blank_append (blank_replicate g), List.map_cons, ← ih hts ha.tail]
    cases l with
    | word w =>
      exact tokenize_word_append hl.1 (fun c hc => (isWord_char hl hc).1) (star_not_mem hl)
        (spell_head g ha)
    | star => exact tokenize_star (a := [])

theorem spell_append (ts us : Spaced) : spell (ts ++ us) = spell ts ++ spell us :=
  List.flatMap_append

/-- Spaces are the only blanks of spelled lexemes, and stars their only marks. -/
theorem spell_char (hw : ∀ t ∈ ts, t.2.IsWord) (hc : c ∈ spell ts) :
    (isWhitespace c = true → c = ' ') ∧ c ∉ "()[],".toList := by
  obtain ⟨⟨g, l⟩, ht, hc⟩ := List.mem_flatMap.mp hc
  rcases List.mem_append.mp hc with hc | hc
  · obtain rfl := List.eq_of_mem_replicate hc
    exact ⟨fun _ => rfl, by decide⟩
  · cases l with
    | word w =>
      obtain ⟨hb, hm⟩ := isWord_char (hw _ ht) hc
      exact ⟨fun h => absurd (hb.symm.trans h) Bool.false_ne_true,
        fun h => hm (List.mem_cons_of_mem _ h)⟩
    | star =>
      obtain rfl := List.mem_singleton.mp hc
      exact ⟨fun h => absurd h (by decide), by decide⟩

theorem count_spell (hw : ∀ t ∈ ts, t.2.IsWord) :
    (spell ts).count '*' = (ts.map Prod.snd).count .star := by
  induction ts with
  | nil => rfl
  | cons t ts ih =>
    obtain ⟨g, l⟩ := t
    obtain ⟨hl, hts⟩ := List.forall_mem_cons.mp hw
    have hgap : (List.replicate g ' ').count '*' = 0 :=
      List.count_eq_zero.mpr fun h => by cases List.eq_of_mem_replicate h
    rw [spell_cons, List.count_append, List.count_append, ih hts, hgap, Nat.zero_add, List.map_cons]
    cases l with
    | word w =>
      rw [show (Lexeme.word w).text = w from rfl, List.count_eq_zero.mpr (star_not_mem hl),
        List.count_cons_of_ne (by simp), Nat.zero_add]
    | star =>
      rw [List.count_cons_self, Nat.add_comm]
      rfl

theorem text_concat {l : Lexeme} (hl : l.IsWord) :
    ∃ x c, l.text = x ++ [c] ∧ isWhitespace c = false := by
  cases l with
  | word w =>
    refine ⟨w.dropLast, w.getLast hl.1, (List.dropLast_append_getLast hl.1).symm, ?_⟩
    exact (isWord_char hl (List.getLast_mem hl.1)).1
  | star => exact ⟨[], '*', rfl, by decide⟩

theorem text_cons {l : Lexeme} (hl : l.IsWord) :
    ∃ c x, l.text = c :: x ∧ isWhitespace c = false := by
  cases l with
  | word w =>
    refine ⟨w.head hl.1, w.tail, (List.cons_head_tail hl.1).symm, ?_⟩
    exact (isWord_char hl (List.head_mem hl.1)).1
  | star => exact ⟨'*', [], rfl, by decide⟩

/-- Spelled lexemes end in a character that is no blank. -/
theorem spell_concat (hw : ∀ t ∈ ts, t.2.IsWord) (hne : ts ≠ []) :
    ∃ x c, spell ts = x ++ [c] ∧ isWhitespace c = false := by
  obtain ⟨us, ⟨g, l⟩, rfl⟩ : ∃ us t, ts = us ++ [t] :=
    ⟨ts.dropLast, ts.getLast hne, (List.dropLast_append_getLast hne).symm⟩
  obtain ⟨x, c, hx, hc⟩ := text_concat (hw (g, l) (by simp))
  refine ⟨spell us ++ (List.replicate g ' ' ++ x), c, ?_, hc⟩
  rw [spell_append, spell_cons, hx]
  simp [spell]

/-- The type in front of the name, or all. -/
def typePart (c : List Char) : List Char := ((splitParamName c).map Prod.fst).getD c

/-- A word that can be taken for a name. -/
def IsBare (y : List Char) : Prop :=
  y ≠ [] ∧ (∀ c ∈ y, isWhitespace c = false) ∧ '*' ∉ y ∧
    y ∉ ["const".toList, "enum".toList, "struct".toList, "void".toList]

theorem trim_of_not_blank (h : ∀ c ∈ y, isWhitespace c = false) : trim y = y :=
  trim_eq_self (fun c hc => h c (List.mem_of_head? hc)) fun c hc => h c (List.mem_of_getLast? hc)

theorem typePart_bare (h : IsBare y) : typePart (x ++ ' ' :: y) = trim x := by
  obtain ⟨hne, hb, hs, hk⟩ := h
  have hsplit : splitLast ' ' (x ++ ' ' :: y) = some (x, y) :=
    splitLast_eq_some.mpr ⟨rfl, fun h => by cases hb _ h⟩
  rw [typePart, splitParamName, hsplit, Option.bind_some]
  dsimp only
  rw [trim_of_not_blank hb, if_neg (by simp only [hne, hs, hk, or_self, not_false_eq_true])]
  rfl

/-- Only a bare word behind a space is taken off. -/
theorem typePart_cases (hs : ∀ c ∈ s, isWhitespace c = true → c = ' ')
    (hl : ∀ c ∈ s.getLast?, isWhitespace c = false) :
    typePart s = s ∨ ∃ x y, s = x ++ ' ' :: y ∧ IsBare y ∧ typePart s = trim x := by
  cases h : splitLast ' ' s with
  | none =>
    left
    rw [typePart, splitParamName, h]
    rfl
  | some p =>
    obtain ⟨x, y⟩ := p
    obtain ⟨rfl, hy⟩ := splitLast_eq_some.mp h
    have hb : ∀ c ∈ y, isWhitespace c = false := by
      intro c hc
      rw [Bool.eq_false_iff]
      intro hw
      exact hy (hs c (by simp [hc]) hw ▸ hc)
    by_cases hbare : IsBare y
    · exact .inr ⟨x, y, rfl, hbare, typePart_bare hbare⟩
    left
    have hne : y ≠ [] := by
      rintro rfl
      cases hl ' ' (by simp)
    rw [typePart, splitParamName, h, Option.bind_some]
    dsimp only
    rw [trim_of_not_blank hb, if_pos]
    · rfl
    · by_contra hn
      simp only [not_or] at hn
      exact hbare ⟨hne, hb, hn.2.1, hn.2.2⟩

/-- No star is taken off with a name. -/
theorem count_typePart (s : List Char) : (typePart s).count '*' = s.count '*' := by
  rw [typePart, splitParamName]
  cases h : splitLast ' ' s with
  | none => rfl
  | some p =>
    obtain ⟨x, y⟩ := p
    obtain ⟨rfl, -⟩ := splitLast_eq_some.mp h
    have htrim : ∀ z, (trim z).count '*' = z.count '*' := by
      intro z
      obtain ⟨u, v, hz, hu, hv⟩ := exists_trim z
      have hzero : ∀ {b : List Char}, Blank b → b.count '*' = 0 :=
        fun hb => List.count_eq_zero.mpr fun h => by cases hb _ h
      conv_rhs => rw [hz, List.count_append, List.count_append, hzero hu, hzero hv]
      omega
    rw [Option.bind_some]
    dsimp only
    split
    · rfl
    · rename_i hn
      simp only [not_or] at hn
      have hy : y.count '*' = 0 := by
        rw [← htrim]
        exact List.count_eq_zero.mpr hn.2.1
      rw [Option.map_some, Option.getD_some, htrim, List.count_append,
        List.count_cons_of_ne (by decide), hy]
      rfl

end Zrt.Codegen
