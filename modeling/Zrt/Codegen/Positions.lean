import Zrt.Codegen.Fields

/-! The positions of the members of an API struct: which structs are read member by member. -/
namespace Zrt.Codegen
open Text

/-- A member declaration without its semicolon, as preprocessed: it has no comment, nests no
semicolon and does not end the struct. -/
structure Member where
  text : List Char
  declares : ¬ Blank text
  terminated : ';' ∉ text
  preprocessed : ¬ "//".toList <:+: text
  inside : ¬ "\n\x7d".toList <:+ text

def bodyText (members : List Member) : List Char := members.flatMap fun m => m.text ++ [';']

/-- The text of a struct between others. -/
def structText (before structName body behind : List Char) : List Char :=
  before ++ (needle structName ++ (body ++ ("\n\x7d;".toList ++ behind)))

/-- The lines of a text without their margins, one behind the other. -/
def joinLines (ls : List (List Char)) : List Char :=
  ls.flatMap fun raw => if trim raw = [] then [] else trim raw ++ [' ']

/-- The member on one line. -/
def Member.line (m : Member) : List Char := trim (joinLines ((m.text ++ [';']).splitOn '\n'))

/-- The member starts on a line of its own. -/
def Member.StartsLine (m : Member) : Prop := ∃ b s, m.text = b ++ '\n' :: s ∧ Blank b

/-- The line declares a pointer to a function: its first parenthesis encloses `*` and a name, and
the next is closed in turn. -/
def FnPointer (line : List Char) : Prop :=
  ∃ ret blank name between params rest,
    line = ret ++ '(' :: (blank ++ '*' :: (name ++ ')' :: (between ++ '(' ::
      (params ++ ')' :: rest)))) ∧
    '(' ∉ ret ∧ Blank blank ∧ ')' ∉ name ∧ '(' ∉ between ∧ Balanced params

/-- Unless the generator aborts, there is one field for each member, in order, at its position, and
so in what is emitted. -/
def OneFieldEach (members : List Member) (result : Option (List Field)) : Prop :=
  ∀ fields, result = some fields →
    fields.map Field.idx = List.range members.length ∧
    fields.map Field.cSig = members.map (fun m => m.line.rdropWhile (· = ';')) ∧
    ∀ rustName, emitSubApi rustName fields =
      subApiHead rustName ++ String.join (fields.map subApiMember) ++ "\x7d\n"

/-- The text declares the struct of the name by these members first, each on lines of its own and a
plain function pointer. -/
def LaidOut (text structName : List Char) (members : List Member) : Prop :=
  ∃ before blank behind, text = structText before structName (bodyText members ++ blank) behind ∧
    Blank blank ∧ (∀ u v, text = u ++ (needle structName ++ v) → before.length ≤ u.length) ∧
    (∀ m ∈ members.tail, m.StartsLine) ∧ ∀ m ∈ members, FnPointer m.line

variable {s : List Char × List Field} {raw raw' body line behind : List Char}
  {fields : List Field} {m : Member} {members : List Member} {ls : List (List Char)}

theorem readLine_blank (h : Blank raw) : readLine s raw = s := by
  rw [readLine]
  exact if_pos (.inl (trim_eq_nil.mpr h))

theorem readLine_trim (h : trim raw = trim raw') : readLine s raw = readLine s raw' := by
  rw [readLine, readLine, h]

/-- How the text is cut into lines does not matter to the loop. -/
theorem foldl_lines :
    (lines body).foldl readLine s = (body.splitOn '\n').foldl readLine s := by
  obtain ⟨ls, l, h, -⟩ := splitOn_append body
  rw [lines, h, List.dropLast_concat, List.getLast?_concat, List.foldl_append, List.foldl_append,
    List.foldl_map]
  have hcr : ∀ s raw,
      readLine s (if raw.getLast? = some '\r' then raw.dropLast else raw) = readLine s raw := by
    intro s raw
    split
    · rename_i hr
      obtain ⟨raw, rfl⟩ := List.getLast?_eq_some_iff.mp hr
      rw [List.dropLast_concat]
      exact readLine_trim (trim_append_right (by simp [Blank]; decide)).symm
    · rfl
  simp only [hcr]
  cases l with
  | nil => exact (readLine_blank blank_nil).symm
  | cons c l => rfl

/-- A declaration ends where a line ends in a semicolon. -/
def Closes (raw : List Char) : Prop := (trim raw).getLast? = some ';'

instance : DecidablePred Closes := fun raw =>
  inferInstanceAs (Decidable ((trim raw).getLast? = some ';'))

theorem length_pushField (fields : List Field) (line : List Char) :
    (pushField fields line).length ≤ fields.length + 1 := by
  unfold pushField
  split
  · rw [List.length_append, List.length_singleton]
  · exact Nat.le_succ _

/-- No line gives more than one field, and only those that end in a semicolon do. -/
theorem length_foldl_readLine (s : List Char × List Field) (ls : List (List Char)) :
    (ls.foldl readLine s).2.length ≤ s.2.length + ls.countP fun raw => Closes raw := by
  induction ls generalizing s with
  | nil => exact Nat.le_refl _
  | cons raw ls ih =>
    rw [List.foldl_cons, List.countP_cons]
    refine Nat.le_trans (ih _) ?_
    have hstep : (readLine s raw).2.length ≤ s.2.length + if Closes raw then 1 else 0 := by
      unfold readLine
      dsimp only
      split
      · exact Nat.le_add_right ..
      by_cases h : (trim raw).getLast? = some ';'
      · rw [if_pos h, if_pos (show Closes raw from h)]
        exact length_pushField ..
      · rw [if_neg h]
        exact Nat.le_add_right ..
    simp only [decide_eq_true_eq]
    omega

/-- The semicolons with nothing behind them on their line. -/
def closers : List Char → Nat
  | [] => 0
  | c :: cs =>
    (if c = ';' ∧ Blank (cs.takeWhile (· ≠ '\n')) then 1 else 0) + closers cs

theorem closes_concat {x y : List Char} {c : Char} (hc : isWhitespace c = false) (hy : Blank y) :
    Closes (x ++ c :: y) ↔ c = ';' := by
  rw [Closes, getLast_trim hc hy, Option.some_inj]

theorem not_closes_of_blank (h : Blank raw) : ¬ Closes raw := by
  rw [Closes, trim_eq_nil.mpr h]
  exact fun h => by cases h

theorem closes_cons {c : Char} : Closes (c :: raw) ↔ (c = ';' ∧ Blank raw) ∨ Closes raw := by
  rcases blank_or_concat raw with hb | ⟨x, d, y, rfl, hd, hy⟩
  · cases hc : isWhitespace c with
    | false =>
      rw [← List.nil_append (c :: raw), closes_concat hc hb, and_iff_left hb,
        or_iff_left (not_closes_of_blank hb)]
    | true =>
      refine iff_of_false (not_closes_of_blank (blank_cons.mpr ⟨hc, hb⟩)) ?_
      rintro (⟨rfl, -⟩ | h)
      · cases hc
      · exact not_closes_of_blank hb h
  · have hn : ¬ Blank (x ++ d :: y) := fun h => by
      rw [h d (by simp)] at hd
      cases hd
    rw [← List.cons_append, closes_concat hd hy, closes_concat hd hy]
    simp [hn]

theorem countP_closes (body : List Char) :
    (body.splitOn '\n').countP (fun raw => Closes raw) = closers body := by
  induction body with
  | nil => decide
  | cons c body ih =>
    obtain ⟨ls, h⟩ := splitOn_head body
    rw [closers, ← ih, splitOn_cons, h]
    generalize body.takeWhile (· ≠ '\n') = l
    by_cases hc : c = '\n'
    · subst hc
      rw [if_pos rfl, if_neg (fun h => by cases h.1), List.countP_cons_of_neg (by decide),
        Nat.zero_add]
    · rw [if_neg hc, List.modifyHead_cons, List.countP_cons, List.countP_cons]
      simp only [decide_eq_true_eq, closes_cons]
      by_cases hb : Blank l
      · simp [hb, not_closes_of_blank hb, Nat.add_comm]
      · simp [hb]

theorem closers_append (h : ';' ∉ body) : closers (body ++ behind) = closers behind := by
  induction body with
  | nil => rfl
  | cons c body ih =>
    rw [List.mem_cons, not_or] at h
    rw [List.cons_append, closers, ih h.2, if_neg (fun hc => h.1 hc.1.symm), Nat.zero_add]

theorem not_mem_of_blank (h : Blank body) : ';' ∉ body := fun hc => by cases h _ hc

/-- Nothing else stands on the line before a member that starts one. -/
theorem startsLine_iff : m.StartsLine ↔
    Blank ((m.text ++ ';' :: behind).takeWhile (· ≠ '\n')) := by
  constructor
  · rintro ⟨b, s, h, hb⟩
    rw [h, List.append_assoc, List.takeWhile_append]
    split
    · rw [List.cons_append, List.takeWhile_cons_of_neg (by simp), List.append_nil]
      exact hb
    · exact fun c hc => hb c ((List.takeWhile_sublist _).subset hc)
  · intro h
    by_cases hn : '\n' ∈ m.text
    · obtain ⟨b, s, he, hb⟩ := List.eq_append_cons_of_mem hn
      refine ⟨b, s, he, fun c hc => h c ?_⟩
      rw [he, List.append_assoc, List.takeWhile_append_of_pos]
      · exact List.mem_append_left _ hc
      · intro d hd
        simpa using fun he : d = '\n' => hb (he ▸ hd)
    · have hsemi := h ';' (by
        rw [List.takeWhile_append_of_pos, List.takeWhile_cons_of_pos (by decide)]
        · simp
        · intro d hd
          simpa using fun he : d = '\n' => hn (he ▸ hd))
      cases hsemi

theorem bodyText_cons : bodyText (m :: members) ++ behind =
    m.text ++ ';' :: (bodyText members ++ behind) := by
  simp [bodyText]

/-- At most as many lines end in a semicolon as there are members, and fewer when two share one. -/
theorem closers_bodyText (hb : Blank behind) :
    closers (bodyText members ++ behind) ≤ members.length ∧
      (members.length ≤ closers (bodyText members ++ behind) →
        ∀ m ∈ members.tail, m.StartsLine) := by
  induction members with
  | nil =>
    have hzero : closers (behind ++ []) = closers [] := closers_append (not_mem_of_blank hb)
    rw [List.append_nil] at hzero
    exact ⟨Nat.le_of_eq hzero, fun _ m hm => by cases hm⟩
  | cons m members ih =>
    rw [bodyText_cons, closers_append m.terminated, closers, List.length_cons, List.tail_cons]
    refine ⟨?_, fun h => ?_⟩
    · split <;> omega
    split at h
    · rename_i hblank
      cases members with
      | nil => exact fun m hm => by cases hm
      | cons m' members =>
        rw [bodyText_cons] at hblank
        intro k hk
        rcases List.mem_cons.mp hk with rfl | hk
        · exact startsLine_iff.mpr hblank.2
        · exact ih.2 (by omega) k hk
    · omega

theorem foldl_readLine_open {buf : List Char}
    (h : ∀ raw ∈ ls, ';' ∉ raw ∧ ¬ "//".toList <:+: raw) :
    ls.foldl readLine (buf, fields) = (buf ++ joinLines ls, fields) := by
  induction ls generalizing buf with
  | nil => simp [joinLines]
  | cons raw ls ih =>
    obtain ⟨hraw, hls⟩ := List.forall_mem_cons.mp h
    obtain ⟨u, v, he, -⟩ := exists_trim raw
    have hstep : readLine (buf, fields) raw = (buf ++ joinLines [raw], fields) := by
      have hsub : trim raw <:+: raw := ⟨u, v, by rw [List.append_assoc, ← he]⟩
      unfold readLine
      by_cases hb : trim raw = []
      · simp [joinLines, hb]
      rw [if_neg, if_neg]
      · simp [joinLines, hb]
      · exact fun hl => hraw.1 (hsub.subset (List.mem_of_getLast? hl))
      · rintro (hn | hc)
        · exact hb hn
        · exact hraw.2 (hc.isInfix.trans hsub)
    rw [List.foldl_cons, hstep, ih hls]
    simp [joinLines]

theorem foldl_readLine_blank (h : ∀ raw ∈ ls, Blank raw) : ls.foldl readLine s = s := by
  induction ls with
  | nil => rfl
  | cons raw ls ih =>
    rw [List.foldl_cons, readLine_blank (h raw List.mem_cons_self)]
    exact ih fun raw hr => h raw (List.mem_cons_of_mem _ hr)

theorem comment_concat (h : "//".toList <:+: body ++ [';']) : "//".toList <:+: body := by
  rcases List.infix_concat_iff.mp h with ⟨t, ht⟩ | h
  · have hlast := congrArg List.getLast? ht
    simp at hlast
  · exact h

theorem pushField_trim : pushField fields (trim line) = pushField fields line := by
  rw [pushField, pushField, trim_trim]

/-- A member with nothing behind it on its line is read alone. -/
theorem foldl_readLine_member (hb : Blank (behind.takeWhile (· ≠ '\n'))) :
    ((m.text ++ ';' :: behind).splitOn '\n').foldl readLine ([], fields) =
      (behind.splitOn '\n').foldl readLine ([], pushField fields m.line) := by
  obtain ⟨ls, l, hm, happ⟩ := splitOn_append m.text
  obtain ⟨rs, hr⟩ := splitOn_head behind
  have hlines : m.line = trim (joinLines (ls ++ [l ++ [';']])) := by
    rw [Member.line, happ [';'] [';'] [] rfl]
  have hopen : ∀ raw ∈ ls ++ [l], ';' ∉ raw ∧ ¬ "//".toList <:+: raw := by
    intro raw hraw
    have hin := infix_of_mem_splitOn (hm ▸ hraw)
    exact ⟨fun h => m.terminated (hin.subset h), fun h => m.preprocessed (h.trans hin)⟩
  have hlast : readLine (joinLines ls, fields) (l ++ ';' :: behind.takeWhile (· ≠ '\n')) =
      ([], pushField fields m.line) := by
    have htrim : trim (l ++ ';' :: behind.takeWhile (· ≠ '\n')) = trim (l ++ [';']) := by
      rw [← List.singleton_append, ← List.append_assoc, trim_append_right hb]
    have hsemi : (trim (l ++ [';'])).getLast? = some ';' := getLast_trim (by decide) blank_nil
    have hne : trim (l ++ [';']) ≠ [] := fun h => by
      rw [h] at hsemi
      cases hsemi
    rw [readLine_trim (htrim.trans (trim_trim _).symm), readLine, trim_trim, if_neg, if_pos hsemi,
      ← pushField_trim, hlines]
    · simp [joinLines, hne]
    · rintro (h | h)
      · exact hne h
      · obtain ⟨u, v, he, -⟩ := exists_trim (l ++ [';'])
        have hsub : trim (l ++ [';']) <:+: l ++ [';'] := ⟨u, v, by rw [List.append_assoc, ← he]⟩
        exact (hopen l (by simp)).2 (comment_concat (h.isInfix.trans hsub))
  have hsplit : (m.text ++ ';' :: behind).splitOn '\n' =
      ls ++ (l ++ ';' :: behind.takeWhile (· ≠ '\n')) :: rs := by
    apply happ
    rw [splitOn_cons, if_neg (by decide), hr, List.modifyHead_cons]
  have hfold : ls.foldl readLine ([], fields) = (joinLines ls, fields) :=
    foldl_readLine_open fun raw h => hopen raw (List.mem_append_left _ h)
  rw [hsplit, List.foldl_append, hfold, List.foldl_cons, hlast, hr, List.foldl_cons,
    readLine_blank hb]

theorem foldl_readLine_members (hb : Blank behind) (hm : ∀ m ∈ members.tail, m.StartsLine) :
    ((bodyText members ++ behind).splitOn '\n').foldl readLine ([], fields) =
      ([], (members.map Member.line).foldl pushField fields) := by
  induction members generalizing fields with
  | nil =>
    apply foldl_readLine_blank
    intro raw hraw c hc
    exact hb c ((infix_of_mem_splitOn hraw).subset hc)
  | cons m members ih =>
    rw [bodyText_cons, foldl_readLine_member, ih, List.map_cons, List.foldl_cons]
    · exact fun k hk => hm k (List.mem_of_mem_tail hk)
    · cases members with
      | nil => exact fun c hc => hb c ((List.takeWhile_sublist _).subset hc)
      | cons m' members =>
        rw [bodyText_cons]
        exact startsLine_iff.mp (hm m' List.mem_cons_self)

theorem parseField_isSome : (parseField line).isSome ↔ FnPointer (trim line) := by
  rw [Option.isSome_iff_exists]
  constructor
  · rintro ⟨f, h⟩
    unfold parseField at h
    obtain ⟨⟨ret, inner⟩, hopen, h⟩ := Option.bind_eq_some_iff.mp h
    obtain ⟨inner', hstar, h⟩ := Option.bind_eq_some_iff.mp h
    obtain ⟨⟨name, after⟩, hparen, h⟩ := Option.bind_eq_some_iff.mp h
    obtain ⟨⟨between, rest⟩, hnext, h⟩ := Option.bind_eq_some_iff.mp h
    obtain ⟨n, hclose, -⟩ := Option.map_eq_some_iff.mp h
    obtain ⟨params, rest', rfl, -, hbal⟩ := matchClose_eq_some.mp hclose
    obtain ⟨hline, hret⟩ := splitFirst_singleton.mp hopen
    obtain ⟨rfl, hname⟩ := splitFirst_singleton.mp hparen
    obtain ⟨rfl, hbetween⟩ := splitFirst_singleton.mp hnext
    refine ⟨ret, inner.takeWhile isWhitespace, name, between, params, rest', ?_, hret,
      fun c hc => List.mem_takeWhile_imp hc, hname, hbetween, hbal⟩
    rw [hline, ← stripPrefix_eq_some.mp hstar, trimStart, List.takeWhile_append_dropWhile]
  · rintro ⟨ret, blank, name, between, params, rest, hline, hret, hblank, hname, hbetween, hbal⟩
    have hstar : ∀ s, stripPrefix '*' (trimStart (blank ++ '*' :: s)) = some s := fun s => by
      rw [trimStart_append hblank, trimStart_cons (by decide), stripPrefix_eq_some]
    have hclose : matchCloseParen (params ++ ')' :: rest) = some params.length :=
      matchClose_eq_some.mpr ⟨params, rest, rfl, rfl, hbal⟩
    unfold parseField
    dsimp only
    rw [splitFirst_singleton.mpr ⟨hline, hret⟩, Option.bind_some, hstar, Option.bind_some,
      splitFirst_singleton.mpr ⟨rfl, hname⟩, Option.bind_some,
      splitFirst_singleton.mpr ⟨rfl, hbetween⟩, Option.bind_some, hclose]
    exact ⟨_, rfl⟩

theorem parseField_cSig {f : Field} (h : parseField line = some f) :
    f.cSig = (trim line).rdropWhile (· = ';') := by
  unfold parseField at h
  obtain ⟨⟨ret, inner⟩, -, h⟩ := Option.bind_eq_some_iff.mp h
  obtain ⟨inner', -, h⟩ := Option.bind_eq_some_iff.mp h
  obtain ⟨⟨name, after⟩, -, h⟩ := Option.bind_eq_some_iff.mp h
  obtain ⟨⟨between, rest⟩, -, h⟩ := Option.bind_eq_some_iff.mp h
  obtain ⟨n, -, rfl⟩ := Option.map_eq_some_iff.mp h
  rfl

/-- Declarations that all parse are one field each. -/
theorem foldl_pushField (fields : List Field) (lines : List (List Char))
    (h : ∀ line ∈ lines, FnPointer (trim line)) :
    (lines.foldl pushField fields).map Field.idx =
        fields.map Field.idx ++ List.range' fields.length lines.length ∧
      (lines.foldl pushField fields).map Field.cSig =
        fields.map Field.cSig ++ lines.map fun line => (trim line).rdropWhile (· = ';') := by
  induction lines generalizing fields with
  | nil => simp
  | cons line lines ih =>
    obtain ⟨hline, hlines⟩ := List.forall_mem_cons.mp h
    rw [← trim_trim, ← parseField_isSome] at hline
    obtain ⟨f, hf⟩ := Option.isSome_iff_exists.mp hline
    have hpush : pushField fields line = fields ++ [{ f with idx := fields.length }] := by
      rw [pushField, hf]
    have hsig := parseField_cSig hf
    rw [trim_trim] at hsig
    obtain ⟨hidx, hcSig⟩ := ih (pushField fields line) hlines
    rw [List.foldl_cons, hidx, hcSig, hpush]
    simp [hsig, List.range'_succ]

theorem length_foldl_pushField (fields : List Field) (lines : List (List Char)) :
    (lines.foldl pushField fields).length ≤ fields.length + lines.length := by
  induction lines generalizing fields with
  | nil => exact Nat.le_refl _
  | cons line lines ih =>
    have hpush := length_pushField fields line
    have htail := ih (pushField fields line)
    rw [List.foldl_cons, List.length_cons]
    omega

/-- With a field for each, all declarations parse. -/
theorem fnPointer_of_length (fields : List Field) (lines : List (List Char))
    (h : fields.length + lines.length ≤ (lines.foldl pushField fields).length) :
    ∀ line ∈ lines, FnPointer (trim line) := by
  induction lines generalizing fields with
  | nil => exact fun line hl => by cases hl
  | cons line lines ih =>
    rw [List.foldl_cons, List.length_cons] at h
    have htail := length_foldl_pushField (pushField fields line) lines
    have hpush := length_pushField fields line
    refine List.forall_mem_cons.mpr ⟨?_, ih (pushField fields line) (by omega)⟩
    by_contra hn
    rw [← trim_trim, ← parseField_isSome, Option.not_isSome_iff_eq_none] at hn
    have hsame : pushField fields line = fields := by rw [pushField, hn]
    rw [hsame] at h htail
    omega

theorem emitSubApi_eq (rustName : String) (fields : List Field) : emitSubApi rustName fields =
    subApiHead rustName ++ String.join (fields.map subApiMember) ++ "\x7d\n" := by
  rw [emitSubApi]
  generalize subApiHead rustName = head
  induction fields generalizing head with
  | nil => simp
  | cons f fields ih =>
    rw [List.foldl_cons, ih, List.map_cons, String.join_cons, String.append_assoc,
      String.append_assoc, String.append_assoc, String.append_assoc]

/-- The struct closes in no member: its semicolon would be the member's. -/
theorem not_close_member (m : Member) {u v y : List Char} (h : m.text ++ [';'] = u ++ v)
    (hv : v ≠ []) : ¬ "\n\x7d;".toList <+: v ++ y := by
  rcases List.eq_nil_or_concat' v with rfl | ⟨v, c, rfl⟩
  · exact absurd rfl hv
  rw [← List.append_assoc] at h
  obtain ⟨htext, hc⟩ := List.append_inj' h rfl
  obtain rfl := (List.cons.inj hc).1
  rintro ⟨w, hw⟩
  have hw : '\n' :: '\x7d' :: ';' :: w = v ++ [';'] ++ y := hw
  rcases v with - | ⟨a, - | ⟨b, - | ⟨c, v⟩⟩⟩
  · cases (List.cons.inj hw).1
  · cases (List.cons.inj (List.cons.inj hw).2).1
  · simp only [List.cons_append, List.nil_append, List.cons.injEq] at hw
    obtain ⟨rfl, rfl, -⟩ := hw
    exact m.inside ⟨u, htext.symm⟩
  · obtain ⟨rfl, -⟩ := List.cons.inj (List.cons.inj (List.cons.inj hw).2).2
    exact m.terminated (by rw [htext]; simp)

theorem not_close_blank {u v blank : List Char} (hb : Blank blank) (h : blank = u ++ v)
    (hv : v ≠ []) : ¬ "\n\x7d;".toList <+: v ++ ("\n\x7d;".toList ++ behind) := by
  rintro ⟨w, hw⟩
  have hw : '\n' :: '\x7d' :: ';' :: w = v ++ '\n' :: '\x7d' :: ';' :: behind := hw
  rcases v with - | ⟨a, - | ⟨b, v⟩⟩
  · exact hv rfl
  · cases (List.cons.inj (List.cons.inj hw).2).1
  · obtain ⟨rfl, -⟩ := List.cons.inj (List.cons.inj hw).2
    cases hb '\x7d' (by rw [h]; simp)

/-- The struct closes behind its members. -/
theorem splitFirst_close {blank : List Char} (hb : Blank blank) :
    splitFirst "\n\x7d;".toList (bodyText members ++ blank ++ ("\n\x7d;".toList ++ behind)) =
      some (bodyText members ++ blank, behind) := by
  induction members with
  | nil =>
    have hclose : splitFirst "\n\x7d;".toList ("\n\x7d;".toList ++ behind) = some ([], behind) :=
      splitFirst_eq_some.mpr ⟨rfl, fun _ _ _ => Nat.zero_le _⟩
    have hblank : bodyText [] ++ blank = blank := rfl
    rw [hblank, splitFirst_append fun u v h hv => not_close_blank hb h hv, hclose]
    exact congrArg (fun x => some (x, behind)) (List.append_nil blank)
  | cons m members ih =>
    have hcons : bodyText (m :: members) ++ blank =
        (m.text ++ [';']) ++ (bodyText members ++ blank) := by
      rw [bodyText_cons, List.append_assoc, List.singleton_append]
    rw [hcons, List.append_assoc, splitFirst_append fun u v h hv => not_close_member m h hv, ih]
    rfl

/-- The code reads the members of the first struct of the name. -/
theorem parseApiStruct_structText {before structName blank : List Char} (hb : Blank blank)
    (hfirst : ∀ u v, structText before structName (bodyText members ++ blank) behind =
      u ++ (needle structName ++ v) → before.length ≤ u.length) :
    parseApiStruct (structText before structName (bodyText members ++ blank) behind) structName =
      some (((bodyText members ++ blank).splitOn '\n').foldl readLine ([], [])).2 := by
  have hfind : splitFirst (needle structName)
      (structText before structName (bodyText members ++ blank) behind) =
        some (before, bodyText members ++ blank ++ ("\n\x7d;".toList ++ behind)) :=
    splitFirst_eq_some.mpr ⟨rfl, hfirst⟩
  rw [parseApiStruct, hfind, Option.bind_some]
  dsimp only
  rw [splitFirst_close hb, Option.map_some, foldl_lines]

/-- Members on lines of their own that are plain function pointers are read one by one. -/
theorem foldl_members {blank : List Char} (hb : Blank blank)
    (hm : ∀ m ∈ members.tail, m.StartsLine) (hall : ∀ m ∈ members, FnPointer m.line) :
    ((((bodyText members ++ blank).splitOn '\n').foldl readLine ([], [])).2).map Field.idx =
        List.range members.length ∧
      ((((bodyText members ++ blank).splitOn '\n').foldl readLine ([], [])).2).map Field.cSig =
        members.map fun m => m.line.rdropWhile (· = ';') := by
  have hline : ∀ m : Member, trim m.line = m.line := fun m => trim_trim _
  rw [foldl_readLine_members hb hm]
  obtain ⟨hidx, hcSig⟩ := foldl_pushField [] (members.map Member.line) (by
    intro line hl
    obtain ⟨m, hmem, rfl⟩ := List.mem_map.mp hl
    rw [hline]
    exact hall m hmem)
  refine ⟨?_, ?_⟩
  · rw [hidx, List.length_map, List.range_eq_range']
    rfl
  · rw [hcSig, List.map_map]
    simp [hline]

/-- What is read of a struct that is laid out so. -/
theorem LaidOut.parsed {text structName : List Char} (h : LaidOut text structName members) :
    ∃ fields, parseApiStruct text structName = some fields ∧
      fields.map Field.cSig = members.map fun m => m.line.rdropWhile (· = ';') := by
  obtain ⟨before, blank, behind, rfl, hb, hfirst, hm, hall⟩ := h
  exact ⟨_, parseApiStruct_structText hb hfirst, (foldl_members hb hm hall).2⟩

/-- When a struct is read member by member: if no two members share a line, and each is a plain
function pointer. -/
theorem one_field_each (before structName blank behind : List Char) (members : List Member)
    (hb : Blank blank)
    (hfirst : ∀ u v, structText before structName (bodyText members ++ blank) behind =
      u ++ (needle structName ++ v) → before.length ≤ u.length) :
    OneFieldEach members (parseApiStruct
      (structText before structName (bodyText members ++ blank) behind) structName) ↔
      (∀ m ∈ members.tail, m.StartsLine) ∧ ∀ m ∈ members, FnPointer m.line := by
  have hline : ∀ m : Member, trim m.line = m.line := fun m => trim_trim _
  rw [parseApiStruct_structText hb hfirst]
  constructor
  · intro h
    obtain ⟨hidx, -⟩ := h _ rfl
    have hlen := congrArg List.length hidx
    rw [List.length_map, List.length_range] at hlen
    have hupper := length_foldl_readLine ([], []) ((bodyText members ++ blank).splitOn '\n')
    rw [countP_closes, hlen, List.length_nil, Nat.zero_add] at hupper
    have hm := (closers_bodyText hb).2 hupper
    rw [foldl_readLine_members hb hm] at hlen
    have hall := fnPointer_of_length [] (members.map Member.line)
      (by rw [hlen, List.length_nil, List.length_map, Nat.zero_add])
    refine ⟨hm, fun m hmem => ?_⟩
    rw [← hline]
    exact hall _ (List.mem_map_of_mem hmem)
  · rintro ⟨hm, hall⟩ fields hf
    obtain rfl := Option.some.inj hf
    obtain ⟨hidx, hcSig⟩ := foldl_members hb hm hall
    exact ⟨hidx, hcSig, fun rustName => emitSubApi_eq rustName _⟩

/-- A data member. -/
def versionMember : Member where
  text := "\n  uint32_t version".toList
  declares := by decide
  terminated := by decide
  preprocessed := by decide
  inside := by decide

/-- A function pointer with a callback. -/
def eachMember : Member where
  text := "\n  void (* Each)(void (*fn)(void*, size_t),\n    void* state)".toList
  declares := by decide
  terminated := by decide
  preprocessed := by decide
  inside := by decide

theorem one_field_each_callback : OneFieldEach [eachMember, eachMember] (parseApiStruct
    (structText [] "OrtEpApi".toList (bodyText [eachMember, eachMember] ++ []) [])
    "OrtEpApi".toList) := by
  refine (one_field_each [] _ [] [] [eachMember, eachMember] blank_nil
    fun _ _ _ => Nat.zero_le _).mpr ⟨?_, ?_⟩
  · intro m hm
    obtain rfl := List.mem_singleton.mp hm
    exact ⟨[], _, rfl, blank_nil⟩
  · intro m hm
    obtain rfl : m = eachMember := by simpa using hm
    exact ⟨"void ".toList, [], " Each".toList, [], "void (*fn)(void*, size_t), void* state".toList,
      ";".toList, rfl, by decide, blank_nil, by decide, by decide, rfl⟩

/-- A function pointer behind another member on its line. -/
def runMember : Member where
  text := " void (*Run)(void)".toList
  declares := by decide
  terminated := by decide
  preprocessed := by decide
  inside := by decide

theorem not_oneFieldEach {n : Nat} {result : Option (List Field)}
    (h : result.map List.length = some n) (hn : n ≠ members.length) :
    ¬ OneFieldEach members result := by
  intro hone
  obtain ⟨fields, hf, rfl⟩ := Option.map_eq_some_iff.mp h
  have hlen := congrArg List.length (hone fields hf).1
  rw [List.length_map, List.length_range] at hlen
  exact hn hlen

theorem one_field_each_fails :
    (¬ OneFieldEach [versionMember, eachMember] (parseApiStruct
      (structText [] "OrtEpApi".toList (bodyText [versionMember, eachMember] ++ []) [])
      "OrtEpApi".toList)) ∧
    ¬ OneFieldEach [eachMember, runMember] (parseApiStruct
      (structText [] "OrtEpApi".toList (bodyText [eachMember, runMember] ++ []) [])
      "OrtEpApi".toList) := by
  constructor
  · apply not_oneFieldEach (n := 1)
    · decide
    · decide
  · apply not_oneFieldEach (n := 1)
    · decide
    · decide

end Zrt.Codegen
