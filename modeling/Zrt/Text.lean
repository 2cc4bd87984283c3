import Mathlib.Data.List.DropRight
import Mathlib.Data.List.Infix

/-! Text as lists of characters: blanks, lines, occurrences and nested parentheses. -/
namespace Text

/-- The characters with the property White_Space. -/
def isWhitespace (c : Char) : Bool :=
  [0x20, 0x85, 0xA0, 0x1680, 0x2028, 0x2029, 0x202F, 0x205F, 0x3000].contains c.toNat ||
    (0x9 ≤ c.toNat && c.toNat ≤ 0xD) || (0x2000 ≤ c.toNat && c.toNat ≤ 0x200A)

/-- Characters are many: what holds of those of a text is decided along it. -/
instance (priority := high) decidableForallMem {p : Char → Prop} [DecidablePred p] (s : List Char) :
    Decidable (∀ c ∈ s, p c) := List.decidableBAll p s

def Blank (s : List Char) : Prop := ∀ c ∈ s, isWhitespace c = true

instance : DecidablePred Blank := fun s =>
  inferInstanceAs (Decidable (∀ c ∈ s, isWhitespace c = true))

def trimStart (s : List Char) : List Char := s.dropWhile isWhitespace

def trimEnd (s : List Char) : List Char := s.rdropWhile isWhitespace

def trim (s : List Char) : List Char := trimEnd (trimStart s)

/-- The lines of a text: its parts between newlines, each without the carriage return of its end,
and without an empty part behind the last newline. -/
def lines (s : List Char) : List (List Char) :=
  (s.splitOn '\n').dropLast.map (fun l => if l.getLast? = some '\r' then l.dropLast else l) ++
    ((s.splitOn '\n').getLast?.filter (· ≠ [])).toList

/-- What stands before and behind the first occurrence of `pat`. -/
def splitFirst (pat : List Char) : List Char → Option (List Char × List Char)
  | [] => if pat = [] then some ([], []) else none
  | c :: cs =>
    if pat <+: c :: cs then some ([], (c :: cs).drop pat.length)
    else (splitFirst pat cs).map (Prod.map (c :: ·) id)

/-- What stands before and behind the last `c`. -/
def splitLast (c : Char) (s : List Char) : Option (List Char × List Char) :=
  (splitFirst [c] s.reverse).map fun (behind, before) => (before.reverse, behind.reverse)

def stripPrefix (c : Char) (s : List Char) : Option (List Char) :=
  if s.head? = some c then some s.tail else none

/-- The depth of parentheses behind a text that starts at the given one; `none` if it closes one
that was open before. -/
def depthAfter : Nat → List Char → Option Nat
  | d, [] => some d
  | d, c :: cs =>
    if c = '(' then depthAfter (d + 1) cs
    else if c = ')' then if d = 0 then none else depthAfter (d - 1) cs
    else depthAfter d cs

/-- The parentheses of the text match each other. -/
def Balanced (s : List Char) : Prop := depthAfter 0 s = some 0

variable {c : Char} {s t x y pat : List Char} {d e k : Nat}

theorem blank_nil : Blank [] := fun _ h => by cases h

theorem blank_append : Blank (s ++ t) ↔ Blank s ∧ Blank t := List.forall_mem_append

theorem blank_cons : Blank (c :: s) ↔ isWhitespace c = true ∧ Blank s := List.forall_mem_cons

theorem trimStart_append (h : Blank s) : trimStart (s ++ t) = trimStart t :=
  List.dropWhile_append_of_pos h

theorem trimEnd_append (h : Blank t) : trimEnd (s ++ t) = trimEnd s := by
  rw [trimEnd, List.rdropWhile, List.reverse_append, List.dropWhile_append_of_pos, trimEnd,
    List.rdropWhile]
  exact fun c hc => h c (List.mem_reverse.mp hc)

theorem trimEnd_concat (h : isWhitespace c = false) : trimEnd (s ++ [c]) = s ++ [c] :=
  List.rdropWhile_concat_neg _ _ _ (by simp [h])

theorem trimStart_cons (h : isWhitespace c = false) : trimStart (c :: s) = c :: s :=
  List.dropWhile_cons_of_neg (by simp [h])

theorem trimEnd_eq_nil : trimEnd s = [] ↔ Blank s := List.rdropWhile_eq_nil_iff ..

/-- A text is blank, or ends in its last character that is none. -/
theorem blank_or_concat (s : List Char) :
    Blank s ∨ ∃ x c y, s = x ++ c :: y ∧ isWhitespace c = false ∧ Blank y := by
  induction s with
  | nil => exact .inl blank_nil
  | cons a s ih =>
    rcases ih with hb | ⟨x, c, y, rfl, hc, hy⟩
    · cases ha : isWhitespace a with
      | true => exact .inl (blank_cons.mpr ⟨ha, hb⟩)
      | false => exact .inr ⟨[], a, s, rfl, ha, hb⟩
    · exact .inr ⟨a :: x, c, y, rfl, hc, hy⟩

/-- A text is blank, or starts with its first character that is none. -/
theorem blank_or_cons (s : List Char) :
    Blank s ∨ ∃ x c y, s = x ++ c :: y ∧ isWhitespace c = false ∧ Blank x := by
  induction s with
  | nil => exact .inl blank_nil
  | cons a s ih =>
    cases ha : isWhitespace a with
    | false => exact .inr ⟨[], a, s, rfl, ha, blank_nil⟩
    | true =>
      rcases ih with hb | ⟨x, c, y, rfl, hc, hx⟩
      · exact .inl (blank_cons.mpr ⟨ha, hb⟩)
      · exact .inr ⟨a :: x, c, y, rfl, hc, blank_cons.mpr ⟨ha, hx⟩⟩

theorem trim_append_left (h : Blank s) : trim (s ++ t) = trim t := by
  rw [trim, trimStart_append h, trim]

theorem trim_eq_nil : trim s = [] ↔ Blank s := by
  rw [trim, trimEnd_eq_nil]
  constructor
  · intro h
    rcases blank_or_cons s with hb | ⟨x, c, y, rfl, hc, hx⟩
    · exact hb
    · rw [trimStart_append hx, trimStart_cons hc] at h
      rw [h c List.mem_cons_self] at hc
      cases hc
  · intro h c hc
    exact h c ((List.dropWhile_sublist _).subset hc)

theorem trim_append_right (h : Blank t) : trim (s ++ t) = trim s := by
  rcases blank_or_cons s with hb | ⟨x, c, y, rfl, hc, hx⟩
  · rw [trim_eq_nil.mpr hb, trim_eq_nil.mpr (blank_append.mpr ⟨hb, h⟩)]
  · rw [List.append_assoc, trim_append_left hx, trim_append_left hx, trim, trim, List.cons_append,
      trimStart_cons hc, trimStart_cons hc, ← List.cons_append, trimEnd_append h]

/-- A text that starts and ends with characters that are no blanks is its own trimmed text. -/
theorem trim_eq_self (hs : ∀ c ∈ s.head?, isWhitespace c = false)
    (ht : ∀ c ∈ s.getLast?, isWhitespace c = false) : trim s = s := by
  cases s with
  | nil => rfl
  | cons c s =>
    rw [trim, trimStart_cons (hs c rfl), trimEnd, List.rdropWhile_eq_self_iff]
    intro hl
    rw [ht _ (List.getLast?_eq_some_getLast hl)]
    exact Bool.false_ne_true

/-- Behind trimming, a text ends in its last character that is no blank. -/
theorem getLast_trim (hc : isWhitespace c = false) (hy : Blank y) :
    (trim (x ++ c :: y)).getLast? = some c := by
  have hx : ∃ z, trimStart (x ++ [c]) = z ++ [c] := by
    rcases blank_or_cons x with hb | ⟨u, a, v, rfl, ha, hu⟩
    · exact ⟨[], by rw [trimStart_append hb, trimStart_cons hc, List.nil_append]⟩
    · refine ⟨a :: v, ?_⟩
      rw [List.append_assoc, trimStart_append hu, List.cons_append, trimStart_cons ha]
  obtain ⟨z, hz⟩ := hx
  rw [← List.singleton_append, ← List.append_assoc, trim_append_right hy, trim, hz,
    trimEnd_concat hc, List.getLast?_concat]

/-- Trimming takes blanks from both ends. -/
theorem exists_trim (s : List Char) : ∃ u v, s = u ++ (trim s ++ v) ∧ Blank u ∧ Blank v :=
  ⟨s.takeWhile isWhitespace, (trimStart s).rtakeWhile isWhitespace,
    by rw [trim, trimEnd, List.rdropWhile_append_rtakeWhile, trimStart,
      List.takeWhile_append_dropWhile],
    fun _ hc => List.mem_takeWhile_imp hc, fun _ hc => List.mem_rtakeWhile_imp hc⟩

theorem trim_subset (s : List Char) : trim s ⊆ s := by
  obtain ⟨u, v, h, -, -⟩ := exists_trim s
  intro c hc
  rw [h]
  exact List.mem_append_right u (List.mem_append_left v hc)

theorem mem_trim (hc : isWhitespace c = false) (hs : c ∈ s) : c ∈ trim s := by
  obtain ⟨u, v, h, hu, hv⟩ := exists_trim s
  have hblank : isWhitespace c ≠ true := by rw [hc]; exact Bool.false_ne_true
  rw [h] at hs
  rcases List.mem_append.mp hs with hs | hs
  · exact absurd (hu c hs) hblank
  rcases List.mem_append.mp hs with hs | hs
  · exact hs
  · exact absurd (hv c hs) hblank

theorem trim_trim (s : List Char) : trim (trim s) = trim s := by
  obtain ⟨u, v, h, hu, hv⟩ := exists_trim s
  calc trim (trim s) = trim (u ++ (trim s ++ v)) := by
        rw [trim_append_left hu, trim_append_right hv]
    _ = trim s := by rw [← h]

theorem splitFirst_eq_some : splitFirst pat s = some (x, y) ↔
    s = x ++ (pat ++ y) ∧ ∀ x' y', s = x' ++ (pat ++ y') → x.length ≤ x'.length := by
  induction s generalizing x with
  | nil =>
    rw [splitFirst]
    split
    · simp_all [eq_comm]
    · simp_all
  | cons c s ih =>
    rw [splitFirst]
    split
    · rename_i hp
      obtain ⟨y', hy⟩ := hp
      rw [← hy, List.drop_left, Option.some_inj, Prod.mk.injEq]
      constructor
      · rintro ⟨rfl, rfl⟩
        exact ⟨rfl, fun _ _ _ => Nat.zero_le _⟩
      · rintro ⟨h, hmin⟩
        obtain rfl := List.length_eq_zero_iff.mp (Nat.le_zero.mp (hmin [] y' rfl))
        exact ⟨rfl, List.append_cancel_left h⟩
    · rename_i hp
      constructor
      · intro h
        obtain ⟨⟨x', y'⟩, hs, he⟩ := Option.map_eq_some_iff.mp h
        obtain ⟨rfl, rfl⟩ := Prod.mk.inj he
        obtain ⟨rfl, hmin⟩ := ih.mp hs
        refine ⟨rfl, fun x y h => ?_⟩
        cases x with
        | nil => exact absurd ⟨y, h.symm⟩ hp
        | cons a x => exact Nat.succ_le_succ (hmin x y (List.cons.inj h).2)
      · rintro ⟨h, hmin⟩
        cases x with
        | nil => exact absurd ⟨y, h.symm⟩ hp
        | cons a x =>
          obtain ⟨rfl, htail⟩ := List.cons.inj h
          rw [ih.mpr ⟨htail, fun x' y' h' => ?_⟩]
          · rfl
          · exact Nat.le_of_succ_le_succ (hmin (c :: x') y' (congrArg (c :: ·) h'))

/-- Where its first character does not stand before it, an occurrence is the first. -/
theorem splitFirst_of_not_mem (hc : c ∉ x) :
    splitFirst (c :: pat) (x ++ (c :: (pat ++ y))) = some (x, y) := by
  refine splitFirst_eq_some.mpr ⟨rfl, fun x' y' h => ?_⟩
  by_contra hlt
  refine hc ?_
  have hx : (x ++ (c :: (pat ++ y)))[x'.length]? = some c := by rw [h]; simp
  rw [List.getElem?_append_left (by omega)] at hx
  exact List.mem_of_getElem? hx

/-- The first `c` is the one with none before it. -/
theorem splitFirst_singleton : splitFirst [c] s = some (x, y) ↔ s = x ++ c :: y ∧ c ∉ x := by
  constructor
  · intro h
    obtain ⟨rfl, hmin⟩ := splitFirst_eq_some.mp h
    refine ⟨rfl, fun hc => ?_⟩
    obtain ⟨u, v, rfl⟩ := List.append_of_mem hc
    have hle := hmin u (v ++ c :: y) (by simp)
    simp only [List.length_append, List.length_cons] at hle
    omega
  · rintro ⟨rfl, hc⟩
    exact splitFirst_of_not_mem hc

/-- Where no occurrence starts in a text, the first one behind it is the first. -/
theorem splitFirst_append (h : ∀ u v, x = u ++ v → v ≠ [] → ¬ pat <+: v ++ y) :
    splitFirst pat (x ++ y) = (splitFirst pat y).map (Prod.map (x ++ ·) id) := by
  induction x with
  | nil =>
    rw [List.nil_append]
    cases splitFirst pat y <;> rfl
  | cons c x ih =>
    have hc : ¬ pat <+: c :: (x ++ y) := h [] (c :: x) rfl (List.cons_ne_nil c x)
    have hx := ih fun u v he => h (c :: u) v (by rw [he, List.cons_append])
    rw [List.cons_append, splitFirst, if_neg hc, hx, Option.map_map]
    rfl

theorem splitFirst_eq_none : splitFirst pat s = none ↔ ¬ pat <:+: s := by
  induction s with
  | nil =>
    rw [splitFirst, List.infix_nil]
    split <;> simp_all
  | cons c s ih =>
    rw [splitFirst, List.infix_cons_iff, not_or]
    split
    · simp_all
    · rw [Option.map_eq_none_iff, ih]
      simp_all

/-- An occurrence does not start where its first character does not stand. -/
theorem infix_of_not_mem (hc : c ∉ x) (h : c :: pat <:+: x ++ y) : c :: pat <:+: y := by
  induction x with
  | nil => exact h
  | cons a x ih =>
    rw [List.mem_cons, not_or] at hc
    rcases List.infix_cons_iff.mp h with h | h
    · exact absurd (List.cons_prefix_cons.mp h).1 hc.1
    · exact ih hc.2 h

/-- A pattern without a character stands before the character or behind it. -/
theorem infix_append_cons (hc : c ∉ pat) (h : pat <:+: x ++ c :: y) :
    pat <:+: x ∨ pat <:+: y := by
  obtain ⟨u, v, h⟩ := h
  rcases List.append_eq_append_iff.mp h with ⟨w, hx, -⟩ | ⟨w, hu, hv⟩
  · exact .inl ⟨u, w, hx.symm⟩
  cases w with
  | nil => exact .inl ⟨u, [], by rw [hu]; simp⟩
  | cons d w =>
    obtain ⟨rfl, rfl⟩ := List.cons.inj hv
    rcases List.append_eq_append_iff.mp hu with ⟨w', -, hpat⟩ | ⟨w', -, hw⟩
    · exact absurd (by rw [hpat]; simp) hc
    cases w' with
    | nil => exact absurd (by rw [← List.nil_append pat, ← hw]; simp) hc
    | cons d w' =>
      obtain ⟨-, rfl⟩ := List.cons.inj hw
      exact .inr ⟨w', v, rfl⟩

theorem splitLast_eq_some : splitLast c s = some (x, y) ↔ s = x ++ c :: y ∧ c ∉ y := by
  rw [splitLast, Option.map_eq_some_iff]
  constructor
  · rintro ⟨⟨u, v⟩, h, he⟩
    obtain ⟨rfl, rfl⟩ := Prod.mk.inj he
    obtain ⟨hs, hc⟩ := splitFirst_singleton.mp h
    refine ⟨?_, by simpa using hc⟩
    rw [← List.reverse_reverse s, hs]
    simp
  · rintro ⟨rfl, hc⟩
    refine ⟨(y.reverse, x.reverse), splitFirst_singleton.mpr ⟨by simp, by simpa using hc⟩, ?_⟩
    simp

theorem splitLast_eq_none : splitLast c s = none ↔ c ∉ s := by
  rw [splitLast, Option.map_eq_none_iff, splitFirst_eq_none, List.singleton_infix_iff,
    List.mem_reverse]

theorem stripPrefix_eq_some : stripPrefix c s = some t ↔ s = c :: t := by
  cases s with
  | nil => exact iff_of_false (fun h => by cases h) fun h => by cases h
  | cons a s => simp [stripPrefix]

theorem balanced_of_not_mem (ho : '(' ∉ s) (hc : ')' ∉ s) : Balanced s := by
  induction s with
  | nil => rfl
  | cons c s ih =>
    rw [List.mem_cons, not_or] at ho hc
    rw [Balanced, depthAfter, if_neg (Ne.symm ho.1), if_neg (Ne.symm hc.1)]
    exact ih ho.2 hc.2

theorem mem_intercalate {ts : List (List Char)} (h : c ∈ s.intercalate ts) :
    c ∈ s ∨ ∃ t ∈ ts, c ∈ t := by
  induction ts with
  | nil => cases h
  | cons t ts ih =>
    cases ts with
    | nil =>
      rw [List.intercalate_singleton] at h
      exact .inr ⟨t, List.mem_cons_self, h⟩
    | cons u ts =>
      rw [List.intercalate_cons_cons] at h
      rcases List.mem_append.mp h with h | h
      · rcases List.mem_append.mp h with h | h
        · exact .inr ⟨t, List.mem_cons_self, h⟩
        · exact .inl h
      · rcases ih h with h | ⟨u, hu, h⟩
        · exact .inl h
        · exact .inr ⟨u, List.mem_cons_of_mem _ hu, h⟩

theorem splitOn_cons : (c :: s).splitOn '\n' =
    if c = '\n' then [] :: s.splitOn '\n' else (s.splitOn '\n').modifyHead (c :: ·) := by
  rw [List.splitOn_cons_eq_if_modifyHead]
  simp

/-- The first line goes up to the first newline. -/
theorem splitOn_head (s : List Char) :
    ∃ ls, s.splitOn '\n' = s.takeWhile (· ≠ '\n') :: ls := by
  induction s with
  | nil => exact ⟨[], rfl⟩
  | cons c s ih =>
    obtain ⟨ls, h⟩ := ih
    rw [splitOn_cons, h]
    by_cases hc : c = '\n'
    · exact ⟨_, by rw [if_pos hc, List.takeWhile_cons_of_neg (by simpa using hc)]⟩
    · refine ⟨ls, ?_⟩
      rw [if_neg hc, List.takeWhile_cons_of_pos (by simpa using hc), List.modifyHead_cons]

/-- Between two texts, the last line of the first goes on with the first line of the other. -/
theorem splitOn_append (s : List Char) : ∃ ls l, s.splitOn '\n' = ls ++ [l] ∧
    ∀ t m ms, t.splitOn '\n' = m :: ms → (s ++ t).splitOn '\n' = ls ++ (l ++ m) :: ms := by
  induction s with
  | nil => exact ⟨[], [], rfl, fun _ _ _ h => h⟩
  | cons c s ih =>
    obtain ⟨ls, l, h, happ⟩ := ih
    rw [splitOn_cons, h]
    by_cases hc : c = '\n'
    · refine ⟨[] :: ls, l, if_pos hc, fun t m ms ht => ?_⟩
      rw [List.cons_append, splitOn_cons, if_pos hc, happ t m ms ht, List.cons_append]
    · rw [if_neg hc]
      cases ls with
      | nil =>
        refine ⟨[], c :: l, rfl, fun t m ms ht => ?_⟩
        rw [List.cons_append, splitOn_cons, if_neg hc, happ t m ms ht]
        rfl
      | cons k ls =>
        refine ⟨(c :: k) :: ls, l, rfl, fun t m ms ht => ?_⟩
        rw [List.cons_append, splitOn_cons, if_neg hc, happ t m ms ht]
        rfl

theorem infix_of_mem_splitOn {l : List Char} (h : l ∈ s.splitOn '\n') : l <:+: s := by
  induction s generalizing l with
  | nil => simp_all
  | cons c s ih =>
    obtain ⟨ls, hls⟩ := splitOn_head s
    have hcons : ∀ l ∈ s.splitOn '\n', l <:+: c :: s := fun l hl => List.infix_cons (ih hl)
    rw [splitOn_cons] at h
    by_cases hc : c = '\n'
    · rw [if_pos hc] at h
      rcases List.mem_cons.mp h with rfl | h
      · exact List.nil_infix
      · exact hcons l h
    · rw [if_neg hc, hls, List.modifyHead_cons] at h
      rcases List.mem_cons.mp h with rfl | h
      · apply List.IsPrefix.isInfix
        exact List.cons_prefix_cons.mpr ⟨rfl, List.takeWhile_prefix _⟩
      · exact hcons l (hls ▸ List.mem_cons_of_mem _ h)

end Text
