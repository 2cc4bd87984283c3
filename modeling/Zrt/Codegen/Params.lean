import Zrt.Codegen.Types

/-! Parameter declarations: `parse_params` and what it calls, of the binding generator. -/
namespace Zrt.Codegen
open Text

structure Param where
  rustType : RustType
  name : List Char

/-- The loop of `strip_array_suffix`, with the levels so far. -/
def stripArrays (s : List Char) (levels : Nat) : List Char × Nat :=
  match h : splitLast '[' s with
  | none => (s, levels)
  | some (head, tail) =>
    if tail.getLast? = some ']' then stripArrays (trimEnd head) (levels + 1) else (s, levels)
termination_by s.length
decreasing_by
  obtain ⟨rfl, -⟩ := splitLast_eq_some.mp h
  have hle := (List.rdropWhile_prefix isWhitespace (l := head)).length_le
  simp only [trimEnd, List.length_append, List.length_cons]
  omega

def stripArraySuffix (c : List Char) : List Char × Nat := stripArrays (trim c) 0

/-- `split_param_name`: the type and the name, if the text ends in a bare word behind a space. -/
def splitParamName (c : List Char) : Option (List Char × List Char) :=
  (splitLast ' ' c).bind fun (head, tail) =>
    let tail := trim tail
    if tail = [] ∨ '*' ∈ tail ∨
      tail ∈ ["const".toList, "enum".toList, "struct".toList, "void".toList] then none
    else some (trim head, tail)

def sanitizeIdent (s : List Char) : List Char :=
  if s ∈ ["type", "in", "out", "ref", "match", "move", "as", "fn", "where",
    "self"].map String.toList
  then s ++ ['_'] else s

/-- The loop of `match_close_paren`: how many characters precede the closing parenthesis. -/
def matchClose : Nat → List Char → Option Nat
  | _, [] => none
  | depth, c :: cs =>
    if c = '(' then (matchClose (depth + 1) cs).map (· + 1)
    else if c = ')' then if depth = 0 then some 0 else (matchClose (depth - 1) cs).map (· + 1)
    else (matchClose depth cs).map (· + 1)

def matchCloseParen (s : List Char) : Option Nat := matchClose 0 s

/-- The closing parenthesis is the one that ends what was open at the start. -/
theorem matchClose_eq_some {d n : Nat} {s : List Char} : matchClose d s = some n ↔
    ∃ x y, s = x ++ ')' :: y ∧ x.length = n ∧ depthAfter d x = some 0 := by
  induction s generalizing d n with
  | nil => exact iff_of_false (fun h => by cases h) fun ⟨x, y, h, _⟩ => by cases x <;> cases h
  | cons c cs ih =>
    have hstep : ∀ e, (c = ')' → d ≠ 0) → (∀ x, depthAfter d (c :: x) = depthAfter e x) →
        ((matchClose e cs).map (· + 1) = some n ↔
          ∃ x y, c :: cs = x ++ ')' :: y ∧ x.length = n ∧ depthAfter d x = some 0) := by
      intro e hc hd
      rw [Option.map_eq_some_iff]
      constructor
      · rintro ⟨k, hk, rfl⟩
        obtain ⟨x, y, rfl, rfl, hx⟩ := ih.mp hk
        exact ⟨c :: x, y, rfl, rfl, (hd x).trans hx⟩
      · rintro ⟨x, y, h, rfl, hx⟩
        cases x with
        | nil => exact absurd (Option.some.inj hx) (hc (List.cons.inj h).1)
        | cons a x =>
          obtain ⟨rfl, rfl⟩ := List.cons.inj h
          exact ⟨x.length, ih.mpr ⟨x, y, rfl, rfl, (hd x).symm.trans hx⟩, rfl⟩
    rw [matchClose]
    by_cases ho : c = '('
    · rw [if_pos ho]
      refine hstep _ (fun hc => by simp [ho] at hc) fun x => ?_
      rw [depthAfter, if_pos ho]
    rw [if_neg ho]
    by_cases hc : c = ')'
    · rw [if_pos hc]
      by_cases hd : d = 0
      · rw [if_pos hd, hc, hd]
        constructor
        · intro h
          exact ⟨[], cs, rfl, Option.some.inj h, rfl⟩
        · rintro ⟨x, y, h, rfl, hx⟩
          cases x with
          | nil => rfl
          | cons a x =>
            obtain ⟨rfl, -⟩ := List.cons.inj h
            cases hx
      · rw [if_neg hd]
        refine hstep _ (fun _ => hd) fun x => ?_
        rw [depthAfter, if_neg ho, if_pos hc, if_neg hd]
    · rw [if_neg hc]
      refine hstep _ (fun h => absurd h hc) fun x => ?_
      rw [depthAfter, if_neg ho, if_neg hc]

/-- One character of `split_top_level`: the parts so far, the depth and the current part. -/
def splitStep : List (List Char) × Int × List Char → Char → List (List Char) × Int × List Char
  | (out, depth, cur), ch =>
    if ch = '(' then (out, depth + 1, cur ++ [ch])
    else if ch = ')' then (out, depth - 1, cur ++ [ch])
    else if ch = ',' ∧ depth = 0 then (out ++ [trim cur], depth, [])
    else (out, depth, cur ++ [ch])

def splitTopLevel (c : List Char) : List (List Char) :=
  let (out, _, cur) := c.foldl splitStep ([], 0, [])
  if trim cur = [] then out else out ++ [trim cur]

def paramTypeOnly (c : List Char) : List Char :=
  match splitParamName c with
  | some (t, _) => trim t
  | none => trim c

def parseFnPtrParam (c : List Char) : Option Param :=
  (splitFirst "(*".toList c).bind fun (_, afterStar) =>
  (splitFirst [')'] afterStar).bind fun (before, after) =>
  let name := trim before
  if name = [] ∨ '*' ∈ name then none
  else
    (splitFirst ['('] after).bind fun (_, innerRest) =>
    (matchCloseParen innerRest).map fun innerClose =>
      let inner := innerRest.take innerClose
      let innerTypes :=
        if trim inner = [] ∨ trim inner = "void".toList then []
        else (splitTopLevel inner).map fun p => mapType (paramTypeOnly p)
      ⟨.callback innerTypes, sanitizeIdent name⟩

def parseParam (c : List Char) (idx : Nat) : Param :=
  match parseFnPtrParam (trim c) with
  | some p => p
  | none =>
    let (base, arrayLevels) := stripArraySuffix (trim c)
    let (ty, name) := (splitParamName base).getD (base, s!"_arg{idx}".toList)
    let tyFull := if 0 < arrayLevels then ty ++ ' ' :: List.replicate arrayLevels '*' else ty
    ⟨mapType tyFull, sanitizeIdent name⟩

def parseParams (c : List Char) : List Param :=
  if trim c = [] ∨ trim c = "void".toList then []
  else (splitTopLevel (trim c)).mapIdx fun i p => parseParam p i

end Zrt.Codegen
