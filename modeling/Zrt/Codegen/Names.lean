import Mathlib
import Zrt.Codegen.Fields

/-! What the three spellings of a name keep of it. -/
namespace Zrt.Codegen

variable {name other cur : List Char}

/-- A name without case and underscores. -/
def squash (name : List Char) : List Char := (name.map Char.toLower).filter (· ≠ '_')

theorem squash_append : squash (name ++ other) = squash name ++ squash other := by
  simp [squash]

theorem flatten_splitWordsFrom (cur name : List Char) :
    (splitWordsFrom cur name).flatten = cur ++ name := by
  induction name generalizing cur with
  | nil =>
    unfold splitWordsFrom
    by_cases hcur : cur = [] <;> simp [hcur]
  | cons c cs ih =>
    unfold splitWordsFrom
    split
    · rw [List.flatten_cons, ih]
      rfl
    · rw [ih, List.append_assoc]
      rfl

theorem squash_lower (w : List Char) : squash (w.map Char.toLower) = squash w := by
  simp [squash, Function.comp_def]

theorem squash_upper (w : List Char) : squash (w.map Char.toUpper) = squash w := by
  simp [squash, Function.comp_def]

theorem squash_modifyHead (w : List Char) : squash (w.modifyHead Char.toUpper) = squash w := by
  cases w <;> simp [squash, List.filter_cons]

/-- The words of a name, whatever is done to each that case and underscores do not tell. -/
theorem squash_words {g : List Char → List Char} (hg : ∀ w, squash (g w) = squash w) :
    squash ((splitWords name).flatMap g) = squash name := by
  have hwords (ws : List (List Char)) :
      squash ((ws.map (List.map Char.toLower)).flatMap g) = squash ws.flatten := by
    induction ws with
    | nil => rfl
    | cons w ws ih =>
      rw [List.map_cons, List.flatMap_cons, List.flatten_cons, squash_append, squash_append, ih, hg,
        squash_lower]
  unfold splitWords
  rw [hwords, flatten_splitWordsFrom, List.nil_append]

theorem squash_intercalate (ws : List String) :
    squash ("_".intercalate ws).toList = squash (ws.flatMap String.toList) := by
  induction ws with
  | nil => rfl
  | cons w ws ih =>
    cases ws with
    | nil => simp
    | cons w' ws =>
      have hsep : squash "_".toList = [] := by decide
      have hflat : (w :: w' :: ws).flatMap String.toList =
          w.toList ++ (w' :: ws).flatMap String.toList := List.flatMap_cons
      rw [String.intercalate_cons_cons, String.toList_append, String.toList_append, squash_append,
        squash_append, ih, hsep, List.append_nil, hflat, squash_append]

theorem squash_toSnake (name : List Char) : squash (toSnake name).toList = squash name := by
  unfold toSnake
  rw [squash_intercalate, List.flatMap_map]
  simp only [String.toList_ofList]
  exact squash_words squash_lower

theorem squash_toScreamingSnake (name : List Char) :
    squash (toScreamingSnake name).toList = squash name := by
  unfold toScreamingSnake
  rw [squash_intercalate, List.flatMap_map]
  simp only [String.toList_ofList]
  exact squash_words squash_upper

theorem squash_toPascal (name : List Char) : squash (toPascal name).toList = squash name := by
  unfold toPascal
  rw [String.toList_join, List.flatMap_map]
  simp only [String.toList_ofList]
  exact squash_words squash_modifyHead

/-- A spelling that keeps the squashed name keeps apart what differs in it. -/
theorem squash_eq {g : List Char → String} (hg : ∀ name, squash (g name).toList = squash name)
    (h : g name = g other) : squash name = squash other := by
  rw [← hg name, h, hg]

end Zrt.Codegen
