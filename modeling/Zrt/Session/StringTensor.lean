import Mathlib.Algebra.GroupWithZero.Nat
import Mathlib.Data.List.Chain
import Zrt.Error

/-! Reading the strings of a string tensor: `read_string_tensor` of `tensor.rs`. -/
namespace Zrt.StringTensor

/-- What `GetStringTensorDataLength` and `GetStringTensorContent` give for a value: an error, or
the bytes and offsets they wrote into the buffers they were passed. -/
structure Value where
  dataLength : Except Error Nat
  content : (total count : Nat) →
    Except Error {c : ByteArray × List Nat // c.1.size = total ∧ c.2.length = count}

/-- `buf[start..end]`; `none` is the panic of a range that is none of the buffer's. -/
def slice (buf : ByteArray) (start stop : Nat) : Option ByteArray :=
  if start ≤ stop ∧ stop ≤ buf.size then some (buf.extract start stop) else none

/-- The loop of `read_string_tensor` from index `i` on, with the offsets from there on and the
strings so far; `none` is a panic. -/
def readStrings (buf : ByteArray) :
    Nat → List Nat → List String → Option (Except Error (List String))
  | _, [], out => some (.ok out)
  | i, start :: offsets, out =>
    -- `offsets[i + 1]`, or the total behind the last
    let stop := offsets.headD buf.size
    if stop < start ∨ buf.size < stop then
      some (.error (.local s!"zrt: invalid string tensor offsets at index {i}"))
    else (slice buf start stop).bind fun bytes =>
      match String.fromUTF8? bytes with
      | none => some (.error (.local "zrt: string tensor data is not valid UTF-8"))
      | some s => readStrings buf (i + 1) offsets (out ++ [s])

def readStringTensor (value : Value) (count : Nat) : Option (Except Error (List String)) :=
  match value.dataLength with
  | .error e => some (.error e)
  | .ok total =>
    match value.content total count with
    | .error e => some (.error e)
    | .ok c => readStrings c.1.1 0 c.1.2 []

/-- The start offsets of strings laid out one behind the other from `start` on. -/
def starts : Nat → List String → List Nat
  | _, [] => []
  | start, s :: strings => start :: starts (start + s.utf8ByteSize) strings

theorem length_starts (start : Nat) (strings : List String) :
    (starts start strings).length = strings.length := by
  induction strings generalizing start with
  | nil => rfl
  | cons s strings ih => rw [starts, List.length_cons, List.length_cons, ih]

/-- The tensor of the strings. -/
def ofStrings (strings : List String) : Value where
  dataLength := .ok (String.join strings).utf8ByteSize
  content total count :=
    if h : (String.join strings).utf8ByteSize = total ∧ strings.length = count then
      .ok ⟨((String.join strings).toByteArray, starts 0 strings), h.1, by rw [length_starts, h.2]⟩
    else .error (.local "zrt: the buffers do not fit the string tensor")

/-- The offsets ascend up to the end of the buffer. -/
def InRange (buf : ByteArray) (offsets : List Nat) : Prop :=
  (offsets ++ [buf.size]).IsChain (· ≤ ·)

/-- The parts that the offsets cut a buffer into. -/
def pieces (buf : ByteArray) : List Nat → List ByteArray
  | [] => []
  | start :: offsets => buf.extract start (offsets.headD buf.size) :: pieces buf offsets

variable {buf bytes : ByteArray} {i start stop : Nat} {offsets : List Nat} {s : String}
  {strings out out' : List String}

theorem fromUTF8_eq_some : String.fromUTF8? bytes = some s ↔ bytes = s.toByteArray := by
  unfold String.fromUTF8?
  split
  · rename_i hv
    rw [Option.some_inj, ← String.toByteArray_inj]
    exact Iff.rfl
  · rename_i hv
    refine iff_of_false (fun h => by cases h) ?_
    rintro rfl
    exact hv s.isValidUTF8

theorem inRange_nil : InRange buf [] := List.isChain_singleton _

/-- The offsets behind a range ascend from its end. -/
theorem inRange_cons : InRange buf (start :: offsets) ↔
    start ≤ offsets.headD buf.size ∧ InRange buf offsets := by
  cases offsets with
  | nil => simp [InRange]
  | cons next offsets => exact List.isChain_cons_cons

theorem headD_le (h : InRange buf offsets) : offsets.headD buf.size ≤ buf.size := by
  induction offsets with
  | nil => exact Nat.le_refl _
  | cons start offsets ih =>
    obtain ⟨hs, h⟩ := inRange_cons.mp h
    exact Nat.le_trans hs (ih h)

/-- The loop returns the strings of the pieces, if the offsets are in range. -/
theorem readStrings_ok_iff : readStrings buf i offsets out = some (.ok out') ↔
    InRange buf offsets ∧
      ∃ strings, out' = out ++ strings ∧ pieces buf offsets = strings.map String.toByteArray := by
  induction offsets generalizing i out with
  | nil =>
    rw [readStrings, pieces, and_iff_right inRange_nil]
    constructor
    · intro h
      cases h
      exact ⟨[], (List.append_nil _).symm, rfl⟩
    · rintro ⟨strings, rfl, hp⟩
      rw [List.map_eq_nil_iff.mp hp.symm, List.append_nil]
  | cons start offsets ih =>
    rw [readStrings, inRange_cons, pieces]
    by_cases hr : start ≤ offsets.headD buf.size ∧ offsets.headD buf.size ≤ buf.size
    · rw [if_neg (by omega), slice, if_pos hr, Option.bind_some]
      cases hs : String.fromUTF8? (buf.extract start (offsets.headD buf.size)) with
      | none =>
        refine iff_of_false (fun h => by cases h) ?_
        rintro ⟨-, strings, -, hp⟩
        cases strings with
        | nil => cases hp
        | cons s strings =>
          rw [fromUTF8_eq_some.mpr (List.cons_eq_cons.mp hp).1] at hs
          cases hs
      | some s =>
        rw [fromUTF8_eq_some.mp hs]
        refine ih.trans ⟨?_, ?_⟩
        · rintro ⟨h, strings, rfl, hp⟩
          exact ⟨⟨hr.1, h⟩, s :: strings, List.append_assoc .., by rw [hp, List.map_cons]⟩
        · rintro ⟨⟨-, h⟩, strings, rfl, hp⟩
          cases strings with
          | nil => cases hp
          | cons s' strings =>
            obtain ⟨hb, hp'⟩ := List.cons_eq_cons.mp hp
            obtain rfl := String.toByteArray_inj.mp hb
            exact ⟨h, strings, (List.append_assoc out [s] strings).symm, hp'⟩
    · rw [if_pos (by omega)]
      refine iff_of_false (fun h => by cases h) ?_
      rintro ⟨⟨hs, h⟩, -⟩
      exact hr ⟨hs, headD_le h⟩

/-- The loop slices within the buffer only. -/
theorem readStrings_isSome (buf : ByteArray) (i : Nat) (offsets : List Nat) (out : List String) :
    (readStrings buf i offsets out).isSome := by
  induction offsets generalizing i out with
  | nil => rfl
  | cons start offsets ih =>
    rw [readStrings]
    by_cases hr : start ≤ offsets.headD buf.size ∧ offsets.headD buf.size ≤ buf.size
    · rw [if_neg (by omega), slice, if_pos hr, Option.bind_some]
      split
      · rfl
      · exact ih ..
    · rw [if_pos (by omega)]
      rfl

/-- The pieces make up the buffer from the first offset on. -/
theorem join_pieces (h : InRange buf offsets)
    (hp : pieces buf offsets = strings.map String.toByteArray) :
    (String.join strings).toByteArray = buf.extract (offsets.headD buf.size) buf.size := by
  induction offsets generalizing strings with
  | nil =>
    obtain rfl := List.map_eq_nil_iff.mp hp.symm
    exact ByteArray.extract_same.symm
  | cons start offsets ih =>
    cases strings with
    | nil => cases hp
    | cons s strings =>
      obtain ⟨hs, hp⟩ := List.cons_eq_cons.mp hp
      obtain ⟨hle, h⟩ := inRange_cons.mp h
      rw [String.join_cons, String.toByteArray_append, ← hs, ih h hp, List.headD_cons]
      exact (ByteArray.extract_eq_extract_append_extract _ hle (headD_le h)).symm

theorem extract_middle : (bytes ++ (s.toByteArray ++ buf)).extract bytes.size
    (bytes.size + s.utf8ByteSize) = s.toByteArray := by
  have h := ByteArray.extract_append_size_add (a := bytes) (b := s.toByteArray ++ buf) (i := 0)
    (j := s.utf8ByteSize)
  rw [Nat.add_zero] at h
  rw [h, ByteArray.extract_append_eq_left String.size_toByteArray.symm]

/-- Strings laid out behind other bytes are the pieces of their offsets. -/
theorem pieces_starts (bytes : ByteArray) (strings : List String) :
    InRange (bytes ++ (String.join strings).toByteArray) (starts bytes.size strings) ∧
      pieces (bytes ++ (String.join strings).toByteArray) (starts bytes.size strings) =
        strings.map String.toByteArray := by
  induction strings generalizing bytes with
  | nil => exact ⟨inRange_nil, rfl⟩
  | cons s strings ih =>
    have hsize : (bytes ++ s.toByteArray).size = bytes.size + s.utf8ByteSize := by
      rw [ByteArray.size_append, String.size_toByteArray]
    have hnext : (starts (bytes.size + s.utf8ByteSize) strings).headD
        (bytes ++ (String.join (s :: strings)).toByteArray).size = bytes.size + s.utf8ByteSize := by
      cases strings with
      | nil => simp [starts, String.join_cons]
      | cons s' strings => rfl
    obtain ⟨hr, hp⟩ := ih (bytes ++ s.toByteArray)
    rw [hsize, ByteArray.append_assoc, ← String.toByteArray_append, ← String.join_cons] at hr hp
    rw [starts, inRange_cons, pieces, hnext, hp]
    refine ⟨⟨Nat.le_add_right .., hr⟩, ?_⟩
    rw [String.join_cons, String.toByteArray_append, extract_middle, List.map_cons]

theorem readStrings_starts :
    readStrings (String.join strings).toByteArray 0 (starts 0 strings) [] = some (.ok strings) := by
  obtain ⟨hr, hp⟩ := pieces_starts ByteArray.empty strings
  rw [ByteArray.empty_append] at hr hp
  exact readStrings_ok_iff.mpr ⟨hr, strings, rfl, hp⟩

theorem readStringTensor_ofStrings :
    readStringTensor (ofStrings strings) strings.length = some (.ok strings) := by
  rw [readStringTensor, ofStrings]
  dsimp only
  rw [dif_pos ⟨rfl, rfl⟩]
  exact readStrings_starts

theorem utf8ByteSize_join :
    (String.join strings).utf8ByteSize = (strings.map String.utf8ByteSize).sum := by
  induction strings with
  | nil => rfl
  | cons s strings ih =>
    rw [String.join_cons, String.utf8ByteSize_append, ih, List.map_cons, List.sum_cons]

/-- The strings have as many bytes as there are from the first offset on. -/
theorem sum_utf8ByteSize (h : InRange buf offsets)
    (hp : pieces buf offsets = strings.map String.toByteArray) :
    offsets.headD buf.size + (strings.map String.utf8ByteSize).sum = buf.size := by
  have hsize := congrArg ByteArray.size (join_pieces h hp)
  rw [String.size_toByteArray, utf8ByteSize_join, ByteArray.size_extract, Nat.min_self] at hsize
  have hle := headD_le h
  omega

/-- A string tensor is read back as it was filled. Whatever the engine writes into the buffers,
each slice is one of the buffer; the strings are those between the offsets, and offsets that do not
ascend up to the total are an error. -/
theorem string_tensor_decoded :
    (∀ strings, readStringTensor (ofStrings strings) strings.length = some (.ok strings)) ∧
    (∀ value count, (readStringTensor value count).isSome) ∧
    ∀ buf offsets, ∃ r, readStrings buf 0 offsets [] = some r ∧
      (¬ InRange buf offsets → ∃ e, r = .error e) ∧
      ∀ strings, r = .ok strings →
        pieces buf offsets = strings.map String.toByteArray ∧
        (String.join strings).toByteArray = buf.extract (offsets.headD buf.size) buf.size ∧
        offsets.headD buf.size + (strings.map String.utf8ByteSize).sum = buf.size := by
  refine ⟨fun _ => readStringTensor_ofStrings, ?_, ?_⟩
  · intro value count
    unfold readStringTensor
    split
    · rfl
    split
    · rfl
    · exact readStrings_isSome ..
  · intro buf offsets
    obtain ⟨r, h⟩ := Option.isSome_iff_exists.mp
      (readStrings_isSome buf 0 offsets [])
    refine ⟨r, h, ?_, ?_⟩
    · intro hn
      cases r with
      | error e => exact ⟨e, rfl⟩
      | ok strings => exact absurd (readStrings_ok_iff.mp h).1 hn
    · rintro strings rfl
      obtain ⟨hr, strings, rfl, hp⟩ := readStrings_ok_iff.mp h
      exact ⟨hp, join_pieces hr hp, sum_utf8ByteSize hr hp⟩

theorem string_tensor_decoded_words :
    readStringTensor (ofStrings ["ab", "", "é"]) 3 = some (.ok ["ab", "", "é"]) ∧
      ∃ e, readStrings "ab".toByteArray 0 [1, 0] [] = some (.error e) := by
  refine ⟨string_tensor_decoded.1 ["ab", "", "é"], ?_⟩
  obtain ⟨r, h, he, -⟩ := string_tensor_decoded.2.2 "ab".toByteArray [1, 0]
  obtain ⟨e, rfl⟩ := he (by simp [InRange])
  exact ⟨e, h⟩

end Zrt.StringTensor
