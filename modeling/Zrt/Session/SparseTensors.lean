import Zrt.Session.Constructors

/-! The sparse tensors of `tensor.rs`. The width of `usize` is `bits`. -/
namespace Zrt.Sparse

open Ownership (Books Comp)
open Ownership.Comp
open Constructors (check check_clean check_eq_ok createNonNull createNonNull_moves
  getDefault getDefault_clean getDefault_eq_ok)
open Outputs (Representable TensorElement checkedElementCount checkedElementCount_iff elementCount
  validateShapeLen)

/-- The index buffers of the three formats, by their lengths. -/
inductive Indices where
  | coo (len : Nat)
  | csr (inner outer : Nat)
  | blockSparse (shape : List Int) (len : Nat)

/-- The buffers that a constructor is given. -/
structure Buffers where
  elem : TensorElement
  values : Nat
  denseShape : List Int
  valuesShape : List Int
  indices : Indices

variable (bits : Nat)

def validateSparseShapes (b : Buffers) : Except Error Unit :=
  (checkedElementCount bits b.denseShape).bind fun _ =>
    (validateShapeLen bits b.valuesShape b.values).bind fun _ =>
      if b.elem.elem = .string then
        .error (.local
          "sparse string tensors must use ORT copied string APIs, which ZRT does not expose yet")
      else .ok ()

/-- The product is only formed where the first comparison fails. -/
def validateCooIndices (valuesLen denseRank indicesLen : Nat) : Except Error Unit :=
  let ok : Except Error Bool :=
    if valuesLen = 0 then .ok (indicesLen = 0)
    else if indicesLen = valuesLen then .ok true
    else if 2 ^ bits ≤ valuesLen * denseRank then
      .error (.local "COO index length overflows usize")
    else .ok (indicesLen = valuesLen * denseRank)
  ok.bind fun ok =>
    if ok then .ok ()
    else .error
      (.local s!"COO indices must have 0, nnz, or nnz*dense_rank entries; got {indicesLen}")

def validateCsrIndices (valuesLen : Nat) (denseShape : List Int) (innerLen outerLen : Nat) :
    Except Error Unit :=
  if innerLen ≠ valuesLen then
    .error (.local s!"CSR inner indices must match nnz ({valuesLen}), got {innerLen}")
  else match denseShape with
    | [] => .error (.local "CSR sparse tensors require rank >= 1")
    | rows :: _ =>
      if rows < 0 then .error (.local "CSR dense shape cannot contain dynamic rows")
      else if 2 ^ bits ≤ rows.toNat then .error (.local "CSR row count does not fit usize")
      else if 2 ^ bits ≤ rows.toNat + 1 then
        .error (.local "CSR outer-index length overflows usize")
      else if outerLen ≠ rows.toNat + 1 then
        .error (.local
          s!"CSR outer indices must have rows + 1 entries ({rows.toNat + 1}), got {outerLen}")
      else .ok ()

def validateIndices (b : Buffers) : Except Error Unit :=
  match b.indices with
  | .coo len => validateCooIndices bits b.values b.denseShape.length len
  | .csr inner outer => validateCsrIndices bits b.values b.denseShape inner outer
  | .blockSparse shape len => validateShapeLen bits shape len

/-- The outcomes of the calls; `use` is `FillSparseTensor..` or `Use..Indices`. -/
structure SparseCalls where
  defaultAllocator : Except Error Bool
  snapshot : Except Error Bool
  create : Except Error Bool
  use : Except Error Unit

/-- The call that fills a value or gives it its indices; the value is released if it fails. -/
def finish (value : Nat) (n : SparseCalls) : Comp Error Nat := do
  Comp.onError value (check n.use)
  pure value

/-- `copy_coo`, `copy_csr` and `copy_block_sparse`, by the indices. -/
def copySparse (b : Buffers) (n : SparseCalls) : Comp Error Nat := do
  Comp.ofExcept (validateSparseShapes bits b)
  Comp.ofExcept (validateIndices bits b)
  getDefault n.defaultAllocator
  let _count ← Comp.ofExcept (checkedElementCount bits b.denseShape)
  let value ← createNonNull n.create "sparse tensor value"
  finish value n

/-- `from_coo_buffer`, `from_csr_buffer` and `from_block_sparse_buffer`, by the indices. -/
def fromSparseBuffer (b : Buffers) (n : SparseCalls) : Comp Error Nat := do
  Comp.ofExcept (validateSparseShapes bits b)
  Comp.ofExcept (validateIndices bits b)
  check (n.snapshot.map fun _ => ())
  let value ← createNonNull n.create "sparse tensor value"
  finish value n

/-- A concrete shape of so many elements. -/
def Counts (shape : List Int) (n : Nat) : Prop :=
  (∀ dim ∈ shape, 0 ≤ dim) ∧ Representable bits shape ∧ n = elementCount shape

/-- The indices are as many as the values and the dense shape ask for. -/
def Indices.Fit (b : Buffers) : Indices → Prop
  | .coo len =>
    if b.values = 0 then len = 0
    else len = b.values ∨
      len = b.values * b.denseShape.length ∧ b.values * b.denseShape.length < 2 ^ bits
  | .csr inner outer =>
    inner = b.values ∧ ∃ rows rest, b.denseShape = rows :: rest ∧ 0 ≤ rows ∧
      outer = rows.toNat + 1 ∧ outer < 2 ^ bits
  | .blockSparse shape len => Counts bits shape len

/-- The buffers agree with each other. -/
structure Buffers.Agree (b : Buffers) : Prop where
  dense : ∃ n, Counts bits b.denseShape n
  values : Counts bits b.valuesShape b.values
  indices : b.indices.Fit bits b

variable {bits} {b : Buffers} {n : SparseCalls} {books : Books} {shape : List Int}
  {count inner len outer rank values : Nat}

theorem counts_iff (hw : 0 < bits) :
    checkedElementCount bits shape = .ok count ↔ Counts bits shape count :=
  checkedElementCount_iff hw

theorem validateShapeLen_ok (hw : 0 < bits) :
    validateShapeLen bits shape len = .ok () ↔ Counts bits shape len := by
  rw [← counts_iff hw]
  unfold validateShapeLen
  cases checkedElementCount bits shape with
  | error err => exact iff_of_false (fun h => by cases h) fun h => by cases h
  | ok expected =>
    change (if expected ≠ len then Except.error _ else Except.ok ()) = Except.ok () ↔ _
    split
    next hne => exact iff_of_false (fun h => by cases h) fun h => hne (Except.ok.inj h)
    next heq => exact iff_of_true rfl (congrArg _ (not_not.mp heq))

theorem elem_ne_string (elem : TensorElement) : elem.elem ≠ .string := by
  cases elem <;> simp [TensorElement.elem]

theorem validateSparseShapes_ok (hw : 0 < bits) : validateSparseShapes bits b = .ok () ↔
    (∃ n, Counts bits b.denseShape n) ∧ Counts bits b.valuesShape b.values := by
  unfold validateSparseShapes
  rw [if_neg (elem_ne_string b.elem), ← validateShapeLen_ok hw]
  constructor
  · intro h
    obtain ⟨n, hn, h⟩ := bind_eq_ok h
    obtain ⟨_, hv, -⟩ := bind_eq_ok h
    exact ⟨⟨n, (counts_iff hw).mp hn⟩, hv⟩
  · rintro ⟨⟨n, hn⟩, hv⟩
    rw [(counts_iff hw).mpr hn, hv]
    rfl

/-- By the comparisons in their order. -/
theorem validateCooIndices_ok : validateCooIndices bits values rank len = .ok () ↔
    if values = 0 then len = 0
    else len = values ∨ len = values * rank ∧ values * rank < 2 ^ bits := by
  unfold validateCooIndices
  have hdecide (p : Prop) [Decidable p] (err : Error) :
      ((Except.ok (decide p) : Except Error Bool).bind fun ok =>
        if ok then Except.ok () else .error err) = .ok () ↔ p := by
    by_cases hp : p <;> simp [hp, Except.bind]
  by_cases hzero : values = 0
  · rw [if_pos hzero, if_pos hzero]
    exact hdecide _ _
  rw [if_neg hzero, if_neg hzero]
  by_cases hsame : len = values
  · rw [if_pos hsame]
    exact iff_of_true rfl (.inl hsame)
  rw [if_neg hsame]
  by_cases hover : 2 ^ bits ≤ values * rank
  · rw [if_pos hover]
    refine iff_of_false (fun h => by cases h) ?_
    rintro (h | ⟨-, h⟩)
    · exact hsame h
    · omega
  · rw [if_neg hover]
    refine (hdecide _ _).trans ⟨fun h => .inr ⟨h, Nat.not_le.mp hover⟩, ?_⟩
    rintro (h | ⟨h, -⟩)
    · exact absurd h hsame
    · exact h

theorem validateCsrIndices_ok : validateCsrIndices bits values shape inner outer = .ok () ↔
    inner = values ∧ ∃ rows rest, shape = rows :: rest ∧ 0 ≤ rows ∧ outer = rows.toNat + 1 ∧
      outer < 2 ^ bits := by
  unfold validateCsrIndices
  by_cases hinner : inner ≠ values
  · rw [if_pos hinner]
    exact iff_of_false (fun h => by cases h) fun h => hinner h.1
  rw [if_neg hinner, and_iff_right (not_not.mp hinner)]
  cases shape with
  | nil =>
    refine iff_of_false (fun h => by cases h) ?_
    rintro ⟨rows, rest, h, -⟩
    cases h
  | cons rows rest =>
    have hshape : (∃ rows' rest', rows :: rest = rows' :: rest' ∧ 0 ≤ rows' ∧
        outer = rows'.toNat + 1 ∧ outer < 2 ^ bits) ↔
        0 ≤ rows ∧ outer = rows.toNat + 1 ∧ outer < 2 ^ bits := by
      constructor
      · rintro ⟨rows', rest', h, hrest⟩
        cases h
        exact hrest
      · intro h
        exact ⟨rows, rest, rfl, h⟩
    rw [hshape]
    dsimp only
    repeat' split
    all_goals first
      | exact iff_of_false (fun h => by cases h) (by omega)
      | exact iff_of_true rfl (by omega)

theorem validateIndices_ok (hw : 0 < bits) :
    validateIndices bits b = .ok () ↔ b.indices.Fit bits b := by
  unfold validateIndices Indices.Fit
  cases b.indices with
  | coo len => exact validateCooIndices_ok
  | csr inner outer => exact validateCsrIndices_ok
  | blockSparse shape len => exact validateShapeLen_ok hw

theorem agree_iff (hw : 0 < bits) : b.Agree bits ↔
    validateSparseShapes bits b = .ok () ∧ validateIndices bits b = .ok () := by
  rw [validateSparseShapes_ok hw, validateIndices_ok hw]
  constructor
  · intro h
    exact ⟨⟨h.dense, h.values⟩, h.indices⟩
  · rintro ⟨⟨hdense, hvalues⟩, hindices⟩
    exact ⟨hdense, hvalues, hindices⟩

theorem finish_moves (value : Nat) (n : SparseCalls) :
    Moves [value] (finish value n) fun v => [v] :=
  ((check_clean n.use).moves.onError value).bind fun _ => moves_pure value fun v => [v]

theorem copySparse_moves (b : Buffers) (n : SparseCalls) :
    Moves [] (copySparse bits b n) fun v => [v] := by
  refine (clean_ofExcept _).moves.bind fun _ => (clean_ofExcept _).moves.bind fun _ => ?_
  refine (getDefault_clean _).moves.bind fun _ => (clean_ofExcept _).moves.bind fun _ => ?_
  exact (createNonNull_moves _ _).bind fun value => finish_moves value n

theorem fromSparseBuffer_moves (b : Buffers) (n : SparseCalls) :
    Moves [] (fromSparseBuffer bits b n) fun v => [v] := by
  refine (clean_ofExcept _).moves.bind fun _ => (clean_ofExcept _).moves.bind fun _ => ?_
  refine (check_clean _).moves.bind fun _ => ?_
  exact (createNonNull_moves _ _).bind fun value => finish_moves value n

/-- The value is made and filled. -/
theorem made_iff (n : SparseCalls) (books : Books) :
    (∃ v b', (createNonNull n.create "sparse tensor value" >>= fun value => finish value n) books =
      (.ok v, b')) ↔ n.create = .ok true ∧ n.use = .ok () := by
  cases hc : n.create with
  | error err =>
    refine iff_of_false ?_ (fun h => by cases h.1)
    rintro ⟨v, b', h⟩
    cases congrArg Prod.fst h
  | ok made =>
    cases made with
    | false =>
      refine iff_of_false ?_ (fun h => by cases h.1)
      rintro ⟨v, b', h⟩
      cases congrArg Prod.fst h
    | true =>
      cases hu : n.use with
      | error err =>
        refine iff_of_false ?_ (fun h => by cases h.2)
        rintro ⟨v, b', h⟩
        have hfst := congrArg Prod.fst h
        unfold finish at hfst
        rw [hu] at hfst
        cases hfst
      | ok u =>
        refine iff_of_true ⟨books.count, books.make, ?_⟩ ⟨rfl, rfl⟩
        unfold finish
        rw [hu]
        rfl

theorem copySparse_ok (hw : 0 < bits) (b : Buffers) (n : SparseCalls) (books : Books) :
    (∃ v b', copySparse bits b n books = (.ok v, b')) ↔
      b.Agree bits ∧ n.defaultAllocator = .ok true ∧ n.create = .ok true ∧ n.use = .ok () := by
  rw [← made_iff n books, agree_iff hw]
  unfold copySparse
  simp only [Comp.bind_eq_ok, Comp.ofExcept_apply, getDefault_eq_ok, Prod.mk.injEq]
  constructor
  · rintro ⟨v, b', _, _, ⟨hshapes, rfl⟩, _, _, ⟨hindices, rfl⟩, _, _, ⟨halloc, rfl⟩, _, _,
      ⟨-, rfl⟩, hmade⟩
    exact ⟨⟨hshapes, hindices⟩, halloc, v, b', hmade⟩
  · rintro ⟨⟨hshapes, hindices⟩, halloc, v, b', hmade⟩
    obtain ⟨⟨count, hcount⟩, -⟩ := (validateSparseShapes_ok hw).mp hshapes
    exact ⟨v, b', (), books, ⟨hshapes, rfl⟩, (), books, ⟨hindices, rfl⟩, (), books, ⟨halloc, rfl⟩,
      count, books, ⟨(counts_iff hw).mpr hcount, rfl⟩, hmade⟩

theorem fromSparseBuffer_ok (hw : 0 < bits) (b : Buffers) (n : SparseCalls) (books : Books) :
    (∃ v b', fromSparseBuffer bits b n books = (.ok v, b')) ↔
      b.Agree bits ∧ (∃ host, n.snapshot = .ok host) ∧ n.create = .ok true ∧ n.use = .ok () := by
  have hsnapshot : n.snapshot.map (fun _ => ()) = .ok () ↔ ∃ host, n.snapshot = .ok host := by
    cases n.snapshot <;> simp [Except.map]
  rw [← made_iff n books, agree_iff hw, ← hsnapshot]
  unfold fromSparseBuffer
  simp only [Comp.bind_eq_ok, Comp.ofExcept_apply, check_eq_ok, Prod.mk.injEq]
  constructor
  · rintro ⟨v, b', _, _, ⟨hshapes, rfl⟩, _, _, ⟨hindices, rfl⟩, _, _, ⟨hhost, rfl⟩, hmade⟩
    exact ⟨⟨hshapes, hindices⟩, hhost, v, b', hmade⟩
  · rintro ⟨⟨hshapes, hindices⟩, hhost, v, b', hmade⟩
    exact ⟨v, b', (), books, ⟨hshapes, rfl⟩, (), books, ⟨hindices, rfl⟩, (), books, ⟨hhost, rfl⟩,
      hmade⟩

/-- The six constructors, whatever their buffers and however ORT answers: a value that is made is
returned, or released once; one is returned if the buffers agree and no call fails, and else
none. -/
theorem sparse_tensors_checked (bits : Nat) (hw : 0 < bits) (b : Buffers) (n : SparseCalls)
    (books : Books) (hb : books.Sound) :
    (copySparse bits b n).Balanced (fun v => {v}) books ∧
    (fromSparseBuffer bits b n).Balanced (fun v => {v}) books ∧
    ((∃ v b', copySparse bits b n books = (.ok v, b')) ↔
      b.Agree bits ∧ n.defaultAllocator = .ok true ∧ n.create = .ok true ∧ n.use = .ok ()) ∧
    ((∃ v b', fromSparseBuffer bits b n books = (.ok v, b')) ↔
      b.Agree bits ∧ (∃ host, n.snapshot = .ok host) ∧ n.create = .ok true ∧ n.use = .ok ()) :=
  ⟨(copySparse_moves b n).balanced hb, (fromSparseBuffer_moves b n).balanced hb,
    copySparse_ok hw b n books, fromSparseBuffer_ok hw b n books⟩

/-- Three values of a matrix of two rows. -/
def twoRows : Buffers := ⟨.f32, 3, [2, 3], [3], .csr 3 3⟩

theorem sparse_tensors_checked_two_rows :
    (copySparse 64 twoRows ⟨.ok true, .ok true, .ok true, .error (.local "")⟩).Balanced
      (fun v => {v}) .empty ∧
    ∃ v b', fromSparseBuffer 64 twoRows ⟨.ok true, .ok true, .ok true, .ok ()⟩ .empty =
      (.ok v, b') := by
  have hagree : twoRows.Agree 64 :=
    (agree_iff (by decide)).mpr ⟨rfl, rfl⟩
  refine ⟨(sparse_tensors_checked 64 (by decide) twoRows _ .empty Books.sound_empty).1, ?_⟩
  exact (sparse_tensors_checked 64 (by decide) twoRows _ .empty Books.sound_empty).2.2.2.mpr
    ⟨hagree, ⟨true, rfl⟩, rfl, rfl⟩

end Zrt.Sparse
