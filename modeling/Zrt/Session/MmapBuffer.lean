import Mathlib.Data.Nat.Bitwise
import Zrt.Error

/-! Tensors mapped from files: `MmapBuffer` and `map_file_range` of `tensor.rs`. The width of
`usize` is `bits`. -/
namespace Zrt.Mmap

structure MmapTensorOptions where
  byteOffset : Nat
  sequential : Bool
  hugepage : Bool
  locked : Bool

/-- An element type, by its size, alignment and name. -/
structure Layout where
  size : Nat
  align : Nat
  typeName : String
  size_pos : 0 < size
  align_pos : 0 < align

/-- System calls that succeed, and advice. An offset is an `i64`. -/
inductive Syscall where
  | mmap (address length : Nat) (offset : Int)
  | madvise (address length : Nat) (advice : Int)
  | mlock (address length : Nat)
  | munlock (address length : Nat)
  | munmap (address length : Nat)
  deriving DecidableEq

/-- What the system answers: a text if a call fails. -/
structure System where
  openFile : Except String Unit
  metadata : Except String Nat
  sysconf : Int
  lastOsError : String
  mmap : Nat → Int → Except String Nat
  mlock : Except String Unit

/-- The system calls of a function, and its result. -/
structure Traced (α : Type) where
  calls : List Syscall
  result : Except Error α

def Traced.fail {α : Type} (message : String) : Traced α := ⟨[], .error (.local message)⟩

structure MappedRange where
  ptr : Nat
  len : Nat
  dataOffset : Nat

structure MmapBuffer where
  mappingPtr : Nat
  mappingLen : Nat
  dataPtr : Nat
  len : Nat
  locked : Bool

def pageSize (os : System) : Except Error Nat :=
  if os.sysconf ≤ 0 then .error (.local ("sysconf(_SC_PAGESIZE) failed: " ++ os.lastOsError))
  else .ok os.sysconf.toNat

/-- `byte_offset & !page_mask` of `u64`. -/
def mapOffset (byteOffset page : Nat) : Nat := byteOffset &&& (2 ^ 64 - 1 - (page - 1))

/-- The cast from `u64` to `i64`. -/
def asI64 (x : Nat) : Int := if x < 2 ^ 63 then x else x - 2 ^ 64

def mapFileRange (bits : Nat) (os : System) (byteOffset bytes : Nat) : Traced MappedRange :=
  match pageSize os with
  | .error err => ⟨[], .error err⟩
  | .ok page =>
    let dataOffset := byteOffset - mapOffset byteOffset page
    let mapLen := dataOffset + bytes
    let offset := asI64 (mapOffset byteOffset page)
    if 2 ^ bits ≤ mapLen then .fail "mmap length overflows usize"
    else match os.mmap mapLen offset with
      | .error err =>
        .fail s!"mmap failed for {mapLen} bytes at offset {mapOffset byteOffset page}: {err}"
      | .ok ptr =>
        if ptr = 0 then
          ⟨[.mmap ptr mapLen offset], .error (.local "mmap returned a null pointer")⟩
        else ⟨[.mmap ptr mapLen offset], .ok ⟨ptr, mapLen, dataOffset⟩⟩

/-- The checks of `map_file`: the byte size of the range, which is within the file. -/
def checkRange (bits : Nat) (T : Layout) (os : System) (path : String) (len : Nat)
    (options : MmapTensorOptions) : Except Error Nat :=
  let bytes := len * T.size
  if 2 ^ bits ≤ bytes then .error (.local "mmap tensor byte size overflows usize")
  else match os.openFile with
    | .error err => .error (.local ("failed to open mmap tensor file " ++ path ++ ": " ++ err))
    | .ok () => match os.metadata with
      | .error err => .error (.local ("failed to stat mmap tensor file " ++ path ++ ": " ++ err))
      | .ok fileLen =>
        let rangeEnd := options.byteOffset + bytes
        if 2 ^ 64 ≤ rangeEnd then .error (.local "mmap tensor file range overflows u64")
        else if fileLen < rangeEnd then
          .error (.local
            (s!"mmap tensor range [{options.byteOffset}..{rangeEnd}) " ++
              s!"exceeds file size {fileLen} for {path}"))
        else .ok bytes

namespace MmapBuffer

def drop (b : MmapBuffer) : List Syscall :=
  if b.mappingLen = 0 then []
  else (if b.locked then [.munlock b.mappingPtr b.mappingLen] else []) ++
    [.munmap b.mappingPtr b.mappingLen]

/-- The calls of `advise_sequential_raw` and `advise_hugepage_raw`. -/
def advise (b : MmapBuffer) (options : MmapTensorOptions) : List Syscall :=
  (if options.sequential then [.madvise b.mappingPtr b.mappingLen 2] else []) ++
    (if options.hugepage then [.madvise b.mappingPtr b.mappingLen 14] else [])

/-- `map_file` from a mapping on. A buffer that is not returned is dropped. -/
def ofMapping (bits : Nat) (T : Layout) (os : System) (len : Nat) (options : MmapTensorOptions)
    (mapping : MappedRange) : Traced MmapBuffer :=
  let dataAddr := (mapping.ptr + mapping.dataOffset) % 2 ^ bits
  if dataAddr % T.align ≠ 0 then
    ⟨[.munmap mapping.ptr mapping.len],
      .error (.local ("mmap tensor data pointer is not aligned for " ++ T.typeName))⟩
  else if dataAddr = 0 then .fail "mmap tensor data pointer is null"
  else
    let out : MmapBuffer := ⟨mapping.ptr, mapping.len, dataAddr, len, false⟩
    if options.locked then
      match os.mlock with
      | .error err => ⟨out.advise options ++ out.drop,
          .error (.local s!"mlock failed for {out.mappingLen} bytes: {err}")⟩
      | .ok () => ⟨out.advise options ++ [.mlock out.mappingPtr out.mappingLen],
          .ok { out with locked := true }⟩
    else ⟨out.advise options, .ok out⟩

/-- An empty range is not mapped; its pointers dangle. -/
def mapFile (bits : Nat) (T : Layout) (os : System) (path : String) (len : Nat)
    (options : MmapTensorOptions) : Traced MmapBuffer :=
  match checkRange bits T os path len options with
  | .error err => ⟨[], .error err⟩
  | .ok bytes =>
    if bytes = 0 then ⟨[], .ok ⟨1, 0, T.align, len, false⟩⟩
    else
      let range := mapFileRange bits os options.byteOffset bytes
      match range.result with
      | .error err => ⟨range.calls, .error err⟩
      | .ok mapping =>
        let out := ofMapping bits T os len options mapping
        { out with calls := range.calls ++ out.calls }

end MmapBuffer

/-- The calls up to the end of the function, and of the buffer if it returns one. -/
def Traced.settle (t : Traced MmapBuffer) : List Syscall :=
  t.calls ++ match t.result with
    | .ok b => b.drop
    | .error _ => []

/-- The range that a call maps. -/
def Syscall.mapped : Syscall → Option (Nat × Nat)
  | .mmap address length _ => some (address, length)
  | _ => none

/-- The range that a call unmaps. -/
def Syscall.unmapped : Syscall → Option (Nat × Nat)
  | .munmap address length => some (address, length)
  | _ => none

/-- Each mapping is unmapped once, and nothing else is. -/
def UnmappedOnce (calls : List Syscall) : Prop :=
  calls.filterMap Syscall.unmapped = calls.filterMap Syscall.mapped

/-- What the system documents: pages are a power of two, and a mapping is at an offset that is not
negative and within the address space, not at address 0. -/
structure System.Documented (os : System) (bits k : Nat) : Prop where
  le : k ≤ 64
  page : 0 < os.sysconf → os.sysconf = 2 ^ k
  mmap : ∀ length offset ptr, os.mmap length offset = .ok ptr →
    ptr ≠ 0 ∧ 0 ≤ offset ∧ ptr + length ≤ 2 ^ bits

/-- The system maps the pages of these bytes. -/
structure Granted (bits : Nat) (os : System) (byteOffset bytes page ptr : Nat) : Prop where
  pages : pageSize os = .ok page
  fits : byteOffset - mapOffset byteOffset page + bytes < 2 ^ bits
  mapped : os.mmap (byteOffset - mapOffset byteOffset page + bytes)
    (asI64 (mapOffset byteOffset page)) = .ok ptr

/-- The buffer is the requested part of the file: the bytes of its elements from `byteOffset` on. -/
structure MmapBuffer.Exact (b : MmapBuffer) (T : Layout) (os : System) (len : Nat)
    (options : MmapTensorOptions) (page : Nat) (calls : List Syscall) : Prop where
  file : ∃ fileLen, os.metadata = .ok fileLen ∧ options.byteOffset + len * T.size ≤ fileLen
  overflow : options.byteOffset + len * T.size < 2 ^ 64
  elements : b.len = len
  mapped : ∃ offset : Nat, .mmap b.mappingPtr b.mappingLen offset ∈ calls ∧ page ∣ offset ∧
    offset + (b.dataPtr - b.mappingPtr) = options.byteOffset
  aligned : T.align ∣ b.dataPtr
  first : b.mappingPtr ≤ b.dataPtr
  last : b.dataPtr + len * T.size = b.mappingPtr + b.mappingLen

variable {bits k page len mapLen bytes : Nat} {T : Layout} {os : System} {path : String}
  {options : MmapTensorOptions} {offset : Int} {b : MmapBuffer} {mapping : MappedRange}

/-- The mask rounds down to a page. -/
theorem mapOffset_eq {byteOffset : Nat} (hk : k ≤ 64) (hb : byteOffset < 2 ^ 64) :
    mapOffset byteOffset (2 ^ k) = byteOffset / 2 ^ k * 2 ^ k := by
  have hpos : 0 < 2 ^ k := Nat.two_pow_pos k
  have hle : 2 ^ k ≤ 2 ^ 64 := Nat.pow_le_pow_right (by decide) hk
  have hmask : 2 ^ 64 - 1 - (2 ^ k - 1) = 2 ^ 64 - (2 ^ k - 1 + 1) := by omega
  apply Nat.eq_of_testBit_eq
  intro i
  rw [mapOffset, hmask, Nat.testBit_and, Nat.testBit_two_pow_sub_succ (by omega),
    Nat.testBit_two_pow_sub_one, Nat.testBit_mul_two_pow, Nat.testBit_div_two_pow]
  by_cases hi : k ≤ i
  · -- above the page the mask has all bits that the offset can have
    rw [Nat.sub_add_cancel hi]
    by_cases hlt : i < 64
    · simp [hi, hlt]
    · have hbig : byteOffset < 2 ^ i :=
        Nat.lt_of_lt_of_le hb (Nat.pow_le_pow_right (by decide) (by omega))
      simp [Nat.testBit_lt_two_pow hbig]
  · have hlt : i < k := by omega
    simp [hlt]

theorem checkRange_ok (h : checkRange bits T os path len options = .ok bytes) :
    bytes = len * T.size ∧ bytes < 2 ^ bits ∧ options.byteOffset + bytes < 2 ^ 64 ∧
      ∃ fileLen, os.metadata = .ok fileLen ∧ options.byteOffset + bytes ≤ fileLen := by
  unfold checkRange at h
  dsimp only at h
  split at h
  · cases h
  rename_i hbits
  split at h
  · cases h
  split at h
  · cases h
  rename_i fileLen hm
  split at h
  · cases h
  rename_i hover
  split at h
  · cases h
  rename_i hend
  obtain rfl := Except.ok.inj h
  exact ⟨rfl, by omega, by omega, fileLen, hm, by omega⟩

/-- A range that is not mapped leaves no call, one that is leaves its mapping. -/
theorem mapFileRange_cases (bits : Nat) (os : System) (byteOffset bytes : Nat) :
    (∃ err, mapFileRange bits os byteOffset bytes = ⟨[], .error err⟩ ∧
      ∀ page ptr, ¬ Granted bits os byteOffset bytes page ptr) ∨
    ∃ page ptr, Granted bits os byteOffset bytes page ptr ∧
      mapFileRange bits os byteOffset bytes =
        ⟨[.mmap ptr (byteOffset - mapOffset byteOffset page + bytes)
          (asI64 (mapOffset byteOffset page))],
        if ptr = 0 then .error (.local "mmap returned a null pointer")
        else .ok ⟨ptr, byteOffset - mapOffset byteOffset page + bytes,
          byteOffset - mapOffset byteOffset page⟩⟩ := by
  unfold mapFileRange
  cases hp : pageSize os with
  | error err => exact .inl ⟨err, rfl, fun page ptr h => by cases hp.symm.trans h.pages⟩
  | ok page =>
    dsimp only
    split
    · rename_i hlen
      refine .inl ⟨_, rfl, fun page' ptr h => ?_⟩
      obtain rfl := Except.ok.inj (hp.symm.trans h.pages)
      exact absurd h.fits (Nat.not_lt.mpr hlen)
    · rename_i hlen
      cases hm : os.mmap (byteOffset - mapOffset byteOffset page + bytes)
        (asI64 (mapOffset byteOffset page)) with
      | error err =>
        refine .inl ⟨_, rfl, fun page' ptr h => ?_⟩
        obtain rfl := Except.ok.inj (hp.symm.trans h.pages)
        cases hm.symm.trans h.mapped
      | ok ptr =>
        refine .inr ⟨page, ptr, ⟨hp, Nat.not_le.mp hlen, hm⟩, ?_⟩
        dsimp only
        split <;> rfl

/-- What is granted once is granted so. -/
theorem Granted.unique {byteOffset ptr page' ptr' : Nat}
    (h : Granted bits os byteOffset bytes page ptr)
    (h' : Granted bits os byteOffset bytes page' ptr') : page = page' ∧ ptr = ptr' := by
  obtain rfl := Except.ok.inj (h.pages.symm.trans h'.pages)
  exact ⟨rfl, Except.ok.inj (h.mapped.symm.trans h'.mapped)⟩

/-- Calls that unmap one range, and map none. -/
def Unmaps (calls : List Syscall) (range : Nat × Nat) : Prop :=
  calls.filterMap Syscall.unmapped = [range] ∧ calls.filterMap Syscall.mapped = []

/-- A drop after calls that neither map nor unmap. -/
theorem append_drop_unmaps {calls : List Syscall} (h : b.mappingLen ≠ 0)
    (hu : calls.filterMap Syscall.unmapped = []) (hm : calls.filterMap Syscall.mapped = []) :
    Unmaps (calls ++ b.drop) (b.mappingPtr, b.mappingLen) := by
  rw [Unmaps, List.filterMap_append, List.filterMap_append, hu, hm, MmapBuffer.drop, if_neg h]
  cases b.locked <;> exact ⟨rfl, rfl⟩

theorem advise_none (b : MmapBuffer) (options : MmapTensorOptions) :
    (b.advise options).filterMap Syscall.unmapped = [] ∧
      (b.advise options).filterMap Syscall.mapped = [] := by
  unfold MmapBuffer.advise
  cases options.sequential <;> cases options.hugepage <;> exact ⟨rfl, rfl⟩

/-- From a mapping on, all paths but that of null data unmap it. -/
theorem ofMapping_unmaps (bits : Nat) (T : Layout) (os : System) (len : Nat)
    (options : MmapTensorOptions) (mapping : MappedRange) (hlen : mapping.len ≠ 0)
    (hdata : (mapping.ptr + mapping.dataOffset) % 2 ^ bits ≠ 0) :
    Unmaps (MmapBuffer.ofMapping bits T os len options mapping).settle
      (mapping.ptr, mapping.len) := by
  unfold MmapBuffer.ofMapping
  dsimp only
  split
  · exact ⟨rfl, rfl⟩
  obtain ⟨hu, hm⟩ := advise_none ⟨mapping.ptr, mapping.len,
    (mapping.ptr + mapping.dataOffset) % 2 ^ bits, len, false⟩ options
  split
  · split
    · -- the buffer whose pages could not be locked is dropped here
      rw [Traced.settle, List.append_nil]
      exact append_drop_unmaps hlen hu hm
    · apply append_drop_unmaps hlen
      · rw [List.filterMap_append, hu]
        rfl
      · rw [List.filterMap_append, hm]
        rfl
  · exact append_drop_unmaps hlen hu hm

theorem pageSize_ok (hd : os.Documented bits k) (h : pageSize os = .ok page) : page = 2 ^ k := by
  unfold pageSize at h
  split at h
  · cases h
  · rename_i hpos
    rw [← Except.ok.inj h, hd.page (Int.not_le.mp hpos)]
    rfl

theorem asI64_nonneg {x : Nat} (hx : x < 2 ^ 64) (h : 0 ≤ asI64 x) : asI64 x = x := by
  unfold asI64 at h ⊢
  split
  · rfl
  · rename_i hlt
    rw [if_neg hlt] at h
    omega

/-- The first byte of a range that is granted is where it should be. -/
theorem Granted.start (hd : os.Documented bits k) {byteOffset ptr : Nat} (hb : byteOffset < 2 ^ 64)
    (hpos : bytes ≠ 0) (h : Granted bits os byteOffset bytes page ptr) :
    mapOffset byteOffset page ≤ byteOffset ∧ page ∣ mapOffset byteOffset page ∧
      asI64 (mapOffset byteOffset page) = mapOffset byteOffset page ∧
      (ptr + (byteOffset - mapOffset byteOffset page)) % 2 ^ bits =
        ptr + (byteOffset - mapOffset byteOffset page) := by
  have hpage := pageSize_ok hd h.pages
  have hoffset := mapOffset_eq hd.le hb
  rw [← hpage] at hoffset
  have hle : mapOffset byteOffset page ≤ byteOffset := by
    rw [hoffset]
    exact Nat.div_mul_le_self _ _
  obtain ⟨-, hnonneg, hend⟩ := hd.mmap _ _ _ h.mapped
  refine ⟨hle, ⟨_, hoffset.trans (Nat.mul_comm ..)⟩, asI64_nonneg (by omega) hnonneg, ?_⟩
  apply Nat.mod_eq_of_lt
  omega

/-- What `map_file` does with a range that is granted. -/
theorem mapFile_granted {ptr : Nat} (hd : os.Documented bits k)
    (hr : checkRange bits T os path len options = .ok (len * T.size)) (hpos : len * T.size ≠ 0)
    (hg : Granted bits os options.byteOffset (len * T.size) page ptr) :
    let offset := mapOffset options.byteOffset page
    let mapping := ⟨ptr, options.byteOffset - offset + len * T.size, options.byteOffset - offset⟩
    let out := MmapBuffer.ofMapping bits T os len options mapping
    MmapBuffer.mapFile bits T os path len options =
      { out with calls := .mmap ptr mapping.len (asI64 offset) :: out.calls } := by
  obtain ⟨err, -, hnone⟩ | ⟨page', ptr', hg', hrun⟩ :=
    mapFileRange_cases bits os options.byteOffset (len * T.size)
  · exact absurd hg (hnone page ptr)
  obtain ⟨rfl, rfl⟩ := hg.unique hg'
  unfold MmapBuffer.mapFile
  rw [hr]
  dsimp only
  rw [if_neg hpos, hrun]
  dsimp only
  rw [if_neg (hd.mmap _ _ _ hg.mapped).1]
  rfl

/-- And with one that is not. -/
theorem mapFile_refused (h : ¬ (checkRange bits T os path len options = .ok (len * T.size) ∧
      len * T.size ≠ 0 ∧
        ∃ page ptr, Granted bits os options.byteOffset (len * T.size) page ptr)) :
    (∃ err, MmapBuffer.mapFile bits T os path len options = ⟨[], .error err⟩) ∨
      len * T.size = 0 ∧
        MmapBuffer.mapFile bits T os path len options = ⟨[], .ok ⟨1, 0, T.align, len, false⟩⟩ := by
  unfold MmapBuffer.mapFile
  cases hr : checkRange bits T os path len options with
  | error err => exact .inl ⟨err, rfl⟩
  | ok bytes =>
    obtain rfl := (checkRange_ok hr).1
    dsimp only
    by_cases hpos : len * T.size = 0
    · rw [if_pos hpos]
      exact .inr ⟨hpos, rfl⟩
    · rw [if_neg hpos]
      obtain ⟨err, hrun, -⟩ | ⟨page, ptr, hg, -⟩ :=
        mapFileRange_cases bits os options.byteOffset (len * T.size)
      · rw [hrun]
        exact .inl ⟨err, rfl⟩
      · exact absurd ⟨hr, hpos, page, ptr, hg⟩ h

/-- What is mapped is unmapped once. -/
theorem unmappedOnce_mapFile (hd : os.Documented bits k) :
    UnmappedOnce (MmapBuffer.mapFile bits T os path len options).settle := by
  by_cases h : checkRange bits T os path len options = .ok (len * T.size) ∧ len * T.size ≠ 0 ∧
      ∃ page ptr, Granted bits os options.byteOffset (len * T.size) page ptr
  · obtain ⟨hr, hpos, page, ptr, hg⟩ := h
    have hb : options.byteOffset < 2 ^ 64 := by
      have := (checkRange_ok hr).2.2.1
      omega
    obtain ⟨-, -, -, hdata⟩ := hg.start hd hb hpos
    have hnull : ptr ≠ 0 := (hd.mmap _ _ _ hg.mapped).1
    rw [mapFile_granted hd hr hpos hg]
    obtain ⟨hu, hm⟩ := ofMapping_unmaps bits T os len options ⟨ptr, options.byteOffset -
      mapOffset options.byteOffset page + len * T.size,
      options.byteOffset - mapOffset options.byteOffset page⟩
      (by dsimp only; omega) (by rw [hdata]; omega)
    exact hu.trans (congrArg ((ptr, _) :: ·) hm).symm
  · obtain ⟨err, hrun⟩ | ⟨-, hrun⟩ := mapFile_refused h <;> rw [hrun] <;> rfl

/-- A buffer made from a mapping is aligned, and holds the mapping. -/
theorem ofMapping_ok (h : (MmapBuffer.ofMapping bits T os len options mapping).result = .ok b) :
    T.align ∣ b.dataPtr ∧ b.dataPtr = (mapping.ptr + mapping.dataOffset) % 2 ^ bits ∧
      b.mappingPtr = mapping.ptr ∧ b.mappingLen = mapping.len ∧ b.len = len := by
  unfold MmapBuffer.ofMapping at h
  dsimp only at h
  split at h
  · cases h
  rename_i halign
  have halign := Nat.dvd_of_mod_eq_zero (not_not.mp halign)
  split at h
  · cases h
  split at h
  · split at h
    · cases h
    · obtain rfl := Except.ok.inj h
      exact ⟨halign, rfl, rfl, rfl, rfl⟩
  · obtain rfl := Except.ok.inj h
    exact ⟨halign, rfl, rfl, rfl, rfl⟩

/-- A buffer of a range that is not empty is that range of the file. -/
theorem mapFile_exact (hd : os.Documented bits k)
    (h : (MmapBuffer.mapFile bits T os path len options).result = .ok b) (hpos : len * T.size ≠ 0) :
    b.Exact T os len options (2 ^ k) (MmapBuffer.mapFile bits T os path len options).calls := by
  by_cases hg : checkRange bits T os path len options = .ok (len * T.size) ∧ len * T.size ≠ 0 ∧
      ∃ page ptr, Granted bits os options.byteOffset (len * T.size) page ptr
  · obtain ⟨hr, -, page, ptr, hg⟩ := hg
    obtain ⟨-, -, hover, fileLen, hmeta, hend⟩ := checkRange_ok hr
    have hpage := pageSize_ok hd hg.pages
    obtain ⟨hle, hdvd, hoffset, hdata⟩ := hg.start hd (by omega) hpos
    rw [mapFile_granted hd hr hpos hg] at h ⊢
    obtain ⟨halign, hptr, hmap, hlen, hb⟩ := ofMapping_ok h
    dsimp only at hptr hmap hlen
    rw [hdata] at hptr
    refine ⟨⟨fileLen, hmeta, hend⟩, hover, hb, ⟨mapOffset options.byteOffset page, ?_, ?_, ?_⟩,
      halign, ?_, ?_⟩
    · rw [hmap, hlen, hoffset]
      exact List.mem_cons_self
    · rwa [← hpage]
    all_goals omega
  · obtain ⟨err, hrun⟩ | ⟨hzero, -⟩ := mapFile_refused hg
    · rw [hrun] at h
      cases h
    · exact absurd hzero hpos

/-- A mapped buffer is exactly the requested range of the file, and what is mapped is unmapped once,
by the end of the function or of its buffer. -/
theorem mapped_exactly (bits k : Nat) (T : Layout) (os : System) (hd : os.Documented bits k)
    (path : String) (len : Nat) (options : MmapTensorOptions) :
    (∀ b, (MmapBuffer.mapFile bits T os path len options).result = .ok b → len * T.size ≠ 0 →
      b.Exact T os len options (2 ^ k) (MmapBuffer.mapFile bits T os path len options).calls) ∧
    UnmappedOnce (MmapBuffer.mapFile bits T os path len options).settle :=
  ⟨fun _ => mapFile_exact hd, unmappedOnce_mapFile hd⟩

/-- A system with a file of 64 kB and pages of 4 kB that maps at one address. -/
def mapsAt (ptr : Nat) : System where
  openFile := .ok ()
  metadata := .ok 65536
  sysconf := 4096
  lastOsError := ""
  mmap length offset := if 0 ≤ offset ∧ ptr + length ≤ 2 ^ 64 then .ok ptr else .error "ENOMEM"
  mlock := .ok ()

theorem mapsAt_documented {ptr : Nat} (hptr : ptr ≠ 0) : (mapsAt ptr).Documented 64 12 where
  le := by decide
  page _ := rfl
  mmap length offset p h := by
    unfold mapsAt at h
    dsimp only at h
    split at h
    · obtain rfl := Except.ok.inj h
      exact ⟨hptr, by assumption⟩
    · cases h

/-- The layout of `f32`. -/
def f32 : Layout := ⟨4, 4, "f32", by decide, by decide⟩

/-- Three values behind byte 5000, locked: the second page is mapped, and what is in it unmapped. -/
theorem mapped_exactly_locked :
    (∃ b, (MmapBuffer.mapFile 64 f32 (mapsAt 4096) "w.bin" 3 ⟨5000, true, false, true⟩).result =
        .ok b ∧ b.dataPtr = 5000 ∧ b.Exact f32 (mapsAt 4096) 3 ⟨5000, true, false, true⟩ (2 ^ 12)
          (MmapBuffer.mapFile 64 f32 (mapsAt 4096) "w.bin" 3 ⟨5000, true, false, true⟩).calls) ∧
    UnmappedOnce
      (MmapBuffer.mapFile 64 f32 (mapsAt 4096) "w.bin" 3 ⟨5000, true, false, true⟩).settle := by
  obtain ⟨hexact, hunmapped⟩ := mapped_exactly 64 12 f32 (mapsAt 4096)
    (mapsAt_documented (by decide)) "w.bin" 3 ⟨5000, true, false, true⟩
  exact ⟨⟨_, rfl, rfl, hexact _ rfl (by decide)⟩, hunmapped⟩

end Zrt.Mmap
