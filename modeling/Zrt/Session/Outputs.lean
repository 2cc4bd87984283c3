import Mathlib.Algebra.BigOperators.Group.List.Basic
import Zrt.Error

/-! Typed host slices of engine values: `OwnedValue` of `tensor.rs`, `stamp_outputs` of `session.rs`
and `output_mut` of `custom_ops.rs`. -/
namespace Zrt.Outputs

inductive OnnxType where
  | unknown
  | tensor
  | sequence
  | map
  | optional
  | sparseTensor
  | opaqueValue
  deriving DecidableEq

def OnnxType.debug : OnnxType → String
  | .unknown => "Unknown"
  | .tensor => "Tensor"
  | .sequence => "Sequence"
  | .map => "Map"
  | .optional => "Optional"
  | .sparseTensor => "SparseTensor"
  | .opaqueValue => "Opaque"

inductive ElementType where
  | undefined
  | float
  | uint8
  | int8
  | uint16
  | int16
  | int32
  | int64
  | string
  | bool
  | float16
  | double
  | uint32
  | uint64
  | complex64
  | complex128
  | bfloat16
  | float8E4M3FN
  | float8E4M3FNUZ
  | float8E5M2
  | float8E5M2FNUZ
  | uint4
  | int4
  | float4E2M1
  | uint2
  | int2
  | float8E8M0
  deriving DecidableEq

def ElementType.debug : ElementType → String
  | .undefined => "Undefined"
  | .float => "Float"
  | .uint8 => "Uint8"
  | .int8 => "Int8"
  | .uint16 => "Uint16"
  | .int16 => "Int16"
  | .int32 => "Int32"
  | .int64 => "Int64"
  | .string => "String"
  | .bool => "Bool"
  | .float16 => "Float16"
  | .double => "Double"
  | .uint32 => "Uint32"
  | .uint64 => "Uint64"
  | .complex64 => "Complex64"
  | .complex128 => "Complex128"
  | .bfloat16 => "Bfloat16"
  | .float8E4M3FN => "Float8E4M3FN"
  | .float8E4M3FNUZ => "Float8E4M3FNUZ"
  | .float8E5M2 => "Float8E5M2"
  | .float8E5M2FNUZ => "Float8E5M2FNUZ"
  | .uint4 => "Uint4"
  | .int4 => "Int4"
  | .float4E2M1 => "Float4E2M1"
  | .uint2 => "Uint2"
  | .int2 => "Int2"
  | .float8E8M0 => "Float8E8M0"

/-- `element_size`: 0 for packed, string and undefined elements. -/
def elementSize : ElementType → Nat
  | .float | .int32 | .uint32 => 4
  | .double | .int64 | .uint64 | .complex64 => 8
  | .complex128 => 16
  | .uint16 | .int16 | .float16 | .bfloat16 => 2
  | .uint8 | .int8 | .bool | .float8E4M3FN | .float8E4M3FNUZ | .float8E5M2 | .float8E5M2FNUZ
  | .float8E8M0 => 1
  | .uint4 | .int4 | .uint2 | .int2 | .float4E2M1 => 0
  | .undefined | .string => 0

/-- The implementors of `TensorElement`. -/
inductive TensorElement where
  | f32
  | f64
  | i8
  | i16
  | i32
  | i64
  | u8
  | u16
  | u32
  | u64
  | bool
  | f16
  | bf16
  deriving DecidableEq

namespace TensorElement

/-- `ELEM`. -/
def elem : TensorElement → ElementType
  | f32 => .float
  | f64 => .double
  | i8 => .int8
  | i16 => .int16
  | i32 => .int32
  | i64 => .int64
  | u8 => .uint8
  | u16 => .uint16
  | u32 => .uint32
  | u64 => .uint64
  | bool => .bool
  | f16 => .float16
  | bf16 => .bfloat16

/-- `size_of`. -/
def size : TensorElement → Nat
  | i8 | u8 | bool => 1
  | i16 | u16 | f16 | bf16 => 2
  | f32 | i32 | u32 => 4
  | f64 | i64 | u64 => 8

/-- `type_name`. -/
def typeName : TensorElement → String
  | f32 => "f32"
  | f64 => "f64"
  | i8 => "i8"
  | i16 => "i16"
  | i32 => "i32"
  | i64 => "i64"
  | u8 => "u8"
  | u16 => "u16"
  | u32 => "u32"
  | u64 => "u64"
  | bool => "bool"
  | f16 => "half::binary16::f16"
  | bf16 => "half::bfloat::bf16"

end TensorElement

inductive MemoryClass where
  | cpu
  | cudaDevice
  | cudaPinned
  | otherDevice
  | unknown
  deriving DecidableEq

def MemoryClass.debug : MemoryClass → String
  | .cpu => "Cpu"
  | .cudaDevice => "CudaDevice"
  | .cudaPinned => "CudaPinned"
  | .otherDevice => "OtherDevice"
  | .unknown => "Unknown"

def MemoryClass.isHostAccessible (c : MemoryClass) : Bool := c = .cpu ∨ c = .cudaPinned

/-- The product of dimensions. -/
def elementCount (dims : List Int) : Nat := (dims.map Int.toNat).prod

/-- The loop of `checked_element_count`; `bits` is the width of `usize`. -/
def countDim (bits count : Nat) (dim : Int) : Except Error Nat :=
  if dim < 0 then
    .error (.local s!"tensor shape contains a dynamic/unknown dimension ({dim})")
  else if 2 ^ bits ≤ dim.toNat then .error (.local "tensor dimension does not fit usize")
  else if 2 ^ bits ≤ count * dim.toNat then
    .error (.local "tensor shape element count overflows usize")
  else .ok (count * dim.toNat)

def checkedElementCount (bits : Nat) (dims : List Int) : Except Error Nat :=
  dims.foldlM (countDim bits) 1

/-- What is behind a value handle. A tensor's buffer has as many elements as its dimensions say. -/
structure Value where
  kind : OnnxType
  elemType : ElementType
  dims : List Int
  memoryClass : MemoryClass
  bytes : Nat
  sized : elementSize elemType ≠ 0 → bytes = elementCount dims * elementSize elemType

/-- The outcomes of the engine's calls on a value; pointers may be null. -/
structure Engine where
  getValueType : Except Error Unit
  getTensorTypeAndShape : Except Error (Option Nat)
  getTensorElementType : Except Error Unit
  getDimensionsCount : Except Error Unit
  getDimensions : Except Error Unit
  getTensorMemoryInfo : Except Error Unit
  getTensorMutableData : Except Error (Option Nat)

def ensureNonNull {α : Type} (pointer : Option α) (what : String) : Except Error α :=
  match pointer with
  | none => .error (.local ("zrt: " ++ what ++ " pointer is null"))
  | some p => .ok p

/-- `none` is a dangling pointer. -/
def sliceDataPtr (pointer : Option Nat) (len : Nat) (what : String) :
    Except Error (Option Nat) :=
  if pointer = none ∧ len ≠ 0 then .error (.local ("zrt: " ++ what ++ " pointer is null"))
  else .ok pointer

def tensorTypeAndShape (e : Engine) : Except Error Unit :=
  e.getTensorTypeAndShape.bind fun info =>
    (ensureNonNull info "tensor type and shape info").map fun _ => ()

namespace Value

variable (value : Value)

/-- `TensorTypeAndShapeInfo::element_type` of the value. -/
def introspectType (e : Engine) : Except Error ElementType :=
  e.getTensorElementType.map fun _ => value.elemType

/-- `TensorTypeAndShapeInfo::element_count` of the value. -/
def introspectCount (bits : Nat) (e : Engine) : Except Error Nat :=
  e.getDimensionsCount.bind fun _ => e.getDimensions.bind fun _ =>
    checkedElementCount bits value.dims

end Value

structure OwnedValue where
  value : Value
  onnxType : OnnxType
  elemType : ElementType
  count : Nat
  memoryClass : Option MemoryClass

/-- What became of handles: those wrapped, and those released on an error. -/
structure Wrapped where
  outputs : List OwnedValue
  released : List Value
  result : Except Error Unit

def OwnedValue.fromIntrospect (bits : Nat) (value : Value) (e : Engine) : Wrapped :=
  let result : Except Error OwnedValue := e.getValueType.bind fun _ =>
    if value.kind = .tensor then
      (tensorTypeAndShape e).bind fun _ => (value.introspectType e).bind fun elemType =>
        (value.introspectCount bits e).map fun count => ⟨value, value.kind, elemType, count, none⟩
    else .ok ⟨value, value.kind, .undefined, 0, none⟩
  match result with
  | .ok v => ⟨[v], [], .ok ()⟩
  | .error err => ⟨[], [value], .error err⟩

/-- The static type-info of an output. -/
structure Declared where
  onnxType : OnnxType
  elemType : ElementType
  dims : List Int

structure CachedIo where
  onnxType : OnnxType
  elemType : ElementType
  count : Option Nat
  dims : List Int

/-- `collect_io_meta` on one output. -/
def collectIoMeta (bits : Nat) (d : Declared) : CachedIo :=
  if d.onnxType = .tensor then
    ⟨d.onnxType, d.elemType, (checkedElementCount bits d.dims).toOption, d.dims⟩
  else ⟨d.onnxType, .undefined, some 0, []⟩

/-- The count in `stamp_outputs`. -/
def stampCount (bits : Nat) (m : CachedIo) (value : Value) (e : Engine) : Except Error Nat :=
  match m.count with
  | some count => .ok count
  | none =>
    if m.onnxType = .tensor then
      (tensorTypeAndShape e).bind fun _ => value.introspectCount bits e
    else .ok 0

def stampOutputs (bits : Nat) : List CachedIo → List (Value × Engine) → Wrapped
  | m :: metas, (value, e) :: handles =>
    match stampCount bits m value e with
    | .ok count =>
      let rest := stampOutputs bits metas handles
      { rest with outputs := ⟨value, m.onnxType, m.elemType, count, none⟩ :: rest.outputs }
    | .error err => ⟨[], value :: handles.map Prod.fst, .error err⟩
  | _, _ => ⟨[], [], .ok ()⟩

/-- A typed slice; `data` is null for a dangling pointer. -/
structure Slice where
  type : TensorElement
  data : Option Nat
  len : Nat

def ensureCachedHostAccessible (c : MemoryClass) : Except Error Unit :=
  if c.isHostAccessible then .ok ()
  else .error (.local ("tensor memory class is not host-accessible: " ++ c.debug))

namespace OwnedValue

variable (v : OwnedValue)

def ensureHostAccessible (e : Engine) : OwnedValue × Except Error Unit :=
  match v.memoryClass with
  | some c => (v, ensureCachedHostAccessible c)
  | none =>
    match e.getTensorMemoryInfo with
    | .error err => (v, .error err)
    | .ok () => ({ v with memoryClass := some v.value.memoryClass },
        ensureCachedHostAccessible v.value.memoryClass)

/-- The value comes back with its memory class cached. -/
def asSlice (T : TensorElement) (e : Engine) : OwnedValue × Except Error Slice :=
  if v.onnxType ≠ .tensor then
    (v, .error (.local ("zrt: as_slice on a non-tensor (" ++ v.onnxType.debug ++ ") value")))
  else if v.elemType ≠ T.elem then
    (v, .error (.local ("zrt: as_slice<" ++ T.typeName ++ "> on a " ++ v.elemType.debug ++
      " tensor")))
  else
    let (v, accessible) := v.ensureHostAccessible e
    (v, accessible.bind fun _ => e.getTensorMutableData.bind fun data =>
      (sliceDataPtr data v.count "tensor data").map fun data => ⟨T, data, v.count⟩)

end OwnedValue

/-- A kernel context, by the output it allocates at an index: null if that is absent, else a tensor
of the dimensions asked for. -/
structure KernelContext where
  getOutput : Nat → List Int → Except Error (Option Value)
  allocates : ∀ (index : Nat) (dims : List Int) (out : Value),
    getOutput index dims = .ok (some out) → out.dims = dims

/-- The slice that `output_mut` hands to its closure. -/
def KernelContext.outputSlice (c : KernelContext) (bits : Nat) (T : TensorElement) (index : Nat)
    (dims : List Int) (e : Engine) : Except Error Slice :=
  (c.getOutput index dims).bind fun out =>
    (ensureNonNull out "custom-op output value").bind fun _ =>
    e.getTensorMutableData.bind fun data => (checkedElementCount bits dims).bind fun count =>
      (sliceDataPtr data count "custom-op output data").map fun data => ⟨T, data, count⟩

def KernelContext.outputMut (c : KernelContext) (bits : Nat) (T : TensorElement) (index : Nat)
    (dims : List Int) (e : Engine) (f : Slice → Except Error Unit) : Except Error Unit :=
  (c.outputSlice bits T index dims e).bind f

/-- The slice is within the value's buffer and of its element type. -/
def Slice.Fits (s : Slice) (value : Value) : Prop :=
  s.len * s.type.size ≤ value.bytes ∧ s.type.elem = value.elemType

/-- The value has the declared element type, and all elements that the declared dimensions fix. -/
def Declared.Covers (bits : Nat) (d : Declared) (value : Value) : Prop :=
  d.elemType = value.elemType ∧
    ∀ count, checkedElementCount bits d.dims = .ok count → count ≤ elementCount value.dims

variable {bits count : Nat} {dims : List Int} {value : Value} {e : Engine} {v : OwnedValue}
  {T : TensorElement} {s : Slice} {d : Declared}

theorem elementSize_elem (T : TensorElement) : elementSize T.elem = T.size := by
  cases T <;> rfl

theorem size_pos (T : TensorElement) : 0 < T.size := by
  cases T <;> decide

theorem countDim_ok {start : Nat} {dim : Int} (h : countDim bits start dim = .ok count) :
    count = start * dim.toNat := by
  unfold countDim at h
  split at h
  · cases h
  split at h
  · cases h
  split at h
  · cases h
  · exact (Except.ok.inj h).symm

theorem foldlM_countDim {start : Nat} (h : dims.foldlM (countDim bits) start = .ok count) :
    count = start * elementCount dims := by
  induction dims generalizing start with
  | nil =>
    rw [elementCount, List.map_nil, List.prod_nil, Nat.mul_one]
    exact (Except.ok.inj h).symm
  | cons dim dims ih =>
    rw [List.foldlM_cons] at h
    obtain ⟨next, hn, h⟩ := bind_eq_ok h
    rw [ih h, countDim_ok hn, elementCount, elementCount, List.map_cons, List.prod_cons,
      Nat.mul_assoc]

/-- A count that passes the checks is the product. -/
theorem checkedElementCount_ok (h : checkedElementCount bits dims = .ok count) :
    count = elementCount dims := by
  rw [foldlM_countDim h, Nat.one_mul]

/-- A slice has the value's own type and count. -/
theorem asSlice_ok (h : (v.asSlice T e).2 = .ok s) :
    v.onnxType = .tensor ∧ v.elemType = T.elem ∧ s.type = T ∧ s.len = v.count := by
  unfold OwnedValue.asSlice at h
  split at h
  · cases h
  split at h
  · cases h
  · rename_i hk ht
    obtain ⟨_, -, h⟩ := bind_eq_ok h
    obtain ⟨data, -, h⟩ := bind_eq_ok h
    obtain ⟨data, -, rfl⟩ := map_eq_ok h
    refine ⟨not_not.mp hk, not_not.mp ht, rfl, ?_⟩
    dsimp only
    unfold OwnedValue.ensureHostAccessible
    split
    · rfl
    · split <;> rfl

/-- What a slice of a value's element type has to be within. -/
theorem fits_iff (h : s.type.elem = value.elemType) :
    s.Fits value ↔ s.len ≤ elementCount value.dims := by
  have hsize : elementSize value.elemType = s.type.size := by rw [← h, elementSize_elem]
  have hpos := size_pos s.type
  rw [Slice.Fits, value.sized (by omega), hsize, Nat.mul_le_mul_right_iff hpos]
  exact and_iff_left h

theorem introspectCount_ok (h : value.introspectCount bits e = .ok count) :
    count = elementCount value.dims := by
  obtain ⟨_, -, h⟩ := bind_eq_ok h
  obtain ⟨_, -, h⟩ := bind_eq_ok h
  exact checkedElementCount_ok h

/-- An introspected tensor has its own type and count. -/
theorem fromIntrospect_outputs (h : (OwnedValue.fromIntrospect bits value e).outputs = [v]) :
    v.value = value ∧ v.onnxType = value.kind ∧ (value.kind = .tensor →
      v.elemType = value.elemType ∧ v.count = elementCount value.dims) := by
  unfold OwnedValue.fromIntrospect at h
  dsimp only at h
  split at h
  · rename_i made hm
    obtain rfl := List.singleton_inj.mp h
    obtain ⟨_, -, hm⟩ := bind_eq_ok hm
    split at hm
    · obtain ⟨_, -, hm⟩ := bind_eq_ok hm
      obtain ⟨elemType, ht, hm⟩ := bind_eq_ok hm
      obtain ⟨_, -, rfl⟩ := map_eq_ok ht
      obtain ⟨count, hc, rfl⟩ := map_eq_ok hm
      exact ⟨rfl, rfl, fun _ => ⟨rfl, introspectCount_ok hc⟩⟩
    · rename_i hk
      obtain rfl := Except.ok.inj hm
      exact ⟨rfl, rfl, fun h => absurd h hk⟩
  · cases h

/-- An output is stamped from its own metadata and handle. -/
theorem stampOutputs_output {metas : List CachedIo} {handles : List (Value × Engine)} {i : Nat}
    (h : (stampOutputs bits metas handles).outputs[i]? = some v) : ∃ m value e,
      metas[i]? = some m ∧ handles[i]? = some (value, e) ∧
      stampCount bits m value e = .ok v.count ∧
      v.value = value ∧ v.onnxType = m.onnxType ∧ v.elemType = m.elemType := by
  induction metas generalizing handles i with
  | nil => cases h
  | cons m metas ih =>
    cases handles with
    | nil => cases h
    | cons handle handles =>
      obtain ⟨value, e⟩ := handle
      unfold stampOutputs at h
      cases hc : stampCount bits m value e with
      | error err => simp [hc] at h
      | ok count =>
        simp only [hc] at h
        cases i with
        | zero =>
          obtain rfl := Option.some.inj h
          exact ⟨m, value, e, rfl, rfl, hc, rfl, rfl, rfl⟩
        | succ i => exact ih h

/-- Every handle is either wrapped or released. -/
theorem stampOutputs_handles {metas : List CachedIo} {handles : List (Value × Engine)}
    (h : metas.length = handles.length) :
    (stampOutputs bits metas handles).outputs.map OwnedValue.value ++
      (stampOutputs bits metas handles).released = handles.map Prod.fst := by
  induction metas generalizing handles with
  | nil =>
    obtain rfl := List.eq_nil_of_length_eq_zero h.symm
    rfl
  | cons m metas ih =>
    cases handles with
    | nil => cases h
    | cons handle handles =>
      obtain ⟨value, e⟩ := handle
      unfold stampOutputs
      cases stampCount bits m value e with
      | error err => rfl
      | ok count => exact congrArg (value :: ·) (ih (Nat.succ.inj h))

/-- The count a tensor output is stamped with: the declared one, or the value's own. -/
theorem stampCount_ok (hd : d.onnxType = .tensor)
    (h : stampCount bits (collectIoMeta bits d) value e = .ok count) :
    count ≤ elementCount value.dims ↔
      ∀ c, checkedElementCount bits d.dims = .ok c → c ≤ elementCount value.dims := by
  rw [collectIoMeta, if_pos hd] at h
  cases hc : checkedElementCount bits d.dims with
  | ok c =>
    simp only [stampCount, hc, Except.toOption] at h
    obtain rfl := Except.ok.inj h
    constructor
    · intro h c hc
      rwa [← Except.ok.inj hc]
    · exact fun h => h c rfl
  | error err =>
    simp only [stampCount, hc, Except.toOption, if_pos hd] at h
    obtain ⟨_, -, h⟩ := bind_eq_ok h
    refine ⟨?_, fun _ => Nat.le_of_eq (introspectCount_ok h)⟩
    intro _ c hc
    cases hc

/-- What a slice of a stamped output is within. -/
theorem stamped_fits {declared : List Declared} {handles : List (Value × Engine)} {i : Nat}
    {handle : Value × Engine} {cached : Option MemoryClass} (hd : declared[i]? = some d)
    (hh : handles[i]? = some handle)
    (hv : (stampOutputs bits (declared.map (collectIoMeta bits)) handles).outputs[i]? = some v)
    (hs : ({ v with memoryClass := cached }.asSlice T e).2 = .ok s) :
    s.Fits handle.1 ↔ d.Covers bits handle.1 := by
  obtain ⟨m, value, made, hm, hi, hc, -, hkind, htype⟩ := stampOutputs_output hv
  obtain rfl := Option.some.inj (hi.symm.trans hh)
  rw [List.getElem?_map, hd] at hm
  obtain rfl := Option.some.inj hm
  obtain ⟨hk, ht, hT, hlen⟩ := asSlice_ok hs
  have hk : (collectIoMeta bits d).onnxType = .tensor := hkind.symm.trans hk
  have ht : (collectIoMeta bits d).elemType = T.elem := htype.symm.trans ht
  have hd : d.onnxType = .tensor := by
    unfold collectIoMeta at hk
    split at hk
    · assumption
    · exact hk
  have ht : d.elemType = T.elem := by rwa [collectIoMeta, if_pos hd] at ht
  by_cases he : d.elemType = value.elemType
  · rw [fits_iff (by rw [hT, ← ht, he]), Declared.Covers, hlen, stampCount_ok hd hc]
    exact (and_iff_right he).symm
  · refine iff_of_false (fun h => he ?_) (fun h => he h.1)
    rw [ht, ← hT, h.2]

/-- A slice of a stamped output fits exactly when the value is as declared; that of an introspected
value always does; one of a kernel's output does when asked for by the output's element type. -/
theorem slices_fit (bits : Nat) :
    (∀ (declared : List Declared) handles (i : Nat) d (handle : Value × Engine) (v : OwnedValue)
      cached T e s, declared[i]? = some d → handles[i]? = some handle →
      (stampOutputs bits (declared.map (collectIoMeta bits)) handles).outputs[i]? = some v →
      ({ v with memoryClass := cached }.asSlice T e).2 = .ok s →
      (s.Fits handle.1 ↔ d.Covers bits handle.1)) ∧
    (∀ value made (v : OwnedValue) cached T e s,
      (OwnedValue.fromIntrospect bits value made).outputs = [v] →
      ({ v with memoryClass := cached }.asSlice T e).2 = .ok s → s.Fits value) ∧
    ∀ (c : KernelContext) T index dims e s out, c.getOutput index dims = .ok (some out) →
      c.outputSlice bits T index dims e = .ok s → (s.Fits out ↔ T.elem = out.elemType) := by
  refine ⟨fun _ _ _ _ _ _ _ _ _ _ => stamped_fits, ?_, ?_⟩
  · intro value made v cached T e s hv hs
    obtain ⟨-, hkind, hown⟩ := fromIntrospect_outputs hv
    obtain ⟨hk, ht, hT, hlen⟩ := asSlice_ok hs
    obtain ⟨htype, hcount⟩ := hown (hkind.symm.trans hk)
    have ht : v.elemType = T.elem := ht
    rw [fits_iff (by rw [hT, ← ht, htype]), hlen]
    exact Nat.le_of_eq hcount
  · intro c T index dims e s out ho hs
    obtain ⟨_, -, hs⟩ := bind_eq_ok hs
    obtain ⟨_, -, hs⟩ := bind_eq_ok hs
    obtain ⟨data, -, hs⟩ := bind_eq_ok hs
    obtain ⟨count, hc, hs⟩ := bind_eq_ok hs
    obtain ⟨data, -, rfl⟩ := map_eq_ok hs
    refine ⟨fun h => h.2, ?_⟩
    intro h
    rw [fits_iff h, c.allocates index dims out ho]
    exact Nat.le_of_eq (checkedElementCount_ok hc)

/-- Every call succeeds. -/
def Engine.succeed : Engine := ⟨.ok (), .ok (some 1), .ok (), .ok (), .ok (), .ok (), .ok (some 2)⟩

/-- A tensor of two floats. -/
def twoFloats : Value := ⟨.tensor, .float, [2], .cpu, 8, fun _ => rfl⟩

/-- A context whose outputs are floats. -/
def floatContext : KernelContext where
  getOutput _ dims := .ok (some ⟨.tensor, .float, dims, .cpu, elementCount dims * 4, fun _ => rfl⟩)
  allocates := by
    intro _ dims out h
    rw [← Option.some.inj (Except.ok.inj h)]

theorem slices_fit_declared : (⟨.f32, some 2, 2⟩ : Slice).Fits twoFloats ↔
    (⟨.tensor, .float, [2]⟩ : Declared).Covers 64 twoFloats :=
  (slices_fit 64).1 [⟨.tensor, .float, [2]⟩] [(twoFloats, .succeed)] 0 _ _ _ none .f32 .succeed _
    rfl rfl rfl rfl

theorem slices_fit_fails :
    (∃ v s, (stampOutputs 64 [collectIoMeta 64 ⟨.tensor, .float, [4]⟩]
        [(twoFloats, .succeed)]).outputs = [v] ∧
      (v.asSlice .f32 .succeed).2 = .ok s ∧ ¬ s.Fits twoFloats) ∧
    ∃ out s, floatContext.getOutput 0 [2] = .ok (some out) ∧
      floatContext.outputSlice 64 .f64 0 [2] .succeed = .ok s ∧ ¬ s.Fits out := by
  refine ⟨⟨_, _, rfl, rfl, ?_⟩, ⟨_, _, rfl, rfl, ?_⟩⟩
  · intro h
    exact absurd h.1 (by decide)
  · intro h
    exact absurd h.1 (by decide)

end Zrt.Outputs
