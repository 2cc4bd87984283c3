import Zrt.Handover
import Zrt.Session.Constructors
import Zrt.Session.OutputHandles

/-! Getters that copy what ORT allocates for them: of `metadata.rs`, `compat.rs`, `io_binding.rs`,
`session.rs`, `custom_ops.rs`, `diagnostics.rs`, `ep.rs`, `hardware.rs` and `model_editor.rs`. -/
namespace Zrt.Getters

open Ownership (Books Comp)
open Constructors (check create createNonNull getDefault cstrToString)
open Handles (Owned Returned collectFromRaw dropAll fromIntrospect)
open Outputs (CachedIo ElementType Engine OnnxType Value checkedElementCount ensureNonNull)

/-- A text before its NUL, and the outcome of its `free`. -/
structure CStr where
  bytes : ByteArray
  freed : Except Error Unit

/-- An array that a call allocates with what its entries point to, null or not, and the outcome of
the array's `free`. -/
structure CArray (α : Type) where
  entries : List (Option α)
  freed : Except Error Unit

/-- An object of the allocator. -/
structure Memory (α : Type) where
  handle : Nat
  contents : α

/-- An array and its entries as objects of the allocator. -/
structure Allocated (α : Type) where
  handle : Nat
  entries : List (Option (Memory α))
  freed : Except Error Unit

variable {α β : Type}

/-- A call that gives a value besides its status. -/
def ask (outcome : Except Error α) : Comp Error α := do
  check (outcome.map fun _ => ())
  Comp.ofExcept outcome

def allocate : Option α → Comp Error (Option (Memory α))
  | none => pure none
  | some a => do
    let x ← Comp.make
    pure (some ⟨x, a⟩)

def allocateEach : List (Option α) → Comp Error (List (Option (Memory α)))
  | [] => pure []
  | a :: rest => do
    let p ← allocate a
    let ps ← allocateEach rest
    pure (p :: ps)

def allocateArray : Option (CArray α) → Comp Error (Option (Allocated α))
  | none => pure none
  | some array => do
    let x ← Comp.make
    let entries ← allocateEach array.entries
    pure (some ⟨x, entries, array.freed⟩)

/-- A call that fails gives no memory. -/
def fetch (answer : Except Error (Option α)) : Comp Error (Option (Memory α)) := do
  let found ← ask answer
  allocate found

/-- `Allocator::free`. Whatever its status, the memory is no longer the caller's. -/
def free (x : Nat) (freed : Except Error Unit) : Comp Error Unit := do
  Comp.release x
  check freed

/-- The calls of a getter of one text. -/
structure TextCalls where
  defaultAllocator : Except Error Bool
  get : Except Error (Option CStr)

/-- `fetch_string` of `ModelMetadata`, and of its callers `producer_name`, `graph_name`, `domain`,
`description` and `graph_description`. -/
def fetchString (what : String) (n : TextCalls) : Comp Error (Option String) := do
  getDefault n.defaultAllocator
  let raw ← fetch n.get
  match raw with
  | none => pure none
  | some p =>
    let s := cstrToString (some p.contents.bytes) what
    free p.handle p.contents.freed
    Comp.ofExcept (s.map some)

def lookup (key : String) (n : TextCalls) : Comp Error (Option String) := do
  let _ckey ← Comp.ofExcept (cstring key "metadata key contains a NUL")
  fetchString "custom metadata value" n

/-- An array with its count, which is zero when the array is null. -/
structure Counted (α : Type) where
  array : Option (CArray α)
  count : Int
  count_array : ∀ a, array = some a → 0 < count ∧ (a.entries.length : Int) = count

/-- The loop of `custom_metadata_keys`: the keys and the first error. -/
def keyLoop (out : List String) (firstErr : Option Error) :
    List (Option (Memory CStr)) → Comp Error (List String × Option Error)
  | [] => pure (out, firstErr)
  | none :: rest => keyLoop out firstErr rest
  | some p :: rest => do
    let key := cstrToString (some p.contents.bytes) "custom metadata key"
    let freed ← Comp.capture (free p.handle p.contents.freed)
    match firstErr, key, freed with
    | none, .ok key, .ok () => keyLoop (out ++ [key]) none rest
    | none, .error err, _ => keyLoop out (some err) rest
    | none, .ok _, .error err => keyLoop out (some err) rest
    | some err, _, _ => keyLoop out (some err) rest

structure KeysCalls where
  defaultAllocator : Except Error Bool
  get : Except Error (Counted CStr)

/-- An error of the array's `free` comes before those of the keys. -/
def customMetadataKeys (n : KeysCalls) : Comp Error (List String) := do
  getDefault n.defaultAllocator
  let keys ← ask n.get
  let array ← allocateArray keys.array
  match array with
  | none => pure []
  | some array =>
    if 0 < keys.count then do
      let (out, firstErr) ← keyLoop [] none array.entries
      free array.handle array.freed
      Comp.ofExcept (firstErr.elim (.ok out) .error)
    else pure []

/-- A `free` that fails is no error here. -/
def copyAndFreeCstr (raw : Option (Memory CStr)) : Comp Error (Option String) :=
  match raw with
  | none => pure none
  | some p => do
    let s := cstrToString (some p.contents.bytes) "compatibility info"
    Comp.discard (free p.handle p.contents.freed)
    Comp.ofExcept (s.map some)

def compatibilityInfoFromPath (modelPath epType : String) (n : TextCalls) :
    Comp Error (Option String) := do
  let _cpath ← Comp.ofExcept (cstring modelPath "model path contains a NUL byte")
  let _cep ← Comp.ofExcept (cstring epType "ep type contains a NUL byte")
  getDefault n.defaultAllocator
  let info ← fetch n.get
  copyAndFreeCstr info

def compatibilityInfoFromBytes (epType : String) (n : TextCalls) : Comp Error (Option String) := do
  let _cep ← Comp.ofExcept (cstring epType "ep type contains a NUL byte")
  getDefault n.defaultAllocator
  let info ← fetch n.get
  copyAndFreeCstr info

def endProfiling (n : TextCalls) : Comp Error String := do
  getDefault n.defaultAllocator
  let raw ← fetch n.get
  match raw with
  | none => Comp.ofExcept (.error (.local "zrt: ORT returned null profiling path"))
  | some p =>
    let path := cstrToString (some p.contents.bytes) "profiling path"
    let freed ← Comp.capture (free p.handle p.contents.freed)
    Comp.ofExcept (path.bind fun path => freed.map fun _ => path)

/-- The bytes of the name. -/
def overridableInitializerName (n : TextCalls) : Comp Error ByteArray := do
  getDefault n.defaultAllocator
  let raw ← fetch n.get
  match raw with
  | none => Comp.ofExcept (.error (.local "zrt: overridable initializer name pointer is null"))
  | some p =>
    Comp.discard (free p.handle p.contents.freed)
    pure p.contents.bytes

/-- `as_string` of provider options. -/
def asString (n : TextCalls) : Comp Error String := do
  getDefault n.defaultAllocator
  let raw ← fetch n.get
  match raw with
  | none => pure ""
  | some p =>
    let s := cstrToString (some p.contents.bytes) "execution provider options"
    free p.handle p.contents.freed
    Comp.ofExcept s

structure NamesCalls where
  count : Except Error Nat
  name : Nat → Except Error (Option CStr)

def nameLoop (n : NamesCalls) : List Nat → Comp Error (List ByteArray)
  | [] => pure []
  | i :: rest => do
    let raw ← fetch (n.name i)
    match raw with
    | none => Comp.ofExcept (.error (.local "zrt: session I/O name pointer is null"))
    | some p =>
      free p.handle p.contents.freed
      let names ← nameLoop n rest
      pure (p.contents.bytes :: names)

/-- The names as bytes. -/
def collectIoNames (n : NamesCalls) : Comp Error (List ByteArray) := do
  let count ← ask n.count
  nameLoop n (List.range count)

/-- The calls for one input or output; `typeInfo` is a status and whether a handle was written. -/
structure MetaCalls where
  typeInfo : Except Error Unit × Bool
  onnxType : Except Error OnnxType
  castToTensor : Except Error Unit
  elementType : Except Error ElementType
  dimensionsCount : Except Error Nat
  dimensions : Except Error (List Int)
  symbolicDimensions : Except Error (List (Option ByteArray))

/-- The closure of `collect_io_meta`; the symbolic dimensions stand beside the rest. -/
def ioMeta (bits : Nat) (n : MetaCalls) : Comp Error (CachedIo × List (Option String)) := do
  check n.typeInfo.1
  let onnxType ← ask n.onnxType
  if onnxType = .tensor then do
    check n.castToTensor
    let elemType ← ask n.elementType
    let _rank ← ask n.dimensionsCount
    let dims ← ask n.dimensions
    let sptrs ← ask n.symbolicDimensions
    let symbolic ← Comp.ofExcept (sptrs.mapM fun p =>
      if p.isNone then .ok none else (cstrToString p "symbolic dimension").map some)
    pure (⟨onnxType, elemType, (checkedElementCount bits dims).toOption, dims⟩, symbolic)
  else pure (⟨onnxType, .undefined, some 0, []⟩, [])

/-- A type info that was written is released, with an error or without. -/
def collectIoMeta (bits : Nat) :
    List MetaCalls → Comp Error (List (CachedIo × List (Option String)))
  | [] => pure []
  | n :: rest => do
    let typeInfo ← allocate (if n.typeInfo.2 then some () else none)
    let found ← match typeInfo with
      | none => ioMeta bits n
      | some p => Comp.guard p.handle (ioMeta bits n)
    let out ← collectIoMeta bits rest
    pure (found :: out)

/-- A value handle that may be null, with what is behind it. -/
structure BoundValue where
  present : Bool
  value : Value
  engine : Engine

/-- The array of the value handles, if it is not null, and its `free`. -/
structure ValuesCalls where
  defaultAllocator : Except Error Bool
  get : Except Error (Option (List BoundValue × Except Error Unit))

def allocateValues : List BoundValue → Comp Error (List Returned)
  | [] => pure []
  | v :: rest => do
    let p ← allocate (if v.present then some () else none)
    let rs ← allocateValues rest
    pure (⟨p.map Memory.handle, v.value, v.engine⟩ :: rs)

/-- `ReleaseValue` of null does nothing. -/
def releaseAll : List (Option Nat) → Comp Error Unit
  | [] => pure ()
  | none :: rest => releaseAll rest
  | some x :: rest => do
    Comp.release x
    releaseAll rest

/-- What follows `collect_from_raw`: values are dropped when the array cannot be freed. -/
def settleValues (result : Except Error (List Owned)) (freed : Except Error Unit) :
    Comp Error (List Owned) :=
  match result, freed with
  | .ok values, .ok () => pure values
  | .ok values, .error err => do
    releaseAll (dropAll values)
    Comp.ofExcept (.error err)
  | .error err, _ => Comp.ofExcept (.error err)

def outputValues (bits : Nat) (n : ValuesCalls) : Comp Error (List Owned) := do
  getDefault n.defaultAllocator
  let out ← ask n.get
  match out with
  | none => pure []
  | some (values, arrayFreed) =>
    let array ← Comp.make
    let handles ← allocateValues values
    let call := collectFromRaw bits handles
    releaseAll call.released
    let freed ← Comp.capture (free array arrayFreed)
    settleValues call.result freed

/-- The names that a buffer holds one behind the other, by their lengths. -/
def splitNames (buffer : ByteArray) : Nat → List Nat → Except Error (List String)
  | _, [] => .ok []
  | offset, n :: lens =>
    let name : Except Error String :=
      if n = 0 then .ok ""
      else match String.fromUTF8? (buffer.extract offset (offset + n)) with
        | some s => .ok s
        | none => .error (.local "zrt: bound output name is not valid UTF-8")
    name.bind fun name => (splitNames buffer (offset + n) lens).map (name :: ·)

/-- The buffer and the lengths that `GetBoundOutputNames` wrote, with their `free`s. -/
structure BoundNames where
  buffer : Option (ByteArray × Except Error Unit)
  lengths : Option (List Nat × Except Error Unit)
  count : Nat

def collectBoundNames (status : Except Error Unit) (b : BoundNames) : Except Error (List String) :=
  status.bind fun _ =>
    match b.buffer, b.lengths with
    | some (buffer, _), some (lengths, _) =>
      if b.count ≠ 0 then splitNames buffer 0 (lengths.take b.count) else .ok []
    | _, _ => .ok []

structure BoundNamesCalls where
  defaultAllocator : Except Error Bool
  status : Except Error Unit
  get : BoundNames

/-- Frees memory unless it is null; a `free` that fails is no error. -/
def freeIfSome (p : Option (Memory (α × Except Error Unit))) : Comp Error Unit :=
  match p with
  | none => pure ()
  | some p => Comp.discard (free p.handle p.contents.2)

/-- What was written is freed even if the call failed. -/
def outputNames (n : BoundNamesCalls) : Comp Error (List String) := do
  getDefault n.defaultAllocator
  let buffer ← allocate n.get.buffer
  let lengths ← allocate n.get.lengths
  let status ← Comp.capture (check n.status)
  let result := collectBoundNames status n.get
  freeIfSome buffer
  freeIfSome lengths
  Comp.ofExcept result

structure AttrCalls where
  defaultAllocator : Except Error Bool
  status : Except Error Unit
  array : Option (CArray CStr)

/-- The texts of an array of strings, null as the empty text. -/
def textsOf (what : String) (entries : List (Option ByteArray)) : Except Error (List String) :=
  entries.mapM fun raw => cstrToString raw what

/-- Frees the strings of an array that are not null. -/
def freeEach : List (Option (Memory CStr)) → Comp Error Unit
  | [] => pure ()
  | none :: rest => freeEach rest
  | some p :: rest => do
    Comp.discard (free p.handle p.contents.freed)
    freeEach rest

def attrStrings (name : String) (n : AttrCalls) : Comp Error (List String) := do
  let _name ← Comp.ofExcept (cstring name "custom-op string contains a NUL byte")
  getDefault n.defaultAllocator
  let array ← allocateArray n.array
  let status ← Comp.capture (check n.status)
  match array with
  | none => Comp.ofExcept (status.map fun _ => [])
  | some array =>
    let result := status.bind fun _ => textsOf "kernel-info string attribute"
      (array.entries.map fun p => p.map fun p => p.contents.bytes)
    freeEach array.entries
    Comp.discard (free array.handle array.freed)
    Comp.ofExcept result

/-- `attr_tensor`. A value that cannot be introspected is released. -/
def attrTensor (bits : Nat) (name : String) (get : Except Error BoundValue) : Comp Error Owned := do
  let _name ← Comp.ofExcept (cstring name "custom-op string contains a NUL byte")
  let out ← ask get
  let handle ← allocate (if out.present then some () else none)
  let call := fromIntrospect bits ⟨handle.map Memory.handle, out.value, out.engine⟩
  releaseAll call.released
  Comp.ofExcept call.result

/-- The array of `GetAvailableProviders` with its length. -/
structure ProviderNames where
  names : List (Option ByteArray)
  len : Int
  len_pos : 0 < len
  length_names : (names.length : Int) = len

/-- `ReleaseAvailableProviders` releases the array with its texts. -/
def availableProviders (get : Except Error (Option ProviderNames)) : Comp Error (List String) := do
  let providers ← fetch get
  match providers with
  | none => pure []
  | some p =>
    if p.contents.len ≤ 0 then pure []
    else Comp.guard p.handle (Comp.ofExcept (textsOf "available provider name" p.contents.names))

/-- The calls of `to_bytes`. What `CompileModel` wrote is a buffer with its `free`, or null. -/
structure CompileCalls where
  sessionOptions : Except Error Bool
  createOptions : Except Error Bool
  setInput : Except Error Unit
  defaultAllocator : Except Error Bool
  setOutputBuffer : Except Error Unit
  compile : Except Error Unit
  buffer : Option (List UInt8 × Except Error Unit)

/-- The closure of `to_bytes`. -/
def compileToBytes (n : CompileCalls) : Comp Error (List UInt8) := do
  check n.setInput
  getDefault n.defaultAllocator
  check n.setOutputBuffer
  let buffer ← allocate n.buffer
  let compile ← Comp.capture (check n.compile)
  match buffer with
  | none => Comp.ofExcept (compile.map fun _ => [])
  | some p =>
    let freed ← Comp.capture (free p.handle p.contents.2)
    Comp.ofExcept (compile.bind fun _ => freed.map fun _ => p.contents.1)

def toBytes (n : CompileCalls) : Comp Error (List UInt8) := do
  let opts ← createNonNull n.sessionOptions "session options"
  let copts ← Comp.guard opts (createNonNull n.createOptions "model compilation options")
  Comp.guard copts (compileToBytes n)

/-- `Session::metadata`, for the handle that `ModelMetadata` owns. -/
def metadata (get : Except Error Bool) : Comp Error Nat := createNonNull get "model metadata"

/-- For the handle that `RuntimeTypeInfo` owns. -/
def overridableInitializerTypeInfo (get : Except Error Bool) : Comp Error Nat :=
  createNonNull get "overridable initializer type info"

/-- For the handle of the details; there are none for a device that is compatible. -/
def hardwareDeviceEpIncompatibilityDetails (sharesEnvironment : Bool) (epName : String)
    (get : Except Error Bool) : Comp Error (Option Nat) :=
  if sharesEnvironment then do
    let _cname ← Comp.ofExcept (cstring epName "ep name contains a NUL byte")
    create get
  else Comp.ofExcept (.error (.local "hardware device belongs to a different Environment"))

/-- `KeyValuePairs::new`, by whether the container is not null. -/
def newKeyValuePairs (made : Bool) : Comp Error Nat :=
  createNonNull (.ok made) "key/value pairs"

/-- `config_entries` of `KernelInfo`. -/
def configEntries (get : Except Error Bool) (made : Bool) : Comp Error Nat := do
  let kvps ← create get
  match kvps with
  | none => newKeyValuePairs made
  | some kvps => pure kvps

/-- `config_entries` of `SessionOptions`. -/
def sessionConfigEntries (opts get : Except Error Bool) (made : Bool) : Comp Error Nat := do
  let opts ← createNonNull opts "session options"
  let kvps ← Comp.guard opts (create get)
  match kvps with
  | none => newKeyValuePairs made
  | some kvps => pure kvps

end Zrt.Getters
