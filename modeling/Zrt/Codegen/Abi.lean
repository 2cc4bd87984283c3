import Zrt.Codegen.Params

/-! How values are passed: the representation of the C base types and of the Rust types that the
generator writes for them. -/
namespace Zrt.Codegen

inductive Prim
  | void | bool | char
  | int (signed : Bool) (bits : Nat)
  | float (bits : Nat)
  /-- a type that the C header defines -/
  | named (s : String)
  deriving DecidableEq

/-- The types of parameters; a `function` is a pointer to one. -/
inductive Abi
  | prim (p : Prim)
  | pointer (a : Abi)
  | array (a : Abi)
  | function (params : List Abi) (ret : Abi)

/-- The widths that depend on the target. -/
structure DataModel where
  long : Nat
  pointer : Nat

variable (m : DataModel)

/-- The C types with a representation of their own; the enumerations are those of the header. -/
def cTable : List (String × Prim) := [
  ("void", .void), ("char", .char), ("int", .int true 32), ("short", .int true 16),
  ("long", .int true m.long), ("unsigned", .int false 32),
  ("int8_t", .int true 8), ("int16_t", .int true 16), ("int32_t", .int true 32),
  ("int64_t", .int true 64), ("uint8_t", .int false 8), ("uint16_t", .int false 16),
  ("uint32_t", .int false 32), ("uint64_t", .int false 64),
  ("size_t", .int false m.pointer), ("ssize_t", .int true m.pointer),
  ("intptr_t", .int true m.pointer), ("uintptr_t", .int false m.pointer),
  ("float", .float 32), ("double", .float 64), ("bool", .bool), ("_Bool", .bool),
  ("OrtErrorCode", .int true 32), ("OrtOpAttrType", .int true 32),
  ("OrtAllocatorType", .int true 32), ("OrtMemType", .int true 32),
  ("OrtProfilingEventCategory", .int true 32), ("OrtLoggingLevel", .int true 32),
  ("OrtExecutionProviderDevicePolicy", .int true 32), ("GraphOptimizationLevel", .int true 32),
  ("ONNXTensorElementDataType", .int true 32), ("ONNXType", .int true 32),
  ("OrtSparseFormat", .int true 32), ("OrtSparseIndicesFormat", .int true 32),
  ("OrtEpDataLayout", .int true 32), ("OrtGraphCaptureNodeAssignmentPolicy", .int true 32),
  ("ExecutionMode", .int true 32), ("OrtLanguageProjection", .int true 32),
  ("OrtCompiledModelCompatibility", .int true 32), ("OrtCompileApiFlags", .int true 32),
  ("OrtCudnnConvAlgoSearch", .int true 32),
  ("OrtCustomOpInputOutputCharacteristic", .int true 32),
  ("OrtDeviceEpIncompatibilityReason", .int true 32), ("OrtDeviceMemoryType", .int true 32),
  ("OrtExternalMemoryHandleType", .int true 32), ("OrtExternalSemaphoreType", .int true 32),
  ("OrtGraphicsApi", .int true 32), ("OrtHardwareDeviceType", .int true 32),
  ("OrtMemoryInfoDeviceType", .int true 32)]

def cPrim (s : String) : Prim := ((cTable m).lookup s).getD (.named s)

/-- The Rust names with a representation of their own: the primitives, the `repr(i32)` enumerations
and the aliases of the bindings. -/
def rustNames : List (String × Prim) := [
  ("core::ffi::c_void", .void), ("core::ffi::c_char", .char), ("core::ffi::c_int", .int true 32),
  ("core::ffi::c_short", .int true 16), ("core::ffi::c_long", .int true m.long),
  ("core::ffi::c_uint", .int false 32),
  ("i8", .int true 8), ("i16", .int true 16), ("i32", .int true 32), ("i64", .int true 64),
  ("u8", .int false 8), ("u16", .int false 16), ("u32", .int false 32), ("u64", .int false 64),
  ("usize", .int false m.pointer), ("isize", .int true m.pointer),
  ("f32", .float 32), ("f64", .float 64), ("bool", .bool),
  ("OpAttrType", .int true 32), ("AllocatorType", .int true 32), ("MemType", .int true 32),
  ("ProfilingEventCategory", .int true 32), ("LoggingLevel", .int true 32),
  ("ExecutionProviderDevicePolicy", .int true 32), ("GraphOptimizationLevel", .int true 32),
  ("ElementType", .int true 32), ("OnnxType", .int true 32), ("SparseFormat", .int true 32),
  ("SparseIndicesFormat", .int true 32), ("EpDataLayout", .int true 32),
  ("GraphCaptureNodeAssignmentPolicy", .int true 32), ("ExecutionMode", .int true 32),
  ("StatusPtr", .named "OrtStatusPtr"), ("ModelEditorApi", .named "OrtModelEditorApi"),
  ("CompileApi", .named "OrtCompileApi"), ("InteropApi", .named "OrtInteropApi"),
  ("EpApi", .named "OrtEpApi"), ("LoggingFunction", .named "OrtLoggingFunction"),
  ("ThreadWorkerFn", .named "OrtThreadWorkerFn"),
  ("CustomThreadHandle", .named "OrtCustomThreadHandle")]

/-- The callbacks that stand for C names. -/
def rustCallbacks : List (String × Prim) := [
  (mapBase "RunAsyncCallbackFn", .named "RunAsyncCallbackFn"),
  (mapBase "EpSelectionDelegate", .named "EpSelectionDelegate")]

/-- The other handles are opaque, each the one of the C struct of its name. -/
def rustPrim (s : String) : Prim :=
  match (rustNames m ++ rustCallbacks).lookup s with
  | some p => p
  | none =>
    if "Handle".toList <:+ s.toList then
      .named ("Ort" ++ String.ofList (s.toList.take (s.toList.length - 6)))
    else .named s

def RustType.abi : RustType → Abi
  | .name s => .prim (rustPrim m s)
  | .pointer _ t => .pointer t.abi
  | .callback params => .function (params.map fun t => t.abi) (.prim .void)

end Zrt.Codegen
