import Mathlib.Logic.Function.Iterate
import Zrt.Text

/-! From C types to Rust types: `map_type` and what it calls, of the binding generator. -/
namespace Zrt.Codegen
open Text

/-- The Rust types that the generator writes; it keeps their texts only. -/
inductive RustType
  | name (s : String)
  | pointer (const : Bool) (t : RustType)
  | callback (params : List RustType)

def RustType.text : RustType → String
  | .name s => s
  | .pointer const t => (if const then "*const " else "*mut ") ++ t.text
  | .callback params =>
    "Option<unsafe extern \"C\" fn(" ++ ", ".intercalate (params.map fun t => t.text) ++ ")>"

inductive Tok
  | const | struct | enum | star
  | ident (s : String)
  deriving DecidableEq

def Tok.ofWord (w : List Char) : Tok :=
  if w = "const".toList then .const
  else if w = "struct".toList then .struct
  else if w = "enum".toList then .enum
  else if w = "*".toList then .star
  else .ident (String.ofList w)

def splitWhitespace (c : List Char) : List (List Char) :=
  (c.splitOnP isWhitespace).filter (· ≠ [])

/-- `replace('*', " * ")`. -/
def spaceStars (c : List Char) : List Char :=
  c.flatMap fun ch => if ch = '*' then " * ".toList else [ch]

def tokenize (c : List Char) : List Tok := (splitWhitespace (spaceStars c)).map Tok.ofWord

/-- The tokens that `analyze` skips in front of the base. -/
def Tok.isQualifier : Tok → Bool
  | .const | .struct | .enum => true
  | .star | .ident _ => false

/-- The base, whether a `const` stands before it, and the pointer depth. -/
def analyze (toks : List Tok) : String × Bool × Nat :=
  let baseConst := (toks.takeWhile Tok.isQualifier).contains .const
  let toks := toks.dropWhile Tok.isQualifier
  let base := match toks with
    | .ident s :: _ => s
    | _ => "void"
  (base, baseConst, toks.count .star)

/-- The arms of `map_base` that map a name of their own. -/
def baseTable : List (String × String) := [
  ("void", "core::ffi::c_void"),
  ("char", "core::ffi::c_char"),
  ("int", "core::ffi::c_int"),
  ("short", "core::ffi::c_short"),
  ("long", "core::ffi::c_long"),
  ("unsigned", "core::ffi::c_uint"),
  ("int8_t", "i8"),
  ("int16_t", "i16"),
  ("int32_t", "i32"),
  ("int64_t", "i64"),
  ("uint8_t", "u8"),
  ("uint16_t", "u16"),
  ("uint32_t", "u32"),
  ("uint64_t", "u64"),
  ("size_t", "usize"),
  ("ssize_t", "isize"),
  ("intptr_t", "isize"),
  ("uintptr_t", "usize"),
  ("float", "f32"),
  ("double", "f64"),
  ("bool", "bool"),
  ("_Bool", "bool"),
  ("OrtStatusPtr", "StatusPtr"),
  ("OrtStatus", "StatusHandle"),
  ("OrtErrorCode", "core::ffi::c_int"),
  ("OrtOpAttrType", "OpAttrType"),
  ("OrtModelEditorApi", "ModelEditorApi"),
  ("OrtCompileApi", "CompileApi"),
  ("OrtInteropApi", "InteropApi"),
  ("OrtEpApi", "EpApi"),
  ("OrtAllocatorType", "AllocatorType"),
  ("OrtMemType", "MemType"),
  ("OrtProfilingEventCategory", "ProfilingEventCategory"),
  ("OrtLoggingLevel", "LoggingLevel"),
  ("OrtExecutionProviderDevicePolicy", "ExecutionProviderDevicePolicy"),
  ("GraphOptimizationLevel", "GraphOptimizationLevel"),
  ("ONNXTensorElementDataType", "ElementType"),
  ("ONNXType", "OnnxType"),
  ("OrtSparseFormat", "SparseFormat"),
  ("OrtSparseIndicesFormat", "SparseIndicesFormat"),
  ("OrtEpDataLayout", "EpDataLayout"),
  ("OrtGraphCaptureNodeAssignmentPolicy", "GraphCaptureNodeAssignmentPolicy"),
  ("ExecutionMode", "ExecutionMode"),
  ("OrtLanguageProjection", "i32"),
  ("OrtCompiledModelCompatibility", "i32"),
  ("OrtCompileApiFlags", "i32"),
  ("OrtCudnnConvAlgoSearch", "i32"),
  ("OrtCustomOpInputOutputCharacteristic", "i32"),
  ("OrtDeviceEpIncompatibilityReason", "i32"),
  ("OrtDeviceMemoryType", "i32"),
  ("OrtExternalMemoryHandleType", "i32"),
  ("OrtExternalSemaphoreType", "i32"),
  ("OrtGraphicsApi", "i32"),
  ("OrtHardwareDeviceType", "i32"),
  ("OrtMemoryInfoDeviceType", "i32"),
  ("OrtLoggingFunction", "LoggingFunction"),
  ("OrtThreadWorkerFn", "ThreadWorkerFn"),
  ("OrtCustomThreadHandle", "CustomThreadHandle"),
  ("OrtCustomCreateThreadFn", "CustomCreateThreadFnHandle"),
  ("OrtCustomJoinThreadFn", "CustomJoinThreadFnHandle"),
  ("RunAsyncCallbackFn", "Option<unsafe extern \"C\" fn(*mut core::ffi::c_void, " ++
    "*mut *mut ValueHandle, usize, StatusPtr)>"),
  ("EpSelectionDelegate", "Option<unsafe extern \"C\" fn(*const *const EpDeviceHandle, usize, " ++
    "*const KeyValuePairsHandle, *const KeyValuePairsHandle, *mut *const EpDeviceHandle, usize, " ++
    "*mut usize, *mut core::ffi::c_void) -> StatusPtr>")]

def mapBase (b : String) : String :=
  match baseTable.lookup b with
  | some r => r
  | none =>
    if "Ort".toList <+: b.toList then String.ofList (b.toList.drop 3) ++ "Handle"
    -- unmapped: opaque, with a warning
    else "core::ffi::c_void"

def buildRust (base : String) (baseConst : Bool) (depth : Nat) : RustType :=
  (RustType.pointer baseConst)^[depth] (.name (mapBase base))

def mapType (c : List Char) : RustType :=
  let (base, baseConst, depth) := analyze (tokenize c)
  buildRust base baseConst depth

def mapReturnType (c : List Char) : RustType :=
  if trim c = "void".toList then .name "()" else mapType (trim c)

end Zrt.Codegen
