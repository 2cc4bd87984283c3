import Mathlib.Data.List.Dedup
import Zrt.Codegen.Fields

/-! The generated file: `classify`, `collect_handles` and `emit` of the binding generator. -/
namespace Zrt.Codegen
open Text

def epWords : List String := [
  "cuda", "cudnn", "tensorrt", "rocm", "openvino", "migraphx", "dnnl", "cann", "coreml",
  "armnn", "acl", "apex", "xnnpack", "nnapi", "rknpu", "tvm", "vitisai", "qnn", "directml"]

def trainingWords : List String :=
  ["train", "gradient", "optimizer", "loss", "checkpoint", "loradapter"]

def subApiGetters : List String :=
  ["getepapi", "getmodeleditorapi", "getcompileapi", "getinteropapi"]

/-- The feature that gates a field. -/
def classify (name : List Char) : Option String :=
  let n := name.map Char.toLower
  let contains (s : String) : Bool := s.toList <:+: n
  let startsWith (s : String) : Bool := s.toList <+: n
  let is (s : String) : Bool := n = s.toList
  if epWords.any contains then some "ep"
  else if trainingWords.any contains || is "gettrainingapi" then some "training"
  else if subApiGetters.any is then some "model-editor"
  else if startsWith "kernelcontext_" || startsWith "kernelinfo" || is "createop" ||
      is "addattribute" || is "releaseop" || is "createkernelinfo" || is "releasekernelinfo" ||
      startsWith "customopdomain" then some "custom-ops"
  else none

/-- The keys of the groups, in their order. -/
def features : List (Option String) :=
  [none, some "custom-ops", some "ep", some "model-editor", some "training"]

def featureLabel (feature : String) : String :=
  if feature = "ep" then "Execution-provider options (GPU/accelerators)"
  else if feature = "training" then "Training API"
  else if feature = "custom-ops" then "Custom-op kernel authoring"
  else if feature = "model-editor" then "Sub-API getters / graph editing"
  else feature

def group (fields : List Field) (feature : Option String) : List Field :=
  fields.filter fun f => classify f.name = feature

section
variable (isAlphanumeric : Char → Bool)

def tokens (s : String) : List String :=
  (s.toList.splitOnP fun c => !isAlphanumeric c && c ≠ '_').map String.ofList

/-- Names that end like a handle and are declared by hand. -/
def handWritten : List String :=
  ["CustomThreadHandle", "CustomCreateThreadFnHandle", "CustomJoinThreadFnHandle"]

def endsWithHandle (token : String) : Bool := "Handle".toList <:+ token.toList

def collectHandles (snippets : List String) : List String :=
  ((snippets.flatMap (tokens isAlphanumeric)).filter fun token =>
    endsWithHandle token && !handWritten.contains token).dedup.mergeSort fun a b => decide (a ≤ b)

def headText : String :=
  "//! GENERATED by `st-zrt-sys-codegen` from onnxruntime_c_api.h — DO NOT EDIT.\n" ++
  "//! The full OrtApi function-pointer table: IDX_* indices, typed fn aliases,\n" ++
  "//! and Api accessors, plus the opaque handle types. zrt names; no Ort*; no bindgen.\n" ++
  "#![allow(non_camel_case_types, non_snake_case, dead_code, clippy::all)]\n" ++
  "// Bring in the hand-written core (Api, the enums, StatusPtr, the opaque_handle! macro).\n" ++
  "use super::*;\n\n"

def handlesHeading : String :=
  "// ── opaque handle types (one per ORT opaque struct) ──────────────────────\n"

/-- The callback types of custom thread managers, and the status pointer. -/
def threadText : String :=
  "\n/// ORT worker loop passed to a custom thread manager.\n" ++
  "pub type ThreadWorkerFn = unsafe extern \"C\" " ++
  "fn(ort_worker_fn_param: *mut core::ffi::c_void);\n\n" ++
  "#[repr(C)]\n" ++
  "pub struct CustomThreadHandleOpaque(crate::private::Opaque);\n\n" ++
  "/// Opaque thread handle returned by a custom thread creation callback and later passed " ++
  "to the\n" ++
  "/// matching join callback.\n" ++
  "pub type CustomThreadHandle = *const CustomThreadHandleOpaque;\n\n" ++
  "/// ORT custom thread creation callback.\n" ++
  "pub type CustomCreateThreadFnHandle = Option<\n" ++
  "unsafe extern \"C\" fn(\n" ++
  "ort_custom_thread_creation_options: *mut core::ffi::c_void,\n" ++
  "ort_thread_worker_fn: ThreadWorkerFn,\n" ++
  "ort_worker_fn_param: *mut core::ffi::c_void,\n" ++
  ") -> CustomThreadHandle,\n" ++
  ">;\n\n" ++
  "/// ORT custom thread join callback.\n" ++
  "pub type CustomJoinThreadFnHandle =\n" ++
  "Option<unsafe extern \"C\" fn(ort_custom_thread_handle: CustomThreadHandle)>;\n\n" ++
  "/// `OrtStatus*` returned by ORT — null means success. Pointee is StatusHandle.\n" ++
  "pub type StatusPtr = *mut StatusHandle;\n\n"

def groupHeading : Option String → String
  | none => "// ── core (always available) ─────────────────────────────────────────────\n"
  | some feature => "\n// ── " ++ featureLabel feature ++
    " ────────────────────────────────────────────────────────────────\n"

def subApiHeading : String :=
  "\n// ── Sub-API structs (deref-style function tables; model-editor feature) ────\n"

def snippets (fields : List Field) (subApis : List (String × List Field)) : List String :=
  (features.flatMap fun feature => (group fields feature).map fun f =>
    emitField f (classify f.name)) ++
    subApis.map fun api => emitSubApi api.1 api.2

/-- A group that no field is in is not there. -/
def emitGroup (fields : List Field) (feature : Option String) : String :=
  if (group fields feature).isEmpty then ""
  else groupHeading feature ++ String.join ((group fields feature).map fun f => emitField f feature)

def emit (fields : List Field) (subApis : List (String × List Field)) : String :=
  headText ++ handlesHeading ++
    String.join ((collectHandles isAlphanumeric (snippets fields subApis)).map fun h =>
      "opaque_handle!(" ++ h ++ ");\n") ++
    threadText ++ String.join (features.map (emitGroup fields)) ++
    subApiHeading ++ String.join (subApis.map fun api => emitSubApi api.1 api.2)

end

/-- `pp.replace("_Bool", "bool")`. -/
def replaceBool : List Char → List Char
  | '_' :: 'B' :: 'o' :: 'o' :: 'l' :: cs => "bool".toList ++ replaceBool cs
  | c :: cs => c :: replaceBool cs
  | [] => []

/-- The structs behind the gateway getters, with their Rust names. -/
def subApiNames : List (String × String) := [
  ("OrtModelEditorApi", "ModelEditorApi"),
  ("OrtCompileApi", "CompileApi"),
  ("OrtInteropApi", "InteropApi"),
  ("OrtEpApi", "EpApi")]

/-- What `main` reads of the preprocessed header; `none` is a panic. -/
def readHeader (pp : List Char) : Option (List Field × List (String × List Field)) :=
  (parseApiStruct (replaceBool pp) "OrtApi".toList).bind fun fields =>
    if fields.isEmpty then none
    else (subApiNames.mapM fun api =>
      (parseApiStruct (replaceBool pp) api.1.toList).map fun fs => (api.2, fs)).map fun subApis =>
        (fields, subApis)

end Zrt.Codegen
