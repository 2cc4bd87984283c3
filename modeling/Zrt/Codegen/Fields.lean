import Zrt.Codegen.Params

/-! The members of an API struct: `parse_api_struct`, `parse_field`, `emit_sub_api` and `emit_field`
of the binding generator. -/
namespace Zrt.Codegen
open Text

structure Field where
  idx : Nat
  name : List Char
  ret : RustType
  params : List Param
  cSig : List Char

def parseField (line : List Char) : Option Field :=
  let line := trim line
  (splitFirst ['('] line).bind fun (before, inner) =>
  (stripPrefix '*' (trimStart inner)).bind fun inner =>
  (splitFirst [')'] inner).bind fun (name, after) =>
  (splitFirst ['('] after).bind fun (_, paramsRest) =>
  (matchCloseParen paramsRest).map fun pclose =>
    { idx := 0
      name := trim name
      ret := mapReturnType (trim before)
      params := parseParams (paramsRest.take pclose)
      cSig := line.rdropWhile (· = ';') }

/-- The fields after a declaration was read into `buf`: a declaration that does not parse is passed
over. -/
def pushField (fields : List Field) (buf : List Char) : List Field :=
  match parseField (trim buf) with
  | some f => fields ++ [{ f with idx := fields.length }]
  | none => fields

/-- One line of the loop of `parse_api_struct`: the buffer and the fields so far. -/
def readLine (s : List Char × List Field) (raw : List Char) : List Char × List Field :=
  let line := trim raw
  if line = [] ∨ "//".toList <+: line then s
  else
    let buf := s.1 ++ (line ++ [' '])
    if line.getLast? = some ';' then ([], pushField s.2 buf) else (buf, s.2)

def needle (structName : List Char) : List Char :=
  "struct ".toList ++ (structName ++ " \x7b".toList)

/-- `parse_api_struct`; `none` is a panic. -/
def parseApiStruct (pp structName : List Char) : Option (List Field) :=
  (splitFirst (needle structName) pp).bind fun (_, rest) =>
    (splitFirst "\n\x7d;".toList rest).map fun (body, _) => ((lines body).foldl readLine ([], [])).2

def paramList (params : List Param) : String :=
  ", ".intercalate (params.map fun p => String.ofList p.name ++ ": " ++ p.rustType.text)

/-- The member that `emit_sub_api` writes for a field. -/
def subApiMember (f : Field) : String :=
  "    pub " ++ String.ofList (sanitizeIdent f.name) ++ ": Option<unsafe extern \"C\" fn(" ++
    paramList f.params ++ ") -> " ++ f.ret.text ++ ">,\n"

def subApiHead (rustName : String) : String :=
  "#[cfg(feature = \"model-editor\")]\n#[repr(C)]\npub struct " ++ rustName ++ " \x7b\n"

def emitSubApi (rustName : String) (fields : List Field) : String :=
  fields.foldl (fun s f => s ++ subApiMember f) (subApiHead rustName) ++ "\x7d\n"

/-- The loop of `split_words`, with the word so far. -/
def splitWordsFrom : List Char → List Char → List (List Char)
  | cur, [] => if cur = [] then [] else [cur]
  | cur, c :: cs =>
    if c.isUpper ∧ cur ≠ [] ∧ (cur.getLast?.any Char.isLower ∨ cs.head?.any Char.isLower) then
      cur :: splitWordsFrom [c] cs
    else splitWordsFrom (cur ++ [c]) cs

def splitWords (name : List Char) : List (List Char) :=
  (splitWordsFrom [] name).map (List.map Char.toLower)

def toScreamingSnake (name : List Char) : String :=
  "_".intercalate ((splitWords name).map fun w => String.ofList (w.map Char.toUpper))

def toPascal (name : List Char) : String :=
  String.join ((splitWords name).map fun w => String.ofList (w.modifyHead Char.toUpper))

def toSnake (name : List Char) : String :=
  "_".intercalate ((splitWords name).map fun w => String.ofList (w.map Char.toLower))

/-- The constant that `emit_field` writes for the position of a field. -/
def indexConst (f : Field) : String :=
  "pub const IDX_" ++ toScreamingSnake f.name ++ ": usize = " ++ toString f.idx ++ ";\n"

def emitField (f : Field) (feature : Option String) : String :=
  let cfg := match feature with
    | some feat => "#[cfg(feature = \"" ++ feat ++ "\")]\n"
    | none => ""
  "// " ++ String.ofList f.cSig ++ "\n" ++ cfg ++ indexConst f ++
    cfg ++ "pub type " ++ toPascal f.name ++ "Fn = unsafe extern \"C\" fn(" ++
    paramList f.params ++ ") -> " ++ f.ret.text ++ ";\n" ++
    cfg ++ "impl Api \x7b\n  #[inline]\n  " ++ cfg ++ "pub unsafe fn " ++ toSnake f.name ++
    "(&self) -> " ++ toPascal f.name ++ "Fn \x7b unsafe \x7b self.f(IDX_" ++
    toScreamingSnake f.name ++ ") \x7d \x7d\n\x7d\n\n"

end Zrt.Codegen
