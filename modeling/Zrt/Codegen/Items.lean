import Zrt.Codegen.Emit
import Zrt.Codegen.Names

/-! The generated file as items, and what a name in it stands for under some features. -/
namespace Zrt.Codegen

/-- What the generated file declares, and the text between. -/
inductive Item
  | text (s : String)
  | written (names : List String) (s : String)
  | handle (name : String)
  | index (feature : Option String) (name : String) (value : Nat)
  | fnType (feature : Option String) (name : String) (params : List Param) (ret : RustType)
  | accessor (feature : Option String) (name fnType index : String)
  | table (name : String) (fields : List Field)

/-- Constants, types and methods of `Api` have names of their own. -/
inductive Namespace
  | const | type | method
  deriving DecidableEq

def Item.keys : Item → List (Namespace × String)
  | .text _ => []
  | .written names _ => names.map fun name => (.type, name)
  | .handle name => [(.type, name)]
  | .index _ name _ => [(.const, name)]
  | .fnType _ name _ _ => [(.type, name)]
  | .accessor _ name _ _ => [(.method, name)]
  | .table name _ => [(.type, name)]

def Item.feature : Item → Option String
  | .index feature _ _ => feature
  | .fnType feature .. => feature
  | .accessor feature .. => feature
  | .table .. => some "model-editor"
  | .text _ | .written .. | .handle _ => none

/-- The item is compiled under the features. -/
def Item.live (enabled : List String) (x : Item) : Bool := x.feature.all fun f => enabled.contains f

def cfg : Option String → String
  | some feature => "#[cfg(feature = \"" ++ feature ++ "\")]\n"
  | none => ""

def Item.render : Item → String
  | .text s => s
  | .written _ s => s
  | .handle name => "opaque_handle!(" ++ name ++ ");\n"
  | .index feature name value =>
    cfg feature ++ "pub const " ++ name ++ ": usize = " ++ toString value ++ ";\n"
  | .fnType feature name params ret =>
    cfg feature ++ "pub type " ++ name ++ " = unsafe extern \"C\" fn(" ++ paramList params ++
      ") -> " ++ ret.text ++ ";\n"
  | .accessor feature name ty const =>
    cfg feature ++ "impl Api \x7b\n  #[inline]\n  " ++ cfg feature ++ "pub unsafe fn " ++ name ++
      "(&self) -> " ++ ty ++ " \x7b unsafe \x7b self.f(" ++ const ++ ") \x7d \x7d\n\x7d\n\n"
  | .table name fields => emitSubApi name fields

/-- The types that `threadText` declares. -/
def threadTypes : List String := [
  "ThreadWorkerFn", "CustomThreadHandleOpaque", "CustomThreadHandle", "CustomCreateThreadFnHandle",
  "CustomJoinThreadFnHandle", "StatusPtr"]

def indexName (f : Field) : String := "IDX_" ++ toScreamingSnake f.name

def fnTypeName (f : Field) : String := toPascal f.name ++ "Fn"

def fieldItems (f : Field) (feature : Option String) : List Item := [
  .text ("// " ++ String.ofList f.cSig ++ "\n"),
  .index feature (indexName f) f.idx,
  .fnType feature (fnTypeName f) f.params f.ret,
  .accessor feature (toSnake f.name) (fnTypeName f) (indexName f)]

def groupItems (fields : List Field) (feature : Option String) : List Item :=
  if (group fields feature).isEmpty then []
  else .text (groupHeading feature) :: (group fields feature).flatMap fun f => fieldItems f feature

def items (isAlphanumeric : Char → Bool) (fields : List Field)
    (subApis : List (String × List Field)) :
    List Item :=
  .text (headText ++ handlesHeading) ::
    (collectHandles isAlphanumeric (snippets fields subApis)).map .handle ++
    .written threadTypes threadText :: (features.flatMap (groupItems fields) ++
      .text subApiHeading :: subApis.map fun api => .table api.1 api.2)

/-- The items that declare a name under the features. -/
def declared (enabled : List String) (xs : List Item) (space : Namespace)
    (name : String) : List Item :=
  xs.filter fun x => x.live enabled && decide ((space, name) ∈ x.keys)

variable {isAlphanumeric : Char → Bool} {fields : List Field} {subApis : List (String × List Field)}
  {f : Field} {feature : Option String} {enabled : List String} {xs ys : List Item}
  {space : Namespace} {name : String}

def render (xs : List Item) : String := String.join (xs.map Item.render)

theorem render_append : render (xs ++ ys) = render xs ++ render ys := by
  simp [render]

theorem render_cons {x : Item} : render (x :: xs) = x.render ++ render xs := by
  simp [render]

theorem render_flatMap {α : Type} (g : α → List Item) (l : List α) :
    render (l.flatMap g) = String.join (l.map fun a => render (g a)) := by
  induction l with
  | nil => rfl
  | cons a l ih => rw [List.flatMap_cons, render_append, List.map_cons, String.join_cons, ih]

theorem emitField_eq : emitField f feature = "// " ++ String.ofList f.cSig ++ "\n" ++ cfg feature ++
    indexConst f ++ cfg feature ++ "pub type " ++ toPascal f.name ++
    "Fn = unsafe extern \"C\" fn(" ++ paramList f.params ++ ") -> " ++ f.ret.text ++ ";\n" ++
    cfg feature ++ "impl Api \x7b\n  #[inline]\n  " ++ cfg feature ++ "pub unsafe fn " ++
    toSnake f.name ++ "(&self) -> " ++ toPascal f.name ++ "Fn \x7b unsafe \x7b self.f(IDX_" ++
    toScreamingSnake f.name ++ ") \x7d \x7d\n\x7d\n\n" := by
  cases feature <;> rfl

theorem render_fieldItems : render (fieldItems f feature) = emitField f feature := by
  have hconst : "pub const IDX_" = "pub const " ++ "IDX_" := by decide
  have htype : "Fn = unsafe extern \"C\" fn(" = "Fn" ++ " = unsafe extern \"C\" fn(" := by decide
  have hbody : "Fn \x7b unsafe \x7b self.f(IDX_" = "Fn" ++
    " \x7b unsafe \x7b self.f(" ++ "IDX_" := by
    decide
  rw [emitField_eq, indexConst, hconst, htype, hbody]
  simp only [render, fieldItems, List.map_cons, List.map_nil, String.join_cons, String.join_nil,
    Item.render, indexName, fnTypeName, String.append_assoc, String.append_empty]

theorem render_groupItems : render (groupItems fields feature) = emitGroup fields feature := by
  unfold groupItems emitGroup
  split
  · rfl
  · rw [render_cons, render_flatMap]
    simp only [render_fieldItems, Item.render]

/-- The generated file is its items, in order. -/
theorem emit_eq_render :
    emit isAlphanumeric fields subApis = render (items isAlphanumeric fields subApis) := by
  have hmap {α : Type} (g : α → Item) (l : List α) :
      render (l.map g) = String.join (l.map fun a => (g a).render) := by
    rw [render, List.map_map]
    rfl
  unfold emit items
  rw [render_append, render_cons, hmap, render_cons, render_append, render_flatMap,
    render_cons, hmap]
  simp only [render_groupItems, Item.render, String.append_assoc]

end Zrt.Codegen
