import Zrt.Codegen.Abi

/-! C parameter declarations: their texts and the types they declare. -/
namespace Zrt.Codegen

/-- A C identifier or keyword. -/
def IsWord (w : List Char) : Prop := w ≠ [] ∧ ∀ c ∈ w, (c.isAlphanum || c = '_') = true

instance : DecidablePred IsWord := fun _ => inferInstanceAs (Decidable (_ ∧ _))

/-- The words that make up the integer types. -/
inductive IntWord
  | unsigned | signed | char | short | int | long
  deriving DecidableEq

def IntWord.text : IntWord → String
  | .unsigned => "unsigned"
  | .signed => "signed"
  | .char => "char"
  | .short => "short"
  | .int => "int"
  | .long => "long"

/-- The words are those of an integer type, in any order. -/
structure IsInteger (words : List IntWord) : Prop where
  nonempty : words ≠ []
  sign : words.count .unsigned + words.count .signed ≤ 1
  short : words.count .short ≤ 1
  int : words.count .int ≤ 1
  long : words.count .long ≤ 2
  width : .short ∈ words → .long ∉ words
  char : .char ∈ words →
    words.count .char = 1 ∧ .short ∉ words ∧ .int ∉ words ∧ .long ∉ words

def intPrim (m : DataModel) (words : List IntWord) : Prim :=
  let signed : Bool := .unsigned ∉ words
  if .char ∈ words then
    if .unsigned ∈ words ∨ .signed ∈ words then .int signed 8 else .char
  else if .short ∈ words then .int signed 16
  else if words.count .long = 0 then .int signed 32
  else if words.count .long = 1 then .int signed m.long
  else .int signed 64

inductive Tag
  | struct | enum

def Tag.text : Tag → String
  | .struct => "struct"
  | .enum => "enum"

/-- The base types that `map_base` maps. -/
def KnownName (n : String) : Prop :=
  (baseTable.lookup n).isSome ∨ ("Ort".toList <+: n.toList ∧ IsWord n.toList)

instance : DecidablePred KnownName := fun _ => inferInstanceAs (Decidable (_ ∨ _))

inductive Base
  | type (name : String)
  | tagged (tag : Tag) (name : String)
  | integer (words : List IntWord)

namespace Base

def Known : Base → Prop
  | .type n | .tagged _ n => KnownName n
  | .integer words => IsInteger words

/-- The words that name the type. -/
def typeWords : Base → List (List Char)
  | .type n | .tagged _ n => [n.toList]
  | .integer words => words.map fun w => w.text.toList

def words : Base → List (List Char)
  | .tagged tag n => [tag.text.toList, n.toList]
  | base => base.typeWords

def prim (m : DataModel) : Base → Prim
  | .type n | .tagged _ n => cPrim m n
  | .integer words => intPrim m words

def IsVoid : Base → Prop
  | .type n | .tagged _ n => n = "void"
  | .integer _ => False

/-- The first type word alone tells the type: the whole type is as if only that word stood there,
and the word is no `signed`. The handle name of `OrtCustomThread` is taken. -/
def FirstTells (m : DataModel) : Base → Prop
  | .type n | .tagged _ n => n ≠ "OrtCustomThread"
  | .integer words => ∀ w ∈ words.head?, w ≠ .signed ∧ intPrim m [w] = intPrim m words

end Base

inductive Lexeme
  | word (w : List Char)
  | star
  deriving DecidableEq

def Lexeme.text : Lexeme → List Char
  | .word w => w
  | .star => ['*']

def Lexeme.IsWord : Lexeme → Prop
  | .word w => Codegen.IsWord w
  | .star => True

/-- Lexemes behind the spaces before them. -/
abbrev Spaced := List (Nat × Lexeme)

def asWords (ws : List (Nat × List Char)) : Spaced := ws.map fun w => (w.1, .word w.2)

def spell (ts : Spaced) : List Char :=
  ts.flatMap fun t => List.replicate t.1 ' ' ++ t.2.text

/-- Between two words stands a space. -/
def Apart (t u : Nat × Lexeme) : Prop := t.2 ≠ .star → u.2 ≠ .star → 0 < u.1

/-- A type: its specifiers, with `const` anywhere among them, and the stars and qualifiers
behind. -/
structure TypeName where
  base : Base
  known : base.Known
  spec : List (Nat × List Char)
  spec_base : (spec.map Prod.snd).filter (· ≠ "const".toList) = base.words
  marks : Spaced
  marks_star : ∀ t ∈ marks, t.2 = .star ∨ t.2 = .word "const".toList

def TypeName.lexemes (t : TypeName) : Spaced := asWords t.spec ++ t.marks

def TypeName.stars (t : TypeName) : Nat := (t.marks.map Prod.snd).count .star

def TypeName.abi (m : DataModel) (t : TypeName) : Abi :=
  Abi.pointer^[t.stars] (.prim (t.base.prim m))

/-- What stands in the brackets of an array: no brackets, and no star right behind a parenthesis. -/
def ArrayBound (b : List Char) : Prop := '[' ∉ b ∧ ']' ∉ b ∧ ¬ "(*".toList <:+: b

/-- The same in the parameters of a function pointer, where brackets are not read: what stands in
them holds nothing else that is. -/
def InnerBound (b : List Char) : Prop := ∀ c ∈ b, c ∉ "*()[],".toList

/-- A parameter that is no function pointer. -/
structure Plain (Bound : List Char → Prop) extends TypeName where
  name : Option (Nat × List Char)
  name_word : ∀ w ∈ name, IsWord w.2
  apart : (toTypeName.lexemes ++ asWords name.toList).IsChain Apart
  complete : base.IsVoid → 0 < toTypeName.stars
  /-- the brackets, with the spaces before them and what stands in them -/
  dims : List (Nat × List Char)
  bounds : ∀ d ∈ dims, Bound d.2
  trail : Nat

/-- The brackets with what stands in them. -/
def dimsText (dims : List (Nat × List Char)) : List Char :=
  dims.flatMap fun d => List.replicate d.1 ' ' ++ '[' :: (d.2 ++ [']'])

namespace Plain

variable {Bound : List Char → Prop}

def lexemes (p : Plain Bound) : Spaced := p.toTypeName.lexemes ++ asWords p.name.toList

def text (p : Plain Bound) : List Char :=
  spell p.lexemes ++ (dimsText p.dims ++ List.replicate p.trail ' ')

/-- An array of arrays is passed as a pointer to its arrays. -/
def abi (m : DataModel) (p : Plain Bound) : Abi :=
  if p.dims = [] then p.toTypeName.abi m
  else .pointer (Abi.array^[p.dims.length - 1] (p.toTypeName.abi m))

end Plain

/-- What stands before the parameters of a function pointer `ret (* name)(..)`. -/
structure CallbackHead where
  ret : TypeName
  apart : ret.lexemes.IsChain Apart
  /-- the spaces before the first parenthesis, and between it and the star -/
  before : Nat
  gap : Nat
  /-- the qualifiers and the name behind the star, with spaces behind them -/
  inner : List (Nat × List Char)
  inner_word : ∀ w ∈ inner, IsWord w.2
  inner_const : ∀ w ∈ inner.dropLast, w.2 = "const".toList
  inner_apart : (asWords inner).IsChain Apart
  innerTrail : Nat
  /-- the spaces before the parameters -/
  after : Nat
  /-- what stands for no parameters: nothing, or `void` -/
  noParams : List Char
  noParams_void : Text.trim noParams = [] ∨ Text.trim noParams = "void".toList

def CallbackHead.text (h : CallbackHead) : List Char :=
  spell h.ret.lexemes ++ (List.replicate h.before ' ' ++ '(' :: (List.replicate h.gap ' ' ++
    '*' :: (spell (asWords h.inner) ++ (List.replicate h.innerTrail ' ' ++
      ')' :: List.replicate h.after ' '))))

/-- The texts of parameters, with commas between them. -/
def paramsText (noParams : List Char) (texts : List (List Char)) : List Char :=
  if texts.isEmpty then noParams else [','].intercalate texts

/-- A parameter of a function pointer. -/
inductive Decl
  | plain (p : Plain InnerBound)
  | callback (head : CallbackHead) (params : List Decl) (trail : Nat)

namespace Decl

def text : Decl → List Char
  | .plain p => p.text
  | .callback head params trail =>
    head.text ++ '(' ::
      (paramsText head.noParams (params.map fun p => p.text) ++ ')' :: List.replicate trail ' ')

def abi (m : DataModel) : Decl → Abi
  | .plain p => p.abi m
  | .callback head params _ => .function (params.map fun p => p.abi m) (head.ret.abi m)

end Decl

/-- A parameter. -/
inductive ParamDecl
  | plain (p : Plain ArrayBound)
  | callback (head : CallbackHead) (params : List Decl) (trail : Nat)

namespace ParamDecl

def text : ParamDecl → List Char
  | .plain p => p.text
  | .callback head params trail => (Decl.callback head params trail).text

def abi (m : DataModel) : ParamDecl → Abi
  | .plain p => p.abi m
  | .callback head params trail => (Decl.callback head params trail).abi m

end ParamDecl

end Zrt.Codegen
