import Zrt.Codegen.Callbacks

/-! Which parameter declarations are mapped to a type that is passed the same way. -/
namespace Zrt.Codegen
open Text

variable {m : DataModel} {t : TypeName} {params : List Decl}

/-- The generator maps the declaration to a type that is passed the same way. -/
def ParamDecl.Right (m : DataModel) : ParamDecl → Prop
  | .plain p => p.Told m ∧ p.dims.length ≤ 1
  | .callback head params _ =>
    head.gap = 0 ∧ head.inner ≠ [] ∧ head.ret.base.IsVoid ∧ head.ret.stars = 0 ∧
      ∀ q ∈ params, ∃ p, q = .plain p ∧ p.Told m ∧ p.dims = []

theorem typeName_void : t.abi m = .prim .void ↔ t.base.IsVoid ∧ t.stars = 0 := by
  rw [TypeName.abi]
  constructor
  · intro h
    have hdepth := congrArg Abi.depth h
    rw [depth_pointer] at hdepth
    have hstars : t.stars = 0 := hdepth
    rw [hstars] at h
    exact ⟨(base_void m).mp (Abi.prim.inj h), hstars⟩
  · rintro ⟨hvoid, hstars⟩
    rw [hstars, (base_void m).mpr hvoid]
    rfl

/-- Only function pointers are passed as such. -/
theorem exists_plain {q : Decl} (h : ¬ (q.abi m).IsFunction) : ∃ p, q = .plain p := by
  cases q with
  | plain p => exact ⟨p, rfl⟩
  | callback head params trail =>
    rw [Decl.abi] at h
    exact absurd trivial h

theorem exists_map_plain (h : ∀ q ∈ params, ∃ p, q = .plain p) :
    ∃ ps : List (Plain InnerBound), params = ps.map .plain := by
  induction params with
  | nil => exact ⟨[], rfl⟩
  | cons q params ih =>
    obtain ⟨⟨p, rfl⟩, hrest⟩ := List.forall_mem_cons.mp h
    obtain ⟨ps, rfl⟩ := ih hrest
    exact ⟨p :: ps, rfl⟩

theorem callback_text (head : CallbackHead) (ps : List (Plain InnerBound)) (trail : Nat) :
    (Decl.callback head (ps.map .plain) trail).text =
      head.text ++ '(' :: (paramsText head.noParams (ps.map Plain.text) ++
        ')' :: List.replicate trail ' ') := by
  have hplain : (fun d => Decl.text d) ∘ Decl.plain = Plain.text := by
    funext p
    rw [Function.comp_apply, Decl.text]
  rw [Decl.text, List.map_map, hplain]

/-- The callback is right if it is read as one and its parameters are right. -/
theorem callback_right (head : CallbackHead) (ps : List (Plain InnerBound)) (trail idx : Nat) :
    (parseParam (Decl.callback head (ps.map .plain) trail).text idx).rustType.abi m =
        (Decl.callback head (ps.map .plain) trail).abi m ↔
      head.gap = 0 ∧ head.inner ≠ [] ∧ head.ret.base.IsVoid ∧ head.ret.stars = 0 ∧
        ∀ p ∈ ps, p.Told m ∧ p.dims = [] := by
  rw [callback_text, Decl.abi, List.map_map, ← and_assoc]
  by_cases hread : head.gap = 0 ∧ head.inner ≠ []
  · rw [and_iff_right hread, callback_mapped hread.1 hread.2, RustType.abi, List.map_map,
      Abi.function.injEq, List.map_inj_left, ← and_assoc, ← typeName_void, and_comm, eq_comm]
    refine and_congr_right fun _ => forall₂_congr fun p _ => ?_
    rw [Function.comp_apply, Function.comp_apply, Decl.abi]
    exact inner_right p
  · refine iff_of_false ?_ fun h => hread h.1
    intro h
    have hfunction := callback_unmapped m ps trail idx hread
    rw [h] at hfunction
    exact hfunction trivial

/-- On 64-bit Linux. -/
def lp64 : DataModel := ⟨64, 64⟩

/-- `unsigned char flag` -/
def flagParam : Plain ArrayBound where
  base := .integer [.unsigned, .char]
  known := ⟨by decide, by decide, by decide, by decide, by decide, by decide, by decide⟩
  spec := [(0, "unsigned".toList), (1, "char".toList)]
  spec_base := by decide
  marks := []
  marks_star := by decide
  name := some (1, "flag".toList)
  name_word := by decide
  apart := by simp [TypeName.lexemes, asWords, Apart]
  complete := False.elim
  dims := []
  bounds := List.forall_mem_nil _
  trail := 0

/-- `void*` -/
def dataParam : Plain InnerBound where
  base := .type "void"
  known := show KnownName "void" by decide
  spec := [(0, "void".toList)]
  spec_base := by decide
  marks := [(0, .star)]
  marks_star := by decide
  name := none
  name_word := by decide
  apart := by simp [TypeName.lexemes, asWords, Apart]
  complete := fun _ => by decide
  dims := []
  bounds := List.forall_mem_nil _
  trail := 0

/-- What stands before the parameters of `int (*fn)(void*)`. -/
def fnHead : CallbackHead where
  ret.base := .integer [.int]
  ret.known := ⟨by decide, by decide, by decide, by decide, by decide, by decide, by decide⟩
  ret.spec := [(0, "int".toList)]
  ret.spec_base := by decide
  ret.marks := []
  ret.marks_star := by decide
  apart := by simp [TypeName.lexemes, asWords]
  before := 1
  gap := 0
  inner := [(0, "fn".toList)]
  inner_word := by decide
  inner_const := by decide
  inner_apart := by simp [asWords]
  innerTrail := 0
  after := 0
  noParams := []
  noParams_void := by decide

/-- `int (*fn)(void*)` -/
def fnParam : ParamDecl := .callback fnHead [.plain dataParam] 0

theorem flagParam_type :
    (parseParam "unsigned char flag".toList 0).rustType = .name "core::ffi::c_uint" := by
  have hfn : parseFnPtrParam (trim "unsigned char flag".toList) = none := rfl
  have hdims : splitLast '[' (trim (trim "unsigned char flag".toList)) = none := by decide
  rw [parseParam, hfn]
  dsimp only
  rw [stripArraySuffix, stripArrays, hdims]
  rfl

end Zrt.Codegen
