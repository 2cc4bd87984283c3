import Mathlib.Algebra.Group.Nat.Defs
import Mathlib.Logic.Function.Basic
import Zrt.Floating

/-! `shape_plan.rs`: the serving plan, its builder, and the classification of live shapes. -/
namespace Zrt.ShapePlan

/-- The shapes of the inputs or outputs of one request, an `i64` a dimension. -/
abbrev Shapes := List (List Int)

structure ShapeId where
  index : Nat
  deriving DecidableEq

inductive OutputPolicy where
  | hostBuffer
  | cudaPinned
  | deviceResident
  deriving DecidableEq

structure CanonicalShape where
  id : ShapeId
  inputShapes : Shapes
  outputShapes : Shapes
  outputPolicy : OutputPolicy
  deriving DecidableEq

inductive FallbackPolicy where
  | strict
  | padToNearest (maxPaddingWasteRatio : Float32)
  | fallbackSession

inductive ClassifyError where
  | notInPlan
  | noFittingShape
  | paddingWasteExceeded (actualRatio : Float) (maximumRatio : Float32)

def ClassifyError.display : ClassifyError → String
  | notInPlan => "shape is not in the sealed serving plan"
  | noFittingShape => "no canonical serving shape fits the request"
  | paddingWasteExceeded actual maximum => "nearest serving shape padding waste " ++
      Floating.displayThree actual ++ " exceeds limit " ++
      Floating.displayThree (Floating.f64From maximum)

inductive ShapePlanError where
  | emptyPlan
  | emptyInputSet
  | nonPositiveDimension (kind : String) (dimension : Int)
  | duplicateShape
  | tooManyShapes
  | invalidPaddingWasteRatio (ratio : Float32)

abbrev ShapeHash := BitVec 64

/-- `ShapeHash::from_slices`: the lengths and the dimensions, FNV-style. -/
def ShapeHash.fromSlices (shapes : Shapes) : ShapeHash :=
  let mix (hash value : BitVec 64) : BitVec 64 := (hash ^^^ value) * 0x100000001b3#64
  shapes.foldl
    (fun hash shape => shape.foldl (fun hash dim => mix hash (BitVec.ofInt 64 dim))
      (mix hash (BitVec.ofNat 64 shape.length)))
    (mix 0xcbf29ce484222325#64 (BitVec.ofNat 64 shapes.length))

/-- `ServingShapePlan`; the index lists the ids filed under a hash. -/
structure ServingShapePlan where
  buckets : List CanonicalShape
  index : ShapeHash → List ShapeId
  fallback : FallbackPolicy

/-- `zip` and `all`, as the shape comparisons do it. -/
def zipEqual (left right : Shapes) : Bool :=
  (left.zip right).all fun p => p.1 = p.2

def shapesEqual (canonical requested : Shapes) : Bool :=
  canonical.length = requested.length ∧ zipEqual canonical requested

/-- Checked `u128` arithmetic: a result past `u128::MAX` is `None`. -/
def u128Checked (n : Nat) : Option Nat :=
  if n < 2 ^ 128 then some n else none

/-- The element count of one requested shape. -/
def shapeElementCount (shape : List Int) : Option Nat :=
  shape.foldlM (fun product dimension =>
    if 0 < dimension then u128Checked (product * dimension.toNat) else none) 1

def requestedElementCount (shapes : Shapes) : Option Nat := do
  let sum ← shapes.foldlM (fun sum shape => do
    let product ← shapeElementCount shape
    u128Checked (sum + product)) 0
  if sum ≠ 0 then some sum else none

/-- The element counts of one requested shape and of the planned shape it fits. -/
def fittingShapeCounts (request bucket : List Int) : Option (Nat × Nat) :=
  if request.length ≠ bucket.length then none
  else (request.zip bucket).foldlM (fun products dims =>
    if dims.1 ≤ 0 ∨ dims.2 < dims.1 then none
    else do
      let requestProduct ← u128Checked (products.1 * dims.1.toNat)
      let bucketProduct ← u128Checked (products.2 * dims.2.toNat)
      some (requestProduct, bucketProduct)) (1, 1)

def fittingElementCounts (requested canonical : Shapes) : Option (Nat × Nat) :=
  if requested.length ≠ canonical.length then none
  else (requested.zip canonical).foldlM (fun sums shapes => do
    let products ← fittingShapeCounts shapes.1 shapes.2
    let requestedSum ← u128Checked (sums.1 + products.1)
    let canonicalSum ← u128Checked (sums.2 + products.2)
    some (requestedSum, canonicalSum)) (0, 0)

/-- One candidate of the search for the least padding. -/
def betterFit (requested : Shapes) (best : Option (Nat × Nat × ShapeId))
    (bucket : CanonicalShape) : Option (Nat × Nat × ShapeId) :=
  match fittingElementCounts requested bucket.inputShapes with
  | none => best
  | some (requestedElements, canonicalElements) =>
    let waste := canonicalElements - requestedElements
    match best with
    | none => some (waste, canonicalElements, bucket.id)
    | some (bestWaste, bestTotal, _) =>
      if waste < bestWaste ∨ (waste = bestWaste ∧ canonicalElements < bestTotal) then
        some (waste, canonicalElements, bucket.id)
      else best

namespace ServingShapePlan

variable (plan : ServingShapePlan)

def bucket (id : ShapeId) : Option CanonicalShape := plan.buckets[id.index]?

def len : Nat := plan.buckets.length

def classifyPadded (requested : Shapes) (maximumRatio : Float32) :
    Except ClassifyError ShapeId :=
  match plan.buckets.foldl (betterFit requested) none with
  | none => .error .noFittingShape
  | some (waste, _, id) =>
    match requestedElementCount requested with
    | none => .error .noFittingShape
    | some requestedElements =>
      let actualRatio := Float.ofNat waste / Float.ofNat requestedElements
      if actualRatio > Floating.f64From maximumRatio then
        .error (.paddingWasteExceeded actualRatio maximumRatio)
      else .ok id

def classify (inputShapes : Shapes) : Except ClassifyError ShapeId :=
  match (plan.index (.fromSlices inputShapes)).find? fun id =>
      (plan.bucket id).any fun bucket => shapesEqual bucket.inputShapes inputShapes with
  | some id => .ok id
  | none =>
    match plan.fallback with
    | .strict | .fallbackSession => .error .notInPlan
    | .padToNearest maxPaddingWasteRatio => plan.classifyPadded inputShapes maxPaddingWasteRatio

end ServingShapePlan

structure ServingShapePlanBuilder where
  buckets : List (Shapes × Shapes × OutputPolicy)
  fallback : FallbackPolicy

def validateShapes (inputs outputs : Shapes) : Except ShapePlanError Unit :=
  if inputs.isEmpty then .error .emptyInputSet
  else match inputs.flatten.find? (· ≤ 0) with
    | some dimension => .error (.nonPositiveDimension "input" dimension)
    | none => match outputs.flatten.find? (· ≤ 0) with
      | some dimension => .error (.nonPositiveDimension "output" dimension)
      | none => .ok ()

/-- One pass of the loop of `build`, on the entry at `position`. -/
def addBucket (plan : ServingShapePlan) (entry : (Shapes × Shapes × OutputPolicy) × Nat) :
    Except ShapePlanError ServingShapePlan :=
  let ((inputShapes, outputShapes, outputPolicy), position) := entry
  match validateShapes inputShapes outputShapes with
  | .error error => .error error
  | .ok () =>
    let hash := ShapeHash.fromSlices inputShapes
    if (plan.index hash).any fun id =>
        (plan.bucket id).any fun bucket => bucket.inputShapes = inputShapes then
      .error .duplicateShape
    else .ok { plan with
      buckets := plan.buckets ++ [⟨⟨position⟩, inputShapes, outputShapes, outputPolicy⟩]
      index := Function.update plan.index hash (plan.index hash ++ [⟨position⟩]) }

def FallbackPolicy.validate : FallbackPolicy → Except ShapePlanError Unit
  | .padToNearest ratio =>
    if ¬ ratio.isFinite ∨ ratio < 0 then .error (.invalidPaddingWasteRatio ratio) else .ok ()
  | _ => .ok ()

def ServingShapePlanBuilder.build (builder : ServingShapePlanBuilder) :
    Except ShapePlanError ServingShapePlan :=
  if builder.buckets.isEmpty then .error .emptyPlan
  else if 2 ^ 32 - 1 < builder.buckets.length then .error .tooManyShapes
  else match builder.fallback.validate with
    | .error error => .error error
    | .ok () => builder.buckets.zipIdx.foldlM addBucket ⟨[], fun _ => [], builder.fallback⟩

/-- A plan that `build` returned; its fields are private, so there is no other. -/
structure SealedPlan extends ServingShapePlan where
  built : ∃ builder : ServingShapePlanBuilder, builder.build = .ok toServingShapePlan

end Zrt.ShapePlan
