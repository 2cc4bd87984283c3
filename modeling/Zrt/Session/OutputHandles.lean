import Mathlib.Data.List.Nodup
import Zrt.Session.Outputs

/-! Who releases the output handles that the engine returns: `stamp_outputs` of `session.rs`,
`from_introspect` and `collect_from_raw` of `tensor.rs`. -/
namespace Zrt.Handles

open Outputs (CachedIo Engine OwnedValue Value stampCount tensorTypeAndShape)

/-- A returned handle, with what is behind it and what calls on it give; `none` is null. -/
structure Returned where
  handle : Option Nat
  value : Value
  engine : Engine

/-- An `OwnedValue` with the handle it releases on drop. -/
structure Owned where
  handle : Option Nat
  contents : OwnedValue

/-- A position of the three parallel slices of `stamp_outputs`: they are all of the session's output
count. -/
structure Position where
  cached : CachedIo
  returned : Returned
  slot : Option Owned

/-- A call by the arguments of its `ReleaseValue` calls and its result. -/
structure Call (α : Type) where
  released : List (Option Nat)
  result : Except Error α

/-- Drops the values. -/
def dropAll (values : List Owned) : List (Option Nat) := values.map Owned.handle

/-- Releases all that are not null. -/
def releaseNonNull (handles : List Returned) : List (Option Nat) :=
  (handles.map Returned.handle).filter Option.isSome

/-- The slots and the call. -/
structure Stamping where
  slots : List (Option Owned)
  released : List (Option Nat)
  result : Except Error Unit

/-- `stamp_outputs`. To store a value drops the one in its slot. -/
def stampOutputs (bits : Nat) : List Position → Stamping
  | [] => ⟨[], [], .ok ()⟩
  | p :: rest =>
    match stampCount bits p.cached p.returned.value p.returned.engine with
    | .ok count =>
      let s := stampOutputs bits rest
      { s with
        slots := some ⟨p.returned.handle,
          ⟨p.returned.value, p.cached.onnxType, p.cached.elemType, count, none⟩⟩ :: s.slots
        released := dropAll p.slot.toList ++ s.released }
    | .error err =>
      ⟨(p :: rest).map Position.slot,
        releaseNonNull ((p :: rest).map Position.returned), .error err⟩

/-- What is released by the end of a call and of its slots. -/
def Stamping.settle (s : Stamping) : List (Option Nat) :=
  s.released ++ dropAll (s.slots.filterMap id)

/-- `from_introspect`. -/
def fromIntrospect (bits : Nat) (r : Returned) : Call Owned :=
  let result : Except Error Owned := r.engine.getValueType.bind fun _ =>
    if r.value.kind = .tensor then
      (tensorTypeAndShape r.engine).bind fun _ =>
        (r.value.introspectType r.engine).bind fun elemType =>
          (r.value.introspectCount bits r.engine).map fun count =>
            ⟨r.handle, ⟨r.value, r.value.kind, elemType, count, none⟩⟩
    else .ok ⟨r.handle, ⟨r.value, r.value.kind, .undefined, 0, none⟩⟩
  match result with
  | .ok v => ⟨[], .ok v⟩
  | .error err => ⟨if r.handle.isSome then [r.handle] else [], .error err⟩

/-- The loop of `collect_from_raw`. The values that are not returned are dropped. -/
def collectLoop (bits : Nat) (values : List Owned) : List Returned → Call (List Owned)
  | [] => ⟨[], .ok values⟩
  | r :: remaining =>
    let made := fromIntrospect bits r
    match made.result with
    | .ok v =>
      let c := collectLoop bits (values ++ [v]) remaining
      { c with released := made.released ++ c.released }
    | .error err => ⟨made.released ++ releaseNonNull remaining ++ dropAll values, .error err⟩

def collectFromRaw (bits : Nat) (handles : List Returned) : Call (List Owned) :=
  collectLoop bits [] handles

/-- What is released by the end of a call and of the values it returns. -/
def Call.settle (c : Call (List Owned)) : List (Option Nat) :=
  match c.result with
  | .ok values => c.released ++ dropAll values
  | .error _ => c.released

/-- The handles that a call of `stamp_outputs` answers for: those returned, and those in the
slots. -/
def answered (positions : List Position) : List (Option Nat) :=
  positions.map (fun p => p.returned.handle) ++ dropAll (positions.filterMap Position.slot)

/-- Each handle is released once; none but these are. Null may be released any number of times. -/
def ReleasedOnce (handles released : List (Option Nat)) : Prop :=
  ∀ h, released.count (some h) = if some h ∈ handles then 1 else 0

/-- No handle is there twice. -/
def Distinct (handles : List (Option Nat)) : Prop := (handles.filter Option.isSome).Nodup

instance (handles : List (Option Nat)) : Decidable (Distinct handles) :=
  inferInstanceAs (Decidable (List.Nodup _))

variable {bits h : Nat} {r : Returned} {v : Owned} {handles : List Returned} {values : List Owned}
  {p : Position} {positions : List Position}

theorem count_releaseNonNull :
    (releaseNonNull handles).count (some h) = (handles.map Returned.handle).count (some h) :=
  List.count_filter rfl

theorem dropAll_append (first second : List Owned) :
    dropAll (first ++ second) = dropAll first ++ dropAll second := List.map_append

/-- A handle is wrapped, or released unless it is null. -/
theorem fromIntrospect_cases (bits : Nat) (r : Returned) :
    (∃ v, fromIntrospect bits r = ⟨[], .ok v⟩ ∧ v.handle = r.handle) ∨
      ∃ err, fromIntrospect bits r = ⟨releaseNonNull [r], .error err⟩ := by
  unfold fromIntrospect
  dsimp only
  split
  · rename_i v hv
    refine .inl ⟨v, rfl, ?_⟩
    obtain ⟨_, -, hv⟩ := bind_eq_ok hv
    split at hv
    · obtain ⟨_, -, hv⟩ := bind_eq_ok hv
      obtain ⟨elemType, -, hv⟩ := bind_eq_ok hv
      obtain ⟨count, -, rfl⟩ := map_eq_ok hv
      rfl
    · rw [← Except.ok.inj hv]
  · rename_i err _
    refine .inr ⟨err, ?_⟩
    cases hh : r.handle <;> simp [releaseNonNull, hh]

/-- A wrapped handle joins the values. -/
theorem collectLoop_ok (hv : fromIntrospect bits r = ⟨[], .ok v⟩) :
    collectLoop bits values (r :: handles) = collectLoop bits (values ++ [v]) handles := by
  rw [collectLoop, hv]
  rfl

/-- An error releases what was not wrapped before what was. -/
theorem collectLoop_error {err : Error}
    (he : fromIntrospect bits r = ⟨releaseNonNull [r], .error err⟩) :
    collectLoop bits values (r :: handles) =
      ⟨releaseNonNull (r :: handles) ++ dropAll values, .error err⟩ := by
  have hsplit : releaseNonNull [r] ++ releaseNonNull handles = releaseNonNull (r :: handles) :=
    (List.filter_append ..).symm
  rw [collectLoop, he, ← hsplit]

/-- As much is released as was wrapped before and is still to be wrapped. -/
theorem collectLoop_count : (collectLoop bits values handles).settle.count (some h) =
    (dropAll values).count (some h) + (handles.map Returned.handle).count (some h) := by
  induction handles generalizing values with
  | nil => rfl
  | cons r remaining ih =>
    obtain ⟨v, hv, hh⟩ | ⟨err, he⟩ := fromIntrospect_cases bits r
    · have hcons : (r :: remaining).map Returned.handle =
          dropAll [v] ++ remaining.map Returned.handle := by
            rw [dropAll, List.map_singleton, hh]; rfl
      rw [collectLoop_ok hv, ih, hcons, dropAll_append, List.count_append, List.count_append,
        Nat.add_assoc]
    · rw [collectLoop_error he, Call.settle, List.count_append, count_releaseNonNull, Nat.add_comm]

/-- The slots of positions, one at a time. -/
theorem dropAll_slots : dropAll ((p :: positions).filterMap Position.slot) =
    dropAll p.slot.toList ++ dropAll (positions.filterMap Position.slot) := by
  cases hs : p.slot with
  | none => rw [List.filterMap_cons_none hs]; rfl
  | some old => rw [List.filterMap_cons_some hs]; rfl

/-- As much is released as was returned and was in the slots. -/
theorem stampOutputs_count : (stampOutputs bits positions).settle.count (some h) =
    (answered positions).count (some h) := by
  induction positions with
  | nil => rfl
  | cons p rest ih =>
    rw [Stamping.settle, answered, List.count_append, List.count_append] at ih ⊢
    rw [dropAll_slots, List.count_append, List.map_cons, List.count_cons]
    unfold stampOutputs
    cases stampCount bits p.cached p.returned.value p.returned.engine with
    | ok count =>
      -- the old value of the slot is released now, the handle with the slots
      dsimp only [List.filterMap_cons, dropAll, List.map_cons, id] at ih ⊢
      rw [List.count_append, List.map_cons, List.count_cons]
      dsimp only
      omega
    | error err =>
      dsimp only
      rw [count_releaseNonNull, List.map_map, List.filterMap_map, Function.id_comp, dropAll_slots,
        List.count_append, List.map_cons, List.count_cons]
      rfl

/-- As much is released as is answered for: then each handle is released once. -/
theorem releasedOnce_of_count {handles released : List (Option Nat)} (hd : Distinct handles)
    (hc : ∀ h, released.count (some h) = handles.count (some h)) :
    ReleasedOnce handles released := by
  intro h
  rw [hc, ← List.count_filter (p := Option.isSome) rfl, hd.count]
  simp

/-- Each handle returned is released once, by the end of `stamp_outputs` and its slots, and by the
end of `collect_from_raw` and its values. -/
theorem output_handles_released_once (bits : Nat) :
    (∀ positions, Distinct (answered positions) →
      ReleasedOnce (answered positions) (stampOutputs bits positions).settle) ∧
    ∀ handles : List Returned, Distinct (handles.map Returned.handle) →
      ReleasedOnce (handles.map Returned.handle) (collectFromRaw bits handles).settle := by
  constructor
  · intro positions hd
    exact releasedOnce_of_count hd fun h => stampOutputs_count
  · intro handles hd
    refine releasedOnce_of_count hd fun h => ?_
    rw [collectFromRaw, collectLoop_count]
    exact Nat.zero_add _

/-- Without the handles, this is the stamping of values. -/
theorem stampOutputs_result : (stampOutputs bits positions).result =
    (Outputs.stampOutputs bits (positions.map Position.cached)
      (positions.map fun p => (p.returned.value, p.returned.engine))).result := by
  induction positions with
  | nil => rfl
  | cons p rest ih =>
    rw [List.map_cons, List.map_cons, stampOutputs, Outputs.stampOutputs]
    cases stampCount bits p.cached p.returned.value p.returned.engine with
    | ok count => exact ih
    | error err => rfl

/-- Two positions, the second with a dynamic count that the engine does not give. -/
def dynamicSecond : List Position :=
  [⟨⟨.tensor, .float, some 2, [2]⟩, ⟨some 7, Outputs.twoFloats, .succeed⟩, none⟩,
    ⟨⟨.tensor, .float, none, [-1]⟩, ⟨some 8, Outputs.twoFloats,
      { Engine.succeed with getDimensions := .error (.local "") }⟩, none⟩]

theorem output_handles_released_once_dynamic :
    ReleasedOnce [some 7, some 8] (stampOutputs 64 dynamicSecond).settle ∧
      ReleasedOnce [some 7, none, some 8]
        (collectFromRaw 64 [⟨some 7, Outputs.twoFloats, .succeed⟩,
          ⟨none, Outputs.twoFloats, { Engine.succeed with getValueType := .error (.local "") }⟩,
          ⟨some 8, Outputs.twoFloats, .succeed⟩]).settle :=
  ⟨(output_handles_released_once 64).1 dynamicSecond (by decide),
    (output_handles_released_once 64).2 _ (by decide)⟩

end Zrt.Handles
