import Zrt.Session.Getters

/-! The memory of one getter after another. -/
namespace Zrt.Getters

open Ownership (Books Comp)
open Ownership.Comp
open Constructors (check check_clean create create_moves createNonNull createNonNull_moves
  cstrToString getDefault getDefault_clean)
open Handles (Owned Returned collectFromRaw collectLoop_count dropAll fromIntrospect)

variable {α β : Type}

def memoryHandles (p : Option (Memory α)) : List Nat := (p.map Memory.handle).toList

def entryHandles (entries : List (Option (Memory α))) : List Nat := entries.flatMap memoryHandles

def Allocated.handles (array : Allocated α) : List Nat := array.handle :: entryHandles array.entries

def arrayHandles (array : Option (Allocated α)) : List Nat := array.elim [] Allocated.handles

theorem ask_clean (outcome : Except Error α) : (ask outcome).Clean :=
  (check_clean _).bind fun _ => clean_ofExcept _

theorem allocate_infallible (a : Option α) : (allocate a).Infallible := by
  cases a with
  | none => exact infallible_pure none
  | some a => exact infallible_make.bind fun x => infallible_pure _

theorem allocate_moves (a : Option α) : Moves [] (allocate a) memoryHandles := by
  cases a with
  | none => exact moves_pure none memoryHandles
  | some a => exact moves_make.bind fun x => moves_pure (some (Memory.mk x a)) memoryHandles

theorem allocateEach_infallible (as : List (Option α)) : (allocateEach as).Infallible := by
  induction as with
  | nil => exact infallible_pure []
  | cons a rest ih =>
    exact (allocate_infallible a).bind fun p => ih.bind fun ps => infallible_pure _

theorem allocateEach_moves (as : List (Option α)) : Moves [] (allocateEach as) entryHandles := by
  induction as with
  | nil => exact moves_pure [] entryHandles
  | cons a rest ih =>
    refine (allocate_moves a).bind fun p => ?_
    refine ih.bind_frame (allocateEach_infallible rest) fun ps => ?_
    exact (moves_pure (p :: ps) entryHandles).perm List.perm_append_comm

theorem allocateArray_moves (array : Option (CArray α)) :
    Moves [] (allocateArray array) arrayHandles := by
  cases array with
  | none => exact moves_pure none arrayHandles
  | some array =>
    refine moves_make.bind fun x => ?_
    refine (allocateEach_moves array.entries).bind_frame (allocateEach_infallible _) fun es => ?_
    exact (moves_pure (some (Allocated.mk x es array.freed)) arrayHandles).perm
      (@List.perm_append_comm _ [x] _)

theorem fetch_moves (answer : Except Error (Option α)) : Moves [] (fetch answer) memoryHandles :=
  (ask_clean answer).moves.bind allocate_moves

theorem free_moves (x : Nat) (freed : Except Error Unit) : Moves [x] (free x freed) fun _ => [] :=
  (moves_release x).bind fun _ => (check_clean freed).moves

/-- Memory that is fetched, and given back by what follows. -/
theorem fetch_clean {answer : Except Error (Option α)} {f : Option (Memory α) → Comp Error β}
    (hf : ∀ raw, Moves (memoryHandles raw) (f raw) fun _ => []) : (fetch answer >>= f).Clean :=
  ((fetch_moves answer).bind hf).clean

theorem fetchString_clean (what : String) (n : TextCalls) : (fetchString what n).Clean := by
  refine (getDefault_clean _).bind fun _ => fetch_clean fun raw => ?_
  cases raw with
  | none => exact (clean_pure none).moves
  | some p => exact (free_moves p.handle _).bind fun _ => (clean_ofExcept _).moves

theorem lookup_clean (key : String) (n : TextCalls) : (lookup key n).Clean :=
  (clean_ofExcept _).bind fun _ => fetchString_clean _ n

theorem copyAndFreeCstr_moves (raw : Option (Memory CStr)) :
    Moves (memoryHandles raw) (copyAndFreeCstr raw) fun _ => [] := by
  cases raw with
  | none => exact (clean_pure none).moves
  | some p => exact (free_moves p.handle _).discard.bind fun _ => (clean_ofExcept _).moves

theorem compatibilityInfoFromBytes_clean (epType : String) (n : TextCalls) :
    (compatibilityInfoFromBytes epType n).Clean :=
  (clean_ofExcept _).bind fun _ => (getDefault_clean _).bind fun _ =>
    fetch_clean copyAndFreeCstr_moves

theorem compatibilityInfoFromPath_clean (modelPath epType : String) (n : TextCalls) :
    (compatibilityInfoFromPath modelPath epType n).Clean :=
  (clean_ofExcept _).bind fun _ => compatibilityInfoFromBytes_clean epType n

theorem endProfiling_clean (n : TextCalls) : (endProfiling n).Clean := by
  refine (getDefault_clean _).bind fun _ => fetch_clean fun raw => ?_
  cases raw with
  | none => exact (clean_ofExcept _).moves
  | some p =>
    exact (free_moves p.handle _).capture_nil.bind fun freed => (clean_ofExcept _).moves

theorem overridableInitializerName_clean (n : TextCalls) :
    (overridableInitializerName n).Clean := by
  refine (getDefault_clean _).bind fun _ => fetch_clean fun raw => ?_
  cases raw with
  | none => exact (clean_ofExcept _).moves
  | some p => exact (free_moves p.handle _).discard.bind fun _ => (clean_pure _).moves

theorem asString_clean (n : TextCalls) : (asString n).Clean := by
  refine (getDefault_clean _).bind fun _ => fetch_clean fun raw => ?_
  cases raw with
  | none => exact (clean_pure "").moves
  | some p => exact (free_moves p.handle _).bind fun _ => (clean_ofExcept _).moves

/-- By induction on the keys that are left: each is freed, with an error before it or without. -/
theorem keyLoop_moves (out : List String) (firstErr : Option Error)
    (entries : List (Option (Memory CStr))) :
    Moves (entryHandles entries) (keyLoop out firstErr entries) fun _ => [] := by
  induction entries generalizing out firstErr with
  | nil => exact (clean_pure _).moves
  | cons p rest ih =>
    cases p with
    | none => exact ih out firstErr
    | some p =>
      unfold keyLoop
      refine (free_moves p.handle _).capture_nil.bind_frame (infallible_capture _) fun freed => ?_
      split
      · exact ih _ _
      · exact ih _ _
      · exact ih _ _
      · exact ih _ _

theorem keyLoop_infallible (out : List String) (firstErr : Option Error)
    (entries : List (Option (Memory CStr))) : (keyLoop out firstErr entries).Infallible := by
  induction entries generalizing out firstErr with
  | nil => exact infallible_pure _
  | cons p rest ih =>
    cases p with
    | none => exact ih out firstErr
    | some p =>
      unfold keyLoop
      refine (infallible_capture _).bind fun freed => ?_
      split
      · exact ih _ _
      · exact ih _ _
      · exact ih _ _
      · exact ih _ _

theorem customMetadataKeys_clean (n : KeysCalls) : (customMetadataKeys n).Clean := by
  refine (getDefault_clean _).bind fun _ => (ask_clean n.get).bind fun keys => Moves.clean ?_
  cases hkeys : keys.array with
  | none => exact (clean_pure []).moves
  | some a =>
    have hcount := (keys.count_array a hkeys).1
    refine (allocateArray_moves (some a)).bind fun array => ?_
    cases array with
    | none => exact (clean_pure []).moves
    | some array =>
      dsimp only
      rw [if_pos hcount]
      -- the keys are freed before their array
      refine Moves.perm (@List.perm_append_comm _ _ [array.handle]) ?_
      refine (keyLoop_moves [] none array.entries).bind_frame (keyLoop_infallible _ _ _) fun r => ?_
      exact (free_moves array.handle _).bind fun _ => (clean_ofExcept _).moves

theorem nameLoop_clean (n : NamesCalls) (indices : List Nat) : (nameLoop n indices).Clean := by
  induction indices with
  | nil => exact clean_pure []
  | cons i rest ih =>
    refine fetch_clean fun raw => ?_
    cases raw with
    | none => exact (clean_ofExcept _).moves
    | some p =>
      refine (free_moves p.handle _).bind fun _ => ?_
      exact (ih.bind fun names => clean_pure _).moves

theorem collectIoNames_clean (n : NamesCalls) : (collectIoNames n).Clean :=
  (ask_clean n.count).bind fun _ => nameLoop_clean n _

theorem ioMeta_clean (bits : Nat) (n : MetaCalls) : (ioMeta bits n).Clean := by
  refine (check_clean _).bind fun _ => (ask_clean _).bind fun onnxType => ?_
  split
  · exact (check_clean _).bind fun _ => (ask_clean _).bind fun _ => (ask_clean _).bind fun _ =>
      (ask_clean _).bind fun _ => (ask_clean _).bind fun _ => (clean_ofExcept _).bind fun _ =>
        clean_pure _
  · exact clean_pure _

theorem collectIoMeta_clean (bits : Nat) (calls : List MetaCalls) :
    (collectIoMeta bits calls).Clean := by
  induction calls with
  | nil => exact clean_pure []
  | cons n rest ih =>
    refine Moves.clean ((allocate_moves _).bind fun typeInfo => ?_)
    have hrest (found) : Moves [] (collectIoMeta bits rest >>= fun out => pure (found :: out))
        fun _ => [] := (ih.bind fun out => clean_pure _).moves
    cases typeInfo with
    | none => exact (ioMeta_clean bits n).moves.bind hrest
    | some p => exact ((ioMeta_clean bits n).moves.guard p.handle).bind hrest

def returnedHandles (handles : List Returned) : List Nat := handles.filterMap Returned.handle

def valueHandles (values : List Owned) : List Nat := values.filterMap Owned.handle

theorem allocateValues_infallible (values : List BoundValue) :
    (allocateValues values).Infallible := by
  induction values with
  | nil => exact infallible_pure []
  | cons v rest ih => exact (allocate_infallible _).bind fun p => ih.bind fun _ => infallible_pure _

theorem allocateValues_moves (values : List BoundValue) :
    Moves [] (allocateValues values) returnedHandles := by
  induction values with
  | nil => exact moves_pure [] returnedHandles
  | cons v rest ih =>
    refine (allocate_moves _).bind fun p => ?_
    refine ih.bind_frame (allocateValues_infallible rest) fun rs => ?_
    refine (moves_pure (_ :: rs) returnedHandles).perm ?_
    cases p with
    | none => exact (List.append_nil _).symm ▸ List.Perm.refl _
    | some p => exact @List.perm_append_comm _ [p.handle] _

theorem releaseAll_infallible (handles : List (Option Nat)) : (releaseAll handles).Infallible := by
  induction handles with
  | nil => exact infallible_pure ()
  | cons x rest ih =>
    cases x with
    | none => exact ih
    | some x => exact Infallible.bind (fun b => ⟨(), rfl⟩) fun _ => ih

theorem releaseAll_moves (handles : List (Option Nat)) :
    Moves (handles.filterMap id) (releaseAll handles) fun _ => [] := by
  induction handles with
  | nil => exact (clean_pure ()).moves
  | cons x rest ih =>
    cases x with
    | none => exact ih
    | some x => exact (moves_release x).bind_frame (fun b => ⟨(), rfl⟩) fun _ => ih

theorem count_filterMap_id (handles : List (Option Nat)) (h : Nat) :
    (handles.filterMap id).count h = handles.count (some h) := by
  induction handles with
  | nil => rfl
  | cons x rest ih =>
    cases x with
    | none => simpa using ih
    | some x =>
      rw [List.filterMap_cons_some (f := id) rfl, List.count_cons, List.count_cons, ih]
      simp

theorem dropAll_filterMap (values : List Owned) :
    (dropAll values).filterMap id = valueHandles values := List.filterMap_map ..

/-- What is released by `collect_from_raw`, and what its values hold, are the handles it was
given. -/
theorem collectFromRaw_perm (bits : Nat) (handles : List Returned) :
    ((collectFromRaw bits handles).released.filterMap id ++
      passedOn valueHandles (collectFromRaw bits handles).result).Perm
        (returnedHandles handles) := by
  rw [List.perm_iff_count]
  intro h
  have hreturned : returnedHandles handles = (handles.map Returned.handle).filterMap id := by
    rw [List.filterMap_map]
    rfl
  have hcount : (Handles.collectLoop bits [] handles).settle.count (some h) =
      (Handles.dropAll []).count (some h) + (handles.map Handles.Returned.handle).count (some h) :=
    collectLoop_count
  rw [hreturned, List.count_append, count_filterMap_id, count_filterMap_id]
  unfold Handles.Call.settle at hcount
  have hempty : (dropAll []).count (some h) = 0 := rfl
  cases hr : (collectFromRaw bits handles).result with
  | ok values =>
    rw [collectFromRaw] at hr
    rw [hr, List.count_append] at hcount
    rw [passedOn, ← dropAll_filterMap, count_filterMap_id]
    exact hcount.trans (by omega)
  | error err =>
    rw [collectFromRaw] at hr
    rw [hr] at hcount
    exact hcount.trans (by omega)

/-- What is released by `from_introspect`, or held by its value, is the handle it was given. -/
theorem fromIntrospect_handles (bits : Nat) (r : Returned) :
    (fromIntrospect bits r).released.filterMap id ++
      passedOn (fun v => v.handle.toList) (fromIntrospect bits r).result = r.handle.toList := by
  have hheld : ∀ v, (fromIntrospect bits r).result = .ok v → v.handle = r.handle ∧
      (fromIntrospect bits r).released = [] := by
    intro v hv
    unfold fromIntrospect at hv ⊢
    dsimp only at hv ⊢
    split at hv
    · cases hv
      rename_i v hresult
      refine ⟨?_, rfl⟩
      obtain ⟨_, -, hresult⟩ := Zrt.bind_eq_ok hresult
      split at hresult
      · obtain ⟨_, -, hresult⟩ := Zrt.bind_eq_ok hresult
        obtain ⟨_, -, hresult⟩ := Zrt.bind_eq_ok hresult
        obtain ⟨_, -, rfl⟩ := Zrt.map_eq_ok hresult
        rfl
      · cases hresult
        rfl
    · cases hv
  cases hr : (fromIntrospect bits r).result with
  | ok v =>
    obtain ⟨hhandle, hnone⟩ := hheld v hr
    rw [hnone, passedOn, hhandle]
    rfl
  | error err =>
    have hreleased : (fromIntrospect bits r).released =
        if r.handle.isSome then [r.handle] else [] := by
      unfold fromIntrospect at hr ⊢
      dsimp only at hr ⊢
      split at hr
      · cases hr
      · rfl
    rw [hreleased, passedOn, List.append_nil]
    cases r.handle <;> rfl

theorem attrTensor_moves (bits : Nat) (name : String) (get : Except Error BoundValue) :
    Moves [] (attrTensor bits name get) fun v => v.handle.toList := by
  refine (clean_ofExcept _).moves.bind fun _ => (ask_clean get).moves.bind fun out => ?_
  refine (allocate_moves _).bind fun handle => ?_
  have hsame : memoryHandles handle = (handle.map Memory.handle).toList := rfl
  rw [hsame, ← fromIntrospect_handles bits ⟨handle.map Memory.handle, out.value, out.engine⟩]
  refine (releaseAll_moves _).bind_frame (releaseAll_infallible _) fun _ => ?_
  exact moves_ofExcept _ fun v : Owned => v.handle.toList

theorem settleValues_moves (result : Except Error (List Owned)) (freed : Except Error Unit) :
    Moves (passedOn valueHandles result) (settleValues result freed) valueHandles := by
  cases result with
  | error err => exact moves_ofExcept (.error err) valueHandles
  | ok values =>
    cases freed with
    | ok _ => exact moves_pure values valueHandles
    | error err =>
      have hdropped := releaseAll_moves (dropAll values)
      rw [dropAll_filterMap] at hdropped
      exact hdropped.bind fun _ => moves_ofExcept (.error err) valueHandles

theorem outputValues_moves (bits : Nat) (n : ValuesCalls) :
    Moves [] (outputValues bits n) valueHandles := by
  refine (getDefault_clean _).moves.bind fun _ => (ask_clean _).moves.bind fun out => ?_
  cases out with
  | none => exact moves_pure [] valueHandles
  | some out =>
    obtain ⟨values, arrayFreed⟩ := out
    refine moves_make.bind fun array => ?_
    refine (allocateValues_moves values).bind_frame (allocateValues_infallible values)
      fun handles => ?_
    -- the released handles go first, then the array, and the values are handed over
    have hperm := (collectFromRaw_perm bits handles).append_right [array]
    rw [List.append_assoc] at hperm
    refine Moves.perm hperm ?_
    refine (releaseAll_moves _).bind_frame (releaseAll_infallible _) fun _ => ?_
    refine Moves.perm (@List.perm_append_comm _ [array] _) ?_
    refine (free_moves array arrayFreed).capture_nil.bind_frame (infallible_capture _)
      fun freed => ?_
    exact settleValues_moves _ freed

theorem freeIfSome_moves (p : Option (Memory (α × Except Error Unit))) :
    Moves (memoryHandles p) (freeIfSome p) fun _ => [] := by
  cases p with
  | none => exact (clean_pure ()).moves
  | some p => exact (free_moves p.handle _).discard

theorem freeIfSome_infallible (p : Option (Memory (α × Except Error Unit))) :
    (freeIfSome p).Infallible := by
  cases p with
  | none => exact infallible_pure ()
  | some p => exact infallible_discard _

theorem outputNames_clean (n : BoundNamesCalls) : (outputNames n).Clean := by
  refine (getDefault_clean _).bind fun _ => Moves.clean ?_
  refine (allocate_moves n.get.buffer).bind fun buffer => ?_
  refine (allocate_moves n.get.lengths).bind_frame (allocate_infallible _) fun lengths => ?_
  refine (check_clean n.status).moves.capture_nil.bind_frame (infallible_capture _) fun status => ?_
  refine Moves.perm (@List.perm_append_comm _ (memoryHandles buffer) _) ?_
  refine (freeIfSome_moves buffer).bind_frame (freeIfSome_infallible buffer) fun _ => ?_
  exact (freeIfSome_moves lengths).bind fun _ => (clean_ofExcept _).moves

theorem freeEach_infallible (entries : List (Option (Memory CStr))) :
    (freeEach entries).Infallible := by
  induction entries with
  | nil => exact infallible_pure ()
  | cons p rest ih =>
    cases p with
    | none => exact ih
    | some p => exact (infallible_discard _).bind fun _ => ih

theorem freeEach_moves (entries : List (Option (Memory CStr))) :
    Moves (entryHandles entries) (freeEach entries) fun _ => [] := by
  induction entries with
  | nil => exact (clean_pure ()).moves
  | cons p rest ih =>
    cases p with
    | none => exact ih
    | some p => exact (free_moves p.handle _).discard.bind_frame (infallible_discard _) fun _ => ih

theorem attrStrings_clean (name : String) (n : AttrCalls) : (attrStrings name n).Clean := by
  refine (clean_ofExcept _).bind fun _ => (getDefault_clean _).bind fun _ => Moves.clean ?_
  refine (allocateArray_moves n.array).bind fun array => ?_
  refine (check_clean n.status).moves.capture_nil.bind_frame (infallible_capture _) fun status => ?_
  cases array with
  | none => exact (clean_ofExcept _).moves
  | some array =>
    refine Moves.perm (@List.perm_append_comm _ _ [array.handle]) ?_
    refine (freeEach_moves array.entries).bind_frame (freeEach_infallible _) fun _ => ?_
    exact (free_moves array.handle _).discard.bind fun _ => (clean_ofExcept _).moves

theorem availableProviders_clean (get : Except Error (Option ProviderNames)) :
    (availableProviders get).Clean := by
  refine fetch_clean fun providers => ?_
  cases providers with
  | none => exact (clean_pure []).moves
  | some p =>
    dsimp only
    rw [if_neg (Int.not_le.mpr p.contents.len_pos)]
    exact (clean_ofExcept _).moves.guard p.handle

theorem compileToBytes_clean (n : CompileCalls) : (compileToBytes n).Clean := by
  refine (check_clean _).bind fun _ => (getDefault_clean _).bind fun _ =>
    (check_clean _).bind fun _ => Moves.clean ?_
  refine (allocate_moves n.buffer).bind fun buffer => ?_
  refine (check_clean n.compile).moves.capture_nil.bind_frame (infallible_capture _)
    fun status => ?_
  cases buffer with
  | none => exact (clean_ofExcept _).moves
  | some p =>
    exact (free_moves p.handle _).capture_nil.bind fun freed => (clean_ofExcept _).moves

theorem toBytes_clean (n : CompileCalls) : (toBytes n).Clean := by
  refine Moves.clean ((createNonNull_moves _ _).bind fun opts => ?_)
  refine ((createNonNull_moves _ _).guard opts).bind fun copts => ?_
  exact (compileToBytes_clean n).moves.guard copts

theorem configEntries_moves (get : Except Error Bool) (made : Bool) :
    Moves [] (configEntries get made) fun x => [x] := by
  refine (create_moves get).bind fun kvps => ?_
  cases kvps with
  | none => exact createNonNull_moves _ _
  | some kvps => exact moves_pure kvps fun x => [x]

theorem sessionConfigEntries_moves (opts get : Except Error Bool) (made : Bool) :
    Moves [] (sessionConfigEntries opts get made) fun x => [x] := by
  refine (createNonNull_moves opts _).bind fun opts => ?_
  refine ((create_moves get).guard opts).bind fun kvps => ?_
  cases kvps with
  | none => exact createNonNull_moves _ _
  | some kvps => exact moves_pure kvps fun x => [x]

theorem hardwareDeviceEpIncompatibilityDetails_moves (sharesEnvironment : Bool) (epName : String)
    (get : Except Error Bool) :
    Moves [] (hardwareDeviceEpIncompatibilityDetails sharesEnvironment epName get)
      Option.toList := by
  unfold hardwareDeviceEpIncompatibilityDetails
  split
  · exact (clean_ofExcept _).moves.bind fun _ => create_moves get
  · exact moves_ofExcept (.error _) Option.toList

/-- A getter with what ORT answers it. -/
inductive Getter where
  | fetchString (what : String) (n : TextCalls)
  | lookup (key : String) (n : TextCalls)
  | customMetadataKeys (n : KeysCalls)
  | compatibilityInfoFromPath (modelPath epType : String) (n : TextCalls)
  | compatibilityInfoFromBytes (epType : String) (n : TextCalls)
  | endProfiling (n : TextCalls)
  | overridableInitializerName (n : TextCalls)
  | asString (n : TextCalls)
  | collectIoNames (n : NamesCalls)
  | collectIoMeta (calls : List MetaCalls)
  | outputValues (n : ValuesCalls)
  | outputNames (n : BoundNamesCalls)
  | attrStrings (name : String) (n : AttrCalls)
  | attrTensor (name : String) (get : Except Error BoundValue)
  | availableProviders (get : Except Error (Option ProviderNames))
  | toBytes (n : CompileCalls)
  | configEntries (get : Except Error Bool) (made : Bool)
  | sessionConfigEntries (opts get : Except Error Bool) (made : Bool)
  | metadata (get : Except Error Bool)
  | overridableInitializerTypeInfo (get : Except Error Bool)
  | hardwareDeviceEpIncompatibilityDetails (sharesEnvironment : Bool) (epName : String)
      (get : Except Error Bool)

/-- The handles that the caller has to release. -/
def Getter.run (bits : Nat) : Getter → Comp Error (List Nat)
  | .fetchString what n => Getters.fetchString what n >>= fun _ => pure []
  | .lookup key n => Getters.lookup key n >>= fun _ => pure []
  | .customMetadataKeys n => Getters.customMetadataKeys n >>= fun _ => pure []
  | .compatibilityInfoFromPath modelPath epType n =>
    Getters.compatibilityInfoFromPath modelPath epType n >>= fun _ => pure []
  | .compatibilityInfoFromBytes epType n =>
    Getters.compatibilityInfoFromBytes epType n >>= fun _ => pure []
  | .endProfiling n => Getters.endProfiling n >>= fun _ => pure []
  | .overridableInitializerName n => Getters.overridableInitializerName n >>= fun _ => pure []
  | .asString n => Getters.asString n >>= fun _ => pure []
  | .collectIoNames n => Getters.collectIoNames n >>= fun _ => pure []
  | .collectIoMeta calls => Getters.collectIoMeta bits calls >>= fun _ => pure []
  | .outputValues n => Getters.outputValues bits n >>= fun values => pure (valueHandles values)
  | .outputNames n => Getters.outputNames n >>= fun _ => pure []
  | .attrStrings name n => Getters.attrStrings name n >>= fun _ => pure []
  | .attrTensor name get => Getters.attrTensor bits name get >>= fun v => pure v.handle.toList
  | .availableProviders get => Getters.availableProviders get >>= fun _ => pure []
  | .toBytes n => Getters.toBytes n >>= fun _ => pure []
  | .configEntries get made => Getters.configEntries get made >>= fun x => pure [x]
  | .sessionConfigEntries opts get made =>
    Getters.sessionConfigEntries opts get made >>= fun x => pure [x]
  | .metadata get => Getters.metadata get >>= fun x => pure [x]
  | .overridableInitializerTypeInfo get =>
    Getters.overridableInitializerTypeInfo get >>= fun x => pure [x]
  | .hardwareDeviceEpIncompatibilityDetails sharesEnvironment epName get =>
    Getters.hardwareDeviceEpIncompatibilityDetails sharesEnvironment epName get >>= fun x =>
      pure x.toList

/-- A caller of getters: the books, and the handles that it has not released. -/
structure Caller where
  books : Books
  live : List Nat

inductive Op where
  | call (g : Getter)
  | drop (x : Nat)

def Caller.step (bits : Nat) (c : Caller) : Op → Caller
  | .call g =>
    let (result, books) := g.run bits c.books
    ⟨books, c.live ++ passedOn id result⟩
  | .drop x => if x ∈ c.live then ⟨c.books.drop x, c.live.erase x⟩ else c

/-- What was made is released, or it is the caller's. -/
def Caller.Accounted (c : Caller) : Prop :=
  Books.empty.Grows c.books {x | x ∈ c.live} ∧ c.live.Nodup

theorem getter_moves (bits : Nat) (g : Getter) : Moves [] (g.run bits) id := by
  have hnone {α : Type} {m : Comp Error α} (hm : m.Clean) :
      Moves [] (m >>= fun _ => pure []) (id : List Nat → List Nat) :=
    hm.moves.bind fun _ => moves_pure [] id
  cases g with
  | fetchString what n => exact hnone (fetchString_clean what n)
  | lookup key n => exact hnone (lookup_clean key n)
  | customMetadataKeys n => exact hnone (customMetadataKeys_clean n)
  | compatibilityInfoFromPath modelPath epType n =>
    exact hnone (compatibilityInfoFromPath_clean modelPath epType n)
  | compatibilityInfoFromBytes epType n => exact hnone (compatibilityInfoFromBytes_clean epType n)
  | endProfiling n => exact hnone (endProfiling_clean n)
  | overridableInitializerName n => exact hnone (overridableInitializerName_clean n)
  | asString n => exact hnone (asString_clean n)
  | collectIoNames n => exact hnone (collectIoNames_clean n)
  | collectIoMeta calls => exact hnone (collectIoMeta_clean bits calls)
  | outputValues n => exact (outputValues_moves bits n).bind fun values => moves_pure _ id
  | outputNames n => exact hnone (outputNames_clean n)
  | attrStrings name n => exact hnone (attrStrings_clean name n)
  | attrTensor name get => exact (attrTensor_moves bits name get).bind fun v => moves_pure _ id
  | availableProviders get => exact hnone (availableProviders_clean get)
  | toBytes n => exact hnone (toBytes_clean n)
  | configEntries get made => exact (configEntries_moves get made).bind fun x => moves_pure [x] id
  | sessionConfigEntries opts get made =>
    exact (sessionConfigEntries_moves opts get made).bind fun x => moves_pure [x] id
  | metadata get => exact (createNonNull_moves get _).bind fun x => moves_pure [x] id
  | overridableInitializerTypeInfo get =>
    exact (createNonNull_moves get _).bind fun x => moves_pure [x] id
  | hardwareDeviceEpIncompatibilityDetails sharesEnvironment epName get =>
    exact (hardwareDeviceEpIncompatibilityDetails_moves _ _ get).bind fun x => moves_pure _ id

theorem accounted_step {bits : Nat} {c : Caller} (hc : c.Accounted) (op : Op) :
    (c.step bits op).Accounted := by
  obtain ⟨hgrows, hnodup⟩ := hc
  cases op with
  | call g =>
    obtain ⟨hgrows', hpassed, hold⟩ :=
      getter_moves bits g hgrows List.nodup_nil fun x hx => absurd hx List.not_mem_nil
    constructor
    · simpa [Caller.step] using hgrows'
    · refine List.nodup_append'.mpr ⟨hnodup, hpassed, ?_⟩
      intro x hx hnew
      exact absurd (hold x hnew hx) List.not_mem_nil
  | drop x =>
    unfold Caller.step
    dsimp only
    split
    next hx =>
      refine ⟨?_, hnodup.erase x⟩
      have hsame : {y | y ∈ c.live.erase x} = {y | y ∈ c.live} \ {x} := by
        ext y
        simp [hnodup.mem_erase_iff, and_comm]
      exact hsame.symm ▸ hgrows.drop hx
    next => exact ⟨hgrows, hnodup⟩

/-- However ORT answers, all that it made for a sequence of getters (the status of a failed call,
texts, arrays, type infos, options, values, containers) was released once, but for the handles that
the caller still has; these were not released. -/
theorem getter_objects_released_once (bits : Nat) (ops : List Op) :
    let c := ops.foldl (Caller.step bits) ⟨.empty, []⟩
    ∀ x, (x ∈ c.live → x < c.books.count) ∧
      (x < c.books.count → c.books.released x = if x ∈ c.live then 0 else 1) := by
  have hall (c : Caller) (hc : c.Accounted) : (ops.foldl (Caller.step bits) c).Accounted := by
    induction ops generalizing c with
    | nil => exact hc
    | cons op ops ih => exact ih _ (accounted_step hc op)
  have hempty : (Caller.mk .empty []).Accounted := by
    refine ⟨?_, List.nodup_nil⟩
    simpa using Books.Grows.refl Books.sound_empty
  obtain ⟨hgrows, -⟩ := hall _ hempty
  intro c x
  have hstart : Books.empty.count ≤ x := Nat.zero_le x
  refine ⟨fun hx => hgrows.sound.lt_count ((hgrows.held x hstart).mpr hx), fun hlt => ?_⟩
  obtain ⟨hlive, hgone⟩ := hgrows.released hstart hlt
  split
  next hx => exact hlive hx
  next hx => exact hgone hx

/-- A custom metadata key and a null one. -/
def oneKey : Counted CStr where
  array := some ⟨[some ⟨"stage".toUTF8, .ok ()⟩, none], .ok ()⟩
  count := 2
  count_array a ha := by
    obtain rfl := Option.some.inj ha
    decide

def cpuProvider : ProviderNames where
  names := [some "CPUExecutionProvider".toUTF8]
  len := 1
  len_pos := by decide
  length_names := rfl

/-- The metadata of a model, its keys, the providers, and an attribute that cannot be read. -/
def fourGetters : List Op := [.call (.metadata (.ok true)),
  .call (.customMetadataKeys ⟨.ok true, .ok oneKey⟩),
  .call (.availableProviders (.ok (some cpuProvider))),
  .call (.attrTensor "value" (.error (.local "no such attribute")))]

theorem getter_objects_released_once_keys :
    let c := fourGetters.foldl (Caller.step 64) ⟨.empty, []⟩
    c.live = [0] ∧ c.books.count = 5 ∧
      ∀ x < 5, c.books.released x = if x = 0 then 0 else 1 := by
  have hlive : (fourGetters.foldl (Caller.step 64) ⟨.empty, []⟩).live = [0] := rfl
  refine ⟨hlive, rfl, fun x hx => ?_⟩
  have hreleased := (getter_objects_released_once 64 fourGetters x).2 hx
  simpa [hlive] using hreleased

end Zrt.Getters
