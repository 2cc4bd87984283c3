import Zrt.Handover
import Zrt.Session.ElementCount
import Zrt.Session.ExecutionProvider

/-! The native handles of fallible constructors and queries: `StringTensor::new` and
`Tensor::copy_from_slice` of `tensor.rs`, `Allocator::stats` of `allocator.rs`, `has_config_entry`
and `config_entry` of `session_options.rs`. Books number all handles that ORT gives away, the status
of a failed call included. -/
namespace Zrt.Constructors

open Ownership (Books Comp)
open Outputs (ensureNonNull sliceDataPtr validateShapeLen)
open Ep (EpConfig Entries hasNul)

/-- `check`. The status of a failed call is released once it is read. -/
def check (status : Except Error Unit) : Comp Error Unit :=
  match status with
  | .ok () => pure ()
  | .error err => do
    let handle ← Comp.make
    Comp.guard handle (Comp.ofExcept (.error err))

/-- A call that gives a handle to release: it fails, or gives one (`true`) or null. -/
def create (outcome : Except Error Bool) : Comp Error (Option Nat) :=
  match outcome with
  | .ok true => do
    let handle ← Comp.make
    pure (some handle)
  | .ok false => pure none
  | .error err => do
    check (.error err)
    pure none

def createNonNull (outcome : Except Error Bool) (what : String) : Comp Error Nat := do
  let handle ← create outcome
  Comp.ofExcept (ensureNonNull handle what)

/-- `Allocator::get_default`. The default allocator is not ours to release. -/
def getDefault (outcome : Except Error Bool) : Comp Error Unit := do
  check (outcome.map fun _ => ())
  Comp.ofExcept ((ensureNonNull (if outcome = .ok true then some () else none)
    "default allocator"))

/-- The outcomes of the calls of `StringTensor::new` and `copy_from_slice`. -/
structure TensorCalls where
  defaultAllocator : Except Error Bool
  createTensor : Except Error Bool
  fillStringTensor : Except Error Unit
  getTensorMutableData : Except Error (Option Nat)

def StringTensor.new (bits : Nat) (strings : List String) (shape : List Int) (n : TensorCalls) :
    Comp Error Nat := do
  Comp.ofExcept (validateShapeLen bits shape strings.length)
  getDefault n.defaultAllocator
  let value ← createNonNull n.createTensor "string tensor value"
  let _cstrings ← Comp.ofExcept
    (strings.mapM fun s => cstring s "string tensor element contains a NUL")
  check n.fillStringTensor
  pure value

/-- `len` is the length of the slice. -/
def Tensor.copyFromSlice (bits len : Nat) (shape : List Int) (n : TensorCalls) :
    Comp Error Nat := do
  Comp.ofExcept (validateShapeLen bits shape len)
  getDefault n.defaultAllocator
  let value ← createNonNull n.createTensor "tensor value"
  check (n.getTensorMutableData.map fun _ => ())
  let _data ← Comp.ofExcept
    (n.getTensorMutableData.bind fun data => sliceDataPtr data len "tensor data")
  pure value

/-- The outcomes of the calls of `stats`: the strings are the bytes before their NUL, or null. -/
structure StatsCalls where
  getStats : Except Error Bool
  pairs : List (Option ByteArray × Option ByteArray)

/-- `cstr_to_string` of a key or value that may be null. -/
def cstrToString (raw : Option ByteArray) (what : String) : Except Error String :=
  match raw with
  | none => .ok ""
  | some bytes =>
    match String.fromUTF8? bytes with
    | some s => .ok s
    | none => .error (.local ("zrt: " ++ what ++ " is not valid UTF-8"))

/-- The loop of `stats`. -/
def entriesOf (pairs : List (Option ByteArray × Option ByteArray)) : Except Error Entries :=
  pairs.mapM fun pair => (cstrToString pair.1 "allocator stats key").bind fun key =>
    (cstrToString pair.2 "allocator stats value").map fun value => (key, value)

def Allocator.stats (n : StatsCalls) : Comp Error Entries := do
  let kvps ← create n.getStats
  match kvps with
  | none => pure []
  | some kvps =>
    let entries ← Comp.ofExcept (entriesOf n.pairs)
    Comp.release kvps
    pure entries

inductive ArenaState where
  | default
  | enabled
  | disabled

/-- `SessionOptions`, by what `build_handle_inner` reads. What belongs to a feature that is not
compiled in is not there. -/
structure SessionOptions where
  optLevel : Int
  intraThreads : Option Int
  interThreads : Option Int
  executionMode : Option Int
  logId : Option String
  logSeverity : Option Int
  logVerbosity : Option Int
  userLogger : Option Nat
  cpuMemArena : ArenaState
  memPattern : ArenaState
  profilingPrefix : Option String
  freeDimensionOverrides : List (String × Int)
  freeDimensionOverridesByName : List (String × Int)
  configEntries : Entries
  epSelectionPolicy : Option Int
  epConfigs : List EpConfig
  migraphx : List Unit
  openvino : List Unit
  customOpDomains : List Nat
  enableOrtCustomOps : Bool
  customOpLibraries : List String
  customOpLibrariesV1 : List String
  customOpFunctions : List String
  optimizedModelFilePath : Option String
  deterministicCompute : Option Bool
  loadCancellationFlag : Option Bool
  customCreateThreadFn : Option Nat
  customJoinThreadFn : Option Nat
  epSelectionDelegate : Option Nat

/-- A step of `build_handle_inner`: a call on the options, a provider, or a library to register by
the first version of that call. -/
inductive Setting where
  | call (function : String)
  | provider (config : EpConfig)
  | library (path : String)

def ArenaState.settings (state : ArenaState) (function : String) : List Setting :=
  match state with
  | .default => []
  | .enabled => [.call ("enable_" ++ function)]
  | .disabled => [.call ("disable_" ++ function)]

/-- The steps in their order. -/
def SessionOptions.settings (o : SessionOptions) (attachLogger : Bool) : List Setting :=
  let each {α : Type} (values : List α) (function : String) : List Setting :=
    values.map fun _ => .call function
  [.call "set_session_graph_optimization_level"] ++
  each o.intraThreads.toList "set_intra_op_num_threads" ++
  each o.interThreads.toList "set_inter_op_num_threads" ++
  each o.executionMode.toList "set_session_execution_mode" ++
  each o.logId.toList "set_session_log_id" ++
  each o.logSeverity.toList "set_session_log_severity_level" ++
  each o.logVerbosity.toList "set_session_log_verbosity_level" ++
  o.cpuMemArena.settings "cpu_mem_arena" ++
  o.memPattern.settings "mem_pattern" ++
  [.call (if o.profilingPrefix.isSome then "enable_profiling" else "disable_profiling")] ++
  each o.freeDimensionOverrides "add_free_dimension_override" ++
  each o.freeDimensionOverridesByName "add_free_dimension_override_by_name" ++
  each o.configEntries "add_session_config_entry" ++
  each o.epSelectionPolicy.toList "session_options_set_ep_selection_policy" ++
  o.epConfigs.map .provider ++
  each o.migraphx "session_options_append_execution_provider_mi_graph_x" ++
  each o.openvino "session_options_append_execution_provider__open_vino" ++
  each o.customOpDomains "add_custom_op_domain" ++
  (if o.enableOrtCustomOps then [.call "enable_ort_custom_ops"] else []) ++
  each o.customOpLibraries "register_custom_ops_library_v2" ++
  o.customOpLibrariesV1.map .library ++
  each o.customOpFunctions "register_custom_ops_using_function" ++
  (if attachLogger then each o.userLogger.toList "set_user_logging_function" else []) ++
  each o.optimizedModelFilePath.toList "set_optimized_model_file_path" ++
  each o.deterministicCompute.toList "set_deterministic_compute" ++
  each o.loadCancellationFlag.toList "session_options_set_load_cancellation_flag" ++
  each o.customCreateThreadFn.toList "session_options_set_custom_create_thread_fn" ++
  each o.customCreateThreadFn.toList "session_options_set_custom_thread_creation_options" ++
  each o.customJoinThreadFn.toList "session_options_set_custom_join_thread_fn" ++
  each o.epSelectionDelegate.toList "session_options_set_ep_selection_policy_delegate"

/-- The outcomes of the calls of one step. -/
structure SettingCalls where
  call : Except Error Unit
  createProviderOptions : Except Error Bool
  update : Except Error Unit
  updateWithValue : Except Error Unit
  registerCustomOpsLibrary : Except Error Bool

/-- What `apply` does with provider options that were created. -/
def configure (cuda : Bool) (config : EpConfig) (n : SettingCalls) : Comp Error Unit := do
  Comp.ofExcept (Ep.checkEntries config.entries "ep option key/value contains a NUL byte")
  check n.update
  if config.provider = .cuda ∧ cuda ∧ config.cudaStream.isSome then check n.updateWithValue
  check n.call

/-- `apply` of `ep.rs`: provider options are released when they go out of scope. -/
def apply (cuda : Bool) (config : EpConfig) (n : SettingCalls) : Comp Error Unit :=
  match config.provider with
  | .openVinoV2 | .vitisAi => check n.call
  | _ => do
    let options ← createNonNull n.createProviderOptions "execution provider options"
    Comp.guard options (configure cuda config n)

/-- The handle of a library is kept on purpose, so that the library stays loaded. -/
def Setting.run (cuda : Bool) (n : SettingCalls) : Setting → Comp Error Unit
  | .call _ => check n.call
  | .provider config => apply cuda config n
  | .library _ => do
    let _handle ← create n.registerCustomOpsLibrary
    pure ()

/-- The outcomes are by position. -/
def runSettings (cuda : Bool) : (Nat → SettingCalls) → List Setting → Comp Error Unit
  | _, [] => pure ()
  | n, setting :: settings => do
    setting.run cuda (n 0)
    runSettings cuda (fun i => n (i + 1)) settings

/-- The outcomes of the calls of `has_config_entry` and `config_entry`; `size` and `buffer` are what
`GetSessionConfigEntry` writes. -/
structure ConfigCalls where
  createSessionOptions : Except Error Bool
  setting : Nat → SettingCalls
  hasSessionConfigEntry : Except Error Bool
  getSize : Except Error Unit
  size : Nat
  getEntry : Except Error Unit
  buffer : List UInt8

namespace SessionOptions

variable (cuda : Bool) (o : SessionOptions) (n : ConfigCalls)

def buildHandleInner (attachLogger : Bool) : Comp Error Nat := do
  let opts ← createNonNull n.createSessionOptions "session options"
  Comp.onError opts (runSettings cuda n.setting (o.settings attachLogger))
  pure opts

def buildHandle : Comp Error Nat := o.buildHandleInner cuda n false

def hasConfigEntry (key : String) : Comp Error Bool := do
  let opts ← o.buildHandle cuda n
  let _ckey ← Comp.ofExcept (cstring key "config key contains a NUL")
  Comp.guard opts do
    check (n.hasSessionConfigEntry.map fun _ => ())
    Comp.ofExcept n.hasSessionConfigEntry

/-- The entry is cut at its first NUL. -/
def readConfigEntry : Comp Error (Option String) := do
  Comp.discard (check n.getSize)
  if n.size = 0 then pure none
  else do
    check n.getEntry
    match String.fromUTF8? ⟨(n.buffer.takeWhile (· ≠ 0)).toArray⟩ with
    | some s => pure (some s)
    | none => Comp.ofExcept (.error (.local "zrt: session config entry is not valid UTF-8"))

def configEntry (key : String) : Comp Error (Option String) := do
  let opts ← o.buildHandle cuda n
  let _ckey ← Comp.ofExcept (cstring key "config key contains a NUL")
  Comp.guard opts (readConfigEntry n)

end SessionOptions

variable {α : Type} {b b' : Books} {status : Except Error Unit} {outcome : Except Error Bool}
  {what : String} {returned : α → Set Nat} {rest : Nat → Comp Error α} {x : Nat}

theorem check_clean (status : Except Error Unit) : (check status).Clean := by
  cases status with
  | ok _ => exact Comp.clean_pure _
  | error err => exact Comp.clean_guard fun _ => Comp.clean_ofExcept _

@[simp]
theorem check_eq_ok {u : Unit} : check status b = (.ok u, b') ↔ status = .ok () ∧ b = b' := by
  cases status with
  | ok _ => simp [check]
  | error err =>
    refine iff_of_false ?_ (fun h => by cases h.1)
    intro h
    cases congrArg Prod.fst h

/-- A call that fails, or gives null, leaves nothing. -/
theorem create_cases (outcome : Except Error Bool) (hb : b.Sound) :
    (outcome = .ok true ∧ create outcome b = (.ok (some b.count), b.make)) ∨
      (outcome ≠ .ok true ∧ b.Grows (create outcome b).2 ∅ ∧
        ∀ x, (create outcome b).1 ≠ .ok (some x)) := by
  cases outcome with
  | ok found =>
    cases found with
    | true => exact .inl ⟨rfl, rfl⟩
    | false => exact .inr ⟨by simp, .refl hb, by simp [create]⟩
  | error err =>
    refine .inr ⟨by simp, ?_, ?_⟩
    · exact (check_clean (.error err)).bind (fun _ => Comp.clean_pure none) b hb
    · intro x h
      cases h

theorem createNonNull_cases (outcome : Except Error Bool) (what : String) (hb : b.Sound) :
    (outcome = .ok true ∧ createNonNull outcome what b = (.ok b.count, b.make)) ∨
      (outcome ≠ .ok true ∧
        ∃ err b', createNonNull outcome what b = (.error err, b') ∧ b.Grows b' ∅) := by
  obtain ⟨ho, hc⟩ | ⟨ho, hg, hn⟩ := create_cases outcome hb
  · exact .inl ⟨ho, Comp.bind_ok hc⟩
  · refine .inr ⟨ho, ?_⟩
    match h : create outcome b with
    | (.ok (some x), b') => exact absurd (congrArg Prod.fst h) (hn x)
    | (.ok none, b') =>
      rw [h] at hg
      exact ⟨_, b', Comp.bind_ok h, hg⟩
    | (.error err, b') =>
      rw [h] at hg
      exact ⟨err, b', Comp.bind_error h, hg⟩

theorem create_moves (outcome : Except Error Bool) :
    Comp.Moves [] (create outcome) Option.toList := by
  cases outcome with
  | error err => exact (check_clean _).moves.bind fun _ => Comp.moves_pure none Option.toList
  | ok made =>
    cases made with
    | false => exact Comp.moves_pure none Option.toList
    | true => exact Comp.moves_make.bind fun x => Comp.moves_pure (some x) Option.toList

theorem createNonNull_moves (outcome : Except Error Bool) (what : String) :
    Comp.Moves [] (createNonNull outcome what) fun x => [x] := by
  refine (create_moves outcome).bind fun handle => ?_
  cases handle with
  | none => exact Comp.moves_ofExcept (.error _) fun x => [x]
  | some x => exact Comp.moves_ofExcept (.ok x) fun x => [x]

/-- A handle that lives during a clean computation. -/
theorem clean_createNonNull (hr : ∀ x, (rest x).Clean) :
    (createNonNull outcome what >>= fun x => Comp.guard x (rest x)).Clean := by
  intro b hb
  obtain ⟨-, hc⟩ | ⟨-, err, b', hc, hg⟩ := createNonNull_cases outcome what hb
  · rw [Comp.bind_ok hc]
    exact Comp.clean_guard hr b hb
  · rwa [Comp.bind_error hc]

/-- A handle that is created, and returned by what follows. -/
theorem createNonNull_tracked (hr : ∀ x, (rest x).Clean) :
    (createNonNull outcome what >>= rest).Tracked := by
  intro b hb
  obtain ⟨-, hc⟩ | ⟨-, err, b', hc, hg⟩ := createNonNull_cases outcome what hb
  · rw [Comp.bind_ok hc]
    have hmade := Books.Grows.make hb
    exact ⟨_, hmade.trans (hr _ _ hmade.sound)⟩
  · rw [Comp.bind_error hc]
    exact ⟨∅, hg⟩

/-- It is balanced unless what follows the creation fails. -/
theorem createNonNull_balanced (hb : b.Sound) (hr : ∀ x, (rest x).Clean)
    (hret : ∀ x b a b', rest x b = (.ok a, b') → returned a = {x}) :
    (createNonNull outcome what >>= rest).Balanced returned b ↔
      (outcome = .ok true → ∃ a b', rest b.count b.make = (.ok a, b')) := by
  obtain ⟨ho, hc⟩ | ⟨ho, err, b', hc, hg⟩ := createNonNull_cases outcome what hb
  · have hmade := Books.Grows.make hb
    have hgrows := hmade.trans (hr b.count _ hmade.sound)
    rw [Set.union_empty, ← Comp.bind_ok (f := rest) hc] at hgrows
    rw [Comp.balanced_iff hgrows, Comp.bind_ok hc]
    match h : rest b.count b.make with
    | (.ok a, b') => simp [Comp.handedOver, hret _ _ _ _ h]
    | (.error err, b') => simp [Comp.handedOver, ho]
  · exact iff_of_true (Comp.balanced_of_error (Comp.bind_error hc) hg) fun h => absurd h ho

theorem getDefault_clean (outcome : Except Error Bool) : (getDefault outcome).Clean :=
  (check_clean _).bind fun _ => Comp.clean_ofExcept _

@[simp]
theorem getDefault_eq_ok {u : Unit} :
    getDefault outcome b = (.ok u, b') ↔ outcome = .ok true ∧ b = b' := by
  unfold getDefault
  rw [Comp.bind_eq_ok]
  cases outcome with
  | error err => simp [Except.map]
  | ok found => cases found <;> simp [Except.map, ensureNonNull]

theorem mapM_cstring {strings : List String} {message : String} :
    (∃ cstrings, strings.mapM (fun s => cstring s message) = .ok cstrings) ↔
      ∀ s ∈ strings, '\x00' ∉ s.toList := by
  induction strings with
  | nil => simp [pure, Except.pure]
  | cons s strings ih =>
    rw [List.mapM_cons, List.forall_mem_cons, ← ih]
    by_cases hs : '\x00' ∈ s.toList
    · simp [cstring, hs, bind, Except.bind]
    · cases strings.mapM fun s => cstring s message <;>
        simp [cstring, hs, bind, Except.bind, pure, Except.pure]

/-- The preparations succeed and the tensor is created. -/
def TensorCalls.Creates (n : TensorCalls) (bits len : Nat) (shape : List Int) : Prop :=
  validateShapeLen bits shape len = .ok () ∧ n.defaultAllocator = .ok true ∧
    n.createTensor = .ok true

/-- Up to its creation a tensor is no concern. -/
theorem creates_balanced {bits len : Nat} {shape : List Int} {n : TensorCalls}
    {rest : Nat → Comp Error Nat} (hb : b.Sound) (hr : ∀ value, (rest value).Clean)
    (hret : ∀ value b a b', rest value b = (.ok a, b') → a = value) :
    (do
      Comp.ofExcept (validateShapeLen bits shape len)
      getDefault n.defaultAllocator
      createNonNull n.createTensor what >>= rest).Balanced (fun value => {value}) b ↔
    (n.Creates bits len shape → ∃ a b', rest b.count b.make = (.ok a, b')) := by
  have htracked : ∀ _ : Unit, (createNonNull n.createTensor what >>= rest).Tracked :=
    fun _ => createNonNull_tracked hr
  have hreturned : ∀ value b a b', rest value b = (.ok a, b') → ({a} : Set Nat) = {value} := by
    intro value b a b' h
    rw [hret value b a b' h]
  rw [Comp.balanced_bind_iff (Comp.clean_ofExcept _)
    (fun _ => .bind (getDefault_clean _) htracked) hb]
  constructor
  · intro h ⟨hshape, halloc, hcreate⟩
    have h := h () b (by rw [Comp.ofExcept_apply, hshape])
    rw [Comp.balanced_bind_iff (getDefault_clean _) htracked hb] at h
    have h := h () b (by rw [getDefault_eq_ok]; exact ⟨halloc, rfl⟩)
    exact (createNonNull_balanced hb hr hreturned).mp h hcreate
  · intro h _ b' hv
    obtain ⟨hshape, rfl⟩ := Prod.mk.inj hv
    rw [Comp.balanced_bind_iff (getDefault_clean _) htracked hb]
    intro _ b' hd
    obtain ⟨halloc, rfl⟩ := getDefault_eq_ok.mp hd
    rw [createNonNull_balanced hb hr hreturned]
    exact fun hcreate => h ⟨hshape, halloc, hcreate⟩

/-- When `StringTensor::new` leaks no value. -/
theorem stringTensor_balanced {bits : Nat} {strings : List String} {shape : List Int}
    {n : TensorCalls} (hb : b.Sound) :
    (StringTensor.new bits strings shape n).Balanced (fun value => {value}) b ↔
      (n.Creates bits strings.length shape →
        (∀ s ∈ strings, '\x00' ∉ s.toList) ∧ n.fillStringTensor = .ok ()) := by
  unfold StringTensor.new
  rw [creates_balanced hb]
  · simp only [Comp.bind_eq_ok, Comp.ofExcept_apply, check_eq_ok, Comp.pure_apply, Prod.mk.injEq]
    simp [mapM_cstring]
  · intro value
    exact (Comp.clean_ofExcept _).bind fun _ => (check_clean _).bind fun _ => Comp.clean_pure value
  · intro value b a b' h
    simp only [Comp.bind_eq_ok] at h
    obtain ⟨_, _, -, _, _, -, h⟩ := h
    exact (Except.ok.inj (Prod.mk.inj h).1).symm

theorem dataPtr_ok {data : Except Error (Option Nat)} {len : Nat} :
    (∃ p, (data.bind fun data => sliceDataPtr data len what) = .ok p) ↔
      ∃ p, data = .ok p ∧ (p = none → len = 0) := by
  cases data with
  | error err => simp [Except.bind]
  | ok p =>
    rw [Except.bind, sliceDataPtr]
    by_cases h : p = none ∧ len ≠ 0
    · rw [if_pos h]
      simp_all
    · rw [if_neg h]
      simp_all

/-- When `copy_from_slice` leaks no value. -/
theorem copyFromSlice_balanced {bits len : Nat} {shape : List Int} {n : TensorCalls}
    (hb : b.Sound) : (Tensor.copyFromSlice bits len shape n).Balanced (fun value => {value}) b ↔
      (n.Creates bits len shape →
        ∃ data, n.getTensorMutableData = .ok data ∧ (data = none → len = 0)) := by
  unfold Tensor.copyFromSlice
  rw [creates_balanced hb]
  · simp only [Comp.bind_eq_ok, Comp.ofExcept_apply, check_eq_ok, Comp.pure_apply, Prod.mk.injEq]
    refine imp_congr_right fun _ => ?_
    constructor
    · intro ⟨_, _, _, _, _, p, _, ⟨hp, _⟩, _⟩
      exact dataPtr_ok.mp ⟨p, hp⟩
    · intro h
      obtain ⟨data, hd, hlen⟩ := h
      obtain ⟨p, hp⟩ := dataPtr_ok.mpr ⟨data, hd, hlen⟩
      exact ⟨_, _, (), _, ⟨by rw [hd]; rfl, rfl⟩, p, _, ⟨hp, rfl⟩, rfl, rfl⟩
  · intro value
    exact (check_clean _).bind fun _ => (Comp.clean_ofExcept _).bind fun _ => Comp.clean_pure value
  · intro value b a b' h
    simp only [Comp.bind_eq_ok] at h
    obtain ⟨_, _, -, _, _, -, h⟩ := h
    exact (Except.ok.inj (Prod.mk.inj h).1).symm

/-- The C string is UTF-8, or null. -/
def Utf8 (raw : Option ByteArray) : Prop := ∀ bytes, raw = some bytes → bytes.IsValidUTF8

theorem cstrToString_ok (raw : Option ByteArray) (what : String) :
    (∃ s, cstrToString raw what = .ok s) ↔ Utf8 raw := by
  cases raw with
  | none => simp [cstrToString, Utf8]
  | some bytes =>
    by_cases h : bytes.IsValidUTF8 <;> simp [cstrToString, Utf8, String.fromUTF8?, h]

theorem entriesOf_ok {pairs : List (Option ByteArray × Option ByteArray)} :
    (∃ entries, entriesOf pairs = .ok entries) ↔ ∀ pair ∈ pairs, Utf8 pair.1 ∧ Utf8 pair.2 := by
  unfold entriesOf
  induction pairs with
  | nil => simp [pure, Except.pure]
  | cons pair pairs ih =>
    rw [List.forall_mem_cons, ← ih, ← cstrToString_ok _ "allocator stats key",
      ← cstrToString_ok _ "allocator stats value", List.mapM_cons]
    cases cstrToString pair.1 "allocator stats key" with
    | error err => simp [bind, Except.bind]
    | ok key =>
      cases cstrToString pair.2 "allocator stats value" with
      | error err => simp [bind, Except.bind, Except.map]
      | ok value =>
        cases hm : pairs.mapM fun pair =>
            (cstrToString pair.1 "allocator stats key").bind fun key =>
              (cstrToString pair.2 "allocator stats value").map fun value => (key, value) <;>
          simp [bind, Except.bind, Except.map, pure, Except.pure]

/-- Pairs that were created are released if all strings can be read. -/
theorem stats_created {n : StatsCalls} (hc : create n.getStats b = (.ok (some x), b')) :
    (∀ entries, entriesOf n.pairs = .ok entries →
      Allocator.stats n b = (.ok entries, b'.drop x)) ∧
    ∀ err, entriesOf n.pairs = .error err → Allocator.stats n b = (.error err, b') := by
  unfold Allocator.stats
  rw [Comp.bind_ok hc]
  dsimp only
  constructor
  · intro entries he
    rw [he, Comp.ofExcept_bind_ok]
    rfl
  · intro err he
    rw [he, Comp.ofExcept_bind_error]

/-- When `stats` leaks no key-value pairs. -/
theorem stats_balanced {n : StatsCalls} (hb : b.Sound) :
    (Allocator.stats n).Balanced (fun _ => ∅) b ↔
      (n.getStats = .ok true → ∀ pair ∈ n.pairs, Utf8 pair.1 ∧ Utf8 pair.2) := by
  obtain ⟨ho, hc⟩ | ⟨ho, hg, hn⟩ := create_cases n.getStats hb
  · rw [← entriesOf_ok]
    have hmade := Books.Grows.make hb
    cases he : entriesOf n.pairs with
    | ok entries =>
      have hdrop := hmade.drop (Set.mem_singleton _)
      have hrun := (stats_created hc).1 entries he
      rw [Comp.balanced_none_iff hrun hdrop]
      refine iff_of_true ?_ fun _ => ⟨entries, rfl⟩
      exact Set.eq_empty_of_forall_notMem fun _ h => h.2 h.1
    | error err =>
      have hrun := (stats_created hc).2 err he
      rw [Comp.balanced_none_iff hrun hmade]
      exact iff_of_false (Set.singleton_ne_empty _) (by simp [ho])
  · refine iff_of_true ?_ fun h => absurd h ho
    match h : create n.getStats b with
    | (.ok (some x), b') => exact absurd (congrArg Prod.fst h) (hn x)
    | (.ok none, b') =>
      rw [h] at hg
      have hrun : Allocator.stats n b = (.ok [], b') := Comp.bind_ok h
      exact (Comp.balanced_none_iff hrun hg).mpr rfl
    | (.error err, b') =>
      rw [h] at hg
      exact Comp.balanced_of_error (Comp.bind_error h) hg

/-- The calls of a provider succeed. -/
def ProviderSucceeds (cuda : Bool) (config : EpConfig) (n : SettingCalls) : Prop :=
  n.call = .ok () ∧ (config.provider ≠ .openVinoV2 ∧ config.provider ≠ .vitisAi →
    n.createProviderOptions = .ok true ∧ hasNul config.entries = false ∧ n.update = .ok () ∧
      (config.provider = .cuda ∧ cuda ∧ config.cudaStream.isSome → n.updateWithValue = .ok ()))

def Setting.Succeeds (cuda : Bool) (n : SettingCalls) : Setting → Prop
  | .call _ => n.call = .ok ()
  | .provider config => ProviderSucceeds cuda config n
  | .library _ => ∃ found, n.registerCustomOpsLibrary = .ok found

/-- All steps succeed. -/
def Succeed (cuda : Bool) (n : Nat → SettingCalls) (settings : List Setting) : Prop :=
  ∀ (i : Nat) (setting : Setting), settings[i]? = some setting → setting.Succeeds cuda (n i)

/-- A step that is reached registers a library. -/
def Registers (cuda : Bool) (n : Nat → SettingCalls) (settings : List Setting) : Prop :=
  ∃ i, (∃ path, settings[i]? = some (.library path)) ∧
    (n i).registerCustomOpsLibrary = .ok true ∧ Succeed cuda n (settings.take i)

theorem succeed_cons {cuda : Bool} {n : Nat → SettingCalls} {setting : Setting}
    {settings : List Setting} : Succeed cuda n (setting :: settings) ↔
      setting.Succeeds cuda (n 0) ∧ Succeed cuda (fun i => n (i + 1)) settings := by
  constructor
  · exact fun h => ⟨h 0 setting rfl, fun i s hi => h (i + 1) s hi⟩
  · rintro ⟨hfirst, hrest⟩ i s hi
    cases i with
    | zero => exact Option.some.inj hi ▸ hfirst
    | succ i => exact hrest i s hi

theorem registers_cons {cuda : Bool} {n : Nat → SettingCalls} {setting : Setting}
    {settings : List Setting} : Registers cuda n (setting :: settings) ↔
      ((∃ path, setting = .library path) ∧ (n 0).registerCustomOpsLibrary = .ok true) ∨
        setting.Succeeds cuda (n 0) ∧ Registers cuda (fun i => n (i + 1)) settings := by
  constructor
  · rintro ⟨i, ⟨path, hpath⟩, hr, hs⟩
    cases i with
    | zero => exact .inl ⟨⟨path, Option.some.inj hpath⟩, hr⟩
    | succ i =>
      obtain ⟨hfirst, hrest⟩ := succeed_cons.mp hs
      exact .inr ⟨hfirst, i, ⟨path, hpath⟩, hr, hrest⟩
  · rintro (⟨⟨path, rfl⟩, hr⟩ | ⟨hfirst, i, hpath, hr, hs⟩)
    · exact ⟨0, ⟨path, rfl⟩, hr, fun i s hi => by cases hi⟩
    · exact ⟨i + 1, hpath, hr, succeed_cons.mpr ⟨hfirst, hs⟩⟩

theorem configure_clean (cuda : Bool) (config : EpConfig) (n : SettingCalls) :
    (configure cuda config n).Clean := by
  refine (Comp.clean_ofExcept _).bind fun _ => (check_clean _).bind fun _ => ?_
  split
  · exact (check_clean _).bind fun _ => check_clean _
  · exact check_clean _

theorem configure_ok {cuda : Bool} {config : EpConfig} {n : SettingCalls} :
    (∃ b', configure cuda config n b = (.ok (), b')) ↔ hasNul config.entries = false ∧
      n.update = .ok () ∧ (config.provider = .cuda ∧ cuda ∧ config.cudaStream.isSome →
        n.updateWithValue = .ok ()) ∧ n.call = .ok () := by
  unfold configure
  simp only [Comp.bind_eq_ok, check_eq_ok, Comp.ofExcept_apply, Prod.mk.injEq, Ep.checkEntries]
  by_cases hs : config.provider = .cuda ∧ cuda ∧ config.cudaStream.isSome
  · simp only [if_pos hs, Comp.bind_eq_ok, check_eq_ok]
    by_cases hn : hasNul config.entries = true
    · simp [hn]
    · simp [hn, hs]
  · simp only [if_neg hs, check_eq_ok]
    by_cases hn : hasNul config.entries = true
    · simp [hn]
    · simp only [hn]
      simp [hs]

variable {cuda : Bool} {config : EpConfig} {setting : Setting} {settings : List Setting}

/-- A provider is appended by itself, or with options that are created and released. -/
theorem apply_eq (cuda : Bool) (config : EpConfig) (n : SettingCalls) :
    (apply cuda config n = check n.call ∧
      (config.provider = .openVinoV2 ∨ config.provider = .vitisAi)) ∨
    (apply cuda config n = (createNonNull n.createProviderOptions "execution provider options" >>=
        fun options => Comp.guard options (configure cuda config n)) ∧
      config.provider ≠ .openVinoV2 ∧ config.provider ≠ .vitisAi) := by
  unfold apply
  cases config.provider <;> simp

theorem apply_clean (cuda : Bool) (config : EpConfig) (n : SettingCalls) :
    (apply cuda config n).Clean := by
  obtain ⟨he, -⟩ | ⟨he, -⟩ := apply_eq cuda config n
  · rw [he]
    exact check_clean _
  · rw [he]
    exact clean_createNonNull fun _ => configure_clean cuda config n

theorem guard_ok {m : Comp Error α} {a : α} :
    (∃ b', Comp.guard x m b = (.ok a, b')) ↔ ∃ b', m b = (.ok a, b') := by
  constructor
  · rintro ⟨b', h⟩
    exact ⟨(m b).2, Prod.ext (Prod.mk.inj h).1 rfl⟩
  · rintro ⟨b', h⟩
    exact ⟨b'.drop x, by rw [Comp.guard, h]⟩

theorem apply_ok {n : SettingCalls} (hb : b.Sound) :
    (∃ b', apply cuda config n b = (.ok (), b')) ↔ ProviderSucceeds cuda config n := by
  unfold ProviderSucceeds
  obtain ⟨he, hp⟩ | ⟨he, hp⟩ := apply_eq cuda config n
  · rw [he]
    have hkv : ¬ (config.provider ≠ .openVinoV2 ∧ config.provider ≠ .vitisAi) := by tauto
    simp [hkv]
  · rw [he]
    obtain ⟨ho, hc⟩ | ⟨ho, err, b', hc, -⟩ := createNonNull_cases
      n.createProviderOptions "execution provider options" hb
    · rw [Comp.bind_ok hc, guard_ok, configure_ok]
      simp only [ho]
      tauto
    · rw [Comp.bind_error hc]
      refine iff_of_false ?_ (fun h => ho (h.2 hp).1)
      rintro ⟨b', h⟩
      cases congrArg Prod.fst h

/-- Only a library that is registered is left by a step. -/
theorem setting_grows (cuda : Bool) (setting : Setting) (n : SettingCalls) (hb : b.Sound) :
    (∃ kept, b.Grows (setting.run cuda n b).2 kept ∧
      (kept = ∅ ↔ ¬ ((∃ path, setting = .library path) ∧ n.registerCustomOpsLibrary = .ok true))) ∧
    ((∃ b', setting.run cuda n b = (.ok (), b')) ↔ setting.Succeeds cuda n) := by
  cases setting with
  | call function =>
    refine ⟨⟨∅, check_clean _ b hb, by simp⟩, ?_⟩
    simp [Setting.run, Setting.Succeeds]
  | provider config =>
    refine ⟨⟨∅, apply_clean cuda config n b hb, by simp⟩, ?_⟩
    exact apply_ok hb
  | library path =>
    obtain ⟨ho, hc⟩ | ⟨ho, hg, hn⟩ := create_cases n.registerCustomOpsLibrary hb
    · have hrun : (Setting.library path).run cuda n b = (.ok (), b.make) := Comp.bind_ok hc
      rw [hrun]
      exact ⟨⟨_, .make hb, by simp [ho]⟩, iff_of_true ⟨_, rfl⟩ ⟨true, ho⟩⟩
    · have hnone : ¬ ((∃ p, Setting.library path = .library p) ∧
          n.registerCustomOpsLibrary = .ok true) := fun h => ho h.2
      match hr : n.registerCustomOpsLibrary with
      | .ok found =>
        have hfalse : found = false := by
          cases found with
          | true => exact absurd hr ho
          | false => rfl
        have hrun : (Setting.library path).run cuda n b = (.ok (), b) := by
          rw [Setting.run, hr, hfalse]
          rfl
        rw [hrun]
        exact ⟨⟨∅, .refl hb, by simp [hfalse]⟩, iff_of_true ⟨_, rfl⟩ ⟨found, hr⟩⟩
      | .error err =>
        rw [hr] at hg
        have hrun : (Setting.library path).run cuda n b =
            (.error err, (create (.error err) b).2) := by
          rw [Setting.run, hr]
          rfl
        rw [hrun]
        refine ⟨⟨∅, hg, by simp⟩, iff_of_false ?_ ?_⟩
        · rintro ⟨_, h⟩
          cases congrArg Prod.fst h
        · rintro ⟨found, h⟩
          cases hr.symm.trans h

/-- Only libraries that are registered are left by all steps. -/
theorem runSettings_grows (cuda : Bool) (n : Nat → SettingCalls) (settings : List Setting)
    (hb : b.Sound) :
    (∃ kept, b.Grows (runSettings cuda n settings b).2 kept ∧
      (kept = ∅ ↔ ¬ Registers cuda n settings)) ∧
    ((∃ b', runSettings cuda n settings b = (.ok (), b')) ↔ Succeed cuda n settings) := by
  induction settings generalizing n b with
  | nil =>
    refine ⟨⟨∅, .refl hb, by simp [Registers]⟩, iff_of_true ⟨_, rfl⟩ ?_⟩
    intro i s hi
    cases hi
  | cons setting settings ih =>
    obtain ⟨⟨kept, hk, hempty⟩, hok⟩ := setting_grows cuda setting (n 0) hb
    match h : setting.run cuda (n 0) b with
    | (.ok (), b₁) =>
      rw [h] at hk hok
      have hs := hok.mp ⟨b₁, rfl⟩
      obtain ⟨⟨kept', hk', hempty'⟩, hok'⟩ := ih (fun i => n (i + 1)) hk.sound
      have hrun : runSettings cuda n (setting :: settings) b =
          runSettings cuda (fun i => n (i + 1)) settings b₁ := Comp.bind_ok h
      rw [hrun, succeed_cons, and_iff_right hs]
      refine ⟨⟨_, hk.trans hk', ?_⟩, hok'⟩
      rw [Set.union_empty_iff, hempty, hempty', registers_cons, and_iff_right hs, not_or]
    | (.error err, b₁) =>
      rw [h] at hk hok
      have hs : ¬ setting.Succeeds cuda (n 0) := by
        intro hs
        obtain ⟨b', hb'⟩ := hok.mpr hs
        cases congrArg Prod.fst hb'
      have hrun : runSettings cuda n (setting :: settings) b = (.error err, b₁) :=
        Comp.bind_error h
      rw [hrun]
      refine ⟨⟨kept, hk, ?_⟩, iff_of_false ?_ fun h => hs (succeed_cons.mp h).1⟩
      · rw [hempty, registers_cons, not_or, and_iff_left fun h => hs h.1]
      · rintro ⟨b', h⟩
        cases congrArg Prod.fst h

/-- The handle that `build_handle` returns, and what else is left. -/
theorem buildHandle_cases (cuda : Bool) (o : SessionOptions) {n : ConfigCalls} (hb : b.Sound)
    (ho : n.createSessionOptions = .ok true) : ∃ kept,
      (kept = ∅ ↔ ¬ Registers cuda n.setting (o.settings false)) ∧
      ((Succeed cuda n.setting (o.settings false) ∧ b.count ∉ kept ∧
        ∃ b', o.buildHandle cuda n b = (.ok b.count, b') ∧ b.Grows b' ({b.count} ∪ kept)) ∨
      (¬ Succeed cuda n.setting (o.settings false) ∧
        ∃ err b', o.buildHandle cuda n b = (.error err, b') ∧ b.Grows b' kept)) := by
  have hc : createNonNull n.createSessionOptions "session options" b = (.ok b.count, b.make) := by
    rw [ho]
    rfl
  have hmade := Books.Grows.make hb
  obtain ⟨⟨kept, hk, hempty⟩, hok⟩ := runSettings_grows cuda n.setting (o.settings false)
    hmade.sound
  have hnew : b.count ∉ kept := fun h => Nat.not_succ_le_self _ (hk.fresh _ h)
  refine ⟨kept, hempty, ?_⟩
  unfold SessionOptions.buildHandle SessionOptions.buildHandleInner
  rw [Comp.bind_ok hc, ← hok]
  match h : runSettings cuda n.setting (o.settings false) b.make with
  | (.ok (), b₁) =>
    rw [h] at hk
    refine .inl ⟨⟨b₁, rfl⟩, hnew, b₁, ?_, hmade.trans hk⟩
    have hrun : Comp.onError b.count (runSettings cuda n.setting (o.settings false)) b.make =
        (.ok (), b₁) := by rw [Comp.onError, h]
    rw [Comp.bind_ok hrun]
    rfl
  | (.error err, b₁) =>
    rw [h] at hk
    refine .inr ⟨by simp, err, b₁.drop b.count, ?_, ?_⟩
    · have hrun : Comp.onError b.count (runSettings cuda n.setting (o.settings false)) b.make =
          (.error err, b₁.drop b.count) := by rw [Comp.onError, h]
      rw [Comp.bind_error hrun]
    · have hdrop := (hmade.trans hk).drop (.inl rfl)
      rwa [Set.singleton_union, Set.insert_sdiff_self_of_notMem hnew] at hdrop

/-- A query that builds options for its own use. -/
def query (cuda : Bool) (o : SessionOptions) (n : ConfigCalls) (key : String) (m : Comp Error α) :
    Comp Error α := do
  let opts ← o.buildHandle cuda n
  let _ckey ← Comp.ofExcept (cstring key "config key contains a NUL")
  Comp.guard opts m

/-- A query whose options are created leaves libraries, and the options at a NUL. -/
theorem query_created (cuda : Bool) (o : SessionOptions) (key : String) {n : ConfigCalls}
    {m : Comp Error α}
    (hb : b.Sound) (hm : m.Clean) (ho : n.createSessionOptions = .ok true) : ∃ kept,
      b.Grows (query cuda o n key m b).2 kept ∧
      (kept = ∅ ↔ ¬ Registers cuda n.setting (o.settings false) ∧
        (Succeed cuda n.setting (o.settings false) → '\x00' ∉ key.toList)) := by
  unfold query
  obtain ⟨kept, hempty, ⟨hs, hnew, b', hrun, hk⟩ | ⟨hs, err, b', hrun, hk⟩⟩ :=
    buildHandle_cases cuda o hb ho
  · rw [Comp.bind_ok hrun, ← hempty]
    simp only [hs, true_implies]
    have hkey := cstring_ok key "config key contains a NUL"
    generalize cstring key "config key contains a NUL" = ckey at hkey ⊢
    cases ckey with
    | ok s =>
      have hdrop := (hk.trans (hm b' hk.sound)).drop (.inl (.inl rfl))
      rw [Set.union_empty, Set.singleton_union, Set.insert_sdiff_self_of_notMem hnew] at hdrop
      rw [Comp.ofExcept_bind_ok]
      exact ⟨kept, hdrop, (and_iff_left (hkey.mp ⟨s, rfl⟩)).symm⟩
    | error err =>
      rw [Comp.ofExcept_bind_error]
      have hmem : b.count ∈ {b.count} ∪ kept := .inl rfl
      refine ⟨_, hk, iff_of_false (fun h => (h ▸ hmem).elim) fun h => ?_⟩
      obtain ⟨s, hs⟩ := hkey.mpr h.2
      cases hs
  · rw [Comp.bind_error hrun]
    exact ⟨kept, hk, hempty.trans (and_iff_left fun h => absurd h hs).symm⟩

/-- When such a query leaks neither options nor libraries. -/
theorem query_balanced {o : SessionOptions} {n : ConfigCalls} {key : String} {m : Comp Error α}
    (hb : b.Sound) (hm : m.Clean) : (query cuda o n key m).Balanced (fun _ => ∅) b ↔
      (n.createSessionOptions = .ok true → ¬ Registers cuda n.setting (o.settings false) ∧
        (Succeed cuda n.setting (o.settings false) → '\x00' ∉ key.toList)) := by
  by_cases ho : n.createSessionOptions = .ok true
  · obtain ⟨kept, hk, hempty⟩ := query_created cuda o key hb hm ho
    simp only [ho, true_implies]
    exact (Comp.balanced_none_iff (Prod.eta _).symm hk).trans hempty
  · refine iff_of_true ?_ fun h => absurd h ho
    obtain ⟨h, -⟩ | ⟨-, err, b', hc, hg⟩ := createNonNull_cases
      n.createSessionOptions "session options" hb
    · exact absurd h ho
    · have hrun : o.buildHandle cuda n b = (.error err, b') := Comp.bind_error hc
      exact Comp.balanced_of_error (Comp.bind_error hrun) hg

theorem readConfigEntry_clean (n : ConfigCalls) :
    (SessionOptions.readConfigEntry n).Clean := by
  refine (check_clean _).discard.bind fun _ => ?_
  split
  · exact Comp.clean_pure _
  · refine (check_clean _).bind fun _ => ?_
    split
    · exact Comp.clean_pure _
    · exact Comp.clean_ofExcept _

/-- When the constructors and queries leak no handle: whatever ORT's calls give, and from any
books. -/
theorem handles_balanced (b : Books) (hb : b.Sound) :
    (∀ bits strings shape (n : TensorCalls),
      (StringTensor.new bits strings shape n).Balanced (fun value => {value}) b ↔
        (n.Creates bits strings.length shape →
          (∀ s ∈ strings, '\x00' ∉ s.toList) ∧ n.fillStringTensor = .ok ())) ∧
    (∀ bits len shape (n : TensorCalls),
      (Tensor.copyFromSlice bits len shape n).Balanced (fun value => {value}) b ↔
        (n.Creates bits len shape →
          ∃ data, n.getTensorMutableData = .ok data ∧ (data = none → len = 0))) ∧
    (∀ n : StatsCalls, (Allocator.stats n).Balanced (fun _ => ∅) b ↔
      (n.getStats = .ok true → ∀ pair ∈ n.pairs, Utf8 pair.1 ∧ Utf8 pair.2)) ∧
    ∀ cuda (o : SessionOptions) (n : ConfigCalls) key,
      let safe := n.createSessionOptions = .ok true →
        ¬ Registers cuda n.setting (o.settings false) ∧
          (Succeed cuda n.setting (o.settings false) → '\x00' ∉ key.toList)
      ((o.hasConfigEntry cuda n key).Balanced (fun _ => ∅) b ↔ safe) ∧
        ((o.configEntry cuda n key).Balanced (fun _ => ∅) b ↔ safe) := by
  refine ⟨fun _ _ _ _ => stringTensor_balanced hb, fun _ _ _ _ => copyFromSlice_balanced hb,
    fun _ => stats_balanced hb, ?_⟩
  intro cuda o n key
  constructor
  · exact query_balanced hb ((check_clean _).bind fun _ => Comp.clean_ofExcept _)
  · exact query_balanced hb (readConfigEntry_clean n)

/-- Calls that all succeed. -/
def TensorCalls.succeed : TensorCalls := ⟨.ok true, .ok true, .ok (), .ok (some 1)⟩

/-- Options with nothing set. -/
def SessionOptions.none : SessionOptions where
  optLevel := 99
  intraThreads := .none
  interThreads := .none
  executionMode := .none
  logId := .none
  logSeverity := .none
  logVerbosity := .none
  userLogger := .none
  cpuMemArena := .default
  memPattern := .default
  profilingPrefix := .none
  freeDimensionOverrides := []
  freeDimensionOverridesByName := []
  configEntries := []
  epSelectionPolicy := .none
  epConfigs := []
  migraphx := []
  openvino := []
  customOpDomains := []
  enableOrtCustomOps := false
  customOpLibraries := []
  customOpLibrariesV1 := []
  customOpFunctions := []
  optimizedModelFilePath := .none
  deterministicCompute := .none
  loadCancellationFlag := .none
  customCreateThreadFn := .none
  customJoinThreadFn := .none
  epSelectionDelegate := .none

/-- Configuration calls that all succeed. -/
def ConfigCalls.succeed : ConfigCalls where
  createSessionOptions := .ok true
  setting _ := ⟨.ok (), .ok true, .ok (), .ok (), .ok true⟩
  hasSessionConfigEntry := .ok true
  getSize := .ok ()
  size := 2
  getEntry := .ok ()
  buffer := [97, 0]

theorem handles_balanced_empty :
    (StringTensor.new 64 ["a"] [1] .succeed).Balanced (fun value => {value}) Books.empty ∧
    ¬ (StringTensor.new 64 ["a"] [1] { TensorCalls.succeed with
        fillStringTensor := .error (.local "full") }).Balanced
      (fun value => {value}) Books.empty ∧
    (Tensor.copyFromSlice 64 1 [1] .succeed).Balanced (fun value => {value}) Books.empty ∧
    (Allocator.stats ⟨.ok true, [(some "InUse".toByteArray, .none)]⟩).Balanced
      (fun _ => ∅) Books.empty ∧
    (SessionOptions.none.hasConfigEntry false .succeed "k").Balanced (fun _ => ∅) Books.empty ∧
    (SessionOptions.none.configEntry false .succeed "k").Balanced (fun _ => ∅) Books.empty := by
  obtain ⟨hstrings, hslice, hstats, hquery⟩ :=
    handles_balanced Books.empty Ownership.Books.sound_empty
  have hregisters : ¬ Registers false ConfigCalls.succeed.setting
      (SessionOptions.none.settings false) := by
    have hsettings : SessionOptions.none.settings false =
        [.call "set_session_graph_optimization_level", .call "disable_profiling"] := rfl
    rw [hsettings]
    rintro ⟨i, ⟨path, hi⟩, -⟩
    have hmem := List.mem_of_getElem? hi
    simp only [List.mem_cons, List.not_mem_nil, reduceCtorEq, or_self] at hmem
  obtain ⟨hhas, hentry⟩ := hquery false SessionOptions.none .succeed "k"
  refine ⟨(hstrings ..).mpr fun _ => ⟨by decide, rfl⟩, fun h => ?_,
    (hslice ..).mpr fun _ => ⟨_, rfl, by simp⟩, (hstats _).mpr fun _ => ?_,
    hhas.mpr fun _ => ⟨hregisters, fun _ => by decide⟩,
    hentry.mpr fun _ => ⟨hregisters, fun _ => by decide⟩⟩
  · cases ((hstrings ..).mp h ⟨rfl, rfl, rfl⟩).2
  · simp only [List.mem_singleton, forall_eq]
    exact ⟨by rintro _ ⟨⟩; exact "InUse".isValidUTF8, nofun⟩

theorem handles_balanced_fails :
    ¬ (StringTensor.new 64 ["a\x00"] [1] .succeed).Balanced (fun value => {value}) Books.empty ∧
    ¬ (Tensor.copyFromSlice 64 1 [1] { TensorCalls.succeed with
        getTensorMutableData := .ok .none }).Balanced (fun value => {value}) Books.empty ∧
    ¬ (Allocator.stats ⟨.ok true, [(some ⟨#[255]⟩, .none)]⟩).Balanced (fun _ => ∅) Books.empty ∧
    ¬ (SessionOptions.none.hasConfigEntry false .succeed "k\x00").Balanced
      (fun _ => ∅) Books.empty ∧
    ¬ (SessionOptions.none.configEntry false .succeed "k\x00").Balanced
      (fun _ => ∅) Books.empty := by
  refine ⟨fun h => ?_, fun h => ?_, fun h => ?_, fun h => ?_, fun h => ?_⟩
  · cases (h.2.2 0 (by decide) (by decide)).2 id
  · cases (h.2.2 0 (by decide) (by decide)).2 id
  · cases (h.2.2 0 (by decide) (by decide)).2 id
  · cases (h.2.2 0 (by decide) (by decide)).2 id
  · cases (h.2.2 0 (by decide) (by decide)).2 id

end Zrt.Constructors
