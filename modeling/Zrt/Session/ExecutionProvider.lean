import Zrt.RunOptions

/-! Provider options: `ep.rs`, and the part of `session_options.rs` and `session.rs` that hands them
to ORT. -/
namespace Zrt.Ep

/-- An `Arc<CudaStream>`, by the allocation it points to. -/
structure CudaStream where
  arc : Nat
  raw : Nat
  device : Int
  deriving DecidableEq

inductive EpProvider where
  | cuda
  | tensorRt
  | rocm
  | cann
  | dnnl
  | openVinoV2
  | vitisAi
  deriving DecidableEq

inductive CudaArenaExtendStrategy where
  | nextPowerOfTwo
  | sameAsRequested

def CudaArenaExtendStrategy.asOrtValue : CudaArenaExtendStrategy → String
  | .nextPowerOfTwo => "kNextPowerOfTwo"
  | .sameAsRequested => "kSameAsRequested"

inductive CudaCudnnConvAlgoSearch where
  | exhaustive
  | heuristic
  | default

def CudaCudnnConvAlgoSearch.asOrtValue : CudaCudnnConvAlgoSearch → String
  | .exhaustive => "EXHAUSTIVE"
  | .heuristic => "HEURISTIC"
  | .default => "DEFAULT"

inductive DeviceInputPolicy where
  | defaultStream
  | unifiedStream
  | userStream
  deriving DecidableEq

abbrev Entries := List (String × String)

structure CudaConfig where
  deviceId : Int
  arena : CudaArenaExtendStrategy
  cudnnSearch : CudaCudnnConvAlgoSearch
  tf32 : Bool
  cudaGraph : Bool
  graphStrictMode : Bool
  deviceInputs : DeviceInputPolicy
  memLimit : Option Nat
  cudnnMaxWorkspace : Bool
  preferNhwc : Bool
  extra : Entries
  stream : Option CudaStream

def isReservedCudaKey (key : String) : Bool :=
  key ∈ ["device_id", "arena_extend_strategy", "cudnn_conv_algo_search", "use_tf32",
    "enable_cuda_graph", "enable_skip_layer_norm_strict_mode", "do_copy_in_default_stream",
    "use_ep_level_unified_stream", "gpu_mem_limit", "cudnn_conv_use_max_workspace",
    "prefer_nhwc", "user_compute_stream", "gpu_external_alloc", "gpu_external_free",
    "gpu_external_empty_cache"]

def isUnsafeCudaPointerKey (key : String) : Bool :=
  key ∈ ["user_compute_stream", "gpu_external_alloc", "gpu_external_free",
    "gpu_external_empty_cache"]

def upsertStringEntry (entries : Entries) (key value : String) : Entries :=
  Options.upsertConfig key value entries

/-- `CudaProviderOptions`; only the setters that `provider_options` calls. -/
structure CudaProviderOptions where
  entries : Entries

namespace CudaProviderOptions

def new : CudaProviderOptions := ⟨[]⟩

def withRawUnchecked (o : CudaProviderOptions) (key value : String) : CudaProviderOptions :=
  ⟨upsertStringEntry o.entries key value⟩

def withBool (o : CudaProviderOptions) (key : String) (enabled : Bool) : CudaProviderOptions :=
  o.withRawUnchecked key (if enabled then "1" else "0")

end CudaProviderOptions

namespace CudaConfig

def performance (deviceId : Int) : CudaConfig where
  deviceId := deviceId
  arena := .nextPowerOfTwo
  cudnnSearch := .exhaustive
  tf32 := true
  cudaGraph := false
  graphStrictMode := false
  deviceInputs := .defaultStream
  memLimit := none
  cudnnMaxWorkspace := false
  preferNhwc := false
  extra := []
  stream := none

def lowMemory (deviceId : Int) (gpuMemLimit : Nat) : CudaConfig :=
  { performance deviceId with
    arena := .sameAsRequested
    cudnnSearch := .heuristic
    memLimit := some gpuMemLimit }

def graphReplay (deviceId : Int) (stream : CudaStream) : Except Error CudaConfig :=
  if stream.device ≠ deviceId then
    .error (.local
      s!"CUDA stream belongs to device {stream.device}, but config targets device {deviceId}")
  else .ok { performance deviceId with
    cudaGraph := true
    graphStrictMode := true
    deviceInputs := .userStream
    stream := some stream }

variable (c : CudaConfig)

def withRaw (key value : String) : Except Error CudaConfig :=
  if isReservedCudaKey key then
    .error (.local ("CUDA option \"" ++ key ++
      "\" is typed and cannot be overridden through with_raw"))
  else .ok { c with extra := upsertStringEntry c.extra key value }

def withMemLimit (bytes : Nat) : CudaConfig := { c with memLimit := some bytes }

def withCudaGraph (enabled : Bool) : CudaConfig := { c with cudaGraph := enabled }

def withGraphStrictMode (enabled : Bool) : CudaConfig := { c with graphStrictMode := enabled }

def withTf32 (enabled : Bool) : CudaConfig := { c with tf32 := enabled }

def withCudnnMaxWorkspace (enabled : Bool) : CudaConfig := { c with cudnnMaxWorkspace := enabled }

def withPreferNhwc (enabled : Bool) : CudaConfig := { c with preferNhwc := enabled }

/-- `cuda` is the crate feature. -/
def withDeviceInputPolicy (cuda : Bool) (policy : DeviceInputPolicy) : Except Error CudaConfig :=
  if policy = .userStream ∧ cuda = false then
    .error (.local ("DeviceInputPolicy::UserStream requires the `cuda` feature and an owned " ++
      "stream"))
  else if policy = .userStream ∧ c.stream.isNone then
    .error (.local "DeviceInputPolicy::UserStream requires with_user_stream")
  else .ok { c with
    deviceInputs := policy
    stream := if policy ≠ .userStream then none else c.stream }

def withUserStream (stream : CudaStream) : Except Error CudaConfig :=
  if stream.device ≠ c.deviceId then
    .error (.local
      s!"CUDA stream belongs to device {stream.device}, but config targets device {c.deviceId}")
  else .ok { c with deviceInputs := .userStream, stream := some stream }

def providerOptions : CudaProviderOptions :=
  let options := CudaProviderOptions.new
    |>.withRawUnchecked "device_id" (toString c.deviceId)
    |>.withRawUnchecked "arena_extend_strategy" c.arena.asOrtValue
    |>.withRawUnchecked "cudnn_conv_algo_search" c.cudnnSearch.asOrtValue
    |>.withBool "enable_cuda_graph" c.cudaGraph
    |>.withBool "enable_skip_layer_norm_strict_mode" c.graphStrictMode
    |>.withBool "use_tf32" c.tf32
    |>.withBool "cudnn_conv_use_max_workspace" c.cudnnMaxWorkspace
    |>.withBool "prefer_nhwc" c.preferNhwc
    |>.withBool "do_copy_in_default_stream" true
    |>.withBool "use_ep_level_unified_stream" (c.deviceInputs = .unifiedStream)
  let options := match c.memLimit with
    | some limit => options.withRawUnchecked "gpu_mem_limit" (toString limit)
    | none => options
  c.extra.foldl (fun options entry => options.withRawUnchecked entry.1 entry.2) options

/-- What safe code can make: presets, builder calls, and deserialized data, whose stream is
skipped. -/
inductive Obtainable (cuda : Bool) : CudaConfig → Prop where
  | performance (deviceId) : Obtainable cuda (performance deviceId)
  | lowMemory (deviceId gpuMemLimit) : Obtainable cuda (lowMemory deviceId gpuMemLimit)
  | graphReplay {c deviceId stream} (hcuda : cuda = true)
      (h : graphReplay deviceId stream = .ok c) :
      Obtainable cuda c
  | deserialized {c : CudaConfig} (h : c.stream = none) : Obtainable cuda c
  | withRaw {c c' : CudaConfig} {key value} (hc : Obtainable cuda c)
      (h : c.withRaw key value = .ok c') : Obtainable cuda c'
  | withMemLimit {c : CudaConfig} (bytes) (hc : Obtainable cuda c) :
      Obtainable cuda (c.withMemLimit bytes)
  | withCudaGraph {c : CudaConfig} (enabled) (hc : Obtainable cuda c) :
      Obtainable cuda (c.withCudaGraph enabled)
  | withGraphStrictMode {c : CudaConfig} (enabled) (hc : Obtainable cuda c) :
      Obtainable cuda (c.withGraphStrictMode enabled)
  | withTf32 {c : CudaConfig} (enabled) (hc : Obtainable cuda c) :
      Obtainable cuda (c.withTf32 enabled)
  | withCudnnMaxWorkspace {c : CudaConfig} (enabled) (hc : Obtainable cuda c) :
      Obtainable cuda (c.withCudnnMaxWorkspace enabled)
  | withPreferNhwc {c : CudaConfig} (enabled) (hc : Obtainable cuda c) :
      Obtainable cuda (c.withPreferNhwc enabled)
  | withDeviceInputPolicy {c c' : CudaConfig} {policy} (hc : Obtainable cuda c)
      (h : c.withDeviceInputPolicy cuda policy = .ok c') : Obtainable cuda c'
  | withUserStream {c c' : CudaConfig} {stream} (hcuda : cuda = true) (hc : Obtainable cuda c)
      (h : c.withUserStream stream = .ok c') : Obtainable cuda c'

end CudaConfig

/-- A queued provider. -/
structure EpConfig where
  provider : EpProvider
  entries : Entries
  requiresOwnedCudaStream : Bool
  cudaStream : Option CudaStream

/-- A discovered device: its environment, and what `ep_name` returns. -/
structure EpDevice where
  env : Nat
  epName : Except Error String

structure EpDeviceAttach where
  devices : List EpDevice
  options : Entries
  env : Nat

/-- The fields of `SessionOptions` that reach a provider as keys and values. -/
structure SessionOptions where
  epConfigs : List EpConfig
  epDeviceAttach : List EpDeviceAttach

def hasNul (entries : Entries) : Bool :=
  entries.any fun entry => entry.1.toList.contains '\x00' || entry.2.toList.contains '\x00'

/-- The conversion of keys and values to C strings. -/
def checkEntries (entries : Entries) (message : String) : Except Error Unit :=
  if hasNul entries then .error (.local message) else .ok ()

namespace SessionOptions

def new : SessionOptions := ⟨[], []⟩

variable (o : SessionOptions)

def withExecutionProvider (provider : EpProvider) (entries : Entries) :
    Except Error SessionOptions :=
  if provider = .cuda ∧ entries.any (fun entry => isUnsafeCudaPointerKey entry.1) then
    .error (.local "pointer-valued CUDA options require an explicitly unsafe low-level API")
  else (checkEntries entries "ep option key/value contains a NUL byte").map fun _ =>
    { o with epConfigs := o.epConfigs ++ [⟨provider, entries, false, none⟩] }

/-- The check of a user-stream configuration in `with_cuda`. -/
def checkUserStream (cuda : Bool) (config : CudaConfig) : Except Error Unit :=
  if config.deviceInputs = .userStream then
    if cuda then
      match config.stream with
      | none => .error (.local "CUDA user-stream configuration is missing its owned stream")
      | some stream =>
        if stream.device ≠ config.deviceId then
          .error (.local "CUDA user stream belongs to a different device")
        else .ok ()
    else .error (.local "CUDA user-stream configuration requires the `cuda` feature")
  else .ok ()

def withCuda (cuda : Bool) (config : CudaConfig) : Except Error SessionOptions :=
  match config.extra.find? fun entry => isReservedCudaKey entry.1 with
  | some entry => .error (.local ("serialized CUDA config illegally overrides typed option \"" ++
      entry.1 ++ "\""))
  | none => (checkUserStream cuda config).bind fun _ =>
    let entries := config.providerOptions.entries
    (checkEntries entries "cuda ep option key/value contains a NUL byte").map fun _ =>
      { o with epConfigs := o.epConfigs ++ [⟨.cuda, entries, config.deviceInputs = .userStream,
          if cuda then config.stream else none⟩] }

def appendExecutionProviderDevice (devices : List EpDevice) (options : Entries) :
    Except Error SessionOptions :=
  (checkEntries options "ep device option key/value contains a NUL byte").bind fun _ =>
    match devices with
    | [] => .error (.local "at least one execution-provider device is required")
    | first :: rest =>
      if devices.any fun device => device.env ≠ first.env then
        .error (.local "execution-provider devices must belong to the same Environment")
      else first.epName.bind fun name =>
        (rest.foldlM (fun (_ : Unit) (device : EpDevice) => device.epName.bind fun other =>
          if other ≠ name then
            .error (.local "execution-provider devices must belong to the same execution provider")
          else .ok ()) ()).map fun _ =>
        { o with epDeviceAttach := o.epDeviceAttach ++ [⟨devices, options, first.env⟩] }

/-- What safe code can make: builder calls, and deserialized data, whose streams and devices are
skipped. Entries of `CudaProviderOptions` get here as entries of `with_execution_provider`. -/
inductive Obtainable (cuda : Bool) : SessionOptions → Prop where
  | new : Obtainable cuda new
  | deserialized {o : SessionOptions} (hs : ∀ config ∈ o.epConfigs, config.cudaStream = none)
      (hn : ∀ config ∈ o.epConfigs, hasNul config.entries = false) (hd : o.epDeviceAttach = []) :
      Obtainable cuda o
  | withExecutionProvider {o o' : SessionOptions} {provider entries} (ho : Obtainable cuda o)
      (h : o.withExecutionProvider provider entries = .ok o') : Obtainable cuda o'
  | withCuda {o o' : SessionOptions} {config : CudaConfig} (ho : Obtainable cuda o)
      (hc : config.Obtainable cuda) (h : o.withCuda cuda config = .ok o') : Obtainable cuda o'
  | appendExecutionProviderDevice {o o' : SessionOptions} {devices options}
      (ho : Obtainable cuda o) (h : o.appendExecutionProviderDevice devices options = .ok o') :
      Obtainable cuda o'

/-- The checks of `validate_cuda_stream_guards` on one provider. -/
def validateConfig (cuda : Bool) (config : EpConfig) : Except Error Unit :=
  if config.provider = .cuda ∧
      config.entries.any (fun entry => isUnsafeCudaPointerKey entry.1) then
    .error (.local "serialized CUDA configuration contains an unsafe pointer option")
  else if config.requiresOwnedCudaStream ∧ (cuda = false ∨ config.cudaStream.isNone) then
    .error (.local ("serialized CUDA user-stream configuration requires reattaching an owned " ++
      "stream"))
  else .ok ()

def validateCudaStreamGuards (cuda : Bool) : List EpConfig → Except Error Unit
  | [] => .ok ()
  | config :: configs => (validateConfig cuda config).bind fun _ =>
    validateCudaStreamGuards cuda configs

def cudaStreamGuards (cuda : Bool) : List CudaStream :=
  if cuda then o.epConfigs.filterMap EpConfig.cudaStream else []

end SessionOptions

/-- Who receives options. -/
inductive Target where
  | provider (p : EpProvider)
  | devices (devices : List EpDevice)

/-- What one append tells ORT: strings, and values given as pointers. -/
structure ProviderCall where
  target : Target
  entries : Entries
  pointers : List (String × CudaStream)

/-- The outcomes of the native calls behind a session: the handle and its other settings, each
append, and the creation with what follows it. -/
structure Native where
  options : Except Error Unit
  append : Nat → Except Error Unit
  attach : Nat → Except Error Unit
  create : Except Error Unit

/-- `apply` on one provider. -/
def apply (cuda : Bool) (config : EpConfig) : ProviderCall where
  target := .provider config.provider
  entries := config.entries
  pointers := if config.provider = .cuda ∧ cuda then
    config.cudaStream.toList.map fun stream => ("user_compute_stream", stream) else []

/-- Appends in order, up to the first that fails; `outcome` is by the number of those behind it. -/
def send (outcome : Nat → Except Error Unit) : List (Except Error ProviderCall) →
    Except Error (List ProviderCall)
  | [] => .ok []
  | call :: calls => call.bind fun call => (outcome calls.length).bind fun _ =>
    (send outcome calls).map fun calls => call :: calls

def buildHandleForSession (cuda : Bool) (o : SessionOptions) (n : Native) :
    Except Error (List ProviderCall) :=
  (SessionOptions.validateCudaStreamGuards cuda o.epConfigs).bind fun _ => n.options.bind fun _ =>
    send n.append (o.epConfigs.map fun config => .ok (apply cuda config))

def applyDeviceAttach (env : Nat) (attaches : List EpDeviceAttach) (n : Native) :
    Except Error (List ProviderCall) :=
  send n.attach (attaches.map fun attach =>
    if attach.env ≠ env then
      .error (.local "execution-provider devices belong to a different Environment")
    else .ok ⟨.devices attach.devices, attach.options, []⟩)

def buildSessionOptionsForEnv (cuda : Bool) (env : Nat) (o : SessionOptions) (n : Native) :
    Except Error (List ProviderCall) :=
  (SessionOptions.validateCudaStreamGuards cuda o.epConfigs).bind fun _ =>
    (buildHandleForSession cuda o n).bind fun calls =>
      (applyDeviceAttach env o.epDeviceAttach n).map fun attached => calls ++ attached

/-- A session: what ORT was told for it, and the `_cuda_streams` of its `SessionInner`. -/
structure Session where
  calls : List ProviderCall
  cudaStreams : List CudaStream

/-- The constructors of `Session`: they differ in where the model comes from. -/
def createSession (cuda : Bool) (env : Nat) (o : SessionOptions) (n : Native) :
    Except Error Session :=
  (buildSessionOptionsForEnv cuda env o n).bind fun calls =>
    n.create.map fun _ => ⟨calls, o.cudaStreamGuards cuda⟩

/-- The loop of `finalize` over the streams of its options. -/
def addCudaStreams (streams guards : List CudaStream) : List CudaStream :=
  guards.foldl (fun streams stream =>
    if streams.any fun existing => existing.arc = stream.arc then streams
    else streams ++ [stream]) streams

/-- `finalize` of a model-editor session. It attaches no devices. -/
def Session.finalize (cuda : Bool) (s : Session) (o : SessionOptions) (n : Native) :
    Session × Except Error Unit :=
  let guarded := { s with cudaStreams := addCudaStreams s.cudaStreams (o.cudaStreamGuards cuda) }
  match buildHandleForSession cuda o n with
  | .error e => (guarded, .error e)
  | .ok calls => ({ guarded with calls := s.calls ++ calls }, n.create)

inductive Release where
  | nativeSession
  | cudaStream (stream : CudaStream)

/-- `SessionInner::drop`, and the guards that go behind it. -/
def Session.drop (s : Session) : List Release :=
  .nativeSession :: s.cudaStreams.map .cudaStream

/-- The keys under which a provider takes a pointer. -/
def Target.Pointer : Target → String → Prop
  | .provider .cuda, key => isUnsafeCudaPointerKey key = true
  | .provider .tensorRt, key | .provider .rocm, key => key = "user_compute_stream"
  | .provider _, _ => False
  | .devices ds, key => key = "user_compute_stream" ∧
      ∃ device ∈ ds, device.epName = .ok "CUDAExecutionProvider"

/-- Whatever else is finalized on the session, the stream's `Arc` goes after the native session. -/
def Session.Retains (cuda : Bool) (s : Session) (stream : CudaStream) : Prop :=
  ∀ finalizations : List (SessionOptions × Native), ∃ before kept after,
    (finalizations.foldl (fun s call => (s.finalize cuda call.1 call.2).1) s).drop =
      before ++ .cudaStream kept :: after ∧ kept.arc = stream.arc ∧ .nativeSession ∈ before

/-- Under a pointer key there is no string, and as pointers only streams of the configured device
that the session retains. -/
def Session.Owns (cuda : Bool) (s : Session) (call : ProviderCall) : Prop :=
  (∀ entry ∈ call.entries, ¬ call.target.Pointer entry.1) ∧
  ∀ pointer ∈ call.pointers, s.Retains cuda pointer.2 ∧
    ("device_id", toString pointer.2.device) ∈ call.entries

def Session.Owned (cuda : Bool) (s : Session) : Prop := ∀ call ∈ s.calls, s.Owns cuda call

/-- A provider whose keys nobody filters is given a string under a pointer key. -/
def SessionOptions.SmugglesConfig (o : SessionOptions) : Prop :=
  ∃ config ∈ o.epConfigs, config.provider ≠ .cuda ∧
    ∃ entry ∈ config.entries, (Target.provider config.provider).Pointer entry.1

/-- So is an attached device. -/
def SessionOptions.SmugglesAttach (o : SessionOptions) : Prop :=
  ∃ attach ∈ o.epDeviceAttach, ∃ entry ∈ attach.options,
    (Target.devices attach.devices).Pointer entry.1

variable {cuda : Bool} {o o' : SessionOptions} {c c' : CudaConfig} {config : EpConfig}
  {configs : List EpConfig} {n : Native} {env : Nat} {s : Session} {stream : CudaStream}
  {entries : Entries} {key value : String}

/-- A configuration with a stream sends it, and was checked against the stream's device. -/
theorem CudaConfig.Obtainable.userStream (h : c.Obtainable cuda) (hs : c.stream = some stream) :
    c.deviceInputs = .userStream := by
  induction h with
  | performance | lowMemory => cases hs
  | graphReplay hcuda h =>
    unfold CudaConfig.graphReplay at h
    split at h
    · cases h
    · rw [← Except.ok.inj h]
  | deserialized h => simp [h] at hs
  | withRaw hc h ih =>
    unfold CudaConfig.withRaw at h
    split at h
    · cases h
    · obtain rfl := Except.ok.inj h
      exact ih hs
  | withMemLimit _ _ ih | withCudaGraph _ _ ih | withGraphStrictMode _ _ ih | withTf32 _ _ ih
  | withCudnnMaxWorkspace _ _ ih | withPreferNhwc _ _ ih => exact ih hs
  | withDeviceInputPolicy hc h ih =>
    unfold CudaConfig.withDeviceInputPolicy at h
    split at h
    · cases h
    · split at h
      · cases h
      · obtain rfl := Except.ok.inj h
        by_contra hne
        simp only [if_pos hne] at hs
        cases hs
  | withUserStream hcuda hc h ih =>
    unfold CudaConfig.withUserStream at h
    split at h
    · cases h
    · rw [← Except.ok.inj h]

theorem mem_upsertConfig_self : (key, value) ∈ Options.upsertConfig key value entries := by
  induction entries with
  | nil => simp [Options.upsertConfig]
  | cons entry entries ih =>
    unfold Options.upsertConfig
    split
    · rename_i hk
      simp [hk]
    · exact List.mem_cons_of_mem _ ih

/-- Another key's entry stays. -/
theorem mem_upsertConfig_of_ne {key' value' : String} (h : (key, value) ∈ entries)
    (hne : key ≠ key') : (key, value) ∈ Options.upsertConfig key' value' entries := by
  induction entries with
  | nil => cases h
  | cons entry entries ih =>
    unfold Options.upsertConfig
    rcases List.mem_cons.mp h with rfl | h
    · rw [if_neg hne]
      exact List.mem_cons_self
    · split
      · exact List.mem_cons_of_mem _ h
      · exact List.mem_cons_of_mem _ (ih h)

/-- No setter behind it and no raw entry overrides the device. -/
theorem deviceId_providerOptions
    (h : c.extra.find? (fun entry => isReservedCudaKey entry.1) = none) :
    ("device_id", toString c.deviceId) ∈ c.providerOptions.entries := by
  have hextra : ∀ (extra : Entries) (options : CudaProviderOptions),
      (∀ entry ∈ extra, entry.1 ≠ "device_id") →
      ("device_id", toString c.deviceId) ∈ options.entries → ("device_id", toString c.deviceId) ∈
        (extra.foldl (fun options entry => options.withRawUnchecked entry.1 entry.2)
          options).entries := by
    intro extra
    induction extra with
    | nil => exact fun _ _ h => h
    | cons entry extra ih =>
      intro options hne h
      refine ih _ (fun e he => hne e (List.mem_cons_of_mem _ he)) ?_
      exact mem_upsertConfig_of_ne h (hne entry List.mem_cons_self).symm
  have hset : ∀ {options : CudaProviderOptions} {key' value' : String}, key' ≠ "device_id" →
      ("device_id", toString c.deviceId) ∈ options.entries →
      ("device_id", toString c.deviceId) ∈ (options.withRawUnchecked key' value').entries :=
    fun hne h => mem_upsertConfig_of_ne h hne.symm
  refine hextra _ _ ?_ ?_
  · intro entry he hk
    have hfree := List.find?_eq_none.mp h entry he
    simp [hk, isReservedCudaKey] at hfree
  · have hbase : ("device_id", toString c.deviceId) ∈
        (CudaProviderOptions.new.withRawUnchecked "device_id" (toString c.deviceId)).entries :=
      mem_upsertConfig_self
    split
    all_goals
      repeat' first | exact hbase | refine hset (by decide) ?_

/-- A queued stream is a CUDA provider's, and of the device its entries name. -/
def EpConfig.Bound (cuda : Bool) (config : EpConfig) : Prop :=
  ∀ stream, config.cudaStream = some stream → cuda = true ∧ config.provider = .cuda ∧
    ("device_id", toString stream.device) ∈ config.entries

theorem bound_of_withCuda (hc : c.Obtainable cuda) (h : o.withCuda cuda c = .ok o')
    (ho : ∀ config ∈ o.epConfigs, config.Bound cuda) : ∀ config ∈ o'.epConfigs,
      config.Bound cuda := by
  unfold SessionOptions.withCuda at h
  cases hx : c.extra.find? fun entry => isReservedCudaKey entry.1 with
  | some entry => simp [hx] at h
  | none =>
    simp only [hx] at h
    obtain ⟨_, hu, h⟩ := bind_eq_ok h
    obtain ⟨_, -, rfl⟩ := map_eq_ok h
    intro config hm
    rcases List.mem_append.mp hm with hm | hm
    · exact ho config hm
    · obtain rfl := List.mem_singleton.mp hm
      intro stream hs
      cases cuda with
      | false => cases hs
      | true =>
        have hs : c.stream = some stream := hs
        have hdevice : stream.device = c.deviceId := by
          simpa [SessionOptions.checkUserStream, hc.userStream hs, hs] using hu
        refine ⟨rfl, rfl, ?_⟩
        rw [hdevice]
        exact deviceId_providerOptions hx

theorem SessionOptions.Obtainable.bound (h : o.Obtainable cuda) :
    ∀ config ∈ o.epConfigs, config.Bound cuda := by
  induction h with
  | new => exact fun _ h => absurd h List.not_mem_nil
  | deserialized hs => exact fun config hm stream h => by simp [hs config hm] at h
  | withExecutionProvider _ h ih =>
    unfold SessionOptions.withExecutionProvider at h
    split at h
    · cases h
    · obtain ⟨_, -, rfl⟩ := map_eq_ok h
      intro config hm
      rcases List.mem_append.mp hm with hm | hm
      · exact ih config hm
      · obtain rfl := List.mem_singleton.mp hm
        intro stream hs
        cases hs
  | withCuda _ hc h ih => exact bound_of_withCuda hc h ih
  | appendExecutionProviderDevice _ h ih =>
    unfold SessionOptions.appendExecutionProviderDevice at h
    obtain ⟨_, -, h⟩ := bind_eq_ok h
    split at h
    · cases h
    · split at h
      · cases h
      · obtain ⟨_, -, h⟩ := bind_eq_ok h
        obtain ⟨_, -, rfl⟩ := map_eq_ok h
        exact ih

/-- Validated CUDA entries have no pointer key. -/
theorem validateCudaStreamGuards_ok
    (h : SessionOptions.validateCudaStreamGuards cuda configs = .ok ()) {config : EpConfig}
    (hm : config ∈ configs) (hp : config.provider = .cuda) {entry : String × String}
    (he : entry ∈ config.entries) : ¬ isUnsafeCudaPointerKey entry.1 := by
  induction configs with
  | nil => cases hm
  | cons first configs ih =>
    obtain ⟨_, hv, h⟩ := bind_eq_ok h
    rcases List.mem_cons.mp hm with rfl | hm
    · intro hk
      have hany : config.entries.any (fun entry => isUnsafeCudaPointerKey entry.1) = true :=
        List.any_eq_true.mpr ⟨entry, he, hk⟩
      unfold SessionOptions.validateConfig at hv
      rw [if_pos ⟨hp, hany⟩] at hv
      cases hv
    · exact ih h hm

/-- All appends succeeded. -/
theorem send_ok {outcome : Nat → Except Error Unit} {calls : List (Except Error ProviderCall)}
    {sent : List ProviderCall} (h : send outcome calls = .ok sent) : calls = sent.map .ok := by
  induction calls generalizing sent with
  | nil => rw [← Except.ok.inj h, List.map_nil]
  | cons call calls ih =>
    obtain ⟨call, hcall, h⟩ := bind_eq_ok h
    obtain ⟨_, -, h⟩ := bind_eq_ok h
    obtain ⟨sent, hsent, rfl⟩ := map_eq_ok h
    rw [hcall, ih hsent, List.map_cons]

theorem buildHandleForSession_ok {calls : List ProviderCall}
    (h : buildHandleForSession cuda o n = .ok calls) : calls = o.epConfigs.map (apply cuda) := by
  obtain ⟨_, -, h⟩ := bind_eq_ok h
  obtain ⟨_, -, h⟩ := bind_eq_ok h
  have h : (o.epConfigs.map (apply cuda)).map Except.ok = calls.map Except.ok :=
    List.map_map.trans (send_ok h)
  exact (List.map_injective_iff.mpr (fun _ _ h => Except.ok.inj h) h).symm

/-- What `apply_device_attach` tells ORT of one attachment. -/
def deviceCall (attach : EpDeviceAttach) : ProviderCall :=
  ⟨.devices attach.devices, attach.options, []⟩

theorem applyDeviceAttach_ok {attaches : List EpDeviceAttach} {calls : List ProviderCall}
    (h : applyDeviceAttach env attaches n = .ok calls) : calls = attaches.map deviceCall := by
  have hs := send_ok h
  clear h
  induction attaches generalizing calls with
  | nil => simpa using hs
  | cons attach attaches ih =>
    cases calls with
    | nil => cases hs
    | cons call calls =>
      obtain ⟨hcall, hs⟩ := List.cons.inj hs
      dsimp only at hcall
      split at hcall
      · cases hcall
      · rw [← Except.ok.inj hcall, ih hs, List.map_cons, deviceCall]

/-- What a created session was told and keeps. -/
theorem createSession_ok (h : createSession cuda env o n = .ok s) :
    SessionOptions.validateCudaStreamGuards cuda o.epConfigs = .ok () ∧
    s.calls = o.epConfigs.map (apply cuda) ++ o.epDeviceAttach.map deviceCall ∧
    s.cudaStreams = o.cudaStreamGuards cuda := by
  obtain ⟨calls, hb, hs⟩ := bind_eq_ok h
  obtain ⟨_, -, rfl⟩ := map_eq_ok hs
  obtain ⟨_, hv, hb⟩ := bind_eq_ok hb
  obtain ⟨called, hc, hb⟩ := bind_eq_ok hb
  obtain ⟨attached, ha, rfl⟩ := map_eq_ok hb
  exact ⟨hv, by rw [buildHandleForSession_ok hc, applyDeviceAttach_ok ha], rfl⟩

theorem addCudaStreams_cons (streams guards : List CudaStream) (guard : CudaStream) :
    addCudaStreams streams (guard :: guards) =
      addCudaStreams (if streams.any fun existing => existing.arc = guard.arc then streams
        else streams ++ [guard]) guards := rfl

/-- Streams are only added. -/
theorem mem_addCudaStreams {streams guards : List CudaStream} (h : stream ∈ streams) :
    stream ∈ addCudaStreams streams guards := by
  induction guards generalizing streams with
  | nil => exact h
  | cons guard guards ih =>
    rw [addCudaStreams_cons]
    apply ih
    split
    · exact h
    · exact List.mem_append_left _ h

/-- Every stream behind the options has its `Arc` kept. -/
theorem exists_mem_addCudaStreams {guards : List CudaStream} (streams : List CudaStream)
    (h : stream ∈ guards) :
    ∃ kept ∈ addCudaStreams streams guards, kept.arc = stream.arc := by
  induction guards generalizing streams with
  | nil => cases h
  | cons guard guards ih =>
    rw [addCudaStreams_cons]
    rcases List.mem_cons.mp h with rfl | h
    · split
      · rename_i hany
        obtain ⟨kept, hk, harc⟩ := List.any_eq_true.mp hany
        exact ⟨kept, mem_addCudaStreams hk, of_decide_eq_true harc⟩
      · exact ⟨stream, mem_addCudaStreams (List.mem_append_right _ List.mem_cons_self), rfl⟩
    · exact ih _ h

theorem finalize_cudaStreams : (s.finalize cuda o n).1.cudaStreams =
    addCudaStreams s.cudaStreams (o.cudaStreamGuards cuda) := by
  unfold Session.finalize
  split <;> rfl

theorem retains_of_mem {kept : CudaStream} (h : kept ∈ s.cudaStreams)
    (harc : kept.arc = stream.arc) : s.Retains cuda stream := by
  intro finalizations
  induction finalizations generalizing s with
  | nil =>
    obtain ⟨before, after, h⟩ := List.append_of_mem h
    refine ⟨.nativeSession :: before.map .cudaStream, kept, after.map .cudaStream, ?_, harc,
      List.mem_cons_self⟩
    simp only [List.foldl_nil, Session.drop, h, List.map_append, List.map_cons, List.cons_append]
  | cons call finalizations ih =>
    apply ih
    rw [finalize_cudaStreams]
    exact mem_addCudaStreams h

/-- What a session retains it also retains once finalized. -/
theorem Session.Retains.finalize (h : s.Retains cuda stream) :
    (s.finalize cuda o n).1.Retains cuda stream :=
  fun finalizations => h ((o, n) :: finalizations)

/-- `SessionOptions` that the check has passed give a provider no other pointers than streams that
are retained, unless they smuggle one. -/
theorem owned_apply (ho : o.Obtainable cuda)
    (hv : SessionOptions.validateCudaStreamGuards cuda o.epConfigs = .ok ())
    (hs : ∀ stream ∈ o.cudaStreamGuards cuda, s.Retains cuda stream) :
    (∀ call ∈ o.epConfigs.map (apply cuda), s.Owns cuda call) ↔ ¬ o.SmugglesConfig := by
  constructor
  · rintro h ⟨config, hm, -, entry, he, hk⟩
    exact (h (apply cuda config) (List.mem_map_of_mem hm)).1 entry he hk
  · intro h call hcall
    obtain ⟨config, hm, rfl⟩ := List.mem_map.mp hcall
    refine ⟨?_, ?_⟩
    · intro entry he hk
      by_cases hp : config.provider = .cuda
      · simp only [apply, hp, Target.Pointer] at hk
        exact validateCudaStreamGuards_ok hv hm hp he hk
      · exact h ⟨config, hm, hp, entry, he, hk⟩
    · intro pointer hp
      simp only [apply] at hp
      split at hp
      · obtain ⟨stream, hstream, rfl⟩ := List.mem_map.mp hp
        have hstream : config.cudaStream = some stream := Option.mem_toList.mp hstream
        obtain ⟨hcuda, -, hdevice⟩ := ho.bound config hm stream hstream
        refine ⟨hs stream ?_, hdevice⟩
        rw [SessionOptions.cudaStreamGuards, if_pos hcuda]
        exact List.mem_filterMap.mpr ⟨config, hm, hstream⟩
      · cases hp

/-- Devices get strings only. -/
theorem owned_deviceCall :
    (∀ call ∈ o.epDeviceAttach.map deviceCall, s.Owns cuda call) ↔ ¬ o.SmugglesAttach := by
  constructor
  · rintro h ⟨attach, hm, entry, he, hk⟩
    exact (h (deviceCall attach) (List.mem_map_of_mem hm)).1 entry he hk
  · intro h call hcall
    obtain ⟨attach, hm, rfl⟩ := List.mem_map.mp hcall
    refine ⟨fun entry he hk => h ⟨attach, hm, entry, he, hk⟩, ?_⟩
    intro pointer hp
    cases hp

/-- What `finalize` tells ORT after the checks. -/
theorem finalize_ok (h : (s.finalize cuda o n).2 = .ok ()) :
    SessionOptions.validateCudaStreamGuards cuda o.epConfigs = .ok () ∧
    (s.finalize cuda o n).1.calls = s.calls ++ o.epConfigs.map (apply cuda) := by
  unfold Session.finalize at h ⊢
  cases hb : buildHandleForSession cuda o n with
  | error e => simp only [hb] at h; cases h
  | ok calls =>
    obtain ⟨_, hv, -⟩ := bind_eq_ok hb
    exact ⟨hv, by rw [buildHandleForSession_ok hb]⟩

/-- A session gets no pointer but those of streams it retains, and keeps it so when finalized,
unless a string goes under a pointer key to a provider whose keys nobody filters. -/
theorem pointers_owned (ho : o.Obtainable cuda) :
    (∀ env n s, createSession cuda env o n = .ok s →
      (s.Owned cuda ↔ ¬ o.SmugglesConfig ∧ ¬ o.SmugglesAttach)) ∧
    ∀ (s : Session) n, s.Owned cuda → (s.finalize cuda o n).2 = .ok () →
      ((s.finalize cuda o n).1.Owned cuda ↔ ¬ o.SmugglesConfig) := by
  constructor
  · intro env n s hs
    obtain ⟨hv, hcalls, hstreams⟩ := createSession_ok hs
    rw [Session.Owned, hcalls, List.forall_mem_append, owned_deviceCall]
    rw [owned_apply ho hv fun stream h => retains_of_mem (hstreams ▸ h) rfl]
  · intro s n hs hf
    obtain ⟨hv, hcalls⟩ := finalize_ok hf
    rw [Session.Owned, hcalls, List.forall_mem_append]
    rw [owned_apply ho hv fun stream h => ?_]
    · refine and_iff_right fun call hcall => ⟨(hs call hcall).1, fun pointer hp => ?_⟩
      exact ⟨((hs call hcall).2 pointer hp).1.finalize, ((hs call hcall).2 pointer hp).2⟩
    · obtain ⟨kept, hk, harc⟩ := exists_mem_addCudaStreams s.cudaStreams h
      rw [← finalize_cudaStreams (n := n)] at hk
      exact retains_of_mem hk harc

/-- Every native call succeeds. -/
def Native.succeed : Native := ⟨.ok (), fun _ => .ok (), fun _ => .ok (), .ok ()⟩

theorem pointers_owned_stream : ∃ c o s, CudaConfig.graphReplay 0 ⟨1, 1234, 0⟩ = .ok c ∧
    SessionOptions.new.withCuda true c = .ok o ∧ createSession true 0 o .succeed = .ok s ∧
    s.calls.map ProviderCall.pointers = [[("user_compute_stream", ⟨1, 1234, 0⟩)]] ∧
    (s.Owned true ↔ ¬ o.SmugglesConfig ∧ ¬ o.SmugglesAttach) := by
  have created {c o} (hc : CudaConfig.graphReplay 0 ⟨1, 1234, 0⟩ = .ok c)
      (ho : SessionOptions.new.withCuda true c = .ok o) : o.Obtainable true :=
    .withCuda .new (.graphReplay rfl hc) ho
  refine ⟨_, _, _, rfl, rfl, rfl, rfl, ?_⟩
  exact (pointers_owned (created rfl rfl)).1 0 .succeed _ rfl

theorem pointers_owned_fails : ∃ o s,
    SessionOptions.new.withExecutionProvider .tensorRt [("user_compute_stream", "1234")] = .ok o ∧
    o.Obtainable true ∧ createSession true 0 o .succeed = .ok s ∧ ¬ s.Owned true := by
  have created {o} (ho : SessionOptions.new.withExecutionProvider .tensorRt
      [("user_compute_stream", "1234")] = .ok o) : o.Obtainable true :=
    .withExecutionProvider .new ho
  refine ⟨_, _, rfl, created rfl, rfl, ?_⟩
  intro h
  exact (h _ List.mem_cons_self).1 _ List.mem_cons_self rfl

end Zrt.Ep
