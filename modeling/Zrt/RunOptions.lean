import Mathlib.Data.List.Basic
import Zrt.Error

/-! `run_options.rs`: the pure configuration of a run, and its frozen native handle. -/
namespace Zrt.Options

/-- `RunOptions`. Streams and adapters are named by number. -/
structure RunOptions where
  logSeverity : Option Int
  logVerbosity : Option Int
  runTag : Option String
  profilingPrefix : Option String
  configEntries : List (String × String)
  syncStream : Option Nat
  activeLoraAdapters : List Nat
  deriving DecidableEq

/-- `upsert_config` on the entries. -/
def upsertConfig (key value : String) : List (String × String) → List (String × String)
  | [] => [(key, value)]
  | (candidate, existing) :: entries =>
    if candidate = key then (candidate, value) :: entries
    else (candidate, existing) :: upsertConfig key value entries

namespace RunOptions

def new : RunOptions := ⟨none, none, none, none, [], none, []⟩

variable (o : RunOptions)

def withGpuGraphId (id : Int) : RunOptions :=
  { o with configEntries := upsertConfig "gpu_graph_id" (toString id) o.configEntries }

def withDisableEpSync (disabled : Bool) : RunOptions :=
  { o with
    configEntries := upsertConfig "disable_synchronize_execution_providers"
      (if disabled then "1" else "0") o.configEntries }

def withSyncStream (stream : Nat) : RunOptions := { o with syncStream := some stream }

def graphReplay (id : Int) : RunOptions := new.withGpuGraphId id

def enqueued (id : Int) : RunOptions := (graphReplay id).withDisableEpSync true

end RunOptions

/-- A call that configures a native handle. -/
inductive Setting where
  | logSeverity (level : Int)
  | logVerbosity (level : Int)
  | runTag (tag : String)
  | profiling (profilePrefix : String)
  | config (key value : String)
  | syncStream (stream : Nat)
  | activeLoraAdapter (adapter : Nat)
  deriving DecidableEq

/-- `validate_cstring`. -/
def validateCstring (value what : String) : Except Error Unit :=
  if value.toList.contains '\x00' then .error (.local (what ++ " contains a NUL")) else .ok ()

/-- `logging_level_from_i32`. -/
def loggingLevelFromI32 (value : Int) : Except Error Unit :=
  if 0 ≤ value ∧ value ≤ 4 then .ok ()
  else .error (.local ("zrt: unknown OrtLoggingLevel value " ++ toString value))

/-- The checks that `freeze` makes right before a call. -/
def Setting.validate : Setting → Except Error Unit
  | .logSeverity level => loggingLevelFromI32 level
  | .runTag tag => validateCstring tag "run tag"
  | .profiling profilePrefix => validateCstring profilePrefix "profile file prefix"
  | .config key value => match validateCstring key "run config key" with
    | .error e => .error e
    | .ok () => validateCstring value "run config value"
  | .logVerbosity _ | .syncStream _ | .activeLoraAdapter _ => .ok ()

/-- What `freeze` tells the handle, in order. -/
def RunOptions.settings (o : RunOptions) : List Setting :=
  o.logSeverity.toList.map .logSeverity ++ o.logVerbosity.toList.map .logVerbosity ++
  o.runTag.toList.map .runTag ++ o.profilingPrefix.toList.map .profiling ++
  o.configEntries.map (fun entry => .config entry.1 entry.2) ++
  o.syncStream.toList.map .syncStream ++ o.activeLoraAdapters.map .activeLoraAdapter

/-- The outcomes of the native calls of `freeze`: the creation, with whether its pointer is
non-null, and the configuring calls in order. -/
structure FreezeNative where
  create : Except Error Bool
  set : Nat → Except Error Unit

/-- `MaterializedRunOptions`: the handle, as the calls that configured it, and its guards. -/
structure MaterializedRunOptions where
  opts : List Setting
  syncStream : Option Nat
  activeLoraAdapters : List Nat
  deriving DecidableEq

/-- One configuring call. Attaching a stream returns no status. -/
def applySetting (n : FreezeNative) (opts : List Setting) (setting : Setting) :
    Except Error (List Setting) :=
  match setting.validate, setting with
  | .error e, _ => .error e
  | .ok (), .syncStream stream => .ok (opts ++ [.syncStream stream])
  | .ok (), setting => (n.set opts.length).map fun _ => opts ++ [setting]

def RunOptions.freeze (o : RunOptions) (n : FreezeNative) : Except Error MaterializedRunOptions :=
  match n.create with
  | .error e => .error e
  | .ok false => .error (.local "zrt: run options pointer is null")
  | .ok true => (o.settings.foldlM (applySetting n) []).map fun opts =>
      ⟨opts, o.syncStream, o.activeLoraAdapters⟩

variable {o : RunOptions} {n : FreezeNative} {m : MaterializedRunOptions}
  {opts opts' settings : List Setting} {setting : Setting}

/-- A successful call is recorded behind the earlier ones. -/
theorem applySetting_ok (h : applySetting n opts setting = .ok opts') :
    opts' = opts ++ [setting] := by
  unfold applySetting at h
  split at h
  · cases h
  · exact (Except.ok.inj h).symm
  · cases hn : n.set opts.length with
    | error e => simp [hn, Except.map] at h
    | ok _ => simpa [hn, Except.map] using h.symm

theorem foldlM_applySetting (h : settings.foldlM (applySetting n) opts = .ok opts') :
    opts' = opts ++ settings := by
  induction settings generalizing opts with
  | nil => simpa using (Except.ok.inj h).symm
  | cons setting settings ih =>
    rw [List.foldlM_cons] at h
    cases hs : applySetting n opts setting with
    | error e => simp [hs, bind, Except.bind] at h
    | ok opts₁ =>
      obtain rfl := applySetting_ok hs
      rw [ih (by simpa [hs, bind, Except.bind] using h), List.append_assoc, List.singleton_append]

/-- Freezing succeeds only after every configuring call did: the handle was told everything. -/
theorem freeze_ok (h : o.freeze n = .ok m) :
    m = ⟨o.settings, o.syncStream, o.activeLoraAdapters⟩ := by
  unfold RunOptions.freeze at h
  split at h
  · cases h
  · cases h
  · cases hf : o.settings.foldlM (applySetting n) [] with
    | error e => simp [hf, Except.map] at h
    | ok opts =>
      have hopts := foldlM_applySetting hf
      rw [hf] at h
      rw [← Except.ok.inj h, hopts, List.nil_append]

/-- No native call fails. -/
def FreezeNative.success : FreezeNative := ⟨.ok true, fun _ => .ok ()⟩

end Zrt.Options
