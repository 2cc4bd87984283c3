import Mathlib.Data.List.Count
import Zrt.Error
import Zrt.Lts
import Zrt.Refcount

/-! `environment.rs` and `threading.rs`: the callback state of environments, beside the one native
environment of the process. -/
namespace Zrt.Environment

open Refcount (Family Ledger Shared alive)

/-- The state ORT passes back to a callback: the logger and the thread manager of an `EnvInner`,
numbered as created, and the logger of session options. -/
inductive Resource where
  | threadManager (env : Nat)
  | loggerSlot (env : Nat)
  | sessionSlot (slot : Nat)
  deriving DecidableEq

/-- A holder of an `Arc<EnvInner>`: an `Environment`, a session, or another resource that keeps
one, such as an allocator, a device or a stream. -/
inductive Holder where
  | environment (n : Nat)
  | session (n : Nat)
  | resource (n : Nat)
  deriving DecidableEq

/-- A holder of the `Arc<LoggerSlot>` of session options: the options, or ORT, to which
`Arc::into_raw` leaked it. -/
inductive SlotRef where
  | options (n : Nat)
  | ort (n : Nat)
  deriving DecidableEq

/-- The native environment of the process: its references, and the callback state that the call
which created it installed. -/
structure OrtEnv where
  refs : Nat
  callbacks : List Resource
  deriving DecidableEq

/-- The `EnvInner`s and the logger slots of session options that were made so far. -/
structure State where
  envs : List (Shared Holder Resource)
  slots : List (Shared SlotRef Resource)
  ort : Option OrtEnv
  released : Ledger Resource

def State.new : State where
  envs := []
  slots := []
  ort := none
  released := fun _ => 0

variable (s : State)

/-- What `EnvInner` drops after its destructor: `threading`, then `_user_logger`. -/
def envInner (env : Nat) (manager logger : Bool) : List Resource :=
  (if manager then [.threadManager env] else []) ++ if logger then [.loggerSlot env] else []

/-- `CreateEnv*`: only the first call installs its callbacks. -/
def ortCreateEnv (ort : Option OrtEnv) (callbacks : List Resource) : OrtEnv :=
  match ort with
  | none => ⟨1, callbacks⟩
  | some env => { env with refs := env.refs + 1 }

/-- `ReleaseEnv`: the last reference tears the environment down. -/
def ortReleaseEnv (ort : Option OrtEnv) : Option OrtEnv :=
  ort.bind fun env => if env.refs ≤ 1 then none else some { env with refs := env.refs - 1 }

/-- The conversion of the log id to a C string. -/
def checkLogId (logid : String) : Except Error Unit :=
  if logid.toList.contains '\x00' then
    .error (.local "environment log id contains a NUL byte")
  else .ok ()

/-- A constructor once its callback state is boxed: `native` is what the `CreateEnv*` call returns,
with whether its pointer is non-null. A refused call drops its arguments. -/
def create (manager logger : Bool) (checks : Except Error Unit) (logid : String)
    (native : Except Error Bool) : State × Except Error Nat :=
  let index := s.envs.length
  let inner := Shared.new (Holder.environment 0) (envInner index manager logger)
  let failed := { s with
    envs := s.envs ++ [(inner.drop (.environment 0)).1]
    released := s.released.add (inner.drop (.environment 0)).2 }
  match checks.bind fun _ => checkLogId logid, native with
  | .error e, _ => (s, .error e)
  | .ok (), .error e => (failed, .error e)
  | .ok (), .ok false => (failed, .error (.local "zrt: environment pointer is null"))
  | .ok (), .ok true => ({ s with
      envs := s.envs ++ [inner]
      ort := some (ortCreateEnv s.ort inner.contents) }, .ok index)

def newWithLevel := create s false false

def newWithGlobalThreadPools (manager : Bool) := create s manager false

def newWithLogger := create s false true

def newWithLoggerAndGlobalThreadPools (manager : Bool) := create s manager true

/-- `EnvCreationOptions`, without what ORT copies. -/
structure EnvCreationOptions where
  logger : Bool
  threading : Option Bool

def EnvCreationOptions.createEnv (o : EnvCreationOptions) :=
  create s (o.threading.getD false) o.logger

/-- A reference to an `EnvInner` goes; its destructor calls `ReleaseEnv` before the fields drop. -/
def State.dropEnv (env : Nat) (inner : Shared Holder Resource) (h : Holder) : State :=
  { s with
    envs := s.envs.set env (inner.drop h).1
    ort := if (inner.drop h).1.holders = ∅ then ortReleaseEnv s.ort else s.ort
    released := s.released.add (inner.drop h).2 }

/-- A reference to the logger of session options goes. -/
def State.dropSlot (index : Nat) (slot : Shared SlotRef Resource) (ref : SlotRef) : State :=
  { s with
    slots := s.slots.set index (slot.drop ref).1
    released := s.released.add (slot.drop ref).2 }

inductive Action where
  | newWithLevel (checks : Except Error Unit) (logid : String) (native : Except Error Bool)
  | newWithGlobalThreadPools (manager : Bool) (checks : Except Error Unit) (logid : String)
      (native : Except Error Bool)
  | newWithLogger (checks : Except Error Unit) (logid : String) (native : Except Error Bool)
  | newWithLoggerAndGlobalThreadPools (manager : Bool) (checks : Except Error Unit)
      (logid : String) (native : Except Error Bool)
  | newWithOptions (o : EnvCreationOptions) (checks : Except Error Unit) (logid : String)
      (native : Except Error Bool)
  | share (env : Nat) (holder new : Holder)
  | drop (env : Nat) (holder : Holder)
  | withUserLoggingFunction (options : Nat)
  | cloneOptions (slot options new : Nat)
  | dropOptions (slot options : Nat)
  | buildHandleForSession (slot options leaked : Nat)

/-- A clone, a session or another resource is made from a holder; so is a leaked reference. -/
def step : Action → Option State
  | .newWithLevel checks logid native => some (newWithLevel s checks logid native).1
  | .newWithGlobalThreadPools manager checks logid native =>
    some (newWithGlobalThreadPools s manager checks logid native).1
  | .newWithLogger checks logid native => some (newWithLogger s checks logid native).1
  | .newWithLoggerAndGlobalThreadPools manager checks logid native =>
    some (newWithLoggerAndGlobalThreadPools s manager checks logid native).1
  | .newWithOptions o checks logid native => some (o.createEnv s checks logid native).1
  | .share env holder new => s.envs[env]?.bind fun inner =>
    if holder ∈ inner.holders ∧ new ∉ inner.holders then
      some { s with envs := s.envs.set env (inner.clone new) }
    else none
  | .drop env holder => s.envs[env]?.bind fun inner =>
    if holder ∈ inner.holders then some (s.dropEnv env inner holder) else none
  | .withUserLoggingFunction options => some { s with
      slots := s.slots ++ [.new (.options options) [.sessionSlot s.slots.length]] }
  | .cloneOptions index options new => s.slots[index]?.bind fun slot =>
    if .options options ∈ slot.holders ∧ .options new ∉ slot.holders then
      some { s with slots := s.slots.set index (slot.clone (.options new)) }
    else none
  | .dropOptions index options => s.slots[index]?.bind fun slot =>
    if .options options ∈ slot.holders then
      some (s.dropSlot index slot (.options options))
    else none
  | .buildHandleForSession index options leaked => s.slots[index]?.bind fun slot =>
    if .options options ∈ slot.holders ∧ .ort leaked ∉ slot.holders then
      some { s with slots := s.slots.set index (slot.clone (.ort leaked)) }
    else none

def envLts : Lts.System State Action where
  Initial s := s = .new
  Tr s a t := step s a = some t

/-- What ORT may pass to a callback was not freed. -/
structure CallbacksAlive (s : State) : Prop where
  env : ∀ ort, s.ort = some ort → ∀ x ∈ ort.callbacks, s.released x = 0
  session : ∀ slot ∈ s.slots, (∃ n, .ort n ∈ slot.holders) → ∀ x ∈ slot.contents, s.released x = 0

/-- The last handle of the `EnvInner` whose callbacks ORT installed goes, and another one lives. -/
def Outlives (s : State) : Action → Prop
  | .drop env holder => ∃ inner ort, s.envs[env]? = some inner ∧ inner.holders = {holder} ∧
      s.ort = some ort ∧ (∃ x ∈ inner.contents, x ∈ ort.callbacks) ∧
      ∃ other rest, other ≠ env ∧ s.envs[other]? = some rest ∧ rest.holders.Nonempty
  | _ => False

/-- Callback state is accounted for, and the native environment counts the living `EnvInner`s. -/
structure Accounted (s : State) : Prop where
  envs : Family (fun env x => x ∈ envInner env true true) s.envs s.released
  slots : Family (fun slot x => x = .sessionSlot slot) s.slots s.released
  refs : alive s.envs = s.ort.elim 0 OrtEnv.refs
  positive : ∀ ort, s.ort = some ort → 0 < ort.refs
  installed : ∀ ort, s.ort = some ort → ∃ inner ∈ s.envs, ort.callbacks = inner.contents

variable {s t : State} {a : Action} {env index : Nat} {inner : Shared Holder Resource}
  {slot : Shared SlotRef Resource} {x : Resource} {r : List Resource} {h : Holder} {ort : OrtEnv}
  {manager logger : Bool}

theorem mem_envInner : x ∈ envInner env manager logger ↔
    (manager = true ∧ x = .threadManager env) ∨ (logger = true ∧ x = .loggerSlot env) := by
  cases manager <;> cases logger <;> simp [envInner]

theorem envInner_nodup : (envInner env manager logger).Nodup := by
  cases manager <;> cases logger <;> simp [envInner]

theorem envInner_inj (i j : Nat) (x : Resource) (hi : x ∈ envInner i true true)
    (hj : x ∈ envInner j true true) : i = j := by
  rcases mem_envInner.mp hi with ⟨-, rfl⟩ | ⟨-, rfl⟩ <;> simpa [mem_envInner] using hj

theorem sessionSlot_inj (i j : Nat) (x : Resource) (hi : x = .sessionSlot i)
    (hj : x = .sessionSlot j) : i = j := by
  subst hi
  simpa using hj

/-- No logger of session options is part of an environment. -/
theorem envInner_not_slot (hx : x ∈ envInner env true true) (slot : Nat) :
    ¬ x = .sessionSlot slot := by
  rintro rfl
  simp [mem_envInner] at hx

theorem ortCreateEnv_refs {callbacks : List Resource} :
    (ortCreateEnv s.ort callbacks).refs = s.ort.elim 0 OrtEnv.refs + 1 := by
  unfold ortCreateEnv
  cases s.ort <;> rfl

theorem ortReleaseEnv_some (hort : ortReleaseEnv s.ort = some ort) :
    ∃ before, s.ort = some before ∧ 1 < before.refs ∧ ort.refs = before.refs - 1 ∧
      ort.callbacks = before.callbacks := by
  simp only [ortReleaseEnv, Option.bind_eq_some_iff] at hort
  obtain ⟨before, hb, hort⟩ := hort
  split at hort
  · cases hort
  · obtain rfl := Option.some.inj hort
    exact ⟨before, hb, by omega, rfl, rfl⟩

theorem ortReleaseEnv_refs (hs : ∀ ort, s.ort = some ort → 0 < ort.refs) :
    (ortReleaseEnv s.ort).elim 0 OrtEnv.refs = s.ort.elim 0 OrtEnv.refs - 1 := by
  unfold ortReleaseEnv
  cases hort : s.ort with
  | none => rfl
  | some ort =>
    have hpos := hs ort hort
    simp only [Option.bind_some, Option.elim_some]
    split
    · simp only [Option.elim_none]
      omega
    · rfl

/-- A constructor either makes an `EnvInner`, or drops what it was to hold, or its arguments. -/
theorem create_cases (manager logger : Bool) (checks : Except Error Unit) (logid : String)
    (native : Except Error Bool) :
    (create s manager logger checks logid native).1 = s ∨
    (create s manager logger checks logid native).1 = { s with
      envs := s.envs ++ [((Shared.new (Holder.environment 0) (envInner s.envs.length manager
        logger)).drop (.environment 0)).1]
      released := s.released.add ((Shared.new (Holder.environment 0) (envInner s.envs.length
        manager logger)).drop (.environment 0)).2 } ∨
    (create s manager logger checks logid native).1 = { s with
      envs := s.envs ++ [.new (.environment 0) (envInner s.envs.length manager logger)]
      ort := some (ortCreateEnv s.ort (envInner s.envs.length manager logger)) } := by
  unfold create
  split
  · exact .inl rfl
  · exact .inr (.inl rfl)
  · exact .inr (.inl rfl)
  · exact .inr (.inr rfl)

theorem accounted_create {checks : Except Error Unit} {logid : String} {native : Except Error Bool}
    (hs : Accounted s) : Accounted (create s manager logger checks logid native).1 := by
  have hown : ∀ x ∈ envInner s.envs.length manager logger,
      x ∈ envInner s.envs.length true true := by
    intro x hx
    rcases mem_envInner.mp hx with ⟨-, rfl⟩ | ⟨-, rfl⟩ <;> simp [mem_envInner]
  rcases create_cases (s := s) manager logger checks logid native with
    he | he | he <;> rw [he]
  · exact hs
  · have hnew := Shared.Accounted.new (h := Holder.environment 0) (l := s.released) envInner_nodup
      fun x hx => hs.envs.unmade le_rfl (hown x hx)
    refine ⟨hs.envs.push envInner_inj (hnew.drop (Finset.mem_singleton_self _)) hown ?_,
      hs.slots.frame ?_, ?_, hs.positive, ?_⟩
    · intro x hx
      rw [Shared.drop_contents]
      exact Shared.drop_released hx
    · intro x hx slot
      exact envInner_not_slot (hown x (Shared.drop_released hx)) slot
    · rw [Refcount.alive_append, if_pos (by simp [Shared.drop, Shared.new])]
      exact hs.refs
    · intro ort hort
      obtain ⟨inner, hi, hc⟩ := hs.installed ort hort
      exact ⟨inner, List.mem_append_left _ hi, hc⟩
  · refine ⟨hs.envs.new envInner_inj envInner_nodup hown, hs.slots, ?_, ?_, ?_⟩
    · rw [Refcount.alive_append, hs.refs]
      exact ortCreateEnv_refs.symm
    · rintro ort hort
      obtain rfl := Option.some.inj hort
      rw [ortCreateEnv_refs]
      omega
    · rintro ort hort
      obtain rfl := Option.some.inj hort
      cases hort : s.ort with
      | none => exact ⟨_, List.mem_append_right _ (List.mem_singleton_self _), rfl⟩
      | some before =>
        obtain ⟨inner, hi, hc⟩ := hs.installed before hort
        exact ⟨inner, List.mem_append_left _ hi, hc⟩

theorem installed_set {ort : OrtEnv} (hi : s.envs[env]? = some inner)
    {inner' : Shared Holder Resource} (hc : inner'.contents = inner.contents)
    (h : ∃ inner ∈ s.envs, ort.callbacks = inner.contents) :
    ∃ inner ∈ s.envs.set env inner', ort.callbacks = inner.contents := by
  obtain ⟨inner₁, hm, he⟩ := h
  obtain ⟨j, hj⟩ := List.getElem?_of_mem hm
  by_cases hne : env = j
  · subst hne
    obtain rfl := Option.some.inj (hi.symm.trans hj)
    refine ⟨inner', ?_, he.trans hc.symm⟩
    exact List.mem_set (List.getElem?_eq_some_iff.mp hi).1 _
  · refine ⟨inner₁, ?_, he⟩
    rw [← List.getElem?_set_ne hne] at hj
    exact List.mem_of_getElem? hj

theorem accounted_share (hs : Accounted s) (hi : s.envs[env]? = some inner)
    (hh : h ∈ inner.holders) (new : Holder) :
    Accounted { s with envs := s.envs.set env (inner.clone new) } := by
  refine ⟨hs.envs.clone envInner_inj hi hh, hs.slots, ?_, hs.positive,
    fun ort hort => installed_set hi rfl (hs.installed ort hort)⟩
  have halive := Refcount.alive_set (p := inner.clone new) hi (Finset.ne_empty_of_mem hh)
  rw [if_neg (show (inner.clone new).holders ≠ ∅ from Finset.insert_ne_empty _ _)] at halive
  exact halive.trans hs.refs

theorem accounted_dropEnv (hs : Accounted s) (hi : s.envs[env]? = some inner)
    (hh : h ∈ inner.holders) : Accounted (s.dropEnv env inner h) := by
  have halive := Refcount.alive_set (p := (inner.drop h).1) hi (Finset.ne_empty_of_mem hh)
  refine ⟨hs.envs.drop envInner_inj hi hh, hs.slots.frame ?_, ?_, ?_,
    fun ort hort => installed_set hi rfl ?_⟩
  · intro x hx slot
    exact envInner_not_slot (hs.envs.owned env inner hi x (Shared.drop_released hx)) slot
  · by_cases hlast : (inner.drop h).1.holders = ∅
    · simp only [State.dropEnv, if_pos hlast, ortReleaseEnv_refs hs.positive, ← hs.refs] at halive ⊢
      omega
    · simp only [State.dropEnv, if_neg hlast, ← hs.refs] at halive ⊢
      omega
  · intro ort hort
    simp only [State.dropEnv] at hort
    split at hort
    · obtain ⟨before, -, hlt, hr, -⟩ := ortReleaseEnv_some hort
      omega
    · exact hs.positive ort hort
  · simp only [State.dropEnv] at hort
    split at hort
    · obtain ⟨before, hb, -, -, hc⟩ := ortReleaseEnv_some hort
      exact hc ▸ hs.installed before hb
    · exact hs.installed ort hort

/-- The environments do not notice what becomes of the loggers of session options. -/
theorem accounted_slots {slots : List (Shared SlotRef Resource)} (hs : Accounted s)
    (hr : ∀ x ∈ r, ∃ slot, x = .sessionSlot slot)
    (hslots : Family (fun slot x => x = .sessionSlot slot) slots (s.released.add r)) :
    Accounted { s with slots := slots, released := s.released.add r } := by
  refine ⟨hs.envs.frame ?_, hslots, hs.refs, hs.positive, hs.installed⟩
  intro x hx env hm
  obtain ⟨slot, rfl⟩ := hr x hx
  exact envInner_not_slot hm slot rfl

theorem accounted_setSlots {slots : List (Shared SlotRef Resource)} (hs : Accounted s)
    (hslots : Family (fun slot x => x = .sessionSlot slot) slots s.released) :
    Accounted { s with slots := slots } := by
  have hset := accounted_slots (r := []) hs nofun (by simpa using hslots)
  simpa using hset

/-- What each step asks, and what it does; the constructors of environments differ in what they
create only. -/
inductive Stepped (s : State) : Action → State → Prop where
  | create {a : Action} {manager logger : Bool} {checks : Except Error Unit} {logid : String}
      {native : Except Error Bool} (hc : ¬ Outlives s a) :
      Stepped s a (create s manager logger checks logid native).1
  | share {env : Nat} {holder new : Holder} {inner : Shared Holder Resource}
      (hi : s.envs[env]? = some inner) (hh : holder ∈ inner.holders) :
      Stepped s (.share env holder new) { s with envs := s.envs.set env (inner.clone new) }
  | drop {env : Nat} {holder : Holder} {inner : Shared Holder Resource}
      (hi : s.envs[env]? = some inner) (hh : holder ∈ inner.holders) :
      Stepped s (.drop env holder) (s.dropEnv env inner holder)
  | withUserLoggingFunction {options : Nat} : Stepped s (.withUserLoggingFunction options)
      { s with slots := s.slots ++ [.new (.options options) [.sessionSlot s.slots.length]] }
  | cloneOptions {index options new : Nat} {slot : Shared SlotRef Resource}
      (hi : s.slots[index]? = some slot) (hh : .options options ∈ slot.holders) :
      Stepped s (.cloneOptions index options new)
        { s with slots := s.slots.set index (slot.clone (.options new)) }
  | dropOptions {index options : Nat} {slot : Shared SlotRef Resource}
      (hi : s.slots[index]? = some slot) (hh : .options options ∈ slot.holders) :
      Stepped s (.dropOptions index options) (s.dropSlot index slot (.options options))
  | buildHandleForSession {index options leaked : Nat} {slot : Shared SlotRef Resource}
      (hi : s.slots[index]? = some slot) (hh : .options options ∈ slot.holders) :
      Stepped s (.buildHandleForSession index options leaked)
        { s with slots := s.slots.set index (slot.clone (.ort leaked)) }

theorem step_cases (hst : step s a = some t) : Stepped s a t := by
  cases a with
  | newWithLevel | newWithGlobalThreadPools | newWithLogger | newWithLoggerAndGlobalThreadPools
  | newWithOptions =>
    obtain rfl := Option.some.inj hst
    exact .create fun hc => hc
  | share env holder new =>
    simp only [step, Option.bind_eq_some_iff, Option.ite_none_right_eq_some,
      Option.some.injEq] at hst
    obtain ⟨inner, hi, ⟨hh, -⟩, rfl⟩ := hst
    exact .share hi hh
  | drop env holder =>
    simp only [step, Option.bind_eq_some_iff, Option.ite_none_right_eq_some,
      Option.some.injEq] at hst
    obtain ⟨inner, hi, hh, rfl⟩ := hst
    exact .drop hi hh
  | withUserLoggingFunction options =>
    obtain rfl := Option.some.inj hst
    exact .withUserLoggingFunction
  | cloneOptions index options new =>
    simp only [step, Option.bind_eq_some_iff, Option.ite_none_right_eq_some,
      Option.some.injEq] at hst
    obtain ⟨slot, hi, ⟨hh, -⟩, rfl⟩ := hst
    exact .cloneOptions hi hh
  | dropOptions index options =>
    simp only [step, Option.bind_eq_some_iff, Option.ite_none_right_eq_some,
      Option.some.injEq] at hst
    obtain ⟨slot, hi, hh, rfl⟩ := hst
    exact .dropOptions hi hh
  | buildHandleForSession index options leaked =>
    simp only [step, Option.bind_eq_some_iff, Option.ite_none_right_eq_some,
      Option.some.injEq] at hst
    obtain ⟨slot, hi, ⟨hh, -⟩, rfl⟩ := hst
    exact .buildHandleForSession hi hh

theorem accounted_step (hs : Accounted s) (hst : step s a = some t) : Accounted t := by
  cases step_cases hst with
  | create => exact accounted_create hs
  | @share env holder new inner hi hh => exact accounted_share hs hi hh new
  | drop hi hh => exact accounted_dropEnv hs hi hh
  | withUserLoggingFunction =>
    exact accounted_setSlots hs (hs.slots.new sessionSlot_inj (by simp) (by simp))
  | cloneOptions hi hh => exact accounted_setSlots hs (hs.slots.clone sessionSlot_inj hi hh)
  | @dropOptions index options slot hi hh =>
    refine accounted_slots hs (fun x hx => ⟨index, ?_⟩) (hs.slots.drop sessionSlot_inj hi hh)
    exact hs.slots.owned index slot hi x (Shared.drop_released hx)
  | buildHandleForSession hi hh =>
    exact accounted_setSlots hs (hs.slots.clone sessionSlot_inj hi hh)

theorem accounted_reachable (hr : Lts.Reachable envLts s) : Accounted s := by
  apply Lts.invariant_reachable ?_ (fun s a t => accounted_step) hr
  rintro s rfl
  exact ⟨.nil, .nil, rfl, nofun, nofun⟩

/-- The `EnvInner` whose callbacks the native environment installed is alive. -/
def Anchored (s : State) : Prop := ∀ ort, s.ort = some ort → ∀ x ∈ ort.callbacks,
  ∀ inner ∈ s.envs, x ∈ inner.contents → inner.holders.Nonempty

theorem callbacksAlive_of_anchored (hs : Accounted s) (ha : Anchored s) : CallbacksAlive s := by
  refine ⟨?_, ?_⟩
  · intro ort hort x hx
    obtain ⟨inner, hm, hc⟩ := hs.installed ort hort
    obtain ⟨i, hi⟩ := List.getElem?_of_mem hm
    obtain ⟨h, hh⟩ := ha ort hort x hx inner hm (hc ▸ hx)
    exact (hs.envs.accounted i inner hi).held hh (hc ▸ hx)
  · intro slot hm hleaked x hx
    obtain ⟨i, hi⟩ := List.getElem?_of_mem hm
    obtain ⟨n, hn⟩ := hleaked
    exact (hs.slots.accounted i slot hi).held hn hx

/-- Installed callbacks are those of an `EnvInner` that was made before. -/
theorem Accounted.callbacks (hs : Accounted s) (hort : s.ort = some ort) (hx : x ∈ ort.callbacks) :
    ∃ i < s.envs.length, x ∈ envInner i true true := by
  obtain ⟨inner, hm, hc⟩ := hs.installed ort hort
  obtain ⟨i, hi⟩ := List.getElem?_of_mem hm
  exact ⟨i, (List.getElem?_eq_some_iff.mp hi).1, hs.envs.owned i inner hi x (hc ▸ hx)⟩

theorem Accounted.not_new (hs : Accounted s) (hort : s.ort = some ort) (hx : x ∈ ort.callbacks) :
    x ∉ envInner s.envs.length manager logger := by
  intro hm
  obtain ⟨i, hlt, hi⟩ := hs.callbacks hort hx
  have hnew : x ∈ envInner s.envs.length true true := by
    rcases mem_envInner.mp hm with ⟨-, rfl⟩ | ⟨-, rfl⟩ <;> simp [mem_envInner]
  exact absurd (envInner_inj i _ x hi hnew) (Nat.ne_of_lt hlt)

theorem anchored_create {checks : Except Error Unit} {logid : String} {native : Except Error Bool}
    (hs : Accounted s) (ha : Anchored s) :
    Anchored (create s manager logger checks logid native).1 := by
  rcases create_cases (s := s) manager logger checks logid native with he | he | he <;> rw [he]
  · exact ha
  · intro ort hort x hx inner hm hc
    rcases List.mem_append.mp hm with hm | hm
    · exact ha ort hort x hx inner hm hc
    · obtain rfl := List.mem_singleton.mp hm
      exact absurd hc (hs.not_new hort hx)
  · intro ort hort x hx inner hm hc
    rcases List.mem_append.mp hm with hm | hm
    · obtain rfl := Option.some.inj hort
      cases hb : s.ort with
      | none =>
        simp only [ortCreateEnv, hb] at hx
        obtain ⟨i, hi⟩ := List.getElem?_of_mem hm
        have hold := hs.envs.owned i inner hi x hc
        have hnew : x ∈ envInner s.envs.length true true := by
          rcases mem_envInner.mp hx with ⟨-, rfl⟩ | ⟨-, rfl⟩ <;> simp [mem_envInner]
        exact absurd (envInner_inj i _ x hold hnew)
          (Nat.ne_of_lt (List.getElem?_eq_some_iff.mp hi).1)
      | some before =>
        simp only [ortCreateEnv, hb] at hx
        exact ha before hb x hx inner hm hc
    · obtain rfl := List.mem_singleton.mp hm
      exact Finset.singleton_nonempty _

theorem anchored_dropEnv {holder : Holder} (hs : Accounted s) (ha : Anchored s)
    (hi : s.envs[env]? = some inner) (hh : holder ∈ inner.holders)
    (hc : ¬ Outlives s (.drop env holder)) : Anchored (s.dropEnv env inner holder) := by
  intro ort hort x hx inner₁ hm hxc
  obtain ⟨before, hb, hcallbacks, hother⟩ : ∃ before, s.ort = some before ∧
      x ∈ before.callbacks ∧ ((inner.drop holder).1.holders = ∅ → 1 < before.refs) := by
    simp only [State.dropEnv] at hort
    split at hort
    · obtain ⟨before, hb, hlt, -, he⟩ := ortReleaseEnv_some hort
      exact ⟨before, hb, he ▸ hx, fun _ => hlt⟩
    · exact ⟨ort, hort, hx, fun h => absurd h ‹_›⟩
  rcases List.mem_or_eq_of_mem_set hm with hm | rfl
  · exact ha before hb x hcallbacks inner₁ hm hxc
  · rw [Finset.nonempty_iff_ne_empty]
    intro hlast
    have hone : inner.holders = {holder} :=
      ((Finset.erase_eq_empty_iff _ _).mp hlast).resolve_left (Finset.ne_empty_of_mem hh)
    refine hc ⟨inner, before, hi, hone, hb, ⟨x, hxc, hcallbacks⟩, ?_⟩
    refine (Refcount.alive_one_lt hi (Finset.ne_empty_of_mem hh)).mp ?_
    rw [hs.refs, hb]
    exact hother hlast

theorem anchored_step (hs : Accounted s) (ha : Anchored s) (hc : ¬ Outlives s a)
    (hst : step s a = some t) : Anchored t := by
  cases step_cases hst with
  | create => exact anchored_create hs ha
  | share =>
    intro ort hort x hx inner hm hxc
    rcases List.mem_or_eq_of_mem_set hm with hm | rfl
    · exact ha ort hort x hx inner hm hxc
    · exact Finset.insert_nonempty _ _
  | drop hi hh => exact anchored_dropEnv hs ha hi hh hc
  | withUserLoggingFunction | cloneOptions | dropOptions | buildHandleForSession => exact ha

/-- Callback state that outlives its `EnvInner` in the native environment is freed under it. -/
theorem not_callbacksAlive_of_outlives (hs : Accounted s) (hc : Outlives s a)
    (hst : step s a = some t) : ¬ CallbacksAlive t := by
  intro ht
  cases step_cases hst with
  | create hnot => exact hnot hc
  | @drop env holder inner hi hh =>
    obtain ⟨inner', ort, hi', hone, hort, ⟨x, hxc, hx⟩, hother⟩ := hc
    obtain rfl := Option.some.inj (hi.symm.trans hi')
    have hlast : (inner.drop holder).1.holders = ∅ := by simp [Shared.drop, hone]
    have hrefs := (Refcount.alive_one_lt hi (Finset.ne_empty_of_mem hh)).mpr hother
    simp only [hs.refs, hort, Option.elim_some] at hrefs
    have hzero := ht.env { ort with refs := ort.refs - 1 } (by
      simp [State.dropEnv, hlast, ortReleaseEnv, hort, Nat.not_le.mpr hrefs]) x hx
    have hdrop := ((hs.envs.accounted env inner hi).drop hh).released x hxc
    rw [if_pos hlast] at hdrop
    exact absurd (hdrop.symm.trans hzero) (by decide)
  | _ => exact hc

theorem alive_reachable (hr : Lts.Reachable (envLts.restrict fun s a => ¬ Outlives s a) s) :
    Accounted s ∧ Anchored s := by
  refine ⟨accounted_reachable (Lts.restrict_reachable hr), ?_⟩
  apply Lts.invariant_of_reachable (P := Anchored) ?_ ?_ hr
  · rintro s rfl ort hort
    cases hort
  · rintro s a t hr ha ⟨hc, hst⟩
    exact anchored_step (accounted_reachable (Lts.restrict_reachable hr)) ha hc hst

/-- Callback state is alive up to the step, and only up to the step, that lets the native
environment outlive it. -/
theorem callbacks_alive (hr : Lts.Reachable (envLts.restrict fun s a => ¬ Outlives s a) s) :
    CallbacksAlive s ∧ ∀ a t, step s a = some t → (CallbacksAlive t ↔ ¬ Outlives s a) := by
  obtain ⟨hs, ha⟩ := alive_reachable hr
  refine ⟨callbacksAlive_of_anchored hs ha, fun a t hst => ⟨fun ht hc => ?_, fun hc => ?_⟩⟩
  · exact not_callbacksAlive_of_outlives hs hc hst ht
  · exact callbacksAlive_of_anchored (accounted_step hs hst) (anchored_step hs ha hc hst)

/-- The environment without a logger goes first. -/
theorem callbacks_alive_second : ∃ s : State, s.ort = some ⟨1, [.loggerSlot 0]⟩ ∧
    CallbacksAlive s := by
  have h0 : Lts.Reachable (envLts.restrict fun s a => ¬ Outlives s a) .new := .initial rfl
  have h1 := h0.step (a := Action.newWithLogger (.ok ()) "zrt" (.ok true)) ⟨fun h => h, rfl⟩
  have h2 := h1.step (a := Action.newWithLevel (.ok ()) "zrt" (.ok true)) ⟨fun h => h, rfl⟩
  have h3 := h2.step (a := Action.drop 1 (.environment 0)) ⟨?_, rfl⟩
  · exact ⟨_, by decide, (callbacks_alive h3).1⟩
  · rintro ⟨inner, ort, hi, -, hort, ⟨x, hx, -⟩, -⟩
    obtain rfl := Option.some.inj hi
    simp [Shared.new, envInner] at hx

/-- The environment with the logger goes first. -/
theorem callbacks_alive_fails : ¬ ∀ s, Lts.Reachable envLts s → CallbacksAlive s := by
  intro h
  have h0 : Lts.Reachable envLts .new := .initial rfl
  have h1 := h0.step (a := Action.newWithLogger (.ok ()) "zrt" (.ok true)) rfl
  have h2 := h1.step (a := Action.newWithLevel (.ok ()) "zrt" (.ok true)) rfl
  have h3 := h2.step (a := Action.drop 0 (.environment 0)) rfl
  have halive := (h _ h3).env ⟨1, [.loggerSlot 0]⟩ (by decide) (.loggerSlot 0) (by decide)
  exact absurd halive (by decide)

end Zrt.Environment
