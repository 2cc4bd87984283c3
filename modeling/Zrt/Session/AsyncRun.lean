import Zrt.Error
import Zrt.Lts
import Zrt.Refcount

/-! `Session::run_async_owned_inputs` of `session.rs`: what keeps a run alive that ORT has not
completed. -/
namespace Zrt.AsyncRun

open Refcount (Family Ledger Shared)

/-- What ORT reads and writes during a run: the parts of a session, and those of one run. Name
arrays are numbered by the metadata refreshes before them. -/
inductive Resource where
  | nativeSession
  | runOptions
  | nameArrays (refresh : Nat)
  | inHandles (run : Nat)
  | outHandles (run : Nat)
  | ownedInputs (run : Nat)
  deriving DecidableEq

/-- The holders of an `Arc<AsyncState>`. -/
inductive Ref where
  | userData
  | future
  deriving DecidableEq

/-- Where ORT is with a run; it calls back from `pending` only. -/
inductive Phase where
  | failed
  | pending
  | callback
  | returned
  deriving DecidableEq

/-- A run that got as far as its `AsyncState`. `session` is the handle its future borrows, as long
as the caller has the future. -/
structure Run where
  session : Nat
  nameArrays : Nat
  phase : Phase
  state : Shared Ref Resource
  future : Bool
  result : Option (Except Error (List Nat))
  done : Bool

/-- A session, whose handles are the `Session` clones and the resources of it that keep it. -/
structure State where
  inner : Shared Nat Resource
  nameArrays : Nat
  inputCount : Nat
  runs : List Run
  released : Ledger Resource

variable (s : State)

/-- `SessionInner`, in the order its destructor releases. -/
def sessionInner (nameArrays : Nat) : List Resource :=
  [.nativeSession, .nameArrays nameArrays, .runOptions]

/-- `AsyncState`. -/
def asyncState (run : Nat) : List Resource := [.inHandles run, .outHandles run, .ownedInputs run]

def State.new (handle inputCount : Nat) : State where
  inner := .new handle (sessionInner 0)
  nameArrays := 0
  inputCount := inputCount
  runs := []
  released := fun _ => 0

/-- A live future borrows the handle. -/
def State.Borrowed (handle : Nat) : Prop :=
  ∃ run ∈ s.runs, run.future = true ∧ run.session = handle

instance (handle : Nat) : Decidable (s.Borrowed handle) :=
  inferInstanceAs (Decidable (∃ run ∈ s.runs, _))

def checkInputCount (got : Nat) : Except Error Unit :=
  if got = s.inputCount then .ok ()
  else .error (.local s!"zrt: input count mismatch: expected {s.inputCount}, got {got}")

/-- `run_async_owned` with `got` owned inputs, for what `RunAsync` returns. -/
def runAsyncOwned (session got : Nat) (started : Except Error Unit) : State × Except Error Unit :=
  match checkInputCount s got with
  | .error e => (s, .error e)
  | .ok () =>
    let index := s.runs.length
    let state := (Shared.new Ref.future (asyncState index)).clone .userData
    match started with
    | .ok () => ({ s with
        runs := s.runs ++ [⟨session, s.nameArrays, .pending, state, true, none, false⟩] }, .ok ())
    | .error e =>
      -- The reference in `user_data` is recovered; the local one goes with the call.
      let (state, recovered) := state.drop .userData
      let (state, last) := state.drop .future
      ({ s with
        runs := s.runs ++ [⟨session, s.nameArrays, .failed, state, false, none, false⟩]
        released := s.released.add (recovered ++ last) }, .error e)

/-- What `run_async_callback` makes of a non-null status, by what `check` returns on it, and of
non-null outputs, by what collecting them returns unless it panics. -/
def callbackResult (status : Option (Except Error Unit))
    (outputs : Option (Option (Except Error (List Nat)))) : Except Error (List Nat) :=
  match status, outputs with
  | some (.error e), _ => .error e
  | some (.ok ()), _ => .error ⟨1, "RunAsync returned a non-null but Ok status"⟩
  | none, none => .ok []
  | none, some collected => collected.getD (.error ⟨1, "panic in RunAsync callback"⟩)

/-- `AsyncState::complete`. -/
def Run.complete (run : Run) (result : Except Error (List Nat)) : Run :=
  { run with phase := .callback, result := some result, done := true }

/-- `AsyncState::take_result`. -/
def Run.takeResult (run : Run) : Run × Except Error (List Nat) :=
  ({ run with result := none },
    run.result.getD (.error (.local "zrt: async result already consumed")))

/-- `RunFuture::poll`; `none` is `Pending`. -/
def Run.poll (run : Run) : Run × Option (Except Error (List Nat)) :=
  if run.done then (run.takeResult.1, some run.takeResult.2) else (run, none)

/-- A reference to the state of a run goes. -/
def State.dropRef (index : Nat) (run : Run) (ref : Ref) : State :=
  { s with
    runs := s.runs.set index { run with state := (run.state.drop ref).1 }
    released := s.released.add (run.state.drop ref).2 }

/-- `finalize` of a model-editor session on a unique handle, for what its native calls return: the
name arrays are replaced. -/
def finalize (refreshed : Except Error Nat) : State × Except Error Unit :=
  match refreshed with
  | .error e => (s, .error e)
  | .ok inputCount => ({ s with
      inner := { s.inner with contents := sessionInner (s.nameArrays + 1) }
      nameArrays := s.nameArrays + 1
      inputCount
      released := s.released.add [.nameArrays s.nameArrays] }, .ok ())

/-- `letGo` ends the life of a future without its destructor, as `mem::forget` does. -/
inductive Action where
  | clone (handle new : Nat)
  | dropHandle (handle : Nat)
  | finalize (handle : Nat) (refreshed : Except Error Nat)
  | runAsyncOwnedInputs (handle got : Nat) (started : Except Error Unit)
  | callback (run : Nat) (status : Option (Except Error Unit))
      (outputs : Option (Option (Except Error (List Nat))))
  | callbackReturn (run : Nat)
  | poll (run : Nat)
  | dropFuture (run : Nat)
  | letGo (run : Nat)

/-- The steps that compile: a handle that a live future borrows stays, and is not mutated. -/
def step : Action → Option State
  | .clone handle new =>
    if handle ∈ s.inner.holders ∧ new ∉ s.inner.holders then
      some { s with inner := s.inner.clone new }
    else none
  | .dropHandle handle =>
    if handle ∈ s.inner.holders ∧ ¬ s.Borrowed handle then
      some { s with
        inner := (s.inner.drop handle).1
        released := s.released.add (s.inner.drop handle).2 }
    else none
  | .finalize handle refreshed =>
    if handle ∈ s.inner.holders ∧ ¬ s.Borrowed handle then
      if s.inner.holders = {handle} then some (finalize s refreshed).1 else some s
    else none
  | .runAsyncOwnedInputs handle got started =>
    if handle ∈ s.inner.holders then some (runAsyncOwned s handle got started).1 else none
  | .callback index status outputs => s.runs[index]?.bind fun run =>
    if run.phase = .pending then
      some { s with runs := s.runs.set index (run.complete (callbackResult status outputs)) }
    else none
  | .callbackReturn index => s.runs[index]?.bind fun run =>
    if run.phase = .callback then some (s.dropRef index { run with phase := .returned } .userData)
    else none
  | .poll index => s.runs[index]?.bind fun run =>
    if run.future then some { s with runs := s.runs.set index run.poll.1 } else none
  | .dropFuture index => s.runs[index]?.bind fun run =>
    if run.future then some (s.dropRef index { run with future := false } .future) else none
  | .letGo index => s.runs[index]?.bind fun run =>
    if run.future then some { s with runs := s.runs.set index { run with future := false } }
    else none

def asyncLts : Lts.System State Action where
  Initial s := ∃ handle inputCount, s = .new handle inputCount
  Tr s a t := step s a = some t

/-- What ORT was handed for a run. -/
def Run.uses (run : Run) : List Resource := sessionInner run.nameArrays ++ run.state.contents

/-- What ORT uses is alive until it calls back, nothing is released twice, and a run that did not
start is freed. -/
structure KeptAlive (s : State) : Prop where
  pending : ∀ run ∈ s.runs, run.phase = .pending → ∀ x ∈ run.uses, s.released x = 0
  once : ∀ x, s.released x ≤ 1
  failed : ∀ run ∈ s.runs, run.phase = .failed → ∀ x ∈ run.state.contents, s.released x = 1

/-- Before ORT called back, the last handle of the session goes, or its name arrays do. -/
def Abandons (s : State) : Action → Prop
  | .dropHandle handle => s.inner.holders = {handle} ∧ ∃ run ∈ s.runs, run.phase = .pending
  | .finalize handle refreshed => s.inner.holders = {handle} ∧ refreshed.isOk = true ∧
      ∃ run ∈ s.runs, run.phase = .pending
  | _ => False

/-- A run is due the references it uses. -/
structure Run.Referenced (s : State) (run : Run) : Prop where
  userData : run.phase = .pending ∨ run.phase = .callback → .userData ∈ run.state.holders
  future : run.future = true → .future ∈ run.state.holders ∧ run.session ∈ s.inner.holders
  failed : run.phase = .failed → run.state.holders = ∅
  nameArrays : run.nameArrays ≤ s.nameArrays

/-- Everything is accounted for, in every order of steps. -/
structure Accounted (s : State) : Prop where
  contents : s.inner.contents = sessionInner s.nameArrays
  inner : s.inner.Accounted s.released
  replaced : ∀ n < s.nameArrays, s.released (.nameArrays n) = 1
  unmade : ∀ n > s.nameArrays, s.released (.nameArrays n) = 0
  states : Family (fun index x => x ∈ asyncState index) (s.runs.map Run.state) s.released
  runs : ∀ run ∈ s.runs, run.Referenced s

variable {s t : State} {a : Action} {run run' : Run} {index handle : Nat} {ref : Ref}
  {r : List Resource} {x : Resource}

theorem asyncState_nodup : (asyncState index).Nodup := by
  simp [asyncState]

theorem sessionInner_nodup : (sessionInner index).Nodup := by
  simp [sessionInner]

theorem mem_asyncState : x ∈ asyncState index ↔
    x = .inHandles index ∨ x = .outHandles index ∨ x = .ownedInputs index := by
  simp [asyncState]

/-- The parts of one run are neither those of another run nor of a session. -/
theorem asyncState_inj (i j : Nat) (x : Resource) (hi : x ∈ asyncState i) (hj : x ∈ asyncState j) :
    i = j := by
  obtain rfl | rfl | rfl := mem_asyncState.mp hi <;> simpa [mem_asyncState] using hj

theorem sessionInner_not_async (n i : Nat) (hx : x ∈ sessionInner n) : x ∉ asyncState i := by
  intro hi
  obtain rfl | rfl | rfl := mem_asyncState.mp hi <;> simp [sessionInner] at hx

theorem Accounted.once (h : Accounted s) (x : Resource) : s.released x ≤ 1 := by
  cases x with
  | nativeSession => exact h.inner.le_one (h.contents ▸ by simp [sessionInner])
  | runOptions => exact h.inner.le_one (h.contents ▸ by simp [sessionInner])
  | nameArrays n =>
    rcases Nat.lt_trichotomy n s.nameArrays with hlt | rfl | hgt
    · exact (h.replaced n hlt).le
    · exact h.inner.le_one (h.contents ▸ by simp [sessionInner])
    · rw [h.unmade n hgt]
      omega
  | inHandles index => exact h.states.le_one (i := index) (by simp [mem_asyncState])
  | outHandles index => exact h.states.le_one (i := index) (by simp [mem_asyncState])
  | ownedInputs index => exact h.states.le_one (i := index) (by simp [mem_asyncState])

theorem Accounted.state (h : Accounted s) (hrun : run ∈ s.runs) :
    run.state.Accounted s.released := by
  obtain ⟨index, hi⟩ := List.getElem?_of_mem hrun
  exact h.states.accounted index run.state (by simp [hi])

/-- A run that did not start was freed with the call. -/
theorem Accounted.failed (h : Accounted s) (hrun : run ∈ s.runs) (hf : run.phase = .failed)
    (hx : x ∈ run.state.contents) : s.released x = 1 := by
  rw [(h.state hrun).released x hx, if_pos ((h.runs run hrun).failed hf)]

/-- Until ORT called back, the state of a run is untouched. -/
theorem Accounted.pending (h : Accounted s) (hrun : run ∈ s.runs) (hp : run.phase = .pending)
    (hx : x ∈ run.state.contents) : s.released x = 0 :=
  (h.state hrun).held ((h.runs run hrun).userData (.inl hp)) hx

theorem accounted_new {inputCount : Nat} : Accounted (.new handle inputCount) :=
  ⟨rfl, .new sessionInner_nodup fun _ _ => rfl, nofun, fun _ _ => rfl, .nil, nofun⟩

theorem accounted_clone {new : Nat} (h : Accounted s) (hh : handle ∈ s.inner.holders) :
    Accounted { s with inner := s.inner.clone new } where
  contents := h.contents
  inner := h.inner.clone hh
  replaced := h.replaced
  unmade := h.unmade
  states := h.states
  runs run hrun :=
    have hr := h.runs run hrun
    ⟨hr.userData, fun hf => ⟨(hr.future hf).1, Finset.mem_insert_of_mem (hr.future hf).2⟩,
      hr.failed, hr.nameArrays⟩

theorem accounted_dropHandle (h : Accounted s) (hh : handle ∈ s.inner.holders)
    (hb : ¬ s.Borrowed handle) : Accounted { s with
      inner := (s.inner.drop handle).1
      released := s.released.add (s.inner.drop handle).2 } := by
  have hreleased : ∀ x ∈ (s.inner.drop handle).2, x ∈ sessionInner s.nameArrays := fun x hx =>
    h.contents ▸ Shared.drop_released hx
  have hother : ∀ n ≠ s.nameArrays, s.released.add (s.inner.drop handle).2 (.nameArrays n) =
      s.released (.nameArrays n) := by
    intro n hne
    refine Ledger.add_of_notMem ?_
    intro hm
    have hm := hreleased _ hm
    simp [sessionInner, hne] at hm
  refine ⟨h.contents, h.inner.drop hh, ?_, ?_, h.states.frame fun x hx i => sessionInner_not_async _
    i (hreleased x hx), ?_⟩
  · intro n hlt
    exact (hother n (Nat.ne_of_lt hlt)).trans (h.replaced n hlt)
  · intro n hgt
    exact (hother n (Nat.ne_of_gt hgt)).trans (h.unmade n hgt)
  · intro run hrun
    have hr := h.runs run hrun
    refine ⟨hr.userData, fun hf => ⟨(hr.future hf).1, ?_⟩, hr.failed, hr.nameArrays⟩
    refine Finset.mem_erase_of_ne_of_mem ?_ (hr.future hf).2
    rintro rfl
    exact hb ⟨run, hrun, hf, rfl⟩

theorem accounted_finalize {refreshed : Except Error Nat} (h : Accounted s)
    (hh : handle ∈ s.inner.holders) : Accounted (finalize s refreshed).1 := by
  cases refreshed with
  | error e => exact h
  | ok inputCount =>
    have hzero : ∀ x ∈ sessionInner s.nameArrays, s.released x = 0 := fun x hx =>
      h.inner.held hh (h.contents ▸ hx)
    have hreleased : ∀ x, (finalize s (.ok inputCount)).1.released x =
        s.released x + [Resource.nameArrays s.nameArrays].count x := fun _ => rfl
    refine ⟨rfl, ⟨sessionInner_nodup, fun x hx => ?_⟩, fun n hlt => ?_, fun n hgt => ?_,
      h.states.frame (by simp [mem_asyncState]), fun run hrun => ?_⟩
    · refine Eq.trans ?_ (if_neg (Finset.ne_empty_of_mem hh)).symm
      rw [hreleased]
      simp only [finalize, sessionInner, List.mem_cons, List.not_mem_nil, or_false] at hx
      obtain rfl | rfl | rfl := hx
      · simp [hzero .nativeSession (by simp [sessionInner])]
      · simp [h.unmade]
      · simp [hzero .runOptions (by simp [sessionInner])]
    · rw [hreleased]
      rcases Nat.lt_succ_iff_lt_or_eq.mp hlt with hlt | rfl
      · simp [h.replaced n hlt, Nat.ne_of_gt hlt]
      · simp [hzero (.nameArrays s.nameArrays) (by simp [sessionInner])]
    · have hgt : s.nameArrays + 1 < n := hgt
      rw [hreleased]
      simp [h.unmade n (by omega), show s.nameArrays ≠ n by omega]
    · have hr := h.runs run hrun
      exact ⟨hr.userData, hr.future, hr.failed, hr.nameArrays.trans (Nat.le_succ _)⟩

/-- The session does not notice what is released of its runs. -/
theorem accounted_runs {runs : List Run} (h : Accounted s)
    (hr : ∀ x ∈ r, ∃ index, x ∈ asyncState index)
    (hstates : Family (fun index x => x ∈ asyncState index) (runs.map Run.state) (s.released.add r))
    (hruns : ∀ run ∈ runs, run.Referenced s) :
    Accounted { s with runs := runs, released := s.released.add r } := by
  have hsession : ∀ n, Resource.nameArrays n ∉ r := by
    intro n hm
    obtain ⟨index, hi⟩ := hr _ hm
    simp [mem_asyncState] at hi
  refine ⟨h.contents, h.inner.frame ?_, ?_, ?_, hstates, ?_⟩
  · intro x hx hm
    obtain ⟨index, hi⟩ := hr x hm
    exact sessionInner_not_async _ index (h.contents ▸ hx) hi
  · intro n hlt
    exact (Ledger.add_of_notMem (hsession n)).trans (h.replaced n hlt)
  · intro n hgt
    exact (Ledger.add_of_notMem (hsession n)).trans (h.unmade n hgt)
  · intro run hrun
    have hr := hruns run hrun
    exact ⟨hr.userData, hr.future, hr.failed, hr.nameArrays⟩

/-- The two references that a failed start drops release nothing but the state. -/
theorem recovered_released : ∀ x ∈ (((Shared.new Ref.future (asyncState index)).clone
    .userData).drop .userData).2 ++ ((((Shared.new Ref.future (asyncState index)).clone
    .userData).drop .userData).1.drop .future).2, x ∈ asyncState index := by
  intro x hx
  rcases List.mem_append.mp hx with hx | hx <;> exact Shared.drop_released hx

theorem accounted_runAsyncOwned {got : Nat} {started : Except Error Unit} (h : Accounted s)
    (hh : handle ∈ s.inner.holders) : Accounted (runAsyncOwned s handle got started).1 := by
  have hlen : ∀ x ∈ asyncState s.runs.length, x ∈ asyncState (s.runs.map Run.state).length :=
    fun x hx => by simpa using hx
  have hnew := Shared.Accounted.new (h := Ref.future) (l := s.released) asyncState_nodup
    fun x hx => h.states.unmade le_rfl (hlen x hx)
  have hshared := hnew.clone (h := .userData) (Finset.mem_singleton_self Ref.future)
  unfold runAsyncOwned
  split
  · exact h
  · cases started with
    | ok u =>
      have hrun : Run.Referenced s ⟨handle, s.nameArrays, .pending,
          (Shared.new Ref.future (asyncState s.runs.length)).clone .userData, true, none, false⟩ :=
        ⟨fun _ => Finset.mem_insert_self _ _, fun _ =>
          ⟨Finset.mem_insert_of_mem (Finset.mem_singleton_self _), hh⟩, fun hf =>
            (by cases hf), le_rfl⟩
      have hruns := accounted_runs (r := []) h (fun _ hx => by cases hx) ?_
        (List.forall_mem_append.mpr ⟨h.runs, List.forall_mem_singleton.mpr hrun⟩)
      · simpa using hruns
      · rw [List.map_append]
        exact h.states.push asyncState_inj (by simpa using hshared) hlen fun _ hx => by cases hx
    | error e =>
      have hlast := (hshared.drop (Finset.mem_insert_self Ref.userData _)).drop (h := Ref.future)
        (show Ref.future ∈ (insert Ref.userData {Ref.future} : Finset Ref).erase
          .userData by decide)
      rw [Ledger.add_add] at hlast
      refine accounted_runs h (fun x hx => ⟨s.runs.length, ?_⟩) ?_
        (List.forall_mem_append.mpr ⟨h.runs, List.forall_mem_singleton.mpr ⟨?_, ?_, ?_, le_rfl⟩⟩)
      · exact recovered_released x hx
      · rw [List.map_append]
        exact h.states.push asyncState_inj hlast hlen recovered_released
      · rintro (hp | hp) <;> cases hp
      · exact fun hp => by cases hp
      · exact fun _ => show ((insert Ref.userData {Ref.future} : Finset Ref).erase .userData).erase
          .future = ∅ by decide

/-- One run is replaced, and nothing released but its own. -/
theorem accounted_set (h : Accounted s) (hi : s.runs[index]? = some run)
    (hr : ∀ x ∈ r, x ∈ run.state.contents) (hc : run'.state.contents = run.state.contents)
    (hstate : run'.state.Accounted (s.released.add r)) (hrun : run'.Referenced s) :
    Accounted { s with runs := s.runs.set index run', released := s.released.add r } := by
  have hstates : (s.runs.map Run.state)[index]? = some run.state := by simp [hi]
  refine accounted_runs h (fun x hx => ⟨index, ?_⟩) ?_ fun run₁ hm => ?_
  · exact h.states.owned index _ hstates x (hr x hx)
  · rw [List.map_set]
    exact h.states.set asyncState_inj hstates hstate hc hr
  · rcases List.mem_or_eq_of_mem_set hm with hm | rfl
    · exact h.runs run₁ hm
    · exact hrun

/-- One run is replaced, and its state kept. -/
theorem accounted_setRun (h : Accounted s) (hi : s.runs[index]? = some run)
    (hstate : run'.state = run.state) (hrun : run'.Referenced s) :
    Accounted { s with runs := s.runs.set index run' } := by
  have hset := accounted_set (r := []) h hi nofun (congrArg _ hstate) ?_ hrun
  · simpa using hset
  · simpa [hstate] using h.state (List.mem_of_getElem? hi)

theorem accounted_dropRef (h : Accounted s) (hi : s.runs[index]? = some run)
    (hstate : run'.state = run.state) (hrun : run'.Referenced s) (href : ref ∈ run'.state.holders)
    (hu : run'.phase = .pending ∨ run'.phase = .callback → ref ≠ .userData)
    (hf : run'.future = true → ref ≠ .future) : Accounted (s.dropRef index run' ref) := by
  have hdrop := (hstate ▸ h.state (List.mem_of_getElem? hi)).drop href
  refine accounted_set h hi (fun x hx => hstate ▸ Shared.drop_released hx) ?_ hdrop ⟨?_, ?_,
    ?_, hrun.nameArrays⟩
  · show run'.state.contents = _
    rw [hstate]
  · intro hp
    exact Finset.mem_erase_of_ne_of_mem (hu hp).symm (hrun.userData hp)
  · intro hp
    exact ⟨Finset.mem_erase_of_ne_of_mem (hf hp).symm (hrun.future hp).1, (hrun.future hp).2⟩
  · intro hp
    simp [hrun.failed hp] at href

/-- What each step asks, and what it does. -/
inductive Stepped (s : State) : Action → State → Prop where
  | clone {handle new : Nat} (hh : handle ∈ s.inner.holders) :
      Stepped s (.clone handle new) { s with inner := s.inner.clone new }
  | dropHandle {handle : Nat} (hh : handle ∈ s.inner.holders) (hb : ¬ s.Borrowed handle) :
      Stepped s (.dropHandle handle) { s with
        inner := (s.inner.drop handle).1
        released := s.released.add (s.inner.drop handle).2 }
  | finalize {handle : Nat} {refreshed : Except Error Nat} (hh : handle ∈ s.inner.holders)
      (hone : s.inner.holders = {handle}) :
      Stepped s (.finalize handle refreshed) (finalize s refreshed).1
  | shared {handle : Nat} {refreshed : Except Error Nat} (hone : s.inner.holders ≠ {handle}) :
      Stepped s (.finalize handle refreshed) s
  | runAsyncOwnedInputs {handle got : Nat} {started : Except Error Unit}
      (hh : handle ∈ s.inner.holders) : Stepped s (.runAsyncOwnedInputs handle got started)
        (runAsyncOwned s handle got started).1
  | callback {index : Nat} {status : Option (Except Error Unit)}
      {outputs : Option (Option (Except Error (List Nat)))} {run : Run}
      (hi : s.runs[index]? = some run) (hp : run.phase = .pending) :
      Stepped s (.callback index status outputs)
        { s with runs := s.runs.set index (run.complete (callbackResult status outputs)) }
  | callbackReturn {index : Nat} {run : Run} (hi : s.runs[index]? = some run)
      (hp : run.phase = .callback) : Stepped s (.callbackReturn index)
        (s.dropRef index { run with phase := .returned } .userData)
  | poll {index : Nat} {run : Run} (hi : s.runs[index]? = some run) :
      Stepped s (.poll index) { s with runs := s.runs.set index run.poll.1 }
  | dropFuture {index : Nat} {run : Run} (hi : s.runs[index]? = some run)
      (hf : run.future = true) : Stepped s (.dropFuture index)
        (s.dropRef index { run with future := false } .future)
  | letGo {index : Nat} {run : Run} (hi : s.runs[index]? = some run) :
      Stepped s (.letGo index) { s with runs := s.runs.set index { run with future := false } }

theorem step_cases (hs : step s a = some t) : Stepped s a t := by
  cases a with
  | clone handle new =>
    simp only [step, Option.ite_none_right_eq_some, Option.some.injEq] at hs
    obtain ⟨⟨hh, -⟩, rfl⟩ := hs
    exact .clone hh
  | dropHandle handle =>
    simp only [step, Option.ite_none_right_eq_some, Option.some.injEq] at hs
    obtain ⟨⟨hh, hb⟩, rfl⟩ := hs
    exact .dropHandle hh hb
  | finalize handle refreshed =>
    simp only [step, Option.ite_none_right_eq_some] at hs
    obtain ⟨⟨hh, -⟩, hs⟩ := hs
    split at hs
    · rename_i hone
      obtain rfl := Option.some.inj hs
      exact .finalize hh hone
    · rename_i hone
      obtain rfl := Option.some.inj hs
      exact .shared hone
  | runAsyncOwnedInputs handle got started =>
    simp only [step, Option.ite_none_right_eq_some, Option.some.injEq] at hs
    obtain ⟨hh, rfl⟩ := hs
    exact .runAsyncOwnedInputs hh
  | callback index status outputs =>
    simp only [step, Option.bind_eq_some_iff, Option.ite_none_right_eq_some,
      Option.some.injEq] at hs
    obtain ⟨run, hi, hp, rfl⟩ := hs
    exact .callback hi hp
  | callbackReturn index =>
    simp only [step, Option.bind_eq_some_iff, Option.ite_none_right_eq_some,
      Option.some.injEq] at hs
    obtain ⟨run, hi, hp, rfl⟩ := hs
    exact .callbackReturn hi hp
  | poll index =>
    simp only [step, Option.bind_eq_some_iff, Option.ite_none_right_eq_some,
      Option.some.injEq] at hs
    obtain ⟨run, hi, -, rfl⟩ := hs
    exact .poll hi
  | dropFuture index =>
    simp only [step, Option.bind_eq_some_iff, Option.ite_none_right_eq_some,
      Option.some.injEq] at hs
    obtain ⟨run, hi, hf, rfl⟩ := hs
    exact .dropFuture hi hf
  | letGo index =>
    simp only [step, Option.bind_eq_some_iff, Option.ite_none_right_eq_some,
      Option.some.injEq] at hs
    obtain ⟨run, hi, -, rfl⟩ := hs
    exact .letGo hi

/-- Every order of steps keeps the books. -/
theorem accounted_step (h : Accounted s) (hs : step s a = some t) : Accounted t := by
  cases step_cases hs with
  | clone hh => exact accounted_clone h hh
  | dropHandle hh hb => exact accounted_dropHandle h hh hb
  | finalize hh => exact accounted_finalize h hh
  | shared => exact h
  | runAsyncOwnedInputs hh => exact accounted_runAsyncOwned h hh
  | callback hi hp =>
    have hrun := h.runs _ (List.mem_of_getElem? hi)
    exact accounted_setRun h hi rfl ⟨fun _ => hrun.userData (.inl hp), hrun.future,
      fun hf => (by cases hf), hrun.nameArrays⟩
  | callbackReturn hi hp =>
    have hrun := h.runs _ (List.mem_of_getElem? hi)
    refine accounted_dropRef h hi rfl ⟨?_, hrun.future, fun hf => (by cases hf), hrun.nameArrays⟩
      (hrun.userData (.inr hp)) ?_ nofun
    all_goals
      rintro (hp | hp) <;> cases hp
  | poll hi =>
    refine accounted_setRun h hi ?_ ?_
    · unfold Run.poll
      split <;> rfl
    have hrun := h.runs _ (List.mem_of_getElem? hi)
    unfold Run.poll
    split
    · exact ⟨hrun.userData, hrun.future, hrun.failed, hrun.nameArrays⟩
    · exact hrun
  | dropFuture hi hf =>
    have hrun := h.runs _ (List.mem_of_getElem? hi)
    exact accounted_dropRef h hi rfl ⟨hrun.userData, nofun, hrun.failed, hrun.nameArrays⟩
      (hrun.future hf).1 nofun nofun
  | letGo hi =>
    have hrun := h.runs _ (List.mem_of_getElem? hi)
    exact accounted_setRun h hi rfl ⟨hrun.userData, nofun, hrun.failed, hrun.nameArrays⟩

theorem accounted_reachable (h : Lts.Reachable asyncLts s) : Accounted s := by
  apply Lts.invariant_reachable ?_ (fun s a t => accounted_step) h
  rintro s ⟨handle, inputCount, rfl⟩
  exact accounted_new

/-- The session holds what it handed to the runs ORT is still at. -/
def Anchored (s : State) : Prop := ∀ run ∈ s.runs, run.phase = .pending →
  s.inner.holders.Nonempty ∧ run.nameArrays = s.nameArrays

theorem keptAlive_of_anchored (h : Accounted s) (ha : Anchored s) : KeptAlive s := by
  refine ⟨?_, h.once, fun run hrun hf x => h.failed hrun hf⟩
  intro run hrun hp x hx
  rcases List.mem_append.mp hx with hx | hx
  · obtain ⟨⟨handle, hh⟩, hnames⟩ := ha run hrun hp
    exact h.inner.held hh (by rwa [h.contents, ← hnames])
  · exact h.pending hrun hp hx

/-- A pending run of the next state was one before, or its session is at hand. -/
theorem anchored_set {t : State} (ha : Anchored s) (hruns : t.runs = s.runs.set index run')
    (hinner : t.inner = s.inner) (hnames : t.nameArrays = s.nameArrays)
    (hi : s.runs[index]? = some run) (hp : run'.phase = .pending → run.phase = .pending)
    (hn : run'.nameArrays = run.nameArrays) : Anchored t := by
  intro run₁ hrun hpending
  rw [hinner, hnames]
  rcases List.mem_or_eq_of_mem_set (hruns ▸ hrun) with hm | rfl
  · exact ha run₁ hm hpending
  · exact hn ▸ ha run (List.mem_of_getElem? hi) (hp hpending)

theorem anchored_step (ha : Anchored s) (hc : ¬ Abandons s a)
    (hs : step s a = some t) : Anchored t := by
  cases step_cases hs with
  | clone hh => exact fun run hrun hp => ⟨Finset.insert_nonempty _ _, (ha run hrun hp).2⟩
  | dropHandle hh hb =>
    intro run hrun hp
    refine ⟨?_, (ha run hrun hp).2⟩
    by_contra hempty
    refine hc ⟨?_, run, hrun, hp⟩
    have hsub := (Finset.erase_eq_empty_iff _ _).mp (Finset.not_nonempty_iff_eq_empty.mp hempty)
    exact hsub.resolve_left (Finset.ne_empty_of_mem hh)
  | @finalize handle refreshed hh hone =>
    cases refreshed with
    | error e => exact ha
    | ok inputCount => exact fun run hrun hp => absurd ⟨hone, rfl, run, hrun, hp⟩ hc
  | shared => exact ha
  | @runAsyncOwnedInputs handle got started hh =>
    unfold runAsyncOwned
    split
    · exact ha
    · cases started with
      | ok u =>
        intro run hrun hp
        rcases List.mem_append.mp hrun with hrun | hrun
        · exact ha run hrun hp
        · obtain rfl := List.mem_singleton.mp hrun
          exact ⟨⟨handle, hh⟩, rfl⟩
      | error e =>
        intro run hrun hp
        rcases List.mem_append.mp hrun with hrun | hrun
        · exact ha run hrun hp
        · obtain rfl := List.mem_singleton.mp hrun
          cases hp
  | callback hi => exact anchored_set ha rfl rfl rfl hi nofun rfl
  | callbackReturn hi => exact anchored_set ha rfl rfl rfl hi nofun rfl
  | poll hi =>
    refine anchored_set ha rfl rfl rfl hi ?_ ?_
    all_goals
      unfold Run.poll
      split
    · exact id
    · exact id
    · rfl
    · rfl
  | dropFuture hi => exact anchored_set ha rfl rfl rfl hi id rfl
  | letGo hi => exact anchored_set ha rfl rfl rfl hi id rfl

/-- Abandoning a run releases what ORT uses. -/
theorem not_keptAlive_of_abandons (h : Accounted s) (ha : Anchored s) (hc : Abandons s a)
    (hs : step s a = some t) : ¬ KeptAlive t := by
  intro ht
  cases step_cases hs with
  | dropHandle hh =>
    obtain ⟨hone, run, hrun, hp⟩ := hc
    have hzero := ht.pending run hrun hp .nativeSession (by simp [Run.uses, sessionInner])
    have hdrop := (h.inner.drop hh).released .nativeSession (by simp [h.contents, sessionInner])
    rw [if_pos (by simp [Shared.drop, hone])] at hdrop
    exact absurd (hdrop.symm.trans hzero) (by decide)
  | @finalize handle refreshed hh =>
    obtain ⟨-, hok, run, hrun, hp⟩ := hc
    cases refreshed with
    | error e => cases hok
    | ok inputCount =>
      have hzero := ht.pending run hrun hp (.nameArrays run.nameArrays)
        (by simp [Run.uses, sessionInner])
      rw [(ha run hrun hp).2] at hzero
      simp [finalize] at hzero
  | shared hone => exact hone hc.1
  | _ => exact hc

theorem kept_reachable (h : Lts.Reachable (asyncLts.restrict fun s a => ¬ Abandons s a) s) :
    Accounted s ∧ Anchored s := by
  refine ⟨accounted_reachable (Lts.restrict_reachable h), ?_⟩
  apply Lts.invariant_reachable (P := Anchored) ?_ ?_ h
  · rintro s ⟨handle, inputCount, rfl⟩ run hrun
    simp [State.new] at hrun
  · rintro s a t ha ⟨hc, hs⟩
    exact anchored_step ha hc hs

/-- Runs are kept alive up to the step, and only up to the step, that abandons one. -/
theorem owned_run_kept_alive
    (h : Lts.Reachable (asyncLts.restrict fun s a => ¬ Abandons s a) s) :
    KeptAlive s ∧ ∀ a t, step s a = some t → (KeptAlive t ↔ ¬ Abandons s a) := by
  obtain ⟨hacc, hanch⟩ := kept_reachable h
  refine ⟨keptAlive_of_anchored hacc hanch, fun a t hs => ⟨fun ht hc => ?_, fun hc => ?_⟩⟩
  · exact not_keptAlive_of_abandons hacc hanch hc hs ht
  · exact keptAlive_of_anchored (accounted_step hacc hs) (anchored_step hanch hc hs)

/-- The future is dropped while ORT runs; the session is still there. -/
theorem owned_run_kept_alive_dropped : ∃ s : State,
    s.runs.map (fun run => (run.phase, run.future)) = [(.pending, false)] ∧ KeptAlive s := by
  have h0 : Lts.Reachable (asyncLts.restrict fun s a => ¬ Abandons s a) (.new 0 1) :=
    .initial ⟨0, 1, rfl⟩
  have h1 := h0.step (a := Action.runAsyncOwnedInputs 0 1 (.ok ())) ⟨fun h => h, rfl⟩
  have h2 := h1.step (a := Action.dropFuture 0) ⟨fun h => h, rfl⟩
  exact ⟨_, rfl, (owned_run_kept_alive h2).1⟩

/-- The future is dropped, and then the session, while ORT runs. -/
theorem owned_run_kept_alive_fails : ¬ ∀ s, Lts.Reachable asyncLts s → KeptAlive s := by
  intro h
  have h0 : Lts.Reachable asyncLts (.new 0 1) := .initial ⟨0, 1, rfl⟩
  have h1 := h0.step (a := Action.runAsyncOwnedInputs 0 1 (.ok ())) rfl
  have h2 := h1.step (a := Action.dropFuture 0) rfl
  have h3 := h2.step (a := Action.dropHandle 0) rfl
  have hkept := (h _ h3).pending _ (List.mem_singleton_self _) rfl .nativeSession (by decide)
  exact absurd hkept (by decide)

end Zrt.AsyncRun
