import Zrt.Lane.Access
import Zrt.Lane.Graph
import Zrt.RunOptions

/-! The frozen run options of a lane, and its lease, across the setters that replace them. -/
namespace Zrt.Lane.Handles

open Options (FreezeNative MaterializedRunOptions Setting)

/-- `captured_graph_leases` of a session: the lease of each annotation id, numbered as created. -/
structure Leases where
  leases : Int → Option Nat
  created : Nat

def Leases.capturedGraphLease (s : Leases) (id : Int) : Leases × Nat :=
  match s.leases id with
  | some lease => (s, lease)
  | none => (⟨Function.update s.leases id (some s.created), s.created + 1⟩, s.created)

/-- A lane with its native run options and its lease, which `lane` only names, and its session. -/
structure State where
  lane : ServingLane
  runOpts : Option MaterializedRunOptions
  enqueuedRunOpts : MaterializedRunOptions
  graphLease : Option Nat
  session : Leases

variable (f : Features) (s : State)

/-- `(synchronized.freeze()?, enqueued.freeze()?)`. -/
def freezeBoth (synchronized enqueued : Options.RunOptions) (n₁ n₂ : FreezeNative) :
    Except Error (MaterializedRunOptions × MaterializedRunOptions) :=
  match synchronized.freeze n₁ with
  | .error e => .error e
  | .ok synchronized => (enqueued.freeze n₂).map fun enqueued => (synchronized, enqueued)

/-- `materialize_run_options`: `n₁` are the native outcomes of the first freeze and `n₂` those of
the second. -/
def materializeRunOptions (graphId : Option Int) (syncStream : Option Nat)
    (n₁ n₂ : FreezeNative) : Except Error (MaterializedRunOptions × MaterializedRunOptions) :=
  let synchronized := match graphId with
    | some id => Options.RunOptions.graphReplay id
    | none => .new
  let enqueued := match graphId with
    | some id => Options.RunOptions.enqueued id
    | none => Options.RunOptions.new.withDisableEpSync true
  let synchronized := match syncStream with
    | some stream => synchronized.withSyncStream stream
    | none => synchronized
  let enqueued := match syncStream with
    | some stream => enqueued.withSyncStream stream
    | none => enqueued
  freezeBoth synchronized enqueued n₁ n₂

def setGpuGraphId (id : Int) (n₁ n₂ : FreezeNative) : State × Except Error Unit :=
  let syncStream := if f.ep then s.lane.syncStream else none
  match (ensureIdle s.lane).2.bind fun _ => (ensureGraphIdAssignable s.lane).2 with
  | .error e => (s, .error e)
  | .ok () => match materializeRunOptions (some id) syncStream n₁ n₂ with
    | .error e => (s, .error e)
    | .ok (synchronized, enqueued) =>
      let (session, lease) := s.session.capturedGraphLease id
      ({ lane := { s.lane with
          runOpts := some { RunOptions.graphReplay id with syncStream }
          enqueuedRunOpts := { RunOptions.enqueued id with syncStream }
          graphLease := some id
          graphId := some id
          graphCaptured := false }
         runOpts := some synchronized
         enqueuedRunOpts := enqueued
         graphLease := some lease
         session }, .ok ())

/-- `set_sync_stream`, for a stream that does or does not share the session's environment. -/
def setSyncStream (stream : Nat) (sharesEnvGuard : Bool) (n₁ n₂ : FreezeNative) :
    State × Except Error Unit :=
  match (ensureIdle s.lane).2 with
  | .error e => (s, .error e)
  | .ok () =>
    if sharesEnvGuard then
      match materializeRunOptions s.lane.graphId (some stream) n₁ n₂ with
      | .error e => (s, .error e)
      | .ok (synchronized, enqueued) => ({ s with
          lane := { s.lane with
            runOpts := some ⟨s.lane.graphId, false, some stream⟩
            enqueuedRunOpts := ⟨s.lane.graphId, true, some stream⟩
            syncStream := some stream }
          runOpts := some synchronized
          enqueuedRunOpts := enqueued }, .ok ())
    else (s, .error (.local "SyncStream belongs to a different Environment"))

/-- Calls on the lane, and requests for a lease of the session by other lanes or a release. -/
inductive Action where
  | op (op : Op) (n : Native)
  | runUnsynchronized (n : Native)
  | setGpuGraphId (id : Int) (n₁ n₂ : FreezeNative)
  | setSyncStream (stream : Nat) (sharesEnvGuard : Bool) (n₁ n₂ : FreezeNative)
  | capturedGraphLease (id : Int)

/-- `set_sync_stream` exists with the `ep` feature only. -/
def step : Action → State × Except Error Unit
  | .op op n => ({ s with lane := op.exec f s.lane n }, .ok ())
  | .runUnsynchronized n => ({ s with lane := (Access.runUnsynchronized s.lane n).1 }, .ok ())
  | .setGpuGraphId id n₁ n₂ => setGpuGraphId f s id n₁ n₂
  | .setSyncStream stream shares n₁ n₂ =>
    if f.ep then setSyncStream s stream shares n₁ n₂ else (s, .ok ())
  | .capturedGraphLease id => ({ s with session := (s.session.capturedGraphLease id).1 }, .ok ())

/-- The setters, as the lane without its handles has them, are no calls here. -/
def Action.Allowed : Action → Prop
  | .op (.setGpuGraphId _) _ | .op (.setSyncStream ..) _ => False
  | _ => True

/-- A lane starts with no run options but those of its enqueued runs, which its constructor
froze. -/
def handlesLts : Lts.System State Action where
  Initial s := ∃ deviceId n m, (deviceId ≠ none → f.cuda = true) ∧
    (Options.RunOptions.new.withDisableEpSync true).freeze n = .ok m ∧
    s.lane = .new deviceId ∧ s.runOpts = none ∧ s.enqueuedRunOpts = m ∧ s.graphLease = none
  Tr s a t := a.Allowed ∧ (step f s a).1 = t

/-- The action calls `RunWithBinding` on the lane, with success. -/
def Runs (s : State) : Action → Prop
  | .op op n => op.Issues f s.lane n ∧ n.runWithBinding = .ok ()
  | _ => False

/-- What frozen options say: the entries, and the stream the handle keeps alive. -/
def described (graphId : Option Int) (disableEpSync : Bool) (syncStream : Option Nat) :
    MaterializedRunOptions where
  opts := graphId.toList.map (fun id => .config "gpu_graph_id" (toString id)) ++
    (if disableEpSync then [.config "disable_synchronize_execution_providers" "1"] else []) ++
    syncStream.toList.map .syncStream
  syncStream := syncStream
  activeLoraAdapters := []

/-- The handles say what the lane recorded, and the lease is the session's. -/
structure Described (s : State) : Prop where
  default : s.runOpts = none → s.lane.graphId = none ∧ s.lane.syncStream = none
  runOpts : ∀ m, s.runOpts = some m → m = described s.lane.graphId false s.lane.syncStream
  enqueuedRunOpts : s.enqueuedRunOpts = described s.lane.graphId true s.lane.syncStream
  graphLease : s.graphLease = s.lane.graphId.bind s.session.leases
  leased : s.graphLease.isSome = s.lane.graphId.isSome

variable {f : Features} {s t : State} {a : Action} {n : Native} {n₁ n₂ : FreezeNative}
  {graphId : Option Int} {syncStream : Option Nat} {m m' : MaterializedRunOptions}

theorem described_default {n : FreezeNative}
    (h : (Options.RunOptions.new.withDisableEpSync true).freeze n = .ok m) :
    m = described none true none := by
  rw [Options.freeze_ok h]
  rfl

theorem freezeBoth_ok {o o' : Options.RunOptions} (h : freezeBoth o o' n₁ n₂ = .ok (m, m')) :
    m = ⟨o.settings, o.syncStream, o.activeLoraAdapters⟩ ∧
      m' = ⟨o'.settings, o'.syncStream, o'.activeLoraAdapters⟩ := by
  unfold freezeBoth at h
  cases hm : o.freeze n₁ with
  | error e => simp [hm] at h
  | ok made =>
    cases hm' : o'.freeze n₂ with
    | error e => simp [hm, hm', Except.map] at h
    | ok made' =>
      simp only [hm, hm', Except.map, Except.ok.injEq, Prod.mk.injEq] at h
      exact ⟨h.1 ▸ Options.freeze_ok hm, h.2 ▸ Options.freeze_ok hm'⟩

/-- Both freezes succeeded, each on all it was given. -/
theorem materializeRunOptions_ok
    (h : materializeRunOptions graphId syncStream n₁ n₂ = .ok (m, m')) :
    m = described graphId false syncStream ∧ m' = described graphId true syncStream := by
  obtain ⟨rfl, rfl⟩ := freezeBoth_ok h
  cases graphId <;> cases syncStream <;> exact ⟨rfl, rfl⟩

theorem setGpuGraphId_cases (f : Features) (s : State) (id : Int) (n₁ n₂ : FreezeNative) :
    (∃ e, setGpuGraphId f s id n₁ n₂ = (s, .error e)) ∨
    ∃ syncStream session lease, syncStream = (if f.ep then s.lane.syncStream else none) ∧
      s.session.capturedGraphLease id = (session, lease) ∧ s.lane.inFlight = false ∧
      s.lane.deviceInputs = true ∧
      setGpuGraphId f s id n₁ n₂ = ({
        lane := { s.lane with
          runOpts := some { RunOptions.graphReplay id with syncStream }
          enqueuedRunOpts := { RunOptions.enqueued id with syncStream }
          graphLease := some id
          graphId := some id
          graphCaptured := false }
        runOpts := some (described (some id) false syncStream)
        enqueuedRunOpts := described (some id) true syncStream
        graphLease := some lease
        session := session }, .ok ()) := by
  unfold setGpuGraphId ensureIdle ensureGraphIdAssignable
  by_cases hi : s.lane.inFlight = true
  · exact .inl ⟨_, by rw [if_pos hi]; rfl⟩
  · by_cases hd : s.lane.deviceInputs = true
    · rw [if_neg hi, if_pos hd]
      dsimp only [Except.bind]
      cases hm : materializeRunOptions (some id) (if f.ep then s.lane.syncStream else none) n₁ n₂
        with
      | error e => exact .inl ⟨e, rfl⟩
      | ok made =>
        obtain ⟨hfirst, hsecond⟩ := materializeRunOptions_ok hm
        refine .inr ⟨_, _, _, rfl, rfl, by simpa using hi, hd, ?_⟩
        rw [← hfirst, ← hsecond]
        rfl
    · exact .inl ⟨_, by rw [if_neg hi, if_neg hd]; rfl⟩

theorem setSyncStream_cases (s : State) (stream : Nat) (shares : Bool) (n₁ n₂ : FreezeNative) :
    (∃ e, setSyncStream s stream shares n₁ n₂ = (s, .error e)) ∨
    s.lane.inFlight = false ∧ shares = true ∧
    setSyncStream s stream shares n₁ n₂ = ({ s with
      lane := { s.lane with
        runOpts := some ⟨s.lane.graphId, false, some stream⟩
        enqueuedRunOpts := ⟨s.lane.graphId, true, some stream⟩
        syncStream := some stream }
      runOpts := some (described s.lane.graphId false (some stream))
      enqueuedRunOpts := described s.lane.graphId true (some stream) }, .ok ()) := by
  unfold setSyncStream ensureIdle
  by_cases hi : s.lane.inFlight = true
  · exact .inl ⟨_, by rw [if_pos hi]⟩
  · rw [if_neg hi]
    dsimp only
    split
    · cases hm : materializeRunOptions s.lane.graphId (some stream) n₁ n₂ with
      | error e => exact .inl ⟨e, rfl⟩
      | ok made =>
        obtain ⟨hfirst, hsecond⟩ := materializeRunOptions_ok hm
        refine .inr ⟨by simpa using hi, ‹_›, ?_⟩
        rw [← hfirst, ← hsecond]
    · exact .inl ⟨_, rfl⟩

/-- Without its handles the setter is the lane's own. -/
theorem setGpuGraphId_lane {id : Int} (hn : n.freeze = (materializeRunOptions (some id)
    (if f.ep then s.lane.syncStream else none) n₁ n₂).map fun _ => ()) :
    Lane.setGpuGraphId f s.lane n id =
      ((setGpuGraphId f s id n₁ n₂).1.lane, (setGpuGraphId f s id n₁ n₂).2) := by
  unfold Lane.setGpuGraphId setGpuGraphId ensureIdle ensureGraphIdAssignable
  by_cases hi : s.lane.inFlight = true
  · simp only [if_pos hi, Result.andThen, Except.bind]
  · by_cases hd : s.lane.deviceInputs = true
    · simp only [if_neg hi, if_pos hd, Result.andThen, Except.bind, Lane.materializeRunOptions, hn]
      cases materializeRunOptions (some id) (if f.ep then s.lane.syncStream else none) n₁ n₂ <;> rfl
    · simp only [if_neg hi, if_neg hd, Result.andThen, Except.bind]

theorem setSyncStream_lane {stream : Nat} {shares : Bool}
    (hn : n.freeze = (materializeRunOptions s.lane.graphId (some stream) n₁ n₂).map fun _ => ()) :
    Lane.setSyncStream s.lane n stream shares =
      ((setSyncStream s stream shares n₁ n₂).1.lane, (setSyncStream s stream shares n₁ n₂).2) := by
  unfold Lane.setSyncStream setSyncStream ensureIdle
  by_cases hi : s.lane.inFlight = true
  · simp only [if_pos hi, Result.andThen]
  · simp only [if_neg hi, Result.andThen, Lane.materializeRunOptions, hn]
    split
    · cases materializeRunOptions s.lane.graphId (some stream) n₁ n₂ with
      | error e => rfl
      | ok made => cases s.lane.graphId <;> rfl
    · rfl

theorem capturedGraphLease_leases (session : Leases) (id id' : Int) :
    (session.capturedGraphLease id).1.leases id' =
      if id' = id then some (session.capturedGraphLease id).2 else session.leases id' := by
  unfold Leases.capturedGraphLease
  cases hid : session.leases id with
  | some lease =>
    dsimp only
    split
    · rw [‹id' = id›, hid]
    · rfl
  | none => simp only [Function.update_apply]

/-- A lease is never replaced. -/
theorem capturedGraphLease_some {session : Leases} {id' : Int} {lease : Nat}
    (h : session.leases id' = some lease) (id : Int) :
    (session.capturedGraphLease id).1.leases id' = some lease := by
  rw [capturedGraphLease_leases]
  split
  · rename_i hid
    subst hid
    simp [Leases.capturedGraphLease, h]
  · exact h

/-- What holds of a lane and its handles between calls. -/
structure Held (f : Features) (s : State) : Prop where
  coherent : Coherent s.lane
  described : Described s
  stream : f.ep = false → s.lane.syncStream = none

theorem framed_recorded (graphId : Option Int) (syncStream : Option Nat) :
    FramedUnder n fun l => l.graphId = graphId ∧ l.syncStream = syncStream where
  work _ h := h
  event _ h := h
  cleared h := h
  retained _ h := h
  captured _ h := h
  rebind _ h := h

/-- Runs and fences leave the recorded id and stream alone. -/
theorem exec_recorded {op : Op} (h : Action.Allowed (.op op n)) :
    (op.exec f s.lane n).graphId = s.lane.graphId ∧
      (op.exec f s.lane n).syncStream = s.lane.syncStream := by
  apply (framed_recorded s.lane.graphId s.lane.syncStream).exec ⟨rfl, rfl⟩
  · rintro id rfl
    exact h.elim
  · rintro stream shares rfl
    exact h.elim

theorem runUnsynchronized_cases (l : ServingLane) : (Access.runUnsynchronized l n).1 = l ∨
    l.inFlight = false ∧ (Access.runUnsynchronized l n).1 = { l with work := .queued } := by
  unfold Access.runUnsynchronized ensureIdle
  by_cases hi : l.inFlight = true
  · exact .inl (by rw [if_pos hi]; rfl)
  · rw [if_neg hi]
    simp only [Result.andThen]
    split
    · exact .inl rfl
    · split
      · exact .inl rfl
      · rcases rebind_cases (l := l) (n := n) with ⟨e, he⟩ | ⟨he, -⟩ <;> simp only [he]
        · exact .inl trivial
        · rcases runBindingUnsynchronized_cases (l := l) (n := n) l.runOpts with
            ⟨e, he, -⟩ | ⟨he, -⟩ <;> simp only [he]
          · exact .inl trivial
          · exact .inr ⟨by simpa using hi, trivial⟩

theorem coherent_runUnsynchronized {l : ServingLane} (h : Coherent l) :
    Coherent (Access.runUnsynchronized l n).1 := by
  rcases runUnsynchronized_cases (n := n) l with he | ⟨hi, he⟩ <;> rw [he]
  · exact h
  · exact ⟨fun hr => by simp [h.not_recorded hi] at hr, h.held, h.idle, h.graphId, h.runOpts,
      h.enqueuedRunOpts⟩

/-- A setter goes on exactly where the lane's own would. -/
theorem exists_freeze (outcome : Except Error Unit) : ∃ n : Native, n.freeze = outcome :=
  ⟨⟨.ok (), .ok (), .ok (), .ok (), .ok (), .ok (), .ok (), .ok (), .ok (), .ok (), .ok true, true,
    outcome⟩, rfl⟩

theorem coherent_step (ha : a.Allowed) (h : Coherent s.lane) : Coherent (step f s a).1.lane := by
  cases a with
  | op op n => exact coherent_exec h
  | runUnsynchronized n => exact coherent_runUnsynchronized h
  | setGpuGraphId id n₁ n₂ =>
    obtain ⟨n, hn⟩ := exists_freeze ((materializeRunOptions (some id)
      (if f.ep then s.lane.syncStream else none) n₁ n₂).map fun _ => ())
    have hquiet : Quiet s.lane (Lane.setGpuGraphId f s.lane n id).1 := quiet_setGpuGraphId
    rw [setGpuGraphId_lane hn] at hquiet
    exact coherent_quiet h hquiet
  | setSyncStream stream shares n₁ n₂ =>
    obtain ⟨n, hn⟩ := exists_freeze
      ((materializeRunOptions s.lane.graphId (some stream) n₁ n₂).map fun _ => ())
    have hquiet : Quiet s.lane (Lane.setSyncStream s.lane n stream shares).1 := quiet_setSyncStream
    rw [setSyncStream_lane hn] at hquiet
    simp only [step]
    split
    · exact coherent_quiet h hquiet
    · exact h
  | capturedGraphLease id => exact h

/-- The handles stay described while nothing they describe changes. -/
theorem described_same {t : State} (h : Described s) (hg : t.lane.graphId = s.lane.graphId)
    (hs : t.lane.syncStream = s.lane.syncStream) (ho : t.runOpts = s.runOpts)
    (he : t.enqueuedRunOpts = s.enqueuedRunOpts) (hl : t.graphLease = s.graphLease)
    (hsession : ∀ id lease, s.session.leases id = some lease →
      t.session.leases id = some lease) : Described t := by
  refine ⟨?_, ?_, ?_, ?_, ?_⟩
  · rw [ho, hg, hs]
    exact h.default
  · rw [ho, hg, hs]
    exact h.runOpts
  · rw [he, hg, hs]
    exact h.enqueuedRunOpts
  · rw [hl, hg]
    cases hid : s.lane.graphId with
    | none => simpa [hid] using h.graphLease
    | some id =>
      have hleased := h.leased
      have hlease := h.graphLease
      simp only [hid, Option.bind_some] at hlease
      simp only [hid, Option.isSome_some, Option.isSome_iff_exists] at hleased
      obtain ⟨lease, hl'⟩ := hleased
      rw [hl', Option.bind_some, hsession id lease (hlease.symm.trans hl')]
  · rw [hl, hg]
    exact h.leased

theorem described_setGpuGraphId (h : Described s)
    (hstream : f.ep = false → s.lane.syncStream = none)
    (id : Int) : Described (setGpuGraphId f s id n₁ n₂).1 := by
  rcases setGpuGraphId_cases f s id n₁ n₂ with
    ⟨e, he⟩ | ⟨stream, session, lease, hs, hlease, -, -, he⟩ <;> rw [he]
  · exact h
  · have hs : stream = s.lane.syncStream := by
      rw [hs]
      cases hep : f.ep with
      | false => exact (hstream hep).symm
      | true => rfl
    subst hs
    refine ⟨nofun, fun m hm => (Option.some.inj hm).symm, rfl, ?_, rfl⟩
    have hl := capturedGraphLease_leases s.session id id
    rw [hlease, if_pos rfl] at hl
    exact hl.symm

theorem described_setSyncStream (h : Described s) (stream : Nat) (shares : Bool) :
    Described (setSyncStream s stream shares n₁ n₂).1 := by
  rcases setSyncStream_cases s stream shares n₁ n₂ with
    ⟨e, he⟩ | ⟨-, -, he⟩ <;> rw [he]
  · exact h
  · exact ⟨nofun, fun m hm => (Option.some.inj hm).symm, rfl, h.graphLease, h.leased⟩

theorem held_step (ha : a.Allowed) (h : Held f s) : Held f (step f s a).1 := by
  refine ⟨coherent_step ha h.coherent, ?_, ?_⟩
  · cases a with
    | op op n =>
      obtain ⟨hg, hs⟩ := exec_recorded (f := f) (s := s) ha
      exact described_same h.described hg hs rfl rfl rfl fun _ _ hid => hid
    | runUnsynchronized n =>
      refine described_same h.described ?_ ?_ rfl rfl rfl fun _ _ hid => hid
      all_goals
        rcases runUnsynchronized_cases (n := n) s.lane with he | ⟨-, he⟩ <;> simp only [step, he]
    | setGpuGraphId id n₁ n₂ => exact described_setGpuGraphId h.described h.stream id
    | setSyncStream stream shares n₁ n₂ =>
      simp only [step]
      split
      · exact described_setSyncStream h.described stream shares
      · exact h.described
    | capturedGraphLease id =>
      exact described_same h.described rfl rfl rfl rfl rfl fun _ _ hid =>
        capturedGraphLease_some hid id
  · intro hep
    cases a with
    | op op n => exact (exec_recorded (f := f) (s := s) ha).2.trans (h.stream hep)
    | runUnsynchronized n =>
      rcases runUnsynchronized_cases (n := n) s.lane with he | ⟨-, he⟩ <;> simp only [step, he]
      · exact h.stream hep
      · exact h.stream hep
    | setGpuGraphId id n₁ n₂ =>
      rcases setGpuGraphId_cases f s id n₁ n₂ with
        ⟨e, he⟩ | ⟨stream, session, lease, -, -, -, -, he⟩ <;> simp only [step, he]
      · exact h.stream hep
      · exact h.stream hep
    | setSyncStream stream shares n₁ n₂ =>
      simp only [step, hep, Bool.false_eq_true, if_false]
      exact h.stream hep
    | capturedGraphLease id => exact h.stream hep

theorem held_reachable (h : Lts.Reachable (handlesLts f) s) : Held f s := by
  apply Lts.invariant_reachable (P := Held f) ?_ ?_ h
  · rintro ⟨_, _, _, _, session⟩ ⟨deviceId, n, m, -, hm, rfl, rfl, rfl, rfl⟩
    refine ⟨coherent_new, ⟨fun _ => ⟨rfl, rfl⟩, nofun, ?_, rfl, rfl⟩, fun _ => rfl⟩
    exact described_default hm
  · rintro s a t hs ⟨ha, rfl⟩
    exact held_step ha hs

theorem uncaptured_quiet {l l' : ServingLane} (h : l.graphCaptured = false) (hq : Quiet l l') :
    l'.graphCaptured = false := by
  cases hq with
  | graphId => rfl
  | _ => exact h

theorem uncaptured_abandoned {l l' : ServingLane} (h : l.graphCaptured = false)
    (ha : Abandoned l l') : l'.graphCaptured = false := by
  cases ha <;> exact h

/-- No run, no capture: a lane without one keeps having none. -/
theorem uncaptured_step (ha : a.Allowed) (hr : ¬ Runs f s a) (hc : Coherent s.lane)
    (h : s.lane.graphCaptured = false) : (step f s a).1.lane.graphCaptured = false := by
  cases a with
  | op op n =>
    by_cases hn : n.runWithBinding = .ok ()
    · have hissues : ¬ op.Issues f s.lane n := fun hi => hr ⟨hi, hn⟩
      rcases exec_outcome (f := f) n op hc with ⟨-, -, hq⟩ | ⟨-, -, hq⟩ | ⟨hi, -⟩
      · exact uncaptured_quiet h hq
      · exact uncaptured_abandoned h hq
      · exact absurd hi hissues
    · apply (framed_uncaptured hn).exec h
      · rintro id rfl
        exact ha.elim
      · rintro stream shares rfl
        exact ha.elim
  | runUnsynchronized n =>
    rcases runUnsynchronized_cases (n := n) s.lane with he | ⟨-, he⟩ <;> simp only [step, he, h]
  | setGpuGraphId id n₁ n₂ =>
    rcases setGpuGraphId_cases f s id n₁ n₂ with
      ⟨e, he⟩ | ⟨stream, session, lease, -, -, -, -, he⟩ <;> simp only [step, he, h]
  | setSyncStream stream shares n₁ n₂ =>
    simp only [step]
    split
    · rcases setSyncStream_cases s stream shares n₁ n₂ with
        ⟨e, he⟩ | ⟨-, -, he⟩ <;> simp only [he, h]
    · exact h
  | capturedGraphLease id => exact h

/-- The handles of a lane say at every moment what its setters recorded, a setter that fails
changes nothing, and a fresh id waits for its capture. -/
theorem run_options_coherent (h : Lts.Reachable (handlesLts f) s) :
    Described s ∧
    (∀ a e, (step f s a).2 = .error e → (step f s a).1 = s) ∧
    (∀ id n₁ n₂, (setGpuGraphId f s id n₁ n₂).2 = .ok () →
      (setGpuGraphId f s id n₁ n₂).1.lane.graphId = some id ∧
      ∀ as t, Lts.Trace ((handlesLts f).restrict fun s a => ¬ Runs f s a)
        (setGpuGraphId f s id n₁ n₂).1 as t → t.lane.graphCaptured = false) := by
  refine ⟨(held_reachable h).described, ?_, ?_⟩
  · intro a e ha
    cases a with
    | op | runUnsynchronized | capturedGraphLease => cases ha
    | setGpuGraphId id n₁ n₂ =>
      rcases setGpuGraphId_cases f s id n₁ n₂ with
        ⟨e, he⟩ | ⟨stream, session, lease, -, -, -, -, he⟩ <;> simp only [step, he] at ha ⊢
      cases ha
    | setSyncStream stream shares n₁ n₂ =>
      simp only [step] at ha ⊢
      split at ha
      · rename_i hep
        rw [if_pos hep]
        rcases setSyncStream_cases s stream shares n₁ n₂ with
          ⟨e, he⟩ | ⟨-, -, he⟩ <;> rw [he] at ha ⊢
        cases ha
      · cases ha
  · intro id n₁ n₂ hok
    have hheld := held_step (a := .setGpuGraphId id n₁ n₂) trivial (held_reachable h)
    have hfresh : (setGpuGraphId f s id n₁ n₂).1.lane.graphId = some id ∧
        (setGpuGraphId f s id n₁ n₂).1.lane.graphCaptured = false := by
      rcases setGpuGraphId_cases f s id n₁ n₂ with
        ⟨e, he⟩ | ⟨stream, session, lease, -, -, -, -, he⟩ <;> rw [he] at hok ⊢
      · cases hok
      · exact ⟨rfl, rfl⟩
    refine ⟨hfresh.1, ?_⟩
    intro as t ht
    have hinv := Lts.invariant_trace
      (P := fun t => Held f t ∧ t.lane.graphCaptured = false) ?_ ⟨hheld, hfresh.2⟩ ht
    · exact hinv.2
    · rintro t a u ⟨hh, hc⟩ ⟨hr, ha, rfl⟩
      exact ⟨held_step ha hh, uncaptured_step ha hr hh.coherent hc⟩

/-- A stream is attached, a graph id is assigned, and a second stream fails on its second freeze. -/
theorem run_options_coherent_replayed : ∃ s : State,
    s.runOpts = some (described (some 7) false (some 3)) ∧ s.lane.graphId = some 7 ∧
    Described s := by
  have h0 : Lts.Reachable (handlesLts ⟨true, true⟩)
      ⟨.new (some 0), none, described none true none, none, fun _ => none, 0⟩ :=
    .initial ⟨some 0, .success, _, fun _ => rfl, by decide, rfl, rfl, rfl, rfl⟩
  have h1 := h0.step (a := Action.setSyncStream 3 true .success .success) ⟨trivial, rfl⟩
  have h2 := h1.step (a := Action.setGpuGraphId 7 .success .success) ⟨trivial, rfl⟩
  have h3 := h2.step (a := Action.setSyncStream 4 true .success ⟨.error (.local "out of memory"),
    fun _ => .ok ()⟩) ⟨trivial, rfl⟩
  exact ⟨_, by decide, by decide, (run_options_coherent h3).1⟩

end Zrt.Lane.Handles
