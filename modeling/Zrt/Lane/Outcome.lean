import Zrt.Lane.Safety

/-! What one operation can make of a lane, whatever the native calls return. -/
namespace Zrt.Lane

variable {f : Features} {l l' : ServingLane} {n : Native} {op : Op} {g : Option Int}
  {r : Result Unit}

/-- What holds of a lane between operations, whether or not its work was fenced. -/
structure Coherent (l : ServingLane) : Prop where
  recorded : l.completionEventRecorded = true → l.inFlight = true ∧ l.work ≠ .queued
  held : l.inFlight = true → l.inFlightGraphGuard = l.graphLease
  idle : l.inFlight = false → l.inFlightGraphGuard = none
  graphId : l.graphId = l.graphLease
  runOpts : l.runOpts.bind RunOptions.graphId = l.graphLease
  enqueuedRunOpts : l.enqueuedRunOpts.graphId = l.graphLease

/-- The lane replays its graph on its own stream, behind a completion event. -/
abbrev OnStream (f : Features) (l : ServingLane) : Prop :=
  f.cuda = true ∧ l.deviceInputs = true ∧ l.graphId.isSome = true

/-- The operation calls `begin_run` on the lane's lease, if it has one. -/
def Op.Begins (f : Features) (l : ServingLane) (n : Native) : Op → Prop
  | .run => Prepared f l n ∧ (OnStream f l ∨ l.runOpts ≠ none)
  | .runEnqueued | .enqueue => Prepared f l n
  | .runProfiled => Prepared f l n ∧ n.syncInputs = .ok ()
  | .runEventProfiled => Prepared f l n ∧ OnStream f l
  | _ => False

/-- The operation calls `RunWithBinding`. -/
def Op.Issues (f : Features) (l : ServingLane) (n : Native) : Op → Prop
  | .run => (OnStream f l ∧ Lane.Issues f l n true false) ∨
      (¬ OnStream f l ∧ Lane.Issues f l n l.runOpts.isSome true)
  | .runEnqueued | .enqueue => Lane.Issues f l n true false
  | .runProfiled => Lane.Issues f l n l.runOpts.isSome true
  | .runEventProfiled => OnStream f l ∧ Lane.Issues f l n true false
  | _ => False

/-- The annotation id of the run options an operation runs with. -/
def Op.annotation (f : Features) (l : ServingLane) : Op → Option Int
  | .run => if f.cuda ∧ l.deviceInputs ∧ l.graphId.isSome then l.enqueuedRunOpts.graphId
      else l.runOpts.bind RunOptions.graphId
  | .runProfiled => l.runOpts.bind RunOptions.graphId
  | _ => l.enqueuedRunOpts.graphId

/-- No run is begun: nothing changes, the lane is fenced, or it is configured. -/
inductive Quiet (l : ServingLane) : ServingLane → Prop where
  | same : Quiet l l
  | fenced (h : l.inFlight = true) : Quiet l (clearInFlight { l with work := .none })
  | graphId (id : Int) (opts enqueued : RunOptions) (hidle : l.inFlight = false)
      (hopts : opts.graphId = some id) (henqueued : enqueued.graphId = some id) :
      Quiet l { l with
        runOpts := some opts
        enqueuedRunOpts := enqueued
        graphLease := some id
        graphId := some id
        graphCaptured := false }
  | syncStream (stream : Nat) (opts enqueued : RunOptions) (hidle : l.inFlight = false)
      (hopts : opts.graphId = l.graphId) (henqueued : enqueued.graphId = l.graphId) :
      Quiet l { l with
        runOpts := some opts
        enqueuedRunOpts := enqueued
        syncStream := some stream }
  | rebind (enabled : Bool) : Quiet l { l with rebindInputsEachRun := enabled }

/-- A run is begun that is never issued. -/
inductive Abandoned (l : ServingLane) : ServingLane → Prop where
  | fenced : Abandoned l (clearInFlight { l with work := .none })
  | retained (guard : Int) (h : l.graphLease = some guard) :
      Abandoned l { l with inFlightGraphGuard := some guard, inFlight := true }
  | same (h : l.graphLease = none) : Abandoned l l

/-- A run is issued: it is fenced, or the lane stays in flight, or, without a lease, neither. -/
inductive Ran (l : ServingLane) : ServingLane → Prop where
  | fenced (captured : Bool) (hc : l.graphCaptured = true → captured = true) :
      Ran l (clearInFlight { l with work := .none, graphCaptured := captured })
  | retained (captured recorded : Bool) (hc : l.graphCaptured = true → captured = true) :
      Ran l { l with
        work := if recorded then .recorded else .queued
        graphCaptured := captured
        completionEventRecorded := recorded
        inFlightGraphGuard := l.graphLease
        inFlight := true }
  | forgotten (captured : Bool) (hc : l.graphCaptured = true → captured = true)
      (h : l.graphLease = none) : Ran l { l with work := .queued, graphCaptured := captured }

/-- What an operation makes of a lane. -/
def Outcome (f : Features) (l : ServingLane) (n : Native) (op : Op) (l' : ServingLane) : Prop :=
  (¬ op.Begins f l n ∧ ¬ op.Issues f l n ∧ Quiet l l') ∨
  (op.Begins f l n ∧ ¬ op.Issues f l n ∧ Abandoned l l') ∨
  (op.Issues f l n ∧ Ran l l')

theorem Coherent.not_recorded (h : Coherent l) (hi : l.inFlight = false) :
    l.completionEventRecorded = false := by
  by_contra hr
  simp [(h.recorded (by simpa using hr)).1] at hi

theorem coherent_quiet (h : Coherent l) (hq : Quiet l l') : Coherent l' := by
  cases hq with
  | same => exact h
  | fenced hin => exact ⟨by simp [clearInFlight], by simp [clearInFlight], fun _ => rfl, h.graphId,
      h.runOpts, h.enqueuedRunOpts⟩
  | graphId id opts enqueued hidle hopts henqueued =>
    exact ⟨h.recorded, fun hi => by simp [hidle] at hi, h.idle, rfl, hopts, henqueued⟩
  | syncStream stream opts enqueued hidle hopts henqueued =>
    exact ⟨h.recorded, h.held, h.idle, h.graphId, hopts.trans h.graphId, henqueued.trans h.graphId⟩
  | rebind enabled => exact ⟨h.recorded, h.held, h.idle, h.graphId, h.runOpts, h.enqueuedRunOpts⟩

theorem coherent_abandoned (h : Coherent l) (hi : l.inFlight = false) (ha : Abandoned l l') :
    Coherent l' := by
  cases ha with
  | fenced => exact ⟨by simp [clearInFlight], by simp [clearInFlight], fun _ => rfl, h.graphId,
      h.runOpts, h.enqueuedRunOpts⟩
  | retained guard hg => exact ⟨by simp [h.not_recorded hi], fun _ => hg.symm, by simp, h.graphId,
      h.runOpts, h.enqueuedRunOpts⟩
  | same hg => exact h

theorem coherent_ran (h : Coherent l) (hi : l.inFlight = false) (hr : Ran l l') : Coherent l' := by
  cases hr with
  | fenced captured hc => exact ⟨by simp [clearInFlight], by simp [clearInFlight], fun _ => rfl,
      h.graphId, h.runOpts, h.enqueuedRunOpts⟩
  | retained captured recorded hc =>
    refine ⟨fun hr => ⟨rfl, ?_⟩, fun _ => rfl, by simp, h.graphId, h.runOpts, h.enqueuedRunOpts⟩
    simp [show recorded = true from hr]
  | forgotten captured hc hg =>
    refine ⟨?_, ?_, h.idle, h.graphId, h.runOpts, h.enqueuedRunOpts⟩
    · simp [h.not_recorded hi]
    · intro hin
      simp [hi] at hin

theorem markCaptured_ok : markCaptured (l, .ok ()) =
    { l with graphCaptured := l.graphCaptured || l.graphId.isSome } := by
  unfold markCaptured
  split
  · rename_i hc
    simp [hc.1]
  · rename_i hc
    have hno : l.graphId.isSome = false := by
      by_contra hs
      exact hc ⟨by simpa only [Bool.not_eq_false] using hs, rfl⟩
    simp only [hno, Bool.or_false]

theorem markCaptured_error {e : Error} : markCaptured (l, .error e) = l := by
  unfold markCaptured
  rw [if_neg (by simp [Except.isOk, Except.toBool])]

theorem fenceOrRetain_outcomes :
    (fenceOrRetainGraphGuard f l n g).1 = clearInFlight { l with work := .none } ∨
    (∃ guard, g = some guard ∧ (fenceOrRetainGraphGuard f l n g).1 =
      { l with inFlightGraphGuard := some guard, inFlight := true }) ∨
    (g = none ∧ (fenceOrRetainGraphGuard f l n g).1 = l) := by
  by_cases hf : Fences f l n
  · exact .inl (fenceOrRetain_fenced hf)
  · have h := fenceOrRetain_unfenced (g := g) hf
    cases g with
    | some guard => exact .inr (.inl ⟨guard, rfl, h⟩)
    | none => exact .inr (.inr ⟨rfl, h⟩)

/-- The failure path before anything was issued. -/
theorem abandoned_settle {e : Error} {b : Bool} :
    Abandoned l (settleGraphRun f (markCaptured (l, .error e)) n l.graphLease (.error e) b).1 := by
  rw [markCaptured_error]
  rcases fenceOrRetain_outcomes (f := f) (l := l) (n := n) (g := l.graphLease) with
    he | ⟨guard, hg, he⟩ | ⟨hg, he⟩ <;> simp only [settleGraphRun, he]
  · exact .fenced
  · exact .retained guard hg
  · exact .same hg

/-- The failure path behind a run that was issued. -/
theorem ran_settle {e : Error} {b : Bool} (hr : l.completionEventRecorded = false) :
    Ran l (settleGraphRun f (markCaptured ({ l with work := .queued }, .error e)) n l.graphLease
      (.error e) b).1 := by
  rw [markCaptured_error]
  rcases fenceOrRetain_outcomes (f := f) (l := { l with work := .queued }) (n := n)
      (g := l.graphLease) with he | ⟨guard, hg, he⟩ | ⟨hg, he⟩ <;> simp only [settleGraphRun, he]
  · exact .fenced l.graphCaptured id
  · have hret := Ran.retained (l := l) l.graphCaptured false id
    rw [← hg]
    simpa [hr] using hret
  · exact .forgotten l.graphCaptured id hg

/-- The success path of a run that was issued and left unsynchronized. -/
theorem ran_retained {b : Bool} (recorded : Bool) (hb : b = true) :
    Ran l (settleGraphRun f (markCaptured ({ l with
      work := if recorded then .recorded else .queued
      completionEventRecorded := recorded }, .ok ())) n l.graphLease (.ok ()) b).1 := by
  rw [markCaptured_ok]
  simp only [settleGraphRun, hb, if_true]
  exact .retained (l.graphCaptured || l.graphId.isSome) recorded (by simp_all)

/-- `RunWithBinding` and the event behind it, on an idle lane. -/
theorem enqueued_outcome (h : Coherent l) (hi : l.inFlight = false) :
    (¬ (n.checkBindingSession = .ok () ∧ n.checkRunOptions = .ok ()) ∧
      Abandoned l (runBoundBindingEnqueued f l n).1) ∨
    ((n.checkBindingSession = .ok () ∧ n.checkRunOptions = .ok ()) ∧
      Ran l (runBoundBindingEnqueued f l n).1) := by
  have hr := h.not_recorded hi
  simp only [runBoundBindingEnqueued, ensureIdle, hi, Bool.false_eq_true, if_false,
    Result.andThen]
  generalize hrun : runBindingUnsynchronized l n (some l.enqueuedRunOpts) = r
  rcases runBindingUnsynchronized_cases (l := l) (n := n) (some l.enqueuedRunOpts) with
    ⟨e, he, hno⟩ | ⟨he, hs, ho⟩ <;> rw [hrun] at he <;> subst he
  · exact .inl ⟨fun hc => hno ⟨hc.1, fun _ => hc.2⟩, abandoned_settle⟩
  · refine .inr ⟨⟨hs, ho rfl⟩, ?_⟩
    cases hn : n.runWithBinding with
    | error e => exact ran_settle hr
    | ok u =>
      simp only
      split
      · cases hev : n.eventRecord with
        | error e =>
          simp only [eventRecord, hev]
          exact ran_settle hr
        | ok u =>
          simp only [eventRecord, hev, if_true]
          exact ran_retained true rfl
      · have hret := ran_retained (f := f) (l := l) (n := n) (b := true) false rfl
        simpa [hr] using hret

/-- The synchronous path on an idle lane: with run options it takes the guard first. -/
theorem bound_outcome (h : Coherent l) (hi : l.inFlight = false) :
    (¬ (n.checkBindingSession = .ok () ∧ (l.runOpts.isSome = true → n.checkRunOptions = .ok ()) ∧
        n.syncInputs = .ok ()) ∧
      (l.runOpts = none → (runBoundBinding f l n).1 = l) ∧
      (l.runOpts ≠ none → Abandoned l (runBoundBinding f l n).1)) ∨
    ((n.checkBindingSession = .ok () ∧ (l.runOpts.isSome = true → n.checkRunOptions = .ok ()) ∧
        n.syncInputs = .ok ()) ∧ Ran l (runBoundBinding f l n).1) := by
  have hr := h.not_recorded hi
  have hclear : ∀ captured, clearInFlight { l with work := .none, graphCaptured := captured } =
      { l with work := .none, graphCaptured := captured } := by
    intro captured
    have hg := h.idle hi
    cases l
    simp_all [clearInFlight]
  unfold runBoundBinding
  cases ho : l.runOpts with
  | none =>
    have hlease : l.graphLease = none := by simpa [ho] using h.runOpts.symm
    rcases runBinding_cases (l := l) (n := n) none with
      ⟨e, he, hno⟩ | ⟨hchecks, ⟨e, he, -⟩ | ⟨he, -⟩⟩ <;> simp only [he]
    · exact .inl ⟨hno, fun _ => trivial, fun hc => absurd rfl hc⟩
    · exact .inr ⟨hchecks, .forgotten l.graphCaptured id hlease⟩
    · have hf := Ran.fenced (l := l) l.graphCaptured id
      rw [hclear] at hf
      exact .inr ⟨hchecks, hf⟩
  | some opts =>
    rcases runBinding_cases (l := l) (n := n) (some opts) with
      ⟨e, he, hno⟩ | ⟨hchecks, ⟨e, he, -⟩ | ⟨he, -⟩⟩ <;> simp only [he]
    · exact .inl ⟨hno, (fun hn => by cases hn), fun _ => abandoned_settle⟩
    · exact .inr ⟨hchecks, ran_settle hr⟩
    · have hf := Ran.fenced (l := l) (l.graphCaptured || l.graphId.isSome) (by simp_all)
      rw [hclear] at hf
      rw [markCaptured_ok]
      exact .inr ⟨hchecks, hf⟩

theorem synchronizeOutputs_cases (h : Coherent l) : (synchronizeOutputs f l n).1 = l ∨
    (l.inFlight = true ∧
      (synchronizeOutputs f l n).1 = clearInFlight { l with work := .none }) := by
  unfold synchronizeOutputs
  by_cases hi : l.inFlight = true
  · rw [if_neg (by simp [hi])]
    rcases synchronizeCompletion_cases (f := f) (n := n) (fun hr => (h.recorded hr).2) with
      ⟨e, he⟩ | he <;> simp only [he, orDeviceFence]
    · rcases tryDeviceFence_cases (f := f) (l := l) (n := n) with ht | ht <;> simp only [ht]
      · exact .inl rfl
      · exact .inr ⟨hi, rfl⟩
    · exact .inr ⟨hi, rfl⟩
  · rw [if_pos (by simp [hi])]
    exact .inl rfl

theorem synchronizeOutputs_ok (h : (synchronizeOutputs f l n).2 = .ok ()) :
    (synchronizeOutputs f l n).1.inFlight = false := by
  unfold synchronizeOutputs at h ⊢
  cases hin : l.inFlight with
  | false => exact hin
  | true =>
    simp only [hin, Bool.not_true, Bool.false_eq_true, if_false] at h ⊢
    revert h
    obtain ⟨l', e | ⟨⟩⟩ := synchronizeCompletion f l n
    · intro h
      cases h
    · exact fun _ => rfl

theorem finishInFlightBestEffort_eq :
    finishInFlightBestEffort f l n = (synchronizeOutputs f l n).1 := by
  unfold finishInFlightBestEffort synchronizeOutputs
  split <;> rfl

theorem tryComplete_cases (h : Coherent l) : (tryComplete f l n).1 = l ∨
    (l.inFlight = true ∧ (tryComplete f l n).1 = clearInFlight { l with work := .none }) := by
  unfold tryComplete
  split
  · exact .inl rfl
  · rename_i hi
    split
    · rename_i hc
      have hw := (h.recorded hc.2).2
      split
      · exact .inl rfl
      · refine .inr ⟨by simpa using hi, ?_⟩
        cases hwork : l.work <;> simp_all
      · exact .inl rfl
    · exact .inl rfl

theorem Abandoned.synchronize (ha : Abandoned l l') (h : Coherent l') (hi : l.inFlight = false) :
    Abandoned l (synchronizeOutputs f l' n).1 := by
  rcases synchronizeOutputs_cases (f := f) (n := n) h with he | ⟨hin, he⟩ <;> rw [he]
  · exact ha
  · cases ha with
    | fenced => simp [clearInFlight] at hin
    | retained guard hg => exact .fenced
    | same hg => simp [hi] at hin

theorem Ran.synchronize (hr : Ran l l') (h : Coherent l') (hi : l.inFlight = false) :
    Ran l (synchronizeOutputs f l' n).1 := by
  rcases synchronizeOutputs_cases (f := f) (n := n) h with he | ⟨hin, he⟩ <;> rw [he]
  · exact hr
  · cases hr with
    | fenced captured hc => simp [clearInFlight] at hin
    | retained captured recorded hc => exact .fenced captured hc
    | forgotten captured hc hg => simp [hi] at hin

theorem Prepared.of_not (hp : ¬ Prepared f l n) (k : ServingLane → Result Unit) :
    ((ensureIdle l).andThen fun l _ => (rebindHostInputsIfNeeded l n).andThen fun l _ =>
      (refreshDeviceInputs f l n).andThen fun l _ => k l).1 = l := by
  rcases prepared_cases (f := f) (l := l) (n := n) k with ⟨e, he⟩ | ⟨-, hi, hrebind, hrefresh⟩
  · rw [he]
  · exact absurd ⟨hi, hrebind, hrefresh⟩ hp

theorem not_begins_of_not_prepared (hp : ¬ Prepared f l n) : ¬ op.Begins f l n := by
  cases op with
  | run | runProfiled | runEventProfiled => exact fun hb => hp hb.1
  | runEnqueued | enqueue => exact hp
  | _ => exact id

theorem not_issues_of_not_prepared (hp : ¬ Prepared f l n) : ¬ op.Issues f l n := by
  cases op with
  | run => exact fun hs => hp (hs.elim (fun hs => hs.2.prepared) fun hs => hs.2.prepared)
  | runEventProfiled => exact fun hs => hp hs.2.prepared
  | runEnqueued | enqueue | runProfiled => exact fun hs => hp hs.prepared
  | _ => exact id

theorem outcome_of_not_prepared (hp : ¬ Prepared f l n) : Outcome f l n op l :=
  .inl ⟨not_begins_of_not_prepared hp, not_issues_of_not_prepared hp, .same⟩

theorem issues_enqueued (hp : Prepared f l n) :
    Issues f l n true false ↔ n.checkBindingSession = .ok () ∧ n.checkRunOptions = .ok () :=
  ⟨fun hs => ⟨hs.session, hs.options rfl⟩,
    fun h => ⟨hp.idle, hp.rebind, hp.refresh, h.1, fun _ => h.2, by simp⟩⟩

theorem issues_bound (hp : Prepared f l n) :
    Issues f l n l.runOpts.isSome true ↔ n.checkBindingSession = .ok () ∧
      (l.runOpts.isSome = true → n.checkRunOptions = .ok ()) ∧ n.syncInputs = .ok () :=
  ⟨fun hs => ⟨hs.session, hs.options, hs.inputs rfl⟩,
    fun h => ⟨hp.idle, hp.rebind, hp.refresh, h.1, h.2.1, fun _ => h.2.2⟩⟩

/-- A replay behind its completion event, waited for at once. -/
theorem waited_outcome (h : Coherent l) (hp : Prepared f l n) :
    (¬ Issues f l n true false ∧ Abandoned l ((runBoundBindingEnqueued f l n).andThen
      fun l _ => synchronizeOutputs f l n).1) ∨
    (Issues f l n true false ∧ Ran l ((runBoundBindingEnqueued f l n).andThen
      fun l _ => synchronizeOutputs f l n).1) := by
  rw [issues_enqueued hp]
  rcases enqueued_outcome (f := f) (n := n) h hp.idle with ⟨hno, ha⟩ | ⟨hs, hr⟩
  · refine .inl ⟨hno, ?_⟩
    have hsync := ha.synchronize (f := f) (n := n) (coherent_abandoned h hp.idle ha) hp.idle
    revert ha hsync
    cases runBoundBindingEnqueued f l n with
    | mk l' o => cases o <;> exact fun ha hsync => by assumption
  · refine .inr ⟨hs, ?_⟩
    have hsync := hr.synchronize (f := f) (n := n) (coherent_ran h hp.idle hr) hp.idle
    revert hr hsync
    cases runBoundBindingEnqueued f l n with
    | mk l' o => cases o <;> exact fun hr hsync => by assumption

theorem run_outcome (h : Coherent l) : Outcome f l n .run (run f l n).1 := by
  by_cases hp : Prepared f l n
  · unfold run
    rw [hp.andThen (fun l => runPrepared f l n), runPrepared]
    by_cases hg : OnStream f l
    · rw [if_pos hg]
      rcases waited_outcome h hp with ⟨hno, ha⟩ | ⟨hs, hr⟩
      · refine .inr (.inl ⟨⟨hp, .inl hg⟩, ?_, ha⟩)
        exact fun hc => hc.elim (fun hc => hno hc.2) fun hc => hc.1 hg
      · exact .inr (.inr ⟨.inl ⟨hg, hs⟩, hr⟩)
    · rw [if_neg hg]
      rcases bound_outcome (f := f) (n := n) h hp.idle with ⟨hno, hsame, ha⟩ | ⟨hs, hr⟩
      · have hnot : ¬ Op.run.Issues f l n := fun hc =>
          hc.elim (fun hc => hg hc.1) fun hc => hno ((issues_bound hp).mp hc.2)
        by_cases ho : l.runOpts = none
        · rw [hsame ho]
          exact .inl ⟨fun hb => hb.2.elim hg fun hb => hb ho, hnot, .same⟩
        · exact .inr (.inl ⟨⟨hp, .inr ho⟩, hnot, ha ho⟩)
      · exact .inr (.inr ⟨.inr ⟨hg, (issues_bound hp).mpr hs⟩, hr⟩)
  · unfold run
    rw [Prepared.of_not hp (fun l => runPrepared f l n)]
    exact outcome_of_not_prepared hp

theorem runEnqueued_outcome (h : Coherent l) :
    Outcome f l n .runEnqueued (runEnqueued f l n).1 := by
  by_cases hp : Prepared f l n
  · unfold runEnqueued
    rw [hp.andThen (fun l => runBoundBindingEnqueued f l n)]
    rcases enqueued_outcome (f := f) (n := n) h hp.idle with ⟨hno, ha⟩ | ⟨hs, hr⟩
    · exact .inr (.inl ⟨hp, fun hc => hno ((issues_enqueued hp).mp hc), ha⟩)
    · exact .inr (.inr ⟨(issues_enqueued hp).mpr hs, hr⟩)
  · unfold runEnqueued
    rw [Prepared.of_not hp (fun l => runBoundBindingEnqueued f l n)]
    exact outcome_of_not_prepared hp

theorem runEventProfiled_outcome (h : Coherent l) (hcuda : f.cuda = true) :
    Outcome f l n .runEventProfiled (runEventProfiled f l n).1 := by
  by_cases hg : l.deviceInputs = false ∨ l.graphId = none
  · have hstream : ¬ OnStream f l := by
      rintro ⟨-, hd, hid⟩
      rcases hg with hg | hg
      · simp [hg] at hd
      · simp [hg] at hid
    have hsame : (runEventProfiled f l n).1 = l := by
      unfold runEventProfiled ensureIdle
      split <;> simp [Result.andThen, hg]
    rw [hsame]
    exact .inl ⟨fun hb => hstream hb.2, fun hs => hstream hs.1, .same⟩
  · have hstream : OnStream f l := by
      simp only [not_or, Bool.not_eq_false] at hg
      exact ⟨hcuda, hg.1, Option.isSome_iff_ne_none.mpr hg.2⟩
    have heq : runEventProfiled f l n = ((ensureIdle l).andThen fun l _ =>
        (rebindHostInputsIfNeeded l n).andThen fun l _ =>
        (refreshDeviceInputs f l n).andThen fun l _ =>
        (runBoundBindingEnqueued f l n).andThen fun l _ => synchronizeOutputs f l n) := by
      unfold runEventProfiled ensureIdle
      split <;> simp [Result.andThen, not_or.mp hg, rebindHostInputsIfNeeded]
    rw [heq]
    by_cases hp : Prepared f l n
    · rw [hp.andThen (fun l => (runBoundBindingEnqueued f l n).andThen
        fun l _ => synchronizeOutputs f l n)]
      rcases waited_outcome h hp with ⟨hno, ha⟩ | ⟨hs, hr⟩
      · exact .inr (.inl ⟨⟨hp, hstream⟩, fun hc => hno hc.2, ha⟩)
      · exact .inr (.inr ⟨⟨hstream, hs⟩, hr⟩)
    · rw [Prepared.of_not hp (fun l => (runBoundBindingEnqueued f l n).andThen
        fun l _ => synchronizeOutputs f l n)]
      exact outcome_of_not_prepared hp

/-- The profiled run synchronizes its outputs behind the guard, and retries the fence. -/
theorem Ran.profile (hr : l.completionEventRecorded = false)
    (hrun : n.runWithBinding = .ok ()) :
    Ran l ((settleGraphRun f (markCaptured ({ l with work := .queued }, n.runWithBinding)) n
      l.graphLease n.runWithBinding true).andThen fun l _ =>
        match bindingSynchronizeOutputs l n.syncOutputs with
        | (l, .ok ()) => (clearInFlight l, .ok ())
        | (l, .error error) => ((fenceOrRetainGraphGuard f l n none).1, .error error)).1 := by
  have hret := Ran.retained (l := l) (l.graphCaptured || l.graphId.isSome) false (by simp_all)
  have hfen := Ran.fenced (l := l) (l.graphCaptured || l.graphId.isSome) (by simp_all)
  simp only [hrun, markCaptured_ok, settleGraphRun, if_true, Result.andThen]
  cases hso : n.syncOutputs with
  | ok u => exact hfen
  | error e =>
    simp only [bindingSynchronizeOutputs]
    rcases fenceOrRetain_outcomes (f := f) (n := n) (g := none) (l := { l with
      work := .queued
      graphCaptured := l.graphCaptured || l.graphId.isSome
      inFlightGraphGuard := l.graphLease
      inFlight := true }) with he | ⟨guard, hg, -⟩ | ⟨-, he⟩
    · rw [he]
      exact hfen
    · cases hg
    · rw [he]
      simpa [hr] using hret

theorem runProfiled_outcome (h : Coherent l) :
    Outcome f l n .runProfiled (runProfiled f l n).1 := by
  by_cases hp : Prepared f l n
  · unfold runProfiled
    rw [hp.andThen (fun l => runProfiledPrepared f l n)]
    unfold runProfiledPrepared call
    cases hsi : n.syncInputs with
    | error e =>
      refine .inl ⟨?_, ?_, .same⟩
      · intro hb
        exact nomatch hsi.symm.trans hb.2
      · intro hs
        exact nomatch hsi.symm.trans (hs.inputs rfl)
    | ok u =>
      simp only [Result.andThen]
      have hr := h.not_recorded hp.idle
      rcases runBindingUnsynchronized_cases (l := l) (n := n) l.runOpts with
        ⟨e, he, hno⟩ | ⟨he, hs, ho⟩ <;> simp only [he]
      · exact .inr (.inl ⟨⟨hp, hsi⟩, fun hs => hno ⟨hs.session, hs.options⟩,
          abandoned_settle (b := true)⟩)
      · refine .inr (.inr ⟨(issues_bound hp).mpr ⟨hs, ho, hsi⟩, ?_⟩)
        cases hn : n.runWithBinding with
        | error e => exact ran_settle (b := true) hr
        | ok u =>
          have hpr := Ran.profile (f := f) (l := l) hr hn
          rw [hn] at hpr
          exact hpr
  · unfold runProfiled
    rw [Prepared.of_not hp (fun l => runProfiledPrepared f l n)]
    exact outcome_of_not_prepared hp

theorem materializeRunOptions_cases (graphId : Option Int) (stream : Option Nat) :
    (∃ e, materializeRunOptions n graphId stream = .error e) ∨
    ∃ opts enqueued, materializeRunOptions n graphId stream = .ok (opts, enqueued) ∧
      opts.graphId = graphId ∧ enqueued.graphId = graphId := by
  unfold materializeRunOptions
  cases n.freeze with
  | error e => exact .inl ⟨e, rfl⟩
  | ok u => cases graphId <;> exact .inr ⟨_, _, rfl, rfl, rfl⟩

theorem setGpuGraphId_cases (id : Int) : (∃ e, setGpuGraphId f l n id = (l, .error e)) ∨
    ∃ opts enqueued, l.inFlight = false ∧ opts.graphId = some id ∧ enqueued.graphId = some id ∧
      setGpuGraphId f l n id = ({ l with
        runOpts := some opts
        enqueuedRunOpts := enqueued
        graphLease := some id
        graphId := some id
        graphCaptured := false }, .ok ()) := by
  unfold setGpuGraphId ensureIdle ensureGraphIdAssignable
  by_cases hi : l.inFlight = true
  · rw [if_pos hi]
    exact .inl ⟨_, rfl⟩
  · rw [if_neg hi]
    by_cases hd : l.deviceInputs = true
    · simp only [Result.andThen, if_pos hd]
      rcases materializeRunOptions_cases (n := n) (some id) (if f.ep then l.syncStream else none)
        with ⟨e, he⟩ | ⟨opts, enqueued, he, ho, hen⟩ <;> simp only [he]
      · exact .inl ⟨_, rfl⟩
      · exact .inr ⟨opts, enqueued, by simpa using hi, ho, hen, rfl⟩
    · simp only [Result.andThen, if_neg hd]
      exact .inl ⟨_, rfl⟩

theorem quiet_setGpuGraphId {id : Int} : Quiet l (setGpuGraphId f l n id).1 := by
  rcases setGpuGraphId_cases (f := f) (l := l) (n := n) id with
    ⟨e, he⟩ | ⟨opts, enqueued, hi, ho, hen, he⟩ <;> rw [he]
  · exact .same
  · exact .graphId id opts enqueued hi ho hen

theorem quiet_setSyncStream {stream : Nat} {shares : Bool} :
    Quiet l (setSyncStream l n stream shares).1 := by
  unfold setSyncStream ensureIdle
  by_cases hi : l.inFlight = true
  · rw [if_pos hi]
    exact .same
  · rw [if_neg hi]
    simp only [Result.andThen]
    split
    · rcases materializeRunOptions_cases (n := n) l.graphId (some stream) with
        ⟨e, he⟩ | ⟨opts, enqueued, he, ho, hen⟩ <;> simp only [he]
      · exact .same
      · exact .syncStream stream opts enqueued (by simpa using hi) ho hen
    · exact .same

/-- What each operation makes of a lane, whatever its native calls return. -/
theorem exec_outcome (n : Native) (op : Op) (h : Coherent l) :
    Outcome f l n op (op.exec f l n) := by
  have hquiet : ∀ {l'}, (l' = l ∨ (l.inFlight = true ∧
      l' = clearInFlight { l with work := .none })) → Quiet l l' := by
    rintro l' (rfl | ⟨hi, rfl⟩)
    · exact .same
    · exact .fenced hi
  cases op with
  | run => exact run_outcome h
  | runEnqueued => exact runEnqueued_outcome h
  | enqueue =>
    rw [Op.exec, enqueuedLane_enqueue]
    exact runEnqueued_outcome h
  | runProfiled => exact runProfiled_outcome h
  | runEventProfiled =>
    by_cases hc : f.cuda = true
    · simpa only [Op.exec, if_pos hc] using runEventProfiled_outcome h hc
    · simp only [Op.exec, if_neg hc]
      exact .inl ⟨fun hb => hc hb.2.1, fun hs => hc hs.1.1, .same⟩
  | synchronizeOutputs => exact .inl ⟨id, id, hquiet (synchronizeOutputs_cases h)⟩
  | tryComplete => exact .inl ⟨id, id, hquiet (tryComplete_cases h)⟩
  | finishInFlightBestEffort =>
    refine .inl ⟨id, id, ?_⟩
    rw [Op.exec, finishInFlightBestEffort_eq]
    exact hquiet (synchronizeOutputs_cases h)
  | setGpuGraphId graph => exact .inl ⟨id, id, quiet_setGpuGraphId⟩
  | setSyncStream stream shares =>
    refine .inl ⟨id, id, ?_⟩
    simp only [Op.exec]
    split
    · exact quiet_setSyncStream
    · exact .same
  | setRebindInputsEachRun enabled => exact .inl ⟨id, id, .rebind enabled⟩

theorem Op.Begins.idle (hb : op.Begins f l n) : l.inFlight = false := by
  by_contra hi
  exact not_begins_of_not_prepared (fun hp => hi hp.idle) hb

theorem Op.Issues.idle (hs : op.Issues f l n) : l.inFlight = false := by
  by_contra hi
  exact not_issues_of_not_prepared (fun hp => hi hp.idle) hs

theorem coherent_exec (h : Coherent l) : Coherent (op.exec f l n) := by
  rcases exec_outcome (f := f) n op h with ⟨-, -, hq⟩ | ⟨hb, -, ha⟩ | ⟨hs, hr⟩
  · exact coherent_quiet h hq
  · exact coherent_abandoned h hb.idle ha
  · exact coherent_ran h hs.idle hr

theorem coherent_reachable (h : Reachable f l) : Coherent l := by
  induction h with
  | initial hi =>
    obtain ⟨deviceId, -, rfl⟩ := hi
    exact ⟨nofun, nofun, fun _ => rfl, rfl, rfl, rfl⟩
  | step _ hs ih =>
    rw [← show _ = _ from hs]
    exact coherent_exec ih

/-- A call gives back the guard it took, or the one in the lane, behind a fence only. -/
theorem Outcome.guard (ho : Outcome f l n op l') (h : Coherent l) {due : Option Int}
    (hq : ¬ op.Begins f l n → ¬ op.Issues f l n → due = l.inFlightGraphGuard)
    (hb : op.Begins f l n ∨ op.Issues f l n → due = l.graphLease) :
    l'.inFlightGraphGuard = due ∨ (l'.inFlightGraphGuard = none ∧ l'.work = .none) := by
  rcases ho with ⟨hnb, hni, hout⟩ | ⟨hbeg, -, hout⟩ | ⟨hiss, hout⟩
  · rw [hq hnb hni]
    cases hout with
    | fenced hin => exact .inr ⟨rfl, rfl⟩
    | _ => exact .inl rfl
  · rw [hb (.inl hbeg)]
    cases hout with
    | fenced => exact .inr ⟨rfl, rfl⟩
    | retained guard hg => exact .inl hg.symm
    | same hg => exact .inl ((h.idle hbeg.idle).trans hg.symm)
  · rw [hb (.inr hiss)]
    cases hout with
    | fenced captured hc => exact .inr ⟨rfl, rfl⟩
    | retained captured recorded hc => exact .inl rfl
    | forgotten captured hc hg => exact .inl ((h.idle hiss.idle).trans hg.symm)

theorem annotation_eq (h : Coherent l) : op.annotation f l = l.graphLease := by
  cases op with
  | run =>
    simp only [Op.annotation]
    split
    · exact h.enqueuedRunOpts
    · exact h.runOpts
  | runProfiled => exact h.runOpts
  | _ => exact h.enqueuedRunOpts

/-- A run that takes no guard has no lease to take it from. -/
theorem Op.Issues.begins (hs : op.Issues f l n) (h : Coherent l) :
    op.Begins f l n ∨ l.graphLease = none := by
  cases op with
  | run =>
    rcases hs with ⟨hg, hs⟩ | ⟨-, hs⟩
    · exact .inl ⟨hs.prepared, .inl hg⟩
    · by_cases ho : l.runOpts = none
      · exact .inr (by simpa [ho] using h.runOpts.symm)
      · exact .inl ⟨hs.prepared, .inr ho⟩
  | runEnqueued | enqueue => exact .inl hs.prepared
  | runProfiled => exact .inl ⟨hs.prepared, hs.inputs rfl⟩
  | runEventProfiled => exact .inl ⟨hs.2.prepared, hs.1⟩
  | _ => exact hs.elim

end Zrt.Lane
