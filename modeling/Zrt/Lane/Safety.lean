import Zrt.Lane.Specification

/-! When a lane that is not in flight has no provider work left. -/
namespace Zrt.Lane

variable {f : Features} {l : ServingLane} {n : Native} {op : Op} {g : Option Int}
  {r : Result Unit} {outcome : Except Error Unit}

/-- A graph id comes with its lease, and a lease with run options. -/
structure Setup (l : ServingLane) : Prop where
  lease : l.graphId ≠ none → l.graphLease ≠ none
  opts : l.graphLease ≠ none → l.runOpts ≠ none

/-- What holds of a lane between operations; `idle` is the promise to its users. -/
structure Settled (l : ServingLane) : Prop where
  idle : l.inFlight = false → l.work = .none
  recorded : l.completionEventRecorded = true → l.inFlight = true ∧ l.work ≠ .queued
  guard : l.inFlightGraphGuard ≠ none → l.inFlight = true
  setup : Setup l

/-- Nothing fails before `RunWithBinding` is called on an idle lane. -/
structure Issues (f : Features) (l : ServingLane) (n : Native) (opts inputs : Bool) : Prop where
  idle : l.inFlight = false
  rebind : l.rebindInputsEachRun = true → l.deviceInputs = false → n.rebind = .ok ()
  refresh : l.deviceInputs = true → f.cuda = true ∧ l.cudaDeviceId ≠ none ∧ n.refresh = .ok ()
  session : n.checkBindingSession = .ok ()
  options : opts = true → n.checkRunOptions = .ok ()
  inputs : inputs = true → n.syncInputs = .ok ()

/-- The fence after a failed run succeeds, on the bound outputs or on the device. -/
def Fences (f : Features) (l : ServingLane) (n : Native) : Prop :=
  n.fenceOutputs = .ok () ∨ (f.cuda = true ∧ l.cudaDeviceId.isSome ∧ n.deviceFence = true)

/-- A run is issued on a lane without a graph lease, fails, and is not fenced: the fence of the
failure path does not succeed, or, in `run` without run options, there is none. -/
def Unsettled (f : Features) (l : ServingLane) (n : Native) : Op → Prop
  | .run => l.graphLease = none ∧ Issues f l n l.runOpts.isSome true ∧
      (n.runWithBinding ≠ .ok () ∨ n.syncOutputs ≠ .ok ()) ∧ (l.runOpts = none ∨ ¬ Fences f l n)
  | .runEnqueued | .enqueue => l.graphLease = none ∧ Issues f l n true false ∧
      n.runWithBinding ≠ .ok () ∧ ¬ Fences f l n
  | .runProfiled => l.graphLease = none ∧ Issues f l n l.runOpts.isSome true ∧
      n.runWithBinding ≠ .ok () ∧ ¬ Fences f l n
  | _ => False

theorem settled_initial (h : (laneLts f).Initial l) : Settled l := by
  obtain ⟨deviceId, -, rfl⟩ := h
  refine ⟨?_, ?_, ?_, ⟨?_, ?_⟩⟩ <;> simp [ServingLane.new]

theorem settled_clearInFlight (h : Setup l) (hw : l.work = .none) : Settled (clearInFlight l) := by
  refine ⟨?_, ?_, ?_, ⟨h.lease, h.opts⟩⟩ <;> simp [clearInFlight, hw]

/-- Only the work behind a synchronization changes with it. -/
theorem synchronizeCompletion_cases (h : l.completionEventRecorded = true → l.work ≠ .queued) :
    (∃ e, synchronizeCompletion f l n = (l, .error e)) ∨
    synchronizeCompletion f l n = ({ l with work := .none }, .ok ()) := by
  unfold synchronizeCompletion
  split
  · rename_i hc
    have hw := h hc.2
    cases he : n.eventSync with
    | error e => exact .inl ⟨e, by simp [eventSynchronize, he]⟩
    | ok u =>
      right
      cases hwork : l.work <;> simp_all [eventSynchronize]
  · cases he : n.syncOutputs with
    | error e => exact .inl ⟨e, by simp [bindingSynchronizeOutputs]⟩
    | ok u => exact .inr (by simp [bindingSynchronizeOutputs])

theorem tryDeviceFence_cases :
    tryDeviceFenceAfterSyncError f l n = (l, false) ∨
    tryDeviceFenceAfterSyncError f l n = ({ l with work := .none }, true) := by
  unfold tryDeviceFenceAfterSyncError
  split <;> simp

/-- Clearing the lane behind a fence, or leaving it as it is. -/
theorem settled_fenced (h : Settled l)
    (hr : (∃ e, r = (l, .error e)) ∨ r = ({ l with work := .none }, .ok ())) :
    Settled (if (orDeviceFence f n r).2 then clearInFlight (orDeviceFence f n r).1
      else (orDeviceFence f n r).1) := by
  have hclear : Settled (clearInFlight { l with work := .none }) :=
    settled_clearInFlight ⟨h.setup.lease, h.setup.opts⟩ rfl
  rcases hr with ⟨e, rfl⟩ | rfl
  · rcases tryDeviceFence_cases (f := f) (l := l) (n := n) with ht | ht
    · simpa [orDeviceFence, ht] using h
    · simpa [orDeviceFence, ht] using hclear
  · simpa [orDeviceFence] using hclear

theorem settled_synchronizeOutputs (h : Settled l) : Settled (synchronizeOutputs f l n).1 := by
  unfold synchronizeOutputs
  split
  · exact h
  · exact settled_fenced h (synchronizeCompletion_cases fun hr => (h.recorded hr).2)

theorem settled_finishInFlightBestEffort (h : Settled l) :
    Settled (finishInFlightBestEffort f l n) := by
  unfold finishInFlightBestEffort
  split
  · exact h
  · exact settled_fenced h (synchronizeCompletion_cases fun hr => (h.recorded hr).2)

theorem settled_tryComplete (h : Settled l) : Settled (tryComplete f l n).1 := by
  unfold tryComplete
  split
  · exact h
  · split
    · rename_i hc
      have hw := (h.recorded hc.2).2
      split
      · exact h
      · refine settled_clearInFlight (l := { l with work := _ }) ⟨h.setup.lease, h.setup.opts⟩ ?_
        cases hwork : l.work <;> simp_all
      · exact h
    · exact h

theorem fenceOrRetain_fenced (h : Fences f l n) :
    (fenceOrRetainGraphGuard f l n g).1 = clearInFlight { l with work := .none } := by
  unfold fenceOrRetainGraphGuard
  cases ho : n.fenceOutputs with
  | ok u => simp [bindingSynchronizeOutputs, orDeviceFence]
  | error e =>
    have hd : f.cuda = true ∧ l.cudaDeviceId.isSome ∧ n.deviceFence = true := by
      rcases h with h | h
      · rw [ho] at h
        cases h
      · exact h
    simp [bindingSynchronizeOutputs, orDeviceFence, tryDeviceFenceAfterSyncError, hd]

theorem fenceOrRetain_unfenced (h : ¬ Fences f l n) :
    (fenceOrRetainGraphGuard f l n g).1 = match g with
      | some guard => { l with inFlightGraphGuard := some guard, inFlight := true }
      | none => l := by
  simp only [Fences, not_or] at h
  unfold fenceOrRetainGraphGuard
  cases ho : n.fenceOutputs with
  | ok u => exact absurd ho h.1
  | error e =>
    simp only [bindingSynchronizeOutputs, orDeviceFence, tryDeviceFenceAfterSyncError, if_neg h.2]
    cases g <;> rfl

/-- A failed run settles the lane if it is fenced, or if there is a guard or nothing to retain. -/
theorem settled_fenceOrRetain (hs : Setup l) (hr : l.completionEventRecorded = false)
    (hg : l.inFlightGraphGuard ≠ none → l.inFlight = true)
    (h : Fences f l n ∨ g ≠ none ∨ l.inFlight = true ∨ l.work = .none) :
    Settled (fenceOrRetainGraphGuard f l n g).1 := by
  by_cases hf : Fences f l n
  · rw [fenceOrRetain_fenced hf]
    exact settled_clearInFlight (l := { l with work := .none }) ⟨hs.lease, hs.opts⟩ rfl
  · rw [fenceOrRetain_unfenced hf]
    cases g with
    | some guard => exact ⟨by simp, by simp [hr], by simp, ⟨hs.lease, hs.opts⟩⟩
    | none =>
      refine ⟨?_, by simp [hr], hg, hs⟩
      intro hi
      rcases h with h | h | h | h
      · exact absurd h hf
      · exact absurd rfl h
      · simp [hi] at h
      · exact h

/-- What `RunWithBinding` and the calls before it leave: nothing issued, or work queued. -/
theorem runBindingUnsynchronized_cases (opts : Option RunOptions) :
    (∃ e, runBindingUnsynchronized l n opts = (l, .error e) ∧
      ¬ (n.checkBindingSession = .ok () ∧ (opts.isSome = true → n.checkRunOptions = .ok ()))) ∨
    (runBindingUnsynchronized l n opts = ({ l with work := .queued }, n.runWithBinding) ∧
      n.checkBindingSession = .ok () ∧ (opts.isSome = true → n.checkRunOptions = .ok ())) := by
  unfold runBindingUnsynchronized
  cases hs : n.checkBindingSession with
  | error e => exact .inl ⟨e, by simp [call, Result.andThen]⟩
  | ok u =>
    cases opts with
    | none => exact .inr ⟨by simp [call, Result.andThen, runWithBinding], rfl, by simp⟩
    | some o =>
      cases ho : n.checkRunOptions with
      | error e => exact .inl ⟨e, by simp [call, Result.andThen]⟩
      | ok u => exact .inr ⟨by simp [call, Result.andThen, runWithBinding], rfl, by simp⟩

/-- The synchronizing run adds the input synchronization before, and the outputs' after. -/
theorem runBinding_cases (opts : Option RunOptions) :
    (∃ e, runBinding l n opts = (l, .error e) ∧ ¬ (n.checkBindingSession = .ok () ∧
      (opts.isSome = true → n.checkRunOptions = .ok ()) ∧ n.syncInputs = .ok ())) ∨
    ((n.checkBindingSession = .ok () ∧ (opts.isSome = true → n.checkRunOptions = .ok ()) ∧
      n.syncInputs = .ok ()) ∧
      ((∃ e, runBinding l n opts = ({ l with work := .queued }, .error e) ∧
        (n.runWithBinding ≠ .ok () ∨ n.syncOutputs ≠ .ok ())) ∨
      (runBinding l n opts = ({ l with work := .none }, .ok ()) ∧
        n.runWithBinding = .ok () ∧ n.syncOutputs = .ok ()))) := by
  have hrun : n.checkBindingSession = .ok () →
      (if opts.isSome then n.checkRunOptions else .ok ()) = .ok () → n.syncInputs = .ok () →
      runBinding l n opts = (runWithBinding l n).andThen fun l _ =>
        bindingSynchronizeOutputs l n.syncOutputs := by
    intro hs ho hi
    simp [runBinding, call, Result.andThen, hs, ho, hi]
  cases hs : n.checkBindingSession with
  | error e => exact .inl ⟨e, by simp [runBinding, call, Result.andThen, hs]⟩
  | ok u =>
    cases ho : (if opts.isSome then n.checkRunOptions else .ok ()) with
    | error e =>
      refine .inl ⟨e, by simp [runBinding, call, Result.andThen, hs, ho], ?_⟩
      rintro ⟨-, hc, -⟩
      split at ho
      · rw [hc ‹_›] at ho
        cases ho
      · cases ho
    | ok u =>
      have hopts : opts.isSome = true → n.checkRunOptions = .ok () := by
        intro hc
        simpa [hc] using ho
      cases hi : n.syncInputs with
      | error e => exact .inl ⟨e, by simp [runBinding, call, Result.andThen, hs, ho, hi], by simp⟩
      | ok u =>
        right
        refine ⟨⟨rfl, hopts, rfl⟩, ?_⟩
        rw [hrun hs ho hi]
        cases hr : n.runWithBinding with
        | error e => exact .inl ⟨e, by simp [runWithBinding, Result.andThen, hr]⟩
        | ok u =>
          cases hso : n.syncOutputs with
          | error e =>
            exact .inl ⟨e, by simp [runWithBinding, Result.andThen, hr, bindingSynchronizeOutputs]⟩
          | ok u =>
            exact .inr ⟨by simp [runWithBinding, Result.andThen, hr, bindingSynchronizeOutputs],
              rfl, rfl⟩

theorem Settled.of_idle (h : Settled l) (hi : l.inFlight = false) :
    l.work = .none ∧ l.completionEventRecorded = false ∧ l.inFlightGraphGuard = none := by
  refine ⟨h.idle hi, ?_, ?_⟩
  · by_contra hr
    simp [(h.recorded (by simpa using hr)).1] at hi
  · by_contra hg
    simp [h.guard hg] at hi

theorem markCaptured_eq : ∃ b, markCaptured r = { r.1 with graphCaptured := b } := by
  unfold markCaptured
  split
  · exact ⟨true, rfl⟩
  · exact ⟨r.1.graphCaptured, rfl⟩

theorem settled_work_none (h : Settled l) : Settled { l with work := .none } :=
  ⟨fun _ => rfl, fun hr => ⟨(h.recorded hr).1, by simp⟩, h.guard, h.setup.lease, h.setup.opts⟩

/-- The synchronous path on an idle lane. -/
theorem settled_runBoundBinding (h : Settled l) (hi : l.inFlight = false)
    (hc : l.graphLease = none → (n.checkBindingSession = .ok () ∧
      (l.runOpts.isSome = true → n.checkRunOptions = .ok ()) ∧ n.syncInputs = .ok ()) →
      (n.runWithBinding ≠ .ok () ∨ n.syncOutputs ≠ .ok ()) →
      l.runOpts ≠ none ∧ Fences f l n) :
    Settled (runBoundBinding f l n).1 := by
  obtain ⟨hw, hr, hg⟩ := h.of_idle hi
  unfold runBoundBinding
  cases ho : l.runOpts with
  | none =>
    have hlease : l.graphLease = none := by
      by_contra hl
      exact h.setup.opts hl ho
    rcases runBinding_cases (l := l) (n := n) none
      with ⟨e, he, -⟩ | ⟨hchecks, ⟨e, he, hf⟩ | ⟨he, -⟩⟩
    · rw [he]
      exact h
    · exact absurd ho (hc hlease (by simpa [ho] using hchecks) hf).1
    · rw [he]
      exact settled_work_none h
  | some opts =>
    obtain ⟨captured, hm⟩ := markCaptured_eq (r := runBinding l n (some opts))
    simp only [hm]
    rcases runBinding_cases (l := l) (n := n) (some opts) with
      ⟨e, he, -⟩ | ⟨hchecks, ⟨e, he, hf⟩ | ⟨he, -⟩⟩ <;> simp only [he, settleGraphRun]
    · exact settled_fenceOrRetain ⟨h.setup.lease, h.setup.opts⟩ hr h.guard (.inr (.inr (.inr hw)))
    · refine settled_fenceOrRetain ⟨h.setup.lease, h.setup.opts⟩ hr h.guard ?_
      by_cases hlease : l.graphLease = none
      · exact .inl (hc hlease (by simpa [ho] using hchecks) hf).2
      · exact .inr (.inl hlease)
    · exact ⟨fun _ => rfl, by simp [hr], by simp [hg], ⟨h.setup.lease, h.setup.opts⟩⟩

/-- The enqueued path on an idle lane. -/
theorem settled_runBoundBindingEnqueued (h : Settled l) (hi : l.inFlight = false)
    (hc : l.graphLease = none → n.checkBindingSession = .ok () → n.checkRunOptions = .ok () →
      n.runWithBinding ≠ .ok () → Fences f l n) :
    Settled (runBoundBindingEnqueued f l n).1 := by
  obtain ⟨hw, hr, hg⟩ := h.of_idle hi
  have hretain : ∀ {l' : ServingLane}, Setup l' →
      (l'.completionEventRecorded = true → l'.work ≠ .queued) →
      Settled { l' with inFlightGraphGuard := l.graphLease, inFlight := true } :=
    fun hs hrec => ⟨by simp, fun hr => ⟨rfl, hrec hr⟩, by simp, ⟨hs.lease, hs.opts⟩⟩
  simp only [runBoundBindingEnqueued, ensureIdle, hi, Bool.false_eq_true, if_false,
    Result.andThen]
  generalize hrun : runBindingUnsynchronized l n (some l.enqueuedRunOpts) = r
  rcases runBindingUnsynchronized_cases (l := l) (n := n) (some l.enqueuedRunOpts) with
    ⟨e, he, -⟩ | ⟨he, hs, ho⟩ <;> rw [hrun] at he <;> subst he
  · obtain ⟨captured, hm⟩ := markCaptured_eq (r := ((l, .error e) : Result Unit))
    simp only [hm, settleGraphRun]
    exact settled_fenceOrRetain ⟨h.setup.lease, h.setup.opts⟩ hr h.guard (.inr (.inr (.inr hw)))
  · cases hn : n.runWithBinding with
    | error e =>
      obtain ⟨captured, hm⟩ :=
        markCaptured_eq (r := (({ l with work := .queued }, .error e) : Result Unit))
      simp only [hm, settleGraphRun]
      refine settled_fenceOrRetain ⟨h.setup.lease, h.setup.opts⟩ hr h.guard ?_
      by_cases hlease : l.graphLease = none
      · exact .inl (hc hlease hs (ho rfl) (by simp [hn]))
      · exact .inr (.inl hlease)
    | ok u =>
      simp only
      split
      · rename_i hgraph
        cases hev : n.eventRecord with
        | error e =>
          -- a graph id has a lease, so its guard is there to be retained
          obtain ⟨captured, hm⟩ :=
            markCaptured_eq (r := (({ l with work := .queued }, .error e) : Result Unit))
          simp only [eventRecord, hev, hm, settleGraphRun]
          refine settled_fenceOrRetain ⟨h.setup.lease, h.setup.opts⟩ hr h.guard (.inr (.inl ?_))
          exact h.setup.lease (Option.isSome_iff_ne_none.mp hgraph.2.2)
        | ok u =>
          simp only [eventRecord, hev, settleGraphRun, if_true]
          generalize hm : markCaptured _ = l'
          obtain ⟨captured, he⟩ := markCaptured_eq (r := (({ l with
            work := .recorded, completionEventRecorded := true }, .ok ()) : Result Unit))
          rw [← hm, he]
          exact hretain ⟨h.setup.lease, h.setup.opts⟩ (by simp)
      · simp only [settleGraphRun, if_true]
        obtain ⟨captured, he⟩ := markCaptured_eq
          (r := (({ l with work := .queued }, .ok ()) : Result Unit))
        rw [he]
        exact hretain ⟨h.setup.lease, h.setup.opts⟩ (by simp [hr])

theorem settled_andThen {α β : Type} {r : Result α} {k : ServingLane → α → Result β}
    (h : Settled r.1) (hk : ∀ l a, Settled l → Settled (k l a).1) : Settled (r.andThen k).1 := by
  obtain ⟨l, a | a⟩ := r
  · exact h
  · exact hk l a h

theorem rebind_cases : (∃ e, rebindHostInputsIfNeeded l n = (l, .error e)) ∨
    (rebindHostInputsIfNeeded l n = (l, .ok ()) ∧
      (l.rebindInputsEachRun = true → l.deviceInputs = false → n.rebind = .ok ())) := by
  unfold rebindHostInputsIfNeeded
  split
  · cases hr : n.rebind with
    | error e => exact .inl ⟨e, rfl⟩
    | ok u => exact .inr ⟨rfl, fun _ _ => rfl⟩
  · rename_i hn
    exact .inr ⟨rfl, fun h1 h2 => absurd ⟨h1, h2⟩ hn⟩

theorem refresh_cases : (∃ e, refreshDeviceInputs f l n = (l, .error e)) ∨
    (refreshDeviceInputs f l n = (l, .ok ()) ∧ (l.deviceInputs = true →
      f.cuda = true ∧ l.cudaDeviceId ≠ none ∧ n.refresh = .ok ())) := by
  unfold refreshDeviceInputs
  (repeat' split) <;> try exact .inl ⟨_, rfl⟩
  · cases hr : n.refresh with
    | error e => exact .inl ⟨e, rfl⟩
    | ok u => exact .inr ⟨rfl, fun _ => ⟨‹_›, ‹_›, rfl⟩⟩
  · rename_i hn
    exact .inr ⟨rfl, fun h => absurd h hn⟩

/-- The checks and preparations of the run operations touch nothing; past them all succeeded. -/
theorem prepared_cases (k : ServingLane → Result Unit) :
    (∃ e, ((ensureIdle l).andThen fun l _ => (rebindHostInputsIfNeeded l n).andThen fun l _ =>
      (refreshDeviceInputs f l n).andThen fun l _ => k l) = (l, .error e)) ∨
    (((ensureIdle l).andThen fun l _ => (rebindHostInputsIfNeeded l n).andThen fun l _ =>
      (refreshDeviceInputs f l n).andThen fun l _ => k l) = k l ∧ l.inFlight = false ∧
      (l.rebindInputsEachRun = true → l.deviceInputs = false → n.rebind = .ok ()) ∧
      (l.deviceInputs = true →
        f.cuda = true ∧ l.cudaDeviceId ≠ none ∧ n.refresh = .ok ())) := by
  cases hi : l.inFlight with
  | true => exact .inl ⟨_, by simp only [ensureIdle, hi, if_true, Result.andThen]; rfl⟩
  | false =>
    have hidle : ensureIdle l = (l, .ok ()) := by simp [ensureIdle, hi]
    rcases rebind_cases (l := l) (n := n) with ⟨e, he⟩ | ⟨he, hrb⟩
    · exact .inl ⟨e, by simp [hidle, he, Result.andThen]⟩
    · rcases refresh_cases (f := f) (l := l) (n := n) with ⟨e, he'⟩ | ⟨he', hrf⟩
      · exact .inl ⟨e, by simp [hidle, he, he', Result.andThen]⟩
      · exact .inr ⟨by simp [hidle, he, he', Result.andThen], rfl, hrb, hrf⟩

theorem settled_run (h : Settled l) (hc : ¬ Unsettled f l n .run) : Settled (run f l n).1 := by
  unfold run
  rcases prepared_cases (f := f) (l := l) (n := n) (fun l => runPrepared f l n) with
    ⟨e, he⟩ | ⟨he, hi, hrb, hrf⟩
  · rw [he]
    exact h
  · rw [he]
    unfold runPrepared
    split
    · rename_i hg
      have hlease := h.setup.lease (Option.isSome_iff_ne_none.mp hg.2.2)
      exact settled_andThen (settled_runBoundBindingEnqueued h hi fun hl => absurd hl hlease)
        fun l _ hl => settled_synchronizeOutputs hl
    · apply settled_runBoundBinding h hi
      intro hlease hchecks hfail
      by_contra hn
      apply hc
      refine ⟨hlease, ⟨hi, hrb, hrf, hchecks.1, hchecks.2.1, fun _ => hchecks.2.2⟩, hfail, ?_⟩
      by_cases ho : l.runOpts = none
      · exact .inl ho
      · exact .inr fun hf => hn ⟨ho, hf⟩

theorem settled_runEnqueued (h : Settled l) (hc : ¬ Unsettled f l n .runEnqueued) :
    Settled (runEnqueued f l n).1 := by
  unfold runEnqueued
  rcases prepared_cases (f := f) (l := l) (n := n) (fun l => runBoundBindingEnqueued f l n) with
    ⟨e, he⟩ | ⟨he, hi, hrb, hrf⟩
  · rw [he]
    exact h
  · rw [he]
    apply settled_runBoundBindingEnqueued h hi
    intro hlease hs ho hr
    by_contra hf
    exact hc ⟨hlease, ⟨hi, hrb, hrf, hs, fun _ => ho, by simp⟩, hr, hf⟩

/-- `enqueue` hands the lane of `run_enqueued` on, in its token or in its error. -/
theorem enqueuedLane_enqueue : enqueuedLane (enqueue f l n) = some (runEnqueued f l n).1 := by
  unfold enqueue
  split
  · rename_i he
    simp [enqueuedLane, he]
  · rename_i he
    simp [enqueuedLane, he]

theorem settled_runEventProfiled (h : Settled l) : Settled (runEventProfiled f l n).1 := by
  unfold runEventProfiled
  cases hi : l.inFlight with
  | true => simpa [ensureIdle, hi, Result.andThen] using h
  | false =>
    simp only [ensureIdle, hi, Bool.false_eq_true, if_false]
    simp only [Result.andThen]
    split
    · exact h
    · rename_i hg
      rcases refresh_cases (f := f) (l := l) (n := n) with ⟨e, he⟩ | ⟨he, -⟩
      · rw [he]
        exact h
      · rw [he]
        have hlease := h.setup.lease fun hid => hg (.inr hid)
        exact settled_andThen (r := runBoundBindingEnqueued f l n)
          (settled_runBoundBindingEnqueued h hi fun hl => absurd hl hlease)
          fun l _ hl => settled_synchronizeOutputs hl

/-- The retry of a failed output synchronization finds the lane in flight already. -/
theorem settled_runProfiled (h : Settled l) (hc : ¬ Unsettled f l n .runProfiled) :
    Settled (runProfiled f l n).1 := by
  unfold runProfiled
  rcases prepared_cases (f := f) (l := l) (n := n) (fun l => runProfiledPrepared f l n) with
    ⟨e, he⟩ | ⟨he, hi, hrb, hrf⟩
  · rw [he]
    exact h
  · rw [he]
    obtain ⟨hw, hr, hg⟩ := h.of_idle hi
    cases hin : n.syncInputs with
    | error e => simpa [runProfiledPrepared, call, hin, Result.andThen] using h
    | ok u =>
      simp only [runProfiledPrepared, call, hin, Result.andThen]
      generalize hrun : runBindingUnsynchronized l n l.runOpts = r
      rcases runBindingUnsynchronized_cases (l := l) (n := n) l.runOpts with
        ⟨e, he, -⟩ | ⟨he, hs, ho⟩ <;> rw [hrun] at he <;> subst he
      · obtain ⟨captured, hm⟩ := markCaptured_eq (r := ((l, .error e) : Result Unit))
        simp only [hm, settleGraphRun]
        exact settled_fenceOrRetain ⟨h.setup.lease, h.setup.opts⟩ hr h.guard
          (.inr (.inr (.inr hw)))
      · cases hn : n.runWithBinding with
        | error e =>
          obtain ⟨captured, hm⟩ :=
            markCaptured_eq (r := (({ l with work := .queued }, .error e) : Result Unit))
          simp only [hm, settleGraphRun]
          refine settled_fenceOrRetain ⟨h.setup.lease, h.setup.opts⟩ hr h.guard ?_
          by_cases hlease : l.graphLease = none
          · left
            by_contra hf
            exact hc ⟨hlease, ⟨hi, hrb, hrf, hs, ho, fun _ => hin⟩, by simp [hn], hf⟩
          · exact .inr (.inl hlease)
        | ok u =>
          obtain ⟨captured, hm⟩ :=
            markCaptured_eq (r := (({ l with work := .queued }, .ok ()) : Result Unit))
          simp only [hm, settleGraphRun, if_true]
          cases hso : n.syncOutputs with
          | ok u =>
            exact settled_clearInFlight (l := { l with
              work := .none, inFlight := true, inFlightGraphGuard := l.graphLease,
              graphCaptured := captured }) ⟨h.setup.lease, h.setup.opts⟩ rfl
          | error e =>
            exact settled_fenceOrRetain ⟨h.setup.lease, h.setup.opts⟩ hr (fun _ => rfl)
              (.inr (.inr (.inl rfl)))

theorem settled_setGpuGraphId {id : Int} (h : Settled l) : Settled (setGpuGraphId f l n id).1 := by
  unfold setGpuGraphId
  refine settled_andThen ?_ fun l _ hl => settled_andThen ?_ ?_
  · unfold ensureIdle
    split <;> exact h
  · unfold ensureGraphIdAssignable
    split <;> exact hl
  · intro l _ hl
    split
    · exact hl
    · exact ⟨hl.idle, hl.recorded, hl.guard, ⟨by simp, by simp⟩⟩

theorem settled_setSyncStream {stream : Nat} {shares : Bool} (h : Settled l) :
    Settled (setSyncStream l n stream shares).1 := by
  unfold setSyncStream
  refine settled_andThen ?_ ?_
  · unfold ensureIdle
    split <;> exact h
  · intro l _ hl
    split
    · split
      · exact hl
      · exact ⟨hl.idle, hl.recorded, hl.guard, ⟨hl.setup.lease, by simp⟩⟩
    · exact hl

/-- One operation keeps the lane settled unless it takes the unfenced path without a lease. -/
theorem settled_step (h : Settled l) (hc : ¬ Unsettled f l n op) : Settled (op.exec f l n) := by
  cases op with
  | run => exact settled_run h hc
  | runEnqueued => exact settled_runEnqueued h hc
  | runProfiled => exact settled_runProfiled h hc
  | enqueue =>
    rw [Op.exec, enqueuedLane_enqueue]
    exact settled_runEnqueued h hc
  | synchronizeOutputs => exact settled_synchronizeOutputs h
  | tryComplete => exact settled_tryComplete h
  | finishInFlightBestEffort => exact settled_finishInFlightBestEffort h
  | setGpuGraphId id => exact settled_setGpuGraphId h
  | setRebindInputsEachRun enabled =>
    exact ⟨h.idle, h.recorded, h.guard, h.setup.lease, h.setup.opts⟩
  | runEventProfiled =>
    show Settled (if f.cuda then (runEventProfiled f l n).1 else l)
    split
    · exact settled_runEventProfiled h
    · exact h
  | setSyncStream stream shares =>
    show Settled (if f.ep then (setSyncStream l n stream shares).1 else l)
    split
    · exact settled_setSyncStream h
    · exact h

theorem settled_reachable
    (h : Lts.Reachable ((laneLts f).restrict fun l a => ¬ Unsettled f l a.2 a.1) l) :
    Settled l := by
  apply Lts.invariant_reachable ?_ ?_ h
  · exact fun l => settled_initial
  · rintro l ⟨op, n⟩ l' hl ⟨hc, rfl⟩
    exact settled_step hl hc

/-- Fence or poison: in a run that never takes the unfenced path without a lease, a lane that is
not in flight has no provider work that a fence has not covered. -/
theorem idle_fenced
    (h : Lts.Reachable ((laneLts f).restrict fun l a => ¬ Unsettled f l a.2 a.1) l)
    (hi : l.inFlight = false) : l.work = .none :=
  (settled_reachable h).idle hi

/-- Every native call succeeds. -/
def Native.success : Native where
  rebind := .ok ()
  refresh := .ok ()
  checkBindingSession := .ok ()
  checkRunOptions := .ok ()
  syncInputs := .ok ()
  runWithBinding := .ok ()
  eventRecord := .ok ()
  syncOutputs := .ok ()
  fenceOutputs := .ok ()
  eventSync := .ok ()
  eventIsComplete := .ok true
  deviceFence := true
  freeze := .ok ()

/-- A run fails after it may have queued work, and so does every fence. -/
def Native.failure : Native := { Native.success with
  runWithBinding := .error (.local "run failed")
  fenceOutputs := .error (.local "synchronization failed")
  deviceFence := false }

/-- A graph lane whose run fails unfenced is poisoned; once its outputs synchronize it is idle. -/
theorem idle_fenced_graph : ∃ l : ServingLane, l.graphId = some 1 ∧ l.inFlight = false ∧
    l.work = .none := by
  have h0 : Lts.Reachable ((laneLts ⟨true, false⟩).restrict
      fun l a => ¬ Unsettled ⟨true, false⟩ l a.2 a.1) (.new (some 0)) :=
    .initial ⟨some 0, by simp, rfl⟩
  have h1 := h0.step (a := (.setGpuGraphId 1, Native.success)) ⟨by simp [Unsettled], rfl⟩
  have hleased : ¬ Unsettled ⟨true, false⟩
      (Op.exec ⟨true, false⟩ (.new (some 0)) Native.success (.setGpuGraphId 1)) Native.failure
      .runEnqueued := by
    rintro ⟨hlease, -⟩
    exact nomatch (show (some 1 : Option Int) = none from hlease)
  have h2 := h1.step (a := (.runEnqueued, Native.failure)) ⟨hleased, rfl⟩
  have h3 := h2.step (a := (.synchronizeOutputs, Native.success)) ⟨by simp [Unsettled], rfl⟩
  exact ⟨_, rfl, rfl, idle_fenced h3 rfl⟩

/-- A lane as built, whose first run fails: it is idle, and the work is not fenced. -/
theorem idle_fenced_fails :
    ¬ ∀ l, Reachable ⟨false, false⟩ l → l.inFlight = false → l.work = .none := by
  intro h
  have hr : Reachable ⟨false, false⟩ (Op.exec ⟨false, false⟩ (.new none) Native.failure .run) :=
    .step (a := (.run, Native.failure)) (.initial ⟨none, by simp, rfl⟩) rfl
  exact absurd (h _ hr rfl) (by decide)

/-- Nothing fails before the run path is entered. -/
structure Prepared (f : Features) (l : ServingLane) (n : Native) : Prop where
  idle : l.inFlight = false
  rebind : l.rebindInputsEachRun = true → l.deviceInputs = false → n.rebind = .ok ()
  refresh : l.deviceInputs = true → f.cuda = true ∧ l.cudaDeviceId ≠ none ∧ n.refresh = .ok ()

theorem Issues.prepared {opts inputs : Bool} (hi : Issues f l n opts inputs) : Prepared f l n :=
  ⟨hi.idle, hi.rebind, hi.refresh⟩

theorem Prepared.andThen (hp : Prepared f l n) (k : ServingLane → Result Unit) :
    ((ensureIdle l).andThen fun l _ => (rebindHostInputsIfNeeded l n).andThen fun l _ =>
      (refreshDeviceInputs f l n).andThen fun l _ => k l) = k l := by
  have hidle : ensureIdle l = (l, .ok ()) := by simp [ensureIdle, hp.idle]
  have hrebind : rebindHostInputsIfNeeded l n = (l, .ok ()) := by
    unfold rebindHostInputsIfNeeded
    split
    · rename_i hc
      simp [call, hp.rebind hc.1 hc.2]
    · rfl
  have hrefresh : refreshDeviceInputs f l n = (l, .ok ()) := by
    unfold refreshDeviceInputs
    split
    · rename_i hd
      obtain ⟨hcuda, hid, hr⟩ := hp.refresh hd
      simp [hcuda, hid, call, hr]
    · rfl
  simp only [hidle, hrebind, hrefresh, Result.andThen]

theorem Issues.unsynchronized {inputs : Bool} {o : Option RunOptions}
    (hi : Issues f l n o.isSome inputs) :
    runBindingUnsynchronized l n o = ({ l with work := .queued }, n.runWithBinding) := by
  rcases runBindingUnsynchronized_cases (l := l) (n := n) o with ⟨e, -, hn⟩ | ⟨he, -⟩
  · exact absurd ⟨hi.session, hi.options⟩ hn
  · exact he

theorem Issues.synchronized {o : Option RunOptions} (hi : Issues f l n o.isSome true)
    (hf : n.runWithBinding ≠ .ok () ∨ n.syncOutputs ≠ .ok ()) :
    ∃ e, runBinding l n o = ({ l with work := .queued }, .error e) := by
  rcases runBinding_cases (l := l) (n := n) o with ⟨e, -, hn⟩ | ⟨-, ⟨e, he, -⟩ | ⟨-, hr, hs⟩⟩
  · exact absurd ⟨hi.session, hi.options, hi.inputs rfl⟩ hn
  · exact ⟨e, he⟩
  · rcases hf with hf | hf
    · exact absurd hr hf
    · exact absurd hs hf

/-- Without a guard to retain, a failed fence leaves no trace of the queued work. -/
theorem unsettled_settle {e : Error} {k : Bool} (hi : l.inFlight = false) (hg : g = none)
    (hf : ¬ Fences f l n) :
    (settleGraphRun f (markCaptured ({ l with work := .queued }, .error e)) n g (.error e)
      k).1.inFlight = false ∧
    (settleGraphRun f (markCaptured ({ l with work := .queued }, .error e)) n g (.error e)
      k).1.work = .queued := by
  subst hg
  obtain ⟨captured, hm⟩ :=
    markCaptured_eq (r := (({ l with work := .queued }, .error e) : Result Unit))
  have hf' : ¬ Fences f { l with work := .queued, graphCaptured := captured } n := hf
  simp only [hm, settleGraphRun]
  rw [fenceOrRetain_unfenced hf']
  exact ⟨hi, rfl⟩

theorem unsettled_runBoundBindingEnqueued (hi : Issues f l n true false)
    (hlease : l.graphLease = none) (hr : n.runWithBinding ≠ .ok ()) (hf : ¬ Fences f l n) :
    (runBoundBindingEnqueued f l n).1.inFlight = false ∧
      (runBoundBindingEnqueued f l n).1.work = .queued := by
  simp only [runBoundBindingEnqueued, ensureIdle, hi.idle, Bool.false_eq_true, if_false,
    Result.andThen]
  rw [Issues.unsynchronized (o := some l.enqueuedRunOpts) hi]
  cases hn : n.runWithBinding with
  | ok u => exact absurd hn hr
  | error e => exact unsettled_settle hi.idle hlease hf

theorem unsettled_runBoundBinding (hi : Issues f l n l.runOpts.isSome true)
    (hlease : l.graphLease = none) (hr : n.runWithBinding ≠ .ok () ∨ n.syncOutputs ≠ .ok ())
    (hf : l.runOpts = none ∨ ¬ Fences f l n) :
    (runBoundBinding f l n).1.inFlight = false ∧ (runBoundBinding f l n).1.work = .queued := by
  unfold runBoundBinding
  cases ho : l.runOpts with
  | none =>
    obtain ⟨e, he⟩ := Issues.synchronized (f := f) (o := none) (by rw [← ho]; exact hi) hr
    show (runBinding l n none).1.inFlight = false ∧ (runBinding l n none).1.work = .queued
    rw [he]
    exact ⟨hi.idle, rfl⟩
  | some opts =>
    obtain ⟨e, he⟩ := Issues.synchronized (f := f) (o := some opts) (by rw [← ho]; exact hi) hr
    rw [ho] at hf
    show (settleGraphRun f (markCaptured (runBinding l n (some opts))) n l.graphLease
      (runBinding l n (some opts)).2 false).1.inFlight = false ∧
      (settleGraphRun f (markCaptured (runBinding l n (some opts))) n l.graphLease
      (runBinding l n (some opts)).2 false).1.work = .queued
    rw [he]
    exact unsettled_settle hi.idle hlease (by simpa using hf)

/-- The condition is exact: each such step leaves the lane idle with its work unfenced. -/
theorem unsettled_step (h : Settled l) (hu : Unsettled f l n op) :
    (op.exec f l n).inFlight = false ∧ (op.exec f l n).work = .queued := by
  have henqueued : Unsettled f l n .runEnqueued →
      (runEnqueued f l n).1.inFlight = false ∧ (runEnqueued f l n).1.work = .queued := by
    rintro ⟨hlease, hi, hr, hf⟩
    unfold runEnqueued
    rw [hi.prepared.andThen (fun l => runBoundBindingEnqueued f l n)]
    exact unsettled_runBoundBindingEnqueued hi hlease hr hf
  cases op with
  | run =>
    obtain ⟨hlease, hi, hr, hf⟩ := hu
    have hgraph : ¬ (f.cuda = true ∧ l.deviceInputs = true ∧ l.graphId.isSome = true) :=
      fun hg => h.setup.lease (Option.isSome_iff_ne_none.mp hg.2.2) hlease
    show (run f l n).1.inFlight = false ∧ (run f l n).1.work = .queued
    unfold run
    rw [hi.prepared.andThen (fun l => runPrepared f l n), runPrepared, if_neg hgraph]
    exact unsettled_runBoundBinding hi hlease hr hf
  | runEnqueued => exact henqueued hu
  | enqueue =>
    rw [Op.exec, enqueuedLane_enqueue]
    exact henqueued hu
  | runProfiled =>
    obtain ⟨hlease, hi, hr, hf⟩ := hu
    show (runProfiled f l n).1.inFlight = false ∧ (runProfiled f l n).1.work = .queued
    unfold runProfiled
    rw [hi.prepared.andThen (fun l => runProfiledPrepared f l n)]
    simp only [runProfiledPrepared, call, hi.inputs rfl, Result.andThen, hi.unsynchronized]
    cases hn : n.runWithBinding with
    | ok u => exact absurd hn hr
    | error e =>
      have hs := unsettled_settle (e := e) (k := true) hi.idle hlease hf
      simpa only [settleGraphRun] using hs
  | _ => exact absurd hu (by simp [Unsettled])

end Zrt.Lane
