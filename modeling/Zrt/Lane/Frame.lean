import Zrt.Lane.Specification

/-! Properties of a lane that its runs and fences cannot touch. -/
namespace Zrt.Lane

/-- A property that no field a run or a fence writes can spoil. -/
structure Framed (P : ServingLane → Prop) : Prop where
  work : ∀ {l} work, P l → P { l with work := work }
  event : ∀ {l} work, P l → P { l with work := work, completionEventRecorded := true }
  cleared : ∀ {l}, P l → P (clearInFlight l)
  retained : ∀ {l} guard, P l → P { l with inFlightGraphGuard := guard, inFlight := true }
  captured : ∀ {l}, P l → P { l with graphCaptured := true }
  syncStream : ∀ {l} opts enqueued stream, P l → P { l with
    runOpts := opts
    enqueuedRunOpts := enqueued
    syncStream := stream }
  rebind : ∀ {l} enabled, P l → P (setRebindInputsEachRun l enabled)

/-- A property that no field a run or a fence writes can spoil under the outcomes `n`: a capture is
marked only where `RunWithBinding` succeeded. -/
structure FramedUnder (n : Native) (P : ServingLane → Prop) : Prop where
  work : ∀ {l} work, P l → P { l with work := work }
  event : ∀ {l} work, P l → P { l with work := work, completionEventRecorded := true }
  cleared : ∀ {l}, P l → P (clearInFlight l)
  retained : ∀ {l} guard, P l → P { l with inFlightGraphGuard := guard, inFlight := true }
  captured : ∀ {l}, n.runWithBinding = .ok () → P l → P { l with graphCaptured := true }
  rebind : ∀ {l} enabled, P l → P (setRebindInputsEachRun l enabled)

theorem Framed.under {P : ServingLane → Prop} (hP : Framed P) (n : Native) : FramedUnder n P :=
  ⟨hP.work, hP.event, hP.cleared, hP.retained, fun _ => hP.captured, hP.rebind⟩

variable {f : Features} {l : ServingLane} {n : Native} {α β : Type} {r : Result α}
  {k : ServingLane → α → Result β} {outcome : Except Error Unit} {P : ServingLane → Prop}
  {opts : Option RunOptions} {g : Option Int} {b : Bool} {op : Op}

theorem framed_andThen (hr : P r.1) (hk : ∀ l a, P l → P (k l a).1) : P (r.andThen k).1 := by
  obtain ⟨l, a | a⟩ := r
  · exact hr
  · exact hk l a hr

theorem framed_ensureIdle (h : P l) : P (ensureIdle l).1 := by
  unfold ensureIdle
  split <;> exact h

theorem andThen_ok {b : β} (h : (r.andThen k).2 = .ok b) :
    ∃ l a, r = (l, .ok a) ∧ (k l a).2 = .ok b := by
  obtain ⟨l, e | a⟩ := r
  · cases h
  · exact ⟨l, a, rfl, h⟩

/-- A bound run that succeeds has called `RunWithBinding` with success. -/
theorem runBindingUnsynchronized_ran (h : (runBindingUnsynchronized l n opts).2 = .ok ()) :
    n.runWithBinding = .ok () := by
  obtain ⟨_, _, -, h⟩ := andThen_ok h
  obtain ⟨_, _, -, h⟩ := andThen_ok h
  exact h

theorem runBinding_ran (h : (runBinding l n opts).2 = .ok ()) : n.runWithBinding = .ok () := by
  obtain ⟨_, _, -, h⟩ := andThen_ok h
  obtain ⟨_, _, -, h⟩ := andThen_ok h
  obtain ⟨_, _, -, h⟩ := andThen_ok h
  obtain ⟨_, _, hrun, -⟩ := andThen_ok h
  exact congrArg Prod.snd hrun

namespace FramedUnder

theorem bindingSynchronizeOutputs (hP : FramedUnder n P) (outcome : Except Error Unit) (h : P l) :
    P (bindingSynchronizeOutputs l outcome).1 := by
  cases outcome with
  | ok _ => exact hP.work .none h
  | error _ => exact h

theorem synchronizeCompletion (hP : FramedUnder n P) (h : P l) :
    P (synchronizeCompletion f l n).1 := by
  unfold Lane.synchronizeCompletion eventSynchronize
  split
  · split
    · exact hP.work _ h
    · exact h
  · exact hP.bindingSynchronizeOutputs _ h

theorem eventRecord (hP : FramedUnder n P) (h : P l) : P (eventRecord l n).1 := by
  unfold Lane.eventRecord
  split
  · exact hP.event _ h
  · exact h

theorem orDeviceFence (hP : FramedUnder n P) {r : Result Unit} (h : P r.1) :
    P (orDeviceFence f n r).1 := by
  obtain ⟨l, e | e⟩ := r
  · simp only [Lane.orDeviceFence, tryDeviceFenceAfterSyncError]
    split
    · exact hP.work .none h
    · exact h
  · exact h

theorem finishInFlightBestEffort (hP : FramedUnder n P) (h : P l) :
    P (finishInFlightBestEffort f l n) := by
  have hfence := hP.orDeviceFence (f := f) (hP.synchronizeCompletion (f := f) h)
  unfold Lane.finishInFlightBestEffort
  split
  · exact h
  · dsimp only
    split
    · exact hP.cleared hfence
    · exact hfence

theorem synchronizeOutputs (hP : FramedUnder n P) (h : P l) : P (synchronizeOutputs f l n).1 := by
  have hfence := hP.orDeviceFence (f := f) (hP.synchronizeCompletion (f := f) h)
  unfold Lane.synchronizeOutputs
  split
  · exact h
  · dsimp only
    split
    · exact hP.cleared hfence
    · exact hfence

theorem tryComplete (hP : FramedUnder n P) (h : P l) : P (tryComplete f l n).1 := by
  unfold Lane.tryComplete
  split
  · exact h
  · split
    · split
      · exact h
      · exact hP.cleared (hP.work _ h)
      · exact h
    · exact h

theorem rebindHostInputsIfNeeded (h : P l) : P (rebindHostInputsIfNeeded l n).1 := by
  unfold Lane.rebindHostInputsIfNeeded call
  split <;> exact h

theorem refreshDeviceInputs (h : P l) : P (refreshDeviceInputs f l n).1 := by
  unfold Lane.refreshDeviceInputs call
  split
  · split
    · split <;> exact h
    · exact h
  · exact h

theorem runBindingUnsynchronized (hP : FramedUnder n P) (h : P l) :
    P (runBindingUnsynchronized l n opts).1 :=
  framed_andThen h fun _ _ h => framed_andThen h fun _ _ h => hP.work .queued h

theorem runBinding (hP : FramedUnder n P) (h : P l) : P (runBinding l n opts).1 := by
  refine framed_andThen h fun _ _ h => framed_andThen h fun _ _ h => framed_andThen h ?_
  intro _ _ h
  exact framed_andThen (hP.work .queued h) fun _ _ h => hP.bindingSynchronizeOutputs _ h

theorem settleGraphRun (hP : FramedUnder n P) (g : Option Int)
    (outcome : Except Error Unit) (b : Bool)
    (h : P l) : P (settleGraphRun f l n g outcome b).1 := by
  unfold Lane.settleGraphRun fenceOrRetainGraphGuard
  have hfence := hP.orDeviceFence (f := f) (hP.bindingSynchronizeOutputs n.fenceOutputs h)
  cases outcome with
  | ok _ =>
    dsimp only
    split
    · exact hP.retained g h
    · exact h
  | error e =>
    dsimp only
    split
    · exact hP.cleared hfence
    · exact hP.retained _ hfence
    · exact hfence

theorem markCaptured (hP : FramedUnder n P) {r : Result Unit}
    (hr : r.2 = .ok () → n.runWithBinding = .ok ()) (h : P r.1) : P (markCaptured r) := by
  unfold Lane.markCaptured
  split
  · rename_i hc
    refine hP.captured (hr ?_) h
    cases ho : r.2 with
    | ok _ => rfl
    | error e => simp [ho, Except.isOk, Except.toBool] at hc
  · exact h

theorem runBoundBinding (hP : FramedUnder n P) (h : P l) : P (runBoundBinding f l n).1 := by
  unfold Lane.runBoundBinding
  split
  · exact hP.runBinding h
  · exact hP.settleGraphRun _ _ _ (hP.markCaptured runBinding_ran (hP.runBinding h))

theorem runBoundBindingEnqueued (hP : FramedUnder n P) (h : P l) :
    P (runBoundBindingEnqueued f l n).1 := by
  refine framed_andThen (framed_ensureIdle h) ?_
  intro l' _ h
  refine hP.settleGraphRun _ _ _ (hP.markCaptured (fun hok => ?_) ?_)
  · obtain ⟨_, _, hrun, -⟩ := andThen_ok hok
    exact runBindingUnsynchronized_ran (by rw [hrun])
  refine framed_andThen (hP.runBindingUnsynchronized h) ?_
  intro l'' _ h'
  split
  · exact hP.eventRecord h'
  · exact h'

/-- Inputs are prepared before every run. -/
theorem prepared {k : ServingLane → Result Unit} (hk : ∀ l, P l → P (k l).1) (h : P l) :
    P ((ensureIdle l).andThen fun l _ => (Lane.rebindHostInputsIfNeeded l n).andThen fun l _ =>
      (Lane.refreshDeviceInputs f l n).andThen fun l _ => k l).1 := by
  refine framed_andThen (framed_ensureIdle h) ?_
  intro l _ h
  refine framed_andThen (rebindHostInputsIfNeeded h) ?_
  intro l _ h
  exact framed_andThen (refreshDeviceInputs h) fun l _ h => hk l h

theorem run (hP : FramedUnder n P) (h : P l) : P (run f l n).1 := by
  refine prepared ?_ h
  intro l h
  unfold runPrepared
  split
  · exact framed_andThen (hP.runBoundBindingEnqueued h) fun l _ h => hP.synchronizeOutputs h
  · exact hP.runBoundBinding h

theorem runEnqueued (hP : FramedUnder n P) (h : P l) : P (runEnqueued f l n).1 :=
  prepared (fun _ h => hP.runBoundBindingEnqueued h) h

theorem runProfiled (hP : FramedUnder n P) (h : P l) : P (runProfiled f l n).1 := by
  refine prepared (fun l h => framed_andThen h ?_) h
  intro l _ h
  refine framed_andThen (hP.settleGraphRun _ _ _ (hP.markCaptured runBindingUnsynchronized_ran ?_))
    ?_
  · exact hP.runBindingUnsynchronized h
  · intro l _ h
    have hs := hP.bindingSynchronizeOutputs n.syncOutputs h
    revert hs
    obtain ⟨l, e | ⟨⟩⟩ := Lane.bindingSynchronizeOutputs l n.syncOutputs
    · exact fun hs => hP.settleGraphRun (f := f) none (.error e) false hs
    · exact fun hs => hP.cleared hs

theorem runEventProfiled (hP : FramedUnder n P) (h : P l) : P (runEventProfiled f l n).1 := by
  refine framed_andThen (framed_ensureIdle h) ?_
  intro l _ h
  split
  · exact h
  · refine framed_andThen (refreshDeviceInputs h) ?_
    intro l _ h
    refine framed_andThen (hP.runBoundBindingEnqueued h) ?_
    intro l _ h
    exact hP.synchronizeOutputs h

theorem enqueue (hP : FramedUnder n P) (h : P l) : P ((enqueuedLane (enqueue f l n)).getD l) := by
  have hrun := hP.runEnqueued (f := f) h
  revert hrun
  unfold Lane.enqueue enqueuedLane
  obtain ⟨l', e | ⟨⟩⟩ := Lane.runEnqueued f l n <;> exact fun hrun => hrun

/-- Every operation keeps the property, if the setters do. -/
theorem exec (hP : FramedUnder n P) (h : P l)
    (hid : ∀ id, op = .setGpuGraphId id → P (setGpuGraphId f l n id).1)
    (hstream : ∀ stream shares, op = .setSyncStream stream shares →
      P (setSyncStream l n stream shares).1) : P (op.exec f l n) := by
  cases op with
  | run => exact hP.run h
  | runEnqueued => exact hP.runEnqueued h
  | runProfiled => exact hP.runProfiled h
  | runEventProfiled =>
    simp only [Op.exec]
    split
    · exact hP.runEventProfiled h
    · exact h
  | enqueue => exact hP.enqueue h
  | synchronizeOutputs => exact hP.synchronizeOutputs h
  | tryComplete => exact hP.tryComplete h
  | finishInFlightBestEffort => exact hP.finishInFlightBestEffort h
  | setGpuGraphId id => exact hid id rfl
  | setSyncStream stream shares =>
    simp only [Op.exec]
    split
    · exact hstream stream shares rfl
    · exact h
  | setRebindInputsEachRun enabled => exact hP.rebind enabled h

end FramedUnder

namespace Framed

theorem setSyncStream (hP : Framed P) {stream : Nat} {shares : Bool} (h : P l) :
    P (setSyncStream l n stream shares).1 := by
  refine framed_andThen (framed_ensureIdle h) ?_
  intro l _ h
  split
  · split
    · exact h
    · exact hP.syncStream _ _ _ h
  · exact h

/-- Every operation keeps the property, if assigning a graph id does. -/
theorem exec (hP : Framed P) (h : P l)
    (hid : ∀ id, op = .setGpuGraphId id → P (setGpuGraphId f l n id).1) : P (op.exec f l n) :=
  (hP.under n).exec h hid fun _ _ _ => hP.setSyncStream h

end Framed

theorem framed_slot (slot : Option Nat) : Framed fun l => l.recoverySlot = slot where
  work _ h := h
  event _ h := h
  cleared h := h
  retained _ h := h
  captured h := h
  syncStream _ _ _ h := h
  rebind _ h := h

theorem slot_finishInFlightBestEffort :
    (finishInFlightBestEffort f l n).recoverySlot = l.recoverySlot :=
  ((framed_slot l.recoverySlot).under n).finishInFlightBestEffort rfl

theorem slot_synchronizeOutputs : (synchronizeOutputs f l n).1.recoverySlot = l.recoverySlot :=
  ((framed_slot l.recoverySlot).under n).synchronizeOutputs rfl

theorem slot_runEnqueued : (runEnqueued f l n).1.recoverySlot = l.recoverySlot :=
  ((framed_slot l.recoverySlot).under n).runEnqueued rfl

theorem slot_setGpuGraphId {id : Int} :
    (setGpuGraphId f l n id).1.recoverySlot = l.recoverySlot := by
  have hassign : ∀ l' : ServingLane, l'.recoverySlot = l.recoverySlot →
      (ensureGraphIdAssignable l').1.recoverySlot = l.recoverySlot := by
    intro l' h
    unfold ensureGraphIdAssignable
    split <;> exact h
  refine framed_andThen (P := fun l' => l'.recoverySlot = l.recoverySlot) (framed_ensureIdle (P :=
    fun l' => l'.recoverySlot = l.recoverySlot) rfl) ?_
  intro l' _ h
  refine framed_andThen (P := fun l' => l'.recoverySlot = l.recoverySlot) (hassign l' h) ?_
  intro l' _ h
  split <;> exact h

/-- The recovery slot its runtime fixed for a lane stays. -/
@[simp] theorem slot_exec : (op.exec f l n).recoverySlot = l.recoverySlot :=
  (framed_slot l.recoverySlot).exec rfl fun _ _ => slot_setGpuGraphId

theorem framed_captured : Framed fun l => l.graphCaptured = true where
  work _ h := h
  event _ h := h
  cleared h := h
  retained _ h := h
  captured _ := rfl
  syncStream _ _ _ h := h
  rebind _ h := h

/-- A captured lane stays captured until it is assigned a graph id. -/
theorem captured_exec (h : l.graphCaptured = true) (hop : ∀ id, op ≠ .setGpuGraphId id) :
    (op.exec f l n).graphCaptured = true :=
  framed_captured.exec h fun id he => absurd he (hop id)

/-- A lane without a capture has none until a `RunWithBinding` succeeds. -/
theorem framed_uncaptured (hn : n.runWithBinding ≠ .ok ()) :
    FramedUnder n fun l => l.graphCaptured = false where
  work _ h := h
  event _ h := h
  cleared h := h
  retained _ h := h
  captured hok := absurd hok hn
  rebind _ h := h

end Zrt.Lane
