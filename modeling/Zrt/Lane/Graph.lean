import Zrt.Lane.Frame
import Zrt.Lane.Outcome

/-! Lanes that capture a graph on their first run and replay it afterwards. -/
namespace Zrt.Lane

variable {f : Features} {l l' : ServingLane} {n : Native} {op : Op} {id : Int}

/-- A lane with a graph id, whose work is fenced whenever it is idle. -/
structure GraphLane (l : ServingLane) : Prop where
  coherent : Coherent l
  lease : l.graphLease.isSome = true
  fenced : l.inFlight = false → l.work = .none

theorem graphLane_quiet (h : GraphLane l) (hq : Quiet l l') : GraphLane l' := by
  refine ⟨coherent_quiet h.coherent hq, ?_, ?_⟩
  · cases hq with
    | graphId => rfl
    | _ => exact h.lease
  · cases hq with
    | fenced => exact fun _ => rfl
    | _ => exact h.fenced

theorem graphLane_abandoned (h : GraphLane l) (hi : l.inFlight = false) (ha : Abandoned l l') :
    GraphLane l' := by
  refine ⟨coherent_abandoned h.coherent hi ha, ?_, ?_⟩
  · cases ha <;> exact h.lease
  · cases ha with
    | fenced => exact fun _ => rfl
    | retained guard hg => exact nofun
    | same hg => exact h.fenced

/-- Behind a lease nothing is forgotten. -/
theorem graphLane_ran (h : GraphLane l) (hi : l.inFlight = false) (hr : Ran l l') :
    GraphLane l' := by
  refine ⟨coherent_ran h.coherent hi hr, ?_, ?_⟩
  · cases hr <;> exact h.lease
  · cases hr with
    | fenced => exact fun _ => rfl
    | retained => exact nofun
    | forgotten captured hc hg =>
      have hlease := h.lease
      simp [hg] at hlease

theorem graphLane_exec (op : Op) (n : Native) (h : GraphLane l) : GraphLane (op.exec f l n) := by
  rcases exec_outcome (f := f) n op h.coherent with ⟨-, -, hq⟩ | ⟨hb, -, ha⟩ | ⟨hs, hr⟩
  · exact graphLane_quiet h hq
  · exact graphLane_abandoned h hb.idle ha
  · exact graphLane_ran h hs.idle hr

theorem coherent_new {deviceId : Option Int} : Coherent (.new deviceId) :=
  ⟨nofun, nofun, fun _ => rfl, rfl, rfl, rfl⟩

/-- A lane is assigned a graph id over fenced work. -/
theorem graphLane_setGpuGraphId (h : Coherent l) (hw : l.work = .none)
    (hok : (setGpuGraphId f l n id).2 = .ok ()) :
    GraphLane (setGpuGraphId f l n id).1 ∧ (setGpuGraphId f l n id).1.inFlight = false := by
  have hq : Quiet l (setGpuGraphId f l n id).1 := quiet_setGpuGraphId
  have hc := coherent_quiet h hq
  rcases setGpuGraphId_cases (f := f) (l := l) (n := n) id with
    ⟨e, he⟩ | ⟨opts, enqueued, hi, ho, hen, he⟩ <;> rw [he] at hok hc ⊢
  · cases hok
  · exact ⟨⟨hc, rfl, fun _ => hw⟩, hi⟩

theorem GraphLane.graphId (h : GraphLane l) : l.graphId.isSome = true :=
  h.coherent.graphId ▸ h.lease

theorem settleGraphRun_ok {g : Option Int} {result : Except Error Unit} {b : Bool}
    (hok : (settleGraphRun f l n g result b).2 = .ok ()) :
    result = .ok () ∧ settleGraphRun f l n g result b =
      (if b then { l with inFlightGraphGuard := g, inFlight := true } else l, .ok ()) := by
  cases result with
  | ok _ => exact ⟨rfl, rfl⟩
  | error e => cases hok

/-- The enqueued path marks its capture before anything behind it can fail. -/
theorem runBoundBindingEnqueued_captured (h : GraphLane l)
    (hok : (runBoundBindingEnqueued f l n).2 = .ok ()) :
    (runBoundBindingEnqueued f l n).1.graphCaptured = true := by
  revert hok
  unfold runBoundBindingEnqueued ensureIdle
  split
  · intro hok
    cases hok
  · simp only [Result.andThen]
    rcases runBindingUnsynchronized_cases (l := l) (n := n) (some l.enqueuedRunOpts) with
      ⟨e, he, -⟩ | ⟨he, -⟩ <;> rw [he]
    · intro hok
      cases (settleGraphRun_ok hok).1
    · cases n.runWithBinding with
      | error e =>
        intro hok
        cases (settleGraphRun_ok hok).1
      | ok _ =>
        dsimp only
        split
        · cases hev : n.eventRecord with
          | error e =>
            simp only [eventRecord, hev]
            intro hok
            cases (settleGraphRun_ok hok).1
          | ok _ =>
            intro _
            simp only [eventRecord, hev, markCaptured_ok, settleGraphRun, h.graphId, Bool.or_true,
              if_true]
        · intro _
          simp only [markCaptured_ok, settleGraphRun, h.graphId, Bool.or_true, if_true]

/-- The synchronous path ends without a run in flight. -/
theorem runBoundBinding_ok (h : GraphLane l) (hi : l.inFlight = false)
    (hok : (runBoundBinding f l n).2 = .ok ()) :
    (runBoundBinding f l n).1.graphCaptured = true ∧
      (runBoundBinding f l n).1.inFlight = false := by
  revert hok
  unfold runBoundBinding
  cases ho : l.runOpts with
  | none =>
    have hlease := h.coherent.runOpts ▸ h.lease
    simp [ho] at hlease
  | some opts =>
    rcases runBinding_cases (l := l) (n := n) (some opts) with
      ⟨e, he, -⟩ | ⟨-, ⟨e, he, -⟩ | ⟨he, -⟩⟩ <;> simp only [he]
    · intro hok
      cases (settleGraphRun_ok hok).1
    · intro hok
      cases (settleGraphRun_ok hok).1
    · intro _
      simp [markCaptured_ok, settleGraphRun, h.graphId, hi]

/-- A lane that has run has captured its graph, and waits for nothing. -/
theorem run_ok (h : GraphLane l) (hok : (run f l n).2 = .ok ()) :
    (run f l n).1.graphCaptured = true ∧ (run f l n).1.inFlight = false := by
  unfold run at hok ⊢
  rcases prepared_cases (f := f) (l := l) (n := n) (fun l => runPrepared f l n) with
    ⟨e, he⟩ | ⟨he, hi, -⟩ <;> rw [he] at hok ⊢
  · cases hok
  · unfold runPrepared at hok ⊢
    split at hok
    · rename_i hg
      rw [if_pos hg]
      have hcaptured := runBoundBindingEnqueued_captured (f := f) (n := n) h
      revert hok hcaptured
      obtain ⟨l', e | ⟨⟩⟩ := runBoundBindingEnqueued f l n
      · intro hok
        cases hok
      · intro hok hcaptured
        exact ⟨(framed_captured.under n).synchronizeOutputs (hcaptured rfl),
          synchronizeOutputs_ok hok⟩
    · rename_i hg
      rw [if_neg hg]
      exact runBoundBinding_ok h hi hok

end Zrt.Lane
