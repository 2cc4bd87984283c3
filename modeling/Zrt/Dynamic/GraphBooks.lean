import Zrt.Dynamic.Graphs

/-! The lanes of a graph runtime, and its books, through every step that does not stray. -/
namespace Zrt.Dynamic

open Lane (Features Native)

variable {ins outs : Nat} {f : Features} {r : DynamicIoRuntime ins outs}
  {P : PreparedBucketId → ServingLane ins outs → Prop} {Q : Lane.Op → Prop}
  {s : GraphState ins outs} {a : GraphOp ins outs} {lost : List (RecoveredDynamicLane ins outs)}

theorem uses_all {a : GraphOp ins outs} (hQ : ∀ op, Q op) : a.Uses Q := by
  cases a with
  | call a fence => cases a with
    | call a => cases a with
      | bucketLane i j op n => exact hQ op
      | runLane k op n => exact hQ op
      | enqueuePrepared id n => exact fun x _ => hQ x.1
      | _ => trivial
    | enqueuePrepared id c => exact fun x _ => hQ x.1
    | completeOwned k n drop consume => trivial
  | _ => trivial

theorem Closed.unwindStep {s : UnwindState ins outs} {a : UnwindOp ins outs} (hP : Closed f Q P)
    (hc : Cached s.runtime) (hQ : a.Uses Q)
    (hnew : ∀ request allowCreate n r' lanes, a = .call (.getOrCreateBucket request allowCreate n) →
      Creates f s.runtime request allowCreate n r' lanes →
      ∀ id, ∀ l ∈ assignRecoverySlots r' request id lanes.1, P id l) (h : s.toState.Within P) :
    (unwindStep f s a).toState.Within P := by
  obtain ⟨hr, hruns⟩ := h
  cases a with
  | call a =>
    exact hP.step hc hQ (fun request allowCreate n r' lanes ha =>
      hnew request allowCreate n r' lanes (congrArg UnwindOp.call ha)) ⟨hr, hruns⟩
  | enqueuePrepared id c =>
    simp only [Dynamic.unwindStep]
    cases hc : c.prepared with
    | returns prepared =>
      obtain ⟨hr', hrun⟩ := hP.enqueuePrepared (n := ⟨c.prepare, prepared, c.run, c.fence⟩) hQ hr id
      simp only [enqueuePreparedEnding, EnqueueClosure.enqueue, hc, Result.ending]
      simp only [Dynamic.enqueuePrepared] at hr' hrun
      revert hr' hrun
      obtain ⟨r', e | run⟩ :=
        enqueueWith f s.runtime id (fun lane => lane.play f c.prepare) prepared
        c.run c.fence
      · exact fun hr' _ => ⟨hr', hruns⟩
      · intro hr' hrun
        refine ⟨hr', ?_⟩
        intro run' hm
        rcases List.mem_cons.mp hm with rfl | hm
        · exact hrun run' rfl
        · exact hruns run' hm
    | unwinds =>
      have hdetach := (hr.reclaim.detachLane id).1
      simp only [enqueuePreparedEnding, EnqueueClosure.enqueue, hc]
      revert hdetach
      obtain ⟨r', e | ⟨lane, id'⟩⟩ := detachLane (reclaimDroppedRuns s.runtime).1 id
      · exact fun hdetach => ⟨hdetach, hruns⟩
      · intro hdetach
        dsimp only
        split
        · exact ⟨hdetach.of_eq rfl rfl, hruns⟩
        · exact ⟨hdetach, hruns⟩
  | completeOwned k n drop consume =>
    simp only [Dynamic.unwindStep]
    split
    · exact ⟨hr, hruns⟩
    · rename_i run hk
      have hrun := hruns run (List.mem_of_getElem? hk)
      refine ⟨?_, fun run' hm => hruns run' (List.mem_of_mem_eraseIdx hm)⟩
      rcases completeOwnedEnding_cases (f := f) s.runtime run n drop consume with
        ⟨-, -, he⟩ | ⟨-, result, he⟩ <;> rw [he]
      · have hsync := hP.exec .synchronizeOutputs n hP.synchronizeOutputs hrun
        exact hP.dropOwned { run with lane := run.synchronized f n } hr hsync
      · exact hP.completeOwned hr hrun

/-- A token that is refused leaves nothing but its lane behind. -/
theorem completeOwned_refused {α : Type} {run : OwnedDynamicIoRun ins outs} {n : Native}
    {consume : ServingLane ins outs → Except Error α} (h : ¬ Accepts f r run n) :
    { (completeOwned f r run n consume).1 with leaked := r.leaked, lost := r.lost } = r := by
  unfold completeOwned
  dsimp only
  split
  · rfl
  · rename_i hin
    rcases returnDetachedLane_cases r run.bucketId
        (run.lane.after (Lane.synchronizeOutputs f run.lane.toServingLane n).1) with
      ⟨-, e, he⟩ | ⟨i, b, hi, hb, -, ⟨-, e, he⟩ | ⟨hpos, hlt, -⟩⟩
    · rw [he]
    · rw [he]
      rfl
    · have hidle : (Lane.synchronizeOutputs f run.lane.toServingLane n).1.inFlight = false :=
        eq_false_of_ne_true hin
      exact absurd ⟨hidle, i, b, hi, hb, hpos, hlt⟩ h

theorem request_rest (s : GraphState ins outs) (fence : Nat → Native) (a : UnwindOp ins outs) :
    (s.request f fence a).away = s.away ∧ (s.request f fence a).finished = s.finished ∧
      (s.request f fence a).alive = s.alive := by
  unfold GraphState.request
  split
  · split <;> exact ⟨rfl, rfl, rfl⟩
  · exact ⟨rfl, rfl, rfl⟩

/-- A property of lanes that new lanes have is kept by everything that does not stray. -/
theorem Closed.graphStep (hP : Closed f Q P) (hc : Cached s.runtime) (hQ : a.Uses Q)
    (hno : ¬ Strays f s a)
    (hnew : ∀ request allowCreate n fence r' lanes,
      a = .call (.call (.getOrCreateBucket request allowCreate n)) fence →
      Creates f s.runtime request allowCreate n r' lanes →
      ∀ id, ∀ l ∈ assignRecoverySlots r' request id lanes.1, P id l) (h : s.toState.Within P) :
    (graphStep f s a).toState.Within P := by
  cases a with
  | call a fence =>
    exact hP.unwindStep hc hQ (fun request allowCreate n r' lanes ha =>
      hnew request allowCreate n fence r' lanes (congrArg (GraphOp.call · fence) ha)) h
  | completeForeign run n consume =>
    simp only [Dynamic.graphStep, completeOwned_refused hno]
    exact h
  | giveAway k =>
    simp only [Dynamic.graphStep]
    split
    · exact ⟨h.runtime, fun run hm => h.runs run (List.mem_of_mem_eraseIdx hm)⟩
    · exact h
  | letGo i j => exact absurd trivial hno
  | letGoOwned k => exact absurd trivial hno
  | allocateElsewhere => exact h
  | releaseEnds id => exact h
  | dropRuntime n =>
    have hw : Within P (waitForRetiredBuckets (reclaimDroppedRuns s.runtime).1) :=
      h.runtime.reclaim.of_eq rfl rfl
    exact ⟨hw.drain, h.runs⟩

theorem loans_elsewhere (s : GraphState ins outs) :
    (s.elsewhere.map RecoveredDynamicLane.loan : List (PreparedBucketId × Tag ins outs)) =
      s.tokens + (s.debts + s.gone) + s.runtime.loans := by
  have hruns :
    (s.runs.map fun run => (⟨run.lane, run.bucketId⟩ : RecoveredDynamicLane ins outs)).map
      RecoveredDynamicLane.loan = s.runs.map OwnedDynamicIoRun.loan := by
    rw [List.map_map]
    rfl
  simp only [GraphState.elsewhere, List.map_append, hruns, State.tokens, UnwindState.debts,
    GraphState.gone, DynamicIoRuntime.loans, Multiset.coe_add, List.append_assoc]

/-- Nothing that does not stray spoils the books. -/
theorem ledger_graphStep (h : Ledger s.runtime (s.tokens + (s.debts + s.gone)) lost)
    (hno : ¬ Strays f s a) (ha : ∀ n, a ≠ .dropRuntime n) :
    ∃ lost', Ledger (graphStep f s a).runtime ((graphStep f s a).tokens +
      ((graphStep f s a).debts + (graphStep f s a).gone)) lost' := by
  cases a with
  | call a fence =>
    have hgone : (graphStep f s (.call a fence)).gone = s.gone := by
      simp only [GraphState.gone, graphStep, request_rest]
    rw [hgone]
    exact ledger_unwindStep h
  | completeForeign run n consume =>
    simp only [graphStep, completeOwned_refused hno]
    exact ⟨lost, h⟩
  | giveAway k =>
    simp only [graphStep]
    split
    · rename_i run hk
      rw [tokens_erase hk, Multiset.cons_add, ← Multiset.add_cons, ← Multiset.add_cons] at h
      exact ⟨lost, h⟩
    · exact ⟨lost, h⟩
  | letGo i j => exact absurd trivial hno
  | letGoOwned k => exact absurd trivial hno
  | allocateElsewhere => exact ⟨lost, h⟩
  | releaseEnds id => exact ⟨lost, h⟩
  | dropRuntime n => exact absurd rfl (ha n)

theorem within_exchange {s : State ins outs} {x : Exchange ins outs} (h : s.Within P)
    (hx : x.InPlace) : (s.exchange x).Within P := by
  rcases exchange_inPlace (s := s) hx with he | ⟨i, b, lanes, hb, hperm, he⟩ <;> rw [he]
  · exact h
  · exact ⟨h.runtime.reorder hb hperm, h.runs⟩

/-- An exchange in place puts no lane into the caller's hands. -/
theorem displaced_inPlace {s : State ins outs} {x : Exchange ins outs} (hx : x.InPlace) :
    s.displaced x = [] := by
  cases x with
  | bucket i other => exact hx.elim
  | lane p other => exact hx.elim
  | buckets i j => rfl
  | lanes p q => rfl

theorem ledger_graphExchange {x : Exchange ins outs} (hx : x.InPlace)
    (h : Ledger s.runtime (s.tokens + (s.debts + s.gone)) lost) :
    Ledger (s.exchange x).runtime ((s.exchange x).tokens + ((s.exchange x).debts +
      (s.exchange x).gone)) lost := by
  have hgone : (s.exchange x).gone = s.gone := by
    simp only [GraphState.gone, GraphState.exchange, displaced_inPlace hx, List.nil_append]
  rw [hgone]
  exact ledger_exchange h hx

end Zrt.Dynamic
