import Zrt.Spsc.Safety

/-! What `Err(Closed)` promises about the values sent before it. -/
namespace Zrt.Spsc

variable {w k capacity : Nat} {T : Type*} {s t u : State w T} {l : Label T}

/-- The step ends a `try_recv` with `Err(Closed)`, or a `recv` with `None`. -/
def ReturnsClosed (l : Label T) : Prop :=
  l = .recvStep (some (.tryRecv (.error .closed))) ∨ l = .recvStep (some (.recv none))

/-- The step is the sender's `sender_closed` store, and the receiver stands between a tail load
that found the queue empty and its own load of `sender_closed`, with a value published since. -/
def ClosesBehindEmptyCheck (s : State w T) (l : Label T) : Prop :=
  (∃ r, l = .sendStep r) ∧ (∃ d, s.sender = .storeSenderClosed d) ∧
    ∃ b head, s.receiver = .loadSenderClosed b head ∧ s.inner.tail ≠ head

/-- An empty check that is still to read `sender_closed` is not stale once the flag is set. -/
def FreshCheck (s : State w T) : Prop :=
  ∀ b head, s.receiver = .loadSenderClosed b head → s.inner.senderClosed = true →
    s.inner.tail = head

theorem freshCheck_step (h : Step s l t) (hi : Invariant k s)
    (hc : ¬ ClosesBehindEmptyCheck s l) (hf : FreshCheck s) : FreshCheck t := by
  intro b head hr hclosed
  cases h with
  | sendCall call hpc => exact hf b head hr hclosed
  | recvCall call hpc => cases call <;> simp [RecvCall.entry] at hr
  | sendStep hs =>
    have hsf := hi.sender
    cases hp : s.sender with
    | idle | dropped => simp [sendStep, hp] at hs
    | storeSenderClosed d =>
      simp only [sendStep, hp, Option.some.injEq, Prod.mk.injEq] at hs
      obtain ⟨rfl, -, -⟩ := hs
      by_contra hne
      exact hc ⟨⟨_, rfl⟩, ⟨d, hp⟩, b, head, hr, hne⟩
    | storeTail b' v tail =>
      -- publication follows an own check that the flag is clear, and only the sender sets it
      simp only [SenderFacts, hp] at hsf
      simp only [sendStep, hp, Option.some.injEq, Prod.mk.injEq] at hs
      obtain ⟨rfl, -, -⟩ := hs
      simp [hsf.1] at hclosed
    | _ =>
      simp only [sendStep, hp] at hs
      (repeat' split at hs) <;> (simp only [Option.some.injEq, Prod.mk.injEq] at hs) <;>
        (obtain ⟨rfl, -, -⟩ := hs) <;> exact hf b head hr hclosed
  | recvStep hs =>
    simp only at hr
    subst hr
    cases hp : s.receiver with
    | loadTail b' head' =>
      simp only [recvStep, hp] at hs
      split at hs
      · rename_i he
        simp only [Option.some.injEq, Prod.mk.injEq, RecvPc.loadSenderClosed.injEq] at hs
        obtain ⟨rfl, ⟨-, rfl⟩, -⟩ := hs
        exact he.symm
      · simp at hs
    | _ =>
      simp only [recvStep, hp] at hs
      (repeat' split at hs) <;> simp_all

/-- A reached state keeps the ring invariant, and its empty check is fresh. -/
theorem freshCheck_reachable
    (h : Lts.Reachable ((spscLts w T capacity).restrict (¬ ClosesBehindEmptyCheck · ·)) s) :
    FreshCheck s := by
  apply Lts.invariant_of_reachable ?_ ?_ h
  · rintro _ ⟨q, _, rfl⟩ b head hr
    cases hr
  · intro s l t hr hf hstep
    obtain ⟨k, hi⟩ := invariant_reachable (Lts.restrict_reachable hr)
    exact freshCheck_step hstep.2 hi hstep.1 hf

/-- Only a load of a set `sender_closed` flag after an empty check ends in `Closed`. -/
theorem recvStep_closed {q q' : Inner w T} {pc pc' : RecvPc w T} {r : Option (RecvReturn T)}
    (hs : recvStep q pc = some (q', pc', r)) (hr : ReturnsClosed (.recvStep r)) :
    (∃ b head, pc = .loadSenderClosed b head) ∧ q.senderClosed = true ∧ pc.holding = [] := by
  simp only [ReturnsClosed, Label.recvStep.injEq] at hr
  cases pc with
  | loadSenderClosed b head =>
    simp only [recvStep] at hs
    split at hs
    · rename_i hc
      exact ⟨⟨b, head, rfl⟩, hc, rfl⟩
    · split at hs <;> simp only [Option.some.injEq, Prod.mk.injEq] at hs <;>
        obtain ⟨-, -, rfl⟩ := hs <;> simp at hr
  | storeHead b head v =>
    simp only [recvStep, Option.some.injEq, Prod.mk.injEq] at hs
    obtain ⟨-, -, rfl⟩ := hs
    cases b <;> simp at hr
  | _ =>
    simp only [recvStep] at hs
    (repeat' split at hs) <;> simp only [Option.some.injEq, Prod.mk.injEq, reduceCtorEq] at hs <;>
      obtain ⟨-, -, rfl⟩ := hs <;> simp at hr

theorem returnsClosed_source (h : Step s l t) (hl : ReturnsClosed l) :
    (∃ b head, s.receiver = .loadSenderClosed b head) ∧ s.inner.senderClosed = true ∧
      t.sent = s.sent ∧ t.received = s.received := by
  cases h with
  | sendCall | recvCall | sendStep => simp [ReturnsClosed] at hl
  | recvStep hs =>
    obtain ⟨hpc, hc, hh⟩ := recvStep_closed hs hl
    exact ⟨hpc, hc, rfl, by simp [hh]⟩

/-- While no `sender_closed` store lands behind a stale empty check, `Closed` means drained. -/
theorem closed_drained
    (h : Lts.Reachable ((spscLts w T capacity).restrict (¬ ClosesBehindEmptyCheck · ·)) s)
    (hs : Step s l t) (hl : ReturnsClosed l) : t.received = t.sent := by
  obtain ⟨k, hi⟩ := invariant_reachable (Lts.restrict_reachable h)
  obtain ⟨⟨b, head, hr⟩, hc, hsent, hrecv⟩ := returnsClosed_source hs hl
  have htail := freshCheck_reachable h b head hr hc
  have hf := hi.receiver
  simp only [ReceiverFacts, hr] at hf
  rw [hsent, hrecv]
  exact hi.empty_received (hi.counters_eq_iff.mp (hf.symm.trans htail.symm))

theorem new_one : Inner.new 64 Nat 1 = some ⟨[none], 0, 0, 0, false, false⟩ := by
  simp [Inner.new, checkedNextPowerOfTwo]

/-- Drained for real: one value sent, received, and only then the queue reported closed. -/
theorem closed_drained_after_one : ∃ s l t : _,
    Lts.Reachable ((spscLts 64 Nat 1).restrict (¬ ClosesBehindEmptyCheck · ·)) s ∧
      Step s l t ∧ ReturnsClosed l ∧ t.received = t.sent ∧ t.sent = [7] := by
  have hs : Lts.Reachable ((spscLts 64 Nat 1).restrict (¬ ClosesBehindEmptyCheck · ·))
      ⟨⟨[none], 0, 1, 1, true, false⟩, .idle, .loadSenderClosed false 1, [7], [7]⟩ := by
    have h0 : Lts.Reachable ((spscLts 64 Nat 1).restrict (¬ ClosesBehindEmptyCheck · ·))
      ⟨⟨[none], 0, 0, 0, false, false⟩, .idle, .idle, [], []⟩ := .initial ⟨_, new_one, rfl⟩
    have hsend : ∀ {s t : State 64 Nat} {l : Label Nat}, s.receiver = .idle → Step s l t →
        ((spscLts 64 Nat 1).restrict (¬ ClosesBehindEmptyCheck · ·)).Tr s l t := by
      rintro s t l hr hstep
      exact ⟨by rintro ⟨-, -, b, head, hb, -⟩; simp [hr] at hb, hstep⟩
    have hrecv : ∀ {s t : State 64 Nat} {l : Label Nat}, s.sender = .idle → Step s l t →
        ((spscLts 64 Nat 1).restrict (¬ ClosesBehindEmptyCheck · ·)).Tr s l t := by
      rintro s t l hr hstep
      exact ⟨by rintro ⟨-, ⟨d, hd⟩, -⟩; simp [hr] at hd, hstep⟩
    have h1 := h0.step (hsend rfl (.sendCall (.trySend 7) rfl))
    have h2 := ((((((h1.step (hsend rfl (.sendStep rfl))).step (hsend rfl (.sendStep rfl))).step
      (hsend rfl (.sendStep rfl))).step (hsend rfl (.sendStep rfl))).step
      (hsend rfl (.sendStep rfl))).step (hsend rfl (.sendStep rfl)))
    have h3 := h2.step (hrecv rfl (.recvCall .tryRecv rfl))
    have h4 := ((((h3.step (hrecv rfl (.recvStep rfl))).step (hrecv rfl (.recvStep rfl))).step
      (hrecv rfl (.recvStep rfl))).step (hrecv rfl (.recvStep rfl)))
    have h5 := (h4.step (hsend rfl (.sendCall .close rfl))).step (hsend rfl (.sendStep rfl))
    exact ((h5.step (hrecv rfl (.recvCall .tryRecv rfl))).step (hrecv rfl (.recvStep rfl))).step
      (hrecv rfl (.recvStep rfl))
  exact ⟨_, _, _, hs, .recvStep rfl, .inl rfl, closed_drained hs (.recvStep rfl) (.inl rfl), rfl⟩

/-- The schedule of the race: the receiver sees an empty queue, the sender sends 7 and closes, the
receiver reads the flag. -/
def closeRace : List (Move Nat) :=
  [.recvCall .tryRecv, .recv, .recv, .sendCall (.trySend 7), .send, .send, .send, .send, .send,
    .send, .sendCall .close, .send]

theorem closed_drained_fails : ¬ ∀ s l t : _, Reachable 64 Nat 1 s → Step s l t →
    ReturnsClosed l → ∀ v ∈ t.sent, v ∈ t.received := by
  intro h
  have hs : Reachable 64 Nat 1
      ⟨⟨[some 7], 0, 0, 1, true, false⟩, .idle, .loadSenderClosed false 0, [7], []⟩ :=
    schedule_reachable (m := closeRace) (.initial ⟨_, new_one, rfl⟩) rfl
  simpa [RecvPc.holding] using h _ _ _ hs (.recvStep rfl) (.inl rfl) 7

/-- Each such store does lose a value: the receiver's next step reports `Closed` over it. -/
theorem closesBehindEmptyCheck_loses (h : Reachable w T capacity s)
    (hc : ClosesBehindEmptyCheck s l) (hs : Step s l t) :
    ∃ l' u, Step t l' u ∧ ReturnsClosed l' ∧ u.received ≠ u.sent := by
  obtain ⟨k, hi⟩ := invariant_reachable h
  obtain ⟨⟨r, rfl⟩, ⟨d, hsend⟩, b, head, hr, hne⟩ := hc
  have hf := hi.receiver
  simp only [ReceiverFacts, hr] at hf
  cases hs with
  | sendStep hstep =>
    simp only [sendStep, hsend, Option.some.injEq, Prod.mk.injEq] at hstep
    obtain ⟨rfl, -, -⟩ := hstep
    refine ⟨_, _, .recvStep (by simp only [recvStep, hr, if_true]; rfl), ?_, ?_⟩
    · cases b
      · exact .inl rfl
      · exact .inr rfl
    · intro he
      simp only [hr, hsend, RecvPc.holding, SendPc.holding, List.append_nil] at he
      apply hne
      rw [hf]
      exact (hi.counters_eq_iff.mpr (congrArg List.length he)).symm

end Zrt.Spsc
