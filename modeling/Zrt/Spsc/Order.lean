import Zrt.Spsc.Safety

/-! The queue delivers in order, touches only the slots it may touch, and hands back what it does
not take. -/
namespace Zrt.Spsc

variable {w k capacity : Nat} {T : Type*} {s t u u' : State w T} {l : Label T}
  {xs : List (Label T)} {q q' : Inner w T}

/-- The value a call is to send. -/
def SendCall.value : SendCall T → Option T
  | .trySend value | .send value => some value
  | .close | .drop => none

/-- The value of the call in progress. -/
def SendPc.value : SendPc w T → Option T
  | .loadSenderClosed _ value | .loadReceiverClosed _ value | .loadTail _ value
  | .loadHead _ value _ | .writeSlot _ value _ | .storeTail _ value _ => some value
  | .idle | .storeSenderClosed _ | .dropped => none

/-- `Ok` of `try_send` or `send`. -/
def SendReturn.accepted : SendReturn T → Bool
  | .trySend (.ok _) | .send (.ok _) => true
  | _ => false

/-- The value inside `Full`, `Closed` or `SendError`. -/
def SendReturn.back : SendReturn T → Option T
  | .trySend (.error (.full value)) | .trySend (.error (.closed value))
  | .send (.error value) => some value
  | _ => none

/-- The value a receiving call returns. -/
def RecvReturn.value : RecvReturn T → Option T
  | .tryRecv (.ok value) | .recv (some value) => some value
  | _ => none

/-- The step returns from a call on the sender. -/
def Label.EndsSend (l : Label T) : Prop := ∃ r, l = .sendStep (some r)

/-- Whether a sender step returns `Ok`. -/
def Label.accepted : Label T → Bool
  | .sendStep (some r) => r.accepted
  | _ => false

/-- The value a receiver step returns. -/
def Label.received : Label T → Option T
  | .recvStep (some r) => r.value
  | _ => none

/-- A sender step goes on with the same value, or returns it, or returns `Ok` and publishes it. -/
theorem sendStep_returns {pc pc' : SendPc w T} {r : Option (SendReturn T)}
    (hs : sendStep q pc = some (q', pc', r)) :
    (r = none ∧ pc' ≠ .idle ∧ pc'.value = pc.value ∧ pc.holding = []) ∨
    ∃ ret, r = some ret ∧ ((ret.accepted = true ∧ pc.holding = pc.value.toList) ∨
      (ret.accepted = false ∧ ret.back = pc.value ∧ pc.holding = [])) := by
  cases pc with
  | idle | dropped => simp [sendStep] at hs
  | storeTail b v tail =>
    simp only [sendStep, Option.some.injEq, Prod.mk.injEq] at hs
    obtain ⟨-, -, rfl⟩ := hs
    refine .inr ⟨_, rfl, .inl ⟨?_, rfl⟩⟩
    cases b <;> rfl
  | storeSenderClosed d =>
    simp only [sendStep, Option.some.injEq, Prod.mk.injEq] at hs
    obtain ⟨-, -, rfl⟩ := hs
    exact .inr ⟨_, rfl, .inr ⟨rfl, rfl, rfl⟩⟩
  | loadSenderClosed b v | loadReceiverClosed b v =>
    simp only [sendStep] at hs
    split at hs <;> simp only [Option.some.injEq, Prod.mk.injEq] at hs <;>
      obtain ⟨-, rfl, rfl⟩ := hs
    · cases b <;> exact .inr ⟨_, rfl, .inr ⟨rfl, rfl, rfl⟩⟩
    · exact .inl ⟨rfl, by simp, rfl, rfl⟩
  | loadHead b v tail =>
    simp only [sendStep] at hs
    split at hs
    · split at hs <;> simp only [Option.some.injEq, Prod.mk.injEq] at hs <;>
        obtain ⟨-, rfl, rfl⟩ := hs
      · exact .inl ⟨rfl, by simp, rfl, rfl⟩
      · exact .inr ⟨_, rfl, .inr ⟨rfl, rfl, rfl⟩⟩
    · simp only [Option.some.injEq, Prod.mk.injEq] at hs
      obtain ⟨-, rfl, rfl⟩ := hs
      exact .inl ⟨rfl, by simp, rfl, rfl⟩
  | loadTail b v | writeSlot b v tail =>
    simp only [sendStep, Option.some.injEq, Prod.mk.injEq] at hs
    obtain ⟨-, rfl, rfl⟩ := hs
    exact .inl ⟨rfl, by simp, rfl, rfl⟩

/-- A receiver step returns exactly the value it releases. -/
theorem recvStep_returns {pc pc' : RecvPc w T} {r : Option (RecvReturn T)}
    (hs : recvStep q pc = some (q', pc', r)) : (r.bind RecvReturn.value).toList = pc.holding := by
  cases pc with
  | storeHead b head v =>
    simp only [recvStep, Option.some.injEq, Prod.mk.injEq] at hs
    obtain ⟨-, -, rfl⟩ := hs
    cases b <;> rfl
  | _ =>
    simp only [recvStep] at hs
    (repeat' split at hs) <;> simp only [Option.some.injEq, Prod.mk.injEq, reduceCtorEq] at hs <;>
      obtain ⟨-, -, rfl⟩ := hs <;> rfl

/-- The histories grow by what the calls report. -/
structure Accounted (s : State w T) (l : Label T) (t : State w T) : Prop where
  sent : t.sent = s.sent ++ if l.accepted then s.sender.value.toList else []
  received : t.received = s.received ++ l.received.toList

theorem accounted_step (h : Step s l t) : Accounted s l t := by
  cases h with
  | sendCall call hpc | recvCall call hpc =>
    exact ⟨by simp [Label.accepted], by simp [Label.received]⟩
  | sendStep hs =>
    refine ⟨?_, by simp [Label.received]⟩
    rcases sendStep_returns hs with ⟨rfl, -, -, hh⟩ | ⟨ret, rfl, ⟨ha, hh⟩ | ⟨ha, -, hh⟩⟩ <;>
      simp [Label.accepted, *]
  | @recvStep q pc r hs =>
    refine ⟨by simp [Label.accepted], ?_⟩
    rw [← recvStep_returns hs]
    cases r <;> rfl

/-- What holds between any two steps of the two halves. -/
structure Safe (s : State w T) : Prop where
  fifo : s.received <+: s.sent
  writes : ∀ b v tail, s.sender = .writeSlot b v tail →
    s.inner.slots[s.inner.index tail]? = some none
  reads : ∀ b head, s.receiver = .readSlot b head →
    ∃ v, s.inner.slots[s.inner.index head]? = some (some v)
  bound : s.inner.tail - s.inner.head ≤ s.inner.capacity

theorem Invariant.safe (h : Invariant k s) : Safe s := by
  have hle := h.received_le
  have hb := h.bound
  have hpow := h.pow_lt
  have hpos : 0 < s.inner.slots.length := by rw [h.slots]; exact Nat.two_pow_pos k
  refine ⟨h.fifo, ?_, ?_, ?_⟩
  · intro b v tail hp
    have hs := h.sender
    simp only [SenderFacts, hp] at hs
    obtain ⟨-, rfl, hfree⟩ := hs
    have hw := h.window
    have hr := h.receiver
    rw [hp] at hw
    simp only [SendPc.holding, List.append_nil] at hw
    rw [h.tail, h.index_eq]
    refine Ring.window_free hw ?_ (by rw [h.slots]; omega)
    cases hq : s.receiver <;> simp_all [ReceiverFacts, RecvPc.holding]
    have := (List.getElem?_eq_some_iff.mp hr.2).1
    omega
  · intro b head hp
    have hr := h.receiver
    simp only [ReceiverFacts, hp] at hr
    obtain ⟨rfl, hlt⟩ := hr
    have hw := h.window
    rw [hp] at hw
    simp only [RecvPc.holding, List.length_nil, Nat.add_zero] at hw
    rw [h.head, h.index_eq]
    exact ⟨_, Ring.window_read hw hpos (by simp; omega)⟩
  · rw [h.tail, h.head, Ring.counter_sub hle, Inner.capacity, h.slots, BitVec.le_def,
      BitVec.toNat_ofNat, BitVec.toNat_ofNat, Nat.mod_eq_of_lt (by omega), Nat.mod_eq_of_lt hpow]
    omega

/-- A call in progress keeps its value, and publishes nothing before it returns. -/
theorem pending_trace {call : SendCall T} (hs : Step s (.sendCall call) t)
    (h : Lts.Trace (spscLts w T capacity) t xs u) (hx : ∀ l ∈ xs, ¬ l.EndsSend) :
    u.sender ≠ .idle ∧ u.sender.value = call.value ∧ u.sent = s.sent := by
  induction h with
  | refl =>
    cases hs
    refine ⟨?_, ?_, rfl⟩ <;> cases call <;> simp [SendCall.entry, SendPc.value, SendCall.value]
  | @snoc t u xs a _ hstep ih =>
    obtain ⟨hbusy, hv, hsent⟩ := ih fun l hl => hx l (List.mem_append_left _ hl)
    have ha : ¬ a.EndsSend := hx a (List.mem_append_right _ (List.mem_singleton.mpr rfl))
    cases hstep with
    | sendCall call hpc => exact absurd hpc hbusy
    | recvCall call hpc => exact ⟨hbusy, hv, hsent⟩
    | recvStep hr => exact ⟨hbusy, hv, hsent⟩
    | sendStep hr =>
      rcases sendStep_returns hr with ⟨rfl, hbusy', hv', hh⟩ | ⟨ret, rfl, -⟩
      · exact ⟨hbusy', hv'.trans hv, by simp [hh, hsent]⟩
      · exact absurd ⟨ret, rfl⟩ ha

/-- In any interleaving of the two halves: the values received are a prefix of those accepted, no
unread slot is written and no empty one read, the counters stay within the capacity; and a call
either sends its value or hands that same value back. -/
theorem fifo_order (h : Reachable w T capacity s) :
    Safe s ∧ (∀ l t, Step s l t → Accounted s l t) ∧
    ∀ call t xs u r u', Step s (.sendCall call) t → Lts.Trace (spscLts w T capacity) t xs u →
      (∀ l ∈ xs, ¬ l.EndsSend) → Step u (.sendStep (some r)) u' →
      (r.accepted = true ∧ u'.sent = s.sent ++ call.value.toList) ∨
        (r.accepted = false ∧ r.back = call.value ∧ u'.sent = s.sent) := by
  obtain ⟨k, hi⟩ := invariant_reachable h
  refine ⟨hi.safe, fun l t => accounted_step, ?_⟩
  intro call t xs u r u' hcall htrace hx hreturn
  obtain ⟨-, hv, hsent⟩ := pending_trace hcall htrace hx
  cases hreturn with
  | sendStep hs =>
    rcases sendStep_returns hs with ⟨hno, -⟩ | ⟨ret, hr, hc⟩
    · cases hno
    · obtain rfl := Option.some.inj hr
      rcases hc with ⟨ha, hh⟩ | ⟨ha, hb, hh⟩
      · exact .inl ⟨ha, by simp [hh, hv, hsent]⟩
      · exact .inr ⟨ha, hb.trans hv, by simp [hh, hsent]⟩

/-- A full queue of one: the second send comes back. -/
theorem fifo_order_full : ∃ s : State 64 Nat, Safe s ∧ s.sent = [7] ∧ s.received = [] ∧
    Step s (.sendStep (some (.trySend (.error (.full 8))))) { s with sender := .idle } := by
  have hnew : Inner.new 64 Nat 1 = some ⟨[none], 0, 0, 0, false, false⟩ := by
    simp [Inner.new, checkedNextPowerOfTwo]
  have hr : Reachable 64 Nat 1
      ⟨⟨[some 7], 0, 0, 1, false, false⟩, .loadHead false 8 1, .idle, [7], []⟩ :=
    schedule_reachable (m := [.sendCall (.trySend 7), .send, .send, .send, .send, .send, .send,
      .sendCall (.trySend 8), .send, .send, .send]) (.initial ⟨_, hnew, rfl⟩) rfl
  exact ⟨_, (fifo_order hr).1, rfl, rfl, .sendStep rfl⟩

end Zrt.Spsc
