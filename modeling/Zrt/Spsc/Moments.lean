import Zrt.Spsc.Order

/-! Every call on the queue takes effect at one moment between its start and its return. -/
namespace Zrt.Spsc

variable {w k capacity : Nat} {T : Type*} {s t u u' : State w T} {l : Label T}
  {xs : List (Label T)} {q q' : Inner w T}

/-- A queue as its users see it. -/
structure Queue (T : Type*) where
  values : List T
  capacity : Nat
  senderClosed : Bool
  receiverClosed : Bool

def State.queue (s : State w T) : Queue T where
  values := s.sent.drop s.received.length
  capacity := s.inner.slots.length
  senderClosed := s.inner.senderClosed
  receiverClosed := s.inner.receiverClosed

def Queue.Open (q : Queue T) : Prop := q.senderClosed = false ∧ q.receiverClosed = false

/-- What a return says of the queue before it and after it, and of the moments since the call, of
which `seen` holds. Only the values that are sent or received change it, and `close`. -/
def SendReturn.Tells (value : Option T) (seen : (Queue T → Prop) → Prop) (q q' : Queue T) :
    SendReturn T → Prop
  | .trySend (.ok _) | .send (.ok _) =>
    q' = { q with values := q.values ++ value.toList } ∧ q.values.length < q.capacity ∧
      seen Queue.Open
  | .trySend (.error (.full _)) => q' = q ∧ q.values.length = q.capacity ∧ seen Queue.Open
  | .trySend (.error (.closed _)) | .send (.error _) => q' = q ∧ ¬ q.Open
  | .closed => q' = { q with senderClosed := true }

def RecvReturn.Tells (seen : (Queue T → Prop) → Prop) (q q' : Queue T) : RecvReturn T → Prop
  | .tryRecv (.ok v) | .recv (some v) => q = { q' with values := v :: q'.values }
  | .tryRecv (.error .empty) =>
    q' = q ∧ seen fun q => q.values = [] ∧ q.senderClosed = false
  | .tryRecv (.error .closed) | .recv none =>
    q' = q ∧ q.senderClosed = true ∧ seen fun q => q.values = []
  | .closed => q' = { q with receiverClosed := true }

/-- The step returns from a call on the receiver. -/
def Label.EndsRecv (l : Label T) : Prop := ∃ r, l = .recvStep (some r)

namespace Invariant

theorem queue_length (h : Invariant k s) :
    s.queue.values.length + s.received.length = s.sent.length := by
  have hle := h.received_le
  show (s.sent.drop s.received.length).length + _ = _
  rw [List.length_drop]
  omega

theorem queue_full (h : Invariant k s) (hf : s.inner.tail - s.inner.head = s.inner.capacity) :
    s.queue.values.length = s.queue.capacity := by
  have hlen := h.queue_length
  have hfull := h.full_iff.mp hf
  show _ = s.inner.slots.length
  rw [h.slots]
  omega

theorem queue_room (h : Invariant k s) (hf : s.sent.length < s.received.length + 2 ^ k) :
    s.queue.values.length < s.queue.capacity := by
  have hlen := h.queue_length
  show _ < s.inner.slots.length
  rw [h.slots]
  omega

theorem queue_empty (h : Invariant k s) (he : s.inner.head = s.inner.tail) :
    s.queue.values = [] := by
  have hlen := h.queue_length
  have heq := h.counters_eq_iff.mp he
  exact List.length_eq_zero_iff.mp (by omega)

/-- What is published goes to the end of the queue. -/
theorem queue_sent (h : Invariant k s) (vs : List T) :
    (s.sent ++ vs).drop s.received.length = s.queue.values ++ vs :=
  List.drop_append_of_le_length h.received_le

end Invariant

/-- What is released was the head of the queue. -/
theorem queue_received {v : T} (hv : s.sent[s.received.length]? = some v) :
    s.queue.values = v :: s.sent.drop (s.received ++ [v]).length := by
  obtain ⟨hlt, rfl⟩ := List.getElem?_eq_some_iff.mp hv
  rw [List.length_append, List.length_singleton]
  exact List.drop_eq_getElem_cons hlt

/-- The sender has found both halves open in this attempt. -/
def SendPc.Checked : SendPc w T → Prop
  | .loadTail _ _ | .loadHead _ _ _ | .writeSlot _ _ _ | .storeTail _ _ _ => True
  | _ => False

/-- The receiver has found the queue empty in this attempt. -/
def RecvPc.Checked : RecvPc w T → Prop
  | .loadSenderClosed _ _ => True
  | _ => False

/-- A sender's step that returns tells the truth; one that does not leaves the queue alone. -/
theorem send_tells {pc : SendPc w T} {r : Option (SendReturn T)} (h : Invariant k s)
    (hs : sendStep s.inner s.sender = some (q, pc, r))
    (ht : t = { s with inner := q, sender := pc, sent := s.sent ++ s.sender.holding }) :
    (r = none ∧ t.queue = s.queue ∧ (pc.Checked → s.sender.Checked ∨ s.queue.Open)) ∨
    ∃ ret, r = some ret ∧ ∀ seen : (Queue T → Prop) → Prop,
      (s.sender.Checked → seen Queue.Open) → ret.Tells s.sender.value seen s.queue t.queue := by
  subst ht
  have hf := h.sender
  have hsame : ({ s with sender := pc, sent := s.sent ++ [] } : State w T).queue = s.queue := by
    simp [State.queue]
  cases hp : s.sender with
  | idle | dropped => simp [sendStep, hp] at hs
  | loadSenderClosed b v =>
    simp only [sendStep, hp] at hs
    split at hs <;>
      (simp only [Option.some.injEq, Prod.mk.injEq] at hs; obtain ⟨rfl, rfl, rfl⟩ := hs)
    · rename_i hc
      have hopen : ¬ s.queue.Open := fun ho => by
        rw [show s.inner.senderClosed = false from ho.1] at hc
        cases hc
      refine .inr ⟨_, rfl, fun seen _ => ?_⟩
      cases b <;> exact ⟨hsame, hopen⟩
    · exact .inl ⟨rfl, hsame, False.elim⟩
  | loadReceiverClosed b v =>
    simp only [SenderFacts, hp] at hf
    simp only [sendStep, hp] at hs
    split at hs <;>
      (simp only [Option.some.injEq, Prod.mk.injEq] at hs; obtain ⟨rfl, rfl, rfl⟩ := hs)
    · rename_i hc
      have hopen : ¬ s.queue.Open := fun ho => by
        rw [show s.inner.receiverClosed = false from ho.2] at hc
        cases hc
      refine .inr ⟨_, rfl, fun seen _ => ?_⟩
      cases b <;> exact ⟨hsame, hopen⟩
    · rename_i hc
      exact .inl ⟨rfl, hsame, fun _ => .inr ⟨hf, Bool.eq_false_iff.mpr hc⟩⟩
  | loadTail b v =>
    simp only [sendStep, hp, Option.some.injEq, Prod.mk.injEq] at hs
    obtain ⟨rfl, rfl, rfl⟩ := hs
    exact .inl ⟨rfl, hsame, fun _ => .inl trivial⟩
  | loadHead b v tail =>
    simp only [SenderFacts, hp] at hf
    obtain ⟨-, rfl⟩ := hf
    simp only [sendStep, hp] at hs
    split at hs
    · rename_i hfull
      split at hs <;>
        (simp only [Option.some.injEq, Prod.mk.injEq] at hs; obtain ⟨rfl, rfl, rfl⟩ := hs)
      · exact .inl ⟨rfl, hsame, False.elim⟩
      · exact .inr ⟨_, rfl, fun seen hseen => ⟨hsame, h.queue_full hfull, hseen trivial⟩⟩
    · simp only [Option.some.injEq, Prod.mk.injEq] at hs
      obtain ⟨rfl, rfl, rfl⟩ := hs
      exact .inl ⟨rfl, hsame, fun _ => .inl trivial⟩
  | writeSlot b v tail =>
    simp only [sendStep, hp, Option.some.injEq, Prod.mk.injEq] at hs
    obtain ⟨rfl, rfl, rfl⟩ := hs
    refine .inl ⟨rfl, ?_, fun _ => .inl trivial⟩
    simp [State.queue, SendPc.holding]
  | storeTail b v tail =>
    simp only [SenderFacts, hp] at hf
    obtain ⟨-, rfl, hlt⟩ := hf
    simp only [sendStep, hp, Option.some.injEq, Prod.mk.injEq] at hs
    obtain ⟨rfl, rfl, rfl⟩ := hs
    refine .inr ⟨_, rfl, fun seen hseen => ?_⟩
    have hvalues := h.queue_sent [v]
    cases b <;> exact ⟨by simp only [State.queue, SendPc.holding, hvalues]; rfl, h.queue_room hlt,
      hseen trivial⟩
  | storeSenderClosed d =>
    simp only [sendStep, hp, Option.some.injEq, Prod.mk.injEq] at hs
    obtain ⟨rfl, rfl, rfl⟩ := hs
    refine .inr ⟨_, rfl, fun seen _ => ?_⟩
    simp [SendReturn.Tells, State.queue, SendPc.holding]

/-- The empty check is a moment of its own; `Closed` and `Empty` are told later. -/
theorem recv_tells {pc : RecvPc w T} {r : Option (RecvReturn T)} (h : Invariant k s)
    (hs : recvStep s.inner s.receiver = some (q, pc, r))
    (ht : t = { s with inner := q, receiver := pc, received := s.received ++ s.receiver.holding }) :
    (r = none ∧ t.queue = s.queue ∧ (pc.Checked → s.queue.values = [])) ∨
    ∃ ret, r = some ret ∧ ∀ seen : (Queue T → Prop) → Prop,
      (s.receiver.Checked → seen fun q => q.values = []) →
      (s.receiver.Checked → s.queue.senderClosed = false →
        seen fun q => q.values = [] ∧ q.senderClosed = false) →
      ret.Tells seen s.queue t.queue := by
  subst ht
  have hf := h.receiver
  have hsame : ({ s with receiver := pc, received := s.received ++ [] } : State w T).queue =
      s.queue := by
    simp [State.queue]
  cases hp : s.receiver with
  | idle | dropped => simp [recvStep, hp] at hs
  | loadHead b =>
    simp only [recvStep, hp, Option.some.injEq, Prod.mk.injEq] at hs
    obtain ⟨rfl, rfl, rfl⟩ := hs
    exact .inl ⟨rfl, hsame, False.elim⟩
  | loadTail b head =>
    simp only [ReceiverFacts, hp] at hf
    subst hf
    simp only [recvStep, hp] at hs
    split at hs <;>
      (simp only [Option.some.injEq, Prod.mk.injEq] at hs; obtain ⟨rfl, rfl, rfl⟩ := hs)
    · rename_i he
      exact .inl ⟨rfl, hsame, fun _ => h.queue_empty he⟩
    · exact .inl ⟨rfl, hsame, False.elim⟩
  | loadSenderClosed b head =>
    simp only [recvStep, hp] at hs
    split at hs
    · rename_i hc
      simp only [Option.some.injEq, Prod.mk.injEq] at hs
      obtain ⟨rfl, rfl, rfl⟩ := hs
      refine .inr ⟨_, rfl, fun seen hseen _ => ?_⟩
      cases b <;> exact ⟨hsame, hc, hseen trivial⟩
    · rename_i hc
      split at hs <;>
        (simp only [Option.some.injEq, Prod.mk.injEq] at hs; obtain ⟨rfl, rfl, rfl⟩ := hs)
      · exact .inl ⟨rfl, hsame, False.elim⟩
      · exact .inr ⟨_, rfl, fun seen _ hseen => ⟨hsame, hseen trivial (Bool.eq_false_iff.mpr hc)⟩⟩
  | readSlot b head =>
    simp only [recvStep, hp] at hs
    split at hs
    · simp only [Option.some.injEq, Prod.mk.injEq] at hs
      obtain ⟨rfl, rfl, rfl⟩ := hs
      refine .inl ⟨rfl, ?_, False.elim⟩
      simp [State.queue, RecvPc.holding]
    · simp at hs
  | storeHead b head v =>
    simp only [ReceiverFacts, hp] at hf
    simp only [recvStep, hp, Option.some.injEq, Prod.mk.injEq] at hs
    obtain ⟨rfl, rfl, rfl⟩ := hs
    refine .inr ⟨_, rfl, fun seen _ _ => ?_⟩
    have hvalues := queue_received hf.2
    simp only [State.queue] at hvalues
    cases b <;> simp [RecvReturn.Tells, State.queue, RecvPc.holding, hvalues]
  | storeReceiverClosed d =>
    simp only [recvStep, hp, Option.some.injEq, Prod.mk.injEq] at hs
    obtain ⟨rfl, rfl, rfl⟩ := hs
    refine .inr ⟨_, rfl, fun seen _ _ => ?_⟩
    simp [RecvReturn.Tells, State.queue, RecvPc.holding]

theorem senderClosed_sendStep {pc pc' : SendPc w T} {r : Option (SendReturn T)}
    (hs : sendStep q pc = some (q', pc', r)) (hc : q.senderClosed = true) :
    q'.senderClosed = true := by
  cases pc <;> simp only [sendStep] at hs <;> (repeat' split at hs) <;>
    simp only [Option.some.injEq, Prod.mk.injEq, reduceCtorEq] at hs <;>
    obtain ⟨rfl, -, -⟩ := hs <;> first | exact hc | rfl

theorem senderClosed_recvStep {pc pc' : RecvPc w T} {r : Option (RecvReturn T)}
    (hs : recvStep q pc = some (q', pc', r)) (hc : q.senderClosed = true) :
    q'.senderClosed = true := by
  cases pc <;> simp only [recvStep] at hs <;> (repeat' split at hs) <;>
    simp only [Option.some.injEq, Prod.mk.injEq, reduceCtorEq] at hs <;>
    obtain ⟨rfl, -, -⟩ := hs <;> exact hc

theorem senderClosed_step (h : Step s l t) (hc : s.queue.senderClosed = true) :
    t.queue.senderClosed = true := by
  cases h with
  | sendCall | recvCall => exact hc
  | sendStep hs => exact senderClosed_sendStep hs hc
  | recvStep hs => exact senderClosed_recvStep hs hc

/-- A sender that is still open was open all along. -/
theorem senderClosed_trace (h : Lts.Trace (spscLts w T capacity) s xs t)
    (hc : t.queue.senderClosed = false) : s.queue.senderClosed = false := by
  by_contra hs
  have hclosed := Lts.invariant_trace (P := fun s => s.queue.senderClosed = true)
    (fun _ _ _ hp hstep => senderClosed_step hstep hp) (Bool.eq_true_of_not_eq_false hs) h
  rw [hc] at hclosed
  cases hclosed

/-- The history since the call has a moment for what the sender has checked. -/
theorem send_checked_trace {call : SendCall T} (hr : Reachable w T capacity s)
    (hs : Step s (.sendCall call) t) (h : Lts.Trace (spscLts w T capacity) t xs u)
    (hx : ∀ l ∈ xs, ¬ l.EndsSend) (hc : u.sender.Checked) :
    Lts.Passes (spscLts w T capacity) (fun s => s.queue.Open) t xs u := by
  induction h with
  | refl =>
    cases hs
    cases call <;> exact hc.elim
  | @snoc u u' xs l htrace hstep ih =>
    obtain ⟨k, hi⟩ := invariant_reachable (Lts.trace_reachable (hr.step hs) htrace)
    have hmoment := ih fun l hl => hx l (List.mem_append_left _ hl)
    have hends := hx l (List.mem_append_right _ (List.mem_singleton_self l))
    cases hstep with
    | sendCall call hpc => cases call <;> exact hc.elim
    | recvCall call hpc => exact (hmoment hc).snoc (.recvCall call hpc)
    | recvStep hrecv => exact (hmoment hc).snoc (.recvStep hrecv)
    | sendStep hsend =>
      rcases send_tells hi hsend rfl with ⟨-, -, hck⟩ | ⟨ret, rfl, -⟩
      · rcases hck hc with hck | hopen
        · exact (hmoment hck).snoc (.sendStep hsend)
        · exact (Lts.Passes.here htrace hopen).snoc (.sendStep hsend)
      · exact absurd ⟨ret, rfl⟩ hends

theorem recv_checked_trace {call : RecvCall} (hr : Reachable w T capacity s)
    (hs : Step s (.recvCall call) t) (h : Lts.Trace (spscLts w T capacity) t xs u)
    (hx : ∀ l ∈ xs, ¬ l.EndsRecv) (hc : u.receiver.Checked) :
    Lts.Passes (spscLts w T capacity) (fun s => s.queue.values = []) t xs u := by
  induction h with
  | refl =>
    cases hs
    cases call <;> exact hc.elim
  | @snoc u u' xs l htrace hstep ih =>
    obtain ⟨k, hi⟩ := invariant_reachable (Lts.trace_reachable (hr.step hs) htrace)
    have hmoment := ih fun l hl => hx l (List.mem_append_left _ hl)
    have hends := hx l (List.mem_append_right _ (List.mem_singleton_self l))
    cases hstep with
    | recvCall call hpc => cases call <;> exact hc.elim
    | sendCall call hpc => exact (hmoment hc).snoc (.sendCall call hpc)
    | sendStep hsend => exact (hmoment hc).snoc (.sendStep hsend)
    | recvStep hrecv =>
      rcases recv_tells hi hrecv rfl with ⟨-, -, hck⟩ | ⟨ret, rfl, -⟩
      · exact (Lts.Passes.here htrace (hck hc)).snoc (.recvStep hrecv)
      · exact absurd ⟨ret, rfl⟩ hends

/-- The moments between a call, which leads to `t`, and the last step of it, which leaves `u`. -/
def Seen (w capacity : Nat) {T : Type*} (t : State w T) (xs : List (Label T)) (u : State w T)
    (P : Queue T → Prop) : Prop :=
  Lts.Passes (spscLts w T capacity) (fun s => P s.queue) t xs u

/-- The queue changes with the returns of calls only, and each return tells the truth: of the moment
of the return, and, where it tells of an earlier check, of a moment since the call. -/
theorem calls_take_effect (h : Reachable w T capacity s) :
    (∀ l t, Step s l t → ¬ l.EndsSend → ¬ l.EndsRecv → t.queue = s.queue) ∧
    (∀ call t xs u r u', Step s (.sendCall call) t → Lts.Trace (spscLts w T capacity) t xs u →
      (∀ l ∈ xs, ¬ l.EndsSend) → Step u (.sendStep (some r)) u' →
      r.Tells call.value (Seen w capacity t xs u) u.queue u'.queue) ∧
    (∀ call t xs u r u', Step s (.recvCall call) t → Lts.Trace (spscLts w T capacity) t xs u →
      (∀ l ∈ xs, ¬ l.EndsRecv) → Step u (.recvStep (some r)) u' →
      r.Tells (Seen w capacity t xs u) u.queue u'.queue) := by
  refine ⟨?_, ?_, ?_⟩
  · intro l t hs hsend hrecv
    obtain ⟨k, hi⟩ := invariant_reachable h
    cases hs with
    | sendCall | recvCall => rfl
    | sendStep hs =>
      rcases send_tells hi hs rfl with ⟨-, hsame, -⟩ | ⟨ret, rfl, -⟩
      · exact hsame
      · exact absurd ⟨ret, rfl⟩ hsend
    | recvStep hs =>
      rcases recv_tells hi hs rfl with ⟨-, hsame, -⟩ | ⟨ret, rfl, -⟩
      · exact hsame
      · exact absurd ⟨ret, rfl⟩ hrecv
  · intro call t xs u r u' hcall htrace hx hreturn
    obtain ⟨k, hi⟩ := invariant_reachable (Lts.trace_reachable (h.step hcall) htrace)
    obtain ⟨-, hvalue, -⟩ := pending_trace hcall htrace hx
    cases hreturn with
    | sendStep hs =>
      rcases send_tells hi hs rfl with ⟨hnone, -⟩ | ⟨ret, hret, htells⟩
      · cases hnone
      · cases hret
        exact hvalue ▸ htells _ (send_checked_trace h hcall htrace hx)
  · intro call t xs u r u' hcall htrace hx hreturn
    obtain ⟨k, hi⟩ := invariant_reachable (Lts.trace_reachable (h.step hcall) htrace)
    cases hreturn with
    | recvStep hs =>
      rcases recv_tells hi hs rfl with ⟨hnone, -⟩ | ⟨ret, hret, htells⟩
      · cases hnone
      · cases hret
        have hempty := recv_checked_trace h hcall htrace hx
        refine htells _ hempty fun hck hopen => ?_
        obtain ⟨ys, zs, v, hxs, hy, hv, hz⟩ := hempty hck
        exact ⟨ys, zs, v, hxs, hy, ⟨hv, senderClosed_trace hz hopen⟩, hz⟩

/-- `try_recv` says `Empty` after 7 was sent: the queue was empty while the call was under way. -/
theorem calls_take_effect_stale : ∃ t u : State 64 Nat, ∃ xs, u.queue.values = [7] ∧
    Seen 64 1 t xs u fun q => q.values = [] ∧ q.senderClosed = false := by
  have hnew : Inner.new 64 Nat 1 = some ⟨[none], 0, 0, 0, false, false⟩ := by
    simp [Inner.new, checkedNextPowerOfTwo]
  have hs : Reachable 64 Nat 1 ⟨⟨[none], 0, 0, 0, false, false⟩, .idle, .idle, [], []⟩ :=
    .initial ⟨_, hnew, rfl⟩
  have hchecked : Lts.Trace (spscLts 64 Nat 1)
      ⟨⟨[none], 0, 0, 0, false, false⟩, .idle, .loadHead false, [], []⟩ _ _ :=
    .snoc (.snoc .refl (.recvStep rfl)) (.recvStep rfl)
  have hloaded := hchecked.snoc (.sendCall (.trySend 7) rfl) |>.snoc (.sendStep rfl)
    |>.snoc (.sendStep rfl) |>.snoc (.sendStep rfl) |>.snoc (.sendStep rfl)
  have hsent := hloaded.snoc (.sendStep rfl) |>.snoc (.sendStep rfl)
  have htells := (calls_take_effect hs).2.2 _ _ _ _ (.tryRecv (.error .empty)) _
    (.recvCall .tryRecv rfl) hsent (by simp [Label.EndsRecv]) (.recvStep rfl)
  exact ⟨_, _, _, rfl, htells.2⟩

end Zrt.Spsc
