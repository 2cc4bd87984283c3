import Zrt.Spsc.Moments

/-! A call on the queue returns within a few steps of its own, once there is something for it. -/
namespace Zrt.Spsc

variable {w k capacity : Nat} {T : Type*} {s t u : State w T} {l : Label T}
  {xs : List (Label T)} {q : Inner w T}

def Label.sends : Label T → Bool
  | .sendStep _ => true
  | _ => false

def Label.recvs : Label T → Bool
  | .recvStep _ => true
  | _ => false

def SendPc.Busy (pc : SendPc w T) : Prop := pc ≠ .idle ∧ pc ≠ .dropped

def RecvPc.Busy (pc : RecvPc w T) : Prop := pc ≠ .idle ∧ pc ≠ .dropped

def SendPc.blocking : SendPc w T → Bool
  | .loadSenderClosed b _ | .loadReceiverClosed b _ | .loadTail b _ | .loadHead b _ _
  | .writeSlot b _ _ | .storeTail b _ _ => b
  | .idle | .storeSenderClosed _ | .dropped => false

def RecvPc.blocking : RecvPc w T → Bool
  | .loadHead b | .loadTail b _ | .loadSenderClosed b _ | .readSlot b _ | .storeHead b _ _ => b
  | .idle | .storeReceiverClosed _ | .dropped => false

/-- `send` has room, or a closed half to report; `try_send` asks for neither. -/
def SendReady (s : State w T) : Prop :=
  s.sender.blocking = true → s.queue.values.length < s.queue.capacity ∨ ¬ s.queue.Open

/-- `recv` has a value, or a closed sender to report. -/
def RecvReady (s : State w T) : Prop :=
  s.receiver.blocking = true → s.queue.values ≠ [] ∨ s.queue.senderClosed = true

/-- The sender's steps up to its return. A full queue sends it back to the flags, once. -/
def SendPc.left (receiverClosed : Bool) : SendPc w T → Nat
  | .idle | .dropped => 0
  | .loadSenderClosed _ _ => if receiverClosed then 2 else 6
  | .loadReceiverClosed _ _ => if receiverClosed then 1 else 5
  | .loadTail _ _ => 4
  | .loadHead _ _ _ => 3
  | .writeSlot _ _ _ => 2
  | .storeTail _ _ _ | .storeSenderClosed _ => 1

/-- The receiver's steps up to its return. A stale empty check sends it back, once. -/
def RecvPc.left (senderClosed : Bool) : RecvPc w T → Nat
  | .idle | .dropped => 0
  | .loadHead _ => 4
  | .loadTail _ _ => 3
  | .readSlot _ _ => 2
  | .storeHead _ _ _ | .storeReceiverClosed _ => 1
  | .loadSenderClosed b _ => if b && !senderClosed then 5 else 1

/-- Where the other half closes, the way is not longer. -/
theorem SendPc.left_mono {c c' : Bool} (h : c = true → c' = true) (pc : SendPc w T) :
    pc.left c' ≤ pc.left c := by
  cases c with
  | true =>
    rw [h rfl]
  | false => cases c' <;> cases pc <;> simp [left]

theorem RecvPc.left_mono {c c' : Bool} (h : c = true → c' = true) (pc : RecvPc w T) :
    pc.left c' ≤ pc.left c := by
  cases c with
  | true =>
    rw [h rfl]
  | false =>
    cases pc with
    | loadSenderClosed b => cases b <;> cases c' <;> simp [left]
    | _ => simp [left]

theorem SendPc.left_pos {c : Bool} {pc : SendPc w T} (h : pc.Busy) : 0 < pc.left c := by
  cases pc <;> cases c <;> simp_all [left, Busy]

theorem RecvPc.left_pos {c : Bool} {pc : RecvPc w T} (h : pc.Busy) : 0 < pc.left c := by
  cases pc with
  | loadSenderClosed b => cases b <;> cases c <;> simp [left]
  | _ => simp_all [left, Busy]

theorem SendPc.left_le (c : Bool) (pc : SendPc w T) : pc.left c ≤ 6 := by
  cases pc <;> cases c <;> simp [left]

theorem RecvPc.left_le (c : Bool) (pc : RecvPc w T) : pc.left c ≤ 5 := by
  cases pc with
  | loadSenderClosed b => cases b <;> cases c <;> simp [left]
  | _ => simp [left]

/-- A step of the sender that does not return brings the return closer. -/
theorem send_left {pc : SendPc w T} (h : Invariant k s) (hready : SendReady s)
    (hs : sendStep s.inner s.sender = some (q, pc, none)) :
    pc.Busy ∧ pc.blocking = s.sender.blocking ∧
      pc.left q.receiverClosed < s.sender.left s.inner.receiverClosed := by
  have hf := h.sender
  cases hp : s.sender with
  | idle | dropped => simp [sendStep, hp] at hs
  | storeTail b v tail | storeSenderClosed d => simp [sendStep, hp] at hs
  | loadSenderClosed b v =>
    simp only [sendStep, hp] at hs
    split at hs <;> simp only [Option.some.injEq, Prod.mk.injEq, reduceCtorEq, and_false] at hs
    obtain ⟨rfl, rfl, -⟩ := hs
    refine ⟨by simp [SendPc.Busy], rfl, ?_⟩
    cases s.inner.receiverClosed <;> simp [SendPc.left]
  | loadReceiverClosed b v =>
    simp only [sendStep, hp] at hs
    split at hs <;> simp only [Option.some.injEq, Prod.mk.injEq, reduceCtorEq, and_false] at hs
    obtain ⟨rfl, rfl, -⟩ := hs
    refine ⟨by simp [SendPc.Busy], rfl, ?_⟩
    simp_all [SendPc.left]
  | loadTail b v =>
    simp only [sendStep, hp, Option.some.injEq, Prod.mk.injEq] at hs
    obtain ⟨rfl, rfl, -⟩ := hs
    exact ⟨by simp [SendPc.Busy], rfl, Nat.lt_succ_self 3⟩
  | loadHead b v tail =>
    simp only [SenderFacts, hp] at hf
    obtain ⟨hopen, rfl⟩ := hf
    simp only [sendStep, hp] at hs
    split at hs
    · rename_i hfull
      split at hs <;> simp only [Option.some.injEq, Prod.mk.injEq, reduceCtorEq, and_false] at hs
      obtain ⟨rfl, rfl, -⟩ := hs
      rename_i hb
      refine ⟨by simp [SendPc.Busy], hb.symm, ?_⟩
      have hclosed : s.inner.receiverClosed = true := by
        rcases hready (by rw [hp]; exact hb) with hroom | hclosed
        · exact absurd (h.queue_full hfull) (Nat.ne_of_lt hroom)
        · by_contra hne
          exact hclosed ⟨hopen, Bool.eq_false_iff.mpr hne⟩
      rw [hclosed]
      exact Nat.lt_succ_self 2
    · simp only [Option.some.injEq, Prod.mk.injEq] at hs
      obtain ⟨rfl, rfl, -⟩ := hs
      exact ⟨by simp [SendPc.Busy], rfl, Nat.lt_succ_self 2⟩
  | writeSlot b v tail =>
    simp only [sendStep, hp, Option.some.injEq, Prod.mk.injEq] at hs
    obtain ⟨rfl, rfl, -⟩ := hs
    exact ⟨by simp [SendPc.Busy], rfl, Nat.lt_succ_self 1⟩

theorem recv_left {pc : RecvPc w T} (h : Invariant k s) (hready : RecvReady s)
    (hs : recvStep s.inner s.receiver = some (q, pc, none)) :
    pc.Busy ∧ pc.blocking = s.receiver.blocking ∧
      pc.left q.senderClosed < s.receiver.left s.inner.senderClosed := by
  have hf := h.receiver
  cases hp : s.receiver with
  | idle | dropped => simp [recvStep, hp] at hs
  | storeHead b head v | storeReceiverClosed d => simp [recvStep, hp] at hs
  | loadHead b =>
    simp only [recvStep, hp, Option.some.injEq, Prod.mk.injEq] at hs
    obtain ⟨rfl, rfl, -⟩ := hs
    exact ⟨by simp [RecvPc.Busy], rfl, Nat.lt_succ_self 3⟩
  | loadTail b head =>
    simp only [ReceiverFacts, hp] at hf
    subst hf
    simp only [recvStep, hp] at hs
    split at hs <;> (simp only [Option.some.injEq, Prod.mk.injEq] at hs; obtain ⟨rfl, rfl, -⟩ := hs)
    · rename_i he
      refine ⟨by simp [RecvPc.Busy], rfl, ?_⟩
      have hone :
          (RecvPc.loadSenderClosed b s.inner.head : RecvPc w T).left s.inner.senderClosed = 1 := by
        cases hb : b with
        | false => rfl
        | true =>
          rcases hready (by rw [hp]; exact hb) with hvalue | hclosed
          · exact absurd (h.queue_empty he) hvalue
          · rw [show s.inner.senderClosed = true from hclosed]
            rfl
      rw [hone]
      exact Nat.lt_add_of_pos_left Nat.two_pos
    · exact ⟨by simp [RecvPc.Busy], rfl, Nat.lt_succ_self 2⟩
  | loadSenderClosed b head =>
    simp only [recvStep, hp] at hs
    split at hs
    · simp at hs
    · split at hs <;> simp only [Option.some.injEq, Prod.mk.injEq, reduceCtorEq, and_false] at hs
      obtain ⟨rfl, rfl, -⟩ := hs
      rename_i hc hb
      refine ⟨by simp [RecvPc.Busy], hb.symm, ?_⟩
      simp [RecvPc.left, hc, hb]
  | readSlot b head =>
    simp only [recvStep, hp] at hs
    split at hs
    · simp only [Option.some.injEq, Prod.mk.injEq] at hs
      obtain ⟨rfl, rfl, -⟩ := hs
      exact ⟨by simp [RecvPc.Busy], rfl, Nat.lt_succ_self 1⟩
    · simp at hs

/-- The receiver makes room, and closes its half only. -/
theorem recv_queue {pc : RecvPc w T} {r : Option (RecvReturn T)} (h : Invariant k s)
    (hs : recvStep s.inner s.receiver = some (q, pc, r))
    (ht : t = { s with inner := q, receiver := pc, received := s.received ++ s.receiver.holding }) :
    t.queue.capacity = s.queue.capacity ∧ t.queue.values.length ≤ s.queue.values.length ∧
      (¬ s.queue.Open → ¬ t.queue.Open) ∧
      (s.inner.receiverClosed = true → t.inner.receiverClosed = true) := by
  have hsame (he : t.queue = s.queue) : t.queue.capacity = s.queue.capacity ∧
      t.queue.values.length ≤ s.queue.values.length ∧ (¬ s.queue.Open → ¬ t.queue.Open) ∧
      (s.inner.receiverClosed = true → t.inner.receiverClosed = true) := by
    have hflag : t.inner.receiverClosed = s.inner.receiverClosed := congrArg Queue.receiverClosed he
    rw [he, hflag]
    exact ⟨rfl, Nat.le_refl _, id, id⟩
  rcases recv_tells h hs ht with ⟨-, he, -⟩ | ⟨ret, -, htells⟩
  · exact hsame he
  · have htells := htells (fun _ => True) (fun _ => trivial) fun _ _ => trivial
    have htaken {v : T} (he : s.queue = { t.queue with values := v :: t.queue.values }) :
        t.queue.capacity = s.queue.capacity ∧
        t.queue.values.length ≤ s.queue.values.length ∧ (¬ s.queue.Open → ¬ t.queue.Open) ∧
        (s.inner.receiverClosed = true → t.inner.receiverClosed = true) := by
      have hflag : s.inner.receiverClosed = t.inner.receiverClosed :=
        congrArg Queue.receiverClosed he
      rw [he, hflag]
      exact ⟨rfl, Nat.le_succ _, id, id⟩
    match ret, htells with
    | .tryRecv (.ok v), htells => exact htaken htells
    | .recv (some v), htells => exact htaken htells
    | .tryRecv (.error .empty), htells => exact hsame htells.1
    | .tryRecv (.error .closed), htells => exact hsame htells.1
    | .recv none, htells => exact hsame htells.1
    | .closed, htells =>
      have hflag : t.inner.receiverClosed = true := congrArg Queue.receiverClosed htells
      rw [htells, hflag]
      exact ⟨rfl, Nat.le_refl _, fun _ ho => (by cases ho.2), fun _ => rfl⟩

/-- The sender adds values, and closes its half only. -/
theorem send_queue {pc : SendPc w T} {r : Option (SendReturn T)} (h : Invariant k s)
    (hs : sendStep s.inner s.sender = some (q, pc, r))
    (ht : t = { s with inner := q, sender := pc, sent := s.sent ++ s.sender.holding }) :
    (s.queue.values ≠ [] → t.queue.values ≠ []) ∧
      (s.queue.senderClosed = true → t.queue.senderClosed = true) := by
  have hflag : s.queue.senderClosed = true → t.queue.senderClosed = true := by
    rw [ht]
    exact senderClosed_sendStep hs
  have hsame (he : t.queue = s.queue) : s.queue.values ≠ [] → t.queue.values ≠ [] := by
    rw [he]
    exact id
  refine ⟨?_, hflag⟩
  rcases send_tells h hs ht with ⟨-, he, -⟩ | ⟨ret, -, htells⟩
  · exact hsame he
  · have htells := htells (fun _ => True) fun _ => trivial
    match ret, htells with
    | .trySend (.ok _), htells | .send (.ok _), htells =>
      rw [htells.1]
      exact fun hne => List.append_ne_nil_of_left_ne_nil hne _
    | .trySend (.error (.full _)), htells | .trySend (.error (.closed _)), htells
    | .send (.error _), htells => exact hsame htells.1
    | .closed, htells =>
      rw [htells]
      exact id

theorem send_run (h : Reachable w T capacity s) (hb : s.sender.Busy) (hready : SendReady s)
    (ht : Lts.Trace (spscLts w T capacity) s xs t) (hx : ∀ l ∈ xs, ¬ l.EndsSend) :
    t.sender.Busy ∧ SendReady t ∧
      xs.countP Label.sends + t.sender.left t.inner.receiverClosed ≤
        s.sender.left s.inner.receiverClosed := by
  induction ht with
  | refl => exact ⟨hb, hready, by simp⟩
  | @snoc t u xs l htrace hstep ih =>
    obtain ⟨k, hi⟩ := invariant_reachable (Lts.trace_reachable h htrace)
    obtain ⟨hbusy, hrt, hleft⟩ := ih fun l hl => hx l (List.mem_append_left _ hl)
    have hends := hx l (List.mem_append_right _ (List.mem_singleton_self l))
    rw [List.countP_append]
    cases hstep with
    | sendCall call hpc => exact absurd hpc hbusy.1
    | recvCall call hpc => exact ⟨hbusy, hrt, hleft⟩
    | @recvStep q pc r hrecv =>
      obtain ⟨hcap, hlen, hopen, hflag⟩ := recv_queue hi hrecv rfl
      refine ⟨hbusy, fun hblock => ?_, Nat.le_trans (Nat.add_le_add_left ?_ _) hleft⟩
      · rcases hrt hblock with hroom | hclosed
        · rw [hcap]
          exact .inl (Nat.lt_of_le_of_lt hlen hroom)
        · exact .inr (hopen hclosed)
      · exact SendPc.left_mono hflag _
    | @sendStep q pc r hsend =>
      cases r with
      | some ret => exact absurd ⟨ret, rfl⟩ hends
      | none =>
        obtain ⟨hbusy', hblock, hlt⟩ := send_left hi hrt hsend
        rcases send_tells hi hsend rfl with ⟨-, he, -⟩ | ⟨ret, hret, -⟩
        · refine ⟨hbusy', fun hb' => ?_, ?_⟩
          · rw [he]
            exact hrt (hblock ▸ hb')
          · have hone : [(Label.sendStep none : Label T)].countP Label.sends = 1 := rfl
            rw [hone]
            show _ + pc.left q.receiverClosed ≤ _
            omega
        · cases hret

theorem recv_run (h : Reachable w T capacity s) (hb : s.receiver.Busy) (hready : RecvReady s)
    (ht : Lts.Trace (spscLts w T capacity) s xs t) (hx : ∀ l ∈ xs, ¬ l.EndsRecv) :
    t.receiver.Busy ∧ RecvReady t ∧
      xs.countP Label.recvs + t.receiver.left t.inner.senderClosed ≤
        s.receiver.left s.inner.senderClosed := by
  induction ht with
  | refl => exact ⟨hb, hready, by simp⟩
  | @snoc t u xs l htrace hstep ih =>
    obtain ⟨k, hi⟩ := invariant_reachable (Lts.trace_reachable h htrace)
    obtain ⟨hbusy, hrt, hleft⟩ := ih fun l hl => hx l (List.mem_append_left _ hl)
    have hends := hx l (List.mem_append_right _ (List.mem_singleton_self l))
    rw [List.countP_append]
    cases hstep with
    | recvCall call hpc => exact absurd hpc hbusy.1
    | sendCall call hpc => exact ⟨hbusy, hrt, hleft⟩
    | @sendStep q pc r hsend =>
      obtain ⟨hvalues, hflag⟩ := send_queue hi hsend rfl
      refine ⟨hbusy, fun hblock => ?_, Nat.le_trans (Nat.add_le_add_left ?_ _) hleft⟩
      · exact (hrt hblock).imp hvalues hflag
      · exact RecvPc.left_mono hflag _
    | @recvStep q pc r hrecv =>
      cases r with
      | some ret => exact absurd ⟨ret, rfl⟩ hends
      | none =>
        obtain ⟨hbusy', hblock, hlt⟩ := recv_left hi hrt hrecv
        rcases recv_tells hi hrecv rfl with ⟨-, he, -⟩ | ⟨ret, hret, -⟩
        · refine ⟨hbusy', fun hb' => ?_, ?_⟩
          · rw [he]
            exact hrt (hblock ▸ hb')
          · have hone : [(Label.recvStep none : Label T)].countP Label.recvs = 1 := rfl
            rw [hone]
            show _ + pc.left q.senderClosed ≤ _
            omega
        · cases hret

theorem send_enabled (hb : s.sender.Busy) : ∃ r t, Step s (.sendStep r) t := by
  have hstep : (sendStep s.inner s.sender).isSome := by
    cases hp : s.sender with
    | idle => exact absurd hp hb.1
    | dropped => exact absurd hp hb.2
    | _ =>
      simp only [sendStep]
      (repeat' split) <;> rfl
  obtain ⟨⟨q, pc, r⟩, hs⟩ := Option.isSome_iff_exists.mp hstep
  exact ⟨r, _, .sendStep hs⟩

/-- The slot to be read holds a value. -/
theorem recv_enabled (h : Invariant k s) (hb : s.receiver.Busy) :
    ∃ r t, Step s (.recvStep r) t := by
  have hstep : (recvStep s.inner s.receiver).isSome := by
    cases hp : s.receiver with
    | idle => exact absurd hp hb.1
    | dropped => exact absurd hp hb.2
    | readSlot b head =>
      obtain ⟨v, hv⟩ := h.safe.reads b head hp
      simp only [recvStep, hv]
      rfl
    | _ =>
      simp only [recvStep]
      (repeat' split) <;> rfl
  obtain ⟨⟨q, pc, r⟩, hs⟩ := Option.isSome_iff_exists.mp hstep
  exact ⟨r, _, .recvStep hs⟩

/-- A call is never stuck, and returns with its sixth step at the latest on the sender, and with its
fifth on the receiver, whatever the other half does meanwhile: a blocking call, from the moment on
at which there is room or a value for it, or a closed half; a `try` call in any state. -/
theorem calls_return (h : Reachable w T capacity s) :
    (s.sender.Busy → (∃ r t, Step s (.sendStep r) t) ∧
      (SendReady s → ∀ xs t, Lts.Trace (spscLts w T capacity) s xs t →
        (∀ l ∈ xs, ¬ l.EndsSend) → xs.countP Label.sends < 6)) ∧
    (s.receiver.Busy → (∃ r t, Step s (.recvStep r) t) ∧
      (RecvReady s → ∀ xs t, Lts.Trace (spscLts w T capacity) s xs t →
        (∀ l ∈ xs, ¬ l.EndsRecv) → xs.countP Label.recvs < 5)) := by
  obtain ⟨k, hi⟩ := invariant_reachable h
  refine ⟨fun hb => ⟨send_enabled hb, fun hready xs t ht hx => ?_⟩,
    fun hb => ⟨recv_enabled hi hb, fun hready xs t ht hx => ?_⟩⟩
  · obtain ⟨hbusy, -, hle⟩ := send_run h hb hready ht hx
    have hpos := SendPc.left_pos (c := t.inner.receiverClosed) hbusy
    have hsix := SendPc.left_le s.inner.receiverClosed s.sender
    omega
  · obtain ⟨hbusy, -, hle⟩ := recv_run h hb hready ht hx
    have hpos := RecvPc.left_pos (c := t.inner.senderClosed) hbusy
    have hfive := RecvPc.left_le s.inner.senderClosed s.receiver
    omega

/-- `send` on a full queue of one, from the moment on at which the receiver takes the value. -/
theorem calls_return_room : ∃ s : State 64 Nat, s.sender.blocking = true ∧
    ∀ xs t, Lts.Trace (spscLts 64 Nat 1) s xs t → (∀ l ∈ xs, ¬ l.EndsSend) →
      xs.countP Label.sends < 6 := by
  have hnew : Inner.new 64 Nat 1 = some ⟨[none], 0, 0, 0, false, false⟩ := by
    simp [Inner.new, checkedNextPowerOfTwo]
  have hr : Reachable 64 Nat 1
      ⟨⟨[none], 0, 1, 1, false, false⟩, .loadSenderClosed true 8, .idle, [7], [7]⟩ :=
    schedule_reachable (m := [.sendCall (.trySend 7), .send, .send, .send, .send, .send, .send,
      .sendCall (.send 8), .send, .send, .send, .send, .recvCall .recv, .recv, .recv, .recv, .recv])
      (.initial ⟨_, hnew, rfl⟩) rfl
  exact ⟨_, rfl, ((calls_return hr).1 (by simp [SendPc.Busy])).2 fun _ => .inl Nat.one_pos⟩

end Zrt.Spsc
