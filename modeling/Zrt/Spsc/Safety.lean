import Zrt.Ring
import Zrt.Spsc.Specification

/-! The ring invariant: both counters stand for the lengths of the histories, and the slots are a
window of the sent stream. -/
namespace Zrt.Spsc

variable {w k capacity : Nat} {T : Type*} {s t : State w T} {l : Label T}

/-- What the sender's program position knows. Its loaded tail is current, since only it stores it;
a free slot seen once stays free, since the consumer only releases more. -/
def SenderFacts (k : Nat) (s : State w T) : Prop :=
  match s.sender with
  | .loadReceiverClosed _ _ | .loadTail _ _ => s.inner.senderClosed = false
  | .loadHead _ _ tail => s.inner.senderClosed = false ∧ tail = s.inner.tail
  | .writeSlot _ _ tail | .storeTail _ _ tail =>
    s.inner.senderClosed = false ∧ tail = s.inner.tail ∧
      s.sent.length < s.received.length + 2 ^ k
  | _ => True

def ReceiverFacts (s : State w T) : Prop :=
  match s.receiver with
  | .loadTail _ head | .loadSenderClosed _ head => head = s.inner.head
  | .readSlot _ head => head = s.inner.head ∧ s.received.length < s.sent.length
  | .storeHead _ head value => head = s.inner.head ∧ s.sent[s.received.length]? = some value
  | _ => True

structure Invariant (k : Nat) (s : State w T) : Prop where
  width : k < w
  slots : s.inner.slots.length = 2 ^ k
  mask : s.inner.mask = BitVec.ofNat w (2 ^ k - 1)
  head : s.inner.head = BitVec.ofNat w s.received.length
  tail : s.inner.tail = BitVec.ofNat w s.sent.length
  fifo : s.received <+: s.sent
  bound : s.sent.length ≤ s.received.length + 2 ^ k
  window : Ring.Window s.inner.slots (s.received.length + s.receiver.holding.length)
    (s.sent ++ s.sender.holding)
  sender : SenderFacts k s
  receiver : ReceiverFacts s

theorem new_eq_some {q : Inner w T} (h : Inner.new w T capacity = some q) :
    ∃ k, k < w ∧ q = ⟨List.replicate (2 ^ k) none, BitVec.ofNat w (2 ^ k - 1), 0, 0,
      false, false⟩ := by
  simp only [Inner.new, checkedNextPowerOfTwo] at h
  split at h
  · simp at h
  · split at h
    · rename_i hw
      simp only [Option.map_some, Option.some.injEq] at h
      exact ⟨_, (Nat.pow_lt_pow_iff_right (by omega)).mp hw, h.symm⟩
    · simp at h

theorem invariant_initial (h : (spscLts w T capacity).Initial s) : ∃ k, Invariant k s := by
  obtain ⟨q, hq, rfl⟩ := h
  obtain ⟨k, hw, rfl⟩ := new_eq_some hq
  exact ⟨k, hw, by simp, rfl, by simp, by simp, by simp, by simp,
    by simpa [SendPc.holding, RecvPc.holding] using Ring.window_empty (T := T) (2 ^ k),
    trivial, trivial⟩

namespace Invariant

theorem received_le (h : Invariant k s) : s.received.length ≤ s.sent.length :=
  h.fifo.length_le

theorem pow_lt (h : Invariant k s) : 2 ^ k < 2 ^ w := Nat.pow_lt_pow_right (by omega) h.width

/-- Equal counters mean an empty queue: they are never `2 ^ w` apart. -/
theorem counters_eq_iff (h : Invariant k s) :
    s.inner.head = s.inner.tail ↔ s.received.length = s.sent.length := by
  rw [h.head, h.tail]
  have := h.received_le
  have := h.bound
  have := h.pow_lt
  exact Ring.counter_eq_iff h.received_le (by omega)

/-- The full test reads the number of queued values. -/
theorem full_iff (h : Invariant k s) :
    s.inner.tail - s.inner.head = s.inner.capacity ↔
      s.sent.length = s.received.length + 2 ^ k := by
  have hle := h.received_le
  have hb := h.bound
  have hw := h.pow_lt
  rw [h.tail, h.head, Ring.counter_sub hle, Inner.capacity, h.slots,
    Ring.counter_eq_iff (by omega) (by omega)]
  omega

theorem index_eq (h : Invariant k s) (n : Nat) :
    s.inner.index (BitVec.ofNat w n) = n % s.inner.slots.length := by
  rw [Inner.index, h.mask, h.slots, Ring.counter_and_mask h.width]

theorem empty_received (h : Invariant k s) (he : s.received.length = s.sent.length) :
    s.received = s.sent := h.fifo.eq_of_length he

theorem sender_holding_le (h : Invariant k s) :
    (s.sent ++ s.sender.holding).length ≤ s.received.length + 2 ^ k := by
  have hs := h.sender
  cases hp : s.sender with
  | storeTail item rest tail =>
    -- The slot is written, and the room read from `head` is still there.
    obtain ⟨-, -, hlt⟩ : _ ∧ _ ∧ s.sent.length < s.received.length + 2 ^ k := by
      simpa only [SenderFacts, hp] using hs
    rw [SendPc.holding, List.length_append, List.length_singleton]
    omega
  | _ => simpa [SendPc.holding] using h.bound

theorem sendCall (h : Invariant k s) (call : SendCall T) (hpc : s.sender = .idle) :
    Invariant k { s with sender := call.entry } := by
  refine { h with window := ?_, sender := ?_ }
  · have := h.window
    rw [hpc] at this
    cases call <;> exact this
  · cases call <;> trivial

theorem recvCall (h : Invariant k s) (call : RecvCall) (hpc : s.receiver = .idle) :
    Invariant k { s with receiver := call.entry } := by
  refine { h with window := ?_, receiver := ?_ }
  · have := h.window
    rw [hpc] at this
    cases call <;> exact this
  · cases call <;> trivial

/-- A sender step that neither touches a slot nor publishes. -/
theorem sender_moves (h : Invariant k s) {q : Inner w T} {pc : SendPc w T}
    (hq : q = { s.inner with senderClosed := q.senderClosed })
    (hh : s.sender.holding = []) (hh' : pc.holding = [])
    (hf : SenderFacts k { s with inner := q, sender := pc }) :
    Invariant k { s with inner := q, sender := pc, sent := s.sent ++ s.sender.holding } := by
  have hw := h.window
  have hr := h.receiver
  rw [hh, List.append_nil] at hw ⊢
  rw [hq] at hf ⊢
  refine ⟨h.width, h.slots, h.mask, h.head, h.tail, h.fifo, h.bound, ?_, hf, hr⟩
  simpa only [hh', List.append_nil] using hw

theorem receiver_moves (h : Invariant k s) {q : Inner w T} {pc : RecvPc w T}
    (hq : q = { s.inner with receiverClosed := q.receiverClosed })
    (hh : s.receiver.holding = []) (hh' : pc.holding = [])
    (hf : ReceiverFacts { s with inner := q, receiver := pc }) :
    Invariant k { s with inner := q, receiver := pc, received := s.received ++
      s.receiver.holding } := by
  have hw := h.window
  have hs := h.sender
  rw [hh, List.length_nil, Nat.add_zero] at hw
  rw [hh, List.append_nil]
  rw [hq] at hf ⊢
  refine ⟨h.width, h.slots, h.mask, h.head, h.tail, h.fifo, h.bound, ?_, hs, hf⟩
  simpa only [hh', List.length_nil, Nat.add_zero] using hw

theorem writeSlot (h : Invariant k s) {b : Bool} {v : T} {tail : BitVec w}
    (hpc : s.sender = .writeSlot b v tail) :
    Invariant k { s with
      inner := { s.inner with slots := s.inner.slots.set (s.inner.index tail) (some v) }
      sender := .storeTail b v tail } := by
  have hs := h.sender
  simp only [SenderFacts, hpc] at hs
  obtain ⟨hc, rfl, hfree⟩ := hs
  have hw := h.window
  have hr := h.received_le
  rw [hpc] at hw
  simp only [SendPc.holding, List.append_nil] at hw
  rw [h.tail, h.index_eq]
  refine { h with
    slots := by simpa using h.slots
    window := ?_
    sender := ⟨hc, h.tail.symm, hfree⟩ }
  apply Ring.window_write hw
  · have hlen : s.receiver.holding.length ≤ s.sent.length - s.received.length := by
      have hrf := h.receiver
      cases hp : s.receiver <;> simp_all [ReceiverFacts, RecvPc.holding]
      have := (List.getElem?_eq_some_iff.mp hrf.2).1
      omega
    omega
  · rw [h.slots]
    omega

theorem storeTail (h : Invariant k s) {b : Bool} {v : T} {tail : BitVec w}
    (hpc : s.sender = .storeTail b v tail) :
    Invariant k { s with
      inner := { s.inner with tail := tail + 1#w }
      sender := .idle
      sent := s.sent ++ s.sender.holding } := by
  have hs := h.sender
  simp only [SenderFacts, hpc] at hs
  obtain ⟨_, rfl, hfree⟩ := hs
  have hw := h.window
  rw [hpc] at hw ⊢
  simp only [SendPc.holding] at hw ⊢
  refine ⟨h.width, h.slots, h.mask, h.head, ?_, h.fifo.trans (List.prefix_append _ _), ?_, ?_,
    trivial, ?_⟩
  · simp only [List.length_append, List.length_singleton, h.tail, Ring.counter_add_one]
  · simp only [List.length_append, List.length_singleton]
    omega
  · simpa [SendPc.holding] using hw
  · have hr := h.receiver
    cases hp : s.receiver <;> simp_all [ReceiverFacts]
    · omega
    · rw [List.getElem?_append_left (List.getElem?_eq_some_iff.mp hr.2).1]
      exact hr.2

theorem readSlot (h : Invariant k s) {b : Bool} {v : T} {head : BitVec w}
    (hpc : s.receiver = .readSlot b head)
    (hv : s.inner.slots[s.inner.index head]? = some (some v)) :
    Invariant k { s with
      inner := { s.inner with slots := s.inner.slots.set (s.inner.index head) none }
      receiver := .storeHead b head v } := by
  have hr := h.receiver
  simp only [ReceiverFacts, hpc] at hr
  obtain ⟨rfl, hlt⟩ := hr
  have hw := h.window
  rw [hpc] at hw
  simp only [RecvPc.holding, List.length_nil, Nat.add_zero] at hw
  have hpos : 0 < s.inner.slots.length := by rw [h.slots]; exact Nat.two_pow_pos k
  rw [h.head, h.index_eq] at hv ⊢
  have hget := Ring.window_read hw hpos (by simp; omega)
  rw [hv, List.getElem_append_left hlt, Option.some.injEq, Option.some.injEq] at hget
  refine { h with slots := by simpa using h.slots, window := ?_, receiver := ⟨h.head.symm, ?_⟩ }
  · exact Ring.window_take hw hpos (by rw [h.slots]; exact h.sender_holding_le)
  · rw [hget]
    exact List.getElem?_eq_getElem hlt

theorem storeHead (h : Invariant k s) {b : Bool} {v : T} {head : BitVec w}
    (hpc : s.receiver = .storeHead b head v) :
    Invariant k { s with
      inner := { s.inner with head := head + 1#w }
      receiver := .idle
      received := s.received ++ s.receiver.holding } := by
  have hr := h.receiver
  simp only [ReceiverFacts, hpc] at hr
  obtain ⟨rfl, hget⟩ := hr
  have hw := h.window
  rw [hpc] at hw ⊢
  simp only [RecvPc.holding, List.length_singleton] at hw ⊢
  have hlt := (List.getElem?_eq_some_iff.mp hget).1
  have hb := h.bound
  refine ⟨h.width, h.slots, h.mask, ?_, h.tail, ?_, ?_, ?_, ?_, trivial⟩
  · simp only [List.length_append, List.length_singleton, h.head, Ring.counter_add_one]
  · obtain ⟨ys, hys⟩ := h.fifo
    rw [← hys, List.getElem?_append_right le_rfl, Nat.sub_self] at hget
    cases ys with
    | nil => simp at hget
    | cons y ys =>
      simp only [List.getElem?_cons_zero, Option.some.injEq] at hget
      exact ⟨ys, by rw [← hys, hget]; simp⟩
  · simp only [List.length_append, List.length_singleton]
    omega
  · simpa [RecvPc.holding] using hw
  · have hs := h.sender
    cases hp : s.sender <;> simp_all [SenderFacts]
    all_goals omega

theorem sendStep (h : Invariant k s) {q : Inner w T} {pc : SendPc w T}
    {r : Option (SendReturn T)} (hs : Spsc.sendStep s.inner s.sender = some (q, pc, r)) :
    Invariant k { s with inner := q, sender := pc, sent := s.sent ++ s.sender.holding } := by
  have hf := h.sender
  cases hp : s.sender with
  | idle | dropped => simp [Spsc.sendStep, hp] at hs
  | loadSenderClosed b v =>
    simp only [Spsc.sendStep, hp] at hs
    split at hs <;> (simp only [Option.some.injEq, Prod.mk.injEq] at hs; obtain ⟨rfl, rfl, -⟩ := hs)
    · exact hp ▸ h.sender_moves rfl (by simp [hp, SendPc.holding]) rfl trivial
    · rename_i hc
      exact hp ▸ h.sender_moves rfl (by simp [hp, SendPc.holding]) rfl
        (by simpa [SenderFacts] using hc)
  | loadReceiverClosed b v =>
    simp only [SenderFacts, hp] at hf
    simp only [Spsc.sendStep, hp] at hs
    split at hs <;> (simp only [Option.some.injEq, Prod.mk.injEq] at hs; obtain ⟨rfl, rfl, -⟩ := hs)
    · exact hp ▸ h.sender_moves rfl (by simp [hp, SendPc.holding]) rfl trivial
    · exact hp ▸ h.sender_moves rfl (by simp [hp, SendPc.holding]) rfl hf
  | loadTail b v =>
    simp only [SenderFacts, hp] at hf
    simp only [Spsc.sendStep, hp, Option.some.injEq, Prod.mk.injEq] at hs
    obtain ⟨rfl, rfl, -⟩ := hs
    exact hp ▸ h.sender_moves rfl (by simp [hp, SendPc.holding]) rfl ⟨hf, rfl⟩
  | loadHead b v tail =>
    simp only [SenderFacts, hp] at hf
    obtain ⟨hc, rfl⟩ := hf
    simp only [Spsc.sendStep, hp] at hs
    have hfull := h.full_iff
    have hb := h.bound
    split at hs
    · split at hs <;>
        (simp only [Option.some.injEq, Prod.mk.injEq] at hs; obtain ⟨rfl, rfl, -⟩ := hs) <;>
        exact hp ▸ h.sender_moves rfl (by simp [hp, SendPc.holding]) rfl trivial
    · rename_i hne
      simp only [Option.some.injEq, Prod.mk.injEq] at hs
      obtain ⟨rfl, rfl, -⟩ := hs
      refine hp ▸ h.sender_moves rfl (by simp [hp, SendPc.holding]) rfl ⟨hc, rfl, ?_⟩
      have : s.sent.length ≠ s.received.length + 2 ^ k := fun he => hne (hfull.mpr he)
      change s.sent.length < s.received.length + 2 ^ k
      omega
  | writeSlot b v tail =>
    simp only [Spsc.sendStep, hp, Option.some.injEq, Prod.mk.injEq] at hs
    obtain ⟨rfl, rfl, -⟩ := hs
    simpa [SendPc.holding] using h.writeSlot hp
  | storeTail b v tail =>
    simp only [Spsc.sendStep, hp, Option.some.injEq, Prod.mk.injEq] at hs
    obtain ⟨rfl, rfl, -⟩ := hs
    exact hp ▸ h.storeTail hp
  | storeSenderClosed d =>
    simp only [Spsc.sendStep, hp, Option.some.injEq, Prod.mk.injEq] at hs
    obtain ⟨rfl, rfl, -⟩ := hs
    refine hp ▸ h.sender_moves rfl (by simp [hp, SendPc.holding]) ?_ ?_ <;>
      cases d <;> first | rfl | trivial

theorem recvStep (h : Invariant k s) {q : Inner w T} {pc : RecvPc w T}
    {r : Option (RecvReturn T)} (hs : Spsc.recvStep s.inner s.receiver = some (q, pc, r)) :
    Invariant k { s with
      inner := q, receiver := pc, received := s.received ++ s.receiver.holding } := by
  have hf := h.receiver
  cases hp : s.receiver with
  | idle | dropped => simp [Spsc.recvStep, hp] at hs
  | loadHead b =>
    simp only [Spsc.recvStep, hp, Option.some.injEq, Prod.mk.injEq] at hs
    obtain ⟨rfl, rfl, -⟩ := hs
    exact hp ▸ h.receiver_moves rfl (by simp [hp, RecvPc.holding]) rfl rfl
  | loadTail b head =>
    simp only [ReceiverFacts, hp] at hf
    subst hf
    simp only [Spsc.recvStep, hp] at hs
    split at hs <;> (simp only [Option.some.injEq, Prod.mk.injEq] at hs; obtain ⟨rfl, rfl, -⟩ := hs)
    · exact hp ▸ h.receiver_moves rfl (by simp [hp, RecvPc.holding]) rfl rfl
    · rename_i hne
      refine hp ▸ h.receiver_moves rfl (by simp [hp, RecvPc.holding]) rfl ⟨rfl, ?_⟩
      have hle := h.received_le
      have : s.received.length ≠ s.sent.length := fun he => hne (h.counters_eq_iff.mpr he)
      change s.received.length < s.sent.length
      omega
  | loadSenderClosed b head =>
    simp only [Spsc.recvStep, hp] at hs
    split at hs
    · simp only [Option.some.injEq, Prod.mk.injEq] at hs
      obtain ⟨rfl, rfl, -⟩ := hs
      exact hp ▸ h.receiver_moves rfl (by simp [hp, RecvPc.holding]) rfl trivial
    · split at hs <;>
        (simp only [Option.some.injEq, Prod.mk.injEq] at hs; obtain ⟨rfl, rfl, -⟩ := hs) <;>
        exact hp ▸ h.receiver_moves rfl (by simp [hp, RecvPc.holding]) rfl trivial
  | readSlot b head =>
    simp only [Spsc.recvStep, hp] at hs
    split at hs
    · rename_i v hv
      simp only [Option.some.injEq, Prod.mk.injEq] at hs
      obtain ⟨rfl, rfl, -⟩ := hs
      simpa [RecvPc.holding] using h.readSlot hp hv
    · simp at hs
  | storeHead b head v =>
    simp only [Spsc.recvStep, hp, Option.some.injEq, Prod.mk.injEq] at hs
    obtain ⟨rfl, rfl, -⟩ := hs
    exact hp ▸ h.storeHead hp
  | storeReceiverClosed d =>
    simp only [Spsc.recvStep, hp, Option.some.injEq, Prod.mk.injEq] at hs
    obtain ⟨rfl, rfl, -⟩ := hs
    refine hp ▸ h.receiver_moves rfl (by simp [hp, RecvPc.holding]) ?_ ?_ <;>
      cases d <;> first | rfl | trivial

end Invariant

theorem invariant_step (h : Step s l t) (hs : Invariant k s) : Invariant k t := by
  cases h with
  | sendCall call hpc => exact hs.sendCall call hpc
  | sendStep hstep => exact hs.sendStep hstep
  | recvCall call hpc => exact hs.recvCall call hpc
  | recvStep hstep => exact hs.recvStep hstep

theorem invariant_reachable (h : Reachable w T capacity s) : ∃ k, Invariant k s :=
  Lts.invariant_reachable (P := fun s => ∃ k, Invariant k s) (fun _ => invariant_initial)
    (fun _ _ _ ⟨k, hs⟩ hstep => ⟨k, invariant_step hstep hs⟩) h

end Zrt.Spsc
