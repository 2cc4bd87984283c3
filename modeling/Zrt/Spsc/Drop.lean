import Zrt.Spsc.Safety

/-! What becomes of the queued values when both halves are gone. -/
namespace Zrt.Spsc

variable {w k capacity n lo idx : Nat} {T : Type*} {s : State w T} {q : Inner w T} {xs : List T}

/-- `assume_init_drop` on the slots of some counters, in turn, and the values it drops. `none` is
the drop of a slot that holds no value. -/
def Inner.dropSlots (q : Inner w T) : List Nat → Option (Inner w T × List T)
  | [] => some (q, [])
  | idx :: rest =>
    match q.slots[q.index (BitVec.ofNat w idx)]? with
    | some (some value) =>
      (dropSlots { q with slots := q.slots.set (q.index (BitVec.ofNat w idx)) none } rest).map
        fun (q, values) => (q, value :: values)
    | _ => none

/-- `Drop for Inner`: the range `head..tail` is one of plain words and does not wrap. -/
def Inner.drop (q : Inner w T) : Option (Inner w T × List T) :=
  q.dropSlots (List.range' q.head.toNat (q.tail.toNat - q.head.toNat))

/-- Dropping the queue drops what was sent and not received, each value once and in order, and
leaves the slots of all other positions as they are. -/
def DropsQueued (s : State w T) : Prop :=
  ∃ q, s.inner.drop = some (q, s.sent.drop s.received.length) ∧
    ∀ i, (∀ n, s.received.length ≤ n → n < s.sent.length → n % s.inner.slots.length ≠ i) →
      q.slots[i]? = s.inner.slots[i]?

/-- Dropping the slots of consecutive counters drops the stream's values at their positions. -/
theorem dropSlots_window (hk : k < w) (hslots : q.slots.length = 2 ^ k)
    (hmask : q.mask = BitVec.ofNat w (2 ^ k - 1)) (hw : Ring.Window q.slots lo xs)
    (hidx : BitVec.ofNat w idx = BitVec.ofNat w lo) (hn : lo + n = xs.length) (hle : n ≤ 2 ^ k) :
    ∃ q', q.dropSlots (List.range' idx n) = some (q', xs.drop lo) ∧
      ∀ i, (∀ m, lo ≤ m → m < xs.length → m % q.slots.length ≠ i) →
        q'.slots[i]? = q.slots[i]? := by
  induction n generalizing q lo idx with
  | zero =>
    have hnil : xs.drop lo = [] := List.drop_eq_nil_of_le (by omega)
    exact ⟨q, by simp [Inner.dropSlots, hnil], fun _ _ => rfl⟩
  | succ n ih =>
    have hpos : 0 < q.slots.length := by
      rw [hslots]
      exact Nat.two_pow_pos k
    have hlo : lo < xs.length := by omega
    have hindex : q.index (BitVec.ofNat w idx) = lo % q.slots.length := by
      rw [Inner.index, hidx, hmask, hslots, Ring.counter_and_mask hk]
    have hread := Ring.window_read hw hpos hlo
    have htake := Ring.window_take hw hpos (by omega)
    have hnext : BitVec.ofNat w (idx + 1) = BitVec.ofNat w (lo + 1) := by
      rw [← Ring.counter_add_one, hidx, Ring.counter_add_one]
    obtain ⟨q', hq', hframe⟩ := ih (q := { q with slots := q.slots.set (lo % q.slots.length) none })
      (by simpa using hslots) hmask htake hnext (by omega) (by omega)
    refine ⟨q', ?_, ?_⟩
    · rw [List.range'_succ, Inner.dropSlots, hindex, hread]
      simp only [hq', Option.map_some]
      rw [List.drop_eq_getElem_cons hlo]
    · intro i hi
      have hne : lo % q.slots.length ≠ i := hi lo le_rfl hlo
      have hrest := hframe i fun m hm hlt => by
        simpa using hi m (by omega) hlt
      rw [hrest, List.getElem?_set_ne hne]

/-- As long as `tail` has not wrapped past `head` the range holds exactly the queued positions. -/
theorem drop_of_le (h : Invariant k s) (hs : s.sender = .dropped) (hr : s.receiver = .dropped)
    (hle : s.inner.head.toNat ≤ s.inner.tail.toNat) : DropsQueued s := by
  have hreceived := h.received_le
  have hbound := h.bound
  have hpow := h.pow_lt
  have hcount : s.inner.tail.toNat - s.inner.head.toNat = s.sent.length - s.received.length := by
    rw [← BitVec.toNat_sub_of_le hle, h.tail, h.head, Ring.counter_sub hreceived,
      BitVec.toNat_ofNat, Nat.mod_eq_of_lt (by omega)]
  have hw := h.window
  rw [hs, hr] at hw
  simp only [RecvPc.holding, SendPc.holding, List.length_nil, Nat.add_zero, List.append_nil] at hw
  have hidx : BitVec.ofNat w s.inner.head.toNat = BitVec.ofNat w s.received.length := by
    rw [BitVec.ofNat_toNat, BitVec.setWidth_eq, h.head]
  rw [DropsQueued, Inner.drop, hcount]
  exact dropSlots_window h.width h.slots h.mask hw hidx (by omega) (by omega)

/-- Once `tail` has wrapped and `head` has not the range is empty. -/
theorem drop_of_lt (h : s.inner.tail.toNat < s.inner.head.toNat) :
    s.inner.drop = some (s.inner, []) := by
  have hz : s.inner.tail.toNat - s.inner.head.toNat = 0 := Nat.sub_eq_zero_of_le (Nat.le_of_lt h)
  rw [Inner.drop, hz]
  rfl

theorem not_dropsQueued_of_lt (h : Invariant k s) (hlt : s.inner.tail.toNat < s.inner.head.toNat) :
    ¬ DropsQueued s := by
  rintro ⟨q, hq, -⟩
  rw [drop_of_lt hlt] at hq
  have hnil : s.sent.drop s.received.length = [] := (Prod.mk.inj (Option.some.inj hq)).2.symm
  have hle := List.drop_eq_nil_iff.mp hnil
  have heq := h.counters_eq_iff.mpr (Nat.le_antisymm h.received_le hle)
  rw [heq] at hlt
  exact Nat.lt_irrefl _ hlt

/-- When both halves are gone the queued values are dropped exactly when `tail` has not wrapped
past `2 ^ w` ahead of `head`. -/
theorem drops_queued_iff (h : Reachable w T capacity s) (hs : s.sender = .dropped)
    (hr : s.receiver = .dropped) :
    DropsQueued s ↔ s.inner.head.toNat ≤ s.inner.tail.toNat := by
  obtain ⟨k, hi⟩ := invariant_reachable h
  constructor
  · intro hd
    by_contra hlt
    exact not_dropsQueued_of_lt hi (Nat.lt_of_not_le hlt) hd
  · exact drop_of_le hi hs hr

theorem drops_queued_one : ∃ s, Reachable 64 Nat 1 s ∧ s.sent = [7] ∧ DropsQueued s := by
  have hnew : Inner.new 64 Nat 1 = some ⟨[none], 0, 0, 0, false, false⟩ := by
    simp [Inner.new, checkedNextPowerOfTwo]
  have hs : Reachable 64 Nat 1
      ⟨⟨[some 7], 0, 0, 1, true, true⟩, .dropped, .dropped, [7], []⟩ :=
    schedule_reachable (m := [.sendCall (.trySend 7), .send, .send, .send, .send, .send, .send,
      .sendCall .drop, .send, .recvCall .drop, .recv]) (.initial ⟨_, hnew, rfl⟩) rfl
  exact ⟨_, hs, rfl, (drops_queued_iff hs rfl rfl).mpr (by decide)⟩

/-- A queue of one slot that `n` values have gone through. -/
def idleAfter (w n : Nat) : State w Nat :=
  ⟨⟨[none], 0, BitVec.ofNat w n, BitVec.ofNat w n, false, false⟩, .idle, .idle,
    List.replicate n 0, List.replicate n 0⟩

/-- The same with one more value in the slot. -/
def queuedAfter (w n : Nat) : State w Nat :=
  ⟨⟨[some 0], 0, BitVec.ofNat w n, BitVec.ofNat w (n + 1), false, false⟩, .idle, .idle,
    List.replicate (n + 1) 0, List.replicate n 0⟩

theorem send_reachable (hw : 0 < w) (h : Reachable w Nat 1 (idleAfter w n)) :
    Reachable w Nat 1 (queuedAfter w n) := by
  have hone : (0 : BitVec w) ≠ BitVec.ofNat w 1 := by
    intro he
    have := congrArg BitVec.toNat he
    rw [BitVec.toNat_ofNat, Nat.mod_eq_of_lt (Nat.one_lt_two_pow hw.ne')] at this
    simp at this
  have hfree : sendStep (idleAfter w n).inner (.loadHead false 0 (BitVec.ofNat w n)) =
      some ((idleAfter w n).inner, .writeSlot false 0 (BitVec.ofNat w n), none) := by
    refine if_neg ?_
    rw [show (idleAfter w n).inner.head = BitVec.ofNat w n from rfl, BitVec.sub_self]
    exact hone
  have hcall := h.step (.sendCall (.trySend 0) rfl)
  have hload := ((hcall.step (.sendStep rfl)).step (.sendStep rfl)).step (.sendStep rfl)
  have hwrite := (hload.step (.sendStep hfree)).step (.sendStep rfl)
  have hstore := hwrite.step (.sendStep rfl)
  simpa [idleAfter, queuedAfter, Inner.index, SendPc.holding, SendCall.entry,
    List.replicate_succ', BitVec.ofNat_add] using hstore

theorem recv_reachable (hw : 0 < w) (h : Reachable w Nat 1 (queuedAfter w n)) :
    Reachable w Nat 1 (idleAfter w (n + 1)) := by
  have hne : BitVec.ofNat w n ≠ BitVec.ofNat w (n + 1) := by
    rw [ne_eq, Ring.counter_eq_iff (Nat.le_succ n) (by simpa using Nat.one_lt_two_pow hw.ne')]
    exact (Nat.lt_succ_self n).ne
  have hload : recvStep (queuedAfter w n).inner (.loadTail false (BitVec.ofNat w n)) =
      some ((queuedAfter w n).inner, .readSlot false (BitVec.ofNat w n), none) := if_neg hne
  have hread : recvStep (queuedAfter w n).inner (.readSlot false (BitVec.ofNat w n)) =
      some ({ (queuedAfter w n).inner with slots := [none] },
        .storeHead false (BitVec.ofNat w n) 0, none) := by
    simp [recvStep, queuedAfter, Inner.index]
  have hcall := (h.step (.recvCall .tryRecv rfl)).step (.recvStep rfl)
  have hmove := (hcall.step (.recvStep hload)).step (.recvStep hread)
  have hstore := hmove.step (.recvStep rfl)
  simpa [idleAfter, queuedAfter, RecvPc.holding, RecvCall.entry, List.replicate_succ',
    BitVec.ofNat_add] using hstore

/-- The counters of a live queue take every position. -/
theorem idleAfter_reachable (hw : 0 < w) (n : Nat) : Reachable w Nat 1 (idleAfter w n) := by
  induction n with
  | zero =>
    refine .initial ⟨_, ?_, rfl⟩
    simp [Inner.new, checkedNextPowerOfTwo, hw.ne']
  | succ n ih => exact recv_reachable hw (send_reachable hw ih)

/-- A value sent as `tail` wraps, and dropped on neither side, is leaked. -/
theorem wrapped_leaks (hw : 0 < w) : ∃ s, Reachable w Nat 1 s ∧ s.sender = .dropped ∧
    s.receiver = .dropped ∧ s.sent.length = 2 ^ w ∧ s.received.length = 2 ^ w - 1 ∧
    ¬ DropsQueued s := by
  have hqueued := send_reachable hw (idleAfter_reachable hw (2 ^ w - 1))
  have hsender := (hqueued.step (.sendCall .drop rfl)).step (.sendStep rfl)
  have hreceiver := (hsender.step (.recvCall .drop rfl)).step (.recvStep rfl)
  have hpos := Nat.two_pow_pos w
  have hone := Nat.one_lt_two_pow hw.ne'
  refine ⟨_, hreceiver, rfl, rfl, ?_, ?_, ?_⟩
  · simp [queuedAfter, SendPc.holding, SendCall.entry]
    omega
  · simp [queuedAfter, RecvPc.holding, RecvCall.entry]
  · obtain ⟨k, hi⟩ := invariant_reachable hreceiver
    refine not_dropsQueued_of_lt hi ?_
    have htail : (BitVec.ofNat w (2 ^ w - 1 + 1)).toNat = 0 := by
      rw [Nat.sub_add_cancel hpos, BitVec.toNat_ofNat, Nat.mod_self]
    have hhead : (BitVec.ofNat w (2 ^ w - 1)).toNat = 2 ^ w - 1 := by
      rw [BitVec.toNat_ofNat, Nat.mod_eq_of_lt (by omega)]
    change (BitVec.ofNat w (2 ^ w - 1 + 1)).toNat < (BitVec.ofNat w (2 ^ w - 1)).toNat
    omega

/-- On 32-bit and on 64-bit words a queue of one slot leaks its value once `2 ^ w` were sent and
one fewer received. -/
theorem drops_queued_fails :
    (∃ s, Reachable 32 Nat 1 s ∧ s.sender = .dropped ∧ s.receiver = .dropped ∧
      s.sent.length = 2 ^ 32 ∧ s.received.length = 2 ^ 32 - 1 ∧ ¬ DropsQueued s) ∧
    ∃ s, Reachable 64 Nat 1 s ∧ s.sender = .dropped ∧ s.receiver = .dropped ∧
      s.sent.length = 2 ^ 64 ∧ s.received.length = 2 ^ 64 - 1 ∧ ¬ DropsQueued s :=
  ⟨wrapped_leaks (by decide), wrapped_leaks (by decide)⟩

end Zrt.Spsc
