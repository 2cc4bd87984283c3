import Mathlib.Algebra.Group.Nat.Defs
import Mathlib.Data.List.Basic
import Mathlib.Data.Nat.Log
import Zrt.Lts

/-! The bounded queue of `spsc.rs`, one atomic load, store or slot access a step. -/
namespace Zrt.Spsc

/-- `Inner<T>` with a `usize` of `w` bits. `none` is an uninitialized slot. The parked-thread
handles and the spin budget are left out: parking has a timeout and touches no queue data. -/
structure Inner (w : Nat) (T : Type*) where
  slots : List (Option T)
  mask : BitVec w
  head : BitVec w
  tail : BitVec w
  senderClosed : Bool
  receiverClosed : Bool
  deriving DecidableEq

/-- The least power of two not below `n`, if a `w`-bit word holds it. -/
def checkedNextPowerOfTwo (w n : Nat) : Option Nat :=
  if 2 ^ Nat.clog 2 n < 2 ^ w then some (2 ^ Nat.clog 2 n) else none

/-- `Inner::new`; `none` is a failed assertion. -/
def Inner.new (w : Nat) (T : Type*) (capacity : Nat) : Option (Inner w T) :=
  if capacity = 0 then none
  else (checkedNextPowerOfTwo w capacity).map fun capacity => {
    slots := List.replicate capacity none
    mask := BitVec.ofNat w (capacity - 1)
    head := 0
    tail := 0
    senderClosed := false
    receiverClosed := false }

def Inner.capacity {w : Nat} {T : Type*} (q : Inner w T) : BitVec w :=
  BitVec.ofNat w q.slots.length

/-- `slots[counter & mask]`. -/
def Inner.index {w : Nat} {T : Type*} (q : Inner w T) (counter : BitVec w) : Nat :=
  (counter &&& q.mask).toNat

inductive TrySendError (T : Type*) where
  | full (value : T)
  | closed (value : T)
  deriving DecidableEq

inductive TryRecvError where
  | empty
  | closed
  deriving DecidableEq

inductive SendCall (T : Type*) where
  | trySend (value : T)
  | send (value : T)
  | close
  | drop

inductive RecvCall where
  | tryRecv
  | recv
  | close
  | drop

/-- What a call on the sender hands back; `send` maps `Err(Closed(v))` to `SendError(v)`. -/
inductive SendReturn (T : Type*) where
  | trySend (result : Except (TrySendError T) Unit)
  | send (result : Except T Unit)
  | closed

inductive RecvReturn (T : Type*) where
  | tryRecv (result : Except TryRecvError T)
  | recv (result : Option T)
  | closed

/-- Where a caller of the sending half stands. `blocking` marks an attempt made by `send`. -/
inductive SendPc (w : Nat) (T : Type*) where
  | idle
  | loadSenderClosed (blocking : Bool) (value : T)
  | loadReceiverClosed (blocking : Bool) (value : T)
  | loadTail (blocking : Bool) (value : T)
  | loadHead (blocking : Bool) (value : T) (tail : BitVec w)
  | writeSlot (blocking : Bool) (value : T) (tail : BitVec w)
  | storeTail (blocking : Bool) (value : T) (tail : BitVec w)
  | storeSenderClosed (dropping : Bool)
  | dropped

inductive RecvPc (w : Nat) (T : Type*) where
  | idle
  | loadHead (blocking : Bool)
  | loadTail (blocking : Bool) (head : BitVec w)
  | loadSenderClosed (blocking : Bool) (head : BitVec w)
  | readSlot (blocking : Bool) (head : BitVec w)
  | storeHead (blocking : Bool) (head : BitVec w) (value : T)
  | storeReceiverClosed (dropping : Bool)
  | dropped

variable {w : Nat} {T : Type*}

def SendCall.entry : SendCall T → SendPc w T
  | .trySend value => .loadSenderClosed false value
  | .send value => .loadSenderClosed true value
  | .close => .storeSenderClosed false
  | .drop => .storeSenderClosed true

def RecvCall.entry : RecvCall → RecvPc w T
  | .tryRecv => .loadHead false
  | .recv => .loadHead true
  | .close => .storeReceiverClosed false
  | .drop => .storeReceiverClosed true

/-- `Err(Closed(value))` out of an attempt. -/
def closedReturn (blocking : Bool) (value : T) : SendReturn T :=
  if blocking then .send (.error value) else .trySend (.error (.closed value))

/-- One step of `try_send`, `send`, `close` or `Drop`, with what the call returns if it ends. -/
def sendStep (q : Inner w T) : SendPc w T → Option (Inner w T × SendPc w T × Option (SendReturn T))
  | .idle => none
  | .loadSenderClosed blocking value =>
    if q.senderClosed then some (q, .idle, some (closedReturn blocking value))
    else some (q, .loadReceiverClosed blocking value, none)
  | .loadReceiverClosed blocking value =>
    if q.receiverClosed then some (q, .idle, some (closedReturn blocking value))
    else some (q, .loadTail blocking value, none)
  | .loadTail blocking value => some (q, .loadHead blocking value q.tail, none)
  | .loadHead blocking value tail =>
    if tail - q.head = q.capacity then
      -- `send` keeps the value and tries again; only `try_send` reports `Full`
      if blocking then some (q, .loadSenderClosed true value, none)
      else some (q, .idle, some (.trySend (.error (.full value))))
    else some (q, .writeSlot blocking value tail, none)
  | .writeSlot blocking value tail =>
    some ({ q with slots := q.slots.set (q.index tail) (some value) },
      .storeTail blocking value tail, none)
  | .storeTail blocking _ tail =>
    some ({ q with tail := tail + 1#w }, .idle,
      some (if blocking then .send (.ok ()) else .trySend (.ok ())))
  | .storeSenderClosed dropping =>
    some ({ q with senderClosed := true }, if dropping then .dropped else .idle, some .closed)
  | .dropped => none

/-- One step of `try_recv`, `recv`, `close` or `Drop`. Reading an empty slot is stuck here. -/
def recvStep (q : Inner w T) : RecvPc w T → Option (Inner w T × RecvPc w T × Option (RecvReturn T))
  | .idle => none
  | .loadHead blocking => some (q, .loadTail blocking q.head, none)
  | .loadTail blocking head =>
    if head = q.tail then some (q, .loadSenderClosed blocking head, none)
    else some (q, .readSlot blocking head, none)
  | .loadSenderClosed blocking _ =>
    if q.senderClosed then
      some (q, .idle, some (if blocking then .recv none else .tryRecv (.error .closed)))
    -- `recv` tries again; only `try_recv` reports `Empty`
    else if blocking then some (q, .loadHead true, none)
    else some (q, .idle, some (.tryRecv (.error .empty)))
  | .readSlot blocking head =>
    match q.slots[q.index head]? with
    | some (some value) =>
      some ({ q with slots := q.slots.set (q.index head) none },
        .storeHead blocking head value, none)
    | _ => none
  | .storeHead blocking head value =>
    some ({ q with head := head + 1#w }, .idle,
      some (if blocking then .recv (some value) else .tryRecv (.ok value)))
  | .storeReceiverClosed dropping =>
    some ({ q with receiverClosed := true }, if dropping then .dropped else .idle, some .closed)
  | .dropped => none

/-- The value written to its slot but not published yet. -/
def SendPc.holding : SendPc w T → List T
  | .storeTail _ value _ => [value]
  | _ => []

/-- The value moved out of its slot but not released yet. -/
def RecvPc.holding : RecvPc w T → List T
  | .storeHead _ _ value => [value]
  | _ => []

/-- The shared queue with one caller on each half. `sent` and `received` are histories: the
values whose publication was stored, and the values whose slot was released. -/
structure State (w : Nat) (T : Type*) where
  inner : Inner w T
  sender : SendPc w T
  receiver : RecvPc w T
  sent : List T
  received : List T

inductive Label (T : Type*) where
  | sendCall (call : SendCall T)
  | sendStep (result : Option (SendReturn T))
  | recvCall (call : RecvCall)
  | recvStep (result : Option (RecvReturn T))

inductive Step : State w T → Label T → State w T → Prop where
  | sendCall {s : State w T} (call : SendCall T) (hpc : s.sender = .idle) :
      Step s (.sendCall call) { s with sender := call.entry }
  | sendStep {s : State w T} {q : Inner w T} {pc : SendPc w T} {r : Option (SendReturn T)}
      (hs : Spsc.sendStep s.inner s.sender = some (q, pc, r)) :
      Step s (.sendStep r)
        { s with inner := q, sender := pc, sent := s.sent ++ s.sender.holding }
  | recvCall {s : State w T} (call : RecvCall) (hpc : s.receiver = .idle) :
      Step s (.recvCall call) { s with receiver := call.entry }
  | recvStep {s : State w T} {q : Inner w T} {pc : RecvPc w T} {r : Option (RecvReturn T)}
      (hs : Spsc.recvStep s.inner s.receiver = some (q, pc, r)) :
      Step s (.recvStep r)
        { s with inner := q, receiver := pc, received := s.received ++ s.receiver.holding }

/-- `bounded_spsc(capacity)` on a machine of `w`-bit words, in any interleaving. -/
def spscLts (w : Nat) (T : Type*) (capacity : Nat) : Lts.System (State w T) (Label T) where
  Initial s := ∃ q, Inner.new w T capacity = some q ∧ s = ⟨q, .idle, .idle, [], []⟩
  Tr := Step

/-- The scheduler's choices; each names at most one step. -/
inductive Move (T : Type*) where
  | sendCall (call : SendCall T)
  | send
  | recvCall (call : RecvCall)
  | recv

def next (s : State w T) : Move T → Option (State w T)
  | .sendCall call =>
    match s.sender with
    | .idle => some { s with sender := call.entry }
    | _ => none
  | .send => (sendStep s.inner s.sender).map fun (q, pc, _) =>
    { s with inner := q, sender := pc, sent := s.sent ++ s.sender.holding }
  | .recvCall call =>
    match s.receiver with
    | .idle => some { s with receiver := call.entry }
    | _ => none
  | .recv => (recvStep s.inner s.receiver).map fun (q, pc, _) =>
    { s with inner := q, receiver := pc, received := s.received ++ s.receiver.holding }

theorem next_step {s t : State w T} {m : Move T} (h : next s m = some t) : ∃ l, Step s l t := by
  cases m with
  | sendCall call =>
    simp only [next] at h
    split at h <;> simp only [Option.some.injEq, reduceCtorEq] at h
    subst h
    exact ⟨_, .sendCall call ‹_›⟩
  | recvCall call =>
    simp only [next] at h
    split at h <;> simp only [Option.some.injEq, reduceCtorEq] at h
    subst h
    exact ⟨_, .recvCall call ‹_›⟩
  | send =>
    simp only [next, Option.map_eq_some_iff] at h
    obtain ⟨⟨q, pc, r⟩, hs, rfl⟩ := h
    exact ⟨_, .sendStep hs⟩
  | recv =>
    simp only [next, Option.map_eq_some_iff] at h
    obtain ⟨⟨q, pc, r⟩, hs, rfl⟩ := h
    exact ⟨_, .recvStep hs⟩

abbrev Reachable (w : Nat) (T : Type*) (capacity : Nat) (s : State w T) : Prop :=
  Lts.Reachable (spscLts w T capacity) s

theorem schedule_reachable {capacity : Nat} {s t : State w T} {m : List (Move T)}
    (hs : Reachable w T capacity s) (h : Lts.schedule next s m = some t) :
    Reachable w T capacity t :=
  Lts.schedule_reachable (fun _ _ _ h => next_step h) hs h

end Zrt.Spsc
