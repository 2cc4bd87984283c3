import Mathlib.Algebra.Group.Nat.Defs
import Zrt.Chain
import Zrt.Lts

/-! The recovery slots of `runtime.rs`, one atomic access or exclusive cell access a step. -/
namespace Zrt.Recovery

/-- `RecoveryCell<T>`. -/
structure RecoveryCell (T : Type*) where
  value : Option T
  occupied : Bool
  deriving DecidableEq

def RecoveryCell.empty {T : Type*} : RecoveryCell T := ⟨none, false⟩

/-- `RecoverySlots`, over any recovered value. -/
structure RecoverySlots (T : Type*) where
  slots : List (RecoveryCell T)
  readyHead : Nat
  readyNext : List Nat
  deriving DecidableEq

/-- `usize::MAX` on a machine of `w`-bit words, the end of the ready list. -/
def usizeMax (w : Nat) : Nat := 2 ^ w - 1

/-- `RecoverySlots::new`; a `Vec` holds no more than `isize::MAX` bytes, and panics beyond. -/
def RecoverySlots.new (w : Nat) (T : Type*) (capacity : Nat) : Option (RecoverySlots T) :=
  if capacity < 2 ^ (w - 1) then
    some {
      slots := List.replicate capacity .empty
      readyHead := usizeMax w
      readyNext := List.replicate capacity (usizeMax w) }
  else none

/-- Where a call of `recover` stands: in `publish`, or linking its slot into the ready list. -/
inductive ProducerPc (T : Type*) where
  | idle
  | publish (recovered : T)
  | write (recovered : T)
  | loadHead
  | link (head : Nat)
  | cas (head : Nat)
  deriving DecidableEq

/-- Where the consumer stands: in `pop_ready`, or in `take` of the slot it popped. -/
inductive ConsumerPc (T : Type*) where
  | idle
  | loadHead
  | loadNext (head : Nat)
  | cas (head next : Nat)
  | takeValue (slot : Nat)
  | storeOccupied (slot : Nat) (value : Option T)
  deriving DecidableEq

/-- What a call ends with. `outOfRange` and `occupied` are the two branches of `recover` that leak
the value, and `taken` is what `take` returned for the popped slot. -/
inductive Return (T : Type*) where
  | recovered (slot : Nat)
  | outOfRange (slot : Nat)
  | occupied (slot : Nat)
  | popNone
  | taken (slot : Nat) (value : Option T)
  deriving DecidableEq

/-- The slots with one caller of `recover` for each, and the consumer. The histories list, slot by
slot, the values `recover` was called with, those it has published, and those `take` returned. -/
structure State (T : Type*) extends RecoverySlots T where
  producer : Nat → ProducerPc T
  consumer : ConsumerPc T
  called : Nat → List T
  published : Nat → List T
  delivered : Nat → List T

variable {T : Type*} (w : Nat)

def State.gotoProducer (s : State T) (slot : Nat) (pc : ProducerPc T) : State T :=
  { s with producer := Function.update s.producer slot pc }

/-- One step of `recover(slot, _)`; `weakFail` makes an exchange fail for no reason. -/
def recoverStep (s : State T) (slot : Nat) (weakFail : Bool) :
    Option (State T × Option (Return T)) :=
  match s.producer slot with
  | .idle => none
  | .publish recovered =>
    match s.slots[slot]? with
    | none => some (s.gotoProducer slot .idle, some (.outOfRange slot))
    | some entry =>
      if entry.occupied then some (s.gotoProducer slot .idle, some (.occupied slot))
      else some ({ s.gotoProducer slot (.write recovered) with
        slots := s.slots.set slot { entry with occupied := true } }, none)
  | .write recovered =>
    some ({ s.gotoProducer slot .loadHead with
      slots := s.slots.modify slot fun entry => { entry with value := some recovered } }, none)
  | .loadHead => some (s.gotoProducer slot (.link s.readyHead), none)
  | .link head =>
    some ({ s.gotoProducer slot (.cas head) with readyNext := s.readyNext.set slot head }, none)
  | .cas head =>
    if s.readyHead = head ∧ weakFail = false then
      some ({ s.gotoProducer slot .idle with
        readyHead := slot
        published := Function.update s.published slot
          (s.published slot ++ ((s.slots[slot]?).bind RecoveryCell.value).toList) },
        some (.recovered slot))
    else some (s.gotoProducer slot (.link s.readyHead), none)

/-- The head of the loop of `pop_ready`, with the value last read. -/
def popLoop (s : State T) (head : Nat) : State T × Option (Return T) :=
  if head = usizeMax w then ({ s with consumer := .idle }, some .popNone)
  else ({ s with consumer := .loadNext head }, none)

/-- One step of `pop_ready` and the `take` that follows it. An index out of range is stuck. -/
def consumerStep (s : State T) (weakFail : Bool) : Option (State T × Option (Return T)) :=
  match s.consumer with
  | .idle => none
  | .loadHead => some (popLoop w s s.readyHead)
  | .loadNext head =>
    (s.readyNext[head]?).map fun next => ({ s with consumer := .cas head next }, none)
  | .cas head next =>
    if s.readyHead = head ∧ weakFail = false then
      some ({ s with readyHead := next, consumer := .takeValue head }, none)
    else some (popLoop w s s.readyHead)
  | .takeValue slot =>
    (s.slots[slot]?).map fun entry =>
      ({ s with
        slots := s.slots.set slot { entry with value := none }
        consumer := .storeOccupied slot entry.value }, none)
  | .storeOccupied slot value =>
    some ({ s with
      slots := s.slots.modify slot fun entry => { entry with occupied := false }
      consumer := .idle
      delivered := Function.update s.delivered slot (s.delivered slot ++ value.toList) },
      some (.taken slot value))

inductive Action (T : Type*) where
  | recover (slot : Nat) (recovered : T)
  | producer (slot : Nat) (weakFail : Bool)
  | popReady
  | consumer (weakFail : Bool)

/-- A slot of the table is recovered again only once `take` has returned its previous value. -/
def step (s : State T) : Action T → Option (State T × Option (Return T))
  | .recover slot recovered =>
    if slot < s.slots.length ∧ (s.called slot).length = (s.delivered slot).length then
      some ({ s.gotoProducer slot (.publish recovered) with
        called := Function.update s.called slot (s.called slot ++ [recovered]) }, none)
    else none
  | .producer slot weakFail => recoverStep s slot weakFail
  | .popReady =>
    match s.consumer with
    | .idle => some ({ s with consumer := .loadHead }, none)
    | _ => none
  | .consumer weakFail => consumerStep w s weakFail

/-- Any number of recovering threads and the one consumer, in any interleaving. -/
def recoveryLts (w : Nat) (T : Type*) (capacity : Nat) :
    Lts.System (State T) (Action T × Option (Return T)) where
  Initial s := ∃ r, RecoverySlots.new w T capacity = some r ∧
    s = ⟨r, fun _ => .idle, .idle, fun _ => [], fun _ => [], fun _ => []⟩
  Tr s a t := step w s a.1 = some (t, a.2)

abbrev Reachable (w : Nat) (T : Type*) (capacity : Nat) (s : State T) : Prop :=
  Lts.Reachable (recoveryLts w T capacity) s

end Zrt.Recovery
