import Mathlib.Data.Finset.Card
import Zrt.FlagWord
import Zrt.Lts

/-! The captured-graph lease of `session.rs`, one atomic access, lock, wait or notify a step. -/
namespace Zrt.Lease

open FlagWord

/-- The two loops that start with a load of the lease state. -/
inductive Loop where
  | beginRun
  | beginRelease
  deriving DecidableEq

/-- The three `while` loops around `wait_cv.wait`: the one both loops enter while a release is in
progress, and the drain of `begin_release`. -/
inductive Wait where
  | releasing (l : Loop)
  | drain
  deriving DecidableEq

/-- Where a thread stands. From `released` on it owes an `end_release`, as in
`release_captured_graph`; a `drop` names the guard it drops. -/
inductive Pc (b : Nat) where
  | idle
  | load (l : Loop)
  | cas (l : Loop) (current : BitVec (b + 1))
  | lock (w : Wait)
  | check (w : Wait)
  | wait (w : Wait)
  | parked (w : Wait)
  | woken (w : Wait)
  | unlock (w : Wait)
  | released
  | endLock
  | endAssert
  | endStore
  | endNotify
  | endUnlock
  | dropLoad (guard : Nat)
  | dropCas (guard : Nat) (previous : BitVec (b + 1))
  | dropLock
  | dropNotify
  | dropUnlock
  deriving DecidableEq

/-- `CapturedGraphLeaseState` with a `usize` of `b + 1` bits, and its threads. Guards are numbered
in the order they are returned: `live` are those counted in the word, and `held` those of them
that no `drop` has been called on. -/
structure State (b : Nat) (ι : Type*) where
  word : BitVec (b + 1)
  lock : Option ι
  pc : ι → Pc b
  guards : Nat
  live : Finset Nat
  held : Finset Nat

variable {b : Nat} {ι : Type*}

/-- The condition a waiting loop tests. -/
def Blocked (word : BitVec (b + 1)) : Wait → Prop
  | .releasing _ => word &&& flag b ≠ 0
  | .drain => word &&& mask b ≠ 0

instance (word : BitVec (b + 1)) (w : Wait) : Decidable (Blocked word w) := by
  cases w <;> unfold Blocked <;> infer_instance

/-- Where a thread goes on once it has given `wait_lock` back after the loop. -/
def Wait.resume : Wait → Pc b
  | .releasing l => .load l
  | .drain => .released

/-- The head of the loop in `drop`, with the value last read. -/
def dropLoop (guard : Nat) (previous : BitVec (b + 1)) : Pc b :=
  if previous &&& mask b = 0 then .idle else .dropCas guard previous

/-- `notify_all` moves every parked thread to the reacquisition of `wait_lock`. -/
def Pc.notified : Pc b → Pc b
  | .parked w => .woken w
  | pc => pc

/-- The threads' next actions. `weakFail` is a spurious failure of `compare_exchange_weak`, and
`wake` a spurious wakeup. -/
inductive Action where
  | beginRun
  | beginRelease
  | endRelease
  | drop (guard : Nat)
  | step
  | weakFail
  | wake
  deriving DecidableEq

variable [DecidableEq ι]

def State.goto (s : State b ι) (i : ι) (pc : Pc b) : State b ι :=
  { s with pc := Function.update s.pc i pc }

def State.acquire (s : State b ι) (i : ι) (pc : Pc b) : Option (State b ι) :=
  if s.lock = none then some { s.goto i pc with lock := some i } else none

def State.release (s : State b ι) (i : ι) (pc : Pc b) : State b ι :=
  { s.goto i pc with lock := none }

def State.notifyAll (s : State b ι) (i : ι) (pc : Pc b) : State b ι :=
  { s with pc := Function.update (fun j => (s.pc j).notified) i pc }

/-- The next atomic step of a thread inside a call; `none` while it has to wait. -/
def State.advance (s : State b ι) (i : ι) : Option (State b ι) :=
  match s.pc i with
  | .idle => none
  | .load l =>
    if s.word &&& flag b ≠ 0 then some (s.goto i (.lock (.releasing l)))
    else match l with
      -- past the assertion, or out of `begin_run` by its panic
      | .beginRun => some (s.goto i (if s.word < mask b then .cas .beginRun s.word else .idle))
      | .beginRelease => some (s.goto i (.cas .beginRelease s.word))
  | .cas .beginRun current =>
    if s.word = current then
      some { s.goto i .idle with
        word := current + 1
        guards := s.guards + 1
        live := insert s.guards s.live
        held := insert s.guards s.held }
    else some (s.goto i (.load .beginRun))
  | .cas .beginRelease current =>
    if s.word = current then
      some { s.goto i (.lock .drain) with word := current ||| flag b }
    else some (s.goto i (.load .beginRelease))
  | .lock w => s.acquire i (.check w)
  | .check w => some (s.goto i (if Blocked s.word w then .wait w else .unlock w))
  | .wait w => some (s.release i (.parked w))
  | .parked _ => none
  | .woken w => s.acquire i (.check w)
  | .unlock w => some (s.release i w.resume)
  | .released => none
  | .endLock => s.acquire i .endAssert
  | .endAssert =>
    -- a failed `debug_assert_eq` unwinds with the lock guard, before the store
    some (if s.word &&& mask b = 0 then s.goto i .endStore else s.release i .idle)
  | .endStore => some { s.goto i .endNotify with word := 0 }
  | .endNotify => some (s.notifyAll i .endUnlock)
  | .endUnlock => some (s.release i .idle)
  | .dropLoad g => some (s.goto i (dropLoop g s.word))
  | .dropCas g previous =>
    if s.word = previous then
      some { s.goto i (if previous &&& flag b ≠ 0 ∧ previous &&& mask b = 1
          then .dropLock else .idle) with
        word := previous - 1
        live := s.live.erase g }
    else some (s.goto i (dropLoop g s.word))
  | .dropLock => s.acquire i .dropNotify
  | .dropNotify => some (s.notifyAll i .dropUnlock)
  | .dropUnlock => some (s.release i .idle)

def step (s : State b ι) (i : ι) : Action → Option (State b ι)
  | .beginRun => if s.pc i = .idle then some (s.goto i (.load .beginRun)) else none
  | .beginRelease => if s.pc i = .idle then some (s.goto i (.load .beginRelease)) else none
  | .endRelease => if s.pc i = .released then some (s.goto i .endLock) else none
  | .drop g =>
    if s.pc i = .idle ∧ g ∈ s.held then
      some { s.goto i (.dropLoad g) with held := s.held.erase g }
    else none
  | .step => s.advance i
  | .weakFail =>
    match s.pc i with
    | .cas l _ => some (s.goto i (.load l))
    | .dropCas g _ => some (s.goto i (dropLoop g s.word))
    | _ => none
  | .wake =>
    match s.pc i with
    | .parked w => some (s.goto i (.woken w))
    | _ => none

/-- `CapturedGraphLease::new`, before any call. -/
def State.new : State b ι where
  word := 0
  lock := none
  pc _ := .idle
  guards := 0
  live := ∅
  held := ∅

/-- One lease under the threads `ι`, in any interleaving. -/
def leaseLts (b : Nat) (ι : Type*) [DecidableEq ι] : Lts.System (State b ι) (ι × Action) where
  Initial s := s = .new
  Tr s a t := step s a.1 a.2 = some t

abbrev Reachable (s : State b ι) : Prop := Lts.Reachable (leaseLts b ι) s

theorem schedule_reachable {s t : State b ι} {as : List (ι × Action)} (hs : Reachable s)
    (h : Lts.schedule (fun s a => step s a.1 a.2) s as = some t) : Reachable t :=
  Lts.schedule_reachable (fun _ a _ h => ⟨a, h⟩) hs h

end Zrt.Lease
