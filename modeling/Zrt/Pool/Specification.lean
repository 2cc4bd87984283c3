import Mathlib.Data.Multiset.Basic
import Zrt.Lane.Access

/-! `ServingLanePool` of `runtime.rs`: lanes checked out and in by any number of threads, one lock,
wait or notify a step. -/
namespace Zrt.Pool

open Lane (Features Native ServingLane)

/-- A lane, with its number among those the pool was built from; the number is history. -/
structure Member where
  number : Nat
  lane : ServingLane

/-- What the mutex guards, and the count taken at construction. -/
structure ServingLanePool where
  idle : List Member
  total : Nat

def fromLanes (lanes : List ServingLane) : Except Error ServingLanePool :=
  if lanes.isEmpty then .error (.local "zrt: ServingLanePool requires at least one lane")
  else .ok ⟨lanes.zipIdx.map fun p => ⟨p.2, p.1⟩, lanes.length⟩

inductive Call where
  | tryCheckout
  | checkout
  | idleCount
  deriving DecidableEq

/-- Where a thread stands. From `finish` on it drops a guard, whose lane it carries; `unlock` is the
end of a call, with the lane it hands out. -/
inductive Pc where
  | idle
  | lock (c : Call)
  | locked (c : Call)
  | wait
  | parked
  | woken
  | finish (m : Member)
  | lockReturn (m : Member)
  | push (m : Member)
  | notify
  | unlock (lane : Option Member)

/-- A pool, its threads, and its guards: those that are alive, and those that were forgotten. A
poisoned mutex is locked like any other. -/
structure State (ι : Type*) where
  pool : ServingLanePool
  lock : Option ι
  pc : ι → Pc
  held : List Member
  lost : List Member

variable {ι : Type*} [DecidableEq ι]

def State.goto (s : State ι) (i : ι) (pc : Pc) : State ι :=
  { s with pc := Function.update s.pc i pc }

section
variable (s : State ι) (i : ι) (pc : Pc)

@[simp] theorem State.goto_pc : (s.goto i pc).pc = Function.update s.pc i pc := rfl
@[simp] theorem State.goto_pool : (s.goto i pc).pool = s.pool := rfl
@[simp] theorem State.goto_lock : (s.goto i pc).lock = s.lock := rfl
@[simp] theorem State.goto_held : (s.goto i pc).held = s.held := rfl
@[simp] theorem State.goto_lost : (s.goto i pc).lost = s.lost := rfl

end

def State.acquire (s : State ι) (i : ι) (pc : Pc) : Option (State ι) :=
  if s.lock = none then some { s.goto i pc with lock := some i } else none

/-- `idle.pop()`: on to `found` with the last of the idle lanes, or on to `empty`. -/
def State.pop (s : State ι) (i : ι) (found : Member → Pc) (empty : Pc) : State ι :=
  match s.pool.idle.getLast? with
  | some m => { s.goto i (found m) with pool := { s.pool with idle := s.pool.idle.dropLast } }
  | none => s.goto i empty

/-- The next step of a thread inside a call, but for `notify_one`; `n` are the outcomes of the fence
of a dropped guard. -/
def State.advance (f : Features) (s : State ι) (i : ι) (n : Native) : Option (State ι) :=
  match s.pc i with
  | .idle => none
  | .lock c => s.acquire i (.locked c)
  | .locked .tryCheckout => some (s.pop i (fun m => .unlock (some m)) (.unlock none))
  | .locked .checkout => some (s.pop i (fun m => .unlock (some m)) .wait)
  | .locked .idleCount => some (s.goto i (.unlock none))
  | .wait => some { s.goto i .parked with lock := none }
  | .parked => none
  | .woken => s.acquire i (.locked .checkout)
  | .finish m =>
    some (s.goto i (.lockReturn { m with lane := Lane.finishInFlightBestEffort f m.lane n }))
  | .lockReturn m => s.acquire i (.push m)
  | .push m =>
    some { s.goto i .notify with pool := { s.pool with idle := s.pool.idle ++ [m] } }
  | .notify => none
  | .unlock lane => some { s.goto i .idle with lock := none, held := lane.toList ++ s.held }

/-- What the holder of a guard calls on its lane. Of an asynchronous run, whether its future is let
go before the run calls back: one that is awaited leaves the lane as it was. -/
inductive Use where
  | op (op : Lane.Op)
  | runUnsynchronized
  | runAsync (outcome : Except Error Unit) (letGo : Bool)

def Use.exec (f : Features) (l : ServingLane) (n : Native) : Use → ServingLane
  | .op o => o.exec f l n
  | .runUnsynchronized => (Lane.Access.runUnsynchronized l n).1
  | .runAsync outcome letGo =>
    if l.inFlight = false ∧ outcome.isOk ∧ letGo then { l with work := .queued } else l

/-- A guard is named by its position among those that are alive. `notify` names the thread that
`notify_one` wakes, if it wakes one, and `wake` is a spurious wakeup. -/
inductive Action (ι : Type*) where
  | call (c : Call)
  | use (k : Nat) (call : Use) (n : Native)
  | drop (k : Nat)
  | forget (k : Nat)
  | step (n : Native)
  | notify (j : Option ι)
  | wake

variable (f : Features)

/-- A guard lends its lane out by `&mut`, so that `enqueue`, which takes it, is none of its uses. -/
inductive Step : State ι → ι × Action ι → State ι → Prop where
  | call {s : State ι} {i : ι} (c : Call) (hpc : s.pc i = .idle) :
      Step s (i, .call c) (s.goto i (.lock c))
  | use {s : State ι} {i : ι} {k : Nat} {m : Member} (call : Use) (n : Native)
      (hpc : s.pc i = .idle) (hk : s.held[k]? = some m) (hcall : call ≠ .op .enqueue) :
      Step s (i, .use k call n)
        { s with held := s.held.set k { m with lane := call.exec f m.lane n } }
  | drop {s : State ι} {i : ι} {k : Nat} {m : Member} (hpc : s.pc i = .idle)
      (hk : s.held[k]? = some m) :
      Step s (i, .drop k) { s.goto i (.finish m) with held := s.held.eraseIdx k }
  | forget {s : State ι} {i : ι} {k : Nat} {m : Member} (hpc : s.pc i = .idle)
      (hk : s.held[k]? = some m) :
      Step s (i, .forget k) { s with held := s.held.eraseIdx k, lost := m :: s.lost }
  | step {s t : State ι} {i : ι} {n : Native} (h : s.advance f i n = some t) :
      Step s (i, .step n) t
  | notifyOne {s : State ι} {i j : ι} (hpc : s.pc i = .notify) (hj : s.pc j = .parked) :
      Step s (i, .notify (some j)) ((s.goto j .woken).goto i (.unlock none))
  | notifyNone {s : State ι} {i : ι} (hpc : s.pc i = .notify) (hj : ∀ j, s.pc j ≠ .parked) :
      Step s (i, .notify none) (s.goto i (.unlock none))
  | wake {s : State ι} {i : ι} (hpc : s.pc i = .parked) : Step s (i, .wake) (s.goto i .woken)

/-- One pool over lanes of any state, in any interleaving. -/
def poolLts (lanes : List ServingLane) (ι : Type*) [DecidableEq ι] :
    Lts.System (State ι) (ι × Action ι) where
  Initial s := ∃ pool, fromLanes lanes = .ok pool ∧ s = ⟨pool, none, fun _ => .idle, [], []⟩
  Tr := Step f

abbrev Reachable (lanes : List ServingLane) (s : State ι) : Prop :=
  Lts.Reachable (poolLts f lanes ι) s

end Zrt.Pool
