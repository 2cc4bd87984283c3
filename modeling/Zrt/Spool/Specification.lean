import Mathlib.Algebra.Group.Nat.Defs
import Mathlib.Data.List.Basic
import Zrt.Lts

/-! `model_spool.rs` and the sessions built on it: any number of calls, in any number of processes,
spool models into shared directories, one file operation a step. -/
namespace Zrt.Spool

def spoolName (pid seq nanos : Nat) : String :=
  ".st-zrt-spooled-" ++ pid.repr ++ "-" ++ seq.repr ++ "-" ++ nanos.repr ++ ".onnx"

/-- The attempts at a free name. -/
def attempts : Nat := 32

/-- What a failed call says; `e` is the text of the failed operation. -/
inductive Failure where
  | write (e : String)
  | create (e : String)
  | noName
  deriving DecidableEq

def Failure.message (dir : String) : Failure → String
  | .write e => "zrt: spooling model bytes failed: " ++ e
  | .create e => "zrt: cannot create a temporary model file in " ++ dir ++
      " (external-data directories must be writable): " ++ e
  | .noName => "zrt: could not find a free spool file name"

/-- Where a call stands. It holds its file from `writing` on: `native` is a session, with the number
of its owners, and `closing` a guard whose session is released. -/
inductive Pc (Path : Type) where
  | idle
  | trying (left : Nat)
  | writing (path : Path) (rest : List UInt8)
  | failed (path : Path) (e : String)
  | guarded (path : Path)
  | native (path : Path) (owners : Nat)
  | closing (path : Path)
  | done (result : Except Failure Unit)
  | dead

namespace Pc

variable {Path : Type}

def held : Pc Path → Option Path
  | .writing path _ | .failed path _ | .guarded path | .native path _ | .closing path => some path
  | .idle | .trying _ | .done _ | .dead => none

/-- The bytes that are not written yet; a failed write may leave any behind. -/
def Wrote (bytes now : List UInt8) : Pc Path → Prop
  | .writing _ rest => now ++ rest = bytes
  | .failed _ _ => now <+: bytes
  | _ => now = bytes

def Ended : Pc Path → Prop
  | .idle | .done _ | .dead => True
  | _ => False

end Pc

/-- The calls: the process each is made in, the directory as the file system resolves it, and the
serialized model. -/
structure Calls (Call Process Dir : Type) where
  process : Call → Process
  pid : Process → Nat
  dir : Call → Dir
  bytes : Call → List UInt8

variable {Call Process Dir : Type}

/-- The files, the sequence counter of each process, and the calls with the number each took. -/
structure State (Call Process Dir : Type) where
  files : Dir × String → Option (List UInt8)
  counter : Process → Nat
  seq : Call → Nat
  pc : Call → Pc (Dir × String)

section
variable [DecidableEq Call] (s : State Call Process Dir) (c : Call) (pc : Pc (Dir × String))

def State.goto : State Call Process Dir := { s with pc := Function.update s.pc c pc }

@[simp] theorem State.goto_pc : (s.goto c pc).pc = Function.update s.pc c pc := rfl
@[simp] theorem State.goto_files : (s.goto c pc).files = s.files := rfl
@[simp] theorem State.goto_counter : (s.goto c pc).counter = s.counter := rfl
@[simp] theorem State.goto_seq : (s.goto c pc).seq = s.seq := rfl

end

section
variable [DecidableEq Dir] (s : State Call Process Dir) (p : Dir × String)
  (content : Option (List UInt8))

def State.put : State Call Process Dir := { s with files := Function.update s.files p content }

@[simp] theorem State.put_pc : (s.put p content).pc = s.pc := rfl
@[simp] theorem State.put_files : (s.put p content).files = Function.update s.files p content := rfl
@[simp] theorem State.put_counter : (s.put p content).counter = s.counter := rfl
@[simp] theorem State.put_seq : (s.put p content).seq = s.seq := rfl

/-- `remove_file`, whose failure is passed over. -/
def State.remove (removed : Bool) : State Call Process Dir := if removed then s.put p none else s

end

variable (W : Calls Call Process Dir)

/-- The name of an attempt; `fetch_add` wraps the counter. -/
def path (s : State Call Process Dir) (c : Call) (nanos : Nat) : Dir × String :=
  (W.dir c, spoolName (W.pid (W.process c)) (s.seq c % 2 ^ 64) nanos)

inductive Label (Call Dir : Type) where
  | start (c : Call)
  | attempt (c : Call) (nanos : Nat)
  | refuse (c : Call) (e : String)
  | exhaust (c : Call)
  | write (c : Call)
  | failWrite (c : Call) (e : String)
  | finish (c : Call)
  | giveUp (c : Call) (removed : Bool)
  | load (c : Call)
  | clone (c : Call)
  | drop (c : Call)
  | release (c : Call)
  | dropGuard (c : Call) (removed : Bool)
  | die (c : Call)
  | foreign (path : Dir × String) (content : Option (List UInt8))

variable [DecidableEq Call] [DecidableEq Process] [DecidableEq Dir]

/-- One step. `open` with `create_new` succeeds on a free name only, and says whether the name was
taken; others leave alone what a call holds. -/
inductive Step : State Call Process Dir → Label Call Dir → State Call Process Dir → Prop where
  | start {s : State Call Process Dir} {c : Call} (h : s.pc c = .idle) :
      Step s (.start c) { s.goto c (.trying attempts) with
        counter := Function.update s.counter (W.process c) (s.counter (W.process c) + 1)
        seq := Function.update s.seq c (s.counter (W.process c)) }
  | create {s : State Call Process Dir} {c : Call} {left nanos : Nat}
      (h : s.pc c = .trying (left + 1)) (hf : s.files (path W s c nanos) = none) :
      Step s (.attempt c nanos)
        ((s.put (path W s c nanos) (some [])).goto c (.writing (path W s c nanos) (W.bytes c)))
  | taken {s : State Call Process Dir} {c : Call} {left nanos : Nat}
      (h : s.pc c = .trying (left + 1)) (hf : s.files (path W s c nanos) ≠ none) :
      Step s (.attempt c nanos) (s.goto c (.trying left))
  | refuse {s : State Call Process Dir} {c : Call} {left : Nat} {e : String}
      (h : s.pc c = .trying (left + 1)) :
      Step s (.refuse c e) (s.goto c (.done (.error (.create e))))
  | exhaust {s : State Call Process Dir} {c : Call} (h : s.pc c = .trying 0) :
      Step s (.exhaust c) (s.goto c (.done (.error .noName)))
  | write {s : State Call Process Dir} {c : Call} {p : Dir × String} {part rest : List UInt8}
      (h : s.pc c = .writing p (part ++ rest)) (hpart : part ≠ []) :
      Step s (.write c) ((s.put p ((s.files p).map (· ++ part))).goto c (.writing p rest))
  | failWrite {s : State Call Process Dir} {c : Call} {p : Dir × String} {rest : List UInt8}
      {e : String} (h : s.pc c = .writing p rest) (hrest : rest ≠ []) :
      Step s (.failWrite c e) (s.goto c (.failed p e))
  | finish {s : State Call Process Dir} {c : Call} {p : Dir × String} (h : s.pc c = .writing p []) :
      Step s (.finish c) (s.goto c (.guarded p))
  | giveUp {s : State Call Process Dir} {c : Call} {p : Dir × String} {e : String} {removed : Bool}
      (h : s.pc c = .failed p e) :
      Step s (.giveUp c removed) ((s.remove p removed).goto c (.done (.error (.write e))))
  | load {s : State Call Process Dir} {c : Call} {p : Dir × String} (h : s.pc c = .guarded p) :
      Step s (.load c) (s.goto c (.native p 1))
  | clone {s : State Call Process Dir} {c : Call} {p : Dir × String} {owners : Nat}
      (h : s.pc c = .native p (owners + 1)) :
      Step s (.clone c) (s.goto c (.native p (owners + 2)))
  | drop {s : State Call Process Dir} {c : Call} {p : Dir × String} {owners : Nat}
      (h : s.pc c = .native p (owners + 2)) :
      Step s (.drop c) (s.goto c (.native p (owners + 1)))
  | release {s : State Call Process Dir} {c : Call} {p : Dir × String} (h : s.pc c = .native p 1) :
      Step s (.release c) (s.goto c (.closing p))
  | dropGuard {s : State Call Process Dir} {c : Call} {p : Dir × String} {removed : Bool}
      (h : s.pc c = .guarded p ∨ s.pc c = .closing p) :
      Step s (.dropGuard c removed) ((s.remove p removed).goto c (.done (.ok ())))
  | die {s : State Call Process Dir} {c : Call} (h : s.pc c ≠ .idle) :
      Step s (.die c) (s.goto c .dead)
  | foreign {s : State Call Process Dir} {p : Dir × String} {content : Option (List UInt8)}
      (h : ∀ c, (s.pc c).held ≠ some p) : Step s (.foreign p content) (s.put p content)

/-- No call has begun; the directories hold whatever they hold. -/
def Initial (s : State Call Process Dir) : Prop :=
  (∀ c, s.pc c = .idle) ∧ ∀ p, s.counter p = 0

def system : Lts.System (State Call Process Dir) (Label Call Dir) where
  Initial := Initial
  Tr := Step W

end Zrt.Spool
