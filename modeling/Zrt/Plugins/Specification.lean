import Zrt.Error
import Zrt.Lts
import Zrt.Ownership
import Zrt.Session.Outputs

/-! The callbacks through which the engine runs operators, providers and threads of Rust code. -/
namespace Zrt.Plugins

open Ownership
open Outputs (ElementType)

/-- How the code of a user ends, as `catch_unwind` tells it. -/
inductive Ran (α : Type) where
  | returned (a : α)
  | panicked

def Ran.panics {α : Type} : Ran α → Bool
  | .returned _ => false
  | .panicked => true

def Ran.map {α β : Type} (f : α → β) : Ran α → Ran β
  | .returned a => .returned (f a)
  | .panicked => .panicked

/-- The boxed objects that the engine gets pointers to (a closure for as long as `parallel_for`
runs), and the texts of names. -/
inductive Kind where
  | kernel | ep | factory | thread | closure | name
deriving DecidableEq

/-- The threads that the engine calls on have numbers of type `ι`; `lastName` is thread-local. -/
structure State (ι : Type) where
  books : Books
  kind : Nat → Kind
  text : Nat → String
  lastName : ι → Option Nat
  aborted : Bool

/-- A pointer to a static text, or to one that the thread keeps. -/
inductive Name where
  | fixed (text : String)
  | stored (buffer : Nat)
deriving DecidableEq

/-- What a callback leaves for the engine. A status is null, or `ORT_FAIL` with a message. -/
structure Answer where
  status : Option String
  out : Option Nat
  name : Option Name
  number : Option Int

inductive Characteristic where
  | required | optional | variadic

def Characteristic.code : Characteristic → Int
  | .required => 0
  | .optional => 1
  | .variadic => 2

inductive MemType where
  | cpuInput | cpuOutput | default

def MemType.code : MemType → Int
  | .cpuInput => -2
  | .cpuOutput => -1
  | .default => 0

/-- The constructors stand in the order of their numbers. -/
def elementCode (e : ElementType) : Int := e.ctorIdx

structure OpIoSpec where
  elementType : ElementType
  characteristic : Characteristic
  memoryType : MemType

/-- `error_to_status`; the two of the source differ in the text for a message with a NUL. -/
def errorToStatus (fallback : String) (e : Error) : String :=
  if e.display.toList.contains '\x00' then fallback else e.display

def customOpFallback : String := "st-zrt custom-op error (NUL in message)"

def epFallback : String := "st-zrt ep error (NUL in message)"

/-- The end of the callbacks that return a status. -/
def status (fallback panic : String) : Ran (Except Error Unit) → Option String
  | .returned (.ok ()) => none
  | .returned (.error e) => some (errorToStatus fallback e)
  | .panicked => some (errorToStatus fallback ⟨1, panic⟩)

section Callbacks

variable {ι : Type} (s : State ι)

/-- `Box::into_raw`. -/
def State.make (k : Kind) : State ι :=
  { s with
    books := s.books.make
    kind := fun x => if x = s.books.count then k else s.kind x }

/-- A panic of the drop ends the process, but for the join of a thread; the closure of
`parallel_for` is dropped under the `catch_unwind` of the kernel that called it. -/
def Kind.fatal : Kind → Bool
  | .kernel | .ep | .factory => true
  | .thread | .closure | .name => false

/-- `Box::from_raw` and the end of the object. -/
def State.reclaim (k : Kind) (x : Nat) (dropped : Ran Unit) : State ι :=
  { s with books := s.books.drop x, aborted := dropped.panics && k.fatal }

/-- A name with a NUL is given as the empty one. -/
def nameText (name : String) : String := if name.toList.contains '\x00' then "" else name

/-- The new text is the thread's last name, and the one before is freed. -/
def State.storeName [DecidableEq ι] (i : ι) (name : String) : State ι :=
  { s.make .name with
    books := match s.lastName i with
      | none => s.books.make
      | some old => s.books.make.drop old
    text := fun x => if x = s.books.count then nameText name else s.text x
    lastName := fun j => if j = i then some s.books.count else s.lastName j }

def State.create (k : Kind) (fallback panic : String) (made : Ran (Except Error Unit)) :
    State ι × Answer :=
  match status fallback panic made with
  | none => (s.make k, ⟨none, some s.books.count, none, none⟩)
  | some message => (s, ⟨some message, none, none, none⟩)

/-- A null pointer is ignored. -/
def State.destroyed (k : Kind) (x : Option Nat) (dropped : Ran Unit) : State ι × Answer :=
  match x with
  | none => (s, ⟨none, none, none, none⟩)
  | some x => (s.reclaim k x dropped, ⟨none, none, none, none⟩)

def State.named [DecidableEq ι] (i : ι) (panic : String) (name : Ran String) : State ι × Answer :=
  match name with
  | .returned name => (s.storeName i name, ⟨none, none, some (.stored s.books.count), none⟩)
  | .panicked => (s, ⟨none, none, some (.fixed panic), none⟩)

/-- A callback without `catch_unwind`: a panic in it ends the process at the `extern "C"`
boundary. -/
def State.uncaught (run : Ran (Option Int)) : State ι × Answer :=
  match run with
  | .returned number => (s, ⟨none, none, none, number⟩)
  | .panicked => ({ s with aborted := true }, ⟨none, none, none, none⟩)

def createKernel (made : Ran (Except Error Unit)) : State ι × Answer :=
  s.create .kernel customOpFallback "st-zrt custom-op create panicked" made

def compute (kernel : Option Nat) (run : Ran (Except Error Unit)) : State ι × Answer :=
  match kernel with
  | none => (s, ⟨none, none, none, none⟩)
  | some _ =>
    (s, ⟨status customOpFallback "st-zrt custom-op compute panicked" run, none, none, none⟩)

def destroy (kernel : Option Nat) (dropped : Ran Unit) : State ι × Answer :=
  s.destroyed .kernel kernel dropped

def inferOutputShape (run : Ran (Except Error Unit)) : State ι × Answer :=
  (s, ⟨status customOpFallback "st-zrt custom-op infer_shapes panicked" run, none, none, none⟩)

def getCapability (run : Ran (Except Error Unit)) : State ι × Answer :=
  (s, ⟨status epFallback "st-zrt ep get_capability panicked" run, none, none, none⟩)

def createEp (made : Ran (Except Error Unit)) : State ι × Answer :=
  s.create .ep epFallback "st-zrt create_ep panicked" made

def releaseEp (ep : Option Nat) (dropped : Ran Unit) : State ι × Answer :=
  s.destroyed .ep ep dropped

/-- `out` is the one pointer that is reported, if any. A factory without room in the array is
dropped again; a panic of this drop is caught, and none is reported either way. -/
def createEpFactories (maxFactories : Nat) (made : Ran Unit) : State ι × Answer :=
  match made with
  | .panicked => (s, ⟨none, none, none, none⟩)
  | .returned () =>
    if maxFactories = 0 then
      ({ s.make .factory with books := s.books.make.drop s.books.count }, ⟨none, none, none, none⟩)
    else (s.make .factory, ⟨none, some s.books.count, none, none⟩)

def releaseEpFactory (factory : Option Nat) (dropped : Ran Unit) : State ι × Answer :=
  s.destroyed .factory factory dropped

/-- The handle is null when the manager fails or panics. -/
def threadCreate (made : Ran (Except Error Unit)) : State ι × Answer :=
  match made with
  | .returned (.ok ()) => (s.make .thread, ⟨none, some s.books.count, none, none⟩)
  | .returned (.error _) | .panicked => (s, ⟨none, none, none, none⟩)

/-- What `join` returns is ignored. -/
def threadJoin (handle : Option Nat) (joined : Ran Unit) : State ι × Answer :=
  s.destroyed .thread handle joined

/-- `parallel_for` boxes its closure and passes it to the engine. -/
def parallelFor : State ι × Answer := (s.make .closure, ⟨none, some s.books.count, none, none⟩)

def parallelForTrampoline (data : Option Nat) (iteration : Ran Unit) : State ι × Answer :=
  match data with
  | none => (s, ⟨none, none, none, none⟩)
  | some _ => s.uncaught (iteration.map fun _ => none)

/-- The end of `parallel_for`: the engine has finished all calls of the closure. -/
def parallelForReturned (data : Nat) (dropped : Ran Unit) : State ι × Answer :=
  s.destroyed .closure (some data) dropped

variable [DecidableEq ι] (i : ι)

def getName (name : Ran String) : State ι × Answer := s.named i "st-zrt ep name panicked" name

def getFactoryName (name : Ran String) : State ι × Answer :=
  s.named i "st-zrt factory name panicked" name

def getVendor (name : Ran String) : State ι × Answer :=
  s.named i "st-zrt factory vendor panicked" name

def getVersion : State ι × Answer :=
  (s.storeName i "0.0.0", ⟨none, none, some (.stored s.books.count), none⟩)

end Callbacks

section Schema

variable (specs : Ran (List OpIoSpec)) (index : Nat)

def getInputTypeCount : Ran Int := specs.map fun specs => specs.length

def getOutputTypeCount : Ran Int := specs.map fun specs => specs.length

/-- A code of the specification at the index, or the one of a default. -/
def codeAt (code : OpIoSpec → Int) (missing : Int) : Ran Int :=
  specs.map fun specs => (specs[index]?).elim missing code

def getInputType : Ran Int :=
  codeAt specs index (fun s => elementCode s.elementType) (elementCode .undefined)

def getOutputType : Ran Int :=
  codeAt specs index (fun s => elementCode s.elementType) (elementCode .undefined)

def getInputCharacteristic : Ran Int :=
  codeAt specs index (fun s => s.characteristic.code) Characteristic.required.code

def getOutputCharacteristic : Ran Int :=
  codeAt specs index (fun s => s.characteristic.code) Characteristic.required.code

def getInputMemoryType : Ran Int :=
  codeAt specs index (fun s => s.memoryType.code) MemType.default.code

def getVariadicInputMinArity (arity : Ran Int) : Ran Int := arity

def getVariadicOutputMinArity (arity : Ran Int) : Ran Int := arity

def getVariadicInputHomogeneity (homogeneous : Ran Bool) : Ran Int :=
  homogeneous.map fun h => if h then 1 else 0

def getVariadicOutputHomogeneity (homogeneous : Ran Bool) : Ran Int :=
  homogeneous.map fun h => if h then 1 else 0

end Schema

/-- A question about an operator, with what its code answers: `inputs`, `outputs` and the like. -/
inductive Query where
  | getInputTypeCount (inputs : Ran (List OpIoSpec))
  | getInputType (inputs : Ran (List OpIoSpec)) (index : Nat)
  | getOutputTypeCount (outputs : Ran (List OpIoSpec))
  | getOutputType (outputs : Ran (List OpIoSpec)) (index : Nat)
  | getInputCharacteristic (inputs : Ran (List OpIoSpec)) (index : Nat)
  | getOutputCharacteristic (outputs : Ran (List OpIoSpec)) (index : Nat)
  | getInputMemoryType (inputs : Ran (List OpIoSpec)) (index : Nat)
  | getVariadicInputMinArity (arity : Ran Int)
  | getVariadicInputHomogeneity (homogeneous : Ran Bool)
  | getVariadicOutputMinArity (arity : Ran Int)
  | getVariadicOutputHomogeneity (homogeneous : Ran Bool)

def Query.run : Query → Ran Int
  | .getInputTypeCount inputs => Plugins.getInputTypeCount inputs
  | .getInputType inputs index => Plugins.getInputType inputs index
  | .getOutputTypeCount outputs => Plugins.getOutputTypeCount outputs
  | .getOutputType outputs index => Plugins.getOutputType outputs index
  | .getInputCharacteristic inputs index => Plugins.getInputCharacteristic inputs index
  | .getOutputCharacteristic outputs index => Plugins.getOutputCharacteristic outputs index
  | .getInputMemoryType inputs index => Plugins.getInputMemoryType inputs index
  | .getVariadicInputMinArity arity => Plugins.getVariadicInputMinArity arity
  | .getVariadicInputHomogeneity homogeneous => Plugins.getVariadicInputHomogeneity homogeneous
  | .getVariadicOutputMinArity arity => Plugins.getVariadicOutputMinArity arity
  | .getVariadicOutputHomogeneity homogeneous => Plugins.getVariadicOutputHomogeneity homogeneous

/-- A call of the engine with what the code of the user does in it, or the begin or end of a call of
`parallel_for` by a kernel. -/
inductive Call where
  | createKernel (made : Ran (Except Error Unit))
  | compute (kernel : Option Nat) (run : Ran (Except Error Unit))
  | destroy (kernel : Option Nat) (dropped : Ran Unit)
  | inferOutputShape (run : Ran (Except Error Unit))
  | getCapability (run : Ran (Except Error Unit))
  | createEp (made : Ran (Except Error Unit))
  | releaseEp (ep : Option Nat) (dropped : Ran Unit)
  | createEpFactories (maxFactories : Nat) (made : Ran Unit)
  | releaseEpFactory (factory : Option Nat) (dropped : Ran Unit)
  | threadCreate (made : Ran (Except Error Unit))
  | threadJoin (handle : Option Nat) (joined : Ran Unit)
  | query (q : Query)
  | parallelFor
  | parallelForTrampoline (data : Option Nat) (iteration : Ran Unit)
  | parallelForReturned (data : Nat) (dropped : Ran Unit)
  | getName (name : Ran String)
  | getFactoryName (name : Ran String)
  | getVendor (name : Ran String)
  | getVersion

section System

variable {ι : Type} (s : State ι)

def State.exec [DecidableEq ι] (i : ι) : Call → State ι × Answer
  | .createKernel made => Plugins.createKernel s made
  | .compute kernel run => Plugins.compute s kernel run
  | .destroy kernel dropped => Plugins.destroy s kernel dropped
  | .inferOutputShape run => Plugins.inferOutputShape s run
  | .getCapability run => Plugins.getCapability s run
  | .createEp made => Plugins.createEp s made
  | .releaseEp ep dropped => Plugins.releaseEp s ep dropped
  | .createEpFactories maxFactories made => Plugins.createEpFactories s maxFactories made
  | .releaseEpFactory factory dropped => Plugins.releaseEpFactory s factory dropped
  | .threadCreate made => Plugins.threadCreate s made
  | .threadJoin handle joined => Plugins.threadJoin s handle joined
  | .query q => s.uncaught (q.run.map some)
  | .parallelFor => Plugins.parallelFor s
  | .parallelForTrampoline data iteration => Plugins.parallelForTrampoline s data iteration
  | .parallelForReturned data dropped => Plugins.parallelForReturned s data dropped
  | .getName name => Plugins.getName s i name
  | .getFactoryName name => Plugins.getFactoryName s i name
  | .getVendor name => Plugins.getVendor s i name
  | .getVersion => Plugins.getVersion s i

/-- The object that a call takes back, with how its drop, or its join, ends. -/
def Call.reclaims : Call → Option (Kind × Nat × Ran Unit)
  | .destroy (some x) dropped => some (.kernel, x, dropped)
  | .releaseEp (some x) dropped => some (.ep, x, dropped)
  | .releaseEpFactory (some x) dropped => some (.factory, x, dropped)
  | .threadJoin (some x) joined => some (.thread, x, joined)
  | .parallelForReturned x dropped => some (.closure, x, dropped)
  | _ => none

/-- The object that a call makes use of. -/
def Call.uses : Call → Option (Kind × Nat)
  | .compute (some x) _ => some (.kernel, x)
  | .parallelForTrampoline (some x) _ => some (.closure, x)
  | _ => none

/-- The call drops a kernel, a provider or a factory that is given back, and the drop panics. -/
def Call.DropPanics (c : Call) : Prop :=
  ∃ k x, c.reclaims = some (k, x, .panicked) ∧ k.fatal = true

/-- The code behind the call panics, and nothing catches it. -/
def Call.Uncaught : Call → Prop
  | .query q => q.run.panics = true
  | .parallelForTrampoline (some _) iteration => iteration.panics = true
  | _ => False

/-- The name that the code of the user gives in a call. -/
def Call.name : Call → Option String
  | .getName (.returned name) | .getFactoryName (.returned name) | .getVendor (.returned name) =>
    some name
  | .getVersion => some "0.0.0"
  | _ => none

/-- The engine uses what it was given, until it gives it back. -/
def Call.Allowed (c : Call) : Prop :=
  (∀ k x, c.uses = some (k, x) → s.books.held x = true ∧ s.kind x = k) ∧
  ∀ k x dropped, c.reclaims = some (k, x, dropped) → s.books.held x = true ∧ s.kind x = k

def initial (ι : Type) : State ι := ⟨.empty, fun _ => .name, fun _ => "", fun _ => none, false⟩

/-- Threads call in any order, until the process is aborted. -/
def plugins (ι : Type) [DecidableEq ι] : Lts.System (State ι) (ι × Call × Answer) where
  Initial s := s = initial ι
  Tr s l t := s.aborted = false ∧ l.2.1.Allowed s ∧ s.exec l.1 l.2.1 = (t, l.2.2)

end System

end Zrt.Plugins
