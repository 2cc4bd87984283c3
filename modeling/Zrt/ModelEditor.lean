import Zrt.Lts
import Zrt.Ownership

/-! The model editor of `model_editor.rs`: native handles that move between Rust values and ORT, and
the memory that ORT keeps pointers to. -/
namespace Zrt.Editor

open Ownership (Books)

/-- What a native handle is. The Rust value that holds one has its kind. -/
inductive Kind where
  | shapeInfo
  | typeInfo
  | valueInfo
  | nodeAttr
  | node
  | tensor
  | graph
  | model
  | sessionOptions
  | compilationOptions
  | session
  deriving DecidableEq

/-- The input of compilation options that ORT has no copy of. -/
inductive Input where
  | model (m : Nat)
  | bytes (buffer : Nat)
  deriving DecidableEq

/-- The handles, what kind they are, the caller's buffer behind a tensor, and the input of
compilation options; how many buffers the caller has made, and those that it freed. -/
structure State where
  books : Books
  kind : Nat → Kind
  backing : Nat → Option Nat
  input : Nat → Option Input
  buffers : Nat
  freed : Nat → Bool

/-- Calls of the API, with their outcome. A consuming call also says what else its graph or model
releases because it is replaced. -/
inductive Op where
  | shapeInfoNew (ok : Bool)
  | typeInfoTensor (info : Nat) (ok : Bool)
  | typeInfoSparseTensor (info : Nat) (ok : Bool)
  | typeInfoMap (valueType : Nat) (ok : Bool)
  | typeInfoSequence (element : Nat) (ok : Bool)
  | typeInfoOptional (contained : Nat) (ok : Bool)
  | valueInfoNew (type : Nat) (ok : Bool)
  | valueInfoRead (info : Nat)
  | nodeAttrNew (ok : Bool)
  | nodeWithAttributes (attributes : List Nat) (ok : Bool)
  | tensorFromBuffer (buffer : Nat) (ok : Bool)
  | tensorCopyFromSlice (ok : Bool)
  | graphNew (ok : Bool)
  | setInputs (graph : Nat) (inputs : List Nat) (ok : Bool) (gone : List Nat)
  | setOutputs (graph : Nat) (outputs : List Nat) (ok : Bool) (gone : List Nat)
  | addNode (graph node : Nat) (ok : Bool) (gone : List Nat)
  | addInitializer (graph tensor : Nat) (dataIsExternal ok : Bool) (gone : List Nat)
  | modelNew (ok : Bool)
  | addGraph (model graph : Nat) (ok : Bool) (gone : List Nat)
  | toBytes (model : Nat) (options compilation : Bool)
  | toFile (model : Nat) (options compilation : Bool)
  | compilationOptionsNew (options ok : Bool)
  | setInputModel (options model : Nat) (ok : Bool)
  | setInputModelFromBuffer (options buffer : Nat) (ok : Bool)
  | setInputModelPath (options : Nat) (ok : Bool)
  | configure (options : Nat)
  | compile (options : Nat)
  | fromModel (model : Nat) (options created setup : Bool)
  | fromBytesForEditing (options created setup : Bool)
  | applyModel (session model : Nat)
  | drop (value : Nat)
  | allocate
  | free (buffer : Nat)

namespace State

def initial : State where
  books := .empty
  kind _ := .shapeInfo
  backing _ := none
  input _ := none
  buffers := 0
  freed _ := false

variable (s : State)

/-- A Rust value of this kind holds the handle. -/
def Has (k : Kind) (x : Nat) : Prop := s.books.held x = true ∧ s.kind x = k

instance (k : Kind) (x : Nat) : Decidable (s.Has k x) := inferInstanceAs (Decidable (_ ∧ _))

def Alive (buffer : Nat) : Prop := buffer < s.buffers ∧ s.freed buffer = false

instance (buffer : Nat) : Decidable (s.Alive buffer) := inferInstanceAs (Decidable (_ ∧ _))

/-- A tensor has not given its borrow back. -/
def Borrowed (buffer : Nat) : Prop :=
  ∃ x, x < s.books.count ∧ s.Has .tensor x ∧ s.backing x = some buffer

instance (buffer : Nat) : Decidable (s.Borrowed buffer) := Nat.decidableExistsLT _

def make (k : Kind) (backing : Option Nat) : State :=
  { s with
    books := s.books.make
    kind := fun x => if x = s.books.count then k else s.kind x
    backing := fun x => if x = s.books.count then backing else s.backing x
    input := fun x => if x = s.books.count then none else s.input x }

/-- Drop of the Rust value. -/
def release (x : Nat) : State := { s with books := s.books.drop x }

/-- ORT takes the handle over, and the Rust value is forgotten. -/
def give (p x : Nat) : State := { s with books := s.books.give p x }

def letGo (p : Nat) (gone : List Nat) : State := { s with books := s.books.letGo p gone }

/-- A handle that does not outlive the call. -/
def temporary (k : Kind) : State := (s.make k none).release s.books.count

def create (k : Kind) (ok : Bool) : State := if ok then s.make k none else s

def attempt (k : Kind) (made : Bool) : State := if made then s.temporary k else s

/-- A consuming call: on success ORT owns the handles, else their Rust values are dropped. -/
def consume (p : Nat) (xs : List Nat) (ok : Bool) (gone : List Nat) : State :=
  if ok then xs.foldl (fun s x => s.give p x) (s.letGo p gone) else xs.foldl release s

def setInput (options : Nat) (input : Option Input) (ok : Bool) : State :=
  if ok then { s with input := fun x => if x = options then input else s.input x } else s

/-- The setup of a session may fail after ORT has created it. -/
def createSession (options created setup : Bool) : State :=
  if created then
    if setup then (s.attempt .sessionOptions options).make .session none
    else (s.attempt .sessionOptions options).temporary .session
  else s.attempt .sessionOptions options

/-- The values are distinct, as moved values are. -/
def HasAll (k : Kind) (xs : List Nat) : Prop := xs.Nodup ∧ ∀ x ∈ xs, s.Has k x

instance (k : Kind) (xs : List Nat) : Decidable (s.HasAll k xs) :=
  inferInstanceAs (Decidable (_ ∧ _))

end State

/-- A call whose arguments Rust lets the caller have. -/
def allowed (s : State) : Op → Prop
  | .shapeInfoNew _ | .nodeAttrNew _ | .tensorCopyFromSlice _ | .graphNew _ | .modelNew _
  | .compilationOptionsNew _ _ | .fromBytesForEditing _ _ _ | .allocate => True
  | .typeInfoTensor info _ | .typeInfoSparseTensor info _ => s.Has .shapeInfo info
  | .typeInfoMap type _ | .typeInfoSequence type _ | .typeInfoOptional type _
  | .valueInfoNew type _ => s.Has .typeInfo type
  | .valueInfoRead info => s.Has .valueInfo info
  | .nodeWithAttributes attributes _ => s.HasAll .nodeAttr attributes
  | .tensorFromBuffer buffer _ => s.Alive buffer
  | .setInputs graph infos _ _ | .setOutputs graph infos _ _ =>
    s.Has .graph graph ∧ s.HasAll .valueInfo infos
  | .addNode graph node _ _ => s.Has .graph graph ∧ s.Has .node node
  | .addInitializer graph tensor _ _ _ => s.Has .graph graph ∧ s.Has .tensor tensor
  | .addGraph model graph _ _ => s.Has .model model ∧ s.Has .graph graph
  | .toBytes model _ _ | .toFile model _ _ | .fromModel model _ _ _ => s.Has .model model
  | .setInputModel options model _ => s.Has .compilationOptions options ∧ s.Has .model model
  | .setInputModelFromBuffer options buffer _ =>
    s.Has .compilationOptions options ∧ s.Alive buffer
  | .setInputModelPath options _ | .configure options | .compile options =>
    s.Has .compilationOptions options
  | .applyModel session model => s.Has .session session ∧ s.Has .model model
  | .drop value => s.books.held value = true
  | .free buffer => s.Alive buffer ∧ ¬ s.Borrowed buffer

instance (s : State) : (op : Op) → Decidable (allowed s op)
  | .shapeInfoNew _ | .nodeAttrNew _ | .tensorCopyFromSlice _ | .graphNew _ | .modelNew _
  | .compilationOptionsNew _ _ | .fromBytesForEditing _ _ _ | .allocate =>
    inferInstanceAs (Decidable True)
  | .typeInfoTensor _ _ | .typeInfoSparseTensor _ _ | .typeInfoMap _ _ | .typeInfoSequence _ _
  | .typeInfoOptional _ _ | .valueInfoNew _ _ | .valueInfoRead _ | .toBytes _ _ _ | .toFile _ _ _
  | .fromModel _ _ _ _ | .setInputModelPath _ _ | .configure _ | .compile _ =>
    inferInstanceAs (Decidable (s.Has _ _))
  | .nodeWithAttributes _ _ => inferInstanceAs (Decidable (s.HasAll _ _))
  | .tensorFromBuffer _ _ => inferInstanceAs (Decidable (s.Alive _))
  | .setInputs _ _ _ _ | .setOutputs _ _ _ _ | .addNode _ _ _ _ | .addInitializer _ _ _ _ _
  | .addGraph _ _ _ _ | .setInputModel _ _ _ | .setInputModelFromBuffer _ _ _
  | .applyModel _ _ | .free _ => inferInstanceAs (Decidable (_ ∧ _))
  | .drop _ => inferInstanceAs (Decidable (_ = true))

/-- What a call does. -/
def exec (s : State) : Op → State
  | .shapeInfoNew ok => s.create .shapeInfo ok
  | .typeInfoTensor _ ok | .typeInfoSparseTensor _ ok | .typeInfoMap _ ok | .typeInfoSequence _ ok
  | .typeInfoOptional _ ok => s.create .typeInfo ok
  | .valueInfoNew _ ok => s.create .valueInfo ok
  | .valueInfoRead _ => s
  | .nodeAttrNew ok => s.create .nodeAttr ok
  | .nodeWithAttributes attributes ok =>
    if ok then (s.make .node none).consume s.books.count attributes true []
    else attributes.foldl State.release s
  | .tensorFromBuffer buffer ok => if ok then s.make .tensor (some buffer) else s
  | .tensorCopyFromSlice ok => s.create .tensor ok
  | .graphNew ok => s.create .graph ok
  | .setInputs graph infos ok gone | .setOutputs graph infos ok gone =>
    s.consume graph infos ok gone
  | .addNode graph node ok gone => s.consume graph [node] ok gone
  | .addInitializer graph tensor _ ok gone => s.consume graph [tensor] ok gone
  | .modelNew ok => s.create .model ok
  | .addGraph model graph ok gone => s.consume model [graph] ok gone
  | .toBytes _ options compilation | .toFile _ options compilation =>
    (s.attempt .sessionOptions options).attempt .compilationOptions compilation
  | .compilationOptionsNew options ok =>
    (s.attempt .sessionOptions options).create .compilationOptions ok
  | .setInputModel options model ok => s.setInput options (some (.model model)) ok
  | .setInputModelFromBuffer options buffer ok => s.setInput options (some (.bytes buffer)) ok
  | .setInputModelPath options ok => s.setInput options none ok
  | .configure _ | .compile _ | .applyModel _ _ => s
  | .fromModel _ options created setup | .fromBytesForEditing options created setup =>
    s.createSession options created setup
  | .drop value => s.release value
  | .allocate => { s with buffers := s.buffers + 1 }
  | .free buffer => { s with freed := fun x => if x = buffer then true else s.freed x }

def step (s : State) (op : Op) : Option State := if allowed s op then some (exec s op) else none

def editor : Lts.System State Op where
  Initial s := s = .initial
  Tr s op t := step s op = some t

/-- The handles that the native calls of a call are made on. -/
def State.calls (s : State) : Op → List Nat
  | .shapeInfoNew _ | .nodeAttrNew _ | .tensorCopyFromSlice _ | .graphNew _ | .modelNew _
  | .compilationOptionsNew _ _ | .fromBytesForEditing _ _ _ | .tensorFromBuffer _ _ | .allocate
  | .free _ => []
  | .typeInfoTensor x _ | .typeInfoSparseTensor x _ | .typeInfoMap x _ | .typeInfoSequence x _
  | .typeInfoOptional x _ | .valueInfoNew x _ | .valueInfoRead x => [x]
  | .nodeWithAttributes attributes _ => attributes
  | .setInputs graph infos _ _ | .setOutputs graph infos _ _ => graph :: infos
  | .addNode graph x _ _ | .addInitializer graph x _ _ _ => [graph, x]
  | .addGraph model graph _ _ => [model, graph]
  | .toBytes model _ _ | .toFile model _ _ | .fromModel model _ _ _ => [model]
  | .setInputModel options model _ => [options, model]
  | .setInputModelFromBuffer options _ _ | .setInputModelPath options _ | .configure options =>
    [options]
  | .compile options => options :: match s.input options with
    | some (.model model) => [model]
    | _ => []
  | .applyModel session model => [session, model]
  | .drop value => [value]

/-- A handle is released once, as soon as no Rust value holds it or what owns it. -/
def State.ReleasedOnce (s : State) : Prop := ∀ x, x < s.books.count →
  s.books.released x = if s.books.held (s.books.holder x) then 0 else 1

/-- No call is made on a released handle. -/
def State.CallsAlive (s : State) (op : Op) : Prop := ∀ x ∈ s.calls op, s.books.released x = 0

/-- The value, or something it owns, points into the buffer. -/
def State.Refers (s : State) (value buffer : Nat) : Prop :=
  (∃ x, s.books.holder x = value ∧ s.backing x = some buffer) ∨
    s.input value = some (.bytes buffer)

/-- No value that is still there points into a freed buffer. -/
def State.Backed (s : State) : Prop := ∀ value, s.books.held value = true →
  ∀ buffer, s.Refers value buffer → s.freed buffer = false

/-- The caller frees a buffer that a value still points into, or compiles a model it has dropped. -/
def State.Dangles (s : State) : Op → Prop
  | .free buffer => ∃ value, s.books.held value = true ∧ s.Refers value buffer
  | .compile options => ∃ model, s.input options = some (.model model) ∧
      s.books.held model = false
  | _ => False

variable {s t u : State} {op : Op} {k : Kind} {p x : Nat} {xs gone : List Nat} {ok : Bool}
  {backing : Option Nat} {input : Option Input}

/-- What holds whatever the caller frees: ORT never owns a model, and the input of compilation
options is one. -/
structure Invariant (s : State) : Prop where
  sound : s.books.Sound
  top : ∀ x p, s.books.owner x = some p → s.kind x ≠ .model
  input : ∀ x m, s.input x = some (.model m) → m < s.books.count ∧ s.kind m = .model

/-- A call that frees nothing. -/
structure Keeps (s t : State) : Prop where
  inv : Invariant t
  backed : s.Backed → t.Backed

theorem Keeps.refl (h : Invariant s) : Keeps s s := ⟨h, id⟩

theorem Keeps.trans (h : Keeps s t) (h' : Keeps t u) : Keeps s u := ⟨h'.inv, h'.backed ∘ h.backed⟩

theorem make_kind : (s.make k backing).kind x = if x = s.books.count then k else s.kind x := rfl

theorem make_backing : (s.make k backing).backing x =
    if x = s.books.count then backing else s.backing x := rfl

theorem make_input : (s.make k backing).input x =
    if x = s.books.count then none else s.input x := rfl

theorem keeps_make (h : Invariant s) (hb : ∀ b, backing = some b → s.freed b = false) :
    Keeps s (s.make k backing) := by
  obtain ⟨-, hnone, -⟩ := h.sound.unmade s.books.count (Nat.le_refl _)
  refine ⟨⟨h.sound.make, ?_, ?_⟩, ?_⟩
  · intro x p ho
    have hne : x ≠ s.books.count := by
      rintro rfl
      cases hnone.symm.trans ho
    rw [make_kind, if_neg hne]
    exact h.top x p ho
  · intro x m hi
    rw [make_input] at hi
    split at hi
    · cases hi
    · obtain ⟨hm, hk⟩ := h.input x m hi
      exact ⟨Nat.lt_succ_of_lt hm, by rw [make_kind, if_neg (Nat.ne_of_lt hm), hk]⟩
  · intro hs value hv buffer hr
    by_cases hnew : value = s.books.count
    · subst hnew
      rcases hr with ⟨x, hx, hr⟩ | hr
      · rw [make_backing] at hr
        split at hr
        · exact hb buffer hr
        · rename_i hne
          have hx : s.books.holder x = s.books.count := hx
          rcases Nat.lt_or_ge x s.books.count with hlt | hge
          · exact absurd hx (Nat.ne_of_lt (h.sound.holder_lt hlt))
          · rw [Books.holder, (h.sound.unmade x hge).2.1] at hx
            exact absurd hx hne
      · rw [make_input, if_pos rfl] at hr
        cases hr
    · have hv : s.books.held value = true := by
        rwa [State.make, Books.make_held, if_neg hnew] at hv
      refine hs value hv buffer ?_
      rcases hr with ⟨x, hx, hr⟩ | hr
      · have hx : s.books.holder x = value := hx
        rw [make_backing] at hr
        split at hr
        · rename_i hc
          subst hc
          rw [Books.holder, hnone] at hx
          exact absurd hx.symm hnew
        · exact .inl ⟨x, hx, hr⟩
      · rw [make_input, if_neg hnew] at hr
        exact .inr hr

theorem keeps_release (h : Invariant s) (hx : s.books.held x = true) : Keeps s (s.release x) := by
  refine ⟨⟨h.sound.drop hx, h.top, h.input⟩, fun hs value hv => hs value ?_⟩
  rw [State.release, Books.drop_held] at hv
  split at hv
  · cases hv
  · exact hv

theorem keeps_give (h : Invariant s) (hp : s.books.held p = true) (hx : s.books.held x = true)
    (hne : p ≠ x) (hk : s.kind x ≠ .model) : Keeps s (s.give p x) := by
  refine ⟨⟨h.sound.give hp hx hne, ?_, h.input⟩, ?_⟩
  · intro y q ho
    rw [State.give, Books.give_owner] at ho
    split at ho
    · rename_i hy
      rcases hy with rfl | hy
      · exact hk
      · exact h.top y x hy
    · exact h.top y q ho
  · intro hs value hv buffer hr
    have hv : s.books.held value = true := by
      rw [State.give, Books.give_held] at hv
      split at hv
      · cases hv
      · exact hv
    rcases hr with ⟨y, hy, hr⟩ | hr
    · rw [State.give, h.sound.give_holder hx] at hy
      split at hy
      · rename_i hown
        exact hs x hx buffer (.inl ⟨y, hown, hr⟩)
      · exact hs value hv buffer (.inl ⟨y, hy, hr⟩)
    · exact hs value hv buffer (.inr hr)

theorem keeps_letGo (h : Invariant s) (hp : s.books.held p = true) :
    Keeps s (s.letGo p gone) := by
  refine ⟨⟨h.sound.letGo hp, ?_, h.input⟩, ?_⟩
  · intro y q ho
    rw [State.letGo, Books.letGo_owner] at ho
    split at ho
    · cases ho
    · exact h.top y q ho
  · intro hs value hv buffer hr
    have hv : s.books.held value = true := hv
    refine hs value hv buffer ?_
    rcases hr with ⟨y, hy, hr⟩ | hr
    · rw [State.letGo, Books.letGo_holder] at hy
      split at hy
      · rename_i hown
        subst hy
        rw [(h.sound.owned y p hown.2).2.1] at hv
        cases hv
      · exact .inl ⟨y, hy, hr⟩
    · exact .inr hr

theorem keeps_setInput (h : Invariant s)
    (hm : ∀ m, input = some (.model m) → m < s.books.count ∧ s.kind m = .model)
    (hb : ∀ b, input = some (.bytes b) → s.freed b = false) : Keeps s (s.setInput x input ok) := by
  unfold State.setInput
  split
  · refine ⟨⟨h.sound, h.top, ?_⟩, ?_⟩
    · intro y m hi
      dsimp only at hi
      split at hi
      · exact hm m hi
      · exact h.input y m hi
    · intro hs value hv buffer hr
      rcases hr with hr | hr
      · exact hs value hv buffer (.inl hr)
      · dsimp only at hr
        split at hr
        · exact hb buffer hr
        · exact hs value hv buffer (.inr hr)
  · exact .refl h

theorem keeps_create (h : Invariant s) : Keeps s (s.create k ok) := by
  unfold State.create
  split
  · exact keeps_make h nofun
  · exact .refl h

theorem keeps_temporary (h : Invariant s) : Keeps s (s.temporary k) := by
  have hmake : Keeps s (s.make k none) := keeps_make h nofun
  exact hmake.trans (keeps_release hmake.inv (if_pos rfl))

theorem keeps_attempt (h : Invariant s) : Keeps s (s.attempt k ok) := by
  unfold State.attempt
  split
  · exact keeps_temporary h
  · exact .refl h

theorem keeps_createSession {options created setup : Bool} (h : Invariant s) :
    Keeps s (s.createSession options created setup) := by
  have ho : Keeps s (s.attempt .sessionOptions options) := keeps_attempt h
  unfold State.createSession
  split
  · split
    · exact ho.trans (keeps_make ho.inv nofun)
    · exact ho.trans (keeps_temporary ho.inv)
  · exact ho

/-- Values that are dropped one after the other. -/
theorem keeps_releaseAll (h : Invariant s) (hn : xs.Nodup)
    (hx : ∀ x ∈ xs, s.books.held x = true) : Keeps s (xs.foldl State.release s) := by
  induction xs generalizing s with
  | nil => exact .refl h
  | cons x xs ih =>
    obtain ⟨hout, hn⟩ := List.nodup_cons.mp hn
    have hone : Keeps s (s.release x) := keeps_release h (hx x List.mem_cons_self)
    refine hone.trans (ih hone.inv hn ?_)
    intro y hy
    rw [State.release, Books.drop_held, if_neg (fun he : y = x => hout (he ▸ hy))]
    exact hx y (List.mem_cons_of_mem x hy)

/-- Values that ORT takes over one after the other. -/
theorem keeps_giveAll (h : Invariant s) (hp : s.books.held p = true) (hn : xs.Nodup)
    (hx : ∀ x ∈ xs, s.books.held x = true ∧ p ≠ x ∧ s.kind x ≠ .model) :
    Keeps s (xs.foldl (fun s x => s.give p x) s) := by
  induction xs generalizing s with
  | nil => exact .refl h
  | cons x xs ih =>
    obtain ⟨hout, hn⟩ := List.nodup_cons.mp hn
    obtain ⟨hheld, hne, hk⟩ := hx x List.mem_cons_self
    have hone : Keeps s (s.give p x) := keeps_give h hp hheld hne hk
    have hother : ∀ y, y ≠ x → s.books.held y = true → (s.give p x).books.held y = true := by
      intro y hy hh
      rw [State.give, Books.give_held, if_neg hy, hh]
    refine hone.trans (ih hone.inv (hother p hne hp) hn ?_)
    intro y hy
    obtain ⟨hh, hpy, hky⟩ := hx y (List.mem_cons_of_mem x hy)
    exact ⟨hother y (fun he : y = x => hout (he ▸ hy)) hh, hpy, hky⟩

theorem keeps_consume (h : Invariant s) (hp : s.books.held p = true) (hn : xs.Nodup)
    (hx : ∀ x ∈ xs, s.books.held x = true ∧ p ≠ x ∧ s.kind x ≠ .model) :
    Keeps s (s.consume p xs ok gone) := by
  unfold State.consume
  split
  · have hgo : Keeps s (s.letGo p gone) := keeps_letGo h hp
    exact hgo.trans (keeps_giveAll hgo.inv hp hn hx)
  · exact keeps_releaseAll h hn fun x hm => (hx x hm).1

theorem hasAll_singleton (h : s.Has k x) : s.HasAll k [x] :=
  ⟨List.pairwise_singleton _ x, fun _ hy => List.mem_singleton.mp hy ▸ h⟩

/-- The consuming calls: a graph or model takes values of another kind. -/
theorem keeps_take {k' : Kind} (h : Invariant s) (hp : s.Has k' p) (hx : s.HasAll k xs)
    (hk : k ≠ .model) (hne : k ≠ k') : Keeps s (s.consume p xs ok gone) := by
  refine keeps_consume h hp.1 hx.1 ?_
  intro x hm
  obtain ⟨hheld, hkind⟩ := hx.2 x hm
  refine ⟨hheld, ?_, hkind ▸ hk⟩
  rintro rfl
  exact hne (hkind.symm.trans hp.2)

theorem keeps_nodeWithAttributes (h : Invariant s) (hx : s.HasAll .nodeAttr xs) :
    Keeps s (exec s (.nodeWithAttributes xs ok)) := by
  cases ok with
  | true =>
    show Keeps s ((s.make .node none).consume s.books.count xs true [])
    have hmake : Keeps s (s.make .node none) := keeps_make h nofun
    refine hmake.trans (keeps_consume hmake.inv (if_pos rfl) hx.1 ?_)
    intro x hm
    obtain ⟨hheld, hkind⟩ := hx.2 x hm
    have hne : x ≠ s.books.count := Nat.ne_of_lt (h.sound.lt_count hheld)
    refine ⟨?_, hne.symm, ?_⟩
    · rw [State.make, Books.make_held, if_neg hne, hheld]
    · rw [make_kind, if_neg hne, hkind]
      exact nofun
  | false => exact keeps_releaseAll h hx.1 fun x hm => (hx.2 x hm).1

/-- Every call but a free. -/
theorem keeps_exec (h : Invariant s) (ha : allowed s op) (hop : ∀ b, op ≠ .free b) :
    Keeps s (exec s op) := by
  cases op with
  | shapeInfoNew | typeInfoTensor | typeInfoSparseTensor | typeInfoMap | typeInfoSequence
  | typeInfoOptional | valueInfoNew | nodeAttrNew | tensorCopyFromSlice | graphNew | modelNew =>
    exact keeps_create h
  | valueInfoRead | configure | compile | applyModel => exact .refl h
  | nodeWithAttributes => exact keeps_nodeWithAttributes h ha
  | tensorFromBuffer buffer ok =>
    cases ok with
    | true => exact keeps_make h fun b hb => Option.some.inj hb ▸ ha.2
    | false => exact .refl h
  | setInputs | setOutputs => exact keeps_take h ha.1 ha.2 nofun nofun
  | addNode | addInitializer | addGraph =>
    exact keeps_take h ha.1 (hasAll_singleton ha.2) nofun nofun
  | toBytes | toFile => exact (keeps_attempt h).trans (keeps_attempt (keeps_attempt h).inv)
  | compilationOptionsNew => exact (keeps_attempt h).trans (keeps_create (keeps_attempt h).inv)
  | setInputModel options model ok =>
    refine keeps_setInput h ?_ nofun
    intro m hm
    obtain rfl := Input.model.inj (Option.some.inj hm)
    exact ⟨h.sound.lt_count ha.2.1, ha.2.2⟩
  | setInputModelFromBuffer options buffer ok =>
    refine keeps_setInput h nofun fun b hb => ?_
    obtain rfl := Input.bytes.inj (Option.some.inj hb)
    exact ha.2.2
  | setInputModelPath => exact keeps_setInput h nofun nofun
  | fromModel | fromBytesForEditing => exact keeps_createSession h
  | drop => exact keeps_release h ha
  | allocate => exact ⟨⟨h.sound, h.top, h.input⟩, id⟩
  | free buffer => exact absurd rfl (hop buffer)

theorem step_eq (h : step s op = some t) : allowed s op ∧ exec s op = t := by
  unfold step at h
  split at h
  · exact ⟨‹_›, Option.some.inj h⟩
  · cases h

theorem invariant_step (h : Invariant s) (hs : step s op = some t) : Invariant t := by
  obtain ⟨ha, rfl⟩ := step_eq hs
  by_cases hop : ∃ b, op = .free b
  · obtain ⟨b, rfl⟩ := hop
    exact ⟨h.sound, h.top, h.input⟩
  · exact (keeps_exec h ha fun b he => hop ⟨b, he⟩).inv

theorem invariant_initial : Invariant .initial := ⟨Ownership.Books.sound_empty, nofun, nofun⟩

theorem invariant_reachable (h : Lts.Reachable editor s) : Invariant s :=
  Lts.invariant_reachable (P := Invariant) (by rintro s rfl; exact invariant_initial)
    (fun _ _ _ h hs => invariant_step h hs) h

/-- The calls of a step are made on held handles, but for a compilation's input. -/
theorem held_calls (ha : allowed s op) (hx : x ∈ s.calls op) : s.books.held x = true ∨
    ∃ options, op = .compile options ∧ s.input options = some (.model x) := by
  cases op with
  | shapeInfoNew | nodeAttrNew | tensorCopyFromSlice | graphNew | modelNew | compilationOptionsNew
  | fromBytesForEditing | tensorFromBuffer | allocate | free => cases hx
  | typeInfoTensor | typeInfoSparseTensor | typeInfoMap | typeInfoSequence | typeInfoOptional
  | valueInfoNew | valueInfoRead | toBytes | toFile | fromModel | setInputModelPath | configure =>
    exact .inl (List.mem_singleton.mp hx ▸ ha.1)
  | nodeWithAttributes => exact .inl (ha.2 x hx).1
  | setInputs | setOutputs =>
    rcases List.mem_cons.mp hx with rfl | hx
    · exact .inl ha.1.1
    · exact .inl (ha.2.2 x hx).1
  | addNode | addInitializer | addGraph | setInputModel | applyModel =>
    rcases List.mem_cons.mp hx with rfl | hx
    · exact .inl ha.1.1
    · exact .inl (List.mem_singleton.mp hx ▸ ha.2.1)
  | setInputModelFromBuffer => exact .inl (List.mem_singleton.mp hx ▸ ha.1.1)
  | compile options =>
    rcases List.mem_cons.mp hx with rfl | hx
    · exact .inl ha.1
    · cases hi : s.input options with
      | none => simp [hi] at hx
      | some input =>
        cases input with
        | model m =>
          simp only [hi, List.mem_singleton] at hx
          exact .inr ⟨options, rfl, hx ▸ hi⟩
        | bytes b => simp [hi] at hx
  | drop => exact .inl (List.mem_singleton.mp hx ▸ ha)

/-- A model is released when its value is dropped, and not before. -/
theorem released_model (h : Invariant s) {model : Nat} (hm : model < s.books.count)
    (hk : s.kind model = .model) : s.books.released model = 0 ↔ s.books.held model = true := by
  have hnone : s.books.owner model = none := by
    cases ho : s.books.owner model with
    | none => rfl
    | some p => exact absurd hk (h.top model p ho)
  rw [h.sound.released model hm, Books.holder, hnone, Option.getD_none]
  split <;> simp_all

/-- A compilation's calls are alive as long as its input model is. -/
theorem callsAlive_iff (h : Invariant s) (ha : allowed s op) : s.CallsAlive op ↔
    ∀ options model, op = .compile options → s.input options = some (.model model) →
      s.books.held model = true := by
  constructor
  · rintro hc options model rfl hi
    obtain ⟨hm, hk⟩ := h.input options model hi
    refine (released_model h hm hk).mp (hc model ?_)
    simp [State.calls, hi]
  · intro hc x hx
    rcases held_calls ha hx with hh | ⟨options, rfl, hi⟩
    · exact h.sound.released_held hh
    · exact h.sound.released_held (hc options x rfl hi)

/-- What goes wrong in a step is told by `Dangles`. -/
theorem sound_iff (h : Invariant s) (hb : s.Backed) (hs : step s op = some t) :
    s.CallsAlive op ∧ t.Backed ↔ ¬ s.Dangles op := by
  obtain ⟨ha, rfl⟩ := step_eq hs
  rw [callsAlive_iff h ha]
  by_cases hop : ∃ b, op = .free b
  · obtain ⟨b, rfl⟩ := hop
    constructor
    · rintro ⟨-, hb⟩ ⟨value, hv, hr⟩
      have hfreed := hb value hv b hr
      simp [exec] at hfreed
    · intro hd
      refine ⟨nofun, ?_⟩
      intro value hv buffer hr
      have hne : buffer ≠ b := by
        rintro rfl
        exact hd ⟨value, hv, hr⟩
      simpa [exec, hne] using hb value hv buffer hr
  · have hk := keeps_exec h ha fun b he => hop ⟨b, he⟩
    rw [and_iff_left (hk.backed hb)]
    constructor
    · intro hc hd
      cases op with
      | compile options =>
        obtain ⟨model, hi, hf⟩ := hd
        rw [hc options model rfl hi] at hf
        cases hf
      | free b => exact hop ⟨b, rfl⟩
      | _ => exact hd
    · rintro hd options model rfl hi
      by_contra hf
      exact hd ⟨model, hi, eq_false_of_ne_true hf⟩

theorem backed_reachable (h : Lts.Reachable (editor.restrict fun s op => ¬ s.Dangles op) s) :
    s.Backed := by
  refine Lts.invariant_of_reachable (P := State.Backed) ?_ ?_ h
  · rintro s rfl value hv
    cases hv
  · intro s op t hr hb hs
    exact ((sound_iff (invariant_reachable (Lts.restrict_reachable hr)) hb hs.2).mpr hs.1).2

/-- Handles are released once in every run; no call is made on a released handle and no freed
buffer is pointed into as long as no step dangles. -/
theorem editor_ownership (h : Lts.Reachable editor s) : s.ReleasedOnce ∧
    (Lts.Reachable (editor.restrict fun s op => ¬ s.Dangles op) s → s.Backed ∧
      ∀ op t, step s op = some t → (s.CallsAlive op ∧ t.Backed ↔ ¬ s.Dangles op)) := by
  have hi := invariant_reachable h
  refine ⟨hi.sound.released, ?_⟩
  intro hr
  have hb := backed_reachable hr
  exact ⟨hb, fun op t hs => sound_iff hi hb hs⟩

theorem editor_ownership_initializer : ∃ s t,
    Lts.Reachable (editor.restrict fun s op => ¬ s.Dangles op) s ∧ step s (.free 0) = some t ∧
      (∀ x < 3, t.books.released x = 1) ∧
      (s.CallsAlive (.free 0) ∧ t.Backed ↔ ¬ s.Dangles (.free 0)) := by
  have next (op : Op) {s t} (h : Lts.Reachable (editor.restrict fun s op => ¬ s.Dangles op) s)
      (hd : ¬ s.Dangles op) (hs : step s op = some t) :
      Lts.Reachable (editor.restrict fun s op => ¬ s.Dangles op) t := .step h ⟨hd, hs⟩
  have h := next .allocate (.initial rfl) id rfl
  have h := next (.tensorFromBuffer 0 true) h id rfl
  have h := next (.graphNew true) h id rfl
  have h := next (.addInitializer 1 0 true true []) h id rfl
  have h := next (.modelNew true) h id rfl
  have h := next (.addGraph 2 1 true []) h id rfl
  have h := next (.drop 2) h id rfl
  exact ⟨_, _, h, rfl, by decide, ((editor_ownership (Lts.restrict_reachable h)).2 h).2 _ _ rfl⟩

/-- The state after a run that the caller makes. -/
theorem run_reachable (ops : List Op) (h : Lts.schedule step .initial ops = some s) :
    Lts.Reachable editor s :=
  Lts.schedule_reachable (fun _ op _ hs => ⟨op, hs⟩) (.initial rfl) h

theorem editor_ownership_fails : (∃ s, Lts.Reachable editor s ∧ ¬ s.Backed) ∧
    ∃ s op t, Lts.Reachable editor s ∧ step s op = some t ∧ ¬ s.CallsAlive op := by
  constructor
  · refine ⟨_, run_reachable [.allocate, .tensorFromBuffer 0 true, .graphNew true,
      .addInitializer 1 0 true true [], .free 0] rfl, ?_⟩
    intro h
    have hfreed := h 1 rfl 0 (.inl ⟨0, rfl, rfl⟩)
    cases hfreed
  · refine ⟨_, .compile 2, _, run_reachable [.modelNew true, .compilationOptionsNew true true,
      .setInputModel 2 0 true, .drop 0] rfl, rfl, ?_⟩
    intro h
    have halive := h 0 (List.mem_cons_of_mem _ List.mem_cons_self)
    cases halive

end Zrt.Editor
