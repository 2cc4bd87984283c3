import Mathlib.Data.List.Basic

/-! Programs of single operations that may be killed before any of them, and their triples. -/
namespace Crash

/-- How a program ends; `rest` are the outcomes it has not met yet. -/
inductive Exit (ω α : Type) where
  | done (a : α) (rest : List ω)
  | panicked
  | killed

/-- A program over a store: each of its operations meets the next outcome, and a program without
outcomes left is killed. -/
def Prog (σ ω α : Type) := σ → List ω → σ × Exit ω α

namespace Prog

variable {σ ω α β : Type}

def bind (p : Prog σ ω α) (k : α → Prog σ ω β) : Prog σ ω β := fun s os =>
  match p s os with
  | (t, .done a rest) => k a t rest
  | (t, .panicked) => (t, .panicked)
  | (t, .killed) => (t, .killed)

/-- A panic. -/
def abort : Prog σ ω α := fun s _ => (s, .panicked)

/-- What the store tells, at no risk. -/
def read (g : σ → α) : Prog σ ω α := fun s os => (s, .done (g s) os)

/-- One operation, over and over until it yields a result. -/
def loop (g : σ → ω → σ × Option α) : Prog σ ω α
  | s, [] => (s, .killed)
  | s, o :: os => match g s o with
    | (t, some a) => (t, .done a os)
    | (t, none) => loop g t os

/-- One operation. -/
def op (g : σ → ω → σ × α) : Prog σ ω α := loop fun s o => ((g s o).1, some (g s o).2)

/-- One operation that fails without an effect, or changes the store. -/
def attempt (g : σ → ω → Option σ) : Prog σ ω Bool :=
  op fun s o => ((g s o).getD s, (g s o).isSome)

/-- Goes on where the store meets the condition. -/
def ensure (g : σ → Bool) : Prog σ ω Unit :=
  fun s os => if g s then (s, .done () os) else (s, .panicked)

end Prog

instance {σ ω : Type} : Monad (Prog σ ω) where
  pure a := Prog.read fun _ => a
  bind := Prog.bind

/-- One operation that must not fail. -/
def Prog.expect {σ ω : Type} (g : σ → ω → Option σ) : Prog σ ω Unit := do
  if ← .attempt g then pure () else .abort

variable {σ ω α β : Type} {p : Prog σ ω α} {k : α → Prog σ ω β} {P P' C C' : σ → Prop}
  {Q Q' : α → σ → Prop} {R : β → σ → Prop} {s t : σ} {os : List ω} {m n : Nat}

/-- From `P`, the program ends in `Q`, or stops short in `C`. -/
def Triple (P : σ → Prop) (p : Prog σ ω α) (Q : α → σ → Prop) (C : σ → Prop) : Prop :=
  ∀ s os, P s → match p s os with
    | (t, .done a _) => Q a t
    | (t, .panicked) => C t
    | (t, .killed) => C t

namespace Triple

theorem done {rest : List ω} {a : α} (h : Triple P p Q C) (hs : P s)
    (hp : p s os = (t, .done a rest)) : Q a t := by
  have h := h s os hs
  rw [hp] at h
  exact h

/-- Wherever the program stops short. -/
theorem anywhere (h : Triple P p Q C) (hq : ∀ a t, Q a t → C t) (hs : P s) : C (p s os).1 := by
  have h := h s os hs
  revert h
  obtain ⟨t, a | _ | _⟩ := p s os
  · exact hq _ _
  · exact fun h => h
  · exact fun h => h

theorem conseq (h : Triple P p Q C) (hp : ∀ s, P' s → P s) (hq : ∀ a t, Q a t → Q' a t)
    (hc : ∀ t, C t → C' t) : Triple P' p Q' C' := by
  intro s os hs
  have h := h s os (hp s hs)
  revert h
  obtain ⟨t, a | _ | _⟩ := p s os
  · exact hq _ _
  · exact hc _
  · exact hc _

theorem post (h : Triple P p Q C) (hq : ∀ a t, Q a t → Q' a t) : Triple P p Q' C :=
  h.conseq (fun _ h => h) hq fun _ h => h

theorem pre (h : Triple P p Q C) (hp : ∀ s, P' s → P s) : Triple P' p Q C :=
  h.conseq hp (fun _ _ h => h) fun _ h => h

theorem bind (hp : Triple P p Q C) (hk : ∀ a, Triple (Q a) (k a) R C) : Triple P (p >>= k) R C := by
  intro s os hs
  have h := hp s os hs
  show match Prog.bind p k s os with
    | (t, .done a _) => R a t
    | (t, .panicked) => C t
    | (t, .killed) => C t
  unfold Prog.bind
  revert h
  obtain ⟨t, ⟨a, rest⟩ | _ | _⟩ := p s os
  · exact fun h => hk a t rest h
  · exact fun h => h
  · exact fun h => h

theorem pure {a : α} (h : ∀ s, P s → Q a s) : Triple P (Pure.pure a : Prog σ ω α) Q C :=
  fun s _ hs => h s hs

theorem read {g : σ → α} (h : ∀ s, P s → Q (g s) s) : Triple P (Prog.read g : Prog σ ω α) Q C :=
  fun s _ hs => h s hs

theorem abort (h : ∀ s, P s → C s) : Triple P (Prog.abort : Prog σ ω α) Q C :=
  fun s _ hs => h s hs

theorem ite {c : Prop} [Decidable c] {p' : Prog σ ω α} (h : c → Triple P p Q C)
    (h' : ¬ c → Triple P p' Q C) : Triple P (if c then p else p') Q C := by
  split
  next hc => exact h hc
  next hc => exact h' hc

/-- `P` is the invariant of the loop. -/
theorem loop {g : σ → ω → σ × Option α} (hc : ∀ s, P s → C s)
    (hg : ∀ s o, P s → match g s o with
      | (t, some a) => Q a t
      | (t, none) => P t) : Triple P (Prog.loop g) Q C := by
  intro s os hs
  induction os generalizing s with
  | nil => exact hc s hs
  | cons o os ih =>
    have h := hg s o hs
    unfold Prog.loop
    revert h
    obtain ⟨t, _ | a⟩ := g s o
    · exact fun h => ih t h
    · exact fun h => h

theorem op {g : σ → ω → σ × α} (hc : ∀ s, P s → C s)
    (hg : ∀ s o, P s → Q (g s o).2 (g s o).1) : Triple P (Prog.op g) Q C :=
  loop hc hg

theorem attempt {g : σ → ω → Option σ} {Q : Bool → σ → Prop} (hc : ∀ s, P s → C s)
    (hg : ∀ s o t, P s → g s o = some t → Q true t) (hf : ∀ s, P s → Q false s) :
    Triple P (Prog.attempt g) Q C := by
  refine op hc fun s o hs => ?_
  cases h : g s o with
  | none => exact hf s hs
  | some t => exact hg s o t hs h

theorem expect {g : σ → ω → Option σ} {Q : Unit → σ → Prop} (hc : ∀ s, P s → C s)
    (hg : ∀ s o t, P s → g s o = some t → Q () t) : Triple P (Prog.expect g) Q C := by
  have hattempt : Triple P (Prog.attempt g) (fun b s => if b then Q () s else C s) C :=
    attempt hc (fun s o t hs h => hg s o t hs h) fun s hs => hc s hs
  refine hattempt.bind fun b => ?_
  cases b with
  | true => exact pure fun s hs => hs
  | false => exact abort fun s hs => hs

theorem ensure {g : σ → Bool} {Q : Unit → σ → Prop} (hc : ∀ s, P s → C s)
    (h : ∀ s, P s → g s = true → Q () s) : Triple P (Prog.ensure g : Prog σ ω Unit) Q C := by
  intro s os hs
  unfold Prog.ensure
  cases hg : g s with
  | true => exact h s hs hg
  | false => exact hc s hs

end Triple

/-- With outcomes that are all good, `n` of them are enough for the program to end, in `Q`. -/
def Finishes (Good : ω → Prop) (n : Nat) (P : σ → Prop) (p : Prog σ ω α)
    (Q : α → σ → Prop) : Prop :=
  ∀ s os, P s → (∀ o ∈ os, Good o) → n ≤ os.length →
    ∃ t a rest, p s os = (t, .done a rest) ∧ Q a t ∧ rest <:+ os ∧ os.length ≤ rest.length + n

namespace Finishes

variable {Good : ω → Prop}

theorem bind (hp : Finishes Good m P p Q) (hk : ∀ a, Finishes Good n (Q a) (k a) R) :
    Finishes Good (m + n) P (p >>= k) R := by
  intro s os hs hos hlen
  obtain ⟨t, a, rest, he, hq, hsuf, hle⟩ := hp s os hs hos (by omega)
  obtain ⟨u, b, rest', he', hr, hsuf', hle'⟩ :=
    hk a t rest hq (fun o ho => hos o (hsuf.subset ho)) (by omega)
  refine ⟨u, b, rest', ?_, hr, hsuf'.trans hsuf, by omega⟩
  show Prog.bind p k s os = _
  unfold Prog.bind
  rw [he]
  exact he'

theorem mono (h : Finishes Good m P p Q) (hn : m ≤ n) : Finishes Good n P p Q := by
  intro s os hs hos hlen
  obtain ⟨t, a, rest, he, hq, hsuf, hle⟩ := h s os hs hos (by omega)
  exact ⟨t, a, rest, he, hq, hsuf, by omega⟩

theorem conseq (h : Finishes Good n P p Q) (hp : ∀ s, P' s → P s) (hq : ∀ a t, Q a t → Q' a t) :
    Finishes Good n P' p Q' := by
  intro s os hs hos hlen
  obtain ⟨t, a, rest, he, hq', hrest⟩ := h s os (hp s hs) hos hlen
  exact ⟨t, a, rest, he, hq a t hq', hrest⟩

/-- Where the program ends, both its postconditions hold. -/
theorem and_triple {P' C : σ → Prop} (h : Finishes Good n P p Q) (ht : Triple P' p Q' C) :
    Finishes Good n (fun s => P s ∧ P' s) p fun a t => Q a t ∧ Q' a t := by
  intro s os hs hos hlen
  obtain ⟨t, a, rest, he, hq, hrest⟩ := h s os hs.1 hos hlen
  exact ⟨t, a, rest, he, ⟨hq, ht.done hs.2 he⟩, hrest⟩

theorem read {g : σ → α} (h : ∀ s, P s → Q (g s) s) :
    Finishes Good 0 P (Prog.read g : Prog σ ω α) Q :=
  fun s os hs _ _ => ⟨s, g s, os, rfl, h s hs, List.suffix_rfl, by omega⟩

theorem pure {a : α} (h : ∀ s, P s → Q a s) : Finishes Good 0 P (Pure.pure a : Prog σ ω α) Q :=
  read h

theorem ite {c : Prop} [Decidable c] {p' : Prog σ ω α} (h : c → Finishes Good n P p Q)
    (h' : ¬ c → Finishes Good n P p' Q) : Finishes Good n P (if c then p else p') Q := by
  split
  next hc => exact h hc
  next hc => exact h' hc

/-- A loop that good outcomes end at once. -/
theorem loop {g : σ → ω → σ × Option α}
    (h : ∀ s o, P s → Good o → ∃ t a, g s o = (t, some a) ∧ Q a t) :
    Finishes Good 1 P (Prog.loop g) Q := by
  intro s os hs hos hlen
  cases os with
  | nil => simp at hlen
  | cons o os =>
    obtain ⟨t, a, he, hq⟩ := h s o hs (hos o List.mem_cons_self)
    refine ⟨t, a, os, ?_, hq, List.suffix_cons o os, by simp⟩
    unfold Prog.loop
    rw [he]

theorem op {g : σ → ω → σ × α} (h : ∀ s o, P s → Good o → Q (g s o).2 (g s o).1) :
    Finishes Good 1 P (Prog.op g) Q :=
  loop fun s o hs ho => ⟨_, _, rfl, h s o hs ho⟩

theorem attempt {g : σ → ω → Option σ} {Q : Bool → σ → Prop}
    (h : ∀ s o, P s → Good o → ∃ t, g s o = some t ∧ Q true t) :
    Finishes Good 1 P (Prog.attempt g) Q := by
  refine op fun s o hs ho => ?_
  obtain ⟨t, he, hq⟩ := h s o hs ho
  rw [he]
  exact hq

theorem expect {g : σ → ω → Option σ} {Q : Unit → σ → Prop}
    (h : ∀ s o, P s → Good o → ∃ t, g s o = some t ∧ Q () t) :
    Finishes Good 1 P (Prog.expect g) Q := by
  have hattempt : Finishes Good 1 P (Prog.attempt g) fun b s => b = true ∧ Q () s :=
    attempt fun s o hs ho => by
      obtain ⟨t, he, hq⟩ := h s o hs ho
      exact ⟨t, he, rfl, hq⟩
  refine hattempt.bind (n := 0) fun b => ?_
  cases b with
  | true => exact pure fun s hs => hs.2
  | false => exact fun s os hs _ _ => absurd hs.1 (by decide)

theorem ensure {g : σ → Bool} {Q : Unit → σ → Prop} (h : ∀ s, P s → g s = true ∧ Q () s) :
    Finishes Good 0 P (Prog.ensure g : Prog σ ω Unit) Q := by
  intro s os hs hos hlen
  obtain ⟨hg, hq⟩ := h s hs
  refine ⟨s, (), os, ?_, hq, List.suffix_rfl, by omega⟩
  unfold Prog.ensure
  rw [if_pos hg]

end Finishes
end Crash
