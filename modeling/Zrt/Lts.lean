import Mathlib.Data.List.Induction

/-! Labelled transition systems over finite histories, and the invariant rules used below. -/
namespace Lts

/-- An initialized transition system: `Tr s a t` is one labelled step. -/
structure System (σ : Type*) (α : Type*) where
  Initial : σ → Prop
  Tr : σ → α → σ → Prop

variable {σ α : Type*}

/-- A finite history, labels in order. -/
inductive Trace (L : System σ α) : σ → List α → σ → Prop where
  | refl {s : σ} : Trace L s [] s
  | snoc {s t u : σ} {xs : List α} {a : α} :
      Trace L s xs t → L.Tr t a u → Trace L s (xs ++ [a]) u

/-- The states some finite history leads to. -/
inductive Reachable (L : System σ α) : σ → Prop where
  | initial {s : σ} : L.Initial s → Reachable L s
  | step {s t : σ} {a : α} : Reachable L s → L.Tr s a t → Reachable L t

/-- The histories all of whose steps meet `C`, a condition on the step and its source state. -/
def System.restrict (L : System σ α) (C : σ → α → Prop) : System σ α where
  Initial := L.Initial
  Tr s a t := C s a ∧ L.Tr s a t

/-- A system that takes the step its label names. -/
def System.ofNext (init : σ → Prop) (next : σ → α → σ) : System σ α where
  Initial := init
  Tr s a t := next s a = t

/-- The system with the steps of a party that it leaves out. -/
def System.beside {β : Type*} (L : System σ α) (g : σ → β → σ) : System σ (α ⊕ β) where
  Initial := L.Initial
  Tr s x t := match x with
    | .inl a => L.Tr s a t
    | .inr b => g s b = t

variable {L : System σ α} {P : σ → Prop} {s t u : σ} {a : α} {xs ys : List α}

theorem invariant_reachable (hi : ∀ s, L.Initial s → P s)
    (hs : ∀ s a t, P s → L.Tr s a t → P t) (h : Reachable L s) : P s := by
  induction h with
  | initial h => exact hi _ h
  | step _ h ih => exact hs _ _ _ ih h

/-- The invariant rule with the reached source state at hand. -/
theorem invariant_of_reachable (hi : ∀ s, L.Initial s → P s)
    (hs : ∀ s a t, Reachable L s → P s → L.Tr s a t → P t) (h : Reachable L s) : P s := by
  induction h with
  | initial h => exact hi _ h
  | step hr h ih => exact hs _ _ _ hr ih h

theorem restrict_reachable {C : σ → α → Prop} (h : Reachable (L.restrict C) s) :
    Reachable L s := by
  induction h with
  | initial h => exact .initial h
  | step _ h ih => exact .step ih h.2

/-- The invariant rule for a system beside another party, of which some steps are left out. -/
theorem invariant_beside {β : Type*} {g : σ → β → σ} {C : σ → α → Prop} {E : β → Prop}
    (hi : ∀ s, L.Initial s → P s) (hs : ∀ s a t, P s → C s a → L.Tr s a t → P t)
    (hb : ∀ s b, P s → E b → P (g s b))
    (h : Reachable ((L.beside g).restrict fun s => Sum.elim (C s) E) s) : P s := by
  induction h with
  | initial h => exact hi _ h
  | @step s t x _ h ih =>
    obtain ⟨hc, hstep⟩ := h
    cases x with
    | inl a => exact hs s a t ih hc hstep
    | inr b => exact hstep ▸ hb s b ih hc

theorem reachable_beside {β : Type*} {g : σ → β → σ} {C : σ → α → Prop} {E : β → Prop}
    (h : Reachable (L.restrict C) s) :
    Reachable ((L.beside g).restrict fun s => Sum.elim (C s) E) s := by
  induction h with
  | initial h => exact .initial h
  | @step s t a _ h ih => exact .step (a := .inl a) ih h

theorem Reachable.ours {β : Type*} {g : σ → β → σ} (h : Reachable (L.beside g) s)
    (a : α) (hstep : L.Tr s a t) : Reachable (L.beside g) t :=
  .step (a := .inl a) h hstep

theorem Reachable.theirs {β : Type*} {g : σ → β → σ} (h : Reachable (L.beside g) s)
    (b : β) : Reachable (L.beside g) (g s b) :=
  .step (a := .inr b) h rfl

theorem trace_reachable (hs : Reachable L s) (h : Trace L s xs t) : Reachable L t := by
  induction h with
  | refl => exact hs
  | snoc _ h ih => exact .step ih h

theorem invariant_trace (hs : ∀ s a t, P s → L.Tr s a t → P t) (hp : P s)
    (h : Trace L s xs t) : P t := by
  induction h with
  | refl => exact hp
  | snoc _ h ih => exact hs _ _ _ ih h

theorem Trace.append (h : Trace L s xs t) (h' : Trace L t ys u) : Trace L s (xs ++ ys) u := by
  induction h' with
  | refl => simpa using h
  | snoc _ hstep ih => rw [← List.append_assoc]; exact .snoc ih hstep

theorem Trace.single (h : L.Tr s a t) : Trace L s [a] t := .snoc .refl h

theorem Trace.eq_of_nil (h : Trace L s [] t) : s = t := by
  generalize hzs : ([] : List α) = zs at h
  cases h with
  | refl => rfl
  | snoc => simp at hzs

theorem Trace.last (h : Trace L s (xs ++ [a]) u) : ∃ t, Trace L s xs t ∧ L.Tr t a u := by
  generalize hzs : xs ++ [a] = zs at h
  cases h with
  | refl => simp at hzs
  | snoc h hstep =>
    obtain ⟨rfl, rfl⟩ := List.append_singleton_inj.mp hzs
    exact ⟨_, h, hstep⟩

theorem Trace.split (h : Trace L s (xs ++ ys) u) : ∃ t, Trace L s xs t ∧ Trace L t ys u := by
  induction ys using List.reverseRecOn generalizing u with
  | nil => exact ⟨u, by simpa using h, .refl⟩
  | append_singleton ys a ih =>
    rw [← List.append_assoc] at h
    obtain ⟨v, hv, hstep⟩ := h.last
    obtain ⟨t, ht, hy⟩ := ih hv
    exact ⟨t, ht, .snoc hy hstep⟩

/-- A history is its first step and the rest. -/
theorem Trace.first (h : Trace L s (a :: xs) u) : ∃ t, L.Tr s a t ∧ Trace L t xs u := by
  have happ : Trace L s ([a] ++ xs) u := h
  obtain ⟨t, ht, hx⟩ := happ.split
  have hsingle : Trace L s ([] ++ [a]) t := ht
  obtain ⟨v, hv, hstep⟩ := hsingle.last
  exact ⟨t, hv.eq_of_nil ▸ hstep, hx⟩

/-- Somewhere on a history `P` holds. -/
def Passes (L : System σ α) (P : σ → Prop) (s : σ) (xs : List α) (t : σ) : Prop :=
  ∃ ys zs u, xs = ys ++ zs ∧ Trace L s ys u ∧ P u ∧ Trace L u zs t

theorem Passes.here (h : Trace L s xs t) (hp : P t) : Passes L P s xs t :=
  ⟨xs, [], t, (List.append_nil xs).symm, h, hp, .refl⟩

theorem Passes.snoc (h : Passes L P s xs t) (hs : L.Tr t a u) : Passes L P s (xs ++ [a]) u := by
  obtain ⟨ys, zs, v, rfl, hy, hp, hz⟩ := h
  exact ⟨ys, zs ++ [a], v, List.append_assoc ys zs [a], hy, hp, .snoc hz hs⟩

/-- The state a schedule leads to, for a scheduler whose every move names at most one step. -/
def schedule {μ : Type*} (next : σ → μ → Option σ) (s : σ) : List μ → Option σ
  | [] => some s
  | m :: ms => (next s m).bind fun t => schedule next t ms

theorem schedule_reachable {μ : Type*} {next : σ → μ → Option σ} {ms : List μ}
    (hn : ∀ s m t, next s m = some t → ∃ a, L.Tr s a t) (hs : Reachable L s)
    (h : schedule next s ms = some t) : Reachable L t := by
  induction ms generalizing s with
  | nil =>
    simp only [schedule, Option.some.injEq] at h
    exact h ▸ hs
  | cons m ms ih =>
    simp only [schedule, Option.bind_eq_some_iff] at h
    obtain ⟨u, hu, ht⟩ := h
    obtain ⟨a, ha⟩ := hn s m u hu
    exact ih (.step hs ha) ht

end Lts
