import Mathlib.Data.Finset.Basic

/-! Readers behind a release that stops new ones and waits for the old: what a lease is for. -/
namespace DrainLock

/-- The readers inside, and the thread whose release is in progress. -/
structure State (ι γ : Type*) where
  readers : Finset γ
  owner : Option ι

variable {ι γ : Type*} [DecidableEq γ] {s t : State ι γ} {i : ι}

inductive Step : State ι γ → State ι γ → Prop where
  | enter {s : State ι γ} (g : γ) (ho : s.owner = none) (hg : g ∉ s.readers) :
      Step s { s with readers := insert g s.readers }
  | announce {s : State ι γ} (i : ι) (ho : s.owner = none) : Step s { s with owner := some i }
  | leave {s : State ι γ} (g : γ) (hg : g ∈ s.readers) :
      Step s { s with readers := s.readers.erase g }
  | finish {s : State ι γ} (i : ι) (ho : s.owner = some i) (hr : s.readers = ∅) :
      Step s { s with owner := none }

/-- A step, or none. -/
def Steps (s t : State ι γ) : Prop := t = s ∨ Step s t

/-- A drained lock admits nobody while the release lasts, nor at its end. -/
theorem drained_steps (h : Steps s t) (ho : s.owner = some i) (hr : s.readers = ∅) :
    t.readers = ∅ := by
  obtain rfl | h := h
  · exact hr
  · cases h with
    | enter _ hn _ | announce _ hn => simp [hn] at ho
    | leave g hg => simp [hr] at hg
    | finish => exact hr

end DrainLock
