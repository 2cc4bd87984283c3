import Zrt.Spool.Safety

/-! What the calls leave in the directories, and whose files an attempt meets. -/
namespace Zrt.Spool

variable {Call Process Dir : Type} {W : Calls Call Process Dir} {s t : State Call Process Dir}
  {c c' : Call} {pc : Pc (Dir × String)} {p : Dir × String}
  {files : Dir × String → Option (List UInt8)} {xs : List (Label Call Dir)} {a : Label Call Dir}

/-- No process dies in the step, and no removal fails. -/
def Label.Tidy : Label Call Dir → Prop
  | .giveUp _ removed | .dropGuard _ removed => removed = true
  | .die _ => False
  | _ => True

/-- The files of the calls stand beside those of the others. -/
structure Beside (files : Dir × String → Option (List UInt8))
    (s : State Call Process Dir) : Prop where
  held : ∀ c p, (s.pc c).held = some p → files p = none
  unheld : ∀ p, (∀ c, (s.pc c).held ≠ some p) → s.files p = files p

theorem Beside.foreign [DecidableEq Dir] (h : Beside files s) (hp : ∀ c, (s.pc c).held ≠ some p)
    (content : Option (List UInt8)) : Beside (Function.update files p content)
    (s.put p content) := by
  constructor
  · intro c q hq
    have hne : q ≠ p := fun he => hp c (he ▸ hq)
    rw [Function.update_of_ne hne]
    exact h.held c q hq
  · intro q hq
    by_cases hqp : q = p
    · subst hqp
      simp
    · rw [State.put_files, Function.update_of_ne hqp, Function.update_of_ne hqp]
      exact h.unheld q hq

section
variable [DecidableEq Call]

theorem Beside.goto (h : Beside files s) (hpc : pc.held = (s.pc c).held) :
    Beside files (s.goto c pc) := by
  have hsame (c' : Call) : ((s.goto c pc).pc c').held = (s.pc c').held := by
    by_cases hc : c' = c
    · subst hc
      rw [State.goto_pc, Function.update_self, hpc]
    · rw [State.goto_pc, Function.update_of_ne hc]
  exact ⟨fun c' p hp => h.held c' p (hsame c' ▸ hp), fun p hp => h.unheld p fun c' =>
    hsame c' ▸ hp c'⟩

variable [DecidableEq Dir]

/-- What the others do to their files. -/
def Label.outside (files : Dir × String → Option (List UInt8)) :
    Label Call Dir → Dir × String → Option (List UInt8)
  | .foreign p content => Function.update files p content
  | _ => files

theorem Beside.write (h : Beside files s) (hp : (s.pc c).held = some p) (hpc : pc.held = some p)
    (content : Option (List UInt8)) : Beside files ((s.put p content).goto c pc) := by
  refine Beside.goto ⟨h.held, fun q hq => ?_⟩ (hpc.trans hp.symm)
  have hne : q ≠ p := fun he => hq c (he ▸ hp)
  rw [State.put_files, Function.update_of_ne hne]
  exact h.unheld q hq

theorem Beside.take (h : Beside files s) (hfree : s.files p = none)
    (hnot : ∀ c, (s.pc c).held ≠ some p) (hnone : (s.pc c).held = none) (hpc : pc.held = some p)
    (content : Option (List UInt8)) : Beside files ((s.put p content).goto c pc) := by
  constructor
  · intro c' q hq
    by_cases hc : c' = c
    · subst hc
      rw [State.goto_pc, Function.update_self, hpc] at hq
      rw [← Option.some.inj hq, ← h.unheld p hnot, hfree]
    · rw [State.goto_pc, Function.update_of_ne hc] at hq
      exact h.held c' q hq
  · intro q hq
    have hne : q ≠ p := by
      intro he
      refine hq c ?_
      rw [State.goto_pc, Function.update_self, hpc, he]
    rw [State.goto_files, State.put_files, Function.update_of_ne hne]
    refine h.unheld q fun c' hc' => ?_
    by_cases hc : c' = c
    · rw [hc, hnone] at hc'
      cases hc'
    · refine hq c' ?_
      rw [State.goto_pc, Function.update_of_ne hc]
      exact hc'

theorem Beside.close (h : Beside files s) (hp : (s.pc c).held = some p) (hpc : pc.held = none) :
    Beside files ((s.put p none).goto c pc) := by
  constructor
  · intro c' q hq
    by_cases hc : c' = c
    · subst hc
      rw [State.goto_pc, Function.update_self, hpc] at hq
      cases hq
    · rw [State.goto_pc, Function.update_of_ne hc] at hq
      exact h.held c' q hq
  · intro q hq
    by_cases hqp : q = p
    · subst hqp
      rw [h.held c q hp]
      simp
    · rw [State.goto_files, State.put_files, Function.update_of_ne hqp]
      refine h.unheld q fun c' hc' => ?_
      by_cases hc : c' = c
      · subst hc
        exact hqp (Option.some.inj (hc'.symm.trans hp))
      · refine hq c' ?_
        rw [State.goto_pc, Function.update_of_ne hc]
        exact hc'

variable [DecidableEq Process]

theorem beside_step (h : Step W s a t) (ha : a.Tidy) (hs : Intact W s) (hb : Beside files s) :
    Beside (a.outside files) t := by
  cases h with
  | @start c h =>
    have hb' : Beside files (s.goto c (.trying attempts)) := hb.goto (by rw [h]; rfl)
    exact ⟨hb'.held, hb'.unheld⟩
  | create h hf =>
    refine hb.take hf (fun c' hc' => ?_) (by rw [h]; rfl) rfl _
    obtain ⟨now, hnow, -⟩ := hs.content c' _ hc'
    rw [hf] at hnow
    cases hnow
  | taken h hf => exact hb.goto (by rw [h]; rfl)
  | refuse h => exact hb.goto (by rw [h]; rfl)
  | exhaust h => exact hb.goto (by rw [h]; rfl)
  | write h hpart => exact hb.write (by rw [h]; rfl) rfl _
  | failWrite h hrest => exact hb.goto (by rw [h]; rfl)
  | finish h => exact hb.goto (by rw [h]; rfl)
  | giveUp h =>
    obtain rfl : _ = true := ha
    exact hb.close (by rw [h]; rfl) rfl
  | load h => exact hb.goto (by rw [h]; rfl)
  | clone h => exact hb.goto (by rw [h]; rfl)
  | drop h => exact hb.goto (by rw [h]; rfl)
  | release h => exact hb.goto (by rw [h]; rfl)
  | dropGuard h =>
    obtain rfl : _ = true := ha
    refine hb.close ?_ rfl
    rcases h with h | h <;>
    · rw [h]
      rfl
  | die h => exact ha.elim
  | foreign h => exact hb.foreign h _

/-- A file is one that a call holds, or what the others alone would have there: the calls change no
file of others, and leave none of their own. -/
theorem files_beside (h : Lts.Trace (system W) s xs t) (hi : Initial s) (htidy : ∀ a ∈ xs, a.Tidy) :
    Beside (xs.foldl Label.outside s.files) t := by
  induction h with
  | refl =>
    refine ⟨fun c p hp => ?_, fun p _ => rfl⟩
    rw [hi.1 c] at hp
    cases hp
  | @snoc u v ys a h hstep ih =>
    rw [List.foldl_append]
    have hu : Intact W u := intact_reachable (Lts.trace_reachable (.initial hi) h)
    exact beside_step hstep (htidy a (by simp)) hu
      (ih fun b hb => htidy b (List.mem_append_left _ hb))

/-- Once all is over, the directories are as the others alone would have left them. -/
theorem nothing_left (h : Lts.Trace (system W) s xs t) (hi : Initial s) (htidy : ∀ a ∈ xs, a.Tidy)
    (hend : ∀ c, (t.pc c).Ended) : t.files = xs.foldl Label.outside s.files := by
  funext p
  refine (files_beside h hi htidy).unheld p fun c hc => ?_
  have hc' := hend c
  revert hc hc'
  cases t.pc c <;> simp [Pc.held, Pc.Ended]

end

/-- One call, of two bytes. -/
def oneCall : Calls Unit Unit Unit := ⟨fun _ => (), fun _ => 7, fun _ => (), fun _ => [1, 2]⟩

theorem nothing_left_one : ∃ xs t, Lts.Trace (system oneCall)
    ⟨fun _ => none, fun _ => 0, fun _ => 0, fun _ => .idle⟩ xs t ∧ xs.length = 7 ∧
      t.files = fun _ => none := by
  let s₀ : State Unit Unit Unit := ⟨fun _ => none, fun _ => 0, fun _ => 0, fun _ => .idle⟩
  have h₀ : Lts.Trace (system oneCall) s₀ [] s₀ := .refl
  have h₁ := h₀.snoc (.start (c := ()) rfl)
  have h₂ := h₁.snoc (.create rfl rfl : Step oneCall _ (.attempt () 5) _)
  have h₃ := h₂.snoc (@Step.write _ _ _ oneCall _ _ _ _ () _ [1, 2] [] rfl (by decide))
  have h₄ := h₃.snoc (.finish (c := ()) rfl)
  have h₅ := h₄.snoc (.load (c := ()) rfl)
  have h₆ := h₅.snoc (.release (c := ()) rfl)
  have h₇ := h₆.snoc (.dropGuard (.inr rfl) : Step oneCall _ (.dropGuard () true) _)
  refine ⟨_, _, h₇, rfl, nothing_left h₇ ⟨fun _ => rfl, fun _ => rfl⟩ ?_ fun c => trivial⟩
  simp [Label.Tidy]

end Zrt.Spool
