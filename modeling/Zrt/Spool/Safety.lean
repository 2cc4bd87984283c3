import Zrt.Spool.Specification

/-! Every file that a call holds is its own, and has the bytes that it was spooled from. -/
namespace Zrt.Spool

variable {Call Process Dir : Type}
  {W : Calls Call Process Dir} {s t : State Call Process Dir} {c : Call} {pc : Pc (Dir × String)}
  {p : Dir × String} {now : List UInt8} {a : Label Call Dir}

/-- What the directories have of the calls. -/
structure Intact (W : Calls Call Process Dir) (s : State Call Process Dir) : Prop where
  content : ∀ c p, (s.pc c).held = some p →
    ∃ now, s.files p = some now ∧ (s.pc c).Wrote (W.bytes c) now
  apart : ∀ c c' p, (s.pc c).held = some p → (s.pc c').held = some p → c = c'

theorem intact_initial (h : Initial s) : Intact W s where
  content c p hp := by
    rw [h.1 c] at hp
    cases hp
  apart c c' p hp _ := by
    rw [h.1 c] at hp
    cases hp

section
variable [DecidableEq Call]

/-- A call that goes on with the file it has, or without one. -/
theorem Intact.goto (h : Intact W s)
    (hheld : ∀ p, pc.held = some p → (s.pc c).held = some p)
    (hwrote : ∀ p now, pc.held = some p → (s.pc c).Wrote (W.bytes c) now →
      pc.Wrote (W.bytes c) now) :
    Intact W (s.goto c pc) := by
  have hback (c' : Call) (p : Dir × String) (hp : ((s.goto c pc).pc c').held = some p) :
      (s.pc c').held = some p := by
    by_cases hc : c' = c
    · subst hc
      rw [State.goto_pc, Function.update_self] at hp
      exact hheld p hp
    · rw [State.goto_pc, Function.update_of_ne hc] at hp
      exact hp
  constructor
  · intro c' p hp
    obtain ⟨now, hnow, hw⟩ := h.content c' p (hback c' p hp)
    refine ⟨now, hnow, ?_⟩
    by_cases hc : c' = c
    · subst hc
      rw [State.goto_pc, Function.update_self] at hp ⊢
      exact hwrote p now hp hw
    · rw [State.goto_pc, Function.update_of_ne hc]
      exact hw
  · intro c' c'' p hp hp'
    exact h.apart c' c'' p (hback c' p hp) (hback c'' p hp')

theorem Intact.keep (h : Intact W s) {pc' : Pc (Dir × String)} (hpc : s.pc c = pc')
    (hheld : pc.held = pc'.held)
    (hwrote : ∀ now, pc'.Wrote (W.bytes c) now → pc.Wrote (W.bytes c) now) :
    Intact W (s.goto c pc) := by
  subst hpc
  exact h.goto (fun p hp => hheld.symm.trans hp) fun p now _ => hwrote now

/-- A call that lets its file go. -/
theorem Intact.leave (h : Intact W s) (hpc : pc.held = none) : Intact W (s.goto c pc) := by
  apply h.goto
  · intro p hp
    rw [hpc] at hp
    cases hp
  · intro p now hp
    rw [hpc] at hp
    cases hp

end

section
variable [DecidableEq Dir]

/-- A file that no call holds changes. -/
theorem Intact.put (h : Intact W s) (hp : ∀ c, (s.pc c).held ≠ some p)
    (content : Option (List UInt8)) :
    Intact W (s.put p content) := by
  refine ⟨fun c q hq => ?_, h.apart⟩
  have hne : q ≠ p := fun he => hp c (he ▸ hq)
  rw [State.put_files, Function.update_of_ne hne]
  exact h.content c q hq

theorem Intact.remove (h : Intact W s) (hp : ∀ c, (s.pc c).held ≠ some p) (removed : Bool) :
    Intact W (s.remove p removed) := by
  unfold State.remove
  split
  · exact h.put hp none
  · exact h

end

section
variable [DecidableEq Call] [DecidableEq Dir]

/-- A call takes or extends a file that no other call holds. -/
theorem Intact.take (h : Intact W s) (hp : ∀ c', c' ≠ c → (s.pc c').held ≠ some p)
    (hheld : pc.held = some p) (hw : pc.Wrote (W.bytes c) now) :
    Intact W ((s.put p (some now)).goto c pc) := by
  constructor
  · intro c' q hq
    by_cases hc : c' = c
    · subst hc
      rw [State.goto_pc, Function.update_self] at hq ⊢
      obtain rfl : p = q := Option.some.inj (hheld.symm.trans hq)
      exact ⟨now, by simp, hw⟩
    · rw [State.goto_pc, Function.update_of_ne hc] at hq ⊢
      have hne : q ≠ p := fun he => hp c' hc (he ▸ hq)
      rw [State.goto_files, State.put_files, Function.update_of_ne hne]
      exact h.content c' q hq
  · intro c' c'' q hq hq'
    by_cases hc : c' = c <;> by_cases hc' : c'' = c
    · rw [hc, hc']
    · subst hc
      rw [State.goto_pc, Function.update_self] at hq
      rw [State.goto_pc, Function.update_of_ne hc'] at hq'
      obtain rfl : p = q := Option.some.inj (hheld.symm.trans hq)
      exact absurd hq' (hp c'' hc')
    · subst hc'
      rw [State.goto_pc, Function.update_of_ne hc] at hq
      rw [State.goto_pc, Function.update_self] at hq'
      obtain rfl : p = q := Option.some.inj (hheld.symm.trans hq')
      exact absurd hq (hp c' hc)
    · rw [State.goto_pc, Function.update_of_ne hc] at hq
      rw [State.goto_pc, Function.update_of_ne hc'] at hq'
      exact h.apart c' c'' q hq hq'

/-- What is done to its files after a call is ended. -/
theorem remove_goto (removed : Bool) :
    (s.remove p removed).goto c pc = (s.goto c pc).remove p removed := by
  cases removed <;> rfl

theorem Intact.close (h : Intact W s) (hp : (s.pc c).held = some p) (hpc : pc.held = none)
    (removed : Bool) : Intact W ((s.remove p removed).goto c pc) := by
  rw [remove_goto]
  refine (h.leave hpc).remove (fun c' hc' => ?_) removed
  by_cases hc : c' = c
  · subst hc
    rw [State.goto_pc, Function.update_self, hpc] at hc'
    cases hc'
  · rw [State.goto_pc, Function.update_of_ne hc] at hc'
    exact hc (h.apart c' c p hc' hp)

end

variable [DecidableEq Call] [DecidableEq Process] [DecidableEq Dir]

theorem intact_step (h : Step W s a t) (hs : Intact W s) : Intact W t := by
  cases h with
  | @start c h =>
    have hs' : Intact W (s.goto c (.trying attempts)) := hs.leave rfl
    exact ⟨hs'.content, hs'.apart⟩
  | create h hf =>
    refine hs.take (fun c' _ hc' => ?_) rfl (List.nil_append _)
    obtain ⟨now, hnow, -⟩ := hs.content c' _ hc'
    rw [hf] at hnow
    cases hnow
  | taken h hf => exact hs.leave rfl
  | refuse h => exact hs.leave rfl
  | exhaust h => exact hs.leave rfl
  | @write c p part rest h hpart =>
    have hheld : (s.pc c).held = some p := by rw [h]; rfl
    obtain ⟨now, hnow, hw⟩ := hs.content c p hheld
    rw [h] at hw
    rw [hnow]
    refine hs.take (fun c' hc hc' => hc (hs.apart c' c p hc' hheld)) rfl ?_
    exact (List.append_assoc now part rest).trans hw
  | failWrite h hrest => exact hs.keep h rfl fun now hw => ⟨_, hw⟩
  | finish h => exact hs.keep h rfl fun now hw => (List.append_nil now).symm.trans hw
  | giveUp h =>
    apply hs.close _ rfl
    rw [h]
    rfl
  | load h => exact hs.keep h rfl fun _ hw => hw
  | clone h => exact hs.keep h rfl fun _ hw => hw
  | drop h => exact hs.keep h rfl fun _ hw => hw
  | release h => exact hs.keep h rfl fun _ hw => hw
  | dropGuard h =>
    apply hs.close _ rfl
    rcases h with h | h <;>
    · rw [h]
      rfl
  | die h => exact hs.leave rfl
  | foreign h => exact hs.put h _

theorem intact_reachable (h : Lts.Reachable (system W) s) : Intact W s :=
  Lts.invariant_reachable (fun _ hi => intact_initial hi) (fun _ _ _ hs ht => intact_step ht hs) h

/-- The call has spooled its bytes, and nothing has let go of the file. -/
def Spooled (s : State Call Process Dir) (c : Call) (p : Dir × String) : Prop :=
  s.pc c = .guarded p ∨ (∃ owners, s.pc c = .native p owners) ∨ s.pc c = .closing p

/-- From the return of the call until the guard is dropped, and so as long as a session may read it,
the file holds the bytes of the call, and no two calls share one. -/
theorem spooled_bytes_intact (h : Lts.Reachable (system W) s) (hc : Spooled s c p) :
    s.files p = some (W.bytes c) ∧ ∀ c', (s.pc c').held = some p → c' = c := by
  have hs := intact_reachable h
  have hheld : (s.pc c).held = some p := by
    rcases hc with hc | ⟨owners, hc⟩ | hc <;>
    · rw [hc]
      rfl
  obtain ⟨now, hnow, hw⟩ := hs.content c p hheld
  refine ⟨?_, fun c' hc' => hs.apart c' c p hc' hheld⟩
  rw [hnow]
  congr 1
  rcases hc with hc | ⟨owners, hc⟩ | hc <;>
  · rw [hc] at hw
    exact hw

/-- Calls in two processes that share a number and a directory. -/
def sameNumber : Calls Bool Bool Unit :=
  ⟨id, fun _ => 7, fun _ => (), fun c => if c then [3] else [1, 2]⟩

/-- The second call finds its first name taken, and their writes alternate. -/
theorem spooled_bytes_intact_one : ∃ s, Lts.Reachable (system sameNumber) s ∧
    s.files ((), spoolName 7 0 5) = some [1, 2] ∧ s.files ((), spoolName 7 0 6) = some [3] ∧
    (s.pc true).held ≠ some ((), spoolName 7 0 5) := by
  have hname : spoolName 7 0 6 ≠ spoolName 7 0 5 := by decide
  let s₀ : State Bool Bool Unit := ⟨fun _ => none, fun _ => 0, fun _ => 0, fun _ => .idle⟩
  have h₀ : Lts.Reachable (system sameNumber) s₀ := .initial ⟨fun _ => rfl, fun _ => rfl⟩
  have h₁ := h₀.step (.start (c := false) rfl)
  have h₂ := h₁.step (.create rfl rfl : Step sameNumber _ (.attempt false 5) _)
  have h₃ := h₂.step (.start (c := true) rfl)
  have h₄ := h₃.step (.taken rfl (by decide) : Step sameNumber _ (.attempt true 5) _)
  have h₅ := h₄.step (.create rfl (by decide) : Step sameNumber _ (.attempt true 6) _)
  have h₆ := h₅.step (@Step.write _ _ _ sameNumber _ _ _ _ false _ [1] [2] rfl (by decide))
  have h₇ := h₆.step (@Step.write _ _ _ sameNumber _ _ _ _ true _ [3] [] rfl (by decide))
  have h₈ := h₇.step (@Step.write _ _ _ sameNumber _ _ _ _ false _ [2] [] rfl (by decide))
  have h₉ := h₈.step (.finish (c := false) rfl)
  have h := h₉.step (.finish (c := true) rfl)
  obtain ⟨hfirst, halone⟩ :=
    spooled_bytes_intact (c := false) (p := ((), spoolName 7 0 5)) h (.inl rfl)
  obtain ⟨hsecond, -⟩ := spooled_bytes_intact (c := true) (p := ((), spoolName 7 0 6)) h (.inl rfl)
  exact ⟨_, h, hfirst, hsecond, fun hheld => nomatch halone true hheld⟩

end Zrt.Spool
