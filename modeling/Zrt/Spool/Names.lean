import Std.Data.String.ToNat
import Zrt.Spool.Litter

/-! Whose files an attempt at a name meets. -/
namespace Zrt.Spool

variable {Call Process Dir : Type} {W : Calls Call Process Dir} {s t : State Call Process Dir}
  {c c' : Call} {pc : Pc (Dir × String)} {p : Dir × String} {xs : List (Label Call Dir)}
  {a : Label Call Dir} {m n : Nat}

theorem dash_not_mem_repr (n : Nat) : '-' ∉ n.repr.toList := by
  intro h
  rw [Nat.toList_repr] at h
  have hdigit := Nat.isDigit_of_mem_toDigits (by decide) (by decide) h
  simp at hdigit

/-- A number ends where the next dash stands. -/
theorem repr_dash {x y : List Char} (h : m.repr.toList ++ '-' :: x = n.repr.toList ++ '-' :: y) :
    m = n ∧ x = y := by
  have htake (k : Nat) (z : List Char) :
      (k.repr.toList ++ '-' :: z).takeWhile (· ≠ '-') = k.repr.toList := by
    rw [List.takeWhile_append_of_pos]
    · simp
    · intro c hc
      have hne : c ≠ '-' := by
        rintro rfl
        exact dash_not_mem_repr k hc
      simpa using hne
  have hrepr := congrArg (List.takeWhile (· ≠ '-')) h
  rw [htake, htake] at hrepr
  obtain rfl := Nat.repr_inj.mp (String.toList_inj.mp hrepr)
  exact ⟨rfl, (List.cons.inj (List.append_cancel_left h)).2⟩

theorem spoolName_inj {pid seq nanos pid' seq' nanos' : Nat}
    (h : spoolName pid seq nanos = spoolName pid' seq' nanos') : pid = pid' ∧ seq = seq' := by
  have hl := congrArg String.toList h
  have hdash : "-".toList = ['-'] := by decide
  unfold spoolName at hl
  simp only [String.toList_append, List.append_assoc, hdash] at hl
  have hpid := repr_dash (List.append_cancel_left hl)
  exact ⟨hpid.1, (repr_dash hpid.2).1⟩

/-- The calls of a process have numbers of their own, and name their files by them. -/
structure Numbered (W : Calls Call Process Dir) (s : State Call Process Dir) : Prop where
  below : ∀ c, s.pc c ≠ .idle → s.seq c < s.counter (W.process c)
  apart : ∀ c c', s.pc c ≠ .idle → s.pc c' ≠ .idle → W.process c = W.process c' →
    s.seq c = s.seq c' → c = c'
  named : ∀ c p, (s.pc c).held = some p → ∃ nanos, p = path W s c nanos

theorem numbered_initial (h : Initial s) : Numbered W s where
  below c hc := absurd (h.1 c) hc
  apart c _ hc := absurd (h.1 c) hc
  named c p hp := by
    rw [h.1 c] at hp
    cases hp

theorem Numbered.remove [DecidableEq Dir] (h : Numbered W s) (p : Dir × String) (removed : Bool) :
    Numbered W (s.remove p removed) := by
  unfold State.remove
  split
  · exact ⟨h.below, h.apart, h.named⟩
  · exact h

variable [DecidableEq Call]

theorem Numbered.goto (h : Numbered W s) (hc : s.pc c ≠ .idle)
    (hnamed : ∀ p, pc.held = some p → ∃ nanos, p = path W s c nanos) :
    Numbered W (s.goto c pc) := by
  have hback (c' : Call) (hc' : (s.goto c pc).pc c' ≠ .idle) : s.pc c' ≠ .idle := by
    by_cases he : c' = c
    · subst he
      exact hc
    · rw [State.goto_pc, Function.update_of_ne he] at hc'
      exact hc'
  refine ⟨fun c' hc' => h.below c' (hback c' hc'), fun c' c'' hc' hc'' =>
    h.apart c' c'' (hback c' hc') (hback c'' hc''), fun c' p hp => ?_⟩
  by_cases he : c' = c
  · subst he
    rw [State.goto_pc, Function.update_self] at hp
    exact hnamed p hp
  · rw [State.goto_pc, Function.update_of_ne he] at hp
    exact h.named c' p hp

/-- A call that goes on with the file it has, or without one. -/
theorem Numbered.keep (h : Numbered W s) {pc' : Pc (Dir × String)} (hpc : s.pc c = pc')
    (hc : pc' ≠ .idle) (hheld : pc.held = pc'.held ∨ pc.held = none) :
    Numbered W (s.goto c pc) := by
  subst hpc
  refine h.goto hc fun p hp => ?_
  rcases hheld with hheld | hheld
  · exact h.named c p (hheld.symm.trans hp)
  · rw [hheld] at hp
    cases hp

variable [DecidableEq Process]

theorem numbered_start (h : Numbered W s) (hc : s.pc c = .idle) :
    Numbered W { s.goto c (.trying attempts) with
      counter := Function.update s.counter (W.process c) (s.counter (W.process c) + 1)
      seq := Function.update s.seq c (s.counter (W.process c)) } := by
  have hother (c' : Call) (he : c' ≠ c) :
      (s.goto c (.trying attempts)).pc c' = s.pc c' := by
    rw [State.goto_pc, Function.update_of_ne he]
  constructor
  · intro c' hc'
    dsimp only
    by_cases he : c' = c
    · subst he
      rw [Function.update_self, Function.update_self]
      exact Nat.lt_succ_self _
    · have hlt := h.below c' (hother c' he ▸ hc')
      rw [Function.update_of_ne he, Function.update_apply]
      split
      next hp => exact Nat.lt_succ_of_lt (hp ▸ hlt)
      next => exact hlt
  · intro c' c'' hc' hc'' hp hseq
    dsimp only at hseq
    by_cases he : c' = c <;> by_cases he' : c'' = c
    · rw [he, he']
    · subst he
      rw [Function.update_self, Function.update_of_ne he'] at hseq
      have hlt := h.below c'' (hother c'' he' ▸ hc'')
      rw [← hp, hseq] at hlt
      exact absurd hlt (Nat.lt_irrefl _)
    · subst he'
      rw [Function.update_self, Function.update_of_ne he] at hseq
      have hlt := h.below c' (hother c' he ▸ hc')
      rw [hp, hseq] at hlt
      exact absurd hlt (Nat.lt_irrefl _)
    · rw [Function.update_of_ne he, Function.update_of_ne he'] at hseq
      exact h.apart c' c'' (hother c' he ▸ hc') (hother c'' he' ▸ hc'') hp hseq
  · intro c' p hp
    by_cases he : c' = c
    · subst he
      have hnone : ((s.goto c' (.trying attempts)).pc c').held = none := by
        rw [State.goto_pc, Function.update_self]
        rfl
      rw [hnone] at hp
      cases hp
    · rw [hother c' he] at hp
      obtain ⟨nanos, hnanos⟩ := h.named c' p hp
      refine ⟨nanos, hnanos.trans ?_⟩
      unfold path
      dsimp only
      rw [Function.update_of_ne he]

variable [DecidableEq Dir]

theorem numbered_step (h : Step W s a t) (hs : Numbered W s) : Numbered W t := by
  cases h with
  | start h => exact numbered_start hs h
  | @create c left nanos h hf =>
    have hs' : Numbered W (s.put (path W s c nanos) (some [])) := ⟨hs.below, hs.apart, hs.named⟩
    refine hs'.goto (by rw [State.put_pc, h]; simp) fun p hp => ⟨nanos, ?_⟩
    exact (Option.some.inj hp).symm
  | taken h hf => exact hs.keep h (by simp) (.inl rfl)
  | refuse h => exact hs.keep h (by simp) (.inl rfl)
  | exhaust h => exact hs.keep h (by simp) (.inl rfl)
  | @write c p part rest h hpart =>
    have hs' : Numbered W (s.put p ((s.files p).map (· ++ part))) := ⟨hs.below, hs.apart, hs.named⟩
    exact hs'.keep h (by simp) (.inl rfl)
  | failWrite h hrest => exact hs.keep h (by simp) (.inl rfl)
  | finish h => exact hs.keep h (by simp) (.inl rfl)
  | giveUp h =>
    rw [remove_goto]
    exact (hs.keep h (by simp) (.inr rfl)).remove _ _
  | load h => exact hs.keep h (by simp) (.inl rfl)
  | clone h => exact hs.keep h (by simp) (.inl rfl)
  | drop h => exact hs.keep h (by simp) (.inl rfl)
  | release h => exact hs.keep h (by simp) (.inl rfl)
  | dropGuard h =>
    rw [remove_goto]
    rcases h with h | h
    · exact (hs.keep h (by simp) (.inr rfl)).remove _ _
    · exact (hs.keep h (by simp) (.inr rfl)).remove _ _
  | die h => exact hs.goto h fun p hp => by cases hp
  | foreign h => exact ⟨hs.below, hs.apart, hs.named⟩

theorem numbered_reachable (h : Lts.Reachable (system W) s) : Numbered W s :=
  Lts.invariant_reachable (fun _ hi => numbered_initial hi) (fun _ _ _ hs ht =>
    numbered_step ht hs) h

/-- Before a process has made 2^64 calls, an attempt finds a name taken only by a file of others, or
by that of a call in another process with the same number. -/
theorem taken_by_others (h : Lts.Trace (system W) s xs t) (hi : Initial s)
    (htidy : ∀ a ∈ xs, a.Tidy) (hcount : t.counter (W.process c) ≤ 2 ^ 64) {left nanos : Nat}
    (hc : t.pc c = .trying left) (hf : t.files (path W t c nanos) ≠ none) :
    xs.foldl Label.outside s.files (path W t c nanos) ≠ none ∨
      ∃ c', (t.pc c').held = some (path W t c nanos) ∧ W.process c' ≠ W.process c ∧
        W.pid (W.process c') = W.pid (W.process c) := by
  have hbeside := files_beside h hi htidy
  have hnum : Numbered W t := numbered_reachable (Lts.trace_reachable (.initial hi) h)
  by_cases hheld : ∃ c', (t.pc c').held = some (path W t c nanos)
  · right
    obtain ⟨c', hc'⟩ := hheld
    obtain ⟨nanos', hname⟩ := hnum.named c' _ hc'
    obtain ⟨hpid, hseq⟩ := spoolName_inj (Prod.mk.inj hname).2
    refine ⟨c', hc', fun hsame => ?_, hpid.symm⟩
    have hidle : t.pc c ≠ .idle := by
      rw [hc]
      simp
    have hidle' : t.pc c' ≠ .idle := by
      intro he
      rw [he] at hc'
      cases hc'
    have hlt := Nat.lt_of_lt_of_le (hnum.below c hidle) hcount
    have hlt' := Nat.lt_of_lt_of_le (hsame ▸ hnum.below c' hidle') hcount
    rw [Nat.mod_eq_of_lt hlt, Nat.mod_eq_of_lt hlt'] at hseq
    obtain rfl := hnum.apart c c' hidle hidle' hsame.symm hseq
    rw [hc] at hc'
    cases hc'
  · left
    rw [← hbeside.unheld _ fun c' hc' => hheld ⟨c', hc'⟩]
    exact hf

theorem taken_by_others_same : ∃ xs t, Lts.Trace (system sameNumber)
    ⟨fun _ => none, fun _ => 0, fun _ => 0, fun _ => .idle⟩ xs t ∧
      ∃ c', (t.pc c').held = some ((), spoolName 7 0 5) ∧ c' ≠ true := by
  let s₀ : State Bool Bool Unit := ⟨fun _ => none, fun _ => 0, fun _ => 0, fun _ => .idle⟩
  have h₀ : Lts.Trace (system sameNumber) s₀ [] s₀ := .refl
  have h₁ := h₀.snoc (.start (c := false) rfl)
  have h₂ := h₁.snoc (.create rfl rfl : Step sameNumber _ (.attempt false 5) _)
  have h₃ := h₂.snoc (.start (c := true) rfl)
  refine ⟨_, _, h₃, ?_⟩
  have h :=
    @taken_by_others _ _ _ _ _ _ true _ _ _ _ h₃ ⟨fun _ => rfl, fun _ => rfl⟩ ?_ ?_ 32 5 rfl ?_
  · rcases h with h | ⟨c', hc', hne, -⟩
    · exact absurd rfl h
    · exact ⟨c', hc', hne⟩
  · simp [Label.Tidy]
  · decide
  · decide

end Zrt.Spool
