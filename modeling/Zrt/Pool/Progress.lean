import Zrt.Pool.Safety

/-! No wakeup of a pool is lost, and its calls come to an end. -/
namespace Zrt.Pool

open Lane (Features Native ServingLane)
open Tally (Totals)

variable {ι : Type*} [DecidableEq ι] {f : Features} {lanes : List ServingLane} {s t : State ι}
  {i j : ι} {n : Native} {a : ι × Action ι} {pcs : ι → Pc} {pc : Pc} {k m : Nat}

/-- One for a thread that is on its way to the idle lanes, or that owes a wakeup. -/
def Pc.serving : Pc → Nat
  | .lock .idleCount | .locked .idleCount => 0
  | .lock _ | .locked _ | .woken | .notify => 1
  | _ => 0

/-- While a thread is parked, there is a serving thread for each of the `m` idle lanes. -/
def Served (m : Nat) (pcs : ι → Pc) : Prop :=
  ∃ k, Totals Pc.serving pcs k ∧ ∀ i, pcs i = .parked → m ≤ k

theorem parked_of_update (hpc : pc ≠ .parked) (h : Function.update pcs i pc j = .parked) :
    pcs j = .parked := by
  by_cases hj : j = i
  · subst hj
    rw [Function.update_self] at h
    exact absurd h hpc
  · rwa [Function.update_of_ne hj] at h

/-- A lane that is taken takes a serving thread along, and one that is returned brings one. -/
theorem Served.update (h : Served m pcs) (hpc : pc ≠ .parked)
    (hm : k + (pcs i).serving ≤ m + pc.serving) : Served k (Function.update pcs i pc) := by
  obtain ⟨c, hc, hparked⟩ := h
  obtain ⟨rest, rfl, hrest⟩ := hc.split i
  refine ⟨_, hrest pc, fun j hj => ?_⟩
  have hle := hparked j (parked_of_update hpc hj)
  omega

/-- An empty pool asks for no thread. -/
theorem Served.empty (h : Served m pcs) (i : ι) (pc : Pc) :
    Served 0 (Function.update pcs i pc) := by
  obtain ⟨c, hc, -⟩ := h
  obtain ⟨c', hc'⟩ := hc.exists_update i pc
  exact ⟨c', hc', fun _ _ => Nat.zero_le _⟩

theorem Served.unparked (h : Served m pcs) (hpc : pc ≠ .parked) (hp : ∀ j, pcs j ≠ .parked) :
    Served m (Function.update pcs i pc) := by
  obtain ⟨c, hc, -⟩ := h
  obtain ⟨c', hc'⟩ := hc.exists_update i pc
  exact ⟨c', hc', fun j hj => absurd (parked_of_update hpc hj) (hp j)⟩

theorem Acquires.serving {pc pc' : Pc} (h : Acquires pc pc') :
    pc' ≠ .parked ∧ pc.serving ≤ pc'.serving := by
  cases h with
  | lock c => exact ⟨by simp, by cases c <;> exact Nat.le_refl _⟩
  | woken | lockReturn => exact ⟨by simp, Nat.le_refl _⟩

theorem Takes.serving {pc pc' : Pc} (h : Takes pc pc') : pc.serving = 1 := by
  cases h <;> rfl

theorem served_moves (hi : Invariant k s) (h : Served s.pool.idle.length s.pc)
    (hm : Moves f s i n t) : Served t.pool.idle.length t.pc := by
  cases hm with
  | acquire hpc hl =>
    obtain ⟨hne, hle⟩ := hpc.serving
    exact h.update hne (by simpa using hle)
  | @take pc rest m hpc hidle =>
    refine h.update (by simp) ?_
    rw [hpc.serving, hidle, List.length_append]
    exact Nat.le_refl _
  | empty hpc hidle =>
    simp only [State.goto_pool, hidle]
    exact h.empty i _
  | park hpc =>
    simp only [State.goto_pool, hi.waits i hpc]
    exact h.empty i _
  | push hpc =>
    refine h.update (by simp) ?_
    rw [hpc, List.length_append]
    exact Nat.le_refl _
  | count hpc | finish hpc | unlock hpc =>
    refine h.update (by simp) ?_
    rw [hpc]
    exact Nat.le_refl _

theorem served_step (hi : Invariant k s) (h : Served s.pool.idle.length s.pc) (hs : Step f s a t) :
    Served t.pool.idle.length t.pc := by
  cases hs with
  | use | forget => exact h
  | step hadv => exact served_moves hi h (moves hadv)
  | @notifyOne i j hpc hj =>
    have hne : i ≠ j := by
      rintro rfl
      rw [hpc] at hj
      cases hj
    have hwoken : Served (s.pool.idle.length + 1) (Function.update s.pc j .woken) := by
      refine h.update (by simp) ?_
      rw [hj]
      exact Nat.le_refl _
    refine hwoken.update (by simp) ?_
    rw [Function.update_of_ne hne, hpc]
    exact Nat.le_refl _
  | notifyNone hpc hj => exact h.unparked (by simp) hj
  | call c hpc | wake hpc =>
    refine h.update (by simp) ?_
    rw [hpc]
    exact Nat.add_le_add_left (Nat.zero_le _) _
  | drop hpc hk =>
    refine h.update (by simp) ?_
    rw [hpc]
    exact Nat.le_refl _

theorem served_reachable (h : Reachable f lanes s) : Served s.pool.idle.length s.pc := by
  induction h with
  | initial h =>
    obtain ⟨pool, -, rfl⟩ := h
    exact ⟨0, Tally.totals_zero fun _ => rfl, fun i hi => by cases hi⟩
  | step hr hs ih => exact served_step (invariant_reachable hr) ih hs

/-- A bound on the steps that a thread takes before it is out of its call or parked, those of the
thread that it wakes included. -/
def Pc.left : Pc → Nat
  | .idle | .parked => 0
  | .wait | .unlock _ => 1
  | .locked _ => 2
  | .lock _ | .woken => 3
  | .notify => 5
  | .push _ => 6
  | .lockReturn _ => 7
  | .finish _ => 8

/-- The steps of calls that are under way, without spurious wakeups. -/
def Action.Internal : Action ι → Prop
  | .step _ | .notify _ => True
  | _ => False

theorem left_exists (h : Reachable f lanes s) : ∃ m, Totals Pc.left s.pc m := by
  induction h with
  | initial h =>
    obtain ⟨pool, -, rfl⟩ := h
    exact ⟨0, Tally.totals_zero fun _ => rfl⟩
  | step hr hs ih =>
    obtain ⟨m, hm⟩ := ih
    cases hs with
    | use | forget => exact ⟨m, hm⟩
    | call | drop | notifyNone | wake => exact hm.exists_update _ _
    | notifyOne =>
      obtain ⟨m', hm'⟩ := hm.exists_update _ _
      exact hm'.exists_update _ _
    | step hadv => cases moves hadv <;> exact hm.exists_update _ _

theorem left_update (h : Totals Pc.left pcs m) (hlt : pc.left < (pcs i).left) :
    ∃ k < m, Totals Pc.left (Function.update pcs i pc) k := by
  obtain ⟨rest, rfl, hrest⟩ := h.split i
  exact ⟨_, Nat.add_lt_add_right hlt rest, hrest pc⟩

theorem Acquires.left {pc pc' : Pc} (h : Acquires pc pc') : pc'.left < pc.left := by
  cases h <;> simp [Pc.left]

theorem Takes.left {pc pc' : Pc} (h : Takes pc pc') : pc.left = 2 ∧ pc'.left = 1 := by
  cases h <;> exact ⟨rfl, rfl⟩

theorem left_moves (h : Totals Pc.left s.pc m) (hm : Moves f s i n t) :
    ∃ k < m, Totals Pc.left t.pc k := by
  cases hm with
  | acquire hpc hl => exact left_update h hpc.left
  | take hpc hidle =>
    refine left_update h ?_
    rw [hpc.left.1]
    exact Nat.one_lt_two
  | empty hpc hidle =>
    refine left_update h ?_
    rw [hpc.left.1, hpc.left.2]
    exact Nat.one_lt_two
  | count hpc | park hpc | finish hpc | push hpc | unlock hpc =>
    refine left_update h ?_
    simp [hpc, Pc.left]

theorem left_step (h : Totals Pc.left s.pc m) (hs : Step f s a t) (ha : a.2.Internal) :
    ∃ k < m, Totals Pc.left t.pc k := by
  cases hs with
  | call | use | drop | forget | wake => exact ha.elim
  | step hadv => exact left_moves h (moves hadv)
  | @notifyOne i j hpc hj =>
    have hne : i ≠ j := by
      rintro rfl
      rw [hpc] at hj
      cases hj
    have hwoken : Totals Pc.left (Function.update s.pc j .woken) (m + 3) :=
      h.update (by rw [hj]; rfl)
    obtain ⟨rest, hm, hrest⟩ := hwoken.split i
    rw [Function.update_of_ne hne, hpc] at hm
    have hfive : Pc.notify.left = 5 := rfl
    refine ⟨(Pc.unlock none).left + rest, ?_, hrest _⟩
    have hone : (Pc.unlock none).left = 1 := rfl
    omega
  | notifyNone hpc hj =>
    refine left_update h ?_
    simp [hpc, Pc.left]

theorem left_trace {xs : List (ι × Action ι)} (h : Totals Pc.left s.pc m)
    (ht : Lts.Trace (poolLts f lanes ι) s xs t) (hx : ∀ a ∈ xs, a.2.Internal) :
    ∃ k, k + xs.length ≤ m ∧ Totals Pc.left t.pc k := by
  induction ht with
  | refl => exact ⟨m, Nat.le_refl m, h⟩
  | @snoc t u xs a _ hs ih =>
    obtain ⟨k, hle, hk⟩ := ih fun b hb => hx b (List.mem_append_left _ hb)
    obtain ⟨k', hlt, hk'⟩ :=
      left_step hk hs (hx a (List.mem_append_right _ (List.mem_singleton_self a)))
    refine ⟨k', ?_, hk'⟩
    rw [List.length_append, List.length_singleton]
    omega

theorem advances (i : ι) (h : (s.advance f i .success).isSome) :
    ∃ a t, a.2.Internal ∧ Step f s a t := by
  obtain ⟨t, ht⟩ := Option.isSome_iff_exists.mp h
  exact ⟨(i, .step .success), t, trivial, .step ht⟩

/-- The holder of the mutex can go on. -/
theorem holder_advances (hl : (s.pc i).Locks) : ∃ a t, a.2.Internal ∧ Step f s a t := by
  cases hpc : s.pc i with
  | notify =>
    by_cases hp : ∃ j, s.pc j = .parked
    · obtain ⟨j, hj⟩ := hp
      exact ⟨(i, .notify (some j)), _, trivial, .notifyOne hpc hj⟩
    · exact ⟨(i, .notify none), _, trivial, .notifyNone hpc fun j hj => hp ⟨j, hj⟩⟩
  | locked c => cases c <;> exact advances i (by simp [State.advance, hpc])
  | wait | push | unlock => exact advances i (by simp [State.advance, hpc])
  | _ => simp [hpc, Pc.Locks] at hl

/-- Where nobody holds the mutex, whoever is in a call and not parked can go on. -/
theorem free_advances (hl : s.lock = none) (hidle : s.pc i ≠ .idle) (hparked : s.pc i ≠ .parked)
    (hn : ¬ (s.pc i).Locks) : ∃ a t, a.2.Internal ∧ Step f s a t := by
  cases hpc : s.pc i with
  | idle => exact absurd hpc hidle
  | parked => exact absurd hpc hparked
  | lock | woken | lockReturn => exact advances i (by simp [State.advance, hpc, State.acquire, hl])
  | finish m => exact advances i (by simp [State.advance, hpc])
  | _ => simp [hpc, Pc.Locks] at hn

theorem call_advances (h : Invariant k s) (hidle : s.pc i ≠ .idle) (hparked : s.pc i ≠ .parked) :
    ∃ a t, a.2.Internal ∧ Step f s a t := by
  cases hl : s.lock with
  | some j => exact holder_advances ((h.locked j).mpr hl)
  | none =>
    refine free_advances hl hidle hparked fun hlocks => ?_
    have hlock := (h.locked i).mp hlocks
    rw [hl] at hlock
    cases hlock

/-- The calls under way come to an end, whatever the order of their steps: their steps are bounded,
there is one while any thread is inside a call and not parked, and once there is none, a thread is
parked only if every lane is in a guard or was forgotten with one. -/
theorem calls_end (h : Reachable f lanes s) :
    (∃ bound, ∀ xs t, Lts.Trace (poolLts f lanes ι) s xs t → (∀ a ∈ xs, a.2.Internal) →
      xs.length ≤ bound) ∧
    (∀ i, s.pc i ≠ .idle → s.pc i ≠ .parked → ∃ a t, a.2.Internal ∧ Step f s a t) ∧
    ((∀ i, s.pc i = .idle ∨ s.pc i = .parked) → (∃ i, s.pc i = .parked) →
      s.pool.idle = [] ∧ s.held.length + s.lost.length = lanes.length) := by
  have hi := invariant_reachable h
  refine ⟨?_, fun i => call_advances hi, ?_⟩
  · obtain ⟨m, hm⟩ := left_exists h
    refine ⟨m, fun xs t ht hx => ?_⟩
    obtain ⟨k, hle, -⟩ := left_trace hm ht hx
    exact Nat.le_trans (Nat.le_add_left _ _) hle
  · rintro hall ⟨i, hparked⟩
    obtain ⟨k, hk, hserved⟩ := served_reachable h
    have hk0 : k = 0 := hk.eq_zero fun j => by rcases hall j with hj | hj <;> rw [hj] <;> rfl
    have hidle : s.pool.idle = [] := by
      have hle := hserved i hparked
      rw [hk0] at hle
      exact List.length_eq_zero_iff.mp (Nat.le_zero.mp hle)
    obtain ⟨c, hc, hmem⟩ := hi.members
    have hc0 : c = 0 := hc.eq_zero fun j => by rcases hall j with hj | hj <;> rw [hj] <;> rfl
    refine ⟨hidle, ?_⟩
    have hcard := congrArg Multiset.card hmem
    simpa [hidle, hc0, numbers] using hcard

/-- Nobody is inside a call but thread 1, which is parked while the only lane is in a guard. -/
theorem calls_end_parked : ∃ s : State Nat, s.pc 1 = .parked ∧ s.pool.idle = [] ∧
    s.held.length + s.lost.length = 1 := by
  obtain ⟨s, hs, -, hparked, hall⟩ := single_parked ⟨true, true⟩
  exact ⟨s, hparked, (calls_end hs).2.2 hall ⟨1, hparked⟩⟩

end Zrt.Pool
