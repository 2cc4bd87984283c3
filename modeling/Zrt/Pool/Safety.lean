import Mathlib.Tactic.Abel
import Zrt.Lane.Safety
import Zrt.Pool.Specification
import Zrt.Tally

/-! Every lane of a pool is in one place at a time, in any interleaving. -/
namespace Zrt.Pool

open Lane (Features Native ServingLane)
open Tally (Totals)

variable {ι : Type*} [DecidableEq ι] {f : Features} {lanes : List ServingLane} {s t : State ι}
  {i j : ι} {n : Native} {a : ι × Action ι} {k : Nat}

/-- The steps up to a mutex and behind it. -/
inductive Acquires : Pc → Pc → Prop where
  | lock (c : Call) : Acquires (.lock c) (.locked c)
  | woken : Acquires .woken (.locked .checkout)
  | lockReturn (m : Member) : Acquires (.lockReturn m) (.push m)

/-- Where `checkout` and `try_checkout` take a lane, and where they go on without. -/
inductive Takes : Pc → Pc → Prop where
  | tryCheckout : Takes (.locked .tryCheckout) (.unlock none)
  | checkout : Takes (.locked .checkout) .wait

/-- What a step inside a call does. -/
inductive Moves (f : Features) (s : State ι) (i : ι) (n : Native) : State ι → Prop where
  | acquire {pc : Pc} (hpc : Acquires (s.pc i) pc) (hl : s.lock = none) :
      Moves f s i n { s.goto i pc with lock := some i }
  | take {pc : Pc} {rest : List Member} {m : Member} (hpc : Takes (s.pc i) pc)
      (hm : s.pool.idle = rest ++ [m]) :
      Moves f s i n { s.goto i (.unlock (some m)) with pool := { s.pool with idle := rest } }
  | empty {pc : Pc} (hpc : Takes (s.pc i) pc) (hm : s.pool.idle = []) : Moves f s i n (s.goto i pc)
  | count (hpc : s.pc i = .locked .idleCount) : Moves f s i n (s.goto i (.unlock none))
  | park (hpc : s.pc i = .wait) : Moves f s i n { s.goto i .parked with lock := none }
  | finish {m : Member} (hpc : s.pc i = .finish m) :
      Moves f s i n
        (s.goto i (.lockReturn { m with lane := Lane.finishInFlightBestEffort f m.lane n }))
  | push {m : Member} (hpc : s.pc i = .push m) :
      Moves f s i n
        { s.goto i .notify with pool := { s.pool with idle := s.pool.idle ++ [m] } }
  | unlock {lane : Option Member} (hpc : s.pc i = .unlock lane) :
      Moves f s i n { s.goto i .idle with lock := none, held := lane.toList ++ s.held }

theorem moves_acquire {pc : Pc} (hpc : Acquires (s.pc i) pc) (h : s.acquire i pc = some t) :
    Moves f s i n t := by
  unfold State.acquire at h
  split at h
  · cases h
    exact .acquire hpc ‹_›
  · cases h

theorem moves_pop {pc : Pc} (hpc : Takes (s.pc i) pc)
    (h : s.pop i (fun m => .unlock (some m)) pc = t) : Moves f s i n t := by
  unfold State.pop at h
  split at h
  · rename_i m hm
    obtain ⟨rest, hrest⟩ := List.getLast?_eq_some_iff.mp hm
    rw [hrest, List.dropLast_concat] at h
    exact h ▸ .take hpc hrest
  · rename_i hm
    exact h ▸ .empty hpc (List.getLast?_eq_none_iff.mp hm)

theorem moves (h : s.advance f i n = some t) : Moves f s i n t := by
  unfold State.advance at h
  split at h
  case h_1 | h_7 | h_12 => cases h
  case h_2 c hpc => exact moves_acquire (hpc ▸ .lock c) h
  case h_3 hpc => exact moves_pop (hpc ▸ .tryCheckout) (Option.some.inj h)
  case h_4 hpc => exact moves_pop (hpc ▸ .checkout) (Option.some.inj h)
  case h_5 hpc => exact Option.some.inj h ▸ .count hpc
  case h_6 hpc => exact Option.some.inj h ▸ .park hpc
  case h_8 hpc => exact moves_acquire (hpc ▸ .woken) h
  case h_9 m hpc => exact Option.some.inj h ▸ .finish hpc
  case h_10 m hpc => exact moves_acquire (hpc ▸ .lockReturn m) h
  case h_11 m hpc => exact Option.some.inj h ▸ .push hpc
  case h_13 lane hpc => exact Option.some.inj h ▸ .unlock hpc

/-- The thread holds the mutex. -/
def Pc.Locks : Pc → Prop
  | .locked _ | .wait | .push _ | .notify | .unlock _ => True
  | _ => False

/-- The lane that a thread carries from the pool or back to it. -/
def Pc.carried : Pc → Multiset Nat
  | .unlock (some m) | .finish m | .lockReturn m | .push m => {m.number}
  | _ => 0

def numbers (ms : List Member) : Multiset Nat := (ms.map Member.number : List Nat)

/-- The mutex has one holder, and each of the `n` lanes is in one place: in the pool, in a guard, in
a forgotten one, or on its way. -/
structure Invariant (n : Nat) (s : State ι) : Prop where
  locked : ∀ i, (s.pc i).Locks ↔ s.lock = some i
  waits : ∀ i, s.pc i = .wait → s.pool.idle = []
  members : ∃ c, Totals Pc.carried s.pc c ∧
    numbers s.pool.idle + numbers s.held + numbers s.lost + c = Multiset.range n
  total : s.pool.total = n

theorem numbers_nil : numbers [] = 0 := rfl

theorem numbers_append (ms ms' : List Member) : numbers (ms ++ ms') = numbers ms + numbers ms' := by
  simp [numbers]

theorem numbers_cons (m : Member) (ms : List Member) :
    numbers (m :: ms) = {m.number} + numbers ms := by
  rw [numbers, List.map_cons, ← Multiset.cons_coe, ← Multiset.singleton_add]
  rfl

theorem numbers_set {ms : List Member} {k : Nat} {m : Member} (hk : ms[k]? = some m)
    (lane : ServingLane) : numbers (ms.set k { m with lane }) = numbers ms := by
  have hset : (ms.map Member.number).set k m.number = ms.map Member.number := by
    refine List.ext_getElem? fun j => ?_
    rw [List.getElem?_set]
    split
    · rename_i he
      subst he
      obtain ⟨hlt, hm⟩ := List.getElem?_eq_some_iff.mp hk
      simp [hlt, hm]
    · rfl
  rw [numbers, List.map_set, hset, numbers]

theorem numbers_eraseIdx {ms : List Member} {k : Nat} {m : Member} (hk : ms[k]? = some m) :
    numbers ms = {m.number} + numbers (ms.eraseIdx k) := by
  obtain ⟨hlt, rfl⟩ := List.getElem?_eq_some_iff.mp hk
  have hperm := List.getElem_cons_eraseIdx_perm hlt
  rw [← numbers_cons]
  exact Multiset.coe_eq_coe.mpr (hperm.symm.map Member.number)

theorem invariant_initial (h : (poolLts f lanes ι).Initial s) : Invariant lanes.length s := by
  obtain ⟨pool, hpool, rfl⟩ := h
  unfold fromLanes at hpool
  split at hpool
  · cases hpool
  · cases hpool
    refine ⟨fun i => ⟨False.elim, fun h => (by cases h)⟩, fun i h => (by cases h),
      ⟨0, Tally.totals_zero fun _ => rfl, ?_⟩, rfl⟩
    have hnumbers : (lanes.zipIdx.map fun p => (⟨p.2, p.1⟩ : Member)).map Member.number =
        List.range lanes.length := by
      simp [Function.comp_def, List.range_eq_range']
    rw [numbers, hnumbers]
    simp [numbers, Multiset.range]

section
variable {lock : Option ι} {pcs : ι → Pc} {pc : Pc}

theorem locked_same (h : ∀ j, (pcs j).Locks ↔ lock = some j)
    (hp : pc.Locks ↔ (pcs i).Locks) (j : ι) :
    (Function.update pcs i pc j).Locks ↔ lock = some j := by
  by_cases hj : j = i
  · subst hj
    rw [Function.update_self, hp, h]
  · rw [Function.update_of_ne hj, h]

theorem locked_acquire (h : ∀ j, (pcs j).Locks ↔ lock = some j) (hl : lock = none) (hp : pc.Locks)
    (j : ι) : (Function.update pcs i pc j).Locks ↔ some i = some j := by
  by_cases hj : j = i
  · subst hj
    simp [hp]
  · rw [Function.update_of_ne hj, h, hl]
    simp [Ne.symm hj]

theorem locked_release (h : ∀ j, (pcs j).Locks ↔ lock = some j) (hi : (pcs i).Locks)
    (hp : ¬ pc.Locks) (j : ι) : (Function.update pcs i pc j).Locks ↔ none = some j := by
  have hlock := (h i).mp hi
  by_cases hj : j = i
  · subst hj
    simp [hp]
  · rw [Function.update_of_ne hj, h, hlock]
    simp [Ne.symm hj]

end

theorem Acquires.locks {pc pc' : Pc} (h : Acquires pc pc') : pc'.Locks := by
  cases h <;> trivial

theorem Acquires.carried {pc pc' : Pc} (h : Acquires pc pc') : pc'.carried = pc.carried := by
  cases h <;> rfl

theorem Takes.locks {pc pc' : Pc} (h : Takes pc pc') : pc.Locks ∧ pc'.Locks := by
  cases h <;> exact ⟨trivial, trivial⟩

theorem Takes.carried {pc pc' : Pc} (h : Takes pc pc') : pc.carried = 0 ∧ pc'.carried = 0 := by
  cases h <;> exact ⟨rfl, rfl⟩

theorem locked_moves (h : Invariant k s) (hm : Moves f s i n t) (j : ι) :
    (t.pc j).Locks ↔ t.lock = some j := by
  cases hm with
  | acquire hpc hl => exact locked_acquire h.locked hl hpc.locks j
  | take hpc hidle =>
    refine locked_same h.locked ?_ j
    exact iff_of_true trivial hpc.locks.1
  | empty hpc hidle => exact locked_same h.locked (iff_of_true hpc.locks.2 hpc.locks.1) j
  | count hpc | push hpc | finish hpc =>
    refine locked_same h.locked ?_ j
    simp [hpc, Pc.Locks]
  | park hpc | unlock hpc =>
    refine locked_release h.locked ?_ ?_ j
    · simp [hpc, Pc.Locks]
    · simp [Pc.Locks]

/-- A thread that waits has kept the mutex since it found the pool empty. -/
theorem waits_update {pc : Pc} {idle : List Member} (h : Invariant k s)
    (hpc : pc = .wait → idle = [])
    (hidle : idle = s.pool.idle ∨ (s.pc i).Locks) (hj : Function.update s.pc i pc j = .wait) :
    idle = [] := by
  by_cases he : j = i
  · subst he
    exact hpc (by rwa [Function.update_self] at hj)
  · rw [Function.update_of_ne he] at hj
    rcases hidle with rfl | hlocks
    · exact h.waits j hj
    · have hlock := (h.locked i).mp hlocks
      have hlock' := (h.locked j).mp (hj ▸ trivial)
      exact absurd (Option.some.inj (hlock'.symm.trans hlock)) he

theorem waits_moves (h : Invariant k s) (hm : Moves f s i n t) (hj : t.pc j = .wait) :
    t.pool.idle = [] := by
  cases hm with
  | acquire hpc hl =>
    refine waits_update h ?_ (.inl rfl) hj
    generalize s.pc i = pc₀ at hpc
    cases hpc <;> exact fun hw => by cases hw
  | take hpc hidle => exact waits_update h (fun hw => by cases hw) (.inr hpc.locks.1) hj
  | empty hpc hidle => exact waits_update h (fun _ => hidle) (.inl rfl) hj
  | count | park | finish | unlock => exact waits_update h (fun hw => by cases hw) (.inl rfl) hj
  | push hpc => exact waits_update h (fun hw => by cases hw) (.inr (hpc ▸ trivial)) hj

/-- A lane changes hands: what the threads carry and what lies elsewhere stay the same together. -/
theorem members_moves (h : Invariant k s) (hm : Moves f s i n t) : ∃ c, Totals Pc.carried t.pc c ∧
    numbers t.pool.idle + numbers t.held + numbers t.lost + c = Multiset.range k := by
  obtain ⟨c, hc, hmem⟩ := h.members
  cases hm with
  | acquire hpc hl => exact ⟨c, hc.same hpc.carried, hmem⟩
  | @take pc rest m hpc hidle =>
    refine ⟨c + {m.number}, hc.update ?_, ?_⟩
    · rw [hpc.carried.1, add_zero]
      rfl
    · rw [← hmem, hidle, numbers_append, numbers_cons, numbers_nil, add_zero]
      simp only [State.goto_held, State.goto_lost]
      abel
  | empty hpc hidle => exact ⟨c, hc.same (hpc.carried.2.trans hpc.carried.1.symm), hmem⟩
  | count hpc | park hpc | finish hpc =>
    refine ⟨c, hc.same ?_, hmem⟩
    rw [hpc]
    rfl
  | @push m hpc =>
    obtain ⟨rest, rfl, hrest⟩ := hc.split i
    refine ⟨0 + rest, hrest .notify, ?_⟩
    rw [← hmem, hpc, numbers_append, numbers_cons, numbers_nil, add_zero, zero_add]
    simp only [Pc.carried, State.goto_held, State.goto_lost]
    abel
  | @unlock lane hpc =>
    obtain ⟨rest, rfl, hrest⟩ := hc.split i
    refine ⟨0 + rest, hrest .idle, ?_⟩
    have hlane : numbers lane.toList = Pc.carried (.unlock lane) := by
      cases lane with
      | none => rfl
      | some m => rfl
    rw [← hmem, hpc, numbers_append, hlane]
    simp only [State.goto_pool, State.goto_lost]
    abel

theorem invariant_moves (h : Invariant k s) (hm : Moves f s i n t) : Invariant k t := by
  refine ⟨locked_moves h hm, fun j => waits_moves h hm, members_moves h hm, ?_⟩
  cases hm <;> exact h.total

/-- A thread that moves on with neither the mutex nor a lane gained or given up. -/
theorem invariant_goto {pc : Pc} (h : Invariant k s) (hl : pc.Locks ↔ (s.pc i).Locks)
    (hc : pc.carried = (s.pc i).carried) (hw : pc ≠ .wait) : Invariant k (s.goto i pc) := by
  obtain ⟨c, hcarried, hmem⟩ := h.members
  exact ⟨locked_same h.locked hl, fun j => waits_update h (fun he => absurd he hw) (.inl rfl),
    ⟨c, hcarried.same hc, hmem⟩, h.total⟩

theorem invariant_step (h : Invariant k s) (hs : Step f s a t) : Invariant k t := by
  obtain ⟨c, hc, hmem⟩ := h.members
  cases hs with
  | call c hpc =>
    exact invariant_goto h (by simp [hpc, Pc.Locks])
      (by simp [hpc, Pc.carried]) (by simp)
  | use op n hpc hk hop =>
    exact ⟨h.locked, h.waits, ⟨c, hc, by rw [numbers_set hk]; exact hmem⟩, h.total⟩
  | @drop i k m hpc hk =>
    refine ⟨locked_same h.locked (by simp [hpc, Pc.Locks]),
      fun j => waits_update h (fun hw => by cases hw) (.inl rfl),
        ⟨c + {m.number}, hc.update ?_, ?_⟩, h.total⟩
    · rw [hpc]
      exact add_zero _
    · rw [← hmem, numbers_eraseIdx hk]
      simp only [State.goto_pool, State.goto_lost]
      abel
  | @forget i k m hpc hk =>
    refine ⟨h.locked, h.waits, ⟨c, hc, ?_⟩, h.total⟩
    rw [← hmem, numbers_eraseIdx hk, numbers_cons]
    abel
  | step hadv => exact invariant_moves h (moves hadv)
  | @notifyOne i j hpc hj =>
    have hne : i ≠ j := by
      rintro rfl
      rw [hpc] at hj
      cases hj
    have hi : (s.goto j .woken).pc i = .notify := by
      rw [State.goto_pc, Function.update_of_ne hne, hpc]
    have hwoken : Invariant k (s.goto j .woken) :=
      invariant_goto h (by simp [hj, Pc.Locks]) (by simp [hj, Pc.carried]) (by simp)
    exact invariant_goto hwoken (by simp [hi, Pc.Locks]) (by simp [hi, Pc.carried]) (by simp)
  | notifyNone hpc hj =>
    exact invariant_goto h (by simp [hpc, Pc.Locks]) (by simp [hpc, Pc.carried]) (by simp)
  | wake hpc =>
    exact invariant_goto h (by simp [hpc, Pc.Locks])
      (by simp [hpc, Pc.carried]) (by simp)

theorem invariant_reachable (h : Reachable f lanes s) : Invariant lanes.length s :=
  Lts.invariant_reachable (fun _ => invariant_initial) (fun _ _ _ => invariant_step) h

/-- No two threads are between a lock and its unlock, and every lane that the pool was built from is
in exactly one place: idle, in one guard, forgotten with its guard, or on its way with one
thread. -/
theorem lanes_in_one_place (h : Reachable f lanes s) :
    (∀ i j, (s.pc i).Locks → (s.pc j).Locks → i = j) ∧
    ∃ moving, Totals Pc.carried s.pc moving ∧
      numbers s.pool.idle + numbers s.held + numbers s.lost + moving =
        Multiset.range s.pool.total ∧
      s.pool.total = lanes.length := by
  have hi := invariant_reachable h
  refine ⟨?_, ?_⟩
  · intro i j hlocks hlocks'
    exact Option.some.inj (((hi.locked i).mp hlocks).symm.trans ((hi.locked j).mp hlocks'))
  · obtain ⟨moving, hmoving, hmem⟩ := hi.members
    exact ⟨moving, hmoving, hi.total ▸ hmem, hi.total⟩

/-- A pool of one lane, before any call. -/
def single : State Nat := ⟨⟨[⟨0, .new none⟩], 1⟩, none, fun _ => .idle, [], []⟩

theorem reachable_call (h : Reachable f lanes s) (i : ι) (c : Call) (hpc : s.pc i = .idle) :
    Reachable f lanes (s.goto i (.lock c)) := h.step (.call c hpc)

theorem reachable_advance (h : Reachable f lanes s) (i : ι) (n : Native)
    (ht : s.advance f i n = some t) : Reachable f lanes t := h.step (.step ht)

/-- Thread 0 holds the only lane, and thread 1 waits for it. -/
theorem single_parked (f : Features) : ∃ s : State Nat, Reachable f [.new none] s ∧
    s.held = [⟨0, .new none⟩] ∧ s.pc 1 = .parked ∧ ∀ i, s.pc i = .idle ∨ s.pc i = .parked := by
  have h₀ : Reachable f [.new none] single := .initial ⟨_, rfl, rfl⟩
  have h₁ := reachable_advance (reachable_call h₀ 0 .checkout rfl) 0 .success rfl
  have h₂ := reachable_advance (reachable_advance h₁ 0 .success rfl) 0 .success rfl
  have h₃ := reachable_advance (reachable_call h₂ 1 .checkout rfl) 1 .success rfl
  have h₄ := reachable_advance (reachable_advance h₃ 1 .success rfl) 1 .success rfl
  refine ⟨_, h₄, rfl, rfl, fun i => ?_⟩
  match i with
  | 0 => exact .inl rfl
  | 1 => exact .inr rfl
  | i + 2 => exact .inl rfl

theorem lanes_in_one_place_parked : ∃ s : State Nat, s.pc 1 = .parked ∧ ∃ moving,
    Totals Pc.carried s.pc moving ∧
    numbers s.pool.idle + numbers [⟨0, .new none⟩] + numbers s.lost + moving =
      Multiset.range s.pool.total := by
  obtain ⟨s, hs, hheld, hparked, -⟩ := single_parked ⟨true, true⟩
  obtain ⟨-, moving, hmoving, hmem, -⟩ := lanes_in_one_place hs
  exact ⟨s, hparked, moving, hmoving, hheld ▸ hmem⟩

end Zrt.Pool
