import Mathlib.Data.List.Induction
import Mathlib.Data.List.Nodup

/-! Recency in a history of accesses, and clock stamps that order keys by it. -/
namespace Recency

variable {κ : Type*} [DecidableEq κ] {history : List κ} {stamps stamps' : List (κ × Nat)}
  {tick tick' : Nat} {a k k' : κ}

/-- The position, from 1 on, of the last access of a key; 0 for a key never accessed. -/
def lastAccess (history : List κ) (k : κ) : Nat := history.length - history.reverse.idxOf k

theorem lastAccess_append (history : List κ) (a k : κ) :
    lastAccess (history ++ [a]) k =
      if k = a then history.length + 1 else lastAccess history k := by
  rw [lastAccess, List.reverse_append, List.reverse_singleton, List.singleton_append,
    List.idxOf_cons, List.length_append, List.length_singleton]
  by_cases h : k = a
  · simp [h]
  · have hne : (a == k) = false := by simpa using Ne.symm h
    rw [hne, cond_false, if_neg h, Nat.add_sub_add_right, lastAccess]

theorem lastAccess_le : lastAccess history k ≤ history.length := Nat.sub_le _ _

/-- Two keys are last accessed at different times. -/
theorem lastAccess_inj (hk : k ∈ history) (hk' : k' ∈ history)
    (h : lastAccess history k = lastAccess history k') : k = k' := by
  have hlt : history.reverse.idxOf k < history.reverse.length :=
    List.idxOf_lt_length_of_mem (List.mem_reverse.mpr hk)
  have hlt' : history.reverse.idxOf k' < history.reverse.length :=
    List.idxOf_lt_length_of_mem (List.mem_reverse.mpr hk')
  rw [List.length_reverse] at hlt hlt'
  have heq : history.reverse.idxOf k = history.reverse.idxOf k' := by
    unfold lastAccess at h
    omega
  exact (List.idxOf_inj (List.mem_reverse.mpr hk)).mp heq

/-- The stamps of some accessed keys, none past the clock, order them by their last access. -/
structure Stamped (history : List κ) (tick : Nat) (stamps : List (κ × Nat)) : Prop where
  le : ∀ p ∈ stamps, p.2 ≤ tick
  accessed : ∀ p ∈ stamps, p.1 ∈ history
  order : ∀ p ∈ stamps, ∀ q ∈ stamps,
    p.2 < q.2 ↔ lastAccess history p.1 < lastAccess history q.1

namespace Stamped

theorem nil : Stamped history tick [] := ⟨by simp, by simp, by simp⟩

theorem subset (h : Stamped history tick stamps) (hs : stamps' ⊆ stamps) :
    Stamped history tick stamps' :=
  ⟨fun p hp => h.le p (hs hp), fun p hp => h.accessed p (hs hp),
    fun p hp q hq => h.order p (hs hp) q (hs hq)⟩

/-- After an access of `k` the stamps of the other keys stand, and that of `k`, if it has one, is a
new reading of the clock. -/
theorem access (h : Stamped history tick stamps) (hle : tick ≤ tick')
    (hs : ∀ p ∈ stamps', p = (k, tick') ∧ tick < tick' ∨ p ∈ stamps ∧ p.1 ≠ k) :
    Stamped (history ++ [k]) tick' stamps' := by
  refine ⟨?_, ?_, ?_⟩
  · intro p hp
    rcases hs p hp with ⟨rfl, -⟩ | ⟨hp, -⟩
    · exact Nat.le_refl _
    · exact Nat.le_trans (h.le p hp) hle
  · intro p hp
    rcases hs p hp with ⟨rfl, -⟩ | ⟨hp, -⟩
    · simp
    · exact List.mem_append_left _ (h.accessed p hp)
  · intro p hp q hq
    have hlast : ∀ x, lastAccess history x ≤ history.length := fun _ => lastAccess_le
    rw [lastAccess_append, lastAccess_append]
    rcases hs p hp with ⟨rfl, hlt⟩ | ⟨hp, hpk⟩ <;> rcases hs q hq with ⟨rfl, hlt'⟩ | ⟨hq, hqk⟩
    · simp
    · have hq' := h.le q hq
      have hlq := hlast q.1
      rw [if_pos rfl, if_neg hqk]
      constructor <;> intro _ <;> omega
    · have hp' := h.le p hp
      have hlp := hlast p.1
      rw [if_neg hpk, if_pos rfl]
      constructor <;> intro _ <;> omega
    · rw [if_neg hpk, if_neg hqk]
      exact h.order p hp q hq

/-- Among stamps of different keys the least is that of the key accessed longest ago. -/
theorem lt_of_le (h : Stamped history tick stamps) {p q : κ × Nat} (hp : p ∈ stamps)
    (hq : q ∈ stamps) (hne : p.1 ≠ q.1) (hle : p.2 ≤ q.2) :
    lastAccess history p.1 < lastAccess history q.1 := by
  rcases Nat.lt_or_ge p.2 q.2 with hlt | hge
  · exact (h.order p hp q hq).mp hlt
  · have hnot : ¬ q.2 < p.2 := Nat.not_lt.mpr hle
    have hnot' : ¬ p.2 < q.2 := Nat.not_lt.mpr hge
    rw [h.order q hq p hp] at hnot
    rw [h.order p hp q hq] at hnot'
    exact absurd (lastAccess_inj (h.accessed p hp) (h.accessed q hq) (by omega)) hne

/-- Different keys have different stamps. -/
theorem nodup (h : Stamped history tick stamps) (hk : (stamps.map Prod.fst).Nodup) :
    (stamps.map Prod.snd).Nodup := by
  rw [List.nodup_iff_pairwise_ne, List.pairwise_map] at hk ⊢
  refine hk.imp_of_mem ?_
  intro p q hp hq hne he
  have hlt := h.lt_of_le hp hq hne (Nat.le_of_eq he)
  exact absurd he (Nat.ne_of_lt ((h.order p hp q hq).mpr hlt))

end Stamped

end Recency
