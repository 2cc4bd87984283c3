import Mathlib.Data.List.Nodup

/-! Singly linked lists threaded through an array of links. -/
namespace Chain

variable {next : List Nat} {nil h i v n : Nat} {xs ys : List Nat}

/-- The links lead from `h` through `xs`, in order, to `nil`. -/
def Linked (next : List Nat) (nil : Nat) : Nat → List Nat → Prop
  | h, [] => h = nil
  | h, x :: xs => h = x ∧ x ≠ nil ∧ ∃ n, next[x]? = some n ∧ Linked next nil n xs

theorem linked_mem (hl : Linked next nil h xs) (hi : i ∈ xs) : i ≠ nil ∧ i < next.length := by
  induction xs generalizing h with
  | nil => cases hi
  | cons x xs ih =>
    obtain ⟨-, hne, n, hn, hr⟩ := hl
    rcases List.mem_cons.mp hi with rfl | hi
    · exact ⟨hne, (List.getElem?_eq_some_iff.mp hn).1⟩
    · exact ih hr hi

theorem linked_nil_iff (hl : Linked next nil h xs) : xs = [] ↔ h = nil := by
  cases xs with
  | nil => simpa [Linked] using hl
  | cons x xs =>
    obtain ⟨rfl, hne, -⟩ := hl
    simp [hne]

/-- A chain that is not over starts with its head, and goes on from that node's link. -/
theorem linked_head (hl : Linked next nil h xs) (hne : h ≠ nil) :
    ∃ n ys, xs = h :: ys ∧ next[h]? = some n ∧ Linked next nil n ys := by
  cases xs with
  | nil => exact absurd hl hne
  | cons x xs =>
    obtain ⟨rfl, -, n, hn, hr⟩ := hl
    exact ⟨n, xs, rfl, hn, hr⟩

/-- The links of nodes outside the chain are free to change. -/
theorem linked_set (hl : Linked next nil h xs) (hi : i ∉ xs) :
    Linked (next.set i v) nil h xs := by
  induction xs generalizing h with
  | nil => exact hl
  | cons x xs ih =>
    obtain ⟨rfl, hne, n, hn, hr⟩ := hl
    simp only [List.mem_cons, not_or] at hi
    refine ⟨rfl, hne, n, ?_, ih hr hi.2⟩
    rw [List.getElem?_set_ne hi.1, hn]

theorem linked_cons (hl : Linked next nil h xs) (hi : i ≠ nil) (hn : next[i]? = some h) :
    Linked next nil i (i :: xs) :=
  ⟨rfl, hi, h, hn, hl⟩

end Chain
