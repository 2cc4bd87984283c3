import Mathlib.Algebra.BigOperators.Group.Multiset.Basic
import Mathlib.Algebra.GroupWithZero.Nat
import Mathlib.Logic.Relation

/-! Objects behind counted references, and the order in which dropping them releases resources. -/
namespace Teardown

/-- One thing that dropping a value does. -/
inductive Action (ρ : Type*) where
  | release (r : ρ)
  | unref (i : Nat)
deriving DecidableEq

/-- An object behind counted references; the body is what dropping the object does. -/
structure Shared (ρ : Type*) where
  count : Nat
  body : List (Action ρ)

/-- The shared objects by their number, the values that are held and those being dropped (each one
as what is still to do), the resources in the order of their release (the last one first), all that
were made, and which of them (first) must go before which. -/
structure Heap (ρ : Type*) where
  shared : List (Shared ρ)
  held : Multiset (List (Action ρ))
  dropping : Multiset (List (Action ρ))
  released : List ρ
  made : List ρ
  kept : List (ρ × ρ)

/-- What a value is put together from: a new resource, a new reference, a value that moves in. -/
inductive Piece (ρ : Type*) where
  | fresh (r : ρ)
  | ref (i : Nat)
  | value (v : List (Action ρ))

variable {ρ : Type*}

def releases (rs : List ρ) : List (Action ρ) := rs.map .release

def unrefs (is : List Nat) : List (Action ρ) := is.map .unref

/-- A value drops its parts in their order. -/
def glue : List (Piece ρ) → List (Action ρ)
  | [] => []
  | .fresh r :: parts => .release r :: glue parts
  | .ref i :: parts => .unref i :: glue parts
  | .value v :: parts => v ++ glue parts

def fresh : List (Piece ρ) → List ρ
  | [] => []
  | .fresh r :: parts => r :: fresh parts
  | _ :: parts => fresh parts

def refs : List (Piece ρ) → List Nat
  | [] => []
  | .ref i :: parts => i :: refs parts
  | _ :: parts => refs parts

def values : List (Piece ρ) → List (List (Action ρ))
  | [] => []
  | .value v :: parts => v :: values parts
  | _ :: parts => values parts

namespace Heap

def empty : Heap ρ := ⟨[], 0, 0, [], [], []⟩

def count (h : Heap ρ) (i : Nat) : Nat := ((h.shared[i]?).map Shared.count).getD 0

/-- Empty for an object that is gone. -/
def body (h : Heap ρ) (i : Nat) : List (Action ρ) := ((h.shared[i]?).map Shared.body).getD []

/-- The lists of what is still to do. -/
def Live (h : Heap ρ) (l : List (Action ρ)) : Prop :=
  l ∈ h.held ∨ l ∈ h.dropping ∨ ∃ i, l = h.body i

/-- The weight of all that is still to do. -/
def weigh (h : Heap ρ) (f : Action ρ → Nat) : Nat :=
  (h.held.map fun l => (l.map f).sum).sum + (h.dropping.map fun l => (l.map f).sum).sum +
    (h.shared.map fun o => (o.body.map f).sum).sum

def size (h : Heap ρ) : Nat := h.weigh fun _ => 1

/-- How often an action is still to be done. -/
def occ [DecidableEq ρ] (h : Heap ρ) (a : Action ρ) : Nat := h.weigh fun b => if b = a then 1 else 0

/-- The value of these parts is held, and the values among them no longer are. -/
def build (h : Heap ρ) (parts : List (Piece ρ)) (rest : Multiset (List (Action ρ))) : Heap ρ :=
  { h with
    shared := h.shared.mapIdx fun i o => { o with count := o.count + (refs parts).count i }
    held := glue parts ::ₘ rest
    made := fresh parts ++ h.made }

/-- The value moves behind a reference. -/
def share (h : Heap ρ) (v : List (Action ρ)) (rest : Multiset (List (Action ρ))) : Heap ρ :=
  { h with
    shared := h.shared ++ [⟨1, v⟩]
    held := [.unref h.shared.length] ::ₘ rest }

/-- A reference goes; with the last one the object is dropped. -/
def unref (h : Heap ρ) (i : Nat) (v : List (Action ρ)) (rest : Multiset (List (Action ρ))) :
    Heap ρ :=
  if h.count i = 1 then
    { h with shared := h.shared.set i ⟨0, []⟩, dropping := (h.body i ++ v) ::ₘ rest }
  else
    { h with shared := h.shared.set i ⟨h.count i - 1, h.body i⟩, dropping := v ::ₘ rest }

end Heap

/-- Dropping these actions releases the resource, now or with an object that lives until then. -/
inductive Holds (body : Nat → List (Action ρ)) : List (Action ρ) → ρ → Prop where
  | release {l : List (Action ρ)} {s : ρ} : .release s ∈ l → Holds body l s
  | unref {l : List (Action ρ)} {s : ρ} {i : Nat} :
      .unref i ∈ l → Holds body (body i) s → Holds body l s

/-- What follows the release of `r` holds `s`. -/
def Guards (body : Nat → List (Action ρ)) (l : List (Action ρ)) (r s : ρ) : Prop :=
  ∃ a b, l = a ++ .release r :: b ∧ Holds body b s

/-- One action of a value that is being dropped. -/
inductive Act (h : Heap ρ) : Action ρ → Heap ρ → Prop where
  | release {r : ρ} {v : List (Action ρ)} {rest : Multiset (List (Action ρ))} :
      h.dropping = (.release r :: v) ::ₘ rest →
      Act h (.release r) { h with dropping := v ::ₘ rest, released := r :: h.released }
  | unref {i : Nat} {v : List (Action ρ)} {rest : Multiset (List (Action ρ))} :
      h.dropping = (.unref i :: v) ::ₘ rest → Act h (.unref i) (h.unref i v rest)

/-- A step of anyone: any number of values are in the course of being dropped. -/
inductive Step [DecidableEq ρ] (h : Heap ρ) : Heap ρ → Prop where
  | build {parts : List (Piece ρ)} {rest : Multiset (List (Action ρ))} :
      h.held = values parts + rest → (fresh parts).Nodup → (∀ r ∈ fresh parts, r ∉ h.made) →
      (∀ i ∈ refs parts, 0 < h.occ (.unref i)) → Step h (h.build parts rest)
  | keep {v : List (Action ρ)} {r s : ρ} :
      v ∈ h.held → Guards h.body v r s → Step h { h with kept := (r, s) :: h.kept }
  | share {v : List (Action ρ)} {rest : Multiset (List (Action ρ))} :
      h.held = v ::ₘ rest → Step h (h.share v rest)
  | drop {v : List (Action ρ)} {rest : Multiset (List (Action ρ))} :
      h.held = v ::ₘ rest → Step h { h with held := rest, dropping := v ::ₘ h.dropping }
  | act {a : Action ρ} {h' : Heap ρ} : Act h a h' → Step h h'

/-- `r` was released, and `s` not before it. -/
def Before (released : List ρ) (r s : ρ) : Prop :=
  r ∈ released ∧ ∀ later earlier, released = later ++ s :: earlier → r ∈ earlier

/-- The counts are exact, an object without a reference does nothing more, each resource is still to
be released once or was, references lead to older objects, and what must go first does. -/
structure Sound [DecidableEq ρ] (h : Heap ρ) : Prop where
  counted : ∀ i, h.count i = h.occ (.unref i)
  dead : ∀ i, h.count i = 0 → h.body i = []
  once : ∀ r, h.occ (.release r) + h.released.count r = h.made.count r
  distinct : h.made.Nodup
  older : ∀ i j, .unref j ∈ h.body i → j < i
  kept : ∀ p ∈ h.kept, (∃ l, h.Live l ∧ Guards h.body l p.1 p.2) ∨
    Before h.released p.1 p.2

variable {h h' : Heap ρ} {f : Action ρ → Nat} {a : Action ρ} {parts : List (Piece ρ)}
  {rest : Multiset (List (Action ρ))} {v l : List (Action ρ)} {r s : ρ} {i j : Nat}

section Weights

theorem sum_map_set {α : Type*} (g : α → Nat) {xs : List α} (x : α) (hi : i < xs.length) :
    ((xs.set i x).map g).sum + g xs[i] = (xs.map g).sum + g x := by
  induction xs generalizing i with
  | nil => exact absurd hi (Nat.not_lt_zero i)
  | cons y ys ih =>
    cases i with
    | zero =>
      simp only [List.set_cons_zero, List.getElem_cons_zero, List.map_cons, List.sum_cons]
      omega
    | succ i =>
      have := ih (Nat.lt_of_succ_lt_succ hi)
      simp only [List.set_cons_succ, List.getElem_cons_succ, List.map_cons, List.sum_cons]
      omega

theorem body_of_lt (hi : i < h.shared.length) : h.body i = h.shared[i].body := by
  simp [Heap.body, hi]

theorem body_of_le (hi : h.shared.length ≤ i) : h.body i = [] := by
  simp [Heap.body, hi]

theorem count_of_le (hi : h.shared.length ≤ i) : h.count i = 0 := by
  simp [Heap.count, hi]

/-- An action that is done no longer weighs. -/
theorem weigh_act (hs : Act h a h') : h'.weigh f + f a = h.weigh f := by
  cases hs with
  | release hd =>
    simp only [Heap.weigh, hd, Multiset.map_cons, Multiset.sum_cons, List.map_cons, List.sum_cons]
    omega
  | unref hd =>
    rename_i i v rest
    rcases Nat.lt_or_ge i h.shared.length with hi | hi
    · have hgone := sum_map_set (fun o => (o.body.map f).sum) ⟨0, []⟩ hi
      have hless := sum_map_set (fun o => (o.body.map f).sum) ⟨h.count i - 1, h.body i⟩ hi
      rw [← body_of_lt hi] at hgone hless
      unfold Heap.unref
      split <;> simp [Heap.weigh, hd] at hgone hless ⊢ <;> omega
    · rw [Heap.unref, if_neg (by simp [count_of_le hi]), List.set_eq_of_length_le hi]
      simp only [Heap.weigh, hd, Multiset.map_cons, Multiset.sum_cons, List.map_cons, List.sum_cons]
      omega

theorem sum_glue : ((glue parts).map f).sum = ((values parts).map fun l => (l.map f).sum).sum +
    ((fresh parts).map fun r => f (.release r)).sum + ((refs parts).map fun i =>
      f (.unref i)).sum := by
  induction parts with
  | nil => rfl
  | cons p parts ih => cases p <;> simp [glue, fresh, refs, values, ih] <;> omega

theorem weigh_build (hheld : h.held = values parts + rest) : (h.build parts rest).weigh f =
    h.weigh f + ((fresh parts).map fun r => f (.release r)).sum +
      ((refs parts).map fun i => f (.unref i)).sum := by
  have hbodies : (h.build parts rest).shared.map (fun o => (o.body.map f).sum) =
      h.shared.map fun o => (o.body.map f).sum := by
    apply List.ext_getElem?
    intro i
    cases hi : h.shared[i]? <;> simp [Heap.build, hi]
  unfold Heap.weigh
  rw [hbodies, hheld]
  simp only [Heap.build, Multiset.map_cons, Multiset.sum_cons, Multiset.map_add, Multiset.sum_add,
    Multiset.map_coe, Multiset.sum_coe, sum_glue]
  omega

theorem weigh_share (hheld : h.held = v ::ₘ rest) :
    (h.share v rest).weigh f = h.weigh f + f (.unref h.shared.length) := by
  simp only [Heap.weigh, Heap.share, hheld, Multiset.map_cons, Multiset.sum_cons, List.map_append,
    List.map_cons, List.map_nil, List.sum_append, List.sum_cons, List.sum_nil]
  omega

theorem weigh_drop (hheld : h.held = v ::ₘ rest) :
    { h with held := rest, dropping := v ::ₘ h.dropping }.weigh f = h.weigh f := by
  simp only [Heap.weigh, hheld, Multiset.map_cons, Multiset.sum_cons]
  omega

theorem sum_pos_iff {α : Type*} {m : Multiset α} {g : α → Nat} :
    0 < (m.map g).sum ↔ ∃ x ∈ m, 0 < g x := by
  induction m using Multiset.induction_on with
  | empty => simp
  | cons x m ih =>
    simp only [Multiset.map_cons, Multiset.sum_cons, Nat.add_pos_iff_pos_or_pos, ih,
      Multiset.mem_cons, or_and_right, exists_or, exists_eq_left]

theorem list_sum_pos_iff {α : Type*} {xs : List α} {g : α → Nat} :
    0 < (xs.map g).sum ↔ ∃ x ∈ xs, 0 < g x := by
  simp [List.sum_pos_iff_exists_pos_nat]

/-- What is to be done stands in some list. -/
theorem weigh_pos_iff : 0 < h.weigh f ↔ ∃ l, h.Live l ∧ ∃ a ∈ l, 0 < f a := by
  simp only [Heap.weigh, Nat.add_pos_iff_pos_or_pos, sum_pos_iff, list_sum_pos_iff]
  constructor
  · rintro ((⟨l, hl, ha⟩ | ⟨l, hl, ha⟩) | ⟨o, ho, ha⟩)
    · exact ⟨l, .inl hl, ha⟩
    · exact ⟨l, .inr (.inl hl), ha⟩
    · obtain ⟨i, hi, rfl⟩ := List.getElem_of_mem ho
      exact ⟨h.body i, .inr (.inr ⟨i, rfl⟩), by rwa [body_of_lt hi]⟩
  · rintro ⟨l, hl | hl | ⟨i, rfl⟩, ha⟩
    · exact .inl (.inl ⟨l, hl, ha⟩)
    · exact .inl (.inr ⟨l, hl, ha⟩)
    · rcases Nat.lt_or_ge i h.shared.length with hi | hi
      · rw [body_of_lt hi] at ha
        exact .inr ⟨h.shared[i], List.getElem_mem hi, ha⟩
      · obtain ⟨a, ha, -⟩ := ha
        rw [body_of_le hi] at ha
        exact absurd ha List.not_mem_nil

end Weights

section Bodies

theorem body_build : (h.build parts rest).body = h.body := by
  funext i
  cases hi : h.shared[i]? <;> simp [Heap.body, Heap.build, hi]

theorem count_build (hi : i < h.shared.length) :
    (h.build parts rest).count i = h.count i + (refs parts).count i := by
  simp [Heap.count, Heap.build, hi]

theorem body_share : (h.share v rest).body j = if j = h.shared.length then v else h.body j := by
  rcases Nat.lt_trichotomy j h.shared.length with hj | rfl | hj
  · simp [Heap.body, Heap.share, hj, Nat.ne_of_lt hj, List.getElem?_append_left hj]
  · simp [Heap.body, Heap.share]
  · rw [if_neg (Nat.ne_of_gt hj), body_of_le (Nat.le_of_lt hj)]
    exact body_of_le (by simpa [Heap.share] using Nat.succ_le_of_lt hj)

theorem count_share :
    (h.share v rest).count j = if j = h.shared.length then 1 else h.count j := by
  rcases Nat.lt_trichotomy j h.shared.length with hj | rfl | hj
  · simp [Heap.count, Heap.share, hj, Nat.ne_of_lt hj, List.getElem?_append_left hj]
  · simp [Heap.count, Heap.share]
  · rw [if_neg (Nat.ne_of_gt hj), count_of_le (Nat.le_of_lt hj)]
    exact count_of_le (by simpa [Heap.share] using Nat.succ_le_of_lt hj)

theorem lt_of_count (hi : 0 < h.count i) : i < h.shared.length := by
  rcases Nat.lt_or_ge i h.shared.length with hlt | hge
  · exact hlt
  · exact absurd (count_of_le hge) (Nat.ne_of_gt hi)

theorem count_unref (hi : 0 < h.count i) :
    (h.unref i v rest).count j = if j = i then h.count i - 1 else h.count j := by
  have hlt := lt_of_count hi
  rcases eq_or_ne j i with rfl | hne
  · by_cases hone : h.count j = 1 <;> simp [Heap.unref, hone] <;> simp [Heap.count, hlt]
  · by_cases hone : h.count i = 1 <;> simp [Heap.unref, hone, hne] <;>
      simp [Heap.count, List.getElem?_set_ne hne.symm]

/-- Only the last reference changes what an object will do. -/
theorem body_unref (hi : 0 < h.count i) :
    (h.unref i v rest).body j = if j = i ∧ h.count i = 1 then [] else h.body j := by
  have hlt := lt_of_count hi
  rcases eq_or_ne j i with rfl | hne
  · by_cases hone : h.count j = 1 <;> simp [Heap.unref, hone] <;> simp [Heap.body, hlt]
  · by_cases hone : h.count i = 1 <;> simp [Heap.unref, hone, hne] <;>
      simp [Heap.body, List.getElem?_set_ne hne.symm]

/-- What an object would do is still done, later by itself or by the value that drops it now. -/
theorem live_body (hi : 0 < h.count i) (j : Nat) :
    ∃ x, (h.unref i v rest).Live (h.body j ++ x) := by
  by_cases hlast : j = i ∧ h.count i = 1
  · obtain ⟨rfl, hone⟩ := hlast
    refine ⟨v, .inr (.inl ?_)⟩
    rw [Heap.unref, if_pos hone]
    exact Multiset.mem_cons_self _ _
  · refine ⟨[], .inr (.inr ⟨j, ?_⟩)⟩
    rw [body_unref hi, if_neg hlast, List.append_nil]

/-- The actions behind the reference that goes are done next, or after what its object does. -/
theorem live_rest : ∃ x, (h.unref i v rest).Live (x ++ v) := by
  unfold Heap.unref
  split
  · exact ⟨h.body i, .inr (.inl (Multiset.mem_cons_self _ _))⟩
  · exact ⟨[], .inr (.inl (Multiset.mem_cons_self _ _))⟩

theorem live_unref (hd : h.dropping = (.unref i :: v) ::ₘ rest) (hi : 0 < h.count i)
    (hl : h.Live l) : l = .unref i :: v ∨ ∃ x, (h.unref i v rest).Live (l ++ x) := by
  rcases hl with hl | hl | ⟨j, rfl⟩
  · refine .inr ⟨[], .inl ?_⟩
    rw [List.append_nil]
    unfold Heap.unref
    split <;> exact hl
  · rw [hd] at hl
    rcases Multiset.mem_cons.mp hl with rfl | hl
    · exact .inl rfl
    · refine .inr ⟨[], .inr (.inl ?_)⟩
      rw [List.append_nil]
      unfold Heap.unref
      split <;> exact Multiset.mem_cons_of_mem hl
  · exact .inr (live_body hi j)

end Bodies

section Guards

variable {body body' : Nat → List (Action ρ)} {l' x y : List (Action ρ)}

theorem Holds.mono (hl : Holds body l s) (hsub : l ⊆ l') : Holds body l' s := by
  cases hl with
  | release hmem => exact .release (hsub hmem)
  | unref hmem hbody => exact .unref (hsub hmem) hbody

/-- Objects that nothing refers to do not matter. -/
theorem Holds.congr (hl : Holds body l s)
    (hsame : ∀ j, body' j = body j ∨ (.unref j ∉ l ∧ ∀ k, .unref j ∉ body k)) :
    Holds body' l s := by
  induction hl with
  | release hmem => exact .release hmem
  | unref hmem _ ih =>
    rename_i i _
    rcases hsame i with heq | ⟨hnot, -⟩
    · refine .unref hmem (heq.symm ▸ ih fun j => ?_)
      exact (hsame j).imp_right fun ⟨_, hbodies⟩ => ⟨hbodies i, hbodies⟩
    · exact absurd hmem hnot

theorem Guards.congr (hl : Guards body l r s)
    (hsame : ∀ j, body' j = body j ∨ (.unref j ∉ l ∧ ∀ k, .unref j ∉ body k)) :
    Guards body' l r s := by
  obtain ⟨a, b, rfl, hb⟩ := hl
  refine ⟨a, b, rfl, hb.congr fun j => (hsame j).imp_right fun ⟨hnot, hbodies⟩ => ⟨?_, hbodies⟩⟩
  exact fun hmem => hnot (List.mem_append_right a (List.mem_cons_of_mem _ hmem))

theorem Guards.within (hl : Guards body l r s) : Guards body (x ++ l ++ y) r s := by
  obtain ⟨a, b, rfl, hb⟩ := hl
  refine ⟨x ++ a, b ++ y, by simp, hb.mono ?_⟩
  exact fun _ => List.mem_append_left y

/-- The first action releases `r`, or `r` is released later. -/
theorem Guards.cons_cases {a : Action ρ} (hl : Guards body (a :: l) r s) :
    (a = .release r ∧ Holds body l s) ∨ Guards body l r s := by
  obtain ⟨x, b, hsplit, hb⟩ := hl
  cases x with
  | nil =>
    obtain ⟨rfl, rfl⟩ := List.cons.inj hsplit
    exact .inl ⟨rfl, hb⟩
  | cons _ x => exact .inr ⟨x, b, (List.cons.inj hsplit).2, hb⟩

theorem guards_cons (hl : Holds body l s) : Guards body (.release r :: l) r s := ⟨[], l, rfl, hl⟩

theorem mem_values (hv : v ∈ values parts) : ∃ x y, glue parts = x ++ v ++ y := by
  induction parts with
  | nil => exact absurd hv List.not_mem_nil
  | cons p parts ih =>
    cases p with
    | fresh r =>
      obtain ⟨x, y, hglue⟩ := ih hv
      exact ⟨.release r :: x, y, by simp [glue, hglue]⟩
    | ref i =>
      obtain ⟨x, y, hglue⟩ := ih hv
      exact ⟨.unref i :: x, y, by simp [glue, hglue]⟩
    | value w =>
      rcases List.mem_cons.mp hv with rfl | hv
      · exact ⟨[], glue parts, rfl⟩
      · obtain ⟨x, y, hglue⟩ := ih hv
        exact ⟨w ++ x, y, by simp [glue, hglue]⟩

end Guards

section Pieces

variable {α : Type*} (xs : List α)

@[simp] theorem glue_append (xs ys : List (Piece ρ)) : glue (xs ++ ys) = glue xs ++ glue ys := by
  induction xs with
  | nil => rfl
  | cons p xs ih => cases p <;> simp [glue, ih]

@[simp] theorem fresh_append (xs ys : List (Piece ρ)) :
    fresh (xs ++ ys) = fresh xs ++ fresh ys := by
  induction xs with
  | nil => rfl
  | cons p xs ih => cases p <;> simp [fresh, ih]

@[simp] theorem refs_append (xs ys : List (Piece ρ)) : refs (xs ++ ys) = refs xs ++ refs ys := by
  induction xs with
  | nil => rfl
  | cons p xs ih => cases p <;> simp [refs, ih]

@[simp] theorem values_append (xs ys : List (Piece ρ)) :
    values (xs ++ ys) = values xs ++ values ys := by
  induction xs with
  | nil => rfl
  | cons p xs ih => cases p <;> simp [values, ih]

@[simp] theorem glue_map_fresh (rs : List ρ) : glue (rs.map .fresh) = releases rs := by
  induction rs with
  | nil => rfl
  | cons r rs ih => simpa [glue, releases] using ih

@[simp] theorem glue_map_ref (is : List Nat) :
    glue (is.map (.ref : Nat → Piece ρ)) = unrefs is := by
  induction is with
  | nil => rfl
  | cons i is ih => simpa [glue, unrefs] using ih

@[simp] theorem glue_map_value (g : α → List (Action ρ)) :
    glue (xs.map fun x => .value (g x)) = xs.flatMap g := by
  induction xs with
  | nil => rfl
  | cons x xs ih => simp [glue, ih]

@[simp] theorem fresh_map_ref (is : List Nat) : fresh (is.map (.ref : Nat → Piece ρ)) = [] := by
  induction is with
  | nil => rfl
  | cons i is ih => simpa [fresh] using ih

@[simp] theorem fresh_map_value (g : α → List (Action ρ)) :
    fresh (xs.map fun x => .value (g x)) = [] := by
  induction xs with
  | nil => rfl
  | cons x xs ih => simpa [fresh] using ih

@[simp] theorem refs_map_fresh (rs : List ρ) : refs (rs.map .fresh) = [] := by
  induction rs with
  | nil => rfl
  | cons r rs ih => simpa [refs] using ih

@[simp] theorem refs_map_ref (is : List Nat) : refs (is.map (.ref : Nat → Piece ρ)) = is := by
  induction is with
  | nil => rfl
  | cons i is ih => simpa [refs] using ih

@[simp] theorem refs_map_value (g : α → List (Action ρ)) :
    refs (xs.map fun x => .value (g x)) = [] := by
  induction xs with
  | nil => rfl
  | cons x xs ih => simpa [refs] using ih

@[simp] theorem values_map_fresh (rs : List ρ) : values (rs.map .fresh) = [] := by
  induction rs with
  | nil => rfl
  | cons r rs ih => simpa [values] using ih

@[simp] theorem values_map_ref (is : List Nat) : values (is.map (.ref : Nat → Piece ρ)) = [] := by
  induction is with
  | nil => rfl
  | cons i is ih => simpa [values] using ih

@[simp] theorem values_map_value (g : α → List (Action ρ)) :
    values (xs.map fun x => .value (g x)) = xs.map g := by
  induction xs with
  | nil => rfl
  | cons x xs ih => simpa [values] using ih

end Pieces

section Invariant

variable [DecidableEq ρ] {parts : List (Piece ρ)} {b : Action ρ}

theorem occ_pos_iff : 0 < h.occ a ↔ ∃ l, h.Live l ∧ a ∈ l := by
  rw [Heap.occ, weigh_pos_iff]
  refine exists_congr fun l => and_congr_right fun _ => ⟨?_, fun ha => ⟨a, ha, by simp⟩⟩
  rintro ⟨b, hb, hpos⟩
  by_cases hba : b = a
  · exact hba ▸ hb
  · simp [hba] at hpos

theorem occ_act (hs : Act h b h') : h'.occ a + (if b = a then 1 else 0) = h.occ a := weigh_act hs

theorem sum_indicator {α : Type*} [DecidableEq α] (xs : List α) (x : α) :
    (xs.map fun y => if y = x then 1 else 0).sum = xs.count x := by
  induction xs with
  | nil => rfl
  | cons y ys ih => simp [List.count_cons, ih, Nat.add_comm]

theorem occ_build_release (hheld : h.held = values parts + rest) :
    (h.build parts rest).occ (.release r) = h.occ (.release r) + (fresh parts).count r := by
  rw [Heap.occ, weigh_build hheld]
  simp [Heap.occ, sum_indicator]

theorem occ_build_unref (hheld : h.held = values parts + rest) :
    (h.build parts rest).occ (.unref i) = h.occ (.unref i) + (refs parts).count i := by
  rw [Heap.occ, weigh_build hheld]
  simp [Heap.occ, sum_indicator]

theorem occ_share (hheld : h.held = v ::ₘ rest) : (h.share v rest).occ a =
    h.occ a + (if .unref h.shared.length = a then 1 else 0) := weigh_share hheld

theorem occ_drop (hheld : h.held = v ::ₘ rest) :
    { h with held := rest, dropping := v ::ₘ h.dropping }.occ a = h.occ a := weigh_drop hheld

/-- What is held, or guarded, is still to be released. -/
theorem Holds.occ_pos (hl : Holds h.body l s) (hlive : h.Live l) : 0 < h.occ (.release s) := by
  induction hl with
  | release hmem => exact occ_pos_iff.mpr ⟨_, hlive, hmem⟩
  | unref _ _ ih => exact ih (.inr (.inr ⟨_, rfl⟩))

theorem not_mem_released (hpos : 0 < h.occ (.release s)) (hdistinct : h.made.Nodup)
    (honce : h.occ (.release s) + h.released.count s = h.made.count s) : s ∉ h.released := by
  intro hmem
  have hmade := List.nodup_iff_count_le_one.mp hdistinct s
  have hreleased := List.count_pos_iff.mpr hmem
  omega

theorem Sound.count_pos (hs : Sound h) (hlive : h.Live l) (hmem : .unref i ∈ l) :
    0 < h.count i := by
  rw [hs.counted]
  exact occ_pos_iff.mpr ⟨l, hlive, hmem⟩

theorem sound_empty : Sound (Heap.empty : Heap ρ) where
  counted _ := rfl
  dead _ _ := rfl
  once _ := rfl
  distinct := List.nodup_nil
  older _ _ hmem := absurd hmem List.not_mem_nil
  kept _ hp := absurd hp List.not_mem_nil

/-- What a value guards is guarded still, if the value is part of one that is still to be
dropped. -/
theorem Sound.kept_of (hs : Sound h) (hkept : h'.kept = h.kept)
    (hreleased : h'.released = h.released)
    (hmoved : ∀ {l : List (Action ρ)} {r s : ρ}, h.Live l → Guards h.body l r s →
      ∃ l', h'.Live l' ∧ Guards h'.body l' r s) :
    ∀ p ∈ h'.kept, (∃ l, h'.Live l ∧ Guards h'.body l p.1 p.2) ∨
      Before h'.released p.1 p.2 := by
  intro p hp
  rw [hkept] at hp
  rw [hreleased]
  rcases hs.kept p hp with ⟨l, hl, hguards⟩ | hbefore
  · exact .inl (hmoved hl hguards)
  · exact .inr hbefore

omit [DecidableEq ρ] in
theorem guards_build (hheld : h.held = values parts + rest) (hl : h.Live l)
    (hguards : Guards h.body l r s) :
    ∃ l', (h.build parts rest).Live l' ∧ Guards (h.build parts rest).body l' r s := by
  rw [body_build]
  rcases hl with hl | hl | ⟨i, rfl⟩
  · rw [hheld] at hl
    rcases Multiset.mem_add.mp hl with hl | hl
    · obtain ⟨x, y, hglue⟩ := mem_values (Multiset.mem_coe.mp hl)
      refine ⟨glue parts, .inl (Multiset.mem_cons_self _ _), ?_⟩
      rw [hglue]
      exact hguards.within
    · exact ⟨l, .inl (Multiset.mem_cons_of_mem hl), hguards⟩
  · exact ⟨l, .inr (.inl hl), hguards⟩
  · exact ⟨_, .inr (.inr ⟨i, by rw [body_build]⟩), hguards⟩

theorem sound_build (hs : Sound h) (hheld : h.held = values parts + rest)
    (hdistinct : (fresh parts).Nodup) (hnew : ∀ r ∈ fresh parts, r ∉ h.made)
    (hrefs : ∀ i ∈ refs parts, 0 < h.occ (.unref i)) : Sound (h.build parts rest) where
  counted i := by
    rw [occ_build_unref hheld, ← hs.counted]
    rcases Nat.lt_or_ge i h.shared.length with hi | hi
    · exact count_build hi
    · have hcount := count_of_le hi
      have hnone : i ∉ refs parts := by
        intro hmem
        have := hrefs i hmem
        rw [← hs.counted] at this
        omega
      rw [List.count_eq_zero.mpr hnone, hcount]
      exact count_of_le (by simpa [Heap.build] using hi)
  dead i hi := by
    rw [body_build]
    rcases Nat.lt_or_ge i h.shared.length with hlt | hge
    · rw [count_build hlt] at hi
      exact hs.dead i (by omega)
    · exact body_of_le hge
  once r := by
    rw [occ_build_release hheld]
    have := hs.once r
    change _ + h.released.count r = (fresh parts ++ h.made).count r
    rw [List.count_append]
    omega
  distinct := List.nodup_append.mpr ⟨hdistinct, hs.distinct, fun r hr _ hmade heq =>
    hnew r hr (heq ▸ hmade)⟩
  older i j hmem := hs.older i j (body_build ▸ hmem)
  kept := hs.kept_of rfl rfl (guards_build hheld)

theorem sound_keep (hs : Sound h) (hv : v ∈ h.held) (hguards : Guards h.body v r s) :
    Sound { h with kept := (r, s) :: h.kept } where
  counted := hs.counted
  dead := hs.dead
  once := hs.once
  distinct := hs.distinct
  older := hs.older
  kept p hp := by
    rcases List.mem_cons.mp hp with rfl | hp
    · exact .inl ⟨v, .inl hv, hguards⟩
    · exact hs.kept p hp

theorem sound_drop (hs : Sound h) (hheld : h.held = v ::ₘ rest) :
    Sound { h with held := rest, dropping := v ::ₘ h.dropping } where
  counted i := (hs.counted i).trans (occ_drop hheld).symm
  dead := hs.dead
  once r := by
    rw [occ_drop hheld]
    exact hs.once r
  distinct := hs.distinct
  older := hs.older
  kept := hs.kept_of rfl rfl fun {l r s} hl hguards => by
    refine ⟨l, ?_, hguards⟩
    rcases hl with hl | hl | hl
    · rw [hheld] at hl
      rcases Multiset.mem_cons.mp hl with rfl | hl
      · exact .inr (.inl (Multiset.mem_cons_self _ _))
      · exact .inl hl
    · exact .inr (.inl (Multiset.mem_cons_of_mem hl))
    · exact .inr (.inr hl)

/-- Nothing refers to an object that is still to be made. -/
theorem Sound.unref_length_not_mem (hs : Sound h) (hl : h.Live l) : .unref h.shared.length ∉ l :=
  fun hmem => absurd (lt_of_count (hs.count_pos hl hmem)) (Nat.lt_irrefl _)

theorem guards_share (hs : Sound h) (hheld : h.held = v ::ₘ rest) (hl : h.Live l)
    (hguards : Guards h.body l r s) :
    ∃ l', (h.share v rest).Live l' ∧ Guards (h.share v rest).body l' r s := by
  have hsame (j : Nat) :
      (h.share v rest).body j = h.body j ∨ (.unref j ∉ l ∧ ∀ k, .unref j ∉ h.body k) := by
    rcases eq_or_ne j h.shared.length with rfl | hne
    · exact .inr ⟨hs.unref_length_not_mem hl, fun k =>
        hs.unref_length_not_mem (.inr (.inr ⟨k, rfl⟩))⟩
    · rw [body_share, if_neg hne]
      exact .inl rfl
  refine ⟨l, ?_, hguards.congr hsame⟩
  rcases hl with hl | hl | ⟨i, rfl⟩
  · rw [hheld] at hl
    rcases Multiset.mem_cons.mp hl with rfl | hl
    · exact .inr (.inr ⟨h.shared.length, by rw [body_share, if_pos rfl]⟩)
    · exact .inl (Multiset.mem_cons_of_mem hl)
  · exact .inr (.inl hl)
  · rcases eq_or_ne i h.shared.length with rfl | hne
    · rw [body_of_le (Nat.le_refl _)] at hguards
      obtain ⟨a, b, habs, -⟩ := hguards
      simp at habs
    · exact .inr (.inr ⟨i, by rw [body_share, if_neg hne]⟩)

theorem sound_share (hs : Sound h) (hheld : h.held = v ::ₘ rest) : Sound (h.share v rest) where
  counted j := by
    rw [count_share, occ_share hheld, ← hs.counted]
    rcases eq_or_ne j h.shared.length with rfl | hne
    · simp [count_of_le (Nat.le_refl _)]
    · simp [hne, hne.symm]
  dead j hj := by
    rw [count_share] at hj
    rw [body_share]
    split at hj
    · exact absurd hj Nat.one_ne_zero
    · rename_i hne
      rw [if_neg hne]
      exact hs.dead j hj
  once r := by
    rw [occ_share hheld, if_neg (by simp)]
    exact hs.once r
  distinct := hs.distinct
  older j k hmem := by
    rw [body_share] at hmem
    split at hmem
    · rename_i hj
      have hlive : h.Live v := .inl (hheld ▸ Multiset.mem_cons_self v rest)
      exact hj ▸ lt_of_count (hs.count_pos hlive hmem)
    · exact hs.older j k hmem
  kept := hs.kept_of rfl rfl (guards_share hs hheld)

theorem sound_release (hs : Sound h) (hd : h.dropping = (.release r :: v) ::ₘ rest) :
    Sound { h with dropping := v ::ₘ rest, released := r :: h.released } := by
  have hact : Act h (.release r) { h with dropping := v ::ₘ rest, released := r :: h.released } :=
    .release hd
  have honce (x : ρ) :
      { h with dropping := v ::ₘ rest, released := r :: h.released }.occ (.release x) +
      (r :: h.released).count x = h.made.count x := by
    have hocc := occ_act (a := .release x) hact
    have := hs.once x
    rw [List.count_cons]
    by_cases hx : r = x <;> simp [hx] at hocc ⊢ <;> omega
  refine ⟨fun i => ?_, hs.dead, honce, hs.distinct, hs.older, fun p hp => ?_⟩
  · have hocc := occ_act (a := .unref i) hact
    rw [if_neg (by simp)] at hocc
    exact (hs.counted i).trans hocc.symm
  · rcases hs.kept p hp with ⟨l, hl, hguards⟩ | ⟨hfirst, hbefore⟩
    · rcases hl with hl | hl | hl
      · exact .inl ⟨l, .inl hl, hguards⟩
      · rw [hd] at hl
        rcases Multiset.mem_cons.mp hl with rfl | hl
        · rcases hguards.cons_cases with ⟨hr, hholds⟩ | hguards
          · -- what is guarded by the resource that goes now is still to be released
            refine .inr ⟨?_, fun later earlier hsplit => ?_⟩
            · cases hr
              exact List.mem_cons_self
            · have hpos := hholds.occ_pos
                (h := { h with dropping := v ::ₘ rest, released := r :: h.released })
                (.inr (.inl (Multiset.mem_cons_self v rest)))
              have hnot := not_mem_released hpos hs.distinct (honce p.2)
              exact absurd (hsplit ▸ List.mem_append_right later List.mem_cons_self) hnot
          · exact .inl ⟨v, .inr (.inl (Multiset.mem_cons_self v rest)), hguards⟩
        · exact .inl ⟨l, .inr (.inl (Multiset.mem_cons_of_mem hl)), hguards⟩
      · exact .inl ⟨l, .inr (.inr hl), hguards⟩
    · refine .inr ⟨List.mem_cons_of_mem r hfirst, fun later earlier hsplit => ?_⟩
      cases later with
      | nil => exact (List.cons.inj hsplit).2 ▸ hfirst
      | cons x later => exact hbefore later earlier (List.cons.inj hsplit).2

theorem Sound.referred (hs : Sound h) (hd : h.dropping = (.unref i :: v) ::ₘ rest) :
    0 < h.count i :=
  hs.count_pos (.inr (.inl (hd ▸ Multiset.mem_cons_self _ _))) List.mem_cons_self

theorem counted_unref (hs : Sound h) (hd : h.dropping = (.unref i :: v) ::ₘ rest)
    (j : Nat) : (h.unref i v rest).count j = (h.unref i v rest).occ (.unref j) := by
  have hj := occ_act (a := .unref j) (.unref hd)
  rw [← hs.counted] at hj
  rw [count_unref (hs.referred hd)]
  rcases eq_or_ne j i with rfl | hne
  · rw [if_pos rfl] at hj
    rw [if_pos rfl]
    have := hs.referred hd
    omega
  · rw [if_neg (by simpa using hne.symm)] at hj
    rw [if_neg hne]
    omega

/-- The object that goes was referred to from nowhere else. -/
theorem unref_not_mem (hs : Sound h) (hd : h.dropping = (.unref i :: v) ::ₘ rest)
    (hone : h.count i = 1) (hl : (h.unref i v rest).Live l) : .unref i ∉ l := by
  intro hmem
  have hnone : (h.unref i v rest).count i = 0 := by
    rw [count_unref (hs.referred hd), if_pos rfl, hone]
  have hpos := occ_pos_iff.mpr ⟨l, hl, hmem⟩
  rw [← counted_unref hs hd, hnone] at hpos
  exact Nat.lt_irrefl 0 hpos

theorem guards_unref (hs : Sound h) (hd : h.dropping = (.unref i :: v) ::ₘ rest)
    (hl : h.Live l) (hguards : Guards h.body l r s) :
    ∃ l', (h.unref i v rest).Live l' ∧ Guards (h.unref i v rest).body l' r s := by
  have hi := hs.referred hd
  have hmoved : ∃ l', (h.unref i v rest).Live l' ∧ Guards h.body l' r s := by
    rcases live_unref hd hi hl with rfl | ⟨x, hlive⟩
    · obtain ⟨x, hlive⟩ := @live_rest _ h rest v i
      rcases hguards.cons_cases with ⟨habs, -⟩ | hguards
      · cases habs
      · exact ⟨x ++ v, hlive, List.append_nil (x ++ v) ▸ hguards.within⟩
    · exact ⟨l ++ x, hlive, hguards.within (x := [])⟩
  obtain ⟨l', hlive, hguards⟩ := hmoved
  refine ⟨l', hlive, hguards.congr fun j => ?_⟩
  rw [body_unref hi]
  split
  · rename_i hlast
    obtain ⟨rfl, hone⟩ := hlast
    refine .inr ⟨unref_not_mem hs hd hone hlive, fun k hmem => ?_⟩
    obtain ⟨x, hlive⟩ := @live_body _ h rest v j hi k
    exact unref_not_mem hs hd hone hlive (List.mem_append_left x hmem)
  · exact .inl rfl

theorem sound_unref (hs : Sound h) (hd : h.dropping = (.unref i :: v) ::ₘ rest) :
    Sound (h.unref i v rest) := by
  have hi := hs.referred hd
  have hlog : (h.unref i v rest).released = h.released ∧ (h.unref i v rest).made = h.made ∧
      (h.unref i v rest).kept = h.kept := by
    unfold Heap.unref
    split <;> exact ⟨rfl, rfl, rfl⟩
  refine ⟨counted_unref hs hd, fun j hj => ?_, fun r => ?_, hlog.2.1 ▸ hs.distinct,
    fun j k hmem => ?_, hs.kept_of hlog.2.2 hlog.1 (guards_unref hs hd)⟩
  · rw [count_unref hi] at hj
    rw [body_unref hi]
    split at hj
    · rename_i hji
      rw [if_pos ⟨hji, by omega⟩]
    · rename_i hji
      rw [if_neg fun hlast => hji hlast.1]
      exact hs.dead j hj
  · have hr := occ_act (a := .release r) (.unref hd)
    rw [if_neg (by simp)] at hr
    rw [hlog.1, hlog.2.1, ← hs.once r]
    omega
  · rw [body_unref hi] at hmem
    split at hmem
    · exact absurd hmem List.not_mem_nil
    · exact hs.older j k hmem

theorem sound_step (hs : Sound h) (hstep : Step h h') : Sound h' := by
  cases hstep with
  | build hheld hdistinct hnew hrefs => exact sound_build hs hheld hdistinct hnew hrefs
  | keep hv hguards => exact sound_keep hs hv hguards
  | share hheld => exact sound_share hs hheld
  | drop hheld => exact sound_drop hs hheld
  | act hact =>
    cases hact with
    | release hd => exact sound_release hs hd
    | unref hd => exact sound_unref hs hd

theorem steps_keep (hl : l ∈ h.held) (kept : List (ρ × ρ))
    (hkept : ∀ p ∈ kept, Guards h.body l p.1 p.2) :
    Relation.ReflTransGen Step h { h with kept := kept ++ h.kept } := by
  induction kept with
  | nil => exact .refl
  | cons p kept ih =>
    have hsteps := ih fun q hq => hkept q (List.mem_cons_of_mem p hq)
    exact hsteps.tail (.keep (h := { h with kept := kept ++ h.kept }) hl
      (hkept p List.mem_cons_self))

theorem steps_drop (ls : List (List (Action ρ))) (rest : Multiset (List (Action ρ)))
    (hheld : h.held = ls + rest) : Relation.ReflTransGen Step h
      { h with held := rest, dropping := (ls : Multiset (List (Action ρ))) + h.dropping } := by
  induction ls generalizing h with
  | nil =>
    have hsame : h.held = rest := by simpa using hheld
    rw [← hsame, Multiset.coe_nil, zero_add]
  | cons l ls ih =>
    have hcons : h.held = l ::ₘ (ls + rest) := by rw [hheld, ← Multiset.cons_coe, Multiset.cons_add]
    refine .head (.drop hcons) ?_
    have := ih (h := { h with held := ls + rest, dropping := l ::ₘ h.dropping }) rfl
    simpa only [← Multiset.cons_coe, Multiset.cons_add, Multiset.add_cons] using this

theorem sound_steps (hs : Sound h) (hsteps : Relation.ReflTransGen Step h h') : Sound h' := by
  induction hsteps with
  | refl => exact hs
  | tail _ hstep ih => exact sound_step ih hstep

namespace Sound

theorem released_nodup (hs : Sound h) : h.released.Nodup := by
  apply List.nodup_iff_count_le_one.mpr
  intro r
  have hmade := List.nodup_iff_count_le_one.mp hs.distinct r
  have := hs.once r
  omega

/-- What is held is not released, nor what it keeps alive. -/
theorem unreleased (hs : Sound h) (hlive : h.Live l) (hl : Holds h.body l s) : s ∉ h.released :=
  not_mem_released (hl.occ_pos hlive) hs.distinct (hs.once s)

theorem in_order (hs : Sound h) {later earlier : List ρ} (hkept : (r, s) ∈ h.kept)
    (hsplit : h.released = later ++ s :: earlier) : r ∈ earlier := by
  rcases hs.kept _ hkept with ⟨l, hlive, a, b, rfl, hb⟩ | hbefore
  · have hholds : Holds h.body (a ++ .release r :: b) s :=
      hb.mono fun _ hmem => List.mem_append_right a (List.mem_cons_of_mem _ hmem)
    have hnot := hs.unreleased hlive hholds
    exact absurd (hsplit ▸ List.mem_append_right later List.mem_cons_self) hnot
  · exact hbefore.2 later earlier hsplit

/-- By induction from the youngest object: nothing is left that could refer to one. -/
theorem body_eq_nil (hs : Sound h) (hheld : h.held = 0)
    (hdone : ∀ l ∈ h.dropping, l = []) (k : Nat) :
    ∀ i, h.shared.length ≤ i + k → h.body i = [] := by
  induction k with
  | zero => exact fun i hi => body_of_le hi
  | succ k ih =>
    intro i hi
    apply hs.dead
    rw [hs.counted]
    by_contra hpos
    obtain ⟨l, hl | hl | ⟨j, rfl⟩, hmem⟩ := occ_pos_iff.mp (Nat.pos_of_ne_zero hpos)
    · rw [hheld] at hl
      exact absurd hl (Multiset.notMem_zero l)
    · rw [hdone l hl] at hmem
      exact absurd hmem List.not_mem_nil
    · have hlt := hs.older j i hmem
      rw [ih j (by omega)] at hmem
      exact absurd hmem List.not_mem_nil

theorem all_released (hs : Sound h) (hheld : h.held = 0) (hdone : ∀ l ∈ h.dropping, l = []) :
    h.released.Perm h.made := by
  rw [List.perm_iff_count]
  intro r
  have hnone : h.occ (.release r) = 0 := by
    by_contra hpos
    obtain ⟨l, hl | hl | ⟨i, rfl⟩, hmem⟩ := occ_pos_iff.mp (Nat.pos_of_ne_zero hpos)
    · rw [hheld] at hl
      exact absurd hl (Multiset.notMem_zero l)
    · rw [hdone l hl] at hmem
      exact absurd hmem List.not_mem_nil
    · rw [hs.body_eq_nil hheld hdone h.shared.length i (Nat.le_add_left _ i)] at hmem
      exact absurd hmem List.not_mem_nil
  rw [← hs.once r, hnone, Nat.zero_add]

/-- However the drops under way take turns, they come to an end. -/
theorem drops_end (hs : Sound h) : ∃ h', Relation.ReflTransGen (fun h h' => ∃ a, Act h a h') h h' ∧
    h'.held = h.held ∧ ∀ l ∈ h'.dropping, l = [] := by
  generalize hn : h.size = n
  induction n using Nat.strong_induction_on generalizing h with
  | _ n ih =>
    by_cases hdone : ∀ l ∈ h.dropping, l = []
    · exact ⟨h, .refl, rfl, hdone⟩
    · push Not at hdone
      obtain ⟨l, hl, hne⟩ := hdone
      obtain ⟨a, v, rfl⟩ := List.exists_cons_of_ne_nil hne
      obtain ⟨rest, hd⟩ := Multiset.exists_cons_of_mem hl
      have hact : ∃ h', Act h a h' ∧ h'.held = h.held := by
        cases a with
        | release r => exact ⟨_, .release hd, rfl⟩
        | unref i =>
          refine ⟨_, .unref hd, ?_⟩
          unfold Heap.unref
          split <;> rfl
      obtain ⟨h', hact, hheld⟩ := hact
      have hsize : h'.size + 1 = h.size := weigh_act hact
      obtain ⟨h'', hsteps, hheld', hdone⟩ :=
        ih h'.size (by omega) (sound_step hs (.act hact)) rfl
      exact ⟨h'', .head ⟨a, hact⟩ hsteps, hheld'.trans hheld, hdone⟩

end Sound

end Invariant

end Teardown
