import Zrt.Session.GetterRuns
import Zrt.Session.StringTensor

/-! The bound output names of `io_binding.rs` in one buffer. -/
namespace Zrt.Getters

open Ownership (Books Comp)
open Ownership.Comp (capture)
open Constructors (getDefault)
open StringTensor (fromUTF8_eq_some)

/-- The texts one behind the other. -/
def joinNames (names : List String) : ByteArray :=
  names.foldr (fun name rest => name.toByteArray ++ rest) ByteArray.empty

variable {buffer : ByteArray} {offset n : Nat} {lens : List Nat} {names : List String} {s : String}
  {status : Except Error Unit} {b : Books}

/-- The name of one length. -/
def nameAt (buffer : ByteArray) (offset n : Nat) : Except Error String :=
  if n = 0 then .ok ""
  else match String.fromUTF8? (buffer.extract offset (offset + n)) with
    | some s => .ok s
    | none => .error (.local "zrt: bound output name is not valid UTF-8")

theorem splitNames_cons : splitNames buffer offset (n :: lens) =
    (nameAt buffer offset n).bind fun name =>
      (splitNames buffer (offset + n) lens).map (name :: ·) := rfl

theorem nameAt_eq_ok :
    nameAt buffer offset n = .ok s ↔ buffer.extract offset (offset + n) = s.toByteArray := by
  unfold nameAt
  split
  next hn =>
    subst hn
    rw [Nat.add_zero, ByteArray.extract_same, Except.ok.injEq, ← String.toByteArray_inj]
    rfl
  next hn =>
    cases ht : String.fromUTF8? (buffer.extract offset (offset + n)) with
    | some t =>
      rw [fromUTF8_eq_some.mp ht, Except.ok.injEq]
      exact String.toByteArray_inj.symm
    | none =>
      refine iff_of_false (fun h => by cases h) ?_
      intro h
      rw [fromUTF8_eq_some.mpr h] at ht
      cases ht

theorem size_extract_of_le (h : offset + n ≤ buffer.size) :
    (buffer.extract offset (offset + n)).size = n := by
  rw [ByteArray.size_extract]
  omega

/-- By induction on the lengths: the names are those whose texts the buffer holds. -/
theorem splitNames_eq_ok (h : offset + lens.sum ≤ buffer.size) :
    splitNames buffer offset lens = .ok names ↔
      lens = names.map String.utf8ByteSize ∧
        buffer.extract offset (offset + lens.sum) = joinNames names := by
  induction lens generalizing offset names with
  | nil =>
    rw [List.sum_nil, Nat.add_zero, ByteArray.extract_same]
    constructor
    · intro hn
      cases hn
      exact ⟨rfl, rfl⟩
    · rintro ⟨hlens, -⟩
      rw [List.map_eq_nil_iff.mp hlens.symm]
      rfl
  | cons n lens ih =>
    rw [List.sum_cons] at h ⊢
    have hrest : offset + n + lens.sum ≤ buffer.size := by omega
    have hsplit : buffer.extract offset (offset + (n + lens.sum)) =
        buffer.extract offset (offset + n) ++ buffer.extract (offset + n)
          (offset + n + lens.sum) := by
      rw [← Nat.add_assoc]
      exact ByteArray.extract_eq_extract_append_extract _ (by omega) (by omega)
    have hsize : (buffer.extract offset (offset + n)).size = n := size_extract_of_le (by omega)
    rw [splitNames_cons, hsplit]
    constructor
    · intro hn
      obtain ⟨s, hs, hn⟩ := bind_eq_ok hn
      obtain ⟨rest, hr, rfl⟩ := map_eq_ok hn
      obtain ⟨hlens, htext⟩ := (ih hrest).mp hr
      rw [nameAt_eq_ok] at hs
      refine ⟨?_, ?_⟩
      · rw [List.map_cons, ← hlens, ← hsize, hs]
        rfl
      · rw [hs, htext]
        rfl
    · rintro ⟨hlens, htext⟩
      cases names with
      | nil => cases hlens
      | cons s rest =>
        obtain ⟨hn, hlens⟩ := List.cons.inj hlens
        have hsame : (buffer.extract offset (offset + n)).size = s.toByteArray.size :=
          hsize.trans hn
        have hs := ByteArray.append_inj_left htext hsame
        have hr : buffer.extract (offset + n) (offset + n + lens.sum) = joinNames rest := by
          rw [hs] at htext
          exact (ByteArray.append_right_inj _).mp htext
        rw [nameAt_eq_ok.mpr hs, (ih hrest).mpr ⟨hlens, hr⟩]
        rfl

theorem check_fst (status : Except Error Unit) (b : Books) :
    (Constructors.check status b).1 = status := by
  cases status <;> rfl

/-- What stands behind a computation that cannot fail decides. -/
theorem fst_bind {α β : Type} {m : Comp Error α} {f : α → Comp Error β} {r : Except Error β}
    (hm : m.Infallible) (hf : ∀ a b, (f a b).1 = r) (b : Books) : ((m >>= f) b).1 = r := by
  obtain ⟨a, ha⟩ := hm b
  have hrun : m b = (.ok a, (m b).2) := Prod.ext ha rfl
  rw [Ownership.Comp.bind_ok hrun]
  exact hf a _

/-- No `free` changes the result. -/
theorem outputNames_eq_ok (n : BoundNamesCalls) (b : Books) :
    (outputNames n b).1 = .ok names ↔
      n.defaultAllocator = .ok true ∧ collectBoundNames n.status n.get = .ok names := by
  have hrest (b : Books) : ((allocate n.get.buffer >>= fun buffer =>
      allocate n.get.lengths >>= fun lengths =>
      capture (Constructors.check n.status) >>= fun status =>
      freeIfSome buffer >>= fun _ => freeIfSome lengths >>= fun _ =>
      Comp.ofExcept (collectBoundNames status n.get)) b).1 = collectBoundNames n.status n.get := by
    refine fst_bind (allocate_infallible _) (fun buffer b => ?_) b
    refine fst_bind (allocate_infallible _) (fun lengths b => ?_) b
    change ((freeIfSome buffer >>= fun _ => freeIfSome lengths >>= fun _ =>
      Comp.ofExcept (collectBoundNames (Constructors.check n.status b).1 n.get)) _).1 = _
    rw [check_fst]
    refine fst_bind (freeIfSome_infallible _) (fun _ b => ?_) _
    refine fst_bind (freeIfSome_infallible lengths) (fun _ b => ?_) b
    rfl
  unfold outputNames
  match hd : getDefault n.defaultAllocator b with
  | (.ok u, b') =>
    rw [Ownership.Comp.bind_ok hd, hrest b', (Constructors.getDefault_eq_ok.mp hd).1]
    simp
  | (.error err, b') =>
    rw [Ownership.Comp.bind_error hd]
    refine iff_of_false (fun h => by cases h) ?_
    rintro ⟨ha, -⟩
    rw [Constructors.getDefault_eq_ok (u := ()).mpr ⟨ha, rfl⟩] at hd
    cases congrArg Prod.fst hd

/-- When the engine wrote a buffer and the lengths of the names in it, `output_names` gives exactly
the names whose texts, one behind the other, are the buffer up to these lengths, and it gives none
if a call fails or a name is not UTF-8. How the memory is freed does not matter. -/
theorem output_names_exact (n : BoundNamesCalls) (b : Books) (buffer : ByteArray) (lens : List Nat)
    (freed freed' : Except Error Unit) (hbuffer : n.get.buffer = some (buffer, freed))
    (hlens : n.get.lengths = some (lens, freed')) (hcount : n.get.count = lens.length)
    (hsize : lens.sum ≤ buffer.size) (names : List String) :
    (outputNames n b).1 = .ok names ↔
      n.defaultAllocator = .ok true ∧ n.status = .ok () ∧
        lens = names.map String.utf8ByteSize ∧ buffer.extract 0 lens.sum = joinNames names := by
  have hwhole : splitNames buffer 0 lens = .ok names ↔
      lens = names.map String.utf8ByteSize ∧ buffer.extract 0 (0 + lens.sum) = joinNames names :=
    splitNames_eq_ok (by omega)
  rw [Nat.zero_add] at hwhole
  have hcollect : collectBoundNames (.ok ()) n.get = splitNames buffer 0 lens := by
    unfold collectBoundNames
    rw [hbuffer, hlens, hcount]
    change (if lens.length ≠ 0 then splitNames buffer 0 (lens.take lens.length) else .ok []) = _
    rw [List.take_length]
    cases lens <;> rfl
  rw [outputNames_eq_ok, ← hwhole, ← hcollect]
  cases hs : n.status with
  | ok u => simp
  | error err =>
    refine iff_of_false ?_ ?_
    · rintro ⟨-, h⟩
      cases h
    · rintro ⟨-, h, -⟩
      cases h

/-- Two names, the first of two bytes and one character. -/
def twoNames : BoundNamesCalls where
  defaultAllocator := .ok true
  status := .ok ()
  get := ⟨some (⟨#[0xC3, 0xA9, 0x79]⟩, .error (.local "")), some ([2, 0, 1], .ok ()), 3⟩

theorem output_names_exact_two : (outputNames twoNames .empty).1 = .ok ["é", "", "y"] :=
  (output_names_exact twoNames .empty ⟨#[0xC3, 0xA9, 0x79]⟩ [2, 0, 1] (.error (.local "")) (.ok ())
    rfl rfl rfl (by decide) ["é", "", "y"]).mpr ⟨rfl, rfl, by decide, by decide⟩

end Zrt.Getters
