import Zrt.Paging
import Zrt.Session.MmapBuffer

/-! Touching the pages of a buffer before it is used: `prefault_slice` of `tensor.rs`. -/
namespace Zrt.Prefault

open Mmap (System pageSize)
open Paging (Meets)

variable {α : Type} {slice : List α} {is : List Nat} {os : System} {page size base len i q : Nat}

/-- The page size that the stride is made for. A failed `sysconf` is no error here; where there is
none, the page size is the same as where it fails. -/
def prefaultPage (os : System) : Nat :=
  match pageSize os with
  | .ok page => page
  | .error _ => 4096

def stride (os : System) (size : Nat) : Nat := max (prefaultPage os / max size 1) 1

/-- The indices that `prefault_slice` touches, in their order. -/
def touched (os : System) (size len : Nat) : List Nat :=
  if len = 0 then []
  else List.range' 0 (len ⌈/⌉ stride os size) (stride os size) ++ [len - 1]

/-- A volatile read of an element, and a volatile write of what was read; `none` is an access out of
the slice. -/
def touch (slice : List α) (i : Nat) : Option (List α) :=
  slice[i]?.map fun value => slice.set i value

def prefaultSlice (os : System) (size : Nat) (slice : List α) : Option (List α) :=
  (touched os size slice.length).foldlM touch slice

theorem prefaultPage_pos (os : System) : 0 < prefaultPage os := by
  unfold prefaultPage pageSize
  split
  · rename_i page h
    split at h
    · cases h
    · cases h
      omega
  · decide

theorem stride_pos (os : System) (size : Nat) : 0 < stride os size := by
  unfold stride
  omega

/-- The touched indices are the multiples of the stride, and the last index. -/
theorem mem_touched : i ∈ touched os size len ↔ i < len ∧ (stride os size ∣ i ∨ i = len - 1) := by
  have hs := stride_pos os size
  have hceil : ∀ j, j < len ⌈/⌉ stride os size ↔ stride os size * j < len := fun j => by
    rw [← Nat.not_le, ceilDiv_le_iff_le_mul hs, Nat.not_le]
  unfold touched
  by_cases hlen : len = 0
  · simp [hlen]
  rw [if_neg hlen, List.mem_append, List.mem_range', List.mem_singleton]
  constructor
  · rintro (⟨j, hj, rfl⟩ | rfl)
    · rw [Nat.zero_add]
      exact ⟨(hceil j).mp hj, .inl (Nat.dvd_mul_right _ j)⟩
    · exact ⟨by omega, .inr rfl⟩
  · rintro ⟨hi, ⟨j, rfl⟩ | rfl⟩
    · exact .inl ⟨j, (hceil j).mpr hi, (Nat.zero_add _).symm⟩
    · exact .inr rfl

example : touched (Mmap.mapsAt 0) 1500 6 = [0, 2, 4, 5] := by decide

theorem touch_same (h : i < slice.length) : touch slice i = some slice := by
  rw [touch, List.getElem?_eq_getElem h, Option.map_some, List.set_getElem_self]

theorem foldlM_touch_same (h : ∀ i ∈ is, i < slice.length) :
    is.foldlM touch slice = some slice := by
  induction is with
  | nil => rfl
  | cons i is ih =>
    obtain ⟨hi, his⟩ := List.forall_mem_cons.mp h
    rw [List.foldlM_cons, touch_same hi]
    exact ih his

/-- No access is out of the slice, and the slice keeps its contents. -/
theorem prefaultSlice_same (os : System) (size : Nat) (slice : List α) :
    prefaultSlice os size slice = some slice :=
  foldlM_touch_same fun _ hi => (mem_touched.mp hi).1

/-- Elements larger than a page are all touched. -/
theorem stride_eq_one (h : prefaultPage os < size) : stride os size = 1 := by
  have hdiv : prefaultPage os / max size 1 = 0 := Nat.div_eq_of_lt (by omega)
  rw [stride, hdiv]
  rfl

/-- Others are touched at least once for each page's width. -/
theorem stride_mul_le (hsize : 0 < size) (h : size ≤ prefaultPage os) :
    stride os size * size ≤ prefaultPage os := by
  have hmax : max size 1 = size := by omega
  have hone : 1 ≤ prefaultPage os / size := (Nat.one_le_div_iff hsize).mpr h
  rw [stride, hmax, Nat.max_eq_left hone]
  exact Nat.div_mul_le_self (prefaultPage os) size

/-- The page of an element's first byte holds a byte of the element. -/
theorem meets_first (hsize : 0 < size) (h : (base + i * size) / page = q) :
    Meets page q (base + i * size) (base + (i + 1) * size) := by
  refine ⟨base + i * size, Nat.le_refl _, ?_, h⟩
  rw [Nat.succ_mul]
  omega

/-- The page of an element's last byte holds a byte of the element. -/
theorem meets_last (hsize : 0 < size) (h : (base + (i + 1) * size - 1) / page = q) :
    Meets page q (base + i * size) (base + (i + 1) * size) := by
  refine ⟨base + (i + 1) * size - 1, ?_, ?_, h⟩ <;> rw [Nat.succ_mul] <;> omega

/-- Where every element is touched, so is every byte. -/
theorem meets_element (hsize : 0 < size) (h : Meets page q base (base + len * size)) :
    ∃ i < len, Meets page q (base + i * size) (base + (i + 1) * size) := by
  obtain ⟨x, hl, hu, hx⟩ := h
  have hdiv := Nat.div_add_mod' (x - base) size
  have hmod := Nat.mod_lt (x - base) hsize
  refine ⟨(x - base) / size, (Nat.div_lt_iff_lt_mul hsize).mpr (by omega), x, by omega, ?_, hx⟩
  rw [Nat.succ_mul]
  omega

/-- Every page of the slice holds a byte of an element that is touched, also where pages are larger
than the stride was made for; no index is out of the slice. -/
theorem prefault_touches (os : System) (size base len page : Nat) (hpage : prefaultPage os ≤ page) :
    (∀ q, Meets page q base (base + len * size) →
      ∃ i ∈ touched os size len, Meets page q (base + i * size) (base + (i + 1) * size)) ∧
    ∀ i ∈ touched os size len, i < len := by
  refine ⟨fun q hq => ?_, fun i hi => (mem_touched.mp hi).1⟩
  have hp : 0 < page := Nat.lt_of_lt_of_le (prefaultPage_pos os) hpage
  have hbytes : 0 < len * size := by
    have hbounds := ((Paging.meets_iff hp).mp hq).1
    omega
  have hlen : 0 < len := Nat.pos_of_mul_pos_right hbytes
  have hsize : 0 < size := Nat.pos_of_mul_pos_left hbytes
  rcases Nat.lt_or_ge (prefaultPage os) size with hlarge | hsmall
  · obtain ⟨i, hi, hmeets⟩ := meets_element hsize hq
    refine ⟨i, mem_touched.mpr ⟨hi, .inl ?_⟩, hmeets⟩
    rw [stride_eq_one hlarge]
    exact Nat.one_dvd i
  have hstride : stride os size * size ≤ page := Nat.le_trans (stride_mul_le hsize hsmall) hpage
  rcases Paging.meets_step (Nat.mul_pos (stride_pos os size) hsize) hstride hq with
    hlast | ⟨j, hj, hmeets⟩
  · have hsucc : len - 1 + 1 = len := by omega
    refine ⟨len - 1, mem_touched.mpr ⟨by omega, .inr rfl⟩, meets_last hsize ?_⟩
    rw [hsucc, hlast]
  · have hmul : stride os size * size * j = stride os size * j * size := Nat.mul_right_comm ..
    rw [hmul] at hj hmeets
    have hbelow : stride os size * j * size < len * size := by omega
    exact ⟨stride os size * j, mem_touched.mpr ⟨Nat.lt_of_mul_lt_mul_right hbelow,
      .inl (Nat.dvd_mul_right _ j)⟩, meets_first hsize hmeets⟩

/-- Three elements of 1500 bytes across three pages of 4096. -/
theorem prefault_touches_partial :
    (∃ i ∈ touched (Mmap.mapsAt 0) 1500 3, Meets 4096 1 (4000 + i * 1500) (4000 + (i + 1) * 1500)) ∧
      ∀ i ∈ touched (Mmap.mapsAt 0) 1500 3, i < 3 := by
  obtain ⟨hpages, hindices⟩ := prefault_touches (Mmap.mapsAt 0) 1500 4000 3 4096 (by decide)
  exact ⟨hpages 1 ⟨5000, by decide, by decide, by decide⟩, hindices⟩

end Zrt.Prefault
