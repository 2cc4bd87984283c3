import Mathlib.Data.Set.Insert
import Zrt.Ownership

/-! Fallible computations that make and release objects, by the books that they leave. -/
namespace Ownership

variable {ε α β : Type}

/-- The books grew by objects of which those in `kept` are held, and the others released. -/
structure Books.Grows (b b' : Books) (kept : Set Nat) : Prop where
  start : b.Sound
  sound : b'.Sound
  count_le : b.count ≤ b'.count
  old : ∀ x < b.count, b'.held x = b.held x ∧ b'.owner x = b.owner x ∧ b'.released x = b.released x
  fresh : ∀ x ∈ kept, b.count ≤ x
  held : ∀ x, b.count ≤ x → (b'.held x = true ↔ x ∈ kept)
  owner : ∀ x, b.count ≤ x → b'.owner x = none

namespace Books.Grows

variable {b b' b'' : Books} {kept kept' : Set Nat} {x : Nat}

theorem refl (h : b.Sound) : b.Grows b ∅ where
  start := h
  sound := h
  count_le := Nat.le_refl _
  old _ _ := ⟨rfl, rfl, rfl⟩
  fresh _ h := h.elim
  held x hx := by simp [(h.unmade x hx).1]
  owner x hx := (h.unmade x hx).2.1

theorem make (h : b.Sound) : b.Grows b.make {b.count} where
  start := h
  sound := h.make
  count_le := Nat.le_succ _
  old x hx := ⟨by rw [make_held, if_neg (Nat.ne_of_lt hx)], rfl, rfl⟩
  fresh x hx := Nat.le_of_eq hx.symm
  held x hx := by
    rw [make_held, (h.unmade x hx).1]
    simp
  owner x hx := (h.unmade x hx).2.1

/-- Of what one computation left and the next made, all that is held is kept. -/
theorem trans (h : b.Grows b' kept) (h' : b'.Grows b'' kept') : b.Grows b'' (kept ∪ kept') where
  start := h.start
  sound := h'.sound
  count_le := Nat.le_trans h.count_le h'.count_le
  old x hx := by
    obtain ⟨hh, ho, hr⟩ := h'.old x (Nat.lt_of_lt_of_le hx h.count_le)
    rw [hh, ho, hr]
    exact h.old x hx
  fresh x := by
    rintro (hx | hx)
    · exact h.fresh x hx
    · exact Nat.le_trans h.count_le (h'.fresh x hx)
  held x hx := by
    rcases Nat.lt_or_ge x b'.count with hlt | hge
    · have hnew : x ∉ kept' := fun hk => Nat.not_le_of_lt hlt (h'.fresh x hk)
      rw [(h'.old x hlt).1, h.held x hx]
      simp [hnew]
    · have hold : x ∉ kept := by
        intro hk
        have hheld := (h.held x hx).mpr hk
        rw [(h.sound.unmade x hge).1] at hheld
        cases hheld
      rw [h'.held x hge]
      simp [hold]
  owner x hx := by
    rcases Nat.lt_or_ge x b'.count with hlt | hge
    · rw [(h'.old x hlt).2.1, h.owner x hx]
    · exact h'.owner x hge

/-- One of the kept objects is released. -/
theorem drop (h : b.Grows b' kept) (hx : x ∈ kept) : b.Grows (b'.drop x) (kept \ {x}) where
  start := h.start
  sound := h.sound.drop ((h.held x (h.fresh x hx)).mpr hx)
  count_le := h.count_le
  old y hy := by
    have hfresh := h.fresh x hx
    have hne : y ≠ x := Nat.ne_of_lt (Nat.lt_of_lt_of_le hy hfresh)
    obtain ⟨hh, ho, hr⟩ := h.old y hy
    have howner : b'.owner y ≠ some x := by
      intro he
      have hlt := (h.start.owned y x (ho.symm.trans he)).1
      omega
    refine ⟨by rw [drop_held, if_neg hne, hh], ho, ?_⟩
    have hkept : ¬ (y = x ∨ b'.owner y = some x) := by simp [hne, howner]
    exact (congrArg (b'.released y + ·) (if_neg hkept)).trans hr
  fresh y hy := h.fresh y hy.1
  held y hy := by
    rw [drop_held]
    by_cases he : y = x
    · simp [he]
    · rw [if_neg he, h.held y hy]
      simp [he]
  owner y hy := h.owner y hy

/-- The objects that were made are released once, but for the kept ones. -/
theorem released (h : b.Grows b' kept) (hx : b.count ≤ x) (hlt : x < b'.count) :
    (x ∈ kept → b'.released x = 0) ∧ (x ∉ kept → b'.released x = 1) := by
  have hself : b'.holder x = x := by rw [Books.holder, h.owner x hx, Option.getD_none]
  rw [h.sound.released x hlt, hself]
  constructor
  · intro hk
    rw [if_pos ((h.held x hx).mpr hk)]
  · intro hk
    rw [if_neg (mt (h.held x hx).mp hk)]

/-- What grows after a part that kept nothing, grows from its start. -/
theorem after (h : b.Grows b' ∅) (h' : b'.Grows b'' kept') : b.Grows b'' kept' := by
  have := h.trans h'
  rwa [Set.empty_union] at this

end Books.Grows

/-- A computation: its result, and the books after it. -/
def Comp (ε α : Type) := Books → Except ε α × Books

namespace Comp

instance : Monad (Comp ε) where
  pure a := fun b => (.ok a, b)
  bind m f := fun b =>
    match m b with
    | (.ok a, b') => f a b'
    | (.error e, b') => (.error e, b')

def ofExcept (r : Except ε α) : Comp ε α := fun b => (r, b)

def make : Comp ε Nat := fun b => (.ok b.count, b.make)

/-- Runs the computation with an object that is released behind it, whatever its result. -/
def guard (x : Nat) (m : Comp ε α) : Comp ε α := fun b => ((m b).1, (m b).2.drop x)

/-- Runs the computation with an object that is released if it fails. -/
def onError (x : Nat) (m : Comp ε α) : Comp ε α := fun b =>
  match m b with
  | (.ok a, b') => (.ok a, b')
  | (.error e, b') => (.error e, b'.drop x)

def release (x : Nat) : Comp ε Unit := fun b => (.ok (), b.drop x)

/-- Runs the computation and takes no notice of its result. -/
def discard (m : Comp ε α) : Comp ε Unit := fun b => (.ok (), (m b).2)

/-- What a result hands over. -/
def handedOver (returned : α → Set Nat) (result : Except ε α) : Set Nat :=
  match result with
  | .ok a => returned a
  | .error _ => ∅

/-- What the computation makes and does not hand over is released once, and nothing else is. -/
def Balanced (m : Comp ε α) (returned : α → Set Nat) (b : Books) : Prop :=
  (∀ x ∈ handedOver returned (m b).1, b.count ≤ x ∧ x < (m b).2.count) ∧
  (∀ x < b.count, (m b).2.released x = b.released x) ∧
  ∀ x, b.count ≤ x → x < (m b).2.count →
    (x ∈ handedOver returned (m b).1 → (m b).2.released x = 0) ∧
    (x ∉ handedOver returned (m b).1 → (m b).2.released x = 1)

/-- The computation releases all that it makes. -/
def Clean (m : Comp ε α) : Prop := ∀ b : Books, b.Sound → b.Grows (m b).2 ∅

/-- The computation leaves old objects as they are. -/
def Tracked (m : Comp ε α) : Prop := ∀ b : Books, b.Sound → ∃ kept, b.Grows (m b).2 kept

variable {m : Comp ε α} {f : α → Comp ε β} {returned : α → Set Nat} {b b' : Books} {a : α} {e : ε}
  {kept : Set Nat}

theorem bind_ok (h : m b = (.ok a, b')) : (m >>= f) b = f a b' := by
  change (match m b with
    | (.ok a, b') => f a b'
    | (.error e, b') => (.error e, b')) = _
  rw [h]

theorem bind_error (h : m b = (.error e, b')) : (m >>= f) b = (.error e, b') := by
  change (match m b with
    | (.ok a, b') => f a b'
    | (.error e, b') => (.error e, b')) = _
  rw [h]

@[simp]
theorem ofExcept_apply (r : Except ε α) (b : Books) : ofExcept r b = (r, b) := rfl

@[simp]
theorem pure_apply (a : α) (b : Books) : (pure a : Comp ε α) b = (.ok a, b) := rfl

theorem ofExcept_bind_ok (a : α) (b : Books) :
    (ofExcept (.ok a : Except ε α) >>= f) b = f a b := rfl

theorem ofExcept_bind_error (e : ε) (b : Books) :
    (ofExcept (.error e : Except ε α) >>= f) b = (.error e, b) := rfl

theorem bind_eq_ok {r : β} : (m >>= f) b = (.ok r, b') ↔
    ∃ a b₁, m b = (.ok a, b₁) ∧ f a b₁ = (.ok r, b') := by
  match h : m b with
  | (.ok a, b₁) => simp [bind_ok h]
  | (.error e, b₁) => simp [bind_error h]

theorem clean_ofExcept (r : Except ε α) : (ofExcept r).Clean := fun _ hb => .refl hb

theorem clean_pure (a : α) : (pure a : Comp ε α).Clean := fun _ hb => .refl hb

theorem Clean.bind (hm : m.Clean) (hf : ∀ a, (f a).Clean) : (m >>= f).Clean := by
  intro b hb
  have hgrows := hm b hb
  match h : m b with
  | (.ok a, b') =>
    rw [h] at hgrows
    rw [bind_ok h]
    exact hgrows.after (hf a b' hgrows.sound)
  | (.error e, b') =>
    rw [h] at hgrows
    rwa [bind_error h]

/-- An object that only lives during a clean computation. -/
theorem clean_guard {f : Nat → Comp ε α} (hf : ∀ x, (f x).Clean) :
    (make >>= fun x => guard x (f x)).Clean := by
  intro b hb
  have hmade := Books.Grows.make hb
  have hgrows := hmade.trans (hf b.count b.make hmade.sound)
  rw [Set.union_empty] at hgrows
  have hnone : ({b.count} : Set Nat) \ {b.count} = ∅ :=
    Set.eq_empty_of_forall_notMem fun _ h => h.2 h.1
  rw [← hnone]
  exact hgrows.drop (Set.mem_singleton _)

theorem Clean.discard (hm : m.Clean) : m.discard.Clean := hm

theorem balanced_iff (h : b.Grows (m b).2 kept) :
    m.Balanced returned b ↔ kept = handedOver returned (m b).1 := by
  constructor
  · rintro ⟨hrange, -, hreleased⟩
    ext x
    constructor
    · intro hx
      have hfresh := h.fresh x hx
      have hlt := h.sound.lt_count ((h.held x hfresh).mpr hx)
      by_contra hnot
      have hone := (hreleased x hfresh hlt).2 hnot
      rw [(h.released hfresh hlt).1 hx] at hone
      cases hone
    · intro hx
      obtain ⟨hfresh, hlt⟩ := hrange x hx
      by_contra hnot
      have hzero := (hreleased x hfresh hlt).1 hx
      rw [(h.released hfresh hlt).2 hnot] at hzero
      cases hzero
  · intro he
    rw [Balanced, ← he]
    refine ⟨?_, fun x hx => (h.old x hx).2.2, fun x => h.released⟩
    intro x hx
    have hfresh := h.fresh x hx
    exact ⟨hfresh, h.sound.lt_count ((h.held x hfresh).mpr hx)⟩

/-- A computation that hands over nothing. -/
theorem balanced_none_iff {r : Except ε α} (h : m b = (r, b')) (hg : b.Grows b' kept) :
    m.Balanced (fun _ => ∅) b ↔ kept = ∅ := by
  have hgrows : b.Grows (m b).2 kept := by rwa [h]
  rw [balanced_iff hgrows]
  cases (m b).1 <;> rfl

theorem balanced_of_error (h : m b = (.error e, b')) (hg : b.Grows b' ∅) :
    m.Balanced returned b := by
  have hgrows : b.Grows (m b).2 ∅ := by rwa [h]
  rw [balanced_iff hgrows, h]
  rfl

/-- What follows a clean computation decides, if it gets there. -/
theorem balanced_bind_iff {returned : β → Set Nat} (hm : m.Clean) (hf : ∀ a, (f a).Tracked)
    (hb : b.Sound) : (m >>= f).Balanced returned b ↔
      ∀ a b', m b = (.ok a, b') → (f a).Balanced returned b' := by
  have hgrows := hm b hb
  match h : m b with
  | (.ok a, b') =>
    rw [h] at hgrows
    obtain ⟨kept, hk⟩ := hf a b' hgrows.sound
    have hall := hgrows.after hk
    rw [← bind_ok (f := f) h] at hall
    rw [balanced_iff hall, bind_ok h, ← balanced_iff hk]
    simp
  | (.error e, b') =>
    rw [h] at hgrows
    refine iff_of_true (balanced_of_error (bind_error h) hgrows) ?_
    intro a b' h
    cases congrArg Prod.fst h

theorem Tracked.bind (hm : m.Clean) (hf : ∀ a, (f a).Tracked) : (m >>= f).Tracked := by
  intro b hb
  have hgrows := hm b hb
  match h : m b with
  | (.ok a, b') =>
    rw [h] at hgrows
    obtain ⟨kept, hk⟩ := hf a b' hgrows.sound
    exact ⟨kept, bind_ok (f := f) h ▸ hgrows.after hk⟩
  | (.error e, b') =>
    rw [h] at hgrows
    exact ⟨∅, bind_error (f := f) h ▸ hgrows⟩

end Comp

end Ownership
