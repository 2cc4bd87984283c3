import Mathlib.Data.List.Nodup
import Zrt.Custody

/-! Which of the objects that are held a computation uses up, and which it hands over. -/
namespace Ownership.Comp

variable {δ ε α β : Type}

/-- An error hands nothing over. -/
def passedOn (out : α → List Nat) : Except ε α → List Nat
  | .ok a => out a
  | .error _ => []

/-- The computation releases the objects of `used`, and whatever it makes but the objects of `out`.
What else is held stays so. -/
def Moves (used : List Nat) (m : Comp ε α) (out : α → List Nat) : Prop :=
  ∀ ⦃b b' : Books⦄ ⦃held : Set Nat⦄, b.Grows b' held → used.Nodup → (∀ x ∈ used, x ∈ held) →
    b.Grows (m b').2 {x | (x ∈ held ∧ x ∉ used) ∨ x ∈ passedOn out (m b').1} ∧
      (passedOn out (m b').1).Nodup ∧ ∀ x ∈ passedOn out (m b').1, x ∈ held → x ∈ used

/-- The computation has a result, however it goes. -/
def Infallible (m : Comp ε α) : Prop := ∀ b, ∃ a, (m b).1 = .ok a

/-- The result as a value. -/
def capture (m : Comp ε α) : Comp δ (Except ε α) := fun b => (.ok (m b).1, (m b).2)

variable {m : Comp ε α} {f : α → Comp ε β} {used used' kept : List Nat} {out : α → List Nat}
  {out' : β → List Nat} {b b' : Books} {held : Set Nat} {x : Nat} {a : α}

theorem moves_pure (a : α) (out : α → List Nat) : Moves (out a) (pure a : Comp ε α) out := by
  intro b b' held h hnodup hused
  refine ⟨?_, hnodup, fun x hx _ => hx⟩
  have hsame : {x | (x ∈ held ∧ x ∉ out a) ∨ x ∈ out a} = held := by
    ext x
    by_cases hx : x ∈ out a
    · simp [hx, hused x hx]
    · simp [hx]
  exact hsame.symm ▸ h

@[simp]
theorem passedOn_nil (r : Except ε α) : passedOn (fun _ => []) r = [] := by cases r <;> rfl

theorem moves_ofExcept (r : Except ε α) (out : α → List Nat) :
    Moves (passedOn out r) (ofExcept r) out := by
  cases r with
  | ok a => exact moves_pure a out
  | error e =>
    intro b b' held h _ _
    refine ⟨?_, List.nodup_nil, fun x hx _ => hx⟩
    simpa [passedOn] using h

theorem Clean.moves (hm : m.Clean) : Moves [] m fun _ => [] := by
  intro b b' held h _ _
  rw [passedOn_nil]
  refine ⟨?_, List.nodup_nil, fun x hx _ => hx⟩
  simpa using h.trans (hm b' h.sound)

theorem moves_make : Moves [] (make : Comp ε Nat) fun x => [x] := by
  intro b b' held h _ _
  have hmade := h.trans (Books.Grows.make h.sound)
  refine ⟨?_, List.nodup_singleton _, ?_⟩
  · have hsame : {x | (x ∈ held ∧ x ∉ []) ∨ x ∈ [b'.count]} = held ∪ {b'.count} := by
      ext x
      simp [or_comm]
    exact hsame.symm ▸ hmade
  · intro x hx hheld
    -- a new object was not held
    obtain rfl := List.mem_singleton.mp hx
    have hlt := h.sound.lt_count ((h.held _ (h.fresh _ hheld)).mpr hheld)
    exact absurd hlt (Nat.lt_irrefl _)

theorem moves_release (x : Nat) : Moves [x] (release x : Comp ε Unit) fun _ => [] := by
  intro b b' held h _ hused
  refine ⟨?_, List.nodup_nil, fun y hy _ => absurd hy List.not_mem_nil⟩
  have hsame : {y | (y ∈ held ∧ y ∉ [x]) ∨ y ∈ []} = held \ {x} := by
    ext y
    simp
  exact hsame.symm ▸ h.drop (hused x (List.mem_singleton_self x))

theorem Moves.bind {mid : α → List Nat} (hm : Moves used m mid)
    (hf : ∀ a, Moves (mid a) (f a) out') : Moves used (m >>= f) out' := by
  intro b b' held h hnodup hused
  obtain ⟨hgrows, hpassed, hold⟩ := hm h hnodup hused
  match hr : m b' with
  | (.error e, b₁) =>
    rw [hr] at hgrows
    rw [bind_error hr]
    exact ⟨hgrows, List.nodup_nil, fun x hx _ => absurd hx List.not_mem_nil⟩
  | (.ok a, b₁) =>
    rw [hr] at hgrows hpassed hold
    obtain ⟨hgrows', hpassed', hold'⟩ := hf a hgrows hpassed fun x hx => .inr hx
    rw [bind_ok hr]
    have hkept (x : Nat) (hx : x ∈ held) (hnot : x ∉ used) : x ∉ mid a :=
      fun hmid => hnot (hold x hmid hx)
    have hsame : {x | (x ∈ {x | (x ∈ held ∧ x ∉ used) ∨ x ∈ passedOn mid (.ok a : Except ε α)} ∧
          x ∉ mid a) ∨ x ∈ passedOn out' (f a b₁).1} =
        {x | (x ∈ held ∧ x ∉ used) ∨ x ∈ passedOn out' (f a b₁).1} := by
      ext x
      constructor
      · rintro (⟨hx | hx, hnot⟩ | hx)
        · exact .inl hx
        · exact absurd hx hnot
        · exact .inr hx
      · rintro (hx | hx)
        · exact .inl ⟨.inl hx, hkept x hx.1 hx.2⟩
        · exact .inr hx
    refine ⟨hsame ▸ hgrows', hpassed', ?_⟩
    intro x hx hheld
    by_contra hnot
    exact hkept x hheld hnot (hold' x hx (.inl ⟨hheld, hnot⟩))

/-- What is not used stays, if the computation cannot leave it behind. -/
theorem Moves.frame (hm : Moves used m out) (hi : m.Infallible) (kept : List Nat) :
    Moves (used ++ kept) m fun a => out a ++ kept := by
  intro b b' held h hnodup hused
  obtain ⟨hnodup, hnodup', hdisjoint⟩ := List.nodup_append'.mp hnodup
  obtain ⟨hgrows, hpassed, hold⟩ := hm h hnodup fun x hx => hused x (List.mem_append_left _ hx)
  obtain ⟨a, ha⟩ := hi b'
  rw [ha] at hgrows hpassed hold ⊢
  have hsame : {x | (x ∈ held ∧ x ∉ used ++ kept) ∨ x ∈ out a ++ kept} =
      {x | (x ∈ held ∧ x ∉ used) ∨ x ∈ out a} := by
    ext x
    have hheld : x ∈ kept → x ∈ held := fun hx => hused x (List.mem_append_right _ hx)
    have hnot : x ∈ kept → x ∉ used := fun hx hu => hdisjoint hu hx
    simp only [Set.mem_ofPred_eq, List.mem_append]
    tauto
  refine ⟨hsame.symm ▸ hgrows, ?_, ?_⟩
  · refine List.nodup_append'.mpr ⟨hpassed, hnodup', ?_⟩
    intro x hx hkept
    exact hdisjoint (hold x hx (hused x (List.mem_append_right _ hkept))) hkept
  · intro x hx hheld
    rcases List.mem_append.mp hx with hx | hx
    · exact List.mem_append_left _ (hold x hx hheld)
    · exact List.mem_append_right _ hx

theorem Moves.perm (hp : used.Perm used') (hm : Moves used m out) : Moves used' m out := by
  intro b b' held h hnodup hused
  obtain ⟨hgrows, hpassed, hold⟩ :=
    hm h (hp.nodup_iff.mpr hnodup) fun x hx => hused x (hp.mem_iff.mp hx)
  refine ⟨?_, hpassed, fun x hx hheld => hp.mem_iff.mp (hold x hx hheld)⟩
  simpa only [hp.mem_iff] using hgrows

/-- Two in a row, of which the second uses more than the first hands over. -/
theorem Moves.bind_frame {mid : α → List Nat} (hm : Moves used m mid) (hi : m.Infallible)
    (hf : ∀ a, Moves (mid a ++ kept) (f a) out') : Moves (used ++ kept) (m >>= f) out' :=
  (hm.frame hi kept).bind hf

theorem infallible_pure (a : α) : (pure a : Comp ε α).Infallible := fun _ => ⟨a, rfl⟩

theorem infallible_make : (make : Comp ε Nat).Infallible := fun b => ⟨b.count, rfl⟩

theorem infallible_capture (m : Comp ε α) : (capture m : Comp δ (Except ε α)).Infallible :=
  fun b => ⟨(m b).1, rfl⟩

theorem infallible_discard (m : Comp ε α) : m.discard.Infallible := fun _ => ⟨(), rfl⟩

theorem Infallible.bind (hm : m.Infallible) (hf : ∀ a, (f a).Infallible) :
    (m >>= f).Infallible := by
  intro b
  obtain ⟨a, ha⟩ := hm b
  have hrun : m b = (.ok a, (m b).2) := Prod.ext ha rfl
  rw [bind_ok hrun]
  exact hf a _

theorem Moves.capture (hm : Moves used m out) :
    Moves used (capture m : Comp δ (Except ε α)) (passedOn out) := fun _ _ _ => @hm _ _ _

theorem Moves.capture_nil (hm : Moves used m fun _ => []) :
    Moves used (Comp.capture m : Comp δ (Except ε α)) fun _ => [] := by
  have hcapture : Moves used (Comp.capture m : Comp δ (Except ε α)) (passedOn fun _ => []) :=
    hm.capture
  rwa [funext passedOn_nil] at hcapture

theorem Moves.discard (hm : Moves used m fun _ => []) : Moves used m.discard fun _ => [] := by
  intro b b' held h hnodup hused
  obtain ⟨hgrows, -, -⟩ := hm h hnodup hused
  rw [passedOn_nil] at hgrows
  exact ⟨hgrows, List.nodup_nil, fun x hx _ => absurd hx List.not_mem_nil⟩

/-- The object of a guard is released behind the computation. -/
theorem Moves.guard (hm : Moves used m out) (x : Nat) : Moves (x :: used) (guard x m) out := by
  intro b b' held h hnodup hused
  obtain ⟨hx, hnodup⟩ := List.nodup_cons.mp hnodup
  have hheld := hused x List.mem_cons_self
  obtain ⟨hgrows, hpassed, hold⟩ := hm h hnodup fun y hy => hused y (List.mem_cons_of_mem _ hy)
  refine ⟨?_, hpassed, fun y hy hh => List.mem_cons_of_mem _ (hold y hy hh)⟩
  have hdropped := hgrows.drop (x := x) (.inl ⟨hheld, hx⟩)
  have hsame : {y | (y ∈ held ∧ y ∉ x :: used) ∨ y ∈ passedOn out (m b').1} =
      {y | (y ∈ held ∧ y ∉ used) ∨ y ∈ passedOn out (m b').1} \ {x} := by
    ext y
    have hnew : y ∈ passedOn out (m b').1 → y ≠ x := by
      rintro hy rfl
      exact hx (hold y hy hheld)
    simp only [Set.mem_ofPred_eq, Set.mem_sdiff, Set.mem_singleton_iff, List.mem_cons]
    tauto
  exact hsame.symm ▸ hdropped

theorem onError_ok {a : α} {b b' : Books} (x : Nat) (h : m b = (.ok a, b')) :
    onError x m b = (.ok a, b') := by
  unfold onError
  rw [h]

theorem onError_error {e : ε} {b b' : Books} (x : Nat) (h : m b = (.error e, b')) :
    onError x m b = (.error e, b'.drop x) := by
  unfold onError
  rw [h]

/-- The object is released if the computation fails, and kept else. -/
theorem Moves.onError (hm : Moves [] m fun _ => []) (x : Nat) :
    Moves [x] (onError x m) fun _ => [x] := by
  intro b b' held h _ hused
  have hheld := hused x (List.mem_singleton_self x)
  obtain ⟨hgrows, -, -⟩ := hm h List.nodup_nil fun y hy => absurd hy List.not_mem_nil
  rcases hr : m b' with ⟨e | a, b₁⟩
  · rw [hr] at hgrows
    rw [onError_error x hr]
    refine ⟨?_, List.nodup_nil, fun y hy _ => absurd hy List.not_mem_nil⟩
    have hsame : {y | (y ∈ held ∧ y ∉ [x]) ∨ y ∈ []} = held \ {x} := by
      ext y
      simp
    change b.Grows (b₁.drop x) {y | (y ∈ held ∧ y ∉ [x]) ∨ y ∈ []}
    rw [hsame]
    refine Books.Grows.drop ?_ hheld
    simpa using hgrows
  · rw [hr] at hgrows
    rw [onError_ok x hr]
    refine ⟨?_, List.nodup_singleton x, fun y hy _ => hy⟩
    have hsame : {y | (y ∈ held ∧ y ∉ [x]) ∨ y ∈ [x]} = held := by
      ext y
      by_cases hy : y = x
      · simp [hy, hheld]
      · simp [hy]
    change b.Grows b₁ {y | (y ∈ held ∧ y ∉ [x]) ∨ y ∈ [x]}
    rw [hsame]
    simpa using hgrows

theorem Moves.clean (hm : Moves [] m fun _ => []) : m.Clean := by
  intro b hb
  obtain ⟨hgrows, -, -⟩ := hm (.refl hb) List.nodup_nil fun x hx => absurd hx List.not_mem_nil
  simpa using hgrows

/-- A computation that makes one object to keep. -/
theorem Moves.balanced {m : Comp ε Nat} (hm : Moves [] m fun x => [x]) (hb : b.Sound) :
    m.Balanced (fun x => {x}) b := by
  obtain ⟨hgrows, -, -⟩ := hm (.refl hb) List.nodup_nil fun x hx => absurd hx List.not_mem_nil
  rw [balanced_iff hgrows]
  cases hr : (m b).1 <;> simp [passedOn, handedOver]

end Ownership.Comp
