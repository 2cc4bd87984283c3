import Zrt.DrainLock
import Zrt.Lease.Specification

/-! Exclusion: the word counts the live guards, and a release runs alone with none of them. -/
namespace Zrt.Lease

open FlagWord

variable {b : Nat} {ι : Type*} {s t : State b ι} {i j : ι} {a : Action} {o : Option ι} {p : Pc b}
  {g : Nat} {current : BitVec (b + 1)}

/-- Between the exchange that sets the flag and the store that clears it. -/
def Pc.releasing : Pc b → Bool
  | .lock .drain | .check .drain | .wait .drain | .parked .drain | .woken .drain
  | .unlock .drain | .released | .endLock | .endAssert | .endStore => true
  | _ => false

/-- Past a drain loop that saw no active run. -/
def Pc.drained : Pc b → Bool
  | .unlock .drain | .released | .endLock | .endAssert | .endStore => true
  | _ => false

/-- Between the return of `begin_release` and the store of `end_release`. -/
def Pc.inWindow : Pc b → Bool
  | .released | .endLock | .endAssert | .endStore => true
  | _ => false

/-- The guard a `drop` in progress has not yet discounted. -/
def Pc.dropping : Pc b → Option Nat
  | .dropLoad g | .dropCas g _ => some g
  | _ => none

/-- What the tests before an exchange established of the expected word. -/
def Pc.Checked : Pc b → Prop
  | .cas .beginRun current => current &&& flag b = 0 ∧ current < mask b
  | .cas .beginRelease current => current &&& flag b = 0
  | _ => True

@[simp] theorem releasing_notified : p.notified.releasing = p.releasing := by
  cases p with
  | parked w => cases w <;> rfl
  | _ => rfl

@[simp] theorem drained_notified : p.notified.drained = p.drained := by
  cases p with
  | parked w => cases w <;> rfl
  | _ => rfl

@[simp] theorem dropping_notified : p.notified.dropping = p.dropping := by
  cases p <;> rfl

@[simp] theorem checked_notified : p.notified.Checked ↔ p.Checked := by
  cases p <;> rfl

theorem drained_of_inWindow (h : p.inWindow = true) : p.drained = true := by
  cases p <;> simp_all [Pc.inWindow, Pc.drained]

theorem releasing_of_drained (h : p.drained = true) : p.releasing = true := by
  cases p with
  | unlock w => cases w <;> simp_all [Pc.drained, Pc.releasing]
  | _ => simp_all [Pc.drained, Pc.releasing]

/-- `i` moved to `p`; the others stayed, or were notified. -/
structure Moves (s t : State b ι) (i : ι) (p : Pc b) : Prop where
  self : t.pc i = p
  other : ∀ j, j ≠ i → t.pc j = s.pc j ∨ t.pc j = (s.pc j).notified

theorem Moves.releasing (hm : Moves s t i p) (hp : p.releasing = (s.pc i).releasing) (j : ι) :
    (t.pc j).releasing = (s.pc j).releasing := by
  by_cases hj : j = i
  · rw [hj, hm.self, hp]
  · rcases hm.other j hj with he | he <;> simp [he]

theorem Moves.dropping (hm : Moves s t i p) (hp : p.dropping = (s.pc i).dropping) (j : ι) :
    (t.pc j).dropping = (s.pc j).dropping := by
  by_cases hj : j = i
  · rw [hj, hm.self, hp]
  · rcases hm.other j hj with he | he <;> simp [he]

theorem Moves.checked (hm : Moves s t i p) (hp : p.Checked) (hs : ∀ j, (s.pc j).Checked) (j : ι) :
    (t.pc j).Checked := by
  by_cases hj : j = i
  · rwa [hj, hm.self]
  · rcases hm.other j hj with he | he <;> simp [he, hs j]

/-- Only the moving thread can come to be past a drain. -/
theorem Moves.drained (hm : Moves s t i p) (hd : (t.pc j).drained = true) :
    (s.pc j).drained = true ∨ (j = i ∧ p.drained = true) := by
  by_cases hj : j = i
  · subst hj
    exact .inr ⟨rfl, hm.self ▸ hd⟩
  · left
    rcases hm.other j hj with he | he <;> simpa [he] using hd

/-- The live guards: who holds them, and who is dropping them. -/
structure Guards (s : State b ι) : Prop where
  fresh : ∀ g ∈ s.live, g < s.guards
  held : s.held ⊆ s.live
  dropping : ∀ i g, (s.pc i).dropping = some g → g ∈ s.live ∧ g ∉ s.held
  single : ∀ i j g, (s.pc i).dropping = some g → (s.pc j).dropping = some g → i = j

theorem Guards.same (h : Guards s) (hm : Moves s t i p) (hp : p.dropping = (s.pc i).dropping)
    (hg : t.guards = s.guards) (hl : t.live = s.live) (hh : t.held = s.held) : Guards t where
  fresh := by rw [hl, hg]; exact h.fresh
  held := by rw [hl, hh]; exact h.held
  dropping j g := by rw [hm.dropping hp, hl, hh]; exact h.dropping j g
  single j k g := by rw [hm.dropping hp, hm.dropping hp]; exact h.single j k g

theorem Guards.not_mem (h : Guards s) : s.guards ∉ s.live :=
  fun hmem => Nat.lt_irrefl _ (h.fresh _ hmem)

theorem Guards.enter (h : Guards s) (hm : Moves s t i p) (hp : p.dropping = (s.pc i).dropping)
    (hg : t.guards = s.guards + 1) (hl : t.live = insert s.guards s.live)
    (hh : t.held = insert s.guards s.held) : Guards t where
  fresh g hmem := by
    rw [hl, Finset.mem_insert] at hmem
    rw [hg]
    rcases hmem with rfl | hmem
    · exact Nat.lt_succ_self _
    · exact Nat.lt_succ_of_lt (h.fresh g hmem)
  held := by
    rw [hl, hh]
    exact Finset.insert_subset_insert _ h.held
  dropping j g hj := by
    rw [hm.dropping hp] at hj
    obtain ⟨hlive, hheld⟩ := h.dropping j g hj
    have hne : g ≠ s.guards := fun he => h.not_mem (he ▸ hlive)
    rw [hl, hh]
    exact ⟨Finset.mem_insert_of_mem hlive, by simp [hne, hheld]⟩
  single j k g := by rw [hm.dropping hp, hm.dropping hp]; exact h.single j k g

theorem Guards.drop (h : Guards s) (hm : Moves s t i (.dropLoad g)) (hheld : g ∈ s.held)
    (hg : t.guards = s.guards) (hl : t.live = s.live) (hh : t.held = s.held.erase g) :
    Guards t := by
  have hdr : ∀ j g', (t.pc j).dropping = some g' →
      (j = i ∧ g' = g) ∨ (j ≠ i ∧ g' ≠ g ∧ (s.pc j).dropping = some g') := by
    intro j g' hj
    by_cases hji : j = i
    · subst hji
      rw [hm.self] at hj
      exact .inl ⟨rfl, by simpa [Pc.dropping] using hj.symm⟩
    · have hs : (s.pc j).dropping = some g' := by
        rcases hm.other j hji with he | he <;> simpa [he] using hj
      refine .inr ⟨hji, ?_, hs⟩
      rintro rfl
      exact (h.dropping j g' hs).2 hheld
  refine ⟨by rw [hl, hg]; exact h.fresh, ?_, ?_, ?_⟩
  · rw [hl, hh]
    exact (Finset.erase_subset _ _).trans h.held
  · intro j g' hj
    rw [hl, hh]
    rcases hdr j g' hj with ⟨-, rfl⟩ | ⟨-, -, hs⟩
    · exact ⟨h.held hheld, by simp⟩
    · obtain ⟨hlive, hnot⟩ := h.dropping j g' hs
      exact ⟨hlive, fun hmem => hnot (Finset.mem_of_mem_erase hmem)⟩
  · intro j k g' hj hk
    rcases hdr j g' hj with ⟨rfl, he⟩ | ⟨-, he, hjs⟩ <;>
      rcases hdr k g' hk with ⟨rfl, he'⟩ | ⟨-, he', hks⟩
    · rfl
    · exact absurd he he'
    · exact absurd he' he
    · exact h.single j k g' hjs hks

theorem Guards.leave (h : Guards s) (hm : Moves s t i p) (hdrop : (s.pc i).dropping = some g)
    (hp : p.dropping = none) (hg : t.guards = s.guards) (hl : t.live = s.live.erase g)
    (hh : t.held = s.held) : Guards t := by
  have hdr : ∀ j g', (t.pc j).dropping = some g' → j ≠ i ∧ (s.pc j).dropping = some g' := by
    intro j g' hj
    by_cases hji : j = i
    · subst hji
      rw [hm.self, hp] at hj
      cases hj
    · rcases hm.other j hji with he | he <;> exact ⟨hji, by simpa [he] using hj⟩
  refine ⟨?_, ?_, ?_, ?_⟩
  · intro g' hmem
    rw [hl] at hmem
    rw [hg]
    exact h.fresh g' (Finset.mem_of_mem_erase hmem)
  · rw [hl, hh]
    exact Finset.subset_erase.mpr ⟨h.held, (h.dropping i g hdrop).2⟩
  · intro j g' hj
    obtain ⟨hji, hj⟩ := hdr j g' hj
    obtain ⟨hlive', hnot'⟩ := h.dropping j g' hj
    rw [hl, hh]
    refine ⟨Finset.mem_erase.mpr ⟨?_, hlive'⟩, hnot'⟩
    rintro rfl
    exact hji (h.single j i g' hj hdrop)
  · intro j k g' hj hk
    exact h.single j k g' (hdr j g' hj).2 (hdr k g' hk).2

/-- The accounting, with `o` the thread whose release is in progress. -/
structure Invariant (o : Option ι) (s : State b ι) : Prop where
  word : s.word = pack b o.isSome s.live.card
  card : s.live.card < 2 ^ b
  owner : ∀ i, (s.pc i).releasing = true ↔ o = some i
  drained : ∀ i, (s.pc i).drained = true → s.live = ∅
  checked : ∀ i, (s.pc i).Checked
  guards : Guards s

theorem Invariant.mask_eq_zero (h : Invariant o s) : s.word &&& mask b = 0 ↔ s.live = ∅ := by
  rw [h.word, pack_and_mask_eq_zero h.card, Finset.card_eq_zero]

theorem Invariant.flag_eq_zero (h : Invariant o s) : s.word &&& flag b = 0 ↔ o = none := by
  rw [h.word, pack_and_flag_eq_zero h.card]
  cases o <;> simp

theorem Invariant.dropLoop (h : Invariant o s) (hd : (s.pc i).dropping = some g) :
    dropLoop g s.word = .dropCas g s.word := by
  have hne : s.word &&& mask b ≠ 0 := by
    rw [Ne, h.mask_eq_zero]
    exact Finset.ne_empty_of_mem (h.guards.dropping i g hd).1
  rw [Lease.dropLoop, if_neg hne]

theorem invariant_initial : Invariant none (.new : State b ι) where
  word := by simp [State.new, pack]
  card := Nat.two_pow_pos b
  owner := by simp [State.new, Pc.releasing]
  drained := by simp [State.new]
  checked := by simp [State.new, Pc.Checked]
  guards := ⟨by simp [State.new], by simp [State.new], by simp [State.new, Pc.dropping],
    by simp [State.new, Pc.dropping]⟩

/-- A step that leaves the word and the guards alone. -/
theorem Invariant.quiet (h : Invariant o s) (hm : Moves s t i p) (hw : t.word = s.word)
    (hg : t.guards = s.guards) (hl : t.live = s.live) (hh : t.held = s.held)
    (hr : p.releasing = (s.pc i).releasing) (hdr : p.dropping = (s.pc i).dropping)
    (hd : p.drained = true → s.live = ∅) (hc : p.Checked) : Invariant o t where
  word := by rw [hw, hl, h.word]
  card := by rw [hl]; exact h.card
  owner j := by rw [hm.releasing hr]; exact h.owner j
  drained j hj := by
    rw [hl]
    rcases hm.drained hj with hj | ⟨-, hp⟩
    · exact h.drained j hj
    · exact hd hp
  checked := hm.checked hc h.checked
  guards := h.guards.same hm hdr hg hl hh

/-- The call of `drop` takes the guard out of its holder's hands. -/
theorem Invariant.drop (h : Invariant o s) (hm : Moves s t i (.dropLoad g))
    (hpc : s.pc i = .idle) (hheld : g ∈ s.held) (hw : t.word = s.word)
    (hg : t.guards = s.guards) (hl : t.live = s.live) (hh : t.held = s.held.erase g) :
    Invariant o t where
  word := by rw [hw, hl, h.word]
  card := by rw [hl]; exact h.card
  owner j := by rw [hm.releasing (by rw [hpc]; rfl)]; exact h.owner j
  drained j hj := by
    rw [hl]
    rcases hm.drained hj with hj | ⟨-, hp⟩
    · exact h.drained j hj
    · cases hp
  checked := hm.checked trivial h.checked
  guards := h.guards.drop hm hheld hg hl hh

theorem Invariant.not_drained (h : Invariant none s) : (s.pc j).drained = false := by
  by_contra hd
  have ho := (h.owner j).mp (releasing_of_drained (by simpa using hd))
  cases ho

/-- The exchange of `begin_run`. -/
theorem Invariant.enter (h : Invariant none s) (hm : Moves s t i .idle)
    (hpc : s.pc i = .cas .beginRun s.word) (hw : t.word = s.word + 1#(b + 1))
    (hg : t.guards = s.guards + 1) (hl : t.live = insert s.guards s.live)
    (hh : t.held = insert s.guards s.held) : Invariant none t := by
  have hcard : t.live.card = s.live.card + 1 := by
    rw [hl, Finset.card_insert_of_notMem h.guards.not_mem]
  have hlt : s.live.card + 1 < 2 ^ b := by
    have hc := h.checked i
    simp only [hpc, Pc.Checked] at hc
    have hword : s.word = pack b false s.live.card := h.word
    rw [hword] at hc
    exact (pack_lt_mask h.card).mp hc.2
  refine ⟨?_, by rwa [hcard], ?_, ?_, hm.checked trivial h.checked, ?_⟩
  · rw [hw, hcard, h.word, pack_add_one]
  · intro j
    rw [hm.releasing (by rw [hpc]; rfl)]
    exact h.owner j
  · intro j hj
    rcases hm.drained hj with hj | ⟨-, hp⟩
    · simp [h.not_drained] at hj
    · cases hp
  · exact h.guards.enter hm (by rw [hpc]; rfl) hg hl hh

/-- The exchange of `begin_release`. -/
theorem Invariant.announce (h : Invariant none s) (hm : Moves s t i (.lock .drain))
    (hpc : s.pc i = .cas .beginRelease s.word) (hw : t.word = s.word ||| flag b)
    (hg : t.guards = s.guards) (hl : t.live = s.live) (hh : t.held = s.held) :
    Invariant (some i) t := by
  refine ⟨?_, by rw [hl]; exact h.card, ?_, ?_, hm.checked trivial h.checked,
    h.guards.same hm (by rw [hpc]; rfl) hg hl hh⟩
  · rw [hw, hl, h.word]
    exact pack_or_flag h.card
  · intro j
    by_cases hj : j = i
    · subst hj
      simp [hm.self, Pc.releasing]
    · have hn := h.owner j
      simp only [reduceCtorEq, iff_false, Bool.not_eq_true] at hn
      rcases hm.other j hj with he | he <;> simp [he, hn, Ne.symm hj]
  · intro j hj
    rcases hm.drained hj with hj | ⟨-, hp⟩
    · simp [h.not_drained] at hj
    · cases hp

theorem Invariant.owner_of_drained (h : Invariant o s) (hd : (s.pc i).drained = true) :
    o = some i :=
  (h.owner i).mp (releasing_of_drained hd)

/-- The store of `end_release`. -/
theorem Invariant.finish (h : Invariant o s) (hm : Moves s t i .endNotify)
    (hpc : s.pc i = .endStore) (hw : t.word = 0) (hg : t.guards = s.guards)
    (hl : t.live = s.live) (hh : t.held = s.held) : Invariant none t := by
  have hdrained : (s.pc i).drained = true := by rw [hpc]; rfl
  have hempty : s.live = ∅ := h.drained i hdrained
  refine ⟨?_, by rw [hl]; exact h.card, ?_, ?_, hm.checked trivial h.checked,
    h.guards.same hm (by rw [hpc]; rfl) hg hl hh⟩
  · rw [hw, hl, hempty]
    exact pack_zero.symm
  · intro j
    by_cases hj : j = i
    · subst hj
      simp [hm.self, Pc.releasing]
    · have hn := h.owner j
      simp only [h.owner_of_drained hdrained, Option.some.injEq, Ne.symm hj, iff_false,
        Bool.not_eq_true] at hn
      rcases hm.other j hj with he | he <;> simp [he, hn]
  · intro j _
    rw [hl, hempty]

/-- The exchange of `drop`. -/
theorem Invariant.leave (h : Invariant o s) (hm : Moves s t i p)
    (hpc : s.pc i = .dropCas g s.word) (hp : p = .dropLock ∨ p = .idle)
    (hw : t.word = s.word - 1#(b + 1)) (hg : t.guards = s.guards) (hl : t.live = s.live.erase g)
    (hh : t.held = s.held) : Invariant o t := by
  have hdrop : (s.pc i).dropping = some g := by rw [hpc]; rfl
  have hlive : g ∈ s.live := (h.guards.dropping i g hdrop).1
  have hcard : t.live.card = s.live.card - 1 := by rw [hl, Finset.card_erase_of_mem hlive]
  have hr : p.releasing = (s.pc i).releasing := by rw [hpc]; rcases hp with rfl | rfl <;> rfl
  refine ⟨?_, ?_, ?_, ?_, hm.checked ?_ h.checked, h.guards.leave hm hdrop ?_ hg hl hh⟩
  · rw [hw, hcard, h.word, pack_sub_one (Finset.card_pos.mpr ⟨g, hlive⟩)]
  · rw [hcard]
    exact Nat.lt_of_le_of_lt (Nat.sub_le _ _) h.card
  · intro j
    rw [hm.releasing hr]
    exact h.owner j
  · intro j hj
    rcases hm.drained hj with hj | ⟨-, hd⟩
    · simp [h.drained j hj] at hlive
    · rcases hp with rfl | rfl <;> cases hd
  · rcases hp with rfl | rfl <;> trivial
  · rcases hp with rfl | rfl <;> rfl

variable [DecidableEq ι]

theorem moves_goto (s : State b ι) (i : ι) (p : Pc b) : Moves s (s.goto i p) i p where
  self := by simp [State.goto]
  other j hj := by simp [State.goto, hj]

theorem moves_release (s : State b ι) (i : ι) (p : Pc b) : Moves s (s.release i p) i p :=
  ⟨(moves_goto s i p).self, (moves_goto s i p).other⟩

theorem moves_notifyAll (s : State b ι) (i : ι) (p : Pc b) : Moves s (s.notifyAll i p) i p where
  self := by simp [State.notifyAll]
  other j hj := by simp [State.notifyAll, hj]

theorem acquire_eq {p : Pc b} (h : s.acquire i p = some t) :
    s.lock = none ∧ t = { s.goto i p with lock := some i } := by
  simp only [State.acquire] at h
  split at h
  · exact ⟨‹_›, (Option.some.inj h).symm⟩
  · cases h

/-- What a thread does between its exchanges: it moves, and perhaps locks, unlocks or notifies. -/
inductive Local (s : State b ι) (i : ι) (p : Pc b) : State b ι → Prop where
  | goto : Local s i p (s.goto i p)
  | acquire {u : State b ι} (h : s.acquire i p = some u) : Local s i p u
  | release : Local s i p (s.release i p)
  | notifyAll : Local s i p (s.notifyAll i p)

/-- The accounting after a step, and its meaning for the lock. -/
def Accounted (o : Option ι) (s t : State b ι) : Prop :=
  ∃ o', Invariant o' t ∧ DrainLock.Steps ⟨s.live, o⟩ ⟨t.live, o'⟩

theorem Invariant.local (h : Invariant o s) (hl : Local s i p t)
    (hr : p.releasing = (s.pc i).releasing) (hdr : p.dropping = (s.pc i).dropping)
    (hd : p.drained = true → s.live = ∅) (hc : p.Checked) : Accounted o s t := by
  cases hl with
  | goto => exact ⟨o, h.quiet (moves_goto s i p) rfl rfl rfl rfl hr hdr hd hc, .inl rfl⟩
  | acquire ha =>
    obtain ⟨-, rfl⟩ := acquire_eq ha
    exact ⟨o, h.quiet ⟨(moves_goto s i p).self, (moves_goto s i p).other⟩ rfl rfl rfl rfl
      hr hdr hd hc, .inl rfl⟩
  | release => exact ⟨o, h.quiet (moves_release s i p) rfl rfl rfl rfl hr hdr hd hc, .inl rfl⟩
  | notifyAll => exact ⟨o, h.quiet (moves_notifyAll s i p) rfl rfl rfl rfl hr hdr hd hc, .inl rfl⟩

theorem accounted_load {l : Loop} (h : Invariant o s) (hp : s.pc i = .load l)
    (hs : s.advance i = some t) : Accounted o s t := by
  simp only [State.advance, hp] at hs
  split at hs
  · obtain rfl := Option.some.inj hs
    exact h.local .goto (by rw [hp]; rfl) (by rw [hp]; rfl) (by simp [Pc.drained]) trivial
  · rename_i hf
    cases l with
    | beginRun =>
      obtain rfl := Option.some.inj hs
      split
      · exact h.local .goto (by rw [hp]; rfl) (by rw [hp]; rfl) (by simp [Pc.drained])
          ⟨not_not.mp hf, ‹_›⟩
      · exact h.local .goto (by rw [hp]; rfl) (by rw [hp]; rfl) (by simp [Pc.drained]) trivial
    | beginRelease =>
      obtain rfl := Option.some.inj hs
      exact h.local .goto (by rw [hp]; rfl) (by rw [hp]; rfl) (by simp [Pc.drained]) (not_not.mp hf)

theorem accounted_cas {l : Loop} (h : Invariant o s) (hp : s.pc i = .cas l current)
    (hs : s.advance i = some t) : Accounted o s t := by
  have hc := h.checked i
  rw [hp] at hc
  cases l with
  | beginRun =>
    simp only [State.advance, hp] at hs
    split at hs <;> obtain rfl := Option.some.inj hs
    · subst current
      obtain rfl := h.flag_eq_zero.mp hc.1
      have hm := moves_goto s i (.idle : Pc b)
      exact ⟨none, h.enter ⟨hm.self, hm.other⟩ hp rfl rfl rfl rfl,
        .inr (.enter s.guards rfl h.guards.not_mem)⟩
    · exact h.local .goto (by rw [hp]; rfl) (by rw [hp]; rfl) (by simp [Pc.drained]) trivial
  | beginRelease =>
    simp only [State.advance, hp] at hs
    split at hs <;> obtain rfl := Option.some.inj hs
    · subst current
      obtain rfl := h.flag_eq_zero.mp hc
      have hm := moves_goto s i (.lock .drain : Pc b)
      exact ⟨some i, h.announce ⟨hm.self, hm.other⟩ hp rfl rfl rfl rfl, .inr (.announce i rfl)⟩
    · exact h.local .goto (by rw [hp]; rfl) (by rw [hp]; rfl) (by simp [Pc.drained]) trivial

theorem accounted_dropCas (h : Invariant o s) (hp : s.pc i = .dropCas g current)
    (hs : s.advance i = some t) : Accounted o s t := by
  have hdrop : (s.pc i).dropping = some g := by rw [hp]; rfl
  simp only [State.advance, hp] at hs
  split at hs <;> obtain rfl := Option.some.inj hs
  · subst current
    refine ⟨o, ?_, .inr (.leave g (h.guards.dropping i g hdrop).1)⟩
    split
    · have hm := moves_goto s i (.dropLock : Pc b)
      exact h.leave ⟨hm.self, hm.other⟩ hp (.inl rfl) rfl rfl rfl rfl
    · have hm := moves_goto s i (.idle : Pc b)
      exact h.leave ⟨hm.self, hm.other⟩ hp (.inr rfl) rfl rfl rfl rfl
  · rw [h.dropLoop hdrop]
    exact h.local .goto (by rw [hp]; rfl) (by rw [hp]; rfl) (by simp [Pc.drained]) trivial

theorem accounted_check {w : Wait} (h : Invariant o s) (hp : s.pc i = .check w)
    (hs : s.advance i = some t) : Accounted o s t := by
  simp only [State.advance, hp] at hs
  obtain rfl := Option.some.inj hs
  split
  · refine h.local .goto ?_ (by rw [hp]; rfl) (by simp [Pc.drained]) trivial
    rw [hp]
    cases w <;> rfl
  · rename_i hb
    refine h.local .goto ?_ (by rw [hp]; rfl) ?_ trivial
    · rw [hp]
      cases w <;> rfl
    · intro hd
      cases w with
      | releasing l => cases hd
      | drain => exact h.mask_eq_zero.mp (not_not.mp hb)

/-- A step of a thread waiting for the lock, for a notification, or giving the lock back. -/
theorem accounted_wait {w : Wait} (h : Invariant o s)
    (hp : s.pc i = .lock w ∨ s.pc i = .woken w ∨ s.pc i = .wait w ∨ s.pc i = .unlock w)
    (hs : s.advance i = some t) : Accounted o s t := by
  rcases hp with hp | hp | hp | hp <;> simp only [State.advance, hp] at hs
  · refine h.local (.acquire hs) ?_ (by rw [hp]; rfl) (by simp [Pc.drained]) trivial
    rw [hp]
    cases w <;> rfl
  · refine h.local (.acquire hs) ?_ (by rw [hp]; rfl) (by simp [Pc.drained]) trivial
    rw [hp]
    cases w <;> rfl
  · obtain rfl := Option.some.inj hs
    refine h.local .release ?_ (by rw [hp]; rfl) (by simp [Pc.drained]) trivial
    rw [hp]
    cases w <;> rfl
  · obtain rfl := Option.some.inj hs
    cases w with
    | releasing l =>
      exact h.local .release (by rw [hp]; rfl) (by rw [hp]; rfl) (by simp [Pc.drained, Wait.resume])
        trivial
    | drain =>
      exact h.local .release (by rw [hp]; rfl) (by rw [hp]; rfl)
        (fun _ => h.drained i (by rw [hp]; rfl)) trivial

theorem accounted_advance (h : Invariant o s) (hs : s.advance i = some t) : Accounted o s t := by
  cases hp : s.pc i with
  | idle | parked | released => simp [State.advance, hp] at hs
  | load l => exact accounted_load h hp hs
  | cas l current => exact accounted_cas h hp hs
  | lock w => exact accounted_wait h (.inl hp) hs
  | woken w => exact accounted_wait h (.inr (.inl hp)) hs
  | wait w => exact accounted_wait h (.inr (.inr (.inl hp))) hs
  | unlock w => exact accounted_wait h (.inr (.inr (.inr hp))) hs
  | check w => exact accounted_check h hp hs
  | endLock =>
    simp only [State.advance, hp] at hs
    exact h.local (.acquire hs) (by rw [hp]; rfl) (by rw [hp]; rfl)
      (fun _ => h.drained i (by rw [hp]; rfl)) trivial
  | endAssert =>
    have hempty : s.live = ∅ := h.drained i (by rw [hp]; rfl)
    simp only [State.advance, hp, if_pos (h.mask_eq_zero.mpr hempty)] at hs
    obtain rfl := Option.some.inj hs
    exact h.local .goto (by rw [hp]; rfl) (by rw [hp]; rfl) (fun _ => hempty) trivial
  | endStore =>
    simp only [State.advance, hp] at hs
    obtain rfl := Option.some.inj hs
    have hd : (s.pc i).drained = true := by rw [hp]; rfl
    have hm := moves_goto s i (.endNotify : Pc b)
    exact ⟨none, h.finish ⟨hm.self, hm.other⟩ hp rfl rfl rfl rfl,
      .inr (.finish i (h.owner_of_drained hd) (h.drained i hd))⟩
  | dropLoad g =>
    simp only [State.advance, hp] at hs
    obtain rfl := Option.some.inj hs
    rw [h.dropLoop (g := g) (i := i) (by rw [hp]; rfl)]
    exact h.local .goto (by rw [hp]; rfl) (by rw [hp]; rfl) (by simp [Pc.drained]) trivial
  | dropCas g previous => exact accounted_dropCas h hp hs
  | dropLock =>
    simp only [State.advance, hp] at hs
    exact h.local (.acquire hs) (by rw [hp]; rfl) (by rw [hp]; rfl) (by simp [Pc.drained]) trivial
  | endNotify | dropNotify =>
    simp only [State.advance, hp] at hs
    obtain rfl := Option.some.inj hs
    exact h.local .notifyAll (by rw [hp]; rfl) (by rw [hp]; rfl) (by simp [Pc.drained]) trivial
  | endUnlock | dropUnlock =>
    simp only [State.advance, hp] at hs
    obtain rfl := Option.some.inj hs
    exact h.local .release (by rw [hp]; rfl) (by rw [hp]; rfl) (by simp [Pc.drained]) trivial

/-- What each action asks of its thread, and what it does. -/
inductive Stepped (s : State b ι) (i : ι) : Action → State b ι → Prop where
  | beginRun (hp : s.pc i = .idle) : Stepped s i .beginRun (s.goto i (.load .beginRun))
  | beginRelease (hp : s.pc i = .idle) :
      Stepped s i .beginRelease (s.goto i (.load .beginRelease))
  | endRelease (hp : s.pc i = .released) : Stepped s i .endRelease (s.goto i .endLock)
  | drop {g : Nat} (hp : s.pc i = .idle) (hg : g ∈ s.held) :
      Stepped s i (.drop g) { s.goto i (.dropLoad g) with held := s.held.erase g }
  | step {t : State b ι} (ha : s.advance i = some t) : Stepped s i .step t
  | weakFailCas {l : Loop} {current : BitVec (b + 1)} (hp : s.pc i = .cas l current) :
      Stepped s i .weakFail (s.goto i (.load l))
  | weakFailDrop {g : Nat} {previous : BitVec (b + 1)} (hp : s.pc i = .dropCas g previous) :
      Stepped s i .weakFail (s.goto i (dropLoop g s.word))
  | wake {w : Wait} (hp : s.pc i = .parked w) : Stepped s i .wake (s.goto i (.woken w))

theorem step_cases (hs : step s i a = some t) : Stepped s i a t := by
  cases a with
  | beginRun =>
    simp only [step, Option.ite_none_right_eq_some, Option.some.injEq] at hs
    obtain ⟨hp, rfl⟩ := hs
    exact .beginRun hp
  | beginRelease =>
    simp only [step, Option.ite_none_right_eq_some, Option.some.injEq] at hs
    obtain ⟨hp, rfl⟩ := hs
    exact .beginRelease hp
  | endRelease =>
    simp only [step, Option.ite_none_right_eq_some, Option.some.injEq] at hs
    obtain ⟨hp, rfl⟩ := hs
    exact .endRelease hp
  | drop g =>
    simp only [step, Option.ite_none_right_eq_some, Option.some.injEq] at hs
    obtain ⟨⟨hp, hg⟩, rfl⟩ := hs
    exact .drop hp hg
  | step => exact .step hs
  | weakFail =>
    simp only [step] at hs
    split at hs
    · obtain rfl := Option.some.inj hs
      exact .weakFailCas ‹_›
    · obtain rfl := Option.some.inj hs
      exact .weakFailDrop ‹_›
    · cases hs
  | wake =>
    simp only [step] at hs
    split at hs
    · obtain rfl := Option.some.inj hs
      exact .wake ‹_›
    · cases hs

/-- Every step keeps the accounting, and is a step of the abstract lock or none. -/
theorem invariant_step (h : Invariant o s) (hs : step s i a = some t) : Accounted o s t := by
  cases step_cases hs with
  | step ha => exact accounted_advance h ha
  | beginRun hp | beginRelease hp | weakFailCas hp =>
    exact h.local .goto (by rw [hp]; rfl) (by rw [hp]; rfl) (by simp [Pc.drained]) trivial
  | endRelease hp =>
    exact h.local .goto (by rw [hp]; rfl) (by rw [hp]; rfl)
      (fun _ => h.drained i (by rw [hp]; rfl)) trivial
  | @drop g hp hg =>
    have hm := moves_goto s i (.dropLoad g : Pc b)
    exact ⟨o, h.drop ⟨hm.self, hm.other⟩ hp hg rfl rfl rfl rfl, .inl rfl⟩
  | @weakFailDrop g _ hp =>
    rw [h.dropLoop (g := g) (i := i) (by rw [hp]; rfl)]
    exact h.local .goto (by rw [hp]; rfl) (by rw [hp]; rfl) (by simp [Pc.drained]) trivial
  | @wake w hp =>
    refine h.local .goto ?_ (by rw [hp]; rfl) (by simp [Pc.drained]) trivial
    rw [hp]
    cases w <;> rfl

theorem advance_guards (hs : s.advance i = some t) : (t.guards = s.guards ∧ t.held = s.held) ∨
    (t.guards = s.guards + 1 ∧ t.held = insert s.guards s.held) := by
  unfold State.advance at hs
  split at hs <;> (try split at hs) <;> (try split at hs) <;>
    first
    | (obtain rfl := Option.some.inj hs; exact .inl ⟨rfl, rfl⟩)
    | (obtain rfl := Option.some.inj hs; exact .inr ⟨rfl, rfl⟩)
    | (obtain ⟨-, rfl⟩ := acquire_eq hs; exact .inl ⟨rfl, rfl⟩)
    | exact nomatch hs

/-- A step returns a guard, takes one to drop, or leaves the guards out alone. -/
theorem step_guards (hs : step s i a = some t) :
    (t.guards = s.guards ∧ t.held = s.held) ∨
    (∃ g, a = .drop g ∧ g ∈ s.held ∧ t.guards = s.guards ∧ t.held = s.held.erase g) ∨
    (t.guards = s.guards + 1 ∧ t.held = insert s.guards s.held) := by
  cases step_cases hs with
  | step ha => exact (advance_guards ha).imp_right .inr
  | drop _ hg => exact .inr (.inl ⟨_, rfl, hg, rfl, rfl⟩)
  | beginRun | beginRelease | endRelease | weakFailCas | weakFailDrop | wake =>
    exact .inl ⟨rfl, rfl⟩

theorem invariant_reachable (h : Reachable s) : ∃ o, Invariant o s := by
  apply Lts.invariant_reachable (P := fun s : State b ι => ∃ o, Invariant o s) ?_ ?_ h
  · rintro _ rfl
    exact ⟨none, invariant_initial⟩
  · rintro s a t ⟨o, hi⟩ hs
    obtain ⟨o', hi', -⟩ := invariant_step hi hs
    exact ⟨o', hi'⟩

/-- The word counts the live guards; the release window belongs to one thread, holds no guard and
admits none; and the store that ends it erases none. -/
theorem lease_exclusion (h : Reachable s) :
    (s.word &&& mask b).toNat = s.live.card ∧
    (∀ i j, (s.pc i).inWindow = true → (s.pc j).inWindow = true → i = j) ∧
    (∀ i, (s.pc i).inWindow = true →
      s.live = ∅ ∧ ∀ j a t, step s j a = some t → t.live = ∅) ∧
    ∀ i, s.pc i = .endStore → s.word &&& mask b = 0 := by
  obtain ⟨o, hi⟩ := invariant_reachable h
  have howner : ∀ i, (s.pc i).inWindow = true → o = some i :=
    fun i hw => hi.owner_of_drained (drained_of_inWindow hw)
  have hempty : ∀ i, (s.pc i).inWindow = true → s.live = ∅ :=
    fun i hw => hi.drained i (drained_of_inWindow hw)
  refine ⟨by rw [hi.word, pack_and_mask hi.card], ?_, ?_, ?_⟩
  · intro i j hwi hwj
    exact Option.some.inj ((howner i hwi).symm.trans (howner j hwj))
  · intro i hw
    refine ⟨hempty i hw, ?_⟩
    intro j a t hs
    obtain ⟨o', -, ha⟩ := invariant_step hi hs
    exact DrainLock.drained_steps ha (howner i hw) (hempty i hw)
  · intro i hp
    exact hi.mask_eq_zero.mpr (hempty i (by rw [hp]; rfl))

/-- Thread 0 takes a run guard; thread 1 announces a release, finds it, and parks. -/
def drainRun : List (Nat × Action) :=
  [(0, .beginRun), (0, .step), (0, .step),
    (1, .beginRelease), (1, .step), (1, .step), (1, .step), (1, .step), (1, .step)]

/-- Thread 0 drops the guard and notifies; thread 1 wakes, and `begin_release` returns. -/
def wakeRun : List (Nat × Action) :=
  [(0, .drop 0), (0, .step), (0, .step), (0, .step), (0, .step), (0, .step),
    (1, .step), (1, .step), (1, .step)]

theorem lease_exclusion_released : ∃ s t : State 63 Nat,
    Lts.schedule (fun s a => step s a.1 a.2) .new drainRun = some s ∧
      s.pc 1 = .parked .drain ∧ s.live = {0} ∧ (s.word &&& mask 63).toNat = 1 ∧
      Lts.schedule (fun s a => step s a.1 a.2) s wakeRun = some t ∧
      t.pc 1 = .released ∧ t.live = ∅ ∧ (t.word &&& mask 63).toNat = 0 := by
  obtain ⟨s, hs, hparked, hlive, t, ht, hreleased⟩ : ∃ s : State 63 Nat,
      Lts.schedule (fun s a => step s a.1 a.2) .new drainRun = some s ∧
        s.pc 1 = .parked .drain ∧ s.live = {0} ∧ ∃ t : State 63 Nat,
        Lts.schedule (fun s a => step s a.1 a.2) s wakeRun = some t ∧ t.pc 1 = .released :=
    ⟨_, rfl, rfl, rfl, _, rfl, rfl⟩
  have hreach := schedule_reachable (.initial rfl) hs
  obtain ⟨hword, -⟩ := lease_exclusion hreach
  obtain ⟨hword', -, hwindow, -⟩ := lease_exclusion (schedule_reachable hreach ht)
  have hempty : t.live = ∅ := (hwindow 1 (by rw [hreleased]; rfl)).1
  rw [hlive] at hword
  rw [hempty] at hword'
  exact ⟨s, t, hs, hparked, hlive, hword, ht, hreleased, hempty, hword'⟩

end Zrt.Lease
