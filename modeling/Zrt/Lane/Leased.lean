import Zrt.Lane.Outcome
import Zrt.Lease.Safety

/-! Lanes and other holders of one captured-graph lease, in any interleaving. -/
namespace Zrt.Lane.Leased

/-- Where the thread that calls into a lane stands. `entering` is inside `begin_run`, `ran` is past
`RunWithBinding`, and `dropping` is inside the drop of the run guard. -/
inductive Phase where
  | rest
  | entering (op : Op) (n : Native)
  | entered (op : Op) (n : Native)
  | ran (op : Op) (n : Native)
  | dropping (gone : Bool)
  | gone

/-- A lane and the call on it. `guard` is the run guard of the lease the call or the lane owns;
`pending` is history: a `RunWithBinding` for the graph was called and is not proven fenced. -/
structure Holder where
  lane : ServingLane
  phase : Phase
  guard : Option Nat
  pending : Bool

/-- The lease of one graph id. The calls on lane `k` are the lease's thread `.inl k`. -/
structure State (b : Nat) (κ ι : Type*) where
  lease : Lease.State b (κ ⊕ ι)
  holder : κ → Holder

variable {b : Nat} {κ ι : Type*} [DecidableEq κ] [DecidableEq ι]

def State.put (s : State b κ ι) (k : κ) (h : Holder) : State b κ ι :=
  { s with holder := Function.update s.holder k h }

def resting (gone : Bool) : Phase := if gone then .gone else .rest

/-- A step of the calling thread inside the lease; `guard` is the one `begin_run` returned. Without
one, `begin_run` panicked. -/
def Holder.advance (h : Holder) (idle : Bool) (guard : Option Nat) : Holder :=
  match idle, h.phase, guard with
  | true, .entering op n, some g => { h with phase := .entered op n, guard := some g }
  | true, .entering _ _, none => { h with phase := .rest }
  | true, .dropping gone, _ => { h with phase := resting gone }
  | _, _, _ => h

/-- The end of a call that left lane `l`: the guard is in the lane, or it is dropped. -/
def State.settle (id : Int) (s : State b κ ι) (k : κ) (l : ServingLane) (gone : Bool) :
    Option (State b κ ι) :=
  let pending := (s.holder k).pending && l.work ≠ .none
  match (s.holder k).guard, decide (l.inFlightGraphGuard = some id) with
  | some g, false => (Lease.step s.lease (.inl k) (.drop g)).map fun lease =>
      { s.put k ⟨l, .dropping gone, none, pending⟩ with lease }
  | guard, _ => some (s.put k ⟨l, resting gone, guard, pending⟩)

/-- `drop` drops the lane, or its token; `other` is a step of another holder. -/
inductive Action (κ ι : Type*) where
  | call (k : κ) (op : Op) (n : Native)
  | lease (k : κ) (a : Lease.Action)
  | issue (k : κ)
  | settle (k : κ)
  | unwind (k : κ)
  | drop (k : κ) (n : Native)
  | other (j : ι) (a : Lease.Action)

variable (f : Features) (id : Int)

inductive Step : State b κ ι → Action κ ι → State b κ ι → Prop where
  | enter {s : State b κ ι} {k : κ} {op : Op} {n : Native} {t : Lease.State b (κ ⊕ ι)}
      (hp : (s.holder k).phase = .rest) (hb : op.Begins f (s.holder k).lane n)
      (hg : (s.holder k).lane.graphLease = some id)
      (hl : Lease.step s.lease (.inl k) .beginRun = some t) :
      Step s (.call k op n) { s.put k { s.holder k with phase := .entering op n } with lease := t }
  -- a call without a lease, or on the lease of another graph
  | pass {s : State b κ ι} {k : κ} {op : Op} {n : Native}
      (hp : (s.holder k).phase = .rest)
      (hb : (op.Begins f (s.holder k).lane n ∧ (s.holder k).lane.graphLease ≠ some id) ∨
        (¬ op.Begins f (s.holder k).lane n ∧ op.Issues f (s.holder k).lane n)) :
      Step s (.call k op n) (s.put k { s.holder k with phase := .entered op n })
  | quiet {s t : State b κ ι} {k : κ} {op : Op} {n : Native}
      (hp : (s.holder k).phase = .rest) (hb : ¬ op.Begins f (s.holder k).lane n)
      (hi : ¬ op.Issues f (s.holder k).lane n)
      (hs : s.settle id k (op.exec f (s.holder k).lane n) false = some t) : Step s (.call k op n) t
  | lease {s : State b κ ι} {k : κ} {a : Lease.Action} {t : Lease.State b (κ ⊕ ι)}
      (hp : (∃ op n, (s.holder k).phase = .entering op n) ∨
        ∃ gone, (s.holder k).phase = .dropping gone)
      (ha : a = .step ∨ a = .weakFail ∨ a = .wake)
      (hl : Lease.step s.lease (.inl k) a = some t) :
      Step s (.lease k a) { s.put k ((s.holder k).advance (decide (t.pc (.inl k) = .idle))
        (if t.guards = s.lease.guards then none else some s.lease.guards)) with lease := t }
  | issue {s : State b κ ι} {k : κ} {op : Op} {n : Native}
      (hp : (s.holder k).phase = .entered op n) (hi : op.Issues f (s.holder k).lane n) :
      Step s (.issue k) (s.put k { s.holder k with
        phase := .ran op n
        pending := (s.holder k).pending || op.annotation f (s.holder k).lane = some id })
  | settle {s t : State b κ ι} {k : κ} {op : Op} {n : Native}
      (hp : (s.holder k).phase = .ran op n ∨
        ((s.holder k).phase = .entered op n ∧ ¬ op.Issues f (s.holder k).lane n))
      (hs : s.settle id k (op.exec f (s.holder k).lane n) false = some t) : Step s (.settle k) t
  -- `begin_run` panicked on the lease of another graph
  | unwind {s : State b κ ι} {k : κ} {op : Op} {n : Native}
      (hp : (s.holder k).phase = .entered op n) (hg : (s.holder k).lane.graphLease ≠ some id) :
      Step s (.unwind k) (s.put k { s.holder k with phase := .rest })
  | drop {s t : State b κ ι} {k : κ} {n : Native} (hp : (s.holder k).phase = .rest)
      (hs : s.settle id k (finishInFlightBestEffort f (s.holder k).lane n) true = some t) :
      Step s (.drop k n) t
  -- a guard is dropped by its owner
  | other {s : State b κ ι} {j : ι} {a : Lease.Action} {t : Lease.State b (κ ⊕ ι)}
      (ha : ∀ k g, (s.holder k).guard = some g → a ≠ .drop g)
      (hl : Lease.step s.lease (.inr j) a = some t) : Step s (.other j a) { s with lease := t }

/-- Any lanes as built, any other threads, and a fresh lease. -/
def leasedLts (b : Nat) (κ ι : Type*) [DecidableEq κ] [DecidableEq ι] :
    Lts.System (State b κ ι) (Action κ ι) where
  Initial s := s.lease = .new ∧ ∀ k, ∃ l, (laneLts f).Initial l ∧
    s.holder k = ⟨l, .rest, none, false⟩
  Tr := Step f id

abbrev Reachable (s : State b κ ι) : Prop := Lts.Reachable (leasedLts f id b κ ι) s

variable {f : Features} {id : Int} {s t : State b κ ι} {l : ServingLane} {k : κ} {gone : Bool}

/-- The lease whose guard the thread of a lane has to account for. -/
def Holder.due (h : Holder) : Option Int :=
  match h.phase with
  | .rest | .gone => h.lane.inFlightGraphGuard
  | .entered _ _ | .ran _ _ => h.lane.graphLease
  | .entering _ _ | .dropping _ => none

/-- What holds of a lane and the call on it. -/
structure Holder.Sound (f : Features) (id : Int) (h : Holder) : Prop where
  coherent : Coherent h.lane
  guard : h.guard ≠ none ↔ h.due = some id
  pending : h.pending = true → h.guard ≠ none
  entering : ∀ op n, h.phase = .entering op n →
    op.Begins f h.lane n ∧ h.lane.graphLease = some id
  entered : ∀ op n, h.phase = .entered op n →
    op.Begins f h.lane n ∨ op.Issues f h.lane n
  ran : ∀ op n, h.phase = .ran op n → op.Issues f h.lane n
  dropping : ∀ gone, h.phase = .dropping gone → h.lane.inFlightGraphGuard ≠ some id

/-- The lanes own the guards they hold, one each. -/
structure Invariant (f : Features) (id : Int) (s : State b κ ι) : Prop where
  lease : Lease.Reachable s.lease
  sound : ∀ k, (s.holder k).Sound f id
  held : ∀ k g, (s.holder k).guard = some g → g ∈ s.lease.held
  single : ∀ k k' g, (s.holder k).guard = some g → (s.holder k').guard = some g → k = k'

theorem Holder.Sound.of_resting (hc : Coherent l) {guard : Option Nat} {pending : Bool}
    (hg : guard ≠ none ↔ l.inFlightGraphGuard = some id) (hp : pending = true → guard ≠ none) :
    Holder.Sound f id ⟨l, resting gone, guard, pending⟩ := by
  cases gone <;> exact ⟨hc, hg, hp, by simp [resting], by simp [resting], by simp [resting],
    by simp [resting]⟩

/-- The end of a call that keeps its guard, or had none. -/
theorem Holder.Sound.kept {h : Holder} (hs : h.Sound f id) (hc : Coherent l)
    (hdue : l.inFlightGraphGuard = h.due ∨ (l.inFlightGraphGuard = none ∧ l.work = .none))
    (hk : h.guard = none ∨ l.inFlightGraphGuard = some id) :
    Holder.Sound f id ⟨l, resting gone, h.guard, h.pending && l.work ≠ .none⟩ := by
  refine .of_resting hc ⟨fun hg => hk.resolve_left hg, fun hg => hs.guard.mpr ?_⟩ ?_
  · rcases hdue with he | ⟨he, -⟩
    · exact he.symm.trans hg
    · exact absurd (he.symm.trans hg) (by simp)
  · intro hp
    exact hs.pending (by simp_all)

/-- The end of a call that drops its guard: what it issued is fenced. -/
theorem Holder.Sound.dropped {h : Holder} (hs : h.Sound f id) (hc : Coherent l)
    (hdue : l.inFlightGraphGuard = h.due ∨ (l.inFlightGraphGuard = none ∧ l.work = .none))
    (hg : h.guard ≠ none) (hl : l.inFlightGraphGuard ≠ some id) :
    Holder.Sound f id ⟨l, .dropping gone, none, h.pending && l.work ≠ .none⟩ := by
  have hw : l.work = .none := by
    rcases hdue with he | ⟨-, hw⟩
    · exact absurd (he.trans (hs.guard.mp hg)) hl
    · exact hw
  exact ⟨hc, by simp [Holder.due], by simp [hw], by simp, by simp, by simp, fun _ _ => hl⟩

theorem settle_cases (h : s.settle id k l gone = some t) :
    (((s.holder k).guard = none ∨ l.inFlightGraphGuard = some id) ∧
      t = s.put k ⟨l, resting gone, (s.holder k).guard,
        (s.holder k).pending && l.work ≠ .none⟩) ∨
    ∃ g lease, (s.holder k).guard = some g ∧ l.inFlightGraphGuard ≠ some id ∧
      Lease.step s.lease (.inl k) (.drop g) = some lease ∧
      t = { s.put k ⟨l, .dropping gone, none, (s.holder k).pending && l.work ≠ .none⟩ with
        lease } := by
  unfold State.settle at h
  cases hg : (s.holder k).guard with
  | none =>
    simp only [hg, Option.some.injEq] at h
    exact .inl ⟨.inl rfl, h.symm⟩
  | some g =>
    by_cases hl : l.inFlightGraphGuard = some id
    · simp only [hg, decide_eq_true hl, Option.some.injEq] at h
      exact .inl ⟨.inr hl, h.symm⟩
    · simp only [hg, decide_eq_false hl, Option.map_eq_some_iff] at h
      obtain ⟨lease, hs, rfl⟩ := h
      exact .inr ⟨g, lease, rfl, hl, hs, rfl⟩

/-- One lane and the lease change; the guards of the others stay out. -/
theorem Invariant.update (hi : Invariant f id s) {h : Holder} {lease : Lease.State b (κ ⊕ ι)}
    (hl : Lease.Reachable lease) (hs : h.Sound f id)
    (hkeep : ∀ k' g, k' ≠ k → (s.holder k').guard = some g → g ∈ lease.held)
    (hown : ∀ g, h.guard = some g → g ∈ lease.held ∧
      ∀ k', k' ≠ k → (s.holder k').guard ≠ some g) :
    Invariant f id { s.put k h with lease } where
  lease := hl
  sound k' := by
    by_cases hk : k' = k
    · subst hk
      simpa [State.put] using hs
    · simpa [State.put, hk] using hi.sound k'
  held k' g hg := by
    by_cases hk : k' = k
    · subst hk
      exact (hown g (by simpa [State.put] using hg)).1
    · exact hkeep k' g hk (by simpa [State.put, hk] using hg)
  single k₁ k₂ g h₁ h₂ := by
    by_cases hk₁ : k₁ = k <;> by_cases hk₂ : k₂ = k
    · rw [hk₁, hk₂]
    · subst hk₁
      simp only [State.put, Function.update_self, Function.update_of_ne hk₂] at h₁ h₂
      exact absurd h₂ ((hown g h₁).2 k₂ hk₂)
    · subst hk₂
      simp only [State.put, Function.update_self, Function.update_of_ne hk₁] at h₁ h₂
      exact absurd h₁ ((hown g h₂).2 k₁ hk₁)
    · simp only [State.put, Function.update_of_ne hk₁, Function.update_of_ne hk₂] at h₁ h₂
      exact hi.single k₁ k₂ g h₁ h₂

/-- The lane changes, and neither its guard nor the lease does. -/
theorem Invariant.put (hi : Invariant f id s) {h : Holder} (hs : h.Sound f id)
    (hg : h.guard = (s.holder k).guard) : Invariant f id (s.put k h) := by
  refine hi.update hi.lease hs (fun k' g _ hk => hi.held k' g hk) ?_
  intro g hown
  rw [hg] at hown
  exact ⟨hi.held k g hown, fun k' hk hk' => hk (hi.single k' k g hk' hown)⟩

theorem Invariant.settle (hi : Invariant f id s) (hc : Coherent l)
    (hdue : l.inFlightGraphGuard = (s.holder k).due ∨
      (l.inFlightGraphGuard = none ∧ l.work = .none))
    (hs : s.settle id k l gone = some t) : Invariant f id t := by
  rcases settle_cases hs with ⟨hk, rfl⟩ | ⟨g, lease, hg, hl, hstep, rfl⟩
  · exact hi.put ((hi.sound k).kept hc hdue hk) rfl
  · refine hi.update (hi.lease.step (a := (.inl k, .drop g)) hstep)
      ((hi.sound k).dropped hc hdue (by simp [hg]) hl) ?_ (by simp)
    intro k' g' hk' hg'
    have hne : g' ≠ g := by
      rintro rfl
      exact hk' (hi.single k' k g' hg' hg)
    have hheld := hi.held k' g' hg'
    rcases Lease.step_guards hstep with ⟨-, he⟩ | ⟨d, hd, -, -, he⟩ | ⟨-, he⟩ <;> rw [he]
    · exact hheld
    · obtain rfl := Lease.Action.drop.inj hd
      exact Finset.mem_erase.mpr ⟨hne, hheld⟩
    · exact Finset.mem_insert_of_mem hheld

theorem held_step {i : κ ⊕ ι} {a : Lease.Action} {lease lease' : Lease.State b (κ ⊕ ι)} {g : Nat}
    (hs : Lease.step lease i a = some lease') (ha : a ≠ .drop g) (hg : g ∈ lease.held) :
    g ∈ lease'.held := by
  rcases Lease.step_guards hs with ⟨-, he⟩ | ⟨d, rfl, -, -, he⟩ | ⟨-, he⟩ <;> rw [he]
  · exact hg
  · exact Finset.mem_erase.mpr ⟨fun hd => ha (by rw [hd]), hg⟩
  · exact Finset.mem_insert_of_mem hg

theorem Holder.Sound.idle {h : Holder} (hs : h.Sound f id) (hp : h.phase = .rest)
    (hi : h.lane.inFlight = false) : h.guard = none := by
  by_contra hg
  have hdue := hs.guard.mp hg
  simp [Holder.due, hp, hs.coherent.idle hi] at hdue

/-- What a call makes of the guard it has to account for. -/
theorem Holder.Sound.exec {h : Holder} {op : Op} {n : Native} (hs : h.Sound f id)
    (hp : (h.phase = .rest ∧ ¬ op.Begins f h.lane n ∧ ¬ op.Issues f h.lane n) ∨
      h.phase = .ran op n ∨ h.phase = .entered op n) :
    (op.exec f h.lane n).inFlightGraphGuard = h.due ∨
      ((op.exec f h.lane n).inFlightGraphGuard = none ∧ (op.exec f h.lane n).work = .none) := by
  refine (exec_outcome (f := f) n op hs.coherent).guard hs.coherent ?_ ?_
  · intro hb hi
    rcases hp with ⟨hp, -⟩ | hp | hp
    · simp [Holder.due, hp]
    · exact absurd (hs.ran op n hp) hi
    · exact ((hs.entered op n hp).elim hb hi).elim
  · intro hbi
    rcases hp with ⟨-, hb, hi⟩ | hp | hp
    · exact (hbi.elim hb hi).elim
    · simp [Holder.due, hp]
    · simp [Holder.due, hp]

theorem invariant_enter {op : Op} {n : Native} {lease : Lease.State b (κ ⊕ ι)}
    (hi : Invariant f id s) (hp : (s.holder k).phase = .rest)
    (hb : op.Begins f (s.holder k).lane n) (hg : (s.holder k).lane.graphLease = some id)
    (hl : Lease.step s.lease (.inl k) .beginRun = some lease) :
    Invariant f id { s.put k { s.holder k with phase := .entering op n } with lease } := by
  have hnone := (hi.sound k).idle hp hb.idle
  refine hi.update (hi.lease.step (a := (.inl k, .beginRun)) hl)
    ⟨(hi.sound k).coherent, by simp [Holder.due, hnone], (hi.sound k).pending, ?_, by simp, by simp,
      by simp⟩ ?_ (by simp [hnone])
  · intro op' n' he
    obtain ⟨rfl, rfl⟩ : op = op' ∧ n = n' := by simpa using he
    exact ⟨hb, hg⟩
  · exact fun k' g _ hg => held_step hl (by simp) (hi.held k' g hg)

theorem invariant_pass {op : Op} {n : Native} (hi : Invariant f id s)
    (hp : (s.holder k).phase = .rest)
    (hb : (op.Begins f (s.holder k).lane n ∧ (s.holder k).lane.graphLease ≠ some id) ∨
      (¬ op.Begins f (s.holder k).lane n ∧ op.Issues f (s.holder k).lane n)) :
    Invariant f id (s.put k { s.holder k with phase := .entered op n }) := by
  have hs := hi.sound k
  have hidle : (s.holder k).lane.inFlight = false := hb.elim (fun h => h.1.idle) fun h => h.2.idle
  have hlease : (s.holder k).lane.graphLease ≠ some id := by
    rcases hb with ⟨-, hg⟩ | ⟨hnb, hiss⟩
    · exact hg
    · rcases hiss.begins hs.coherent with hb | hg
      · exact absurd hb hnb
      · simp [hg]
  refine hi.put ⟨hs.coherent, by simp [Holder.due, hs.idle hp hidle, hlease], hs.pending, by simp,
    ?_, by simp, by simp⟩ rfl
  intro op' n' he
  obtain ⟨rfl, rfl⟩ : op = op' ∧ n = n' := by simpa using he
  exact hb.imp (fun h => h.1) fun h => h.2

theorem invariant_issue {op : Op} {n : Native} (hi : Invariant f id s)
    (hp : (s.holder k).phase = .entered op n) (hiss : op.Issues f (s.holder k).lane n) :
    Invariant f id (s.put k { s.holder k with
      phase := .ran op n
      pending := (s.holder k).pending || op.annotation f (s.holder k).lane = some id }) := by
  have hs := hi.sound k
  have hdue : (s.holder k).guard ≠ none ↔ (s.holder k).lane.graphLease = some id := by
    simpa [Holder.due, hp] using hs.guard
  refine hi.put ⟨hs.coherent, by simpa [Holder.due] using hdue, ?_, by simp, by simp,
    ?_, by simp⟩ rfl
  · intro hpend
    rcases (by simpa using hpend : (s.holder k).pending = true ∨
        op.annotation f (s.holder k).lane = some id) with hpend | ha
    · exact hs.pending hpend
    · rw [annotation_eq hs.coherent] at ha
      exact hdue.mpr ha
  · intro op' n' he
    obtain ⟨rfl, rfl⟩ : op = op' ∧ n = n' := by simpa using he
    exact hiss

theorem invariant_unwind {op : Op} {n : Native} (hi : Invariant f id s)
    (hp : (s.holder k).phase = .entered op n) (hg : (s.holder k).lane.graphLease ≠ some id) :
    Invariant f id (s.put k { s.holder k with phase := .rest }) := by
  have hs := hi.sound k
  have hidle : (s.holder k).lane.inFlight = false :=
    (hs.entered op n hp).elim (fun h => h.idle) fun h => h.idle
  have hnone : (s.holder k).guard = none := by
    by_contra hne
    exact hg (by simpa [Holder.due, hp] using hs.guard.mp hne)
  exact hi.put ⟨hs.coherent, by simp [Holder.due, hnone, hs.coherent.idle hidle], hs.pending,
    by simp, by simp, by simp, by simp⟩ rfl

/-- What `begin_run` and the drop of a guard leave, or the call is still inside them. -/
theorem Holder.Sound.advance {h : Holder} (hs : h.Sound f id)
    (hp : (∃ op n, h.phase = .entering op n) ∨ ∃ gone, h.phase = .dropping gone)
    (idle : Bool) (guard : Option Nat) : (h.advance idle guard).Sound f id ∧
      ((h.advance idle guard).guard = none ∨
        (h.advance idle guard).guard = guard) := by
  have hnone : h.guard = none := by
    by_contra hg
    have hdue := hs.guard.mp hg
    rcases hp with ⟨op, n, hp⟩ | ⟨gone, hp⟩ <;> simp [Holder.due, hp] at hdue
  have hpend : h.pending = false := by
    by_contra hpend
    exact hs.pending (by simpa using hpend) hnone
  cases idle with
  | false =>
    have he : h.advance false guard = h := by simp [Holder.advance]
    rw [he]
    exact ⟨hs, .inl hnone⟩
  | true =>
    rcases hp with ⟨op, n, hp⟩ | ⟨gone, hp⟩
    · obtain ⟨hb, hg⟩ := hs.entering op n hp
      cases guard with
      | none =>
        have he : h.advance true none = { h with phase := .rest } := by simp [Holder.advance, hp]
        rw [he]
        exact ⟨⟨hs.coherent, by simp [Holder.due, hnone, hs.coherent.idle hb.idle], hs.pending,
          by simp, by simp, by simp, by simp⟩, .inl hnone⟩
      | some g =>
        have he : h.advance true (some g) = { h with phase := .entered op n, guard := some g } := by
          simp [Holder.advance, hp]
        rw [he]
        refine ⟨⟨hs.coherent, by simp [Holder.due, hg], by simp, by simp, ?_, by simp, by simp⟩,
          .inr rfl⟩
        intro op' n' he
        obtain ⟨rfl, rfl⟩ : op = op' ∧ n = n' := by simpa using he
        exact .inl hb
    · have he : h.advance true guard = { h with phase := resting gone } := by
        simp [Holder.advance, hp]
      rw [he]
      refine ⟨.of_resting hs.coherent ?_ (by simp [hpend]), .inl hnone⟩
      simpa [hnone] using hs.dropping gone hp

theorem invariant_lease {a : Lease.Action} {lease : Lease.State b (κ ⊕ ι)}
    (hi : Invariant f id s) (hp : (∃ op n, (s.holder k).phase = .entering op n) ∨
      ∃ gone, (s.holder k).phase = .dropping gone)
    (ha : a = .step ∨ a = .weakFail ∨ a = .wake)
    (hl : Lease.step s.lease (.inl k) a = some lease) :
    Invariant f id { s.put k ((s.holder k).advance (decide (lease.pc (.inl k) = .idle))
      (if lease.guards = s.lease.guards then none else some s.lease.guards)) with lease } := by
  have hdrop : ∀ g, a ≠ .drop g := by
    rintro g rfl
    rcases ha with ha | ha | ha <;> cases ha
  have hadv := (hi.sound k).advance hp (decide (lease.pc (.inl k) = .idle))
    (if lease.guards = s.lease.guards then none else some s.lease.guards)
  refine hi.update (hi.lease.step (a := (.inl k, a)) hl) hadv.1
    (fun k' g _ hg => held_step hl (hdrop g) (hi.held k' g hg)) ?_
  intro g hg
  rcases hadv.2 with he | he
  · exact nomatch he.symm.trans hg
  · -- the guard `begin_run` has just numbered
    rw [he] at hg
    split at hg
    · cases hg
    · rename_i hne
      obtain rfl := Option.some.inj hg
      obtain ⟨o, hinv⟩ := Lease.invariant_reachable hi.lease
      refine ⟨?_, ?_⟩
      · rcases Lease.step_guards hl with ⟨hsame, -⟩ | ⟨g, hd, -⟩ | ⟨-, hh⟩
        · exact absurd hsame hne
        · exact absurd hd (hdrop g)
        · rw [hh]
          exact Finset.mem_insert_self _ _
      · intro k' _ hg'
        exact hinv.guards.not_mem (hinv.guards.held (hi.held k' _ hg'))

theorem invariant_step {a : Action κ ι} (hi : Invariant f id s) (hs : Step f id s a t) :
    Invariant f id t := by
  cases hs with
  | enter hp hb hg hl => exact invariant_enter hi hp hb hg hl
  | pass hp hb => exact invariant_pass hi hp hb
  | quiet hp hb hiss hs =>
    exact hi.settle (coherent_exec (hi.sound _).coherent)
      ((hi.sound _).exec (.inl ⟨hp, hb, hiss⟩)) hs
  | lease hp ha hl => exact invariant_lease hi hp ha hl
  | issue hp hiss => exact invariant_issue hi hp hiss
  | settle hp hs =>
    exact hi.settle (coherent_exec (hi.sound _).coherent)
      ((hi.sound _).exec (.inr (hp.imp_right And.left))) hs
  | unwind hp hg => exact invariant_unwind hi hp hg
  | @drop t k n hp hs =>
    have hexec : finishInFlightBestEffort f (s.holder k).lane n =
        Op.finishInFlightBestEffort.exec f (s.holder k).lane n := rfl
    rw [hexec] at hs
    refine hi.settle ?_ ?_ hs
    · exact coherent_exec (hi.sound _).coherent
    · exact (hi.sound _).exec (.inl ⟨hp, nofun, nofun⟩)
  | @other j a lease ha hl =>
    exact ⟨hi.lease.step (a := (.inr j, a)) hl, hi.sound,
      fun k g hg => held_step hl (ha k g hg) (hi.held k g hg), hi.single⟩

theorem invariant_reachable (h : Reachable f id s) : Invariant f id s := by
  apply Lts.invariant_reachable ?_ ?_ h
  · rintro s ⟨hl, hh⟩
    refine ⟨?_, fun k => ?_, fun k g hg => ?_, fun k k' g hg => ?_⟩
    · rw [hl]
      exact .initial rfl
    · obtain ⟨l, hl, he⟩ := hh k
      rw [he]
      have hc := coherent_reachable (f := f) (.initial hl)
      obtain ⟨deviceId, -, rfl⟩ := hl
      exact ⟨hc, by simp [Holder.due, ServingLane.new], by simp, by simp, by simp, by simp, by simp⟩
    all_goals
      obtain ⟨l, -, he⟩ := hh k
      simp [he] at hg
  · exact fun s a t hi hs => invariant_step hi hs

/-- While a native release of the graph may run, no lane has a run for it that is not fenced; and
a lane's guard and completion event are there for a run in flight. -/
theorem release_excludes_runs (h : Reachable f id s) :
    (∀ i, (s.lease.pc i).inWindow = true → ∀ k, (s.holder k).pending = false) ∧
    (∀ k, ((s.holder k).lane.inFlightGraphGuard.isSome = true →
        (s.holder k).lane.inFlight = true) ∧
      ((s.holder k).lane.completionEventRecorded = true → (s.holder k).lane.inFlight = true)) := by
  have hi := invariant_reachable h
  refine ⟨fun i hw k => ?_, fun k => ⟨fun hg => ?_, fun hr => ?_⟩⟩
  · by_contra hpend
    obtain ⟨o, hinv⟩ := Lease.invariant_reachable hi.lease
    have hempty := hinv.drained i (Lease.drained_of_inWindow hw)
    obtain ⟨g, hg⟩ := Option.ne_none_iff_exists'.mp ((hi.sound k).pending (by simpa using hpend))
    have hlive := hinv.guards.held (hi.held k g hg)
    simp [hempty] at hlive
  · by_contra hin
    simp [(hi.sound k).coherent.idle (by simpa using hin)] at hg
  · exact ((hi.sound k).coherent.recorded hr).1

/-- A graph replay on lane `0` is enqueued, and a release has begun to wait for it. -/
theorem release_excludes_runs_waiting : ∃ s : State 63 Nat Nat,
    (s.holder 0).pending = true ∧ s.lease.pc (.inr 0) = .lock .drain ∧
    ∀ i, (s.lease.pc i).inWindow = false := by
  let f : Features := ⟨true, false⟩
  let lane := Op.exec f (.new (some 0)) Native.success (.setGpuGraphId 7)
  have hissues : Op.Issues f lane Native.success .runEnqueued :=
    ⟨rfl, nofun, fun _ => ⟨rfl, by decide, rfl⟩, rfl, fun _ => rfl, nofun⟩
  obtain ⟨s, hs, hpend, hpc⟩ : ∃ s : State 63 Nat Nat, Reachable f 7 s ∧
      (s.holder 0).pending = true ∧ s.lease.pc (.inr 0) = .lock .drain := by
    have h0 : Reachable f 7 (⟨.new, fun _ => ⟨.new (some 0), .rest, none, false⟩⟩ :
        State 63 Nat Nat) := .initial ⟨rfl, fun _ => ⟨_, ⟨some 0, fun _ => rfl, rfl⟩, rfl⟩⟩
    have hbegins : ¬ Op.Begins f (.new (some 0)) Native.success (.setGpuGraphId 7) := nofun
    have hnone : ¬ Op.Issues f (.new (some 0)) Native.success (.setGpuGraphId 7) := nofun
    have h1 := h0.step (.quiet (k := 0) rfl hbegins hnone rfl)
    have hruns : Op.Begins f lane Native.success .runEnqueued := hissues.prepared
    have h2 := h1.step (.enter (k := 0) rfl hruns rfl rfl)
    have h3 := h2.step (.lease (k := 0) (a := .step) (.inl ⟨_, _, rfl⟩) (.inl rfl)
      (by with_unfolding_all rfl))
    have h4 := h3.step (.lease (k := 0) (a := .step) (.inl ⟨_, _, rfl⟩) (.inl rfl)
      (by with_unfolding_all rfl))
    have h5 := h4.step (.issue (k := 0) rfl hissues)
    have h6 := h5.step (.other (j := 0) (a := .beginRelease) (by simp) rfl)
    have h7 := h6.step (.other (j := 0) (a := .step) (by simp) (by with_unfolding_all rfl))
    have h8 := h7.step (.other (j := 0) (a := .step) (by simp) (by with_unfolding_all rfl))
    exact ⟨_, h8, by with_unfolding_all rfl, by with_unfolding_all rfl⟩
  refine ⟨s, hpend, hpc, ?_⟩
  intro i
  by_contra hw
  exact absurd ((release_excludes_runs hs).1 i (by simpa using hw) 0) (by simp [hpend])

end Zrt.Lane.Leased
