import Zrt.Lane.Access
import Zrt.Lane.Outcome

/-! The buffers in a lane, and those that its binding points at. -/
namespace Zrt.Lane.Access

/-- A lane with the buffers in it and those that its binding points at, by their addresses. Every
other buffer is in its owner's hands. The binding changes on an idle lane only, so that a run that
is not fenced touches what is bound. -/
structure HostState extends State where
  held : Buffer → Nat
  bound : Buffer → Option Nat

/-- Leaving these buffers in what an accessor lends, by `mem::swap` or `mem::replace`. -/
structure Exchange where
  accessor : Accessor
  left : Buffer → Nat

/-- It lends the buffers themselves, and not only their contents, for writing. -/
def Accessor.lendsBuffers : Accessor → Bool
  | .inputsMut | .outputsMut => true
  | _ => false

variable (f : Features) (a : Arity) (s : HostState)

def HostState.exchange (x : Exchange) : HostState :=
  match x.accessor.get f a s.lane with
  | .ok grant =>
    if s.future = none ∧ x.accessor.lendsBuffers then
      { s with held := fun slot => if slot ∈ grant.buffers then x.left slot else s.held slot }
    else s
  | .error _ => s

/-- What the constructor binds, but for the inputs on a device, which nobody is lent. -/
def Arity.binds (l : ServingLane) : Buffer → Bool
  | .input i => decide (i < a.inputs) && !l.deviceInputs
  | .output i => decide (i < a.outputs) && !(f.cuda && a.deviceOutputs)
  | .deviceOutput i => decide (i < a.outputs) && (f.cuda && a.deviceOutputs)

/-- A lane as it is built: every buffer is its own, and those bound are in it. -/
structure HostState.Fresh : Prop where
  distinct : Function.Injective s.held
  bound : ∀ slot, s.bound slot = if a.binds f s.lane slot then some (s.held slot) else none

/-- The outcome of `rebind_host_inputs_if_needed`, where the step gets there and it does rebind. -/
def Action.rebind (l : ServingLane) : Action → Option (Except Error Unit)
  | .call (.op .run n) | .call (.op .runEnqueued n) | .call (.op .enqueue n)
  | .call (.op .runProfiled n) =>
    if l.inFlight = false ∧ l.rebindInputsEachRun = true ∧ l.deviceInputs = false then some n.rebind
    else none
  | .call (.runUnsynchronized n) =>
    if l.inFlight = false ∧ l.rebindInputsEachRun = true ∧ l.deviceInputs = false ∧
      l.graphId = none then some n.rebind
    else none
  | _ => none

/-- The binding after `clear_inputs`, with the first `k` inputs bound again. -/
def HostState.rebound (k : Nat) : Buffer → Option Nat
  | .input i => if i < k then some (s.held (.input i)) else none
  | slot => s.bound slot

/-- What a step makes of the binding: a rebind that fails gets to some of the inputs. -/
inductive HostState.Binds (act : Action) : (Buffer → Option Nat) → Prop where
  | kept (h : act.rebind s.lane = none) : Binds act s.bound
  | rebound {outcome : Except Error Unit} {k : Nat} (h : act.rebind s.lane = some outcome)
      (hk : outcome = .ok () → k = a.inputs) : Binds act (s.rebound k)

def hostBuffers : Lts.System HostState Action where
  Initial s := (hostLts f).Initial s.toState ∧ s.Fresh f a
  Tr s act t := (hostLts f).Tr s.toState act t.toState ∧ t.held = s.held ∧ s.Binds a act t.bound

/-- What the binding points at when the step issues a run. -/
def HostState.boundFor (act : Action) : Buffer → Option Nat :=
  if (act.rebind s.lane).isSome then s.rebound a.inputs else s.bound

/-- A run is issued over a binding that points at a buffer in the owner's hands. -/
def Dangles : Action → Prop
  | .call (.op o n) => o.Issues f s.lane n ∧ ∃ slot block,
      s.boundFor a (.call (.op o n)) slot = some block ∧ ∀ slot', s.held slot' ≠ block
  | _ => False

/-- Every buffer that the binding points at is in the lane. -/
def HostState.Whole : Prop := ∀ slot block, s.bound slot = some block → ∃ slot',
    s.held slot' = block

/-- Between calls: pending work is recorded, and the lane has what it touches. -/
structure Guarded : Prop where
  recorded : Recorded s.toState
  coherent : Coherent s.lane
  whole : s.lane.work ≠ .none → s.Whole

variable {f : Features} {a : Arity} {l l' : ServingLane} {s t : HostState} {act : Action}
  {x : Exchange} {n : Native} {o : Op}

/-- The owner has nothing to exchange while the lane is in flight. -/
theorem exchange_cases : s.exchange f a x = s ∨
    s.lane.inFlight = false ∧ ∃ held, s.exchange f a x = { s with held := held } := by
  unfold HostState.exchange
  cases hi : s.lane.inFlight with
  | false =>
    split
    · split
      · exact .inr ⟨rfl, _, rfl⟩
      · exact .inl rfl
    · exact .inl rfl
  | true =>
    left
    by_cases hlends : x.accessor.lendsBuffers = true
    · have hchecked : ¬ x.accessor.Unchecked f a ∧ x.accessor.Covered := by
        cases hx : x.accessor <;> simp_all [Accessor.lendsBuffers, Accessor.Unchecked,
          Accessor.Covered]
      obtain ⟨e, he⟩ := (get_inFlight hi hchecked.2).mpr hchecked.1
      rw [he]
    · split
      · rw [if_neg fun h => hlends h.2]
      · rfl

theorem rebind_inFlight (hi : l.inFlight = true) : act.rebind l = none := by
  unfold Action.rebind
  split <;> simp [hi]

/-- Work that no run was issued for was pending before. -/
theorem work_of_outcome (ho : Outcome f l n o l') (hs : ¬ o.Issues f l n) (hw : l'.work ≠ .none) :
    l.work ≠ .none := by
  rcases ho with ⟨-, -, hq⟩ | ⟨-, -, ha⟩ | ⟨hissues, -⟩
  · cases hq with
    | fenced => exact absurd rfl hw
    | _ => exact hw
  · cases ha with
    | fenced => exact absurd rfl hw
    | _ => exact hw
  · exact absurd hissues hs

/-- A run that is issued has rebound every input, or none. -/
theorem binds_issues (hs : o.Issues f s.lane n) {bound : Buffer → Option Nat}
    (hb : s.Binds a (.call (.op o n)) bound) : bound = s.boundFor a (.call (.op o n)) := by
  have hp : Prepared f s.lane n := by
    by_contra hno
    exact not_issues_of_not_prepared hno hs
  cases hb with
  | kept h => simp [HostState.boundFor, h]
  | @rebound outcome k h hk =>
    have hrebind : s.lane.rebindInputsEachRun = true ∧ s.lane.deviceInputs = false ∧
        outcome = n.rebind := by
      unfold Action.rebind at h
      cases o <;> simp_all
    obtain ⟨hflag, hhost, rfl⟩ := hrebind
    simp [HostState.boundFor, h, hk (hp.rebind hflag hhost)]

/-- While work is pending the binding stays as it is. -/
theorem Guarded.pending (h : Guarded s) (hw : s.lane.work ≠ .none) (hh : t.held = s.held)
    (hb : s.Binds a act t.bound) : t.Whole := by
  have hi : s.lane.inFlight = true := by
    by_contra hno
    exact hw (h.recorded.lane.idle (by simpa using hno))
  have hbound : t.bound = s.bound := by
    generalize hbd : t.bound = bound at hb
    cases hb with
    | kept => rfl
    | rebound hr => simp [rebind_inFlight hi] at hr
  intro slot block hslot
  rw [hh]
  exact h.whole hw slot block (hbound ▸ hslot)

theorem guarded_initial (h : (hostBuffers f a).Initial s) : Guarded s := by
  obtain ⟨⟨hl, hr, -⟩, hfresh⟩ := h
  refine ⟨⟨settled_initial hl, fun run hrun => by simp [hr] at hrun⟩,
    coherent_reachable (f := f) (.initial hl), ?_⟩
  intro _ slot block hslot
  rw [hfresh.bound] at hslot
  split at hslot
  · exact ⟨slot, Option.some.inj hslot⟩
  · cases hslot

theorem guarded_step (h : Guarded s) (hc : ¬ Unrecorded f s.toState act) (hd : ¬ Dangles f a s act)
    (hs : (hostBuffers f a).Tr s act t) : Guarded t := by
  obtain ⟨hstep, hh, hb⟩ := hs
  have hrec := recorded_step h.recorded hc hstep
  have hsame : t.lane = s.lane → Guarded t := fun he =>
    ⟨hrec, he ▸ h.coherent, fun hw => h.pending (he ▸ hw) hh hb⟩
  generalize ht : t.toState = u at hstep
  have hlane : t.lane = u.lane := congrArg State.lane ht
  cases step_cases hstep with
  | @call c =>
    cases c with
    | op o n =>
      have ho := exec_outcome (f := f) n o h.coherent
      refine ⟨hrec, ?_, fun hw => ?_⟩
      · rw [hlane]
        exact coherent_exec h.coherent
      · rw [hlane] at hw
        by_cases hissues : o.Issues f s.lane n
        · have hbound := binds_issues hissues hb
          intro slot block hslot
          rw [hh]
          by_contra hno
          exact hd ⟨hissues, slot, block, hbound ▸ hslot, not_exists.mp hno⟩
        · exact h.pending (work_of_outcome ho hissues hw) hh hb
    | runUnsynchronized n => exact hsame (hlane.trans (runUnsynchronized_same hc))
    | runAsync outcome =>
      refine hsame (hlane.trans ?_)
      simp only [Call.exec, Access.runAsync]
      split <;> rfl
    | access acc => exact hsame hlane
  | poll | letGo | callback => exact hsame hlane

theorem guarded_exchange (h : Guarded s) : Guarded (s.exchange f a x) := by
  rcases exchange_cases (f := f) (a := a) (s := s) (x := x) with he | ⟨hi, held, he⟩ <;> rw [he]
  · exact h
  · exact ⟨h.recorded, h.coherent, fun hw => absurd (h.recorded.lane.idle hi) hw⟩

theorem guarded_reachable (h : Lts.Reachable (((hostBuffers f a).beside
    (HostState.exchange f a)).restrict fun s => Sum.elim (fun act => ¬ Unrecorded f s.toState act ∧
      ¬ Dangles f a s act) fun _ => True) s) : Guarded s := by
  refine Lts.invariant_beside (P := Guarded) (fun _ => guarded_initial) ?_ ?_ h
  · rintro s act t hg ⟨hc, hd⟩ hs
    exact guarded_step hg hc hd hs
  · exact fun s x hg _ => guarded_exchange hg

/-- Buffers at addresses of their own. -/
def ownBuffers : Buffer → Nat
  | .input i => 3 * i
  | .output i => 3 * i + 1
  | .deviceOutput i => 3 * i + 2

/-- A lane of one input and one output in host memory. -/
def hostLane : HostState := ⟨⟨.new none, 0, ∅, none⟩, ownBuffers, fun slot =>
  if Arity.binds ⟨true, true⟩ ⟨1, 1, false⟩ (.new none) slot then some (ownBuffers slot) else none⟩

theorem hostLane_initial : (hostBuffers ⟨true, true⟩ ⟨1, 1, false⟩).Initial hostLane := by
  refine ⟨⟨⟨none, by simp, rfl⟩, rfl, rfl⟩, ?_, fun _ => rfl⟩
  intro slot slot' he
  have he : ownBuffers slot = ownBuffers slot' := he
  cases slot <;> cases slot' <;> simp only [ownBuffers] at he <;>
    first | omega | (congr 1; omega)

/-- The lane behind a call, on a binding that it leaves alone. -/
theorem hostLane_step {o : Op} {n : Native} (hf : s.future = none)
    (hb : Action.rebind s.lane (.call (.op o n)) = none) :
    (hostBuffers f a).Tr s (.call (.op o n)) { s with lane := o.exec f s.lane n } := by
  refine ⟨?_, rfl, .kept hb⟩
  simp only [hostLts, step, if_pos hf]
  rfl

end Zrt.Lane.Access
