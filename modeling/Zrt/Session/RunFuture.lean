import Mathlib.Data.List.Basic
import Mathlib.Tactic.Tauto
import Zrt.Error
import Zrt.Lts

/-! The handoff between `RunFuture::poll` and `AsyncState::complete` of `session.rs`, load by load
and store by store. -/
namespace Zrt.RunFuture

/-- `Result<Vec<OwnedValue>>`, values by their handle. -/
abbrev RunResult := Except Error (List Nat)

/-- What the callback and the future share besides the waker. -/
structure AsyncState where
  result : Option RunResult
  done : Bool

/-- Where a poll is, before the action named. A read of the cell goes on throughout `takeResult`,
and a call of `AtomicWaker::register` throughout `registering`. -/
inductive PollPc (W : Type*) where
  | idle
  | load (waker : W)
  | register (waker : W)
  | registering (waker : W)
  | loadAgain (waker : W)
  | takeResult

/-- Where the callback is. The write of the cell goes on throughout `write`, and the call of
`AtomicWaker::wake` throughout `waking`. -/
inductive CallbackPc where
  | start
  | write (result : RunResult)
  | storeDone
  | wake
  | waking
  | returned

/-- The actions, in a history. `pending` and `ready` are what a poll returns, and `woken` is
`AtomicWaker` waking a task. -/
inductive Event (W : Type*) where
  | polled (waker : W)
  | loaded (done : Bool)
  | registering (waker : W)
  | registered (waker : W)
  | pending (waker : W)
  | ready (result : RunResult)
  | completing (result : RunResult)
  | written
  | doneStored
  | waking
  | wakeReturned
  | woken (waker : W)

structure State (W : Type*) where
  shared : AsyncState
  poll : PollPc W
  callback : CallbackPc

variable {W : Type*}

def consumed : RunResult := .error (.local "zrt: async result already consumed")

/-- `take_result`, of what it found in the cell. -/
def takeResult (found : Option RunResult) : RunResult := found.getD consumed

/-- `RunFuture::poll`. -/
def pollStep (state : AsyncState) : PollPc W → Option (AsyncState × PollPc W × Event W)
  | .idle => none
  | .load w => some (state, if state.done then .takeResult else .register w, .loaded state.done)
  | .register w => some (state, .registering w, .registering w)
  | .registering w => some (state, .loadAgain w, .registered w)
  | .loadAgain w =>
    if state.done then some (state, .takeResult, .loaded true) else some (state, .idle, .pending w)
  | .takeResult =>
    some ({ state with result := none }, .idle, .ready (takeResult state.result))

/-- `AsyncState::complete`, once called. -/
def callbackStep (state : AsyncState) : CallbackPc → Option (AsyncState × CallbackPc × Event W)
  | .start | .returned => none
  | .write result => some ({ state with result := some result }, .storeDone, .written)
  | .storeDone => some ({ state with done := true }, .wake, .doneStored)
  | .wake => some (state, .waking, .waking)
  | .waking => some (state, .returned, .wakeReturned)

/-- `poll` takes the future by `&mut`, so polls do not overlap; ORT calls back once. What
`AtomicWaker` wakes and when is up to it. -/
inductive Step : State W → Event W → State W → Prop where
  | poll {s : State W} (w : W) (h : s.poll = .idle) : Step s (.polled w) { s with poll := .load w }
  | pollStep {s : State W} {state : AsyncState} {pc : PollPc W} {a : Event W}
      (h : pollStep s.shared s.poll = some (state, pc, a)) :
      Step s a { s with shared := state, poll := pc }
  | complete {s : State W} (result : RunResult) (h : s.callback = .start) :
      Step s (.completing result) { s with callback := .write result }
  | callbackStep {s : State W} {state : AsyncState} {pc : CallbackPc} {a : Event W}
      (h : callbackStep s.shared s.callback = some (state, pc, a)) :
      Step s a { s with shared := state, callback := pc }
  | woken {s : State W} (w : W) : Step s (.woken w) s

def State.new : State W := ⟨⟨none, false⟩, .idle, .start⟩

def runFutureLts (W : Type*) : Lts.System (State W) (Event W) where
  Initial s := s = .new
  Tr := Step

/-- The contract of `AtomicWaker`: a call of `wake` that happens after a call of `register` wakes
the task registered, unless another call of `register` came between. -/
def WakeNotifies (xs : List (Event W)) : Prop :=
  ∀ (w : W) (before quiet during after : List (Event W)),
    xs = before ++ .registered w :: quiet ++ .waking :: during ++ .wakeReturned :: after →
    (∀ w', .registering w' ∉ quiet ++ during) → .woken w ∈ during

variable {s t u : State W} {a : Event W} {xs ys pre post : List (Event W)} {w : W}

/-- The steps, each at the place of the poll or of the callback where it is taken. -/
inductive Moves (s : State W) : Event W → State W → Prop where
  | poll (w : W) (h : s.poll = .idle) : Moves s (.polled w) { s with poll := .load w }
  | loaded (w : W) (h : s.poll = .load w) (hd : s.shared.done = false) :
      Moves s (.loaded false) { s with poll := .register w }
  | loadedDone (h : s.poll ≠ .idle) (hd : s.shared.done = true) :
      Moves s (.loaded true) { s with poll := .takeResult }
  | register (w : W) (h : s.poll = .register w) :
      Moves s (.registering w) { s with poll := .registering w }
  | registered (w : W) (h : s.poll = .registering w) :
      Moves s (.registered w) { s with poll := .loadAgain w }
  | pending (w : W) (h : s.poll = .loadAgain w) (hd : s.shared.done = false) :
      Moves s (.pending w) { s with poll := .idle }
  | take (h : s.poll = .takeResult) : Moves s (.ready (takeResult s.shared.result))
      { s with shared := { s.shared with result := none }, poll := .idle }
  | complete (r : RunResult) (h : s.callback = .start) :
      Moves s (.completing r) { s with callback := .write r }
  | write (r : RunResult) (h : s.callback = .write r) : Moves s .written
      { s with shared := { s.shared with result := some r }, callback := .storeDone }
  | store (h : s.callback = .storeDone) : Moves s .doneStored
      { s with shared := { s.shared with done := true }, callback := .wake }
  | wake (h : s.callback = .wake) : Moves s .waking { s with callback := .waking }
  | wakeReturned (h : s.callback = .waking) : Moves s .wakeReturned { s with callback := .returned }
  | woken (w : W) : Moves s (.woken w) s

theorem moves (hs : Step s a t) : Moves s a t := by
  cases hs with
  | poll w hp => exact .poll w hp
  | woken w => exact .woken w
  | complete r hc => exact .complete r hc
  | pollStep hp =>
    cases hpc : s.poll with
    | idle => simp [pollStep, hpc] at hp
    | load w =>
      simp only [pollStep, hpc, Option.some.injEq, Prod.mk.injEq] at hp
      obtain ⟨rfl, rfl, rfl⟩ := hp
      cases hd : s.shared.done with
      | true => exact .loadedDone (by simp [hpc]) hd
      | false => exact .loaded w hpc hd
    | register w =>
      simp only [pollStep, hpc, Option.some.injEq, Prod.mk.injEq] at hp
      obtain ⟨rfl, rfl, rfl⟩ := hp
      exact .register w hpc
    | registering w =>
      simp only [pollStep, hpc, Option.some.injEq, Prod.mk.injEq] at hp
      obtain ⟨rfl, rfl, rfl⟩ := hp
      exact .registered w hpc
    | loadAgain w =>
      simp only [pollStep, hpc] at hp
      split at hp <;> simp only [Option.some.injEq, Prod.mk.injEq] at hp
      · rename_i hd
        obtain ⟨rfl, rfl, rfl⟩ := hp
        exact .loadedDone (by simp [hpc]) hd
      · rename_i hd
        obtain ⟨rfl, rfl, rfl⟩ := hp
        exact .pending w hpc (by simpa using hd)
    | takeResult =>
      simp only [pollStep, hpc, Option.some.injEq, Prod.mk.injEq] at hp
      obtain ⟨rfl, rfl, rfl⟩ := hp
      exact .take hpc
  | callbackStep hc =>
    cases hpc : s.callback <;>
      simp only [callbackStep, hpc, Option.some.injEq, Prod.mk.injEq, reduceCtorEq] at hc
    all_goals obtain ⟨rfl, rfl, rfl⟩ := hc
    · exact .write _ hpc
    · exact .store hpc
    · exact .wake hpc
    · exact .wakeReturned hpc

/-- The cell has been written. -/
def CallbackPc.Written : CallbackPc → Prop
  | .start | .write _ => False
  | .storeDone | .wake | .waking | .returned => True

/-- What the polls that returned `Ready` returned, in order. -/
def readies (xs : List (Event W)) : List RunResult :=
  xs.filterMap fun
    | .ready result => some result
    | _ => none

/-- How many polls have begun. -/
def polls (xs : List (Event W)) : Nat :=
  xs.countP fun
    | .polled _ => true
    | _ => false

/-- Where the result is: in the cell until a poll has taken it. -/
def Delivered (xs : List (Event W)) (s : State W) : Prop :=
  match s.callback with
  | .start => s.shared.done = false ∧ readies xs = []
  | .write r => s.shared.done = false ∧ readies xs = [] ∧ .completing r ∈ xs
  | .storeDone => s.shared.done = false ∧ readies xs = [] ∧
      ∃ r, .completing r ∈ xs ∧ s.shared.result = some r
  | .wake | .waking | .returned => s.shared.done = true ∧ ∃ r, .completing r ∈ xs ∧
      ((readies xs = [] ∧ s.shared.result = some r) ∨
        (s.shared.result = none ∧ ∃ n, readies xs = r :: List.replicate n consumed))

structure Handoff (xs : List (Event W)) (s : State W) : Prop where
  delivered : Delivered xs s
  taking : s.poll = .takeResult → s.shared.done = true

/-- What is left to do between the store of `done` and the return of the callback. -/
def Announced (xs : List (Event W)) (s : State W) : Prop :=
  match s.callback with
  | .start | .write _ | .storeDone => s.shared.done = false
  | .wake => ∃ xs₁ xs₂, xs = xs₁ ++ .doneStored :: xs₂
  | .waking => ∃ xs₁ xs₂ xs₃, xs = xs₁ ++ .doneStored :: xs₂ ++ .waking :: xs₃
  | .returned => ∃ xs₁ xs₂ xs₃ xs₄,
      xs = xs₁ ++ .doneStored :: xs₂ ++ .waking :: xs₃ ++ .wakeReturned :: xs₄

/-- A poll between `register` and its second load has just registered its waker. -/
def Registered (xs : List (Event W)) (s : State W) : Prop :=
  ∀ w, s.poll = .loadAgain w →
    ∃ xs₁ xs₂, xs = xs₁ ++ .registered w :: xs₂ ∧ ∀ w', .registering w' ∉ xs₂

theorem readies_snoc : readies (xs ++ [a]) = match a with
    | .ready result => readies xs ++ [result]
    | _ => readies xs := by
  cases a <;> simp [readies]

/-- Nothing of the handoff moves but the shared state, the callback and the polls' results. -/
theorem Delivered.keep (h : Delivered xs s) (hs : t.shared = s.shared)
    (hc : t.callback = s.callback) (hr : readies ys = readies xs)
    (hm : ∀ r, .completing r ∈ xs → .completing r ∈ ys) : Delivered ys t := by
  unfold Delivered at h ⊢
  rw [hs, hc, hr]
  generalize s.callback = pc at h ⊢
  cases pc with
  | start => exact h
  | write r => exact ⟨h.1, h.2.1, hm r h.2.2⟩
  | storeDone =>
    obtain ⟨hd, hx, r, hr, hres⟩ := h
    exact ⟨hd, hx, r, hm r hr, hres⟩
  | wake | waking | returned =>
    obtain ⟨hd, r, hr, hres⟩ := h
    exact ⟨hd, r, hm r hr, hres⟩

/-- `take` finds the result the first time, and nothing from then on. -/
theorem Delivered.take (h : Delivered xs s) (hd : s.shared.done = true) :
    Delivered (xs ++ [.ready (takeResult s.shared.result)])
      { s with shared := { s.shared with result := none }, poll := .idle } := by
  unfold Delivered at h ⊢
  dsimp only
  cases hc : s.callback with
  | start | write | storeDone => simp [hc, hd] at h
  | wake | waking | returned =>
    simp only [hc] at h
    obtain ⟨-, r, hr, ⟨hx, hres⟩ | ⟨hres, n, hx⟩⟩ := h
    · refine ⟨hd, r, by simp [hr], .inr ⟨rfl, 0, ?_⟩⟩
      rw [readies_snoc]
      simp [hx, hres, takeResult]
    · refine ⟨hd, r, by simp [hr], .inr ⟨rfl, n + 1, ?_⟩⟩
      rw [readies_snoc]
      simp [hx, hres, takeResult, List.replicate_succ']

theorem handoff_step (h : Handoff xs s) (hs : Step s a t) : Handoff (xs ++ [a]) t := by
  have hd := h.delivered
  have hmem : ∀ r, .completing r ∈ xs → .completing r ∈ xs ++ [a] := by
    intro r hr
    exact List.mem_append_left _ hr
  cases moves hs with
  | poll | loaded | register | registered | pending =>
    exact ⟨hd.keep rfl rfl readies_snoc hmem, by simp⟩
  | loadedDone _ hdone => exact ⟨hd.keep rfl rfl readies_snoc hmem, fun _ => hdone⟩
  | woken => exact ⟨hd.keep rfl rfl readies_snoc hmem, h.taking⟩
  | take hp => exact ⟨hd.take (h.taking hp), by simp⟩
  | complete r hc =>
    simp only [Delivered, hc] at hd
    exact ⟨⟨hd.1, by rw [readies_snoc]; exact hd.2, by simp⟩, h.taking⟩
  | write r hc =>
    simp only [Delivered, hc] at hd
    exact ⟨⟨hd.1, by rw [readies_snoc]; exact hd.2.1, r, hmem r hd.2.2, rfl⟩, h.taking⟩
  | store hc =>
    simp only [Delivered, hc] at hd
    obtain ⟨-, hx, r, hr, hres⟩ := hd
    exact ⟨⟨rfl, r, hmem r hr, .inl ⟨by rw [readies_snoc]; exact hx, hres⟩⟩, fun _ => rfl⟩
  | wake hc | wakeReturned hc =>
    simp only [Delivered, hc] at hd
    obtain ⟨hdone, r, hr, hres⟩ := hd
    exact ⟨⟨hdone, r, hmem r hr, by rw [readies_snoc]; exact hres⟩, h.taking⟩

theorem handoff_trace (h : Lts.Trace (runFutureLts W) .new xs s) : Handoff xs s := by
  induction h with
  | refl => exact ⟨⟨rfl, rfl⟩, by simp [State.new]⟩
  | snoc _ hstep ih => exact handoff_step ih hstep

theorem registered_step (h : Registered xs s) (hs : Step s a t) : Registered (xs ++ [a]) t := by
  intro w hw
  -- A step that leaves the poll where it is calls no `register`.
  have hkeep : s.poll = .loadAgain w → (∀ w', a ≠ .registering w') →
      ∃ xs₁ xs₂, xs ++ [a] = xs₁ ++ .registered w :: xs₂ ∧ ∀ w', .registering w' ∉ xs₂ := by
    intro hp ha
    obtain ⟨xs₁, xs₂, rfl, hq⟩ := h w hp
    refine ⟨xs₁, xs₂ ++ [a], by simp, ?_⟩
    intro w' hm
    rcases List.mem_append.mp hm with hm | hm
    · exact hq w' hm
    · exact ha w' (List.mem_singleton.mp hm).symm
  cases moves hs with
  | poll | loaded | loadedDone | register | pending | take => cases hw
  | registered =>
    obtain rfl := PollPc.loadAgain.inj hw
    exact ⟨xs, [], rfl, by simp⟩
  | complete | write | store | wake | wakeReturned | woken => exact hkeep hw (by simp)

theorem registered_trace (h : Lts.Trace (runFutureLts W) .new xs s) : Registered xs s := by
  induction h with
  | refl => simp [Registered, State.new]
  | snoc _ hstep ih => exact registered_step ih hstep

theorem announced_step (h : Announced xs s) (hs : Step s a t) : Announced (xs ++ [a]) t := by
  have hpoll : ∀ {u : State W}, u.shared.done = s.shared.done → u.callback = s.callback →
      Announced (xs ++ [a]) u := by
    intro u hd hc
    unfold Announced at h ⊢
    rw [hc, hd]
    generalize s.callback = pc at h ⊢
    cases pc with
    | start | write | storeDone => exact h
    | wake =>
      obtain ⟨xs₁, xs₂, rfl⟩ := h
      exact ⟨xs₁, xs₂ ++ [a], by simp⟩
    | waking =>
      obtain ⟨xs₁, xs₂, xs₃, rfl⟩ := h
      exact ⟨xs₁, xs₂, xs₃ ++ [a], by simp⟩
    | returned =>
      obtain ⟨xs₁, xs₂, xs₃, xs₄, rfl⟩ := h
      exact ⟨xs₁, xs₂, xs₃, xs₄ ++ [a], by simp⟩
  cases moves hs with
  | poll | loaded | loadedDone | register | registered | pending | take | woken =>
    exact hpoll rfl rfl
  | complete r hc | write r hc =>
    simp only [Announced, hc] at h
    exact h
  | store => exact ⟨xs, [], rfl⟩
  | wake hc =>
    simp only [Announced, hc] at h
    obtain ⟨xs₁, xs₂, rfl⟩ := h
    exact ⟨xs₁, xs₂, [], by simp⟩
  | wakeReturned hc =>
    simp only [Announced, hc] at h
    obtain ⟨xs₁, xs₂, xs₃, rfl⟩ := h
    exact ⟨xs₁, xs₂, xs₃, [], by simp⟩

/-- From a state where `done` is not set, what the callback did is in the history. -/
theorem announced_trace (h : Lts.Trace (runFutureLts W) s xs t) (hs : Announced [] s) :
    Announced xs t := by
  induction h with
  | refl => exact hs
  | snoc _ hstep ih => exact announced_step ih hstep

/-- Between polls `register` is not called. -/
theorem quiet_trace (h : Lts.Trace (runFutureLts W) s xs t) (hs : s.poll = .idle)
    (hx : ∀ w, .polled w ∉ xs) : t.poll = .idle ∧ ∀ w, .registering w ∉ xs := by
  induction h with
  | refl => exact ⟨hs, by simp⟩
  | @snoc t u xs a _ hstep ih =>
    obtain ⟨ht, hq⟩ := ih fun w hm => hx w (List.mem_append_left _ hm)
    have hstep : Step t a u := hstep
    cases moves hstep with
    | poll w => exact absurd (List.mem_append_right _ List.mem_cons_self) (hx w)
    | loaded w h | register w h | registered w h | pending w h => cases ht.symm.trans h
    | take h => cases ht.symm.trans h
    | loadedDone h => exact absurd ht h
    | complete | write | store | wake | wakeReturned | woken => exact ⟨ht, by simpa using hq⟩

theorem done_step (hs : Step s a t) (hd : s.shared.done = true) : t.shared.done = true := by
  cases moves hs with
  | store => rfl
  | _ => exact hd

theorem done_trace (h : Lts.Trace (runFutureLts W) s xs t) (hd : s.shared.done = true) :
    t.shared.done = true := by
  induction h with
  | refl => exact hd
  | snoc _ hstep ih => exact done_step hstep ih

theorem pending_cases (hs : Step s (.pending w) t) :
    s.poll = .loadAgain w ∧ s.shared.done = false ∧ t = { s with poll := .idle } := by
  cases moves hs with
  | pending w h hd => exact ⟨h, hd, rfl⟩

theorem doneStored_cases (hs : Step s .doneStored t) : t.shared.done = true := by
  cases moves hs with
  | store => rfl

theorem Delivered.announced (h : Delivered xs s) (hd : s.shared.done = false) :
    Announced ([] : List (Event W)) { s with poll := .idle } := by
  unfold Delivered at h
  unfold Announced
  dsimp only
  generalize s.callback = pc at h ⊢
  cases pc with
  | start | write | storeDone => exact hd
  | wake | waking | returned => simp [hd] at h

/-- The polls that have begun and not returned. -/
def PollPc.running : PollPc W → Nat
  | .idle => 0
  | .load _ | .register _ | .registering _ | .loadAgain _ | .takeResult => 1

theorem running_of_ne {pc : PollPc W} (h : pc ≠ .idle) : pc.running = 1 := by
  cases pc <;> first | rfl | exact absurd rfl h

/-- A poll is begun by its caller, and `Ready` ends it. -/
theorem running_step (hs : Step s a t) (hp : ∀ w, a ≠ .pending w) :
    (readies [a]).length + t.poll.running = polls [a] + s.poll.running := by
  cases moves hs with
  | pending w => exact absurd rfl (hp w)
  | poll w h | loaded w h | register w h | registered w h | take h =>
    simp [readies, polls, h, PollPc.running]
  | loadedDone h => simpa [readies, polls, PollPc.running] using (running_of_ne h).symm
  | complete | write | store | wake | wakeReturned | woken => simp [readies, polls]

/-- Every poll that has begun returns `Ready`, or is not through, unless it is pending. -/
theorem running_trace (h : Lts.Trace (runFutureLts W) s xs t) (hp : ∀ w, .pending w ∉ xs) :
    (readies xs).length + t.poll.running = polls xs + s.poll.running := by
  induction h with
  | refl => simp [readies, polls]
  | @snoc t u xs a _ hstep ih =>
    have hxs := ih fun w hm => hp w (List.mem_append_left _ hm)
    have ha := running_step hstep fun w he => hp w (he ▸ List.mem_append_right _ List.mem_cons_self)
    have hreadies : (readies (xs ++ [a])).length = (readies xs).length + (readies [a]).length := by
      simp [readies]
    have hpolls : polls (xs ++ [a]) = polls xs + polls [a] := by simp [polls]
    omega

/-- After `done` is set no poll is pending. -/
theorem pending_stored (h : Lts.Trace (runFutureLts W) .new (xs ++ .doneStored :: ys) s) :
    ∀ w, .pending w ∉ ys := by
  intro w hm
  obtain ⟨post₁, post₂, rfl⟩ := List.append_of_mem hm
  obtain ⟨u, -, hu⟩ := h.split
  obtain ⟨v, hstore, hv⟩ := hu.first
  obtain ⟨u', hu', hu''⟩ := hv.split
  obtain ⟨v', hpend, -⟩ := hu''.first
  have hdone := done_trace hu' (doneStored_cases hstore)
  rw [(pending_cases hpend).2.1] at hdone
  cases hdone

/-- A poll never waits. -/
theorem poll_continues (s : State W) (hp : s.poll ≠ .idle) : ∃ a state pc,
    pollStep s.shared s.poll = some (state, pc, a) := by
  cases hpc : s.poll with
  | idle => exact absurd hpc hp
  | load w | register w | registering w | takeResult => exact ⟨_, _, _, rfl⟩
  | loadAgain w =>
    cases hd : s.shared.done with
    | true => exact ⟨_, _, _, by simp only [pollStep, hd, if_true]; rfl⟩
    | false => exact ⟨_, _, _, by simp only [pollStep, hd, Bool.false_eq_true, if_false]; rfl⟩

theorem Handoff.written (h : Handoff xs s) (hp : s.poll = .takeResult) : s.callback.Written := by
  have hd := h.delivered
  unfold Delivered at hd
  generalize s.callback = pc at hd ⊢
  cases pc with
  | start | write | storeDone => simp [h.taking hp] at hd
  | wake | waking | returned => trivial

/-- The polls that were ready: none, or one with the result and the others without. -/
theorem Handoff.readies (h : Handoff xs s) : readies xs = [] ∨
    ∃ r n, .completing r ∈ xs ∧ readies xs = r :: List.replicate n consumed := by
  have hd := h.delivered
  unfold Delivered at hd
  generalize s.callback = pc at hd
  cases pc with
  | start => exact .inl hd.2
  | write | storeDone => exact .inl hd.2.1
  | wake | waking | returned =>
    obtain ⟨-, r, hr, ⟨hx, -⟩ | ⟨-, n, hx⟩⟩ := hd
    · exact .inl hx
    · exact .inr ⟨r, n, hr, hx⟩

/-- Every poll that begins once `done` is stored ends, if it ends, with `Ready`. -/
theorem polls_ready (h : Lts.Trace (runFutureLts W) .new (pre ++ .doneStored :: post) s)
    (hidle : s.poll = .idle) : polls post ≤ (readies post).length := by
  obtain ⟨u, -, hu⟩ := h.split
  obtain ⟨v, -, hv⟩ := hu.first
  have hrunning := running_trace hv (pending_stored h)
  have hended : s.poll.running = 0 := by rw [hidle]; rfl
  omega

/-- If the last poll was pending, the callback wakes its waker once `done` is stored. -/
theorem pending_woken (h : Lts.Trace (runFutureLts W) .new (pre ++ .pending w :: post) s)
    (hw : WakeNotifies (pre ++ .pending w :: post)) (hpoll : ∀ w', .polled w' ∉ post)
    (hret : s.callback = .returned) :
    ∃ post₁ post₂, post = post₁ ++ .doneStored :: post₂ ∧ .woken w ∈ post₂ := by
  obtain ⟨u, hu, hv⟩ := h.split
  obtain ⟨v, hpend, hv⟩ := hv.first
  obtain ⟨hpc, hdone, rfl⟩ := pending_cases hpend
  obtain ⟨pre₁, pre₂, rfl, hpre⟩ := registered_trace hu w hpc
  obtain ⟨-, hquiet⟩ := quiet_trace hv rfl hpoll
  have hann := announced_trace hv ((handoff_trace hu).delivered.announced hdone)
  simp only [Announced, hret] at hann
  obtain ⟨xs₁, xs₂, xs₃, xs₄, rfl⟩ := hann
  refine ⟨xs₁, xs₂ ++ .waking :: xs₃ ++ .wakeReturned :: xs₄, by simp, ?_⟩
  have hwoken : .woken w ∈ xs₃ := by
    refine hw w pre₁ (pre₂ ++ .pending w :: xs₁ ++ .doneStored :: xs₂) xs₃ xs₄ (by simp) ?_
    intro w' hm
    have hq := hquiet w'
    simp only [List.mem_append, List.mem_cons, reduceCtorEq, false_or] at hm hq
    have hp := hpre w'
    tauto
  simp [hwoken]

theorem WakeNotifies.append_left (h : WakeNotifies (xs ++ ys)) : WakeNotifies xs := by
  rintro w before quiet during after rfl hq
  exact h w before quiet during (after ++ ys) (by simp) hq

/-- Pending with waker 7, which the callback wakes. -/
def pendingRun : List (Event Nat) :=
  [.polled 7, .loaded false, .registering 7, .registered 7, .pending 7, .completing (.ok []),
    .written, .doneStored, .waking, .woken 7, .wakeReturned]

/-- `Ready` with waker 8. -/
def readyPoll : List (Event Nat) := [.polled 8, .loaded true, .ready (.ok [])]

theorem wakeNotifies_pendingRun : WakeNotifies (pendingRun ++ readyPoll) := by
  intro w before quiet during after hx _
  have hsplit : pendingRun ++ readyPoll = (before ++ .registered w :: quiet) ++
      .waking :: (during ++ .wakeReturned :: after) := by simpa using hx
  have hcalled : pendingRun ++ readyPoll = [.polled 7, .loaded false, .registering 7,
      .registered 7, .pending 7, .completing (.ok []), .written, .doneStored] ++
        .waking :: ([.woken 7] ++ .wakeReturned :: readyPoll) := rfl
  rw [hcalled] at hsplit
  obtain ⟨hbefore, -, hafter⟩ :=
    (List.append_cons_inj_of_notMem (by simp) (by simp [readyPoll])).mp hsplit
  obtain ⟨rfl, -, -⟩ :=
    (List.append_cons_inj_of_notMem (by simp) (by simp [readyPoll])).mp hafter
  have hw : .registered w ∈ before ++ .registered w :: quiet := by simp
  rw [← hbefore] at hw
  simpa using hw

theorem trace_pendingRun : Lts.Trace (runFutureLts Nat) .new pendingRun
    ⟨⟨some (.ok []), true⟩, .idle, .returned⟩ := by
  have h₁ : Lts.Trace (runFutureLts Nat) .new _ _ := .snoc .refl (.poll 7 rfl)
  have h₂ := (((h₁.snoc (.pollStep rfl)).snoc (.pollStep rfl)).snoc (.pollStep rfl)).snoc
    (.pollStep rfl)
  have h₃ := (((h₂.snoc (.complete (.ok []) rfl)).snoc (.callbackStep rfl)).snoc
    (.callbackStep rfl)).snoc (.callbackStep rfl)
  exact (h₃.snoc (.woken 7)).snoc (.callbackStep rfl)

end Zrt.RunFuture
