import Zrt.Dynamic.Specification

/-! `poll_owned_runs` of `runtime.rs`: one nonblocking pass over a batch of owned runs. -/
namespace Zrt.Dynamic

open Lane (CompletionStatus Features Native)

variable {ins outs : Nat}

/-- The device of the lane's completion event, if one is recorded behind a run; `none` is the panic
on a recorded event that the lane does not have. -/
def ServingLane.completionEvent (l : ServingLane ins outs) : Option (Option Int) :=
  if l.inFlight ∧ l.completionEventRecorded then l.cudaDeviceId.map some else some none

/-- The token with its event found complete. -/
def OwnedDynamicIoRun.complete (run : OwnedDynamicIoRun ins outs) : OwnedDynamicIoRun ins outs :=
  { run with lane := run.lane.after (Lane.clearInFlight { run.lane.toServingLane with
      work := if run.lane.work = .recorded then .none else run.lane.work }) }

/-- The tokens and the result buffer after a call; `outcome` is `none` if it panicked. -/
structure Polled (ins outs : Nat) where
  runs : List (OwnedDynamicIoRun ins outs)
  statuses : List CompletionStatus
  outcome : Option (Except Error Unit)

/-- A run with its status goes in front, whatever becomes of the rest. -/
def Polled.cons (run : OwnedDynamicIoRun ins outs) (status : CompletionStatus)
    (rest : Polled ins outs) : Polled ins outs :=
  { rest with runs := run :: rest.runs, statuses := status :: rest.statuses }

/-- `CudaCompletionPoller::query_validated`, for what `cudaEventQuery` returns. -/
def queryValidated (device event : Int) (query : Except Error Bool) : Except Error Bool :=
  if event ≠ device then
    .error (.local "zrt: CUDA completion batch contains an event from another device")
  else query

/-- The first pass, with `has_in_flight` so far; `none` is a panic. -/
def preflight (device : Int) : Bool → List (OwnedDynamicIoRun ins outs) →
    Option (Except Error Bool)
  | hasInFlight, [] => some (.ok hasInFlight)
  | hasInFlight, run :: runs =>
    if !run.lane.inFlight then preflight device hasInFlight runs
    else match run.lane.completionEvent with
      | none => none
      | some none => some (.error (.local ("zrt: batch polling requires every in-flight run to " ++
          "have an exact CUDA completion event")))
      | some (some event) =>
        if event ≠ device then
          some (.error (.local "zrt: owned-run completion batch contains another CUDA device"))
        else preflight device true runs

/-- The second pass; `query` gives what `cudaEventQuery` returns by position in the batch. -/
def pollRuns (device : Int) : (Nat → Except Error Bool) → List (OwnedDynamicIoRun ins outs) →
    List CompletionStatus → Polled ins outs
  | query, run :: runs, status :: statuses =>
    let rest := pollRuns device (fun i => query (i + 1)) runs statuses
    if !run.lane.inFlight then .cons run .ready rest
    else match run.lane.completionEvent with
      | none | some none => ⟨run :: runs, status :: statuses, none⟩
      | some (some event) => match queryValidated device event (query 0) with
        | .error e => ⟨run :: runs, status :: statuses, some (.error e)⟩
        | .ok true => .cons run.complete .ready rest
        | .ok false => .cons run .pending rest
  | _, runs, statuses => ⟨runs, statuses, some (.ok ())⟩

/-- `poll_owned_runs` with a poller for `device`; `current` is what `ensure_device_active`
returns. -/
def pollOwnedRuns (device : Int) (current : Except Error Unit) (query : Nat → Except Error Bool)
    (runs : List (OwnedDynamicIoRun ins outs)) (statuses : List CompletionStatus) :
    Polled ins outs :=
  if statuses.length < runs.length then ⟨runs, statuses, some (.error (.local
    "zrt: owned-run completion result buffer is smaller than the run batch"))⟩
  else match preflight device false runs with
    | none => ⟨runs, statuses, none⟩
    | some (.error e) => ⟨runs, statuses, some (.error e)⟩
    | some (.ok hasInFlight) => match if hasInFlight then current else .ok () with
      | .error e => ⟨runs, statuses, some (.error e)⟩
      | .ok () => pollRuns device query runs statuses

variable {device : Int} {current : Except Error Unit} {query : Nat → Except Error Bool}
  {runs : List (OwnedDynamicIoRun ins outs)} {run : OwnedDynamicIoRun ins outs}
  {statuses : List CompletionStatus} {hasInFlight : Bool}

/-- The run is idle, or its event is of the poller's device. -/
def OwnedDynamicIoRun.Pollable (device : Int) (run : OwnedDynamicIoRun ins outs) : Prop :=
  run.lane.inFlight = true → run.lane.completionEvent = some (some device)

/-- The lane's flag is set for an event the lane does not have. -/
def OwnedDynamicIoRun.EventMissing (run : OwnedDynamicIoRun ins outs) : Prop :=
  run.lane.completionEventRecorded = true ∧ run.lane.cudaDeviceId = none

theorem eventMissing_of_panic (h : run.lane.completionEvent = none) : run.EventMissing := by
  unfold ServingLane.completionEvent at h
  split at h
  · rename_i hc
    exact ⟨hc.2, by simpa using h⟩
  · cases h

theorem preflight_pollable (h : run.Pollable device) : preflight device hasInFlight (run :: runs) =
    preflight device (hasInFlight || run.lane.inFlight) runs := by
  cases hi : run.lane.inFlight with
  | false => simp [preflight, hi]
  | true => simp [preflight, hi, h hi]

theorem preflight_refused (h : ¬ run.Pollable device) :
    (∃ e, preflight device hasInFlight (run :: runs) = some (.error e)) ∨
      (preflight device hasInFlight (run :: runs) = none ∧ run.EventMissing) := by
  obtain ⟨hi, he⟩ := Classical.not_imp.mp h
  simp only [preflight, hi, Bool.not_true, Bool.false_eq_true, if_false]
  split
  · exact .inr ⟨rfl, eventMissing_of_panic ‹_›⟩
  · exact .inl ⟨_, rfl⟩
  · rename_i event hevent
    have hne : event ≠ device := by
      rintro rfl
      exact he hevent
    rw [if_pos hne]
    exact .inl ⟨_, rfl⟩

/-- The first pass accepts a batch of pollable runs and no other. -/
theorem preflight_cases (device : Int) (hasInFlight : Bool)
    (runs : List (OwnedDynamicIoRun ins outs)) :
    ((∀ run ∈ runs, run.Pollable device) ∧ preflight device hasInFlight runs =
      some (.ok (hasInFlight || runs.any fun run => run.lane.inFlight))) ∨
    ((∃ run ∈ runs, ¬ run.Pollable device) ∧
      ((∃ e, preflight device hasInFlight runs = some (.error e)) ∨
        (preflight device hasInFlight runs = none ∧ ∃ run ∈ runs, run.EventMissing))) := by
  induction runs generalizing hasInFlight with
  | nil => exact .inl ⟨by simp, by simp [preflight]⟩
  | cons run runs ih =>
    by_cases hp : run.Pollable device
    · rw [preflight_pollable hp]
      rcases ih (hasInFlight || run.lane.inFlight) with ⟨hall, he⟩ | ⟨⟨run', hm, hn⟩, he⟩
      · exact .inl ⟨by simpa [hp] using hall, by simp [he, Bool.or_assoc]⟩
      · refine .inr ⟨⟨run', List.mem_cons_of_mem _ hm, hn⟩, he.imp_right ?_⟩
        rintro ⟨he, run'', hm, hmissing⟩
        exact ⟨he, run'', List.mem_cons_of_mem _ hm, hmissing⟩
    · refine .inr ⟨⟨run, by simp, hp⟩, (preflight_refused hp).imp_right ?_⟩
      rintro ⟨he, hmissing⟩
      exact ⟨he, run, by simp, hmissing⟩

/-- What the call makes of the run at a position it passed. -/
def OwnedDynamicIoRun.polled (run : OwnedDynamicIoRun ins outs) (query : Except Error Bool) :
    OwnedDynamicIoRun ins outs :=
  if run.lane.inFlight = true ∧ query = .ok true then run.complete else run

/-- Polling a run in a batch is `try_complete` on its lane. -/
theorem tryComplete_eq_polled {f : Features} {n : Native} (hc : f.cuda = true)
    (hi : run.lane.inFlight = true) (hp : run.Pollable device) :
    Lane.tryComplete f run.lane.toServingLane n =
      ((run.polled n.eventIsComplete).lane.toServingLane,
        n.eventIsComplete.map fun complete => if complete then .ready else .pending) := by
  have hr : run.lane.completionEventRecorded = true := by
    by_contra hr
    have he := hp hi
    simp [ServingLane.completionEvent, hi, hr] at he
  simp only [Lane.tryComplete, OwnedDynamicIoRun.polled, hi, hr, hc, Bool.not_true,
    Bool.false_eq_true, if_false, and_self, if_true, true_and]
  cases n.eventIsComplete with
  | error e => rfl
  | ok complete => cases complete <;> rfl

/-- The second pass stops at the first run in flight whose query fails; it polls those before. -/
structure PolledUpTo (query : Nat → Except Error Bool) (runs : List (OwnedDynamicIoRun ins outs))
    (statuses : List CompletionStatus) (k : Nat) (r : Polled ins outs) : Prop where
  le : k ≤ runs.length
  passed : ∀ i, r.runs[i]? =
    if i < k then runs[i]?.map fun run => run.polled (query i) else runs[i]?
  written : ∀ i < k, ∀ run, runs[i]? = some run → r.statuses[i]? = some
    (if run.lane.inFlight = false ∨ query i = .ok true then .ready else .pending)
  kept : ∀ i, k ≤ i → r.statuses[i]? = statuses[i]?
  outcome : (k = runs.length ∧ r.outcome = some (.ok ())) ∨
    ∃ run e, runs[k]? = some run ∧ run.lane.inFlight = true ∧ query k = .error e ∧
      r.outcome = some (.error e)

theorem polledUpTo_cons {r : Polled ins outs} {k : Nat} (run : OwnedDynamicIoRun ins outs)
    (status : CompletionStatus) (h : PolledUpTo (fun i => query (i + 1)) runs statuses k r) :
    PolledUpTo query (run :: runs) (status :: statuses) (k + 1) (.cons (run.polled (query 0))
      (if run.lane.inFlight = false ∨ query 0 = .ok true then .ready else .pending) r) := by
  refine ⟨by simpa using h.le, ?_, ?_, ?_, ?_⟩
  · intro i
    cases i with
    | zero => simp [Polled.cons]
    | succ i => simpa [Polled.cons] using h.passed i
  · intro i hi run' hrun'
    cases i with
    | zero =>
      obtain rfl : run = run' := by simpa using hrun'
      simp [Polled.cons]
    | succ i => simpa [Polled.cons] using h.written i (by omega) run' (by simpa using hrun')
  · intro i hi
    cases i with
    | zero => omega
    | succ i => simpa [Polled.cons] using h.kept i (by omega)
  · rcases h.outcome with ⟨hk, ho⟩ | ⟨run', e, hrun', hi, hq, ho⟩
    · exact .inl ⟨by simpa using hk, ho⟩
    · exact .inr ⟨run', e, by simpa using hrun', hi, hq, ho⟩

theorem pollRuns_upTo (query : Nat → Except Error Bool) (hlen : runs.length ≤ statuses.length)
    (hp : ∀ run ∈ runs, run.Pollable device) :
    ∃ k, PolledUpTo query runs statuses k (pollRuns device query runs statuses) := by
  induction runs generalizing query statuses with
  | nil => exact ⟨0, by simp, by simp [pollRuns], by simp, by simp [pollRuns], .inl ⟨rfl, rfl⟩⟩
  | cons run runs ih =>
    obtain ⟨hrun, hruns⟩ := List.forall_mem_cons.mp hp
    cases statuses with
    | nil => simp at hlen
    | cons status statuses =>
      obtain ⟨k, hk⟩ := ih (fun i => query (i + 1)) (by simpa using hlen) hruns
      rw [pollRuns]
      cases hi : run.lane.inFlight with
      | false =>
        have hpolled : run.polled (query 0) = run := by simp [OwnedDynamicIoRun.polled, hi]
        refine ⟨k + 1, ?_⟩
        simpa only [hpolled, hi, true_or, Bool.not_false, if_true] using
          polledUpTo_cons run status hk
      | true =>
        simp only [Bool.not_true, Bool.false_eq_true, if_false, hrun hi, queryValidated, ne_eq,
          not_true_eq_false]
        cases hq : query 0 with
        | error e =>
          refine ⟨0, by simp, by simp, by simp, by simp, .inr ⟨run, e, rfl, hi, hq, rfl⟩⟩
        | ok complete =>
          cases complete with
          | true =>
            have hpolled : run.polled (.ok true) = run.complete := by
              simp [OwnedDynamicIoRun.polled, hi]
            refine ⟨k + 1, ?_⟩
            simpa only [hpolled, hq, or_true, if_true] using polledUpTo_cons run status hk
          | false =>
            have hpolled : run.polled (.ok false) = run := by
              simp [OwnedDynamicIoRun.polled]
            refine ⟨k + 1, ?_⟩
            simpa [hpolled, hi, hq] using polledUpTo_cons run status hk

/-- A call is refused: the buffer is short, a run in flight has no event of the poller's device, or
the device of the poller cannot be made current for one. -/
def Refused (device : Int) (current : Except Error Unit) (runs : List (OwnedDynamicIoRun ins outs))
    (statuses : List CompletionStatus) : Prop :=
  statuses.length < runs.length ∨ (∃ run ∈ runs, ¬ run.Pollable device) ∨
    (∃ run ∈ runs, run.lane.inFlight = true) ∧ ∃ e, current = .error e

/-- A refused call changes nothing. Any other polls the runs up to the first query that fails: it
clears the runs in flight whose query reported complete, and a status it writes is `Ready` just
where the run was idle or its event complete. It panics on a lane without its event only. -/
theorem poll_owned_runs_truthful (device : Int) (current : Except Error Unit)
    (query : Nat → Except Error Bool) (runs : List (OwnedDynamicIoRun ins outs))
    (statuses : List CompletionStatus) :
    (Refused device current runs statuses →
      (pollOwnedRuns device current query runs statuses).runs = runs ∧
      (pollOwnedRuns device current query runs statuses).statuses = statuses ∧
      (pollOwnedRuns device current query runs statuses).outcome ≠ some (.ok ())) ∧
    (¬ Refused device current runs statuses → ∃ k, PolledUpTo query runs statuses k
      (pollOwnedRuns device current query runs statuses)) ∧
    ((pollOwnedRuns device current query runs statuses).outcome = none →
      ∃ run ∈ runs, run.EventMissing) := by
  unfold pollOwnedRuns Refused
  by_cases hlen : statuses.length < runs.length
  · simp [hlen]
  rw [if_neg hlen]
  rcases preflight_cases device false runs with ⟨hall, he⟩ | ⟨hex, ⟨e, he⟩ | ⟨he, hmissing⟩⟩
  · have hnone : ¬ ∃ run ∈ runs, ¬ run.Pollable device := by simpa using hall
    have hany : (runs.any fun run => run.lane.inFlight) = true ↔
        ∃ run ∈ runs, run.lane.inFlight = true := by simp
    rw [he]
    simp only [hlen, hnone, Bool.false_or, false_or]
    by_cases hc : (∃ run ∈ runs, run.lane.inFlight = true) ∧ ∃ e, current = .error e
    · obtain ⟨hin, e, rfl⟩ := hc
      rw [if_pos (hany.mpr hin)]
      simp [hin]
    · have hcur : (if (runs.any fun run => run.lane.inFlight) = true then current else .ok ()) =
          .ok () := by
        split
        · rename_i hin
          cases hcur : current with
          | error e => exact absurd ⟨hany.mp hin, e, hcur⟩ hc
          | ok _ => rfl
        · rfl
      simp only [hcur, hc, not_false_eq_true, true_implies, false_implies, true_and]
      obtain ⟨k, hk⟩ := pollRuns_upTo query (Nat.not_lt.mp hlen) hall
      refine ⟨⟨k, hk⟩, ?_⟩
      intro ho
      rcases hk.outcome with ⟨-, ho'⟩ | ⟨_, e, -, -, -, ho'⟩ <;> simp [ho] at ho'
  · simp [he, hlen, hex]
  · simp only [he, hlen, hex, false_or, true_or, not_true_eq_false, false_implies, true_and,
      ne_eq, reduceCtorEq, not_false_eq_true, and_self, true_implies]
    exact hmissing

end Zrt.Dynamic
