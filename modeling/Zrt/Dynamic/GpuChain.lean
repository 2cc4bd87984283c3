import Zrt.Dynamic.System
import Zrt.Lane.Outcome

/-! Owned runs whose device outputs are consumed by work queued on another CUDA stream. -/
namespace Zrt.Dynamic.GpuChain

open Lane (CompletionStatus Features Native ProviderWork)

variable {ins outs : Nat}

/-- How the enqueue closure ends; in each case it may have queued work. -/
inductive Closure where
  | returns (result : Except Error Unit)
  | unwinds

/-- The outcomes of the native calls of one operation on a chain: `dropEventSync` and
`dropStreamSync` are the fences made by its `drop`, `lane` those of the run dropped with it. -/
structure Gpu where
  sameDevice : Bool
  streamWaitEvent : Except Error Unit
  record : Except Error Unit
  isComplete : Except Error Bool
  eventSync : Except Error Unit
  streamSync : Except Error Unit
  dropEventSync : Except Error Unit
  dropStreamSync : Except Error Unit
  lane : Native

/-- `GpuChainedDynamicIoRun`; of the stream only whether it is still held. -/
structure GpuChainedDynamicIoRun (ins outs : Nat) where
  run : Option (OwnedDynamicIoRun ins outs)
  downstreamEventRecorded : Bool
  downstreamStream : Bool
  failure : Option Error
  complete : Bool

/-- What became of a lane nobody owns any more. -/
inductive Fate (ins outs : Nat) where
  | returned (lane : ServingLane ins outs)
  | leaked (run : OwnedDynamicIoRun ins outs)

inductive Owner (ins outs : Nat) where
  | run (run : OwnedDynamicIoRun ins outs)
  | chain (chain : GpuChainedDynamicIoRun ins outs)
  | gone

/-- One owned run over its life. `downstream` is history: the work closures may have queued on the
downstream stream and nothing has proven complete, `recorded` once the event is behind it. -/
structure State (ins outs : Nat) where
  owner : Owner ins outs
  downstream : ProviderWork
  fates : List (Fate ins outs)

/-- `Result::err`. -/
def err {α : Type} : Except Error α → Option Error
  | .ok _ => none
  | .error e => some e

/-- A wait for the downstream event covers the work it was recorded behind. -/
def eventSynchronized (w : ProviderWork) (outcome : Except Error Unit) : ProviderWork :=
  if outcome.isOk ∧ w = .recorded then .none else w

/-- Synchronizing the downstream stream covers everything queued on it. -/
def streamSynchronized (w : ProviderWork) (outcome : Except Error Unit) : ProviderWork :=
  if outcome.isOk then .none else w

def queueCompletionWait (l : Lane.ServingLane) (g : Gpu) : Except Error Unit :=
  if l.inFlight = false ∨ l.completionEventRecorded = false then
    .error (.local "zrt: GPU chaining requires an in-flight exact-stream CUDA completion event")
  else if g.sameDevice then g.streamWaitEvent
  else .error (.local ("zrt: GPU chaining currently requires source and downstream streams on " ++
    "the same CUDA device"))

/-- `mark_complete_after_gpu_chain`. The downstream stream waited for the lane's own event. -/
def markCompleteAfterGpuChain (run : OwnedDynamicIoRun ins outs) : OwnedDynamicIoRun ins outs :=
  { run with lane := run.lane.after (Lane.clearInFlight { run.lane.toServingLane with
    work := if run.lane.work = .recorded then .none else run.lane.work }) }

def GpuChainedDynamicIoRun.markComplete (c : GpuChainedDynamicIoRun ins outs) :
    GpuChainedDynamicIoRun ins outs :=
  { c with run := c.run.map markCompleteAfterGpuChain, complete := true }

variable (f : Features)

/-- `OwnedDynamicIoRun::drop`: the lane goes to its recovery slot, if it can be fenced. -/
def dropRun (run : OwnedDynamicIoRun ins outs) (n : Native) : Fate ins outs :=
  let lane := run.lane.after (Lane.finishInFlightBestEffort f run.lane.toServingLane n)
  if lane.inFlight ∨ lane.recoverySlot = none then .leaked { run with lane }
  else .returned lane

/-- The lane after `complete_owned` on a run. -/
def completeRun (run : OwnedDynamicIoRun ins outs) (n : Native) : Fate ins outs :=
  let lane := run.lane.after (Lane.synchronizeOutputs f run.lane.toServingLane n).1
  if lane.inFlight then .leaked { run with lane } else .returned lane

/-- `chain_on_stream` of a lane with or without device-resident outputs. -/
def chainOnStream (s : State ins outs) (run : OwnedDynamicIoRun ins outs) (deviceOutputs : Bool)
    (closure : Closure) (g : Gpu) : State ins outs × Except Error Unit :=
  if deviceOutputs = false then (s, .error (.local
    "zrt: GPU chaining requires device-resident lane outputs"))
  else match queueCompletionWait run.lane.toServingLane g with
    | .error e => (s, .error e)
    | .ok () =>
      let downstream : ProviderWork := if g.record.isOk then .recorded else .queued
      match closure with
      | .unwinds =>
        -- the panic is resumed, and drops the run unless it was forgotten
        if g.record.isOk ∧ g.eventSync.isOk then
          (⟨.gone, eventSynchronized downstream g.eventSync,
            s.fates ++ [dropRun f (markCompleteAfterGpuChain run) g.lane]⟩, .ok ())
        else (⟨.gone, downstream, s.fates ++ [.leaked run]⟩, .ok ())
      | .returns result =>
        let failure := match g.record with
          | .error e => some e
          | .ok () => err result
        (⟨.chain ⟨some run, g.record.isOk, true, failure, false⟩, downstream, s.fates⟩, .ok ())

def tryComplete (s : State ins outs) (c : GpuChainedDynamicIoRun ins outs) (g : Gpu) :
    State ins outs × Except Error CompletionStatus :=
  if c.complete then (s, .ok .ready)
  else if c.downstreamEventRecorded = false then (s, .error (.local
    "zrt: GPU chain has no recorded downstream completion event"))
  else match g.isComplete with
    | .error e => (s, .error e)
    | .ok false => (s, .ok .pending)
    | .ok true => ({ s with
        owner := .chain c.markComplete
        downstream := eventSynchronized s.downstream (.ok ()) }, .ok .ready)

/-- The fields of a chain are dropped: a run still in it is. -/
def dropFields (s : State ins outs) (c : GpuChainedDynamicIoRun ins outs) (n : Native) :
    State ins outs :=
  { s with
    owner := .gone
    fates := s.fates ++ (c.run.map fun run => dropRun f run n).toList }

/-- `GpuChainedDynamicIoRun::drop`, and the drop of the fields. -/
def dropChain (s : State ins outs) (c : GpuChainedDynamicIoRun ins outs) (g : Gpu) :
    State ins outs :=
  match c.run with
  | none => dropFields f s c g.lane
  | some run =>
    if c.complete then dropFields f s c g.lane
    else
      let eventSync := c.downstreamEventRecorded ∧ g.dropEventSync.isOk
      let streamSync := c.downstreamStream ∧ g.dropStreamSync.isOk
      if eventSync then
        dropFields f { s with
          downstream := eventSynchronized s.downstream g.dropEventSync } c.markComplete g.lane
      else if streamSync then
        dropFields f { s with
          downstream := streamSynchronized s.downstream g.dropStreamSync } c.markComplete g.lane
      else { s with owner := .gone, fates := s.fates ++ [.leaked run] }

/-- `synchronize`, which consumes the chain: what it does not hand back is dropped with it. -/
def synchronize (s : State ins outs) (c : GpuChainedDynamicIoRun ins outs) (g : Gpu) :
    State ins outs × Except Error Unit :=
  if c.downstreamEventRecorded = false then
    match g.streamSync with
    | .error e => (dropChain f s c g, .error e)
    | .ok () => (dropChain f { s with
        downstream := streamSynchronized s.downstream (.ok ()) } c.markComplete g,
        .error (c.failure.getD (.local
          "zrt: GPU chain has no recorded downstream completion event")))
  else
    match (if c.complete then .ok () else g.eventSync) with
    | .error e => (dropChain f s c g, .error e)
    | .ok () =>
      let s := if c.complete then s else { s with
        downstream := eventSynchronized s.downstream (.ok ()) }
      let c := { (if c.complete then c else c.markComplete) with downstreamStream := false }
      match c.failure, c.run with
      | some e, _ => (dropChain f s c g, .error e)
      | none, some run => ({ s with owner := .run run }, .ok ())
      | none, none => ({ s with owner := .gone }, .error (.local
          "zrt: GPU chain is missing its owned ORT run"))

/-- The calls of whoever owns the run or its chain. -/
inductive Action where
  | runLane (op : Lane.Op) (n : Native)
  | chainOnStream (deviceOutputs : Bool) (closure : Closure) (g : Gpu)
  | tryComplete (g : Gpu)
  | synchronize (g : Gpu)
  | drop (g : Gpu)
  | completeOwned (n : Native)
  | forget

def step (s : State ins outs) (a : Action) : State ins outs :=
  match s.owner, a with
  | .run run, .runLane op n => { s with owner := .run (run.exec f op n) }
  | .run run, .chainOnStream deviceOutputs closure g =>
    (chainOnStream f s run deviceOutputs closure g).1
  | .run run, .drop g => ⟨.gone, s.downstream, s.fates ++ [dropRun f run g.lane]⟩
  | .run run, .completeOwned n => ⟨.gone, s.downstream, s.fates ++ [completeRun f run n]⟩
  | .run run, .forget => ⟨.gone, s.downstream, s.fates ++ [.leaked run]⟩
  | .chain c, .tryComplete g => (tryComplete s c g).1
  | .chain c, .synchronize g => (synchronize f s c g).1
  | .chain c, .drop g => dropChain f s c g
  | .chain c, .forget => ⟨.gone, s.downstream, s.fates ++ (c.run.map .leaked).toList⟩
  | _, _ => s

/-- A run as `enqueue_prepared` returned it, with a lane of any history. -/
def chainLts (f : Features) (ins outs : Nat) : Lts.System (State ins outs) Action :=
  Lts.System.ofNext (fun s => ∃ run, Lane.Reachable f run.lane.toServingLane ∧
    s = ⟨.run run, .none, []⟩) (step f)

abbrev Reachable (s : State ins outs) : Prop := Lts.Reachable (chainLts f ins outs) s

variable {f : Features} {s : State ins outs} {run : OwnedDynamicIoRun ins outs}
  {c : GpuChainedDynamicIoRun ins outs} {g : Gpu} {n : Native}

/-- A chain holds its run: in flight until the chain is complete. -/
structure Holds (c : GpuChainedDynamicIoRun ins outs) (w : ProviderWork)
    (run : OwnedDynamicIoRun ins outs) : Prop where
  held : c.run = some run
  complete : c.complete = true → w = .none
  inFlight : c.complete = false → run.lane.inFlight = true
  recorded : c.complete = false → c.downstreamEventRecorded = true → w = .recorded

/-- The one place the lane is in, and what it says of the downstream work. -/
def Sound (s : State ins outs) : Prop :=
  match s.owner with
  | .run _ => s.downstream = .none ∧ s.fates = []
  | .chain c => s.fates = [] ∧ ∃ run, Holds c s.downstream run
  | .gone => (∃ lane, s.fates = [.returned lane] ∧ s.downstream = .none ∧ lane.inFlight = false) ∨
      ∃ run, s.fates = [.leaked run] ∧ (s.downstream ≠ .none → run.lane.inFlight = true)

theorem eventSynchronized_recorded {outcome : Except Error Unit} (h : outcome.isOk = true) :
    eventSynchronized .recorded outcome = .none := if_pos ⟨h, rfl⟩

theorem streamSynchronized_ok {w : ProviderWork} {outcome : Except Error Unit}
    (h : outcome.isOk = true) : streamSynchronized w outcome = .none := if_pos h

theorem sound_dropRun (hw : s.downstream = .none) (hf : s.fates = []) :
    Sound ⟨.gone, s.downstream, s.fates ++ [dropRun f run n]⟩ := by
  simp only [Sound, hw, hf, List.nil_append, dropRun]
  split
  · exact .inr ⟨_, rfl, fun h => absurd rfl h⟩
  · rename_i hidle
    simp only [not_or] at hidle
    exact .inl ⟨_, rfl, trivial, by simpa using hidle.1⟩

theorem sound_completeRun (hw : s.downstream = .none) (hf : s.fates = []) :
    Sound ⟨.gone, s.downstream, s.fates ++ [completeRun f run n]⟩ := by
  simp only [Sound, hw, hf, List.nil_append, completeRun]
  split
  · exact .inr ⟨_, rfl, fun h => absurd rfl h⟩
  · rename_i hidle
    exact .inl ⟨_, rfl, trivial, by simpa using hidle⟩

/-- The fields go once the downstream work is over. -/
theorem sound_dropFields (hw : s.downstream = .none) (hf : s.fates = []) (hr : c.run = some run) :
    Sound (dropFields f s c n) := by
  simp only [dropFields, hr]
  exact sound_dropRun (s := s) hw hf

theorem sound_leak (hf : s.fates = []) (hin : run.lane.inFlight = true) :
    Sound ⟨.gone, s.downstream, s.fates ++ [.leaked run]⟩ := by
  simp only [Sound, hf, List.nil_append]
  exact .inr ⟨run, rfl, fun _ => hin⟩

theorem sound_dropChain (hf : s.fates = []) (h : Holds c s.downstream run) :
    Sound (dropChain f s c g) := by
  simp only [dropChain, h.held]
  split
  · exact sound_dropFields (h.complete ‹_›) hf h.held
  · rename_i hc
    have hc' : c.complete = false := by simpa using hc
    have hrun : c.markComplete.run = some (markCompleteAfterGpuChain run) := by
      simp [GpuChainedDynamicIoRun.markComplete, h.held]
    split
    · rename_i he
      refine sound_dropFields ?_ hf hrun
      rw [h.recorded hc' he.1]
      exact eventSynchronized_recorded he.2
    · split
      · rename_i he
        exact sound_dropFields (streamSynchronized_ok he.2) hf hrun
      · exact sound_leak hf (h.inFlight hc')

theorem Holds.markComplete (h : Holds c s.downstream run) {w : ProviderWork} (hw : w = .none) :
    Holds c.markComplete w (markCompleteAfterGpuChain run) :=
  ⟨by simp [GpuChainedDynamicIoRun.markComplete, h.held], fun _ => hw,
    by simp [GpuChainedDynamicIoRun.markComplete], by simp [GpuChainedDynamicIoRun.markComplete]⟩

theorem sound_tryComplete (hf : s.fates = []) (ho : s.owner = .chain c)
    (h : Holds c s.downstream run) : Sound (tryComplete s c g).1 := by
  have hsame : Sound s := by
    simp only [Sound, ho]
    exact ⟨hf, run, h⟩
  unfold tryComplete
  split
  · exact hsame
  · rename_i hc
    split
    · exact hsame
    · rename_i hrec
      split
      · exact hsame
      · exact hsame
      · have hw : s.downstream = .recorded := h.recorded (by simpa using hc) (by simpa using hrec)
        refine ⟨hf, _, h.markComplete ?_⟩
        rw [hw]
        rfl

theorem sound_synchronize (hf : s.fates = []) (h : Holds c s.downstream run) :
    Sound (synchronize f s c g).1 := by
  unfold synchronize
  split
  · split
    · exact sound_dropChain hf h
    · have hw : streamSynchronized s.downstream (.ok ()) = .none := streamSynchronized_ok rfl
      exact sound_dropChain (s := { s with downstream := _ }) hf (h.markComplete hw)
  · rename_i hrec
    split
    · exact sound_dropChain hf h
    · -- the downstream work is over, whether it was seen before or just now
      cases hc : c.complete with
      | true =>
        have hw := h.complete hc
        simp only [if_true, h.held]
        cases hfail : c.failure with
        | none => exact ⟨hw, hf⟩
        | some e => exact sound_dropChain hf ⟨rfl, fun _ => hw, by simp [hc], by simp [hc]⟩
      | false =>
        have hw : eventSynchronized s.downstream (.ok ()) = .none := by
          rw [h.recorded hc (by simpa using hrec)]
          rfl
        have hmark := h.markComplete hw
        simp only [Bool.false_eq_true, if_false, hmark.held]
        cases hfail : c.markComplete.failure with
        | none => exact ⟨hw, hf⟩
        | some e =>
          dsimp only
          refine sound_dropChain (s := { s with downstream := _ }) hf ⟨rfl, fun _ => hw, ?_, ?_⟩
          · exact hmark.inFlight
          · exact hmark.recorded

theorem sound_chainOnStream {deviceOutputs : Bool} {closure : Closure}
    (hw : s.downstream = .none) (hf : s.fates = []) (ho : s.owner = .run run) :
    Sound (chainOnStream f s run deviceOutputs closure g).1 := by
  have hsame : Sound s := by
    simp only [Sound, ho]
    exact ⟨hw, hf⟩
  unfold chainOnStream
  split
  · exact hsame
  · cases hq : queueCompletionWait run.lane.toServingLane g with
    | error e => exact hsame
    | ok u =>
      have hin : run.lane.inFlight = true := by
        by_contra hi
        rw [queueCompletionWait, if_pos (.inl (by simpa using hi))] at hq
        cases hq
      cases closure with
      | unwinds =>
        simp only
        split
        · rename_i hfenced
          refine sound_dropRun (s := { s with downstream := _ }) ?_ hf
          rw [if_pos hfenced.1]
          exact eventSynchronized_recorded hfenced.2
        · exact sound_leak (s := { s with downstream := _ }) hf hin
      | returns result =>
        refine ⟨hf, run, rfl, by simp, fun _ => hin, fun _ hrec => ?_⟩
        simp [show g.record.isOk = true from hrec]

theorem sound_step {a : Action} (h : Sound s) : Sound (step f s a) := by
  have h' := h
  unfold step
  unfold Sound at h'
  cases ho : s.owner with
  | run run =>
    simp only [ho] at h'
    obtain ⟨hw, hf⟩ := h'
    cases a with
    | runLane op n => exact ⟨hw, hf⟩
    | chainOnStream deviceOutputs closure g => exact sound_chainOnStream hw hf ho
    | drop g => exact sound_dropRun hw hf
    | completeOwned n => exact sound_completeRun hw hf
    | forget =>
      simp only [hf, hw, List.nil_append]
      exact .inr ⟨run, rfl, fun hne => absurd rfl hne⟩
    | _ => exact h
  | chain c =>
    simp only [ho] at h'
    obtain ⟨hf, run, hh⟩ := h'
    cases a with
    | tryComplete g => exact sound_tryComplete hf ho hh
    | synchronize g => exact sound_synchronize hf hh
    | drop g => exact sound_dropChain hf hh
    | forget =>
      simp only [hf, hh.held, List.nil_append, Option.map_some, Option.toList_some]
      refine .inr ⟨run, rfl, fun hne => hh.inFlight ?_⟩
      by_contra hc
      exact hne (hh.complete (by simpa using hc))
    | _ => exact h
  | gone => cases a <;> exact h

theorem sound_reachable (h : Reachable f s) : Sound s := by
  apply Lts.invariant_reachable ?_ ?_ h
  · rintro _ ⟨run, -, rfl⟩
    exact ⟨rfl, rfl⟩
  · rintro s a _ hs rfl
    exact sound_step hs

/-- While downstream work may be pending, the lane is in flight, in its chain or leaked; a lane
comes back after it, and only once. -/
theorem chained_lane_released (h : Reachable f s) :
    (s.downstream ≠ .none →
      (∃ c run, s.owner = .chain c ∧ c.run = some run ∧ run.lane.inFlight = true ∧ s.fates = []) ∨
      ∃ run, s.owner = .gone ∧ s.fates = [.leaked run] ∧ run.lane.inFlight = true) ∧
    (∀ lane, .returned lane ∈ s.fates → s.fates = [.returned lane] ∧ s.downstream = .none ∧
      lane.inFlight = false) ∧
    (s.owner ≠ .gone → s.fates = []) ∧ s.fates.length ≤ 1 := by
  have hs := sound_reachable h
  unfold Sound at hs
  cases ho : s.owner with
  | run run =>
    simp only [ho] at hs
    exact ⟨fun hne => absurd hs.1 hne, by simp [hs.2], fun _ => hs.2, by simp [hs.2]⟩
  | chain c =>
    simp only [ho] at hs
    obtain ⟨hf, run, hh⟩ := hs
    refine ⟨fun hne => .inl ⟨c, run, rfl, hh.held, hh.inFlight ?_, hf⟩, by simp [hf], fun _ => hf,
      by simp [hf]⟩
    by_contra hc
    exact hne (hh.complete (by simpa using hc))
  | gone =>
    simp only [ho] at hs
    rcases hs with ⟨lane, hf, hw, hi⟩ | ⟨run, hf, hin⟩
    · refine ⟨fun hne => absurd hw hne, fun lane' hl => ?_, by simp, by simp [hf]⟩
      rw [hf] at hl
      obtain rfl := Fate.returned.inj (List.mem_singleton.mp hl)
      exact ⟨hf, hw, hi⟩
    · refine ⟨fun hne => .inr ⟨run, rfl, hf, hin hne⟩, fun lane hl => ?_, by simp, by simp [hf]⟩
      rw [hf] at hl
      cases List.mem_singleton.mp hl

/-- Every native call succeeds. -/
def Gpu.success : Gpu where
  sameDevice := true
  streamWaitEvent := .ok ()
  record := .ok ()
  isComplete := .ok true
  eventSync := .ok ()
  streamSync := .ok ()
  dropEventSync := .ok ()
  dropStreamSync := .ok ()
  lane := Native.success

/-- A captured replay on device `0`, as `run_enqueued` leaves its lane. -/
def replay : OwnedDynamicIoRun 0 0 where
  lane := ⟨Lane.Op.exec ⟨true, false⟩ (Lane.Op.exec ⟨true, false⟩ (.new (some 0)) Native.success
    (.setGpuGraphId 1)) Native.success .runEnqueued, ⟨0, ⟨.nil, .nil⟩, ⟨0, 0⟩, 0⟩⟩
  bucketId := ⟨0, 0⟩
  recovery := 0

/-- The closure fails after the lane was chained: the lane stays in flight in the chain. -/
theorem chained_lane_released_failed : ∃ s : State 0 0, s.downstream = .recorded ∧
    ((∃ c run, s.owner = .chain c ∧ c.run = some run ∧ run.lane.inFlight = true ∧ s.fates = []) ∨
      ∃ run, s.owner = .gone ∧ s.fates = [.leaked run] ∧ run.lane.inFlight = true) := by
  have hlane : Lane.Reachable ⟨true, false⟩ replay.lane.toServingLane :=
    .step (a := (.runEnqueued, Native.success))
      (.step (a := (.setGpuGraphId 1, Native.success)) (.initial ⟨some 0, by simp, rfl⟩) rfl) rfl
  have h0 : Reachable ⟨true, false⟩ ⟨.run replay, .none, []⟩ := .initial ⟨replay, hlane, rfl⟩
  have h1 := h0.step (a := Action.chainOnStream true (.returns (.error (.local "kernel")))
    Gpu.success) rfl
  exact ⟨_, rfl, (chained_lane_released h1).1 nofun⟩

end Zrt.Dynamic.GpuChain
