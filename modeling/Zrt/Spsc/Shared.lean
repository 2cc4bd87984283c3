import Mathlib.Data.List.Perm.Subperm
import Zrt.Solo
import Zrt.Spsc.Close
import Zrt.Spsc.Order

/-! The halves of the queue under several threads each: `&self` methods and `Sync` allow it. -/
namespace Zrt.Spsc

variable {w k capacity : Nat} {T : Type*} {ι κ : Type*}

/-- The queue with the threads `ι` calling its sender and `κ` its receiver. -/
structure Shared (w : Nat) (T : Type*) (ι κ : Type*) where
  inner : Inner w T
  senders : ι → SendPc w T
  receivers : κ → RecvPc w T
  sent : List T
  received : List T

inductive SharedLabel (T : Type*) (ι κ : Type*) where
  | sendCall (i : ι) (call : SendCall T)
  | sendStep (i : ι) (result : Option (SendReturn T))
  | recvCall (j : κ) (call : RecvCall)
  | recvStep (j : κ) (result : Option (RecvReturn T))

def SendPc.Dropping : SendPc w T → Prop
  | .storeSenderClosed dropping => dropping = true
  | .dropped => True
  | _ => False

def RecvPc.Dropping : RecvPc w T → Prop
  | .storeReceiverClosed dropping => dropping = true
  | .dropped => True
  | _ => False

/-- Any thread takes its next atomic step. A `drop` owns its half: no call overlaps or follows
it. -/
inductive SharedStep [DecidableEq ι] [DecidableEq κ] :
    Shared w T ι κ → SharedLabel T ι κ → Shared w T ι κ → Prop where
  | sendCall {s : Shared w T ι κ} (i : ι) (call : SendCall T) (hpc : s.senders i = .idle)
      (hlive : ∀ j, ¬ (s.senders j).Dropping) (hdrop : call = .drop → ∀ j, s.senders j = .idle) :
      SharedStep s (.sendCall i call)
        { s with senders := Function.update s.senders i call.entry }
  | sendStep {s : Shared w T ι κ} (i : ι) {q : Inner w T} {pc : SendPc w T}
      {r : Option (SendReturn T)} (hs : Spsc.sendStep s.inner (s.senders i) = some (q, pc, r)) :
      SharedStep s (.sendStep i r) { s with
        inner := q
        senders := Function.update s.senders i pc
        sent := s.sent ++ (s.senders i).holding }
  | recvCall {s : Shared w T ι κ} (j : κ) (call : RecvCall) (hpc : s.receivers j = .idle)
      (hlive : ∀ i, ¬ (s.receivers i).Dropping)
      (hdrop : call = .drop → ∀ i, s.receivers i = .idle) :
      SharedStep s (.recvCall j call)
        { s with receivers := Function.update s.receivers j call.entry }
  | recvStep {s : Shared w T ι κ} (j : κ) {q : Inner w T} {pc : RecvPc w T}
      {r : Option (RecvReturn T)} (hs : Spsc.recvStep s.inner (s.receivers j) = some (q, pc, r)) :
      SharedStep s (.recvStep j r) { s with
        inner := q
        receivers := Function.update s.receivers j pc
        received := s.received ++ (s.receivers j).holding }

def sharedLts (w : Nat) (T : Type*) (ι κ : Type*) [DecidableEq ι] [DecidableEq κ]
    (capacity : Nat) : Lts.System (Shared w T ι κ) (SharedLabel T ι κ) where
  Initial s := ∃ q, Inner.new w T capacity = some q ∧
    s = ⟨q, fun _ => .idle, fun _ => .idle, [], []⟩
  Tr := SharedStep

/-- No value is received twice, no unread slot is written, no empty slot is read. -/
structure SharedSafe (s : Shared w T ι κ) : Prop where
  once : s.received.Subperm s.sent
  writes : ∀ i b v tail, s.senders i = .writeSlot b v tail →
    s.inner.slots[s.inner.index tail]? = some none
  reads : ∀ j b head, s.receivers j = .readSlot b head →
    ∃ v, s.inner.slots[s.inner.index head]? = some (some v)

/-- What a sender does with the tail it has loaded; idle at any other time. -/
def SendPc.window : SendPc w T → SendPc w T
  | .loadHead _ value tail => .loadHead false value tail
  | .writeSlot _ value tail => .writeSlot false value tail
  | .storeTail _ value tail => .storeTail false value tail
  | _ => .idle

/-- What a receiver does with the head it has loaded, until it finds the queue empty. -/
def RecvPc.window : RecvPc w T → RecvPc w T
  | .loadTail _ head => .loadTail false head
  | .readSlot _ head => .readSlot false head
  | .storeHead _ head value => .storeHead false head value
  | _ => .idle

/-- A thread loads the counter of its half while another thread is about to advance it. -/
def Overlaps (s : Shared w T ι κ) : SharedLabel T ι κ → Prop
  | .sendStep i _ => (∃ b v, s.senders i = .loadTail b v) ∧
      ∃ j, j ≠ i ∧ (s.senders j).window ≠ .idle
  | .recvStep i _ => (∃ b, s.receivers i = .loadHead b) ∧
      ∃ j, j ≠ i ∧ (s.receivers j).window ≠ .idle
  | _ => False

/-- The queue as if it was never closed. -/
def Inner.opened (q : Inner w T) : Inner w T :=
  { q with senderClosed := false, receiverClosed := false }

variable {s t : Shared w T ι κ} {l : SharedLabel T ι κ} {a : State w T} {q : Inner w T}

/-- A queue with one thread on each half that does what the threads in their windows do. -/
structure Simulates (a : State w T) (s : Shared w T ι κ) : Prop where
  inner : a.inner = s.inner.opened
  sent : a.sent = s.sent
  received : a.received = s.received
  sender : Solo.Represents .idle (fun i => (s.senders i).window) a.sender
  receiver : Solo.Represents .idle (fun j => (s.receivers j).window) a.receiver

theorem send_holding_window (pc : SendPc w T) : pc.window.holding = pc.holding := by
  cases pc <;> rfl

theorem recv_holding_window (pc : RecvPc w T) : pc.window.holding = pc.holding := by
  cases pc <;> rfl

theorem holding_of_quiet {pc : SendPc w T} (h : pc.window = .idle) : pc.holding = [] := by
  rw [← send_holding_window, h]
  rfl

theorem recv_holding_of_quiet {pc : RecvPc w T} (h : pc.window = .idle) : pc.holding = [] := by
  rw [← recv_holding_window, h]
  rfl

/-- A sender's step is that of a lone sender inside the window, or opens the window by loading the
tail, or does not matter to a lone sender. -/
theorem sendStep_window {pc pc' : SendPc w T} {q' : Inner w T} {r : Option (SendReturn T)}
    (hs : sendStep q pc = some (q', pc', r)) :
    (pc.window ≠ .idle ∧ ∃ r', sendStep q.opened pc.window = some (q'.opened, pc'.window, r')) ∨
    (pc.window = .idle ∧ q'.opened = q.opened ∧ (pc'.window = .idle ∨
      ∃ b v, pc = .loadTail b v ∧ pc'.window = .loadHead false v q.tail)) := by
  cases pc with
  | idle | dropped => simp [sendStep] at hs
  | loadSenderClosed b v | loadReceiverClosed b v =>
    simp only [sendStep] at hs
    split at hs <;> simp only [Option.some.injEq, Prod.mk.injEq] at hs <;>
      obtain ⟨rfl, rfl, -⟩ := hs <;> exact .inr ⟨rfl, rfl, .inl rfl⟩
  | loadTail b v =>
    simp only [sendStep, Option.some.injEq, Prod.mk.injEq] at hs
    obtain ⟨rfl, rfl, -⟩ := hs
    exact .inr ⟨rfl, rfl, .inr ⟨b, v, rfl, rfl⟩⟩
  | storeSenderClosed d =>
    simp only [sendStep, Option.some.injEq, Prod.mk.injEq] at hs
    obtain ⟨rfl, rfl, -⟩ := hs
    refine .inr ⟨rfl, rfl, .inl ?_⟩
    cases d <;> rfl
  | loadHead b v tail =>
    have hcap : q.opened.capacity = q.capacity := rfl
    refine .inl ⟨by simp [SendPc.window], ?_⟩
    simp only [sendStep] at hs
    simp only [sendStep, SendPc.window, hcap]
    split at hs
    · rename_i hfull
      split at hs <;> simp only [Option.some.injEq, Prod.mk.injEq] at hs <;>
        obtain ⟨rfl, rfl, -⟩ := hs <;> exact ⟨_, if_pos hfull⟩
    · rename_i hfree
      simp only [Option.some.injEq, Prod.mk.injEq] at hs
      obtain ⟨rfl, rfl, -⟩ := hs
      exact ⟨_, if_neg hfree⟩
  | writeSlot b v tail | storeTail b v tail =>
    simp only [sendStep, Option.some.injEq, Prod.mk.injEq] at hs
    obtain ⟨rfl, rfl, -⟩ := hs
    exact .inl ⟨by simp [SendPc.window], _, rfl⟩

/-- So is a receiver's. A lone receiver that finds the queue empty still looks for a closed flag. -/
theorem recvStep_window {pc pc' : RecvPc w T} {q' : Inner w T} {r : Option (RecvReturn T)}
    (hs : recvStep q pc = some (q', pc', r)) :
    (pc.window ≠ .idle ∧ ((∃ r', recvStep q.opened pc.window = some (q'.opened, pc'.window, r')) ∨
      (q'.opened = q.opened ∧ pc'.window = .idle ∧ pc.holding = [] ∧ ∃ head r',
        recvStep q.opened pc.window = some (q.opened, .loadSenderClosed false head, r')))) ∨
    (pc.window = .idle ∧ q'.opened = q.opened ∧ (pc'.window = .idle ∨
      ∃ b, pc = .loadHead b ∧ pc'.window = .loadTail false q.head)) := by
  cases pc with
  | idle | dropped => simp [recvStep] at hs
  | loadHead b =>
    simp only [recvStep, Option.some.injEq, Prod.mk.injEq] at hs
    obtain ⟨rfl, rfl, -⟩ := hs
    exact .inr ⟨rfl, rfl, .inr ⟨b, rfl, rfl⟩⟩
  | loadSenderClosed b head =>
    simp only [recvStep] at hs
    (repeat' split at hs) <;> simp only [Option.some.injEq, Prod.mk.injEq] at hs <;>
      obtain ⟨rfl, rfl, -⟩ := hs <;> exact .inr ⟨rfl, rfl, .inl rfl⟩
  | storeReceiverClosed d =>
    simp only [recvStep, Option.some.injEq, Prod.mk.injEq] at hs
    obtain ⟨rfl, rfl, -⟩ := hs
    refine .inr ⟨rfl, rfl, .inl ?_⟩
    cases d <;> rfl
  | loadTail b head =>
    refine .inl ⟨by simp [RecvPc.window], ?_⟩
    simp only [recvStep] at hs
    simp only [recvStep, RecvPc.window]
    split at hs <;> simp only [Option.some.injEq, Prod.mk.injEq] at hs <;>
      obtain ⟨rfl, rfl, -⟩ := hs
    · rename_i hempty
      exact .inr ⟨rfl, rfl, rfl, head, _, if_pos hempty⟩
    · rename_i hready
      exact .inl ⟨_, if_neg hready⟩
  | readSlot b head =>
    refine .inl ⟨by simp [RecvPc.window], .inl ?_⟩
    have hindex : q.opened.index head = q.index head := rfl
    have hslots : q.opened.slots = q.slots := rfl
    simp only [recvStep] at hs
    simp only [recvStep, RecvPc.window, hindex, hslots]
    split at hs
    · rename_i v hv
      simp only [Option.some.injEq, Prod.mk.injEq] at hs
      obtain ⟨rfl, rfl, -⟩ := hs
      exact ⟨_, rfl⟩
    · cases hs
  | storeHead b head v =>
    simp only [recvStep, Option.some.injEq, Prod.mk.injEq] at hs
    obtain ⟨rfl, rfl, -⟩ := hs
    exact .inl ⟨by simp [RecvPc.window], .inl ⟨_, rfl⟩⟩

/-- A lone sender can make a call up to its load of the tail. -/
theorem reachable_loadHead {v : T} (ha : Reachable w T capacity a) (hidle : a.sender = .idle)
    (hopen : a.inner.opened = a.inner) :
    Reachable w T capacity { a with sender := .loadHead false v a.inner.tail } := by
  have hsender : a.inner.senderClosed = false := by rw [← hopen]; rfl
  have hreceiver : a.inner.receiverClosed = false := by rw [← hopen]; rfl
  refine schedule_reachable (m := [.sendCall (.trySend v), .send, .send, .send]) ha ?_
  simp [Lts.schedule, next, hidle, SendCall.entry, sendStep, hsender, hreceiver, SendPc.holding]

theorem reachable_loadTail (ha : Reachable w T capacity a) (hidle : a.receiver = .idle) :
    Reachable w T capacity { a with receiver := .loadTail false a.inner.head } := by
  refine schedule_reachable (m := [.recvCall .tryRecv, .recv]) ha ?_
  simp [Lts.schedule, next, hidle, RecvCall.entry, recvStep, RecvPc.holding]

theorem reachable_empty {head : BitVec w} {r : Option (RecvReturn T)}
    (ha : Reachable w T capacity a)
    (hr : recvStep a.inner a.receiver = some (a.inner, .loadSenderClosed false head, r))
    (hclosed : a.inner.senderClosed = false) (hh : a.receiver.holding = []) :
    Reachable w T capacity { a with receiver := .idle } := by
  refine schedule_reachable (m := [.recv, .recv]) ha ?_
  have hflag : recvStep a.inner (.loadSenderClosed false head) =
      some (a.inner, .idle, some (.tryRecv (.error .empty))) := by
    simp [recvStep, hclosed]
  have hnone : (RecvPc.loadSenderClosed false head : RecvPc w T).holding = [] := rfl
  simp only [Lts.schedule, next, hr, hflag, Option.map_some, Option.bind_some, hh, hnone,
    List.append_nil]

/-- The lone sender follows a sender's step. -/
theorem simulated_sendStep [DecidableEq ι] {i : ι} {q' : Inner w T} {pc : SendPc w T}
    {r : Option (SendReturn T)}
    (ha : Reachable w T capacity a) (hsim : Simulates a s)
    (hs : sendStep s.inner (s.senders i) = some (q', pc, r))
    (hno : ¬ Overlaps s (.sendStep i r)) :
    ∃ b, Reachable w T capacity b ∧ Simulates b { s with
      inner := q'
      senders := Function.update s.senders i pc
      sent := s.sent ++ (s.senders i).holding } := by
  have hmap : (fun j => (Function.update s.senders i pc j).window) =
      Function.update (fun j => (s.senders j).window) i pc.window :=
    Function.comp_update SendPc.window s.senders i pc
  rcases sendStep_window hs with ⟨hw, r', hlone⟩ | ⟨hw, hq, hidle | ⟨b, v, hpc, henter⟩⟩
  · obtain ⟨hsender, hothers⟩ := hsim.sender.active hw
    rw [← hsim.inner, ← hsender] at hlone
    refine ⟨_, .step ha (.sendStep hlone), rfl, ?_, hsim.received, ?_, hsim.receiver⟩
    · simp only [hsim.sent, hsender, send_holding_window]
    · simp only [hmap]
      exact Solo.represents_update hothers
  · refine ⟨a, ha, hsim.inner.trans hq.symm, ?_, hsim.received, ?_, hsim.receiver⟩
    · simp only [holding_of_quiet hw, List.append_nil, hsim.sent]
    · have hsame : Function.update (fun j => (s.senders j).window) i pc.window =
          fun j => (s.senders j).window := by
        rw [hidle, ← hw]
        exact Function.update_eq_self i _
      simp only [hmap, hsame]
      exact hsim.sender
  · -- the lone sender makes the whole call up to its load of the tail
    have hothers : ∀ j, j ≠ i → (s.senders j).window = .idle := by
      intro j hj
      by_contra hne
      exact hno ⟨⟨b, v, hpc⟩, j, hj, hne⟩
    have hquiet : a.sender = .idle := by
      refine hsim.sender.quiet ?_
      intro j
      by_cases hj : j = i
      · exact hj ▸ hw
      · exact hothers j hj
    have hload := reachable_loadHead (v := v) ha hquiet (by rw [hsim.inner]; rfl)
    refine ⟨_, hload, hsim.inner.trans hq.symm, ?_, hsim.received, ?_, hsim.receiver⟩
    · simp only [holding_of_quiet hw, List.append_nil, hsim.sent]
    · have htail : a.inner.tail = s.inner.tail := by rw [hsim.inner]; rfl
      simp only [hmap, henter, htail]
      exact Solo.represents_update hothers

/-- The lone receiver follows a receiver's step. -/
theorem simulated_recvStep [DecidableEq κ] {j : κ} {q' : Inner w T} {pc : RecvPc w T}
    {r : Option (RecvReturn T)}
    (ha : Reachable w T capacity a) (hsim : Simulates a s)
    (hs : recvStep s.inner (s.receivers j) = some (q', pc, r))
    (hno : ¬ Overlaps s (.recvStep j r)) :
    ∃ b, Reachable w T capacity b ∧ Simulates b { s with
      inner := q'
      receivers := Function.update s.receivers j pc
      received := s.received ++ (s.receivers j).holding } := by
  have hmap : (fun i => (Function.update s.receivers j pc i).window) =
      Function.update (fun i => (s.receivers i).window) j pc.window :=
    Function.comp_update RecvPc.window s.receivers j pc
  rcases recvStep_window hs with
    ⟨hw, ⟨r', hlone⟩ | ⟨hq, hidle, hh, head, r', hlone⟩⟩ | ⟨hw, hq, hidle | ⟨b, hpc, henter⟩⟩
  · obtain ⟨hreceiver, hothers⟩ := hsim.receiver.active hw
    rw [← hsim.inner, ← hreceiver] at hlone
    refine ⟨_, .step ha (.recvStep hlone), rfl, hsim.sent, ?_, hsim.sender, ?_⟩
    · simp only [hsim.received, hreceiver, recv_holding_window]
    · simp only [hmap]
      exact Solo.represents_update hothers
  · obtain ⟨hreceiver, hothers⟩ := hsim.receiver.active hw
    rw [← hsim.inner, ← hreceiver] at hlone
    have hempty := reachable_empty ha hlone (by rw [hsim.inner]; rfl)
      (by rw [hreceiver, recv_holding_window, hh])
    refine ⟨_, hempty, hsim.inner.trans hq.symm, hsim.sent, ?_, hsim.sender, ?_⟩
    · simp only [hh, List.append_nil, hsim.received]
    · simp only [hmap, hidle]
      exact Solo.represents_update hothers
  · refine ⟨a, ha, hsim.inner.trans hq.symm, hsim.sent, ?_, hsim.sender, ?_⟩
    · simp only [recv_holding_of_quiet hw, List.append_nil, hsim.received]
    · have hsame : Function.update (fun i => (s.receivers i).window) j pc.window =
          fun i => (s.receivers i).window := by
        rw [hidle, ← hw]
        exact Function.update_eq_self j _
      simp only [hmap, hsame]
      exact hsim.receiver
  · have hothers : ∀ i, i ≠ j → (s.receivers i).window = .idle := by
      intro i hi
      by_contra hne
      exact hno ⟨⟨b, hpc⟩, i, hi, hne⟩
    have hquiet : a.receiver = .idle := by
      refine hsim.receiver.quiet ?_
      intro i
      by_cases hi : i = j
      · exact hi ▸ hw
      · exact hothers i hi
    have hload := reachable_loadTail ha hquiet
    refine ⟨_, hload, hsim.inner.trans hq.symm, hsim.sent, ?_, hsim.sender, ?_⟩
    · simp only [recv_holding_of_quiet hw, List.append_nil, hsim.received]
    · have hhead : a.inner.head = s.inner.head := by rw [hsim.inner]; rfl
      simp only [hmap, henter, hhead]
      exact Solo.represents_update hothers

variable [DecidableEq ι] [DecidableEq κ]

theorem simulated_step (ha : Reachable w T capacity a) (hsim : Simulates a s)
    (hs : SharedStep s l t) (hno : ¬ Overlaps s l) :
    ∃ b, Reachable w T capacity b ∧ Simulates b t := by
  cases hs with
  | sendStep i hs => exact simulated_sendStep ha hsim hs hno
  | recvStep j hs => exact simulated_recvStep ha hsim hs hno
  | sendCall i call hpc hlive hdrop =>
    refine ⟨a, ha, hsim.inner, hsim.sent, hsim.received, ?_, hsim.receiver⟩
    have hsame : (fun j => (Function.update s.senders i call.entry j).window) =
        fun j => (s.senders j).window := by
      funext j
      by_cases hj : j = i
      · subst hj
        cases call <;> simp [hpc, SendCall.entry, SendPc.window]
      · simp [hj]
    simp only [hsame]
    exact hsim.sender
  | recvCall j call hpc hlive hdrop =>
    refine ⟨a, ha, hsim.inner, hsim.sent, hsim.received, hsim.sender, ?_⟩
    have hsame : (fun i => (Function.update s.receivers j call.entry i).window) =
        fun i => (s.receivers i).window := by
      funext i
      by_cases hi : i = j
      · subst hi
        cases call <;> simp [hpc, RecvCall.entry, RecvPc.window]
      · simp [hi]
    simp only [hsame]
    exact hsim.receiver

theorem simulated_reachable
    (h : Lts.Reachable ((sharedLts w T ι κ capacity).restrict (¬ Overlaps · ·)) s) :
    ∃ a, Reachable w T capacity a ∧ Simulates a s := by
  induction h with
  | initial h =>
    obtain ⟨q, hq, rfl⟩ := h
    obtain ⟨k, -, rfl⟩ := new_eq_some hq
    exact ⟨_, .initial ⟨_, hq, rfl⟩, rfl, rfl, rfl, Solo.represents_idle, Solo.represents_idle⟩
  | step _ h ih =>
    obtain ⟨a, ha, hsim⟩ := ih
    exact simulated_step ha hsim h.2 h.1

/-- As long as no thread loads the counter of its half while another one is about to advance it,
the threads of a half together are as good as one. -/
theorem shared_halves
    (h : Lts.Reachable ((sharedLts w T ι κ capacity).restrict (¬ Overlaps · ·)) s) :
    SharedSafe s := by
  obtain ⟨a, ha, hsim⟩ := simulated_reachable h
  obtain ⟨k, hi⟩ := invariant_reachable ha
  have hsafe := hi.safe
  refine ⟨?_, ?_, ?_⟩
  · rw [← hsim.sent, ← hsim.received]
    exact hsafe.fifo.sublist.subperm
  · intro i b v tail hp
    obtain ⟨hsender, -⟩ := hsim.sender.active (i := i) (by simp [hp, SendPc.window])
    have hwrite := hsafe.writes false v tail (by simp [hsender, hp, SendPc.window])
    rwa [hsim.inner] at hwrite
  · intro j b head hp
    obtain ⟨hreceiver, -⟩ := hsim.receiver.active (i := j) (by simp [hp, RecvPc.window])
    have hread := hsafe.reads false head (by simp [hreceiver, hp, RecvPc.window])
    rwa [hsim.inner] at hread

/-- One thread of two sends: nothing else is in a window. -/
theorem shared_halves_sent : ∃ s : Shared 64 Nat Bool Unit, SharedSafe s ∧ s.sent = [7] := by
  have hlone : ∀ {s t : Shared 64 Nat Bool Unit} {r : Option (SendReturn Nat)},
      (∀ j, j ≠ false → (s.senders j).window = .idle) → SharedStep s (.sendStep false r) t →
      ((sharedLts 64 Nat Bool Unit 1).restrict (¬ Overlaps · ·)).Tr s (.sendStep false r) t :=
    fun hothers hs => ⟨fun ⟨_, j, hj, hw⟩ => hw (hothers j hj), hs⟩
  have hcall : ∀ {s t : Shared 64 Nat Bool Unit} {i : Bool} {c : SendCall Nat},
      SharedStep s (.sendCall i c) t →
      ((sharedLts 64 Nat Bool Unit 1).restrict (¬ Overlaps · ·)).Tr s (.sendCall i c) t :=
    fun hs => ⟨fun h => h, hs⟩
  have h₀ : Lts.Reachable ((sharedLts 64 Nat Bool Unit 1).restrict (¬ Overlaps · ·))
      ⟨⟨[none], 0, 0, 0, false, false⟩, fun _ => .idle, fun _ => .idle, [], []⟩ :=
    .initial ⟨_, new_one, rfl⟩
  have h₁ := h₀.step (hcall
    (.sendCall false (.trySend 7) rfl (fun _ h => h) (fun h => by cases h)))
  have h₂ := h₁.step (hlone (by simp [SendPc.window]) (.sendStep false rfl))
  have h₃ := h₂.step (hlone (by simp [SendPc.window]) (.sendStep false rfl))
  have h₄ := h₃.step (hlone (by simp [SendPc.window]) (.sendStep false rfl))
  have h₅ := h₄.step (hlone (by simp [SendPc.window]) (.sendStep false rfl))
  have h₆ := h₅.step (hlone (by simp [SendPc.window]) (.sendStep false rfl))
  have h₇ := h₆.step (hlone (by simp [SendPc.window]) (.sendStep false rfl))
  exact ⟨_, shared_halves h₇, rfl⟩

/-- Two threads load the same tail; the first has sent 7 when the second is about to write 8 to
the same slot. -/
theorem shared_halves_fails : ¬ ∀ s : Shared 64 Nat Bool Unit,
    Lts.Reachable (sharedLts 64 Nat Bool Unit 1) s → SharedSafe s := by
  intro h
  have h₀ : Lts.Reachable (sharedLts 64 Nat Bool Unit 1)
      ⟨⟨[none], 0, 0, 0, false, false⟩, fun _ => .idle, fun _ => .idle, [], []⟩ :=
    .initial ⟨_, new_one, rfl⟩
  have h₁ := h₀.step (.sendCall false (.trySend 7) rfl (fun _ h => h) (fun h => by cases h))
  have h₂ := h₁.step (.sendStep false rfl)
  have h₃ := h₂.step (.sendStep false rfl)
  have h₄ := h₃.step (.sendStep false rfl)
  -- the first thread has loaded the tail
  have h₅ := h₄.step (.sendCall true (.trySend 8) rfl
    (fun j h => by cases j <;> exact h) (fun h => by cases h))
  have h₆ := h₅.step (.sendStep true rfl)
  have h₇ := h₆.step (.sendStep true rfl)
  have h₈ := h₇.step (.sendStep true rfl)
  -- so has the second, which also finds the slot free
  have h₉ := h₈.step (.sendStep true rfl)
  have h₁₀ := h₉.step (.sendStep false rfl)
  have h₁₁ := h₁₀.step (.sendStep false rfl)
  have h₁₂ := h₁₁.step (.sendStep false rfl)
  have hslot : some (some 7) = some (none : Option Nat) :=
    (h _ h₁₂).writes true false 8 0 rfl
  cases hslot

end Zrt.Spsc
