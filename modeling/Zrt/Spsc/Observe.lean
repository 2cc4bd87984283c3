import Zrt.Spsc.Progress

/-! `len`, `is_empty` and `is_closed` of the two halves: several loads, yet one moment each. -/
namespace Zrt.Spsc

variable {w k capacity : Nat} {T : Type*} {s t u : State w T} {q q' : Inner w T}

inductive Observation where
  | len
  | isEmpty
  | isClosed
  deriving DecidableEq

inductive Observed (w : Nat) where
  | len (n : BitVec w)
  | flag (b : Bool)
  deriving DecidableEq

/-- Where an observing call stands. `Inner::len` loads the tail before the head. -/
inductive ObservePc (w : Nat) where
  | idle
  | loadTail (o : Observation)
  | loadHead (o : Observation) (tail : BitVec w)
  | loadSenderClosed
  | loadReceiverClosed

def Observation.sendEntry : Observation → ObservePc w
  | .isClosed => .loadSenderClosed
  | o => .loadTail o

def Observation.recvEntry : Observation → ObservePc w
  | .isClosed => .loadReceiverClosed
  | o => .loadTail o

/-- What a call makes of `tail.wrapping_sub(head)`. -/
def Observation.result (o : Observation) (n : BitVec w) : Observed w :=
  match o with
  | .len => .len n
  | .isEmpty | .isClosed => .flag (n = 0)

/-- One load of an observing call on the sender. -/
def sendLook (q : Inner w T) : ObservePc w → Option (ObservePc w × Option (Observed w))
  | .idle => none
  | .loadTail o => some (.loadHead o q.tail, none)
  | .loadHead o tail => some (.idle, some (o.result (tail - q.head)))
  | .loadSenderClosed =>
    if q.senderClosed then some (.idle, some (.flag true)) else some (.loadReceiverClosed, none)
  | .loadReceiverClosed => some (.idle, some (.flag q.receiverClosed))

/-- On the receiver `is_closed` reads the sender's flag before it looks for values. -/
def recvLook (q : Inner w T) : ObservePc w → Option (ObservePc w × Option (Observed w))
  | .idle => none
  | .loadTail o => some (.loadHead o q.tail, none)
  | .loadHead o tail => some (.idle, some (o.result (tail - q.head)))
  | .loadReceiverClosed =>
    if q.receiverClosed then some (.idle, some (.flag true)) else some (.loadSenderClosed, none)
  | .loadSenderClosed =>
    if q.senderClosed then some (.loadTail .isClosed, none) else some (.idle, some (.flag false))

/-- The queue, with what its two halves observe between their other calls. -/
structure Watched (w : Nat) (T : Type*) where
  base : State w T
  sender : ObservePc w
  receiver : ObservePc w

inductive WatchedLabel (w : Nat) (T : Type*) where
  | run (l : Label T)
  | sendObserve (o : Observation)
  | sendLook (r : Option (Observed w))
  | recvObserve (o : Observation)
  | recvLook (r : Option (Observed w))

/-- Each half is owned by one thread, whose calls follow one another. -/
inductive WatchedStep : Watched w T → WatchedLabel w T → Watched w T → Prop where
  | run {s : Watched w T} {l : Label T} {t : State w T} (hs : Step s.base l t)
      (hsend : ∀ c, l = .sendCall c → s.sender = .idle)
      (hrecv : ∀ c, l = .recvCall c → s.receiver = .idle) :
      WatchedStep s (.run l) { s with base := t }
  | sendObserve {s : Watched w T} (o : Observation) (hb : s.base.sender = .idle)
      (hidle : s.sender = .idle) : WatchedStep s (.sendObserve o) { s with sender := o.sendEntry }
  | sendLook {s : Watched w T} {pc : ObservePc w} {r : Option (Observed w)}
      (hl : Spsc.sendLook s.base.inner s.sender = some (pc, r)) :
      WatchedStep s (.sendLook r) { s with sender := pc }
  | recvObserve {s : Watched w T} (o : Observation) (hb : s.base.receiver = .idle)
      (hidle : s.receiver = .idle) : WatchedStep s (.recvObserve o)
      { s with receiver := o.recvEntry }
  | recvLook {s : Watched w T} {pc : ObservePc w} {r : Option (Observed w)}
      (hl : Spsc.recvLook s.base.inner s.receiver = some (pc, r)) :
      WatchedStep s (.recvLook r) { s with receiver := pc }

def watchedLts (w : Nat) (T : Type*) (capacity : Nat) :
    Lts.System (Watched w T) (WatchedLabel w T) where
  Initial s := (spscLts w T capacity).Initial s.base ∧ s.sender = .idle ∧ s.receiver = .idle
  Tr := WatchedStep

/-- The answer for one state of the queue; the two halves mean different things by `is_closed`. -/
def Observation.sendAnswer (w : Nat) (o : Observation) (q : Queue T) : Observed w :=
  match o with
  | .len => .len (BitVec.ofNat w q.values.length)
  | .isEmpty => .flag q.values.isEmpty
  | .isClosed => .flag (q.senderClosed || q.receiverClosed)

def Observation.recvAnswer (w : Nat) (o : Observation) (q : Queue T) : Observed w :=
  match o with
  | .len => .len (BitVec.ofNat w q.values.length)
  | .isEmpty => .flag q.values.isEmpty
  | .isClosed => .flag (q.receiverClosed || (q.senderClosed && q.values.isEmpty))

theorem sendStep_keeps {pc pc' : SendPc w T} {r : Option (SendReturn T)}
    (hs : sendStep q pc = some (q', pc', r)) :
    q'.head = q.head ∧ q'.receiverClosed = q.receiverClosed := by
  cases pc <;> simp only [sendStep] at hs <;> (repeat' split at hs) <;>
    simp only [Option.some.injEq, Prod.mk.injEq, reduceCtorEq] at hs <;>
    obtain ⟨rfl, -, -⟩ := hs <;> exact ⟨rfl, rfl⟩

theorem recvStep_keeps {pc pc' : RecvPc w T} {r : Option (RecvReturn T)}
    (hs : recvStep q pc = some (q', pc', r)) :
    q'.tail = q.tail ∧ q'.senderClosed = q.senderClosed := by
  cases pc <;> simp only [recvStep] at hs <;> (repeat' split at hs) <;>
    simp only [Option.some.injEq, Prod.mk.injEq, reduceCtorEq] at hs <;>
    obtain ⟨rfl, -, -⟩ := hs <;> exact ⟨rfl, rfl⟩

/-- The counters tell the length. -/
theorem Invariant.counters (h : Invariant k s) :
    s.inner.tail - s.inner.head = BitVec.ofNat w s.queue.values.length := by
  rw [h.tail, h.head, Ring.counter_sub h.received_le]
  congr 1
  have hlen := h.queue_length
  omega

theorem Invariant.counters_zero (h : Invariant k s) :
    (s.inner.tail - s.inner.head = 0#w) ↔ s.queue.values.isEmpty := by
  have hpow := h.pow_lt
  have hb := h.bound
  have hlen := h.queue_length
  rw [h.counters, List.isEmpty_iff_length_eq_zero]
  have hiff := Ring.counter_eq_iff (w := w) (Nat.zero_le s.queue.values.length) (by omega)
  exact ⟨fun h0 => (hiff.mp h0.symm).symm, fun h0 => (hiff.mpr h0.symm).symm⟩

/-- Both loads at one moment give the answer of that moment. -/
theorem Invariant.result_eq (h : Invariant k s) (o : Observation) :
    o.result (s.inner.tail - s.inner.head) = match o with
      | .len => .len (BitVec.ofNat w s.queue.values.length)
      | .isEmpty | .isClosed => .flag s.queue.values.isEmpty := by
  have hzero : decide (s.inner.tail - s.inner.head = 0#w) = s.queue.values.isEmpty := by
    rw [Bool.eq_iff_iff, decide_eq_true_iff]
    exact h.counters_zero
  cases o with
  | len => exact congrArg Observed.len h.counters
  | isEmpty | isClosed => exact congrArg Observed.flag hzero

/-- An observing half is not in another call. -/
structure Watching (capacity : Nat) (s : Watched w T) : Prop where
  base : Reachable w T capacity s.base
  sender : s.sender ≠ .idle → s.base.sender = .idle
  receiver : s.receiver ≠ .idle → s.base.receiver = .idle

variable {a b c d : Watched w T} {l : WatchedLabel w T} {xs : List (WatchedLabel w T)}
  {o : Observation}
  {r : Observed w}

theorem quiet_run {l : Label T} (h : Step s l t) :
    (s.sender = .idle → (∀ c, l ≠ .sendCall c) →
      t.sender = .idle ∧ t.inner.tail = s.inner.tail ∧
        t.inner.senderClosed = s.inner.senderClosed) ∧
    (s.receiver = .idle → (∀ c, l ≠ .recvCall c) →
      t.receiver = .idle ∧ t.inner.head = s.inner.head ∧
        t.inner.receiverClosed = s.inner.receiverClosed) := by
  cases h with
  | sendCall call hpc => exact ⟨fun _ hl => absurd rfl (hl call), fun hr _ => ⟨hr, rfl, rfl⟩⟩
  | recvCall call hpc => exact ⟨fun hs _ => ⟨hs, rfl, rfl⟩, fun _ hl => absurd rfl (hl call)⟩
  | sendStep hs =>
    refine ⟨fun hidle _ => ?_, fun hr _ => ⟨hr, sendStep_keeps hs⟩⟩
    rw [hidle] at hs
    cases hs
  | recvStep hs =>
    refine ⟨fun hsend _ => ⟨hsend, recvStep_keeps hs⟩, fun hidle _ => ?_⟩
    rw [hidle] at hs
    cases hs

theorem watching_step (h : Watching capacity a) (hs : WatchedStep a l b) : Watching capacity b := by
  cases hs with
  | @run l t hs hsend hrecv =>
    refine ⟨h.base.step hs, fun hne => ?_, fun hne => ?_⟩
    · exact ((quiet_run hs).1 (h.sender hne) fun c hc => hne (hsend c hc)).1
    · exact ((quiet_run hs).2 (h.receiver hne) fun c hc => hne (hrecv c hc)).1
  | sendObserve o hb hidle => exact ⟨h.base, fun _ => hb, h.receiver⟩
  | recvObserve o hb hidle => exact ⟨h.base, h.sender, fun _ => hb⟩
  | sendLook hl =>
    refine ⟨h.base, fun _ => h.sender fun hidle => ?_, h.receiver⟩
    rw [hidle] at hl
    cases hl
  | recvLook hl =>
    refine ⟨h.base, h.sender, fun _ => h.receiver fun hidle => ?_⟩
    rw [hidle] at hl
    cases hl

theorem watching_reachable (h : Lts.Reachable (watchedLts w T capacity) a) :
    Watching capacity a := by
  refine Lts.invariant_reachable ?_ (fun _ _ _ hw hs => watching_step hw hs) h
  rintro s ⟨hbase, hsend, hrecv⟩
  exact ⟨.initial hbase, fun hne => absurd hsend hne, fun hne => absurd hrecv hne⟩

/-- What the sender has loaded stays so, since it alone stores it. -/
def SendLoaded (s : Watched w T) : Prop :=
  match s.sender with
  | .loadHead o tail => tail = s.base.inner.tail ∧ o ≠ .isClosed
  | .loadTail o => o ≠ .isClosed
  | .loadReceiverClosed => s.base.inner.senderClosed = false
  | _ => True

theorem sendLoaded_step (hw : Watching capacity a) (h : SendLoaded a) (hs : WatchedStep a l b) :
    SendLoaded b := by
  cases hs with
  | @run l t hs hsend hrecv =>
    have hquiet (hne : a.sender ≠ .idle) :=
      (quiet_run hs).1 (hw.sender hne) fun c hc => hne (hsend c hc)
    unfold SendLoaded at h ⊢
    cases hp : a.sender with
    | loadHead o tail =>
      rw [hp] at h
      exact ⟨h.1.trans (hquiet (by simp [hp])).2.1.symm, h.2⟩
    | loadReceiverClosed =>
      rw [hp] at h
      exact (hquiet (by simp [hp])).2.2.trans h
    | idle | loadSenderClosed => trivial
    | loadTail o => simpa only [hp] using h
  | sendObserve o hb hidle => cases o <;> simp [SendLoaded, Observation.sendEntry]
  | recvObserve | recvLook => exact h
  | sendLook hl =>
    unfold SendLoaded at h ⊢
    cases hp : a.sender with
    | idle => simp [sendLook, hp] at hl
    | loadTail o =>
      simp only [sendLook, hp, Option.some.injEq, Prod.mk.injEq] at h hl
      obtain ⟨rfl, -⟩ := hl
      exact ⟨rfl, h⟩
    | loadSenderClosed =>
      simp only [sendLook, hp] at hl
      split at hl <;> (simp only [Option.some.injEq, Prod.mk.injEq] at hl; obtain ⟨rfl, -⟩ := hl)
      · trivial
      · exact Bool.eq_false_iff.mpr ‹_›
    | loadHead | loadReceiverClosed =>
      simp only [sendLook, hp, Option.some.injEq, Prod.mk.injEq] at hl
      obtain ⟨rfl, -⟩ := hl
      trivial

theorem sendLoaded_reachable (h : Lts.Reachable (watchedLts w T capacity) a) : SendLoaded a := by
  refine Lts.invariant_of_reachable ?_ ?_ h
  · rintro s ⟨-, hsend, -⟩
    rw [SendLoaded, hsend]
    trivial
  · exact fun _ _ _ hr hl hs => sendLoaded_step (watching_reachable hr) hl hs

/-- The call an observing half is in. -/
def ObservePc.observing : ObservePc w → Option Observation
  | .idle => none
  | .loadTail o | .loadHead o _ => some o
  | .loadSenderClosed | .loadReceiverClosed => some .isClosed

theorem ObservePc.ne_idle {pc : ObservePc w} (h : pc.observing = some o) : pc ≠ .idle := by
  rintro rfl
  cases h

def WatchedLabel.EndsSend (l : WatchedLabel w T) : Prop := ∃ r, l = .sendLook (some r)

def WatchedLabel.EndsRecv (l : WatchedLabel w T) : Prop := ∃ r, l = .recvLook (some r)

theorem sendLook_observing {pc pc' : ObservePc w} (h : sendLook q pc = some (pc', none)) :
    pc'.observing = pc.observing := by
  cases pc with
  | loadSenderClosed =>
    simp only [sendLook] at h
    split at h <;> simp only [Option.some.injEq, Prod.mk.injEq, reduceCtorEq, and_false] at h
    obtain ⟨rfl, -⟩ := h
    rfl
  | loadTail o =>
    simp only [sendLook, Option.some.injEq, Prod.mk.injEq] at h
    obtain ⟨rfl, -⟩ := h
    rfl
  | _ => simp [sendLook] at h

theorem recvLook_observing {pc pc' : ObservePc w} (h : recvLook q pc = some (pc', none)) :
    pc'.observing = pc.observing := by
  cases pc with
  | loadSenderClosed | loadReceiverClosed =>
    simp only [recvLook] at h
    split at h <;> simp only [Option.some.injEq, Prod.mk.injEq, reduceCtorEq, and_false] at h
    obtain ⟨rfl, -⟩ := h
    rfl
  | loadTail o =>
    simp only [recvLook, Option.some.injEq, Prod.mk.injEq] at h
    obtain ⟨rfl, -⟩ := h
    rfl
  | _ => simp [recvLook] at h

theorem send_observing_trace (hs : WatchedStep a (.sendObserve o) b)
    (h : Lts.Trace (watchedLts w T capacity) b xs c) (hx : ∀ l ∈ xs, ¬ l.EndsSend) :
    c.sender.observing = some o := by
  induction h with
  | refl =>
    cases hs
    cases o <;> rfl
  | @snoc b c xs l _ hstep ih =>
    have ho := ih fun l hl => hx l (List.mem_append_left _ hl)
    have hends := hx l (List.mem_append_right _ (List.mem_singleton_self l))
    cases hstep with
    | run | recvObserve | recvLook => exact ho
    | sendObserve o' hb hidle => exact absurd hidle (ObservePc.ne_idle ho)
    | @sendLook pc r hl =>
      cases r with
      | some r => exact absurd ⟨r, rfl⟩ hends
      | none => exact (sendLook_observing hl).trans ho

/-- What the receiver has loaded was so at a moment since its call. -/
def RecvLoaded (seen : (Queue T → Prop) → Prop) (s : Watched w T) : Prop :=
  match s.receiver with
  | .loadHead o tail => seen fun q => o.result (tail - s.base.inner.head) = o.recvAnswer w q
  | .loadTail o => o = .isClosed →
    s.base.inner.senderClosed = true ∧ s.base.inner.receiverClosed = false
  | .loadSenderClosed => s.base.inner.receiverClosed = false
  | _ => True

/-- The moments of a history, by the queue at each. -/
def WatchedSeen (capacity : Nat) (b : Watched w T) (xs : List (WatchedLabel w T)) (c : Watched w T)
    (P : Queue T → Prop) : Prop :=
  Lts.Passes (watchedLts w T capacity) (fun s => P s.base.queue) b xs c

theorem recvLoaded_run {l : Label T} {seen : (Queue T → Prop) → Prop} (hw : Watching capacity a)
    (h : RecvLoaded seen a) (hs : Step a.base l t) (hrecv : ∀ c, l = .recvCall c →
      a.receiver = .idle) :
    RecvLoaded seen { a with base := t } := by
  have hquiet (hne : a.receiver ≠ .idle) :=
    (quiet_run hs).2 (hw.receiver hne) fun c hc => hne (hrecv c hc)
  unfold RecvLoaded at h ⊢
  cases hp : a.receiver with
  | loadHead o tail =>
    rw [hp] at h
    simpa only [(hquiet (by simp [hp])).2.1] using h
  | loadTail o =>
    rw [hp] at h
    intro ho
    obtain ⟨hc, hr⟩ := h ho
    exact ⟨senderClosed_step hs hc, (hquiet (by simp [hp])).2.2.trans hr⟩
  | loadSenderClosed =>
    rw [hp] at h
    exact (hquiet (by simp [hp])).2.2.trans h
  | _ => trivial

theorem RecvLoaded.mono {seen seen' : (Queue T → Prop) → Prop} (h : RecvLoaded seen a)
    (hseen : ∀ P, seen P → seen' P) : RecvLoaded seen' a := by
  unfold RecvLoaded at h ⊢
  cases hp : a.receiver with
  | loadHead o tail =>
    rw [hp] at h
    exact hseen _ h
  | idle | loadReceiverClosed => trivial
  | loadTail | loadSenderClosed => simpa only [hp] using h

theorem recvLoaded_look {pc : ObservePc w} {seen : (Queue T → Prop) → Prop}
    (hi : Invariant k a.base)
    (h : RecvLoaded seen a) (hl : recvLook a.base.inner a.receiver = some (pc, none))
    (hhere : ∀ P : Queue T → Prop, P a.base.queue → seen P) :
    RecvLoaded seen { a with receiver := pc } := by
  unfold RecvLoaded at h ⊢
  cases hp : a.receiver with
  | loadTail o =>
    simp only [recvLook, hp, Option.some.injEq, Prod.mk.injEq] at hl
    obtain ⟨rfl, -⟩ := hl
    rw [hp] at h
    refine hhere _ ((hi.result_eq o).trans ?_)
    cases o with
    | isClosed =>
      obtain ⟨hs, hr⟩ := h rfl
      simp [Observation.recvAnswer, State.queue, hs, hr]
    | _ => rfl
  | loadReceiverClosed =>
    simp only [recvLook, hp] at hl
    split at hl <;> simp only [Option.some.injEq, Prod.mk.injEq, reduceCtorEq, and_false] at hl
    obtain ⟨rfl, -⟩ := hl
    exact Bool.eq_false_iff.mpr ‹_›
  | loadSenderClosed =>
    rw [hp] at h
    simp only [recvLook, hp] at hl
    split at hl <;> simp only [Option.some.injEq, Prod.mk.injEq, reduceCtorEq, and_false] at hl
    obtain ⟨rfl, -⟩ := hl
    exact fun _ => ⟨‹_›, h⟩
  | _ => simp [recvLook, hp] at hl

theorem recv_answer {pc : ObservePc w} {seen : (Queue T → Prop) → Prop} (h : RecvLoaded seen a)
    (ho : a.receiver.observing = some o) (hl : recvLook a.base.inner a.receiver = some (pc, some r))
    (hhere : ∀ P : Queue T → Prop, P a.base.queue → seen P) :
    seen fun q => r = o.recvAnswer w q := by
  unfold RecvLoaded at h
  cases hp : a.receiver with
  | loadHead o' tail =>
    simp only [recvLook, hp, Option.some.injEq, Prod.mk.injEq] at hl
    obtain ⟨-, rfl⟩ := hl
    rw [hp] at h ho
    obtain rfl := Option.some.inj ho
    exact h
  | loadReceiverClosed =>
    rw [hp] at ho
    obtain rfl := Option.some.inj ho
    simp only [recvLook, hp] at hl
    split at hl <;> simp only [Option.some.injEq, Prod.mk.injEq, reduceCtorEq, and_false] at hl
    rename_i hc
    obtain ⟨-, rfl⟩ := hl
    exact hhere _ (by simp [Observation.recvAnswer, State.queue, hc])
  | loadSenderClosed =>
    rw [hp] at ho h
    obtain rfl := Option.some.inj ho
    simp only [recvLook, hp] at hl
    split at hl <;> simp only [Option.some.injEq, Prod.mk.injEq, reduceCtorEq, and_false] at hl
    rename_i hc
    obtain ⟨-, rfl⟩ := hl
    have hr : a.base.inner.receiverClosed = false := h
    exact hhere _ (by simp [Observation.recvAnswer, State.queue, hc, hr])
  | _ => simp [recvLook, hp] at hl

/-- On the sender the last load decides. -/
theorem send_answer {pc : ObservePc w} (hi : Invariant k a.base) (h : SendLoaded a)
    (ho : a.sender.observing = some o) (hl : sendLook a.base.inner a.sender = some (pc, some r)) :
    r = o.sendAnswer w a.base.queue := by
  unfold SendLoaded at h
  cases hp : a.sender with
  | loadHead o' tail =>
    simp only [sendLook, hp, Option.some.injEq, Prod.mk.injEq] at hl
    obtain ⟨-, rfl⟩ := hl
    rw [hp] at h ho
    obtain rfl := Option.some.inj ho
    obtain ⟨rfl, hne⟩ := h
    refine (hi.result_eq o').trans ?_
    cases o' with
    | isClosed => exact absurd rfl hne
    | _ => rfl
  | loadSenderClosed =>
    rw [hp] at ho
    obtain rfl := Option.some.inj ho
    simp only [sendLook, hp] at hl
    split at hl <;> simp only [Option.some.injEq, Prod.mk.injEq, reduceCtorEq, and_false] at hl
    rename_i hc
    obtain ⟨-, rfl⟩ := hl
    simp [Observation.sendAnswer, State.queue, hc]
  | loadReceiverClosed =>
    rw [hp] at ho h
    obtain rfl := Option.some.inj ho
    simp only [sendLook, hp, Option.some.injEq, Prod.mk.injEq] at hl
    obtain ⟨-, rfl⟩ := hl
    have hs : a.base.inner.senderClosed = false := h
    simp [Observation.sendAnswer, State.queue, hs]
  | _ => simp [sendLook, hp] at hl

theorem recv_loaded_trace (hr : Lts.Reachable (watchedLts w T capacity) a)
    (hs : WatchedStep a (.recvObserve o) b) (h : Lts.Trace (watchedLts w T capacity) b xs c)
    (hx : ∀ l ∈ xs, ¬ l.EndsRecv) :
    c.receiver.observing = some o ∧ RecvLoaded (WatchedSeen capacity b xs c) c := by
  induction h with
  | refl =>
    cases hs
    cases o <;> exact ⟨rfl, by simp [RecvLoaded, Observation.recvEntry]⟩
  | @snoc b' c xs l htrace hstep ih =>
    obtain ⟨ho, hl⟩ := ih fun l hl => hx l (List.mem_append_left _ hl)
    have hends := hx l (List.mem_append_right _ (List.mem_singleton_self l))
    have hwatch := watching_reachable (Lts.trace_reachable (hr.step hs) htrace)
    obtain ⟨k, hi⟩ := invariant_reachable hwatch.base
    have hlater (P : Queue T → Prop) (hp : WatchedSeen capacity b xs b' P) :
        WatchedSeen capacity b (xs ++ [l]) c P := hp.snoc hstep
    cases hstep with
    | run hrun hsend hrecv => exact ⟨ho, (recvLoaded_run hwatch hl hrun hrecv).mono hlater⟩
    | sendObserve o' hb hidle => exact ⟨ho, hl.mono hlater⟩
    | sendLook hlook => exact ⟨ho, hl.mono hlater⟩
    | recvObserve o' hb hidle => exact absurd hidle (ObservePc.ne_idle ho)
    | @recvLook pc r hlook =>
      cases r with
      | some r => exact absurd ⟨r, rfl⟩ hends
      | none =>
        refine ⟨(recvLook_observing hlook).trans ho, ?_⟩
        exact (recvLoaded_look hi hl hlook fun P hp => .here htrace hp).mono hlater

/-- A sender that has closed publishes nothing, whatever it was about to do. -/
theorem drained_step {l : Label T} (h : Invariant k s) (hs : Step s l t)
    (hc : s.queue.senderClosed = true) (he : s.queue.values = []) : t.queue.values = [] := by
  cases hs with
  | sendCall | recvCall => exact he
  | recvStep hrecv =>
    obtain ⟨-, hlen, -⟩ := recv_queue h hrecv rfl
    rw [he] at hlen
    exact List.length_eq_zero_iff.mp (Nat.le_zero.mp hlen)
  | sendStep hsend =>
    have hopen : ¬ s.sender.Checked := by
      intro hck
      have hf := h.sender
      have hc' : s.inner.senderClosed = true := hc
      unfold SenderFacts at hf
      cases hp : s.sender <;> simp_all [SendPc.Checked]
    rcases send_tells h hsend rfl with ⟨-, hsame, -⟩ | ⟨ret, -, htells⟩
    · rw [hsame]
      exact he
    · have htells := htells (fun _ => s.sender.Checked) id
      match ret, htells with
      | .trySend (.ok _), htells | .send (.ok _), htells => exact absurd htells.2.2 hopen
      | .trySend (.error (.full _)), htells | .trySend (.error (.closed _)), htells
      | .send (.error _), htells =>
        rw [htells.1]
        exact he
      | .closed, htells =>
        rw [htells]
        exact he

theorem closed_answer {q : Queue T} : Observation.isClosed.recvAnswer w q = .flag true ↔
    q.receiverClosed = true ∨ q.senderClosed = true ∧ q.values = [] := by
  simp [Observation.recvAnswer]

theorem closed_watched (hw : Watching capacity a) (hs : WatchedStep a l b)
    (hc : Observation.isClosed.recvAnswer w a.base.queue = .flag true) :
    Observation.isClosed.recvAnswer w b.base.queue = .flag true := by
  cases hs with
  | sendObserve | sendLook | recvObserve | recvLook => exact hc
  | run hs hsend hrecv =>
    obtain ⟨k, hi⟩ := invariant_reachable hw.base
    refine closed_answer.mpr ((closed_answer.mp hc).imp (fun hr => ?_) fun ⟨hclosed, he⟩ => ?_)
    · cases hs with
      | sendCall | recvCall => exact hr
      | sendStep hstep => exact (sendStep_keeps hstep).2.trans hr
      | recvStep hstep => exact (recv_queue hi hstep rfl).2.2.2 hr
    · exact ⟨senderClosed_step hs hclosed, drained_step hi hs hclosed he⟩

/-- Although they load more than one word while the other half goes on, `len`, `is_empty` and
`is_closed` answer for one state of the queue: on the sender for that of the return, on the receiver
for one since the call. A receiver that was once closed and drained, or closed itself, stays so. -/
theorem observations_exact (h : Lts.Reachable (watchedLts w T capacity) a) :
    (∀ o b xs c r d, WatchedStep a (.sendObserve o) b → Lts.Trace (watchedLts w T capacity) b xs c →
      (∀ l ∈ xs, ¬ l.EndsSend) → WatchedStep c (.sendLook (some r)) d →
      r = o.sendAnswer w c.base.queue) ∧
    (∀ o b xs c r d, WatchedStep a (.recvObserve o) b → Lts.Trace (watchedLts w T capacity) b xs c →
      (∀ l ∈ xs, ¬ l.EndsRecv) → WatchedStep c (.recvLook (some r)) d →
      WatchedSeen capacity b xs c fun q => r = o.recvAnswer w q) ∧
    (Observation.isClosed.recvAnswer w a.base.queue = .flag true →
      ∀ xs b, Lts.Trace (watchedLts w T capacity) a xs b →
        Observation.isClosed.recvAnswer w b.base.queue = .flag true) := by
  refine ⟨?_, ?_, ?_⟩
  · intro o b xs c r d hcall htrace hx hreturn
    have hr := Lts.trace_reachable (h.step hcall) htrace
    obtain ⟨k, hi⟩ := invariant_reachable (watching_reachable hr).base
    cases hreturn with
    | sendLook hlook =>
      exact send_answer hi (sendLoaded_reachable hr) (send_observing_trace hcall htrace hx) hlook
  · intro o b xs c r d hcall htrace hx hreturn
    obtain ⟨ho, hl⟩ := recv_loaded_trace h hcall htrace hx
    cases hreturn with
    | recvLook hlook => exact recv_answer hl ho hlook fun P hp => .here htrace hp
  · intro hc xs b htrace
    induction htrace with
    | refl => exact hc
    | snoc ht hs ih => exact closed_watched (watching_reachable (Lts.trace_reachable h ht)) hs ih

/-- The receiver loads the tail of an empty queue, 7 is sent, and it says that the length is 0. -/
theorem observations_exact_stale : ∃ b c : Watched 64 Nat, ∃ xs, c.base.queue.values = [7] ∧
    WatchedSeen 1 b xs c fun q => Observed.len 0 = Observation.len.recvAnswer 64 q := by
  have hnew : Inner.new 64 Nat 1 = some ⟨[none], 0, 0, 0, false, false⟩ := by
    simp [Inner.new, checkedNextPowerOfTwo]
  have hr : Lts.Reachable (watchedLts 64 Nat 1)
      ⟨⟨⟨[none], 0, 0, 0, false, false⟩, .idle, .idle, [], []⟩, .idle, .idle⟩ :=
    .initial ⟨⟨_, hnew, rfl⟩, rfl, rfl⟩
  have hloaded : Lts.Trace (watchedLts 64 Nat 1)
      ⟨⟨⟨[none], 0, 0, 0, false, false⟩, .idle, .idle, [], []⟩, .idle, .loadTail .len⟩ _ _ :=
    .single (.recvLook rfl)
  have hrun {a b : Watched 64 Nat} {xs : List (WatchedLabel 64 Nat)} {l : Label Nat}
    {t : State 64 Nat}
      (h : Lts.Trace (watchedLts 64 Nat 1) a xs b) (hidle : b.sender = .idle)
      (hl : ∀ c, l ≠ .recvCall c)
      (hs : Step b.base l t) : Lts.Trace (watchedLts 64 Nat 1) a (xs ++ [.run l])
      { b with base := t } :=
    h.snoc (.run hs (fun _ _ => hidle) fun c hc => absurd hc (hl c))
  have hcalled := hrun hloaded rfl (by simp) (.sendCall (.trySend 7) rfl)
  have htail := hrun (hrun (hrun (hrun hcalled rfl (by simp) (.sendStep rfl)) rfl (by simp)
    (.sendStep rfl)) rfl (by simp) (.sendStep rfl)) rfl (by simp) (.sendStep rfl)
  have hsent := hrun (hrun htail rfl (by simp) (.sendStep rfl)) rfl (by simp) (.sendStep rfl)
  have hanswer :=
    (observations_exact hr).2.1 .len _ _ _ (.len 0) _ (.recvObserve .len rfl rfl) hsent
    (by simp [WatchedLabel.EndsRecv]) (.recvLook rfl)
  exact ⟨_, _, _, rfl, hanswer⟩

end Zrt.Spsc
