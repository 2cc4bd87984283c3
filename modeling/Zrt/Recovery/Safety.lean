import Zrt.Recovery.Specification

/-! Every recovered value is in one place, and the consumer takes it once. -/
namespace Zrt.Recovery

open Chain

variable {w capacity i j : Nat} {T : Type*} {s t : State T} {ready ready' : List Nat} {v : T}
  {r : Option (Return T)} {weakFail : Bool}

/-- How far the value last recovered into a slot has come. -/
inductive Phase (T : Type*) where
  | vacant
  | calling (v : T)
  | writing (v : T)
  | linking (v : T)
  | ready (v : T)
  | taking (v : T)
  | taken (v : T)

/-- The content of the slot's cell. -/
def Phase.cell : Phase T → RecoveryCell T
  | .vacant | .calling _ => .empty
  | .writing _ | .taken _ => ⟨none, true⟩
  | .linking v | .ready v | .taking v => ⟨some v, true⟩

/-- The value called for and not delivered. -/
def Phase.pending : Phase T → List T
  | .vacant => []
  | .calling v | .writing v | .linking v | .ready v | .taking v | .taken v => [v]

/-- The value published and not delivered. -/
def Phase.out : Phase T → List T
  | .ready v | .taking v | .taken v => [v]
  | _ => []

/-- Where the slot's caller stands; before its exchange the link holds the head it expects. -/
def Phase.Producer (next : List Nat) (i : Nat) : Phase T → ProducerPc T → Prop
  | .calling v, pc => pc = .publish v
  | .writing v, pc => pc = .write v
  | .linking _, pc => pc = .loadHead ∨ (∃ h, pc = .link h) ∨ ∃ h, pc = .cas h ∧ next[i]? = some h
  | _, pc => pc = .idle

/-- The slot popped and not yet handed over. -/
def ConsumerPc.slot : ConsumerPc T → Option Nat
  | .takeValue slot | .storeOccupied slot _ => some slot
  | _ => none

def Phase.Consumer (i : Nat) : Phase T → ConsumerPc T → Prop
  | .taking _, pc => pc = .takeValue i
  | .taken v, pc => pc = .storeOccupied i (some v)
  | _, pc => pc.slot ≠ some i

structure Located (ready : List Nat) (s : State T) (i : Nat) (ph : Phase T) : Prop where
  cell : s.slots[i]? = some ph.cell
  called : s.called i = s.delivered i ++ ph.pending
  published : s.published i = s.delivered i ++ ph.out
  producer : ph.Producer s.readyNext i (s.producer i)
  consumer : ph.Consumer i s.consumer
  ready : i ∈ ready ↔ ∃ v, ph = .ready v

/-- A step leaves everything about slot `i` but perhaps the consumer alone. -/
structure SameSlot (s t : State T) (i : Nat) : Prop where
  cell : t.slots[i]? = s.slots[i]?
  next : t.readyNext[i]? = s.readyNext[i]?
  producer : t.producer i = s.producer i
  called : t.called i = s.called i
  published : t.published i = s.published i
  delivered : t.delivered i = s.delivered i

theorem Phase.Consumer.frame {ph : Phase T} {pc pc' : ConsumerPc T} (h : ph.Consumer i pc)
    (hc : pc' = pc ∨ (pc.slot ≠ some i ∧ pc'.slot ≠ some i)) : ph.Consumer i pc' := by
  rcases hc with rfl | ⟨hs, ht⟩
  · exact h
  · cases ph with
    | taking v => exact absurd (by rw [show pc = _ from h]; rfl) hs
    | taken v => exact absurd (by rw [show pc = _ from h]; rfl) hs
    | _ => exact ht

theorem Phase.Producer.frame {ph : Phase T} {pc : ProducerPc T} {next next' : List Nat}
    (h : ph.Producer next i pc) (hn : next'[i]? = next[i]?) : ph.Producer next' i pc := by
  cases ph with
  | linking v => simpa only [Phase.Producer, hn] using h
  | _ => exact h

theorem Located.frame {ph : Phase T} (h : Located ready s i ph) (hs : SameSlot s t i)
    (hr : i ∈ ready' ↔ i ∈ ready)
    (hc : t.consumer = s.consumer ∨ (s.consumer.slot ≠ some i ∧ t.consumer.slot ≠ some i)) :
    Located ready' t i ph where
  cell := hs.cell.trans h.cell
  called := by rw [hs.called, hs.delivered, h.called]
  published := by rw [hs.published, hs.delivered, h.published]
  producer := by rw [hs.producer]; exact h.producer.frame hs.next
  consumer := h.consumer.frame hc
  ready := hr.trans h.ready

/-- What the consumer knows of the list while it pops. -/
def Popping (ready : List Nat) (s : State T) : Prop :=
  match s.consumer with
  | .loadNext head => head ∈ ready
  | .cas head next => head ∈ ready ∧ s.readyNext[head]? = some next
  | .takeValue slot | .storeOccupied slot _ => slot < s.slots.length
  | _ => True

structure Invariant (w : Nat) (ready : List Nat) (s : State T) : Prop where
  linked : Linked s.readyNext (usizeMax w) s.readyHead ready
  nodup : ready.Nodup
  links : s.readyNext.length = s.slots.length
  bound : s.slots.length ≤ usizeMax w
  slot : ∀ i, i < s.slots.length → ∃ ph, Located ready s i ph
  outside : ∀ i, s.slots.length ≤ i → s.producer i = .idle ∧ s.called i = [] ∧
    s.published i = [] ∧ s.delivered i = []
  popping : Popping ready s

theorem invariant_initial (h : (recoveryLts w T capacity).Initial s) : Invariant w [] s := by
  obtain ⟨q, hq, rfl⟩ := h
  simp only [RecoverySlots.new] at hq
  split at hq
  · rename_i hc
    obtain rfl := Option.some.inj hq
    have hpow : 2 ^ (w - 1) ≤ 2 ^ w := Nat.pow_le_pow_right (by omega) (by omega)
    refine ⟨rfl, List.nodup_nil, by simp, by simp [usizeMax]; omega, ?_, by simp, trivial⟩
    intro i hi
    simp only [List.length_replicate] at hi
    exact ⟨.vacant, by simp [Phase.cell, hi], rfl, rfl, rfl, by
      simp [Phase.Consumer, ConsumerPc.slot],
      by simp⟩
  · cases hq

theorem Invariant.mem_lt (h : Invariant w ready s) (hi : i ∈ ready) : i < s.slots.length :=
  h.links ▸ (linked_mem h.linked hi).2

/-- A slot named by its caller's position, or the consumer's, is a slot of the table. -/
theorem Invariant.lt_of_busy (h : Invariant w ready s) (hi : s.producer i ≠ .idle) :
    i < s.slots.length := by
  by_contra hle
  exact hi (h.outside i (Nat.le_of_not_lt hle)).1

/-- One slot moves on; the list, the links and the other slots follow. -/
theorem Invariant.move {p : Phase T} (h : Invariant w ready s) (hi : i < s.slots.length)
    (hlen : t.slots.length = s.slots.length) (hnlen : t.readyNext.length = s.readyNext.length)
    (hl : Linked t.readyNext (usizeMax w) t.readyHead ready') (hn : ready'.Nodup)
    (hloc : Located ready' t i p) (hs : ∀ j, j ≠ i → SameSlot s t j)
    (hr : ∀ j, j ≠ i → (j ∈ ready' ↔ j ∈ ready))
    (hc : ∀ j, j ≠ i →
      t.consumer = s.consumer ∨ (s.consumer.slot ≠ some j ∧ t.consumer.slot ≠ some j))
    (hp : Popping ready' t) : Invariant w ready' t where
  linked := hl
  nodup := hn
  links := by rw [hnlen, hlen, h.links]
  bound := by rw [hlen]; exact h.bound
  slot j hj := by
    by_cases hji : j = i
    · subst hji
      exact ⟨p, hloc⟩
    · obtain ⟨ph', hph'⟩ := h.slot j (hlen ▸ hj)
      exact ⟨ph', hph'.frame (hs j hji) (hr j hji) (hc j hji)⟩
  outside j hj := by
    rw [hlen] at hj
    have hji : j ≠ i := by omega
    obtain ⟨h1, h2, h3, h4⟩ := h.outside j hj
    have hsame := hs j hji
    exact ⟨hsame.producer.trans h1, hsame.called.trans h2, hsame.published.trans h3,
      hsame.delivered.trans h4⟩
  popping := hp

theorem Located.not_mem {ph : Phase T} (h : Located ready s i ph) (hp : s.producer i ≠ .idle) :
    i ∉ ready := by
  intro hi
  obtain ⟨v, rfl⟩ := h.ready.mp hi
  exact hp h.producer

/-- A caller's step changes nothing for the other slots, and nothing for the consumer. -/
theorem Invariant.producer {p : Phase T} (h : Invariant w ready s) (hb : s.producer i ≠ .idle)
    (hlen : t.slots.length = s.slots.length) (hnlen : t.readyNext.length = s.readyNext.length)
    (hl : Linked t.readyNext (usizeMax w) t.readyHead ready)
    (hs : ∀ j, j ≠ i → SameSlot s t j) (hc : t.consumer = s.consumer)
    (hloc : Located ready t i p) : Invariant w ready t := by
  obtain ⟨ph', hph'⟩ := h.slot i (h.lt_of_busy hb)
  refine h.move (h.lt_of_busy hb) hlen hnlen hl h.nodup hloc hs (fun _ _ => .rfl)
    (fun _ _ => .inl hc) ?_
  have hp := h.popping
  cases hcs : s.consumer with
  | cas head next =>
    -- the link the consumer has read is of a node in the list, not of a slot being linked
    simp only [Popping, hc, hcs] at hp ⊢
    have hne : head ≠ i := fun he => hph'.not_mem hb (he ▸ hp.1)
    exact ⟨hp.1, by rw [(hs head hne).next, hp.2]⟩
  | _ => simp_all [Popping]

theorem invariant_publish (h : Invariant w ready s) (hp : s.producer i = .publish v)
    (hs : recoverStep s i weakFail = some (t, r)) : Invariant w ready t ∧ r = none := by
  have hb : s.producer i ≠ .idle := by simp [hp]
  obtain ⟨ph, hph⟩ := h.slot i (h.lt_of_busy hb)
  obtain rfl : ph = .calling v := by
    have := hph.producer
    cases ph <;> simp_all [Phase.Producer]
  simp only [recoverStep, hp, hph.cell, Phase.cell, RecoveryCell.empty, Bool.false_eq_true,
    if_false, Option.some.injEq, Prod.mk.injEq] at hs
  obtain ⟨rfl, rfl⟩ := hs
  refine ⟨h.producer (i := i) (p := .writing v) hb (by simp) rfl h.linked ?_ rfl ?_, rfl⟩
  · intro j hj
    constructor <;> simp [State.gotoProducer, hj, Ne.symm hj]
  · refine ⟨?_, hph.called, hph.published, by simp [Phase.Producer, State.gotoProducer],
      hph.consumer, ?_⟩
    · simp [Phase.cell, h.lt_of_busy hb]
    · simpa using hph.ready

theorem invariant_write (h : Invariant w ready s) (hp : s.producer i = .write v)
    (hs : recoverStep s i weakFail = some (t, r)) : Invariant w ready t ∧ r = none := by
  have hb : s.producer i ≠ .idle := by simp [hp]
  obtain ⟨ph, hph⟩ := h.slot i (h.lt_of_busy hb)
  obtain rfl : ph = .writing v := by
    have := hph.producer
    cases ph <;> simp_all [Phase.Producer]
  simp only [recoverStep, hp, Option.some.injEq, Prod.mk.injEq] at hs
  obtain ⟨rfl, rfl⟩ := hs
  refine ⟨h.producer (i := i) (p := .linking v) hb (by simp) rfl h.linked ?_ rfl ?_, rfl⟩
  · intro j hj
    constructor <;> simp [State.gotoProducer, hj, Ne.symm hj]
  · refine ⟨?_, hph.called, hph.published, by simp [Phase.Producer, State.gotoProducer],
      hph.consumer, ?_⟩
    · simp [hph.cell, Phase.cell]
    · simpa using hph.ready

/-- Going on with the link of a slot already written. -/
theorem Located.linking (h : Located ready s i (.linking v)) (hs : t.slots = s.slots)
    (hc : t.called = s.called) (hp : t.published = s.published) (hd : t.delivered = s.delivered)
    (hpc : (Phase.linking v).Producer t.readyNext i (t.producer i))
    (hcons : t.consumer = s.consumer) : Located ready t i (.linking v) where
  cell := by rw [hs, h.cell]
  called := by rw [hc, hd, h.called]
  published := by rw [hp, hd, h.published]
  producer := hpc
  consumer := by rw [hcons]; exact h.consumer
  ready := h.ready

theorem Invariant.linking (h : Invariant w ready s) (hb : s.producer i ≠ .idle)
    (hp : ∀ v, s.producer i ≠ .publish v ∧ s.producer i ≠ .write v) :
    ∃ v, Located ready s i (.linking v) := by
  obtain ⟨ph, hph⟩ := h.slot i (h.lt_of_busy hb)
  have hpc := hph.producer
  cases ph with
  | linking v => exact ⟨v, hph⟩
  | calling v => exact absurd hpc (hp v).1
  | writing v => exact absurd hpc (hp v).2
  | _ => exact absurd hpc hb

theorem invariant_loadHead (h : Invariant w ready s) (hb : s.producer i ≠ .idle)
    (hp : ∀ v, s.producer i ≠ .publish v ∧ s.producer i ≠ .write v) :
    Invariant w ready (s.gotoProducer i (.link s.readyHead)) := by
  obtain ⟨v, hph⟩ := h.linking hb hp
  refine h.producer (i := i) (p := .linking v) hb rfl rfl h.linked ?_ rfl ?_
  · intro j hj
    constructor <;> simp [State.gotoProducer, hj]
  · exact hph.linking rfl rfl rfl rfl (by simp [Phase.Producer, State.gotoProducer]) rfl

theorem invariant_link {head : Nat} (h : Invariant w ready s) (hp : s.producer i = .link head)
    (hs : recoverStep s i weakFail = some (t, r)) : Invariant w ready t ∧ r = none := by
  have hb : s.producer i ≠ .idle := by simp [hp]
  have hlt := h.lt_of_busy hb
  obtain ⟨v, hph⟩ := h.linking hb (by simp [hp])
  simp only [recoverStep, hp, Option.some.injEq, Prod.mk.injEq] at hs
  obtain ⟨rfl, rfl⟩ := hs
  refine ⟨h.producer (i := i) (p := .linking v) hb rfl (by simp)
    (linked_set h.linked (hph.not_mem hb)) ?_ rfl ?_, rfl⟩
  · intro j hj
    constructor <;> simp [State.gotoProducer, hj, Ne.symm hj]
  · refine hph.linking rfl rfl rfl rfl ?_ rfl
    simp [Phase.Producer, State.gotoProducer, h.links, hlt]

/-- The exchange of `recover` puts the slot in front of the list, or reads the new head. -/
theorem invariant_cas {head : Nat} (h : Invariant w ready s) (hp : s.producer i = .cas head)
    (hs : recoverStep s i weakFail = some (t, r)) :
    (Invariant w (i :: ready) t ∧ r = some (.recovered i)) ∨ (Invariant w ready t ∧ r = none) := by
  have hb : s.producer i ≠ .idle := by simp [hp]
  have hlt := h.lt_of_busy hb
  simp only [recoverStep, hp] at hs
  split at hs <;> simp only [Option.some.injEq, Prod.mk.injEq] at hs <;> obtain ⟨rfl, rfl⟩ := hs
  · rename_i hc
    obtain ⟨v, hph⟩ := h.linking hb (by simp [hp])
    have hnot := hph.not_mem hb
    have hnext : s.readyNext[i]? = some s.readyHead := by
      have hpc := hph.producer
      simp only [Phase.Producer, hp, reduceCtorEq, ProducerPc.cas.injEq, exists_false,
        false_or] at hpc
      obtain ⟨h', rfl, hn⟩ := hpc
      rw [hn, hc.1]
    have hnil : i ≠ usizeMax w := by have := h.bound; omega
    left
    refine ⟨h.move (p := .ready v) hlt rfl rfl (linked_cons h.linked hnil hnext)
      (List.nodup_cons.mpr ⟨hnot, h.nodup⟩) ?_ ?_ ?_ (fun _ _ => .inl rfl) ?_, rfl⟩
    · refine ⟨hph.cell, hph.called, ?_, by simp [Phase.Producer, State.gotoProducer],
        hph.consumer, by simp⟩
      simp [hph.published, hph.cell, Phase.cell, Phase.out, State.gotoProducer]
    · intro j hj
      constructor <;> simp [State.gotoProducer, hj]
    · intro j hj
      simp [hj]
    · have hpop := h.popping
      cases hcs : s.consumer <;> simp_all [Popping, State.gotoProducer]
  · right
    exact ⟨invariant_loadHead h hb (by simp [hp]), rfl⟩

/-- The consumer moves on with no slot in its hands, before or after. -/
theorem Invariant.consumer {pc : ConsumerPc T} (h : Invariant w ready s)
    (hs : s.consumer.slot = none) (hpc : pc.slot = none)
    (hp : Popping ready { s with consumer := pc }) :
    Invariant w ready { s with consumer := pc } := by
  refine ⟨h.linked, h.nodup, h.links, h.bound, ?_, h.outside, hp⟩
  intro i hi
  obtain ⟨ph, hph⟩ := h.slot i hi
  refine ⟨ph, hph.frame ⟨rfl, rfl, rfl, rfl, rfl, rfl⟩ .rfl (.inr ?_)⟩
  simp [hs, hpc]

/-- With nothing listed and nothing popped, all that was published is delivered. -/
theorem Invariant.all_delivered (h : Invariant w [] s) (hs : s.consumer.slot = none) (i : Nat) :
    s.published i = s.delivered i := by
  by_cases hi : i < s.slots.length
  · obtain ⟨ph, hph⟩ := h.slot i hi
    have hout : ph.out = [] := by
      cases ph with
      | ready v => simpa using hph.ready
      | taking v => simp [show s.consumer = _ from hph.consumer, ConsumerPc.slot] at hs
      | taken v => simp [show s.consumer = _ from hph.consumer, ConsumerPc.slot] at hs
      | _ => rfl
    rw [hph.published, hout, List.append_nil]
  · obtain ⟨-, -, hp, hd⟩ := h.outside i (Nat.le_of_not_lt hi)
    rw [hp, hd]

theorem invariant_popLoop (h : Invariant w ready s) (hs : s.consumer.slot = none)
    (ht : popLoop w s s.readyHead = (t, r)) :
    Invariant w ready t ∧
      (r = none ∨ r = some .popNone ∧ ∀ i, t.published i = t.delivered i) := by
  simp only [popLoop] at ht
  split at ht <;> simp only [Prod.mk.injEq] at ht <;> obtain ⟨rfl, rfl⟩ := ht
  · rename_i hnil
    obtain rfl := (linked_nil_iff h.linked).mpr hnil
    exact ⟨h.consumer hs rfl trivial, .inr ⟨rfl, h.all_delivered hs⟩⟩
  · rename_i hne
    obtain ⟨n, ys, he, -, -⟩ := linked_head h.linked hne
    refine ⟨h.consumer hs rfl ?_, .inl rfl⟩
    simp [Popping, he]

theorem invariant_loadNext {head : Nat} (h : Invariant w ready s) (hp : s.consumer = .loadNext head)
    (hs : consumerStep w s weakFail = some (t, r)) : Invariant w ready t ∧ r = none := by
  have hpop := h.popping
  simp only [Popping, hp] at hpop
  simp only [consumerStep, hp, Option.map_eq_some_iff, Prod.mk.injEq] at hs
  obtain ⟨next, hn, rfl, rfl⟩ := hs
  exact ⟨h.consumer (by rw [hp]; rfl) rfl ⟨hpop, hn⟩, rfl⟩

/-- The exchange of `pop_ready`: the head it expects has stayed in the list, so its link is still
the one it read, however often the list changed in between. -/
theorem invariant_pop {head next : Nat} (h : Invariant w ready s) (hp : s.consumer = .cas head next)
    (hs : consumerStep w s weakFail = some (t, r)) :
    (∃ ys, ready = head :: ys ∧ Invariant w ys t ∧ r = none) ∨
    (Invariant w ready t ∧
      (r = none ∨ r = some .popNone ∧ ∀ i, t.published i = t.delivered i)) := by
  have hpop := h.popping
  simp only [Popping, hp] at hpop
  simp only [consumerStep, hp] at hs
  split at hs
  · rename_i hc
    simp only [Option.some.injEq, Prod.mk.injEq] at hs
    obtain ⟨rfl, rfl⟩ := hs
    have hlt := h.mem_lt hpop.1
    have hne : s.readyHead ≠ usizeMax w := by
      have := h.bound
      omega
    obtain ⟨n, ys, rfl, hn, hlinked⟩ := linked_head h.linked hne
    rw [hc.1, hpop.2] at hn
    obtain rfl := Option.some.inj hn
    obtain ⟨hnot, hnodup⟩ := List.nodup_cons.mp h.nodup
    rw [hc.1] at hnot
    left
    refine ⟨ys, by rw [hc.1], ?_, rfl⟩
    obtain ⟨ph, hph⟩ := h.slot head hlt
    obtain ⟨v, rfl⟩ := hph.ready.mp hpop.1
    refine h.move (i := head) (p := .taking v) hlt rfl rfl hlinked hnodup ?_ ?_ ?_ ?_ hlt
    · exact ⟨hph.cell, hph.called, hph.published, hph.producer, rfl, by simpa using hnot⟩
    · exact fun j hj => ⟨rfl, rfl, rfl, rfl, rfl, rfl⟩
    · intro j hj
      simp [hc.1, hj]
    · intro j hj
      right
      simp [hp, ConsumerPc.slot, Ne.symm hj]
  · right
    exact invariant_popLoop h (by rw [hp]; rfl) (Option.some.inj hs)

theorem invariant_takeValue {slot : Nat} (h : Invariant w ready s)
    (hp : s.consumer = .takeValue slot) (hs : consumerStep w s weakFail = some (t, r)) :
    Invariant w ready t ∧ r = none := by
  have hpop := h.popping
  simp only [Popping, hp] at hpop
  obtain ⟨ph, hph⟩ := h.slot slot hpop
  obtain ⟨v, rfl⟩ : ∃ v, ph = .taking v := by
    have := hph.consumer
    cases ph <;> simp_all [Phase.Consumer, ConsumerPc.slot]
  simp only [consumerStep, hp, hph.cell, Option.map_some, Option.some.injEq, Prod.mk.injEq] at hs
  obtain ⟨rfl, rfl⟩ := hs
  refine ⟨h.move (i := slot) (p := .taken v) hpop (by simp) rfl h.linked h.nodup ?_ ?_
    (fun _ _ => .rfl) ?_ (by simpa [Popping] using hpop), rfl⟩
  · refine ⟨by simp [Phase.cell, hpop], hph.called, hph.published, hph.producer, rfl, ?_⟩
    simpa using hph.ready
  · intro j hj
    constructor <;> simp [Ne.symm hj]
  · intro j hj
    right
    simp [hp, ConsumerPc.slot, Ne.symm hj]

/-- `take` hands over the value that was recovered, and vacates the slot. -/
theorem invariant_storeOccupied {slot : Nat} {value : Option T} (h : Invariant w ready s)
    (hp : s.consumer = .storeOccupied slot value)
    (hs : consumerStep w s weakFail = some (t, r)) :
    Invariant w ready t ∧ ∃ v, r = some (.taken slot (some v)) ∧
      t.delivered = Function.update s.delivered slot (s.delivered slot ++ [v]) := by
  have hpop := h.popping
  simp only [Popping, hp] at hpop
  obtain ⟨ph, hph⟩ := h.slot slot hpop
  obtain ⟨v, rfl, rfl⟩ : ∃ v, ph = .taken v ∧ value = some v := by
    have := hph.consumer
    cases ph <;> simp_all [Phase.Consumer, ConsumerPc.slot]
  simp only [consumerStep, hp, Option.some.injEq, Prod.mk.injEq] at hs
  obtain ⟨rfl, rfl⟩ := hs
  refine ⟨h.move (i := slot) (p := .vacant) hpop (by simp) rfl h.linked h.nodup ?_ ?_
    (fun _ _ => .rfl) ?_ trivial, v, rfl, rfl⟩
  · refine ⟨by simp [hph.cell, Phase.cell, RecoveryCell.empty], ?_, ?_, hph.producer, by
      simp [Phase.Consumer, ConsumerPc.slot], by simpa using hph.ready⟩
    · simp [hph.called, Phase.pending]
    · simp [hph.published, Phase.out]
  · intro j hj
    constructor <;> simp [hj, Ne.symm hj]
  · intro j hj
    right
    simp [hp, ConsumerPc.slot, Ne.symm hj]

theorem invariant_recover (h : Invariant w ready s)
    (hs : step w s (.recover i v) = some (t, r)) : Invariant w ready t ∧ r = none := by
  simp only [step] at hs
  split at hs
  · rename_i hc
    simp only [Option.some.injEq, Prod.mk.injEq] at hs
    obtain ⟨rfl, rfl⟩ := hs
    obtain ⟨ph, hph⟩ := h.slot i hc.1
    obtain rfl : ph = .vacant := by
      have hlen := congrArg List.length hph.called
      cases ph <;> simp [Phase.pending] at hlen <;> first | rfl | omega
    refine ⟨h.move (i := i) (p := .calling v) hc.1 rfl rfl h.linked h.nodup ?_ ?_
      (fun _ _ => .rfl) (fun _ _ => .inl rfl) h.popping, rfl⟩
    · refine ⟨hph.cell, ?_, hph.published, by simp [Phase.Producer, State.gotoProducer],
        hph.consumer, by simpa using hph.ready⟩
      simp [hph.called, Phase.pending, State.gotoProducer]
    · intro j hj
      constructor <;> simp [State.gotoProducer, hj]
  · cases hs

/-- What a step is for the stack of ready slots, by what it returned. -/
inductive Effect (s t : State T) (ready : List Nat) : List Nat → Option (Return T) → Prop where
  | stay : Effect s t ready ready none
  | push (i : Nat) : Effect s t ready (i :: ready) (some (.recovered i))
  | pop (i : Nat) (ys : List Nat) (h : ready = i :: ys) : Effect s t ready ys none
  | empty (h : ∀ i, t.published i = t.delivered i) : Effect s t ready ready (some .popNone)
  | taken (i : Nat) (v : T)
      (h : t.delivered = Function.update s.delivered i (s.delivered i ++ [v])) :
      Effect s t ready ready (some (.taken i (some v)))

theorem invariant_recoverStep (h : Invariant w ready s)
    (hs : recoverStep s i weakFail = some (t, r)) :
    ∃ ready', Invariant w ready' t ∧ Effect s t ready ready' r := by
  cases hp : s.producer i with
  | idle => simp [recoverStep, hp] at hs
  | publish v =>
    obtain ⟨hi, rfl⟩ := invariant_publish h hp hs
    exact ⟨ready, hi, .stay⟩
  | write v =>
    obtain ⟨hi, rfl⟩ := invariant_write h hp hs
    exact ⟨ready, hi, .stay⟩
  | loadHead =>
    simp only [recoverStep, hp, Option.some.injEq, Prod.mk.injEq] at hs
    obtain ⟨rfl, rfl⟩ := hs
    exact ⟨ready, invariant_loadHead h (by simp [hp]) (by simp [hp]), .stay⟩
  | link head =>
    obtain ⟨hi, rfl⟩ := invariant_link h hp hs
    exact ⟨ready, hi, .stay⟩
  | cas head =>
    rcases invariant_cas h hp hs with ⟨hi, rfl⟩ | ⟨hi, rfl⟩
    · exact ⟨i :: ready, hi, .push i⟩
    · exact ⟨ready, hi, .stay⟩

theorem invariant_consumerStep (h : Invariant w ready s)
    (hs : consumerStep w s weakFail = some (t, r)) :
    ∃ ready', Invariant w ready' t ∧ Effect s t ready ready' r := by
  have hloop : Invariant w ready t ∧ (r = none ∨ r = some .popNone ∧
      ∀ i, t.published i = t.delivered i) →
      ∃ ready', Invariant w ready' t ∧ Effect s t ready ready' r := by
    rintro ⟨hi, rfl | ⟨rfl, hall⟩⟩
    · exact ⟨ready, hi, .stay⟩
    · exact ⟨ready, hi, .empty hall⟩
  cases hp : s.consumer with
  | idle => simp [consumerStep, hp] at hs
  | loadHead =>
    simp only [consumerStep, hp] at hs
    exact hloop (invariant_popLoop h (by rw [hp]; rfl) (Option.some.inj hs))
  | loadNext head =>
    obtain ⟨hi, rfl⟩ := invariant_loadNext h hp hs
    exact ⟨ready, hi, .stay⟩
  | cas head next =>
    rcases invariant_pop h hp hs with ⟨ys, rfl, hi, rfl⟩ | hi
    · exact ⟨ys, hi, .pop head ys rfl⟩
    · exact hloop hi
  | takeValue slot =>
    obtain ⟨hi, rfl⟩ := invariant_takeValue h hp hs
    exact ⟨ready, hi, .stay⟩
  | storeOccupied slot value =>
    obtain ⟨hi, v, rfl, hd⟩ := invariant_storeOccupied h hp hs
    exact ⟨ready, hi, .taken slot v hd⟩

/-- Every step keeps the list, and pushes, pops or finds it empty as a stack does. -/
theorem invariant_step {a : Action T} (h : Invariant w ready s) (hs : step w s a = some (t, r)) :
    ∃ ready', Invariant w ready' t ∧ Effect s t ready ready' r := by
  cases a with
  | recover i v =>
    obtain ⟨hi, rfl⟩ := invariant_recover h hs
    exact ⟨ready, hi, .stay⟩
  | producer i weakFail => exact invariant_recoverStep h hs
  | consumer weakFail => exact invariant_consumerStep h hs
  | popReady =>
    simp only [step] at hs
    split at hs
    · rename_i hp
      simp only [Option.some.injEq, Prod.mk.injEq] at hs
      obtain ⟨rfl, rfl⟩ := hs
      exact ⟨ready, h.consumer (by rw [hp]; rfl) rfl trivial, .stay⟩
    · cases hs

theorem invariant_reachable (h : Reachable w T capacity s) : ∃ ready, Invariant w ready s := by
  apply Lts.invariant_reachable (P := fun s => ∃ ready, Invariant w ready s) ?_ ?_ h
  · exact fun s hs => ⟨[], invariant_initial hs⟩
  · rintro s a t ⟨ready, hi⟩ hs
    obtain ⟨ready', hi', -⟩ := invariant_step hi hs
    exact ⟨ready', hi'⟩

theorem published_popLoop {head : Nat} (ht : popLoop w s head = (t, r)) :
    t.published = s.published := by
  simp only [popLoop] at ht
  split at ht <;> simp only [Prod.mk.injEq] at ht <;> obtain ⟨rfl, -⟩ := ht <;> rfl

/-- Publication is never taken back. -/
theorem published_step {a : Action T} (hs : step w s a = some (t, r)) (i : Nat) :
    s.published i <+: t.published i := by
  cases a with
  | recover slot v =>
    simp only [step] at hs
    split at hs <;> simp only [Option.some.injEq, Prod.mk.injEq, reduceCtorEq] at hs
    obtain ⟨rfl, -⟩ := hs
    exact List.prefix_rfl
  | popReady =>
    simp only [step] at hs
    split at hs <;> simp only [Option.some.injEq, Prod.mk.injEq, reduceCtorEq] at hs
    obtain ⟨rfl, -⟩ := hs
    exact List.prefix_rfl
  | producer slot weakFail =>
    simp only [step, recoverStep] at hs
    (repeat' split at hs) <;> simp only [Option.some.injEq, Prod.mk.injEq, reduceCtorEq] at hs <;>
      obtain ⟨rfl, -⟩ := hs <;> try exact List.prefix_rfl
    by_cases hi : i = slot
    · subst hi
      simp
    · simp [hi]
  | consumer weakFail =>
    have hp : t.published = s.published := by
      simp only [step, consumerStep] at hs
      (repeat' split at hs) <;>
        simp only [Option.map_eq_some_iff, Option.some.injEq, Prod.mk.injEq, reduceCtorEq] at hs
      · exact published_popLoop hs
      · obtain ⟨_, _, rfl, -⟩ := hs
        rfl
      · obtain ⟨rfl, -⟩ := hs
        rfl
      · exact published_popLoop hs
      · obtain ⟨_, _, rfl, -⟩ := hs
        rfl
      · obtain ⟨rfl, -⟩ := hs
        rfl
    exact hp ▸ List.prefix_rfl

theorem published_trace {xs : List (Action T × Option (Return T))}
    (h : Lts.Trace (recoveryLts w T capacity) s xs t) (i : Nat) :
    s.published i <+: t.published i := by
  induction h with
  | refl => exact List.prefix_rfl
  | snoc _ hs ih => exact ih.trans (published_step hs i)

/-- The values of a slot's calls that are with its caller, in its cell or with the consumer. -/
def State.held (s : State T) (i : Nat) : List T :=
  (match s.producer i with
    | .publish v | .write v => [v]
    | _ => []) ++
  ((s.slots[i]?).bind RecoveryCell.value).toList ++
  (match s.consumer with
    | .storeOccupied slot value => if slot = i then value.toList else []
    | _ => [])

theorem Located.held {ph : Phase T} (h : Located ready s i ph) : s.held i = ph.pending := by
  have hc := h.consumer
  have hp := h.producer
  have hother : s.consumer.slot ≠ some i → (match s.consumer with
      | .storeOccupied slot value => if slot = i then value.toList else []
      | _ => []) = [] := by
    intro hne
    cases hcs : s.consumer <;> simp_all [ConsumerPc.slot]
  cases ph with
  | vacant =>
    simp [State.held, h.cell, Phase.cell, RecoveryCell.empty, Phase.pending,
      show s.producer i = _ from hp, hother hc]
  | calling v =>
    simp [State.held, h.cell, Phase.cell, RecoveryCell.empty, Phase.pending,
      show s.producer i = _ from hp, hother hc]
  | writing v =>
    simp [State.held, h.cell, Phase.cell, Phase.pending, show s.producer i = _ from hp, hother hc]
  | ready v =>
    simp [State.held, h.cell, Phase.cell, Phase.pending, show s.producer i = _ from hp, hother hc]
  | linking v =>
    rcases hp with hp | ⟨h', hp⟩ | ⟨h', hp, -⟩ <;>
      simp [State.held, h.cell, Phase.cell, Phase.pending, hp, hother hc]
  | taking v =>
    simp [State.held, h.cell, Phase.cell, Phase.pending, show s.producer i = _ from hp,
      show s.consumer = _ from hc]
  | taken v =>
    simp [State.held, h.cell, Phase.cell, Phase.pending, show s.producer i = _ from hp,
      show s.consumer = _ from hc]

theorem Invariant.called_eq (h : Invariant w ready s) (i : Nat) :
    s.called i = s.delivered i ++ s.held i ∧ s.delivered i <+: s.published i ∧
      s.published i <+: s.called i := by
  by_cases hi : i < s.slots.length
  · obtain ⟨ph, hph⟩ := h.slot i hi
    refine ⟨by rw [hph.held, hph.called], ?_, ?_⟩
    · rw [hph.published]
      exact List.prefix_append _ _
    · rw [hph.published, hph.called, List.prefix_append_right_inj]
      cases ph <;> simp [Phase.out, Phase.pending]
  · obtain ⟨hp, hc, hpub, hd⟩ := h.outside i (Nat.le_of_not_lt hi)
    have hnone : s.slots[i]? = none := List.getElem?_eq_none (Nat.le_of_not_lt hi)
    have hcons : (match s.consumer with
        | .storeOccupied slot value => if slot = i then value.toList else []
        | _ => []) = [] := by
      have hpop := h.popping
      cases hcs : s.consumer <;> simp_all [Popping]
      rintro rfl
      omega
    simp [State.held, hp, hc, hpub, hd, hnone, hcons]

/-- What is published and not delivered is listed, or in the consumer's hands. -/
theorem Invariant.outstanding (h : Invariant w ready s) (i : Nat) :
    s.published i ≠ s.delivered i ↔ i ∈ ready ∨ s.consumer.slot = some i := by
  by_cases hi : i < s.slots.length
  · obtain ⟨ph, hph⟩ := h.slot i hi
    have hr := hph.ready
    have hc := hph.consumer
    rw [hph.published]
    cases ph <;> simp_all [Phase.out, Phase.Consumer, ConsumerPc.slot]
  · obtain ⟨-, -, hp, hd⟩ := h.outside i (Nat.le_of_not_lt hi)
    have hmem : i ∉ ready := fun hmem => hi (h.mem_lt hmem)
    have hslot : s.consumer.slot ≠ some i := by
      intro hs
      have hpop := h.popping
      cases hcs : s.consumer <;> simp_all [Popping, ConsumerPc.slot] <;> omega
    simp [hp, hd, hmem, hslot]

/-- Delivery: what a slot's callers handed in is what was taken from it followed by what is on its
way; the ready list is finite, without repeats, and has every slot whose value is still to be
popped; no call leaks its value, no take is empty; and a pop that finds nothing has nothing left to
deliver of what was published before it began. -/
theorem recovery_delivery (h : Reachable w T capacity s) :
    (∃ ready, Linked s.readyNext (usizeMax w) s.readyHead ready ∧ ready.Nodup ∧
      ∀ i, s.published i ≠ s.delivered i ↔ i ∈ ready ∨ s.consumer.slot = some i) ∧
    (∀ i, s.called i = s.delivered i ++ s.held i ∧ s.delivered i <+: s.published i ∧
      s.published i <+: s.called i) ∧
    (∀ a r t, step w s a = some (t, some r) →
      (∀ i, r ≠ .outOfRange i ∧ r ≠ .occupied i) ∧
      ∀ i v, r = .taken i v → ∃ x, v = some x ∧
        t.delivered = Function.update s.delivered i (s.delivered i ++ [x])) ∧
    ∀ s' xs u t weakFail, step w s .popReady = some (s', none) →
      Lts.Trace (recoveryLts w T capacity) s' xs u →
      step w u (.consumer weakFail) = some (t, some .popNone) →
      ∀ i, s.published i <+: t.delivered i := by
  obtain ⟨ready, hi⟩ := invariant_reachable h
  refine ⟨⟨ready, hi.linked, hi.nodup, hi.outstanding⟩, hi.called_eq, ?_, ?_⟩
  · intro a r t hs
    obtain ⟨ready', -, he⟩ := invariant_step hi hs
    cases he with
    | push | empty => simp
    | taken i v hd =>
      refine ⟨by simp, fun j v' hr => ?_⟩
      obtain ⟨rfl, rfl⟩ := Return.taken.inj hr
      exact ⟨v, rfl, hd⟩
  · intro s' xs u t weakFail hpop htrace hnone i
    have hu : Reachable w T capacity u :=
      Lts.trace_reachable (.step (a := (.popReady, none)) h hpop) htrace
    obtain ⟨readyU, hiu⟩ := invariant_reachable hu
    obtain ⟨ready', -, he⟩ := invariant_step hiu hnone
    cases he with
    | empty hall =>
      rw [← hall i]
      exact (published_step hpop i).trans
        ((published_trace htrace i).trans (published_step hnone i))

/-- The value 7 recovered into the only slot, popped and taken. -/
def recoverOnce : List (Action Nat) :=
  [.recover 0 7] ++ List.replicate 5 (.producer 0 false) ++ [.popReady] ++
    List.replicate 5 (.consumer false)

theorem recovery_delivery_once : ∃ s : State Nat, Reachable 64 Nat 1 s ∧ s.delivered 0 = [7] ∧
    s.called 0 = s.delivered 0 ++ s.held 0 := by
  have hinit : Reachable 64 Nat 1 ⟨⟨[.empty], usizeMax 64, [usizeMax 64]⟩, fun _ => .idle, .idle,
      fun _ => [], fun _ => [], fun _ => []⟩ := .initial ⟨_, rfl, rfl⟩
  obtain ⟨s, hs, hd⟩ : ∃ s : State Nat, Lts.schedule (fun s a => (step 64 s a).map Prod.fst)
      ⟨⟨[.empty], usizeMax 64, [usizeMax 64]⟩, fun _ => .idle, .idle, fun _ => [], fun _ => [],
        fun _ => []⟩ recoverOnce = some s ∧ s.delivered 0 = [7] := ⟨_, rfl, rfl⟩
  have hr : Reachable 64 Nat 1 s := by
    refine Lts.schedule_reachable ?_ hinit hs
    intro s a t h
    obtain ⟨⟨t, r⟩, hst, rfl⟩ := Option.map_eq_some_iff.mp h
    exact ⟨(a, r), hst⟩
  exact ⟨s, hr, hd, ((recovery_delivery hr).2.1 0).1⟩

end Zrt.Recovery
