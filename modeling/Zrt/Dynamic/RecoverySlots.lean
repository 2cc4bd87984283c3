import Zrt.Dynamic.Conservation

/-! Recovery slots are in range, differ, and take every dropped lane back. -/
namespace Zrt.Dynamic

open Lane (Features Native)

variable {ins outs : Nat} {f : Features} {r : DynamicIoRuntime ins outs} {s t : State ins outs}
  {a : Op ins outs} {run : OwnedDynamicIoRun ins outs}

/-- The call creates a bucket in a slot past the last for which recovery cells were allocated. -/
def SlotBeyond (f : Features) (s : State ins outs) (a : Op ins outs) : Prop :=
  ∃ request r', CreatesAt f s a request r' ∧ r'.options.maxBuckets ≤ nextSlot r'.toPreparedSlots ∧
    nextSlot r'.toPreparedSlots ≤ u32Max ∧ nextSlot r'.toPreparedSlots * r'.laneCount < usizeBound

/-- Every bucket is in one of the first `max_buckets` slots. -/
def Bounded (r : DynamicIoRuntime ins outs) : Prop :=
  ∀ id ∈ r.bucketIds, id.slot < r.options.maxBuckets

theorem bounded_initial (h : Initial f s) : Bounded s.runtime := by
  obtain ⟨name, mode, laneCount, options, -, -, rfl⟩ := initial_cases h
  exact fun id hid => absurd hid List.not_mem_nil

theorem bounded_step (hc : Cached s.runtime) (h : Bounded s.runtime) (hno : ¬ SlotBeyond f s a) :
    Bounded (step f s a).runtime := by
  rcases step_cases (f := f) s a with
    hs | ⟨plan, -, -, he⟩ | ⟨r', request, lanes, graphId, hcr, hs, hk, hlt, he⟩
  · intro id hid
    rw [hs.options]
    exact h id (hs.ids hid)
  · exact he ▸ h
  · have hr' : Bounded r' := fun id hid => by
      rw [hs.options]
      exact h id (hs.ids hid)
    rw [he]
    rcases insertBucket_cases request lanes graphId (hs.cached hc).indexed with
      ⟨-, e, hi⟩ | ⟨slots, id, ha, ⟨-, e, hi⟩ | ⟨hlt', hi⟩⟩ <;> rw [hi]
    · exact hr'
    · exact hr'
    · have hids : (r'.pushed slots (r'.newBucket request id lanes graphId)).bucketIds =
          r'.bucketIds ++ [id] := List.map_append
      intro id' hid'
      rw [hids] at hid'
      rcases List.mem_append.mp hid' with hid' | hid'
      · exact hr' id' hid'
      · obtain rfl := List.mem_singleton.mp hid'
        refine Nat.lt_of_not_le fun hge => hno ⟨request, r', hcr, ?_, ?_, ?_⟩
        · exact ha.slot ▸ hge
        · exact ha.slot ▸ ha.slot_le
        · exact ha.slot ▸ hlt'

/-- In the first `max_buckets` slots every lane has its cell. -/
theorem place_lt {k n slot i : Nat} (hs : slot < n) (hi : i < k) : slot * k + i < n * k :=
  calc slot * k + i
      _ < slot * k + k := by omega
      _ = (slot + 1) * k := by rw [Nat.add_mul, Nat.one_mul]
      _ ≤ n * k := Nat.mul_le_mul_right k hs

theorem Ledger.cell (h : Ledger s.runtime s.tokens []) (hb : Bounded s.runtime)
    {l : ServingLane ins outs} (hl : l ∈ s.places) : ∃ slot, l.recoverySlot = some slot ∧
      slot < s.runtime.options.maxBuckets * s.runtime.laneCount := by
  obtain ⟨b, hb', hid, hi, hs⟩ := h.slot_eq hl
  refine ⟨_, hs, place_lt ?_ hi⟩
  rw [hid]
  exact hb b.id (List.mem_map.mpr ⟨b, hb', rfl⟩)

theorem run_mem_places (h : run ∈ s.runs) : run.lane ∈ s.places :=
  List.mem_append_left _ (List.mem_append_right _ (List.mem_map_of_mem h))

/-- So no token is dropped without a cell for its lane. -/
theorem not_dropsBeyond (h : Ledger s.runtime s.tokens []) (hb : Bounded s.runtime) :
    ¬ DropsBeyond f s a := by
  rintro ⟨k, n, run, -, hk, -, hcell⟩
  obtain ⟨slot, hs, hlt⟩ := h.cell hb (run_mem_places (List.mem_of_getElem? hk))
  have hge := hcell slot hs
  rw [h.stored.length] at hge
  omega

/-- What the recovery slots are for. -/
structure Recoverable (f : Features) (s : State ins outs) : Prop where
  cells : s.runtime.recovery.slots.length = s.runtime.options.maxBuckets * s.runtime.laneCount
  bound : ∀ l ∈ s.places, ∃ slot, l.recoverySlot = some slot ∧
    slot < s.runtime.options.maxBuckets * s.runtime.laneCount
  apart : (s.places.map fun l => l.recoverySlot).Nodup
  recovers : ∀ run ∈ s.runs, ∀ d, ∃ slot recovery, run.lane.recoverySlot = some slot ∧
    s.runtime.recovery.recover slot d = some recovery
  reclaims : ∀ run ∈ s.runs, ∀ n, (run.fenced f n).inFlight = false →
    ∃ b ∈ (reclaimDroppedRuns (dropOwned f s.runtime run n)).1.buckets,
      b.id = run.bucketId ∧ run.fenced f n ∈ b.lanes
  waiting : ∀ d ∈ s.runtime.recovery.lanes, ∃ b ∈ (reclaimDroppedRuns s.runtime).1.buckets,
    b.id = d.bucketId ∧ d.lane ∈ b.lanes

/-- A dropped lane that could be fenced is in its bucket after the next reclaim. -/
theorem reclaims_dropped {held : Multiset (PreparedBucketId × Tag ins outs)}
    {lost : List (RecoveredDynamicLane ins outs)} {n : Native} {slot : Nat}
    (h : Ledger r (run.loan ::ₘ held) lost) (hin : (run.fenced f n).inFlight = false)
    (hs : run.lane.recoverySlot = some slot) (hlt : slot < r.recovery.slots.length) :
    ∃ b ∈ (reclaimDroppedRuns (dropOwned f r run n)).1.buckets,
      b.id = run.bucketId ∧ run.fenced f n ∈ b.lanes := by
  have hl : Ledger r ((run.bucketId, (run.fenced f n).tag) ::ₘ held) lost := h.used fenced_tag
  have hs' : (run.fenced f n).recoverySlot = some slot :=
    (congrArg Prod.snd (fenced_tag (f := f) (n := n))).trans hs
  have hdrop := ledger_dropOwned (f := f) (n := n) h fun _ => ⟨slot, hs, hlt⟩
  have heq : dropOwned f r run n = { r with recovery := ⟨r.recovery.slots.set slot
      (some ⟨run.fenced f n, run.bucketId⟩), slot :: r.recovery.ready⟩ } := by
    rw [dropOwned_eq, hin]
    simp only [hs', Option.bind_some, hl.recover_eq hs' hlt]
    rfl
  obtain ⟨-, -, hback⟩ := ledger_reclaimReady hdrop rfl
  refine hback slot ⟨run.fenced f n, run.bucketId⟩ ?_
  rw [heq]
  exact List.getElem?_set_self hlt

theorem Ledger.recoverable (h : Ledger s.runtime s.tokens []) (hb : Bounded s.runtime) :
    Recoverable f s := by
  have hrun : ∀ run ∈ s.runs, ∃ held slot, Ledger s.runtime (run.loan ::ₘ held) [] ∧
      run.lane.recoverySlot = some slot ∧ slot < s.runtime.recovery.slots.length := by
    intro run hrun
    obtain ⟨k, hk⟩ := List.mem_iff_getElem?.mp hrun
    obtain ⟨slot, hs, hlt⟩ := h.cell hb (run_mem_places hrun)
    rw [tokens_erase hk] at h
    exact ⟨_, slot, h, hs, h.stored.length ▸ hlt⟩
  refine ⟨h.stored.length, fun l hl => h.cell hb hl, h.slots_apart, ?_, ?_, ?_⟩
  · intro run hmem d
    obtain ⟨held, slot, hl, hs, hlt⟩ := hrun run hmem
    exact ⟨slot, _, hs, hl.recover_eq hs hlt⟩
  · intro run hmem n hin
    obtain ⟨held, slot, hl, hs, hlt⟩ := hrun run hmem
    exact reclaims_dropped hl hin hs hlt
  · intro d hd
    obtain ⟨slot, hslot⟩ := List.mem_iff_getElem?.mp (List.reduceOption_mem_iff.mp hd)
    exact (ledger_reclaimReady h rfl).2.2 slot d hslot

theorem bounded_exchange {x : Exchange ins outs} (h : Bounded s.runtime) (hx : x.InPlace) :
    Bounded (s.exchange x).runtime := by
  have hs := exchange_index (s := s) (keepsBuckets_of_inPlace hx)
  intro id hid
  rw [hs.options]
  exact h id (hs.ids ▸ hid)

/-- As long as every new bucket gets one of the first `max_buckets` slots, and nothing lent is
exchanged but the lanes of one bucket: recovery slots are in range and differ, and every dropped
lane that could be fenced is brought back. -/
theorem recovery_slots
    (h : Lts.Reachable ((lentLts f ins outs).restrict fun s =>
      Sum.elim (fun a => ¬ SlotBeyond f s a) Exchange.InPlace) s) : Recoverable f s := by
  have hinv : Ledger s.runtime (s.tokens + 0) [] ∧ Bounded s.runtime := by
    refine Lts.invariant_beside (P := fun s =>
      Ledger s.runtime (s.tokens + 0) [] ∧ Bounded s.runtime) ?_ ?_ ?_ h
    · intro s hi
      rw [add_zero]
      exact ⟨ledger_initial hi, bounded_initial hi⟩
    · rintro s a t ⟨hl, hb⟩ hno rfl
      have hl₀ := hl
      rw [add_zero] at hl₀
      exact ⟨ledger_step_held hl (not_dropsBeyond hl₀ hb), bounded_step hl.cached hb hno⟩
    · exact fun s x h hx => ⟨ledger_exchange h.1 hx, bounded_exchange h.2 hx⟩
  rw [add_zero] at hinv
  exact hinv.1.recoverable hinv.2

/-- The condition is exact: in any other slot a bucket's first lane has no cell. -/
theorem slotBeyond_step (h : Cached s.runtime) (hl : s.runtime.laneCount ≠ 0)
    (hb : SlotBeyond f s a) : ¬ Recoverable f (step f s a) := by
  obtain ⟨request, r', ⟨allowCreate, n, lanes, rfl, hcr⟩, hge, hle, hlt⟩ := hb
  have hs := (creates_shrinks hcr).1
  obtain ⟨r₁, -, -, hprep⟩ := creates_cases hcr
  have hlen : lanes.1.length = r'.laneCount := length_prepareLanes hprep
  have hstep : (step f s (.getOrCreateBucket request allowCreate n)).runtime =
      (insertBucket r' request lanes.1 lanes.2).1 := congrArg Prod.fst (getOrCreate_creates hcr)
  intro hrec
  rcases insertBucket_cases request lanes.1 lanes.2 (hs.cached h).indexed with
    ⟨hmax, -⟩ | ⟨slots, id, ha, ⟨hover, -⟩ | ⟨-, hi⟩⟩
  · omega
  · rw [ha.slot] at hover
    omega
  · rw [hi] at hstep
    have hlane : ∃ l ∈ (r'.newBucket request id lanes.1 lanes.2).lanes,
        l.recoverySlot = some (id.slot * r'.laneCount) := by
      have hpos : 0 < lanes.1.length := by
        rw [hlen, hs.laneCount]
        omega
      exact ⟨_, List.mem_mapIdx.mpr ⟨0, hpos, rfl⟩, rfl⟩
    obtain ⟨l, hmem, hslot⟩ := hlane
    have hplace : l ∈ (step f s (.getOrCreateBucket request allowCreate n)).places := by
      refine List.mem_append_left _ (List.mem_append_left _ (List.mem_flatMap.mpr ⟨_, ?_, hmem⟩))
      rw [hstep]
      exact List.mem_append_right _ (List.mem_singleton.mpr rfl)
    obtain ⟨slot, hslot', hbound⟩ := hrec.bound l hplace
    obtain rfl := Option.some.inj (hslot.symm.trans hslot')
    rw [hstep] at hbound
    have hbound : id.slot * r'.laneCount < r'.options.maxBuckets * r'.laneCount := hbound
    rw [ha.slot] at hbound
    have hmul := Nat.mul_le_mul_right r'.laneCount hge
    omega

theorem recovery_slots_enqueued : ∃ s : State 1 1, Recoverable ⟨false, false⟩ s ∧
    s.places.map (fun l => l.recoverySlot) = [some 0, some 1] ∧ s.runs.length = 1 := by
  have hinit : Initial ⟨false, false⟩ ⟨emptyRuntime 1 1 2 ⟨[], []⟩ 0, []⟩ :=
    emptyRuntime_initial (by decide) (by decide)
  have hcreate : ¬ SlotBeyond ⟨false, false⟩ ⟨emptyRuntime 1 1 2 ⟨[], []⟩ 0, []⟩
      (.getOrCreateBucket unitKey true .success) := by
    rintro ⟨request, r', ⟨allowCreate, n, lanes, ha, r₁, hl, hp⟩, hge, -⟩
    cases ha
    cases hl
    cases hp
    exact absurd hge (by decide)
  have henqueue : ¬ SlotBeyond ⟨false, false⟩ (step ⟨false, false⟩
      ⟨emptyRuntime 1 1 2 ⟨[], []⟩ 0, []⟩ (.getOrCreateBucket unitKey true .success))
      (.enqueuePrepared ⟨0, 1⟩ .success) := by
    rintro ⟨request, r', ⟨allowCreate, n, lanes, ha, -⟩, -⟩
    cases ha
  have h₀ := Lts.Reachable.initial (L := (dynamicLts ⟨false, false⟩ 1 1).restrict fun s a =>
    ¬ SlotBeyond ⟨false, false⟩ s a) hinit
  have h₁ := Lts.Reachable.step h₀ ⟨hcreate, rfl⟩
  have h₂ := Lts.Reachable.step h₁ ⟨henqueue, rfl⟩
  exact ⟨_, recovery_slots (Lts.reachable_beside h₂), rfl, rfl⟩

/-- With one slot exhausted the only bucket gets the second, where its lane has no cell. Or a
token's bucket is exchanged for another, and the token's lane cannot be brought back. -/
theorem recovery_slots_fails :
    (∃ s : State 1 1, Reachable ⟨false, false⟩ s ∧ ¬ Recoverable ⟨false, false⟩ s) ∧
    ∃ s : State 1 1, Lts.Reachable (lentLts ⟨false, false⟩ 1 1) s ∧
      ¬ Recoverable ⟨false, false⟩ s := by
  constructor
  · have hworn : Worn ⟨false, false⟩ 1 1 1 (exhaustedSlots 1) :=
      worn_exhausted unitKey (by decide) (by decide) (by decide) (by decide)
    obtain ⟨tick, hr⟩ := worn_create unitKey hworn (by decide) (by decide)
    refine ⟨_, hr, ?_⟩
    intro hrec
    obtain ⟨slot, hs, hlt⟩ := hrec.bound _ (List.mem_cons_self)
    have hs : some 1 = some slot := hs
    have hlt : slot < 1 := hlt
    have hone := Option.some.inj hs
    omega
  · have h₁ := pairState_reachable.ours (.enqueuePrepared ⟨0, 1⟩ .success) rfl
    refine ⟨_, h₁.theirs (.buckets 0 1), ?_⟩
    intro hrec
    obtain ⟨b, hb, hid, hl⟩ := hrec.reclaims _ List.mem_cons_self .success rfl
    rcases List.mem_cons.mp hb with rfl | hb
    · exact absurd hid (by decide)
    · obtain rfl := List.mem_singleton.mp hb
      cases hl

end Zrt.Dynamic
