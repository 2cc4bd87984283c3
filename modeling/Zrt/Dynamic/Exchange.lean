import Zrt.Dynamic.Index

/-! What a caller can do with the buckets and lanes that are lent to it by `&mut`, beside calling
their methods: exchange them with each other, or with its own. -/
namespace Zrt.Dynamic

open Lane (Features Native)

variable {ins outs : Nat}

/-- A lane that is lent by `&mut`: the lane `j` of the cached bucket `i`, or that of a token once it
is complete. -/
inductive LanePlace where
  | bucket (i j : Nat)
  | run (k : Nat)
  deriving DecidableEq

/-- `mem::swap` of two cached buckets, or of two lanes; `mem::replace` of a cached bucket by one of
another runtime, or of a lane by one from elsewhere. -/
inductive Exchange (ins outs : Nat) where
  | buckets (i j : Nat)
  | bucket (i : Nat) (other : ShapeBucket ins outs)
  | lanes (p q : LanePlace)
  | lane (p : LanePlace) (other : ServingLane ins outs)

variable (s : State ins outs)

def State.laneAt : LanePlace → Option (ServingLane ins outs)
  | .bucket i j => (s.runtime.buckets[i]?).bind fun bucket => bucket.lanes[j]?
  | .run k => ((s.runs[k]?).map OwnedDynamicIoRun.lane).filter fun lane => !lane.inFlight

def State.setLane (lane : ServingLane ins outs) : LanePlace → State ins outs
  | .bucket i j => { s with
      runtime := { s.runtime with
        buckets := s.runtime.buckets.modify i fun bucket => { bucket with
          lanes := bucket.lanes.set j lane } } }
  | .run k => { s with runs := s.runs.modify k fun run => { run with lane := lane } }

/-- An index out of range panics. -/
def State.exchange : Exchange ins outs → State ins outs
  | .buckets i j => match s.runtime.buckets[i]?, s.runtime.buckets[j]? with
    | some b, some b' => { s with
        runtime := { s.runtime with buckets := (s.runtime.buckets.set i b').set j b } }
    | _, _ => s
  | .bucket i other => { s with
      runtime := { s.runtime with buckets := s.runtime.buckets.set i other } }
  | .lanes p q => match s.laneAt p, s.laneAt q with
    | some lane, some lane' => (s.setLane lane' p).setLane lane q
    | _, _ => s
  | .lane p other => match s.laneAt p with
    | some _ => s.setLane other p
    | none => s

/-- A runtime with its tokens under a caller that makes calls and exchanges what it is lent. -/
def lentLts (f : Features) (ins outs : Nat) :
    Lts.System (State ins outs) (Op ins outs ⊕ Exchange ins outs) :=
  (dynamicLts f ins outs).beside State.exchange

/-- Every bucket stays in its place, and every lane in its bucket or token. -/
def Exchange.InPlace : Exchange ins outs → Prop
  | .buckets i j => i = j
  | .lanes (.bucket i _) (.bucket j _) | .lanes (.run i) (.run j) => i = j
  | .lanes .. | .bucket .. | .lane .. => False

/-- Every bucket stays in its place, whatever lanes it has. -/
def Exchange.KeepsBuckets : Exchange ins outs → Prop
  | .buckets i j => i = j
  | .bucket .. => False
  | .lanes .. | .lane .. => True

variable {s} {f : Features} {r : DynamicIoRuntime ins outs} {x : Exchange ins outs}
  {i j k : Nat} {b : ShapeBucket ins outs}

theorem setBucket_self (hb : r.buckets[i]? = some b) : r.setBucket i b = r := by
  obtain ⟨hi, rfl⟩ := List.getElem?_eq_some_iff.mp hb
  simp only [DynamicIoRuntime.setBucket, List.set_getElem_self]

/-- A swap of two lanes of a bucket. -/
theorem swapLanes_eq {lane lane' : ServingLane ins outs} (hb : s.runtime.buckets[i]? = some b)
    (hj : b.lanes[j]? = some lane) (hk : b.lanes[k]? = some lane') :
    ∃ lanes, lanes.Perm b.lanes ∧ (s.setLane lane' (.bucket i j)).setLane lane (.bucket i k) =
      { s with runtime := s.runtime.setBucket i { b with lanes := lanes } } := by
  obtain ⟨hltj, rfl⟩ := List.getElem?_eq_some_iff.mp hj
  obtain ⟨hltk, rfl⟩ := List.getElem?_eq_some_iff.mp hk
  refine ⟨(b.lanes.set j b.lanes[k]).set k b.lanes[j], List.set_set_perm hltj hltk, ?_⟩
  unfold State.setLane
  dsimp only
  rw [List.modify_modify_eq, modify_eq_set hb]
  rfl

/-- An exchange in place reorders the lanes of a bucket at most. -/
theorem exchange_inPlace (h : x.InPlace) : s.exchange x = s ∨ ∃ i b lanes,
    s.runtime.buckets[i]? = some b ∧ lanes.Perm b.lanes ∧
      s.exchange x = { s with runtime := s.runtime.setBucket i { b with lanes := lanes } } := by
  cases x with
  | bucket i other => exact h.elim
  | lane p other => exact h.elim
  | buckets i j =>
    obtain rfl : i = j := h
    refine .inl ?_
    simp only [State.exchange]
    cases hb : s.runtime.buckets[i]? with
    | none => rfl
    | some b =>
      have hself : (s.runtime.setBucket i b).setBucket i b = s.runtime := by
        rw [setBucket_self hb, setBucket_self hb]
      exact congrArg (fun r => { s with runtime := r }) hself
  | lanes p q =>
    simp only [State.exchange]
    cases p with
    | bucket i j => cases q with
      | run l => exact h.elim
      | bucket i' k =>
        obtain rfl : i = i' := h
        cases hb : s.runtime.buckets[i]? with
        | none => exact .inl (by simp [State.laneAt, hb])
        | some b => cases hj : b.lanes[j]? with
          | none => exact .inl (by simp [State.laneAt, hb, hj])
          | some lane => cases hk : b.lanes[k]? with
            | none => exact .inl (by simp [State.laneAt, hb, hj, hk])
            | some lane' =>
              obtain ⟨lanes, hperm, he⟩ := swapLanes_eq hb hj hk
              refine .inr ⟨i, b, lanes, hb, hperm, ?_⟩
              simpa only [State.laneAt, hb, Option.bind_some, hj, hk] using he
    | run k => cases q with
      | bucket i j => exact h.elim
      | run l =>
        obtain rfl : k = l := h
        refine .inl ?_
        cases hl : s.laneAt (.run k) with
        | none => rfl
        | some lane =>
          obtain ⟨hrun, -⟩ := Option.filter_eq_some_iff.mp hl
          obtain ⟨run, hk, rfl⟩ := Option.map_eq_some_iff.mp hrun
          obtain ⟨hlt, rfl⟩ := List.getElem?_eq_some_iff.mp hk
          unfold State.setLane
          dsimp only
          rw [List.modify_modify_eq, modify_eq_set hk]
          exact congrArg (State.mk s.runtime) (List.set_getElem_self hlt)

/-- An exchange that keeps the buckets in place is a change of lanes. -/
theorem exchange_stable {R : DynamicIoRuntime ins outs → DynamicIoRuntime ins outs → Prop}
    (hR : LaneStable R) (h : x.KeepsBuckets) : R s.runtime (s.exchange x).runtime := by
  have hset : ∀ (s : State ins outs) lane p, R s.runtime (s.setLane lane p).runtime := by
    intro s lane p
    cases p with
    | bucket i j => exact hR.modify (fun _ => rfl) (fun _ => rfl) fun _ => rfl
    | run k => exact hR.refl
  cases x with
  | bucket i other => exact h.elim
  | buckets i j =>
    have hself : (Exchange.buckets i j : Exchange ins outs).InPlace := h
    rcases exchange_inPlace (s := s) hself with he | ⟨i, b, lanes, hb, -, he⟩ <;> rw [he]
    · exact hR.refl
    · exact hR.bucket hb rfl rfl rfl
  | lanes p q =>
    simp only [State.exchange]
    split
    · exact hR.trans (hset s _ p) (hset _ _ q)
    · exact hR.refl
  | lane p other =>
    simp only [State.exchange]
    split
    · exact hset s other p
    · exact hR.refl

theorem exchange_index (h : x.KeepsBuckets) : SameIndex s.runtime (s.exchange x).runtime :=
  exchange_stable stable_sameIndex.lanes h

theorem keepsBuckets_of_inPlace (h : x.InPlace) : x.KeepsBuckets := by
  cases x with
  | buckets i j => exact h
  | bucket i other => exact h.elim
  | lanes p q => trivial
  | lane p other => trivial

/-- The runs in which no bucket leaves its place. -/
abbrev SettledBuckets (f : Features) (ins outs : Nat) :
    Lts.System (State ins outs) (Op ins outs ⊕ Exchange ins outs) :=
  (lentLts f ins outs).restrict fun _ => Sum.elim (fun _ => True) Exchange.KeepsBuckets

theorem cached_settled (h : Lts.Reachable (SettledBuckets f ins outs) s) : Cached s.runtime := by
  refine Lts.invariant_beside (P := fun s => Cached s.runtime)
    (fun s hi => (cached_initial hi).1) ?_ ?_ h
  · rintro s a t hc - rfl
    exact cached_step hc
  · intro s x hc hx
    exact (exchange_index hx).shrinks.cached hc

theorem settled_of_reachable (h : Reachable f s) :
    Lts.Reachable (SettledBuckets f ins outs) s := by
  induction h with
  | initial h => exact .initial h
  | @step s t a _ h ih => exact .step (a := .inl a) ih ⟨trivial, h⟩

/-- Two cached buckets that are exchanged cannot be found by their ids any more. -/
theorem exchange_unresolved {b b' : ShapeBucket ins outs} (hc : Cached s.runtime) (hne : i ≠ j)
    (hi : s.runtime.buckets[i]? = some b) (hj : s.runtime.buckets[j]? = some b') :
    s.runtime.bucketIndex b.id = some i ∧
      (s.exchange (.buckets i j)).runtime.bucketIndex b.id = none := by
  have hid : s.runtime.bucketIds[i]? = some b.id := by
    simp [DynamicIoRuntime.bucketIds, hi]
  have hid' : s.runtime.bucketIds[j]? = some b'.id := by
    simp [DynamicIoRuntime.bucketIds, hj]
  have hentry := hc.indexed.entry i b.id hid
  have hdiffer : b'.id ≠ b.id := by
    intro he
    have hentry' := hc.indexed.entry j b'.id hid'
    rw [he, hentry] at hentry'
    simp [hne] at hentry'
  refine ⟨(preparedBucketIndex_iff hc.indexed).mpr hid, ?_⟩
  have hlt : i < s.runtime.bucketIds.length := (List.getElem?_eq_some_iff.mp hid).1
  have hnow : ((s.runtime.bucketIds.set i b'.id).set j b.id)[i]? = some b'.id := by
    rw [List.getElem?_set_ne hne.symm, List.getElem?_set_self hlt]
  have hexchange : (s.exchange (.buckets i j)).runtime.bucketIndex b.id = preparedBucketIndex
      s.runtime.toPreparedSlots ((s.runtime.bucketIds.set i b'.id).set j b.id) b.id := by
    simp only [State.exchange, hi, hj, DynamicIoRuntime.bucketIndex, DynamicIoRuntime.bucketIds,
      List.map_set]
  rw [hexchange, preparedBucketIndex, hentry]
  simp [Option.filter, hnow, hdiffer]

/-- Two buckets of one lane each. -/
def pairState : State 1 1 :=
  [Op.getOrCreateBucket unitKey true .success, .getOrCreateBucket pairKey true .success].foldl
    (step ⟨false, false⟩) ⟨.fresh 0 .sharedSession 1 (.new 2), []⟩

theorem pairState_reachable : Lts.Reachable (lentLts ⟨false, false⟩ 1 1) pairState := by
  have hinit : Initial ⟨false, false⟩
      (⟨.fresh 0 .sharedSession 1 (.new 2), []⟩ : State 1 1) :=
    ⟨0, .sharedSession, 1, .new 2, rfl, rfl⟩
  have h₀ := Lts.Reachable.initial (L := lentLts ⟨false, false⟩ 1 1) hinit
  have h₁ := h₀.ours (.getOrCreateBucket unitKey true .success) rfl
  exact h₁.ours (.getOrCreateBucket pairKey true .success) rfl

end Zrt.Dynamic
