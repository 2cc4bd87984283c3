import Zrt.Dynamic.Conservation
import Zrt.Lane.Outcome

/-! Enqueues and completions whose closure may unwind. -/
namespace Zrt.Dynamic

open Lane (Features Native)
open Lending (lentBy)

variable {ins outs : Nat} {α : Type}

/-- How a closure ends, or the call it was passed to. -/
inductive Exit (α : Type) where
  | returns (result : Except Error α)
  | unwinds

/-- What the closure of an enqueue leaves where it was lent a lane and how it ends, and the outcomes
of the run and of the fences behind it. -/
structure Enqueue (ins outs : Nat) where
  prepare : ServingLane ins outs → ServingLane ins outs
  prepared : Exit Unit
  run : Native
  fence : Native
  drop : Native

/-- A closure that leaves its lane in place. -/
structure EnqueueClosure where
  prepare : Script
  prepared : Exit Unit
  run : Native
  fence : Native
  drop : Native

def EnqueueClosure.enqueue (f : Features) (c : EnqueueClosure) : Enqueue ins outs :=
  ⟨fun lane => lane.play f c.prepare, c.prepared, c.run, c.fence, c.drop⟩

/-- What a call leaves behind, how it ends, and the lane that is destroyed on the way out. -/
structure Ending (ins outs : Nat) (α : Type) where
  runtime : DynamicIoRuntime ins outs
  exit : Exit α
  destroyed : Option (RecoveredDynamicLane ins outs)

def Result.ending (x : Result ins outs α) : Ending ins outs α := ⟨x.1, .returns x.2, none⟩

variable (f : Features) (r : DynamicIoRuntime ins outs)

/-- `enqueue_prepared`: as the closure unwinds, the local `lane` is dropped. `ServingLane::drop`
leaks a lane that its fence does not cover. -/
def enqueuePreparedEnding (bucketId : PreparedBucketId) (e : Enqueue ins outs) :
    Ending ins outs (OwnedDynamicIoRun ins outs) :=
  match e.prepared with
  | .returns prepared => (enqueueWith f r bucketId e.prepare prepared e.run e.fence).ending
  | .unwinds => match detachLane (reclaimDroppedRuns r).1 bucketId with
    | (r, .error error) => ⟨r, .returns (.error error), none⟩
    | (r, .ok (lane, bucketId)) =>
      let lane := e.prepare lane
      let lane := lane.after (Lane.finishInFlightBestEffort f lane.toServingLane e.drop)
      if lane.inFlight then ⟨{ r with leaked := ⟨lane, bucketId⟩ :: r.leaked }, .unwinds, none⟩
      else ⟨r, .unwinds, some ⟨lane, bucketId⟩⟩

/-- `enqueue_owned`. -/
def enqueueOwnedEnding (request : ShapeKey ins outs) (n : CreateNative) (e : Enqueue ins outs) :
    Ending ins outs (OwnedDynamicIoRun ins outs) :=
  match getOrCreateBucket f r request n with
  | (r, .error error) => ⟨r, .returns (.error error), none⟩
  | (r, .ok i) => match r.buckets[i]? with
    | some bucket => enqueuePreparedEnding f r bucket.id e
    | none => ⟨r, .returns (.error (.local
        "zrt: failed to access newly created dynamic shape bucket")), none⟩

/-- `complete_owned`: as the closure unwinds, the token is dropped, with the fence `drop`. -/
def completeOwnedEnding (run : OwnedDynamicIoRun ins outs) (n drop : Native)
    (consume : ServingLane ins outs → Exit α) : Ending ins outs α :=
  let (l, syncResult) := Lane.synchronizeOutputs f run.lane.toServingLane n
  let lane := run.lane.after l
  match syncResult, consume lane with
  | .ok (), .unwinds => ⟨dropOwned f r { run with lane := lane } drop, .unwinds, none⟩
  | .ok (), .returns result => (completeOwned f r run n fun _ => result).ending
  | .error error, _ => (completeOwned f r run n fun _ => .error error).ending

variable {f r} {r' : DynamicIoRuntime ins outs} {id : PreparedBucketId} {e : Enqueue ins outs}
  {c : EnqueueClosure} {lane lane' : ServingLane ins outs}
  {run : OwnedDynamicIoRun ins outs} {n drop : Native} {consume : ServingLane ins outs → Exit α}

/-- Every bucket has the lanes and the count it had. -/
def SameLanes (r r' : DynamicIoRuntime ins outs) : Prop :=
  ∀ (i : Nat) (b : ShapeBucket ins outs), r.buckets[i]? = some b → ∃ b', r'.buckets[i]? = some b' ∧
    b'.id = b.id ∧ b'.detachedLanes = b.detachedLanes ∧
      (b'.lanes.map fun l => l.origin).Perm (b.lanes.map fun l => l.origin)

/-- Once both have their dropped runs back, the bucket that the token's lane was away from has it
again, and counts one less. -/
def LaneBack (r r' : DynamicIoRuntime ins outs) (run : OwnedDynamicIoRun ins outs) : Prop :=
  ∃ b ∈ (reclaimDroppedRuns r).1.buckets, ∃ b' ∈ (reclaimDroppedRuns r').1.buckets,
    b.id = run.bucketId ∧ b'.id = run.bucketId ∧ b'.detachedLanes + 1 = b.detachedLanes ∧
      (b'.lanes.map fun l => l.origin).Perm (run.lane.origin :: b.lanes.map fun l => l.origin)

/-- `lane` is the one to enqueue on. -/
def Available (r : DynamicIoRuntime ins outs) (id : PreparedBucketId)
    (lane : ServingLane ins outs) : Prop :=
  ∃ i b, r.bucketIndex id = some i ∧ r.buckets[i]? = some b ∧
    b.detachedLanes + b.lanes.length = r.laneCount ∧ b.lanes.getLast? = some lane

/-- The enqueue leaks the lane that it took, as no fence covers it. -/
def Leaks (r : DynamicIoRuntime ins outs) (id : PreparedBucketId)
    (x : Ending ins outs (OwnedDynamicIoRun ins outs)) : Prop :=
  ∃ lane, Available (reclaimDroppedRuns r).1 id lane ∧
    ∃ d, x.runtime.leaked = d :: r.leaked ∧ d.lane.inFlight = true ∧ d.lane.origin = lane.origin

/-- The enqueue hands out a token, or leaves the buckets as they were, but for its lane that no
fence covers; a lane is not destroyed and still counted. -/
structure EnqueueRestores (r : DynamicIoRuntime ins outs) (id : PreparedBucketId)
    (x : Ending ins outs (OwnedDynamicIoRun ins outs)) : Prop where
  restored : (∀ run, x.exit ≠ .returns (.ok run)) → ¬ Leaks r id x →
    SameLanes (reclaimDroppedRuns r).1 x.runtime
  counted : x.destroyed.isSome → SameLanes (reclaimDroppedRuns r).1 x.runtime

/-- The closure leaves another lane in place of the one it was lent. -/
def Enqueue.Exchanges (e : Enqueue ins outs) (lane : ServingLane ins outs) : Prop :=
  (e.prepare lane).origin ≠ lane.origin

/-- No token comes of this lane. -/
def Enqueue.Fails (f : Features) (e : Enqueue ins outs) (lane : ServingLane ins outs) : Prop :=
  e.prepared ≠ .returns (.ok ()) ∨
    (Lane.runEnqueued f (e.prepare lane).toServingLane e.run).2 ≠ .ok ()

/-- The closure unwinds over a lane that is fenced, by the lane's drop if it was in flight. -/
def Enqueue.Destroys (f : Features) (e : Enqueue ins outs) (lane : ServingLane ins outs) : Prop :=
  e.prepared = .unwinds ∧
    (Lane.finishInFlightBestEffort f (e.prepare lane).toServingLane e.drop).inFlight = false

/-- No token comes of the enqueue, and its closure has left another lane in place of the one it was
lent, or was unwinding over one that is fenced. -/
def Harms (f : Features) (r : DynamicIoRuntime ins outs) (id : PreparedBucketId)
    (e : Enqueue ins outs) : Prop :=
  ∃ lane, Available (reclaimDroppedRuns r).1 id lane ∧ e.Fails f lane ∧
    (e.Exchanges lane ∨ e.Destroys f lane)

/-- The completion brings the lane back, but for one that no fence covers. -/
structure CompleteRestores (r : DynamicIoRuntime ins outs) (run : OwnedDynamicIoRun ins outs)
    (x : Ending ins outs α) : Prop where
  restored : x.runtime.leaked = r.leaked → LaneBack r x.runtime run
  counted : x.destroyed = none

theorem SameLanes.refl : SameLanes r r := fun _ b hb => ⟨b, hb, rfl, rfl, .rfl⟩

/-- Taking a lane back undoes giving it out, if it is the same lane. -/
theorem sameLanes_takeBack_iff (lane' : ServingLane ins outs) {i : Nat}
    {b : ShapeBucket ins outs} (hb : r.buckets[i]? = some b) (hl : b.lanes.getLast? = some lane) :
    SameLanes r ((r.setBucket i b.giveOut).setBucket i (b.giveOut.takeBack lane')) ↔
      lane'.origin = lane.origin := by
  have hlt : i < r.buckets.length := (List.getElem?_eq_some_iff.mp hb).1
  have hlanes : b.lanes.dropLast ++ [lane] = b.lanes := List.dropLast_append_getLast? lane hl
  have horigins : (b.lanes.map fun l => l.origin) =
      (b.lanes.dropLast.map fun l => l.origin) ++ [lane.origin] := by
    conv_lhs => rw [← hlanes]
    exact List.map_append
  have hback : ((b.giveOut.takeBack lane').lanes.map fun l => l.origin) =
      (b.lanes.dropLast.map fun l => l.origin) ++ [lane'.origin] := List.map_append
  constructor
  · intro h
    obtain ⟨b', hb', -, -, hperm⟩ := h i b hb
    have hat : ((r.setBucket i b.giveOut).setBucket i (b.giveOut.takeBack lane')).buckets[i]? =
        some (b.giveOut.takeBack lane') := by
      simp [DynamicIoRuntime.setBucket, hlt]
    obtain rfl := Option.some.inj (hat.symm.trans hb')
    rw [hback, horigins, List.perm_append_left_iff] at hperm
    exact List.singleton_perm_singleton.mp hperm
  · intro ho j c hc
    by_cases he : i = j
    · subst he
      obtain rfl := Option.some.inj (hb.symm.trans hc)
      refine ⟨b.giveOut.takeBack lane', ?_, rfl, rfl, ?_⟩
      · simp [DynamicIoRuntime.setBucket, hlt]
      · rw [hback, horigins, ho]
    · refine ⟨c, ?_, rfl, rfl, .rfl⟩
      simp [DynamicIoRuntime.setBucket, List.getElem?_set_ne he, hc]

/-- A bucket that still misses a lane is not as it was. -/
theorem not_sameLanes_giveOut {i : Nat} {b : ShapeBucket ins outs} (hb : r.buckets[i]? = some b)
    (hr : r'.buckets = (r.setBucket i b.giveOut).buckets) : ¬ SameLanes r r' := by
  intro h
  obtain ⟨b', hb', -, hcount, -⟩ := h i b hb
  have hlt : i < r.buckets.length := (List.getElem?_eq_some_iff.mp hb).1
  have hat : r'.buckets[i]? = some b.giveOut := by
    simp [hr, DynamicIoRuntime.setBucket, hlt]
  obtain rfl := Option.some.inj (hat.symm.trans hb')
  exact absurd hcount (Nat.succ_ne_self _)

theorem reclaimReady_leaked {ready : List Nat} : (reclaimReady r ready).1.leaked = r.leaked := by
  induction ready generalizing r with
  | nil => rfl
  | cons slot ready ih =>
    simp only [reclaimReady]
    rw [ih]
    rcases reclaimSlot_cases { r with recovery := { r.recovery with ready := ready } } slot with
      ⟨-, h⟩ | ⟨d, -, ⟨-, h⟩ | ⟨i, b, -, -, -, -, h⟩⟩ <;> rw [h] <;> rfl

theorem reclaim_leaked : (reclaimDroppedRuns r).1.leaked = r.leaked := reclaimReady_leaked

theorem available_unique (h : Available r id lane) (h' : Available r id lane') : lane' = lane := by
  obtain ⟨i, b, hi, hb, -, hl⟩ := h
  obtain ⟨i', b', hi', hb', -, hl'⟩ := h'
  obtain rfl := Option.some.inj (hi.symm.trans hi')
  obtain rfl := Option.some.inj (hb.symm.trans hb')
  exact Option.some.inj (hl'.symm.trans hl)

/-- A lane is detached if there is one, and returning it cannot fail. -/
theorem detachLane_outcomes (r : DynamicIoRuntime ins outs) (id : PreparedBucketId) :
    ((∀ lane, ¬ Available r id lane) ∧ ∃ e, detachLane r id = (r, .error e)) ∨
    ∃ i b lane, Available r id lane ∧ r.buckets[i]? = some b ∧ b.id = id ∧
      b.lanes.getLast? = some lane ∧ detachLane r id = (r.setBucket i b.giveOut, .ok (lane, id)) ∧
      ∀ lane', returnDetachedLane (r.setBucket i b.giveOut) id lane' =
        ((r.setBucket i b.giveOut).setBucket i (b.giveOut.takeBack lane'), .ok ()) := by
  by_cases ha : ∃ lane, Available r id lane
  · obtain ⟨lane, i, b, hi, hb, hsum, hl⟩ := ha
    obtain ⟨b', hb', rfl⟩ := bucketIndex_some hi
    obtain rfl := Option.some.inj (hb.symm.trans hb')
    have hlt : i < r.buckets.length := (List.getElem?_eq_some_iff.mp hb).1
    have hdetach : detachLane r b.id = (r.setBucket i b.giveOut, .ok (lane, b.id)) := by
      simp [detachLane, hi, hb, hsum, hl, DynamicIoRuntime.setBucket, ShapeBucket.giveOut]
    have hidx : (r.setBucket i b.giveOut).bucketIndex b.id = some i := by
      have hs : SameIndex r (r.setBucket i b.giveOut) := sameIndex_set hb rfl
      rw [DynamicIoRuntime.bucketIndex, hs.slots, hs.ids]
      exact hi
    have hat : (r.setBucket i b.giveOut).buckets[i]? = some b.giveOut := by
      simp [DynamicIoRuntime.setBucket, hlt]
    have hroom : b.giveOut.lanes.length < r.laneCount := by
      have hne : b.lanes ≠ [] := fun hnil => by simp [hnil] at hl
      have hpos : 0 < b.lanes.length := List.length_pos_of_ne_nil hne
      simp only [ShapeBucket.giveOut, List.length_dropLast]
      omega
    refine .inr ⟨i, b, lane, ⟨i, b, hi, hb, hsum, hl⟩, hb, rfl, hl, hdetach, ?_⟩
    intro lane'
    rcases returnDetachedLane_cases (r.setBucket i b.giveOut) b.id lane' with
      ⟨hno, -⟩ | ⟨i', b', hi', hb', -, ⟨hfull, -⟩ | ⟨-, -, he⟩⟩
    · cases hno.symm.trans hidx
    · obtain rfl := Option.some.inj (hidx.symm.trans hi')
      obtain rfl := Option.some.inj (hat.symm.trans hb')
      rcases hfull with h0 | hfull
      · exact absurd h0 (Nat.succ_ne_zero _)
      · exact absurd hroom (Nat.not_lt.mpr hfull)
    · obtain rfl := Option.some.inj (hidx.symm.trans hi')
      obtain rfl := Option.some.inj (hat.symm.trans hb')
      exact he
  · refine .inl ⟨not_exists.mp ha, ?_⟩
    rcases detachLane_cases r id with h | ⟨i, b, lane, hi, hb, rfl, hl, h⟩
    · exact h
    · have hsum : b.detachedLanes + b.lanes.length ≠ r.laneCount := fun hsum =>
        ha ⟨lane, i, b, hi, hb, hsum, hl⟩
      exact ⟨_, by simp [detachLane, hi, hb, hsum]; rfl⟩

/-- What becomes of the lane of an enqueue: it is in a token, back in its bucket, leaked or
destroyed. -/
theorem enqueueEnding_cases {i : Nat} {b : ShapeBucket ins outs}
    (h : detachLane (reclaimDroppedRuns r).1 id =
      ((reclaimDroppedRuns r).1.setBucket i b.giveOut, .ok (lane, id)))
    (hback : ∀ lane', returnDetachedLane ((reclaimDroppedRuns r).1.setBucket i b.giveOut) id lane' =
      (((reclaimDroppedRuns r).1.setBucket i b.giveOut).setBucket i (b.giveOut.takeBack lane'),
        .ok ())) :
    (¬ e.Fails f lane ∧ ∃ run, enqueuePreparedEnding f r id e =
      ⟨(reclaimDroppedRuns r).1.setBucket i b.giveOut, .returns (.ok run), none⟩) ∨
    (e.Fails f lane ∧ ¬ e.Destroys f lane ∧ ∃ err lane', lane'.origin = (e.prepare lane).origin ∧
      enqueuePreparedEnding f r id e = ⟨((reclaimDroppedRuns r).1.setBucket i b.giveOut).setBucket i
        (b.giveOut.takeBack lane'), .returns (.error err), none⟩) ∨
    (e.Fails f lane ∧ ¬ e.Destroys f lane ∧ ∃ exit d, (∀ run, exit ≠ .returns (.ok run)) ∧
      d.lane.inFlight = true ∧ d.lane.origin = (e.prepare lane).origin ∧
      enqueuePreparedEnding f r id e =
        ⟨{ (reclaimDroppedRuns r).1.setBucket i b.giveOut with leaked := d :: r.leaked }, exit,
          none⟩) ∨
    (e.Fails f lane ∧ e.Destroys f lane ∧ ∃ d, enqueuePreparedEnding f r id e =
      ⟨(reclaimDroppedRuns r).1.setBucket i b.giveOut, .unwinds, some d⟩) := by
  have hleaked : ((reclaimDroppedRuns r).1.setBucket i b.giveOut).leaked = r.leaked :=
    reclaim_leaked
  unfold enqueuePreparedEnding Enqueue.Fails Enqueue.Destroys
  cases e.prepared with
  | returns prepared =>
    have hreturns : ¬ (Exit.returns prepared = .unwinds ∧ (Lane.finishInFlightBestEffort f
        (e.prepare lane).toServingLane e.drop).inFlight = false) := fun h => by cases h.1
    simp only [enqueueWith, h, Result.andThen, Result.ending]
    cases prepared with
    | error err =>
      simp only [hback]
      exact .inr (.inl ⟨.inl (by simp), hreturns, err, _, rfl, rfl⟩)
    | ok _ =>
      obtain ⟨l, err | ⟨⟩⟩ := Lane.runEnqueued f (e.prepare lane).toServingLane e.run
      · simp only [hback]
        cases hin : ((e.prepare lane).after (Lane.finishInFlightBestEffort f l e.fence)).inFlight
          with
        | true =>
          simp only [if_true, hleaked]
          exact .inr (.inr (.inl ⟨.inr (by simp), hreturns, _, _, by simp, hin, rfl, rfl⟩))
        | false =>
          simp only [Bool.false_eq_true, if_false]
          exact .inr (.inl ⟨.inr (by simp), hreturns, err,
            (e.prepare lane).after (Lane.finishInFlightBestEffort f l e.fence), rfl, rfl⟩)
      · exact .inl ⟨by simp, _, rfl⟩
  | unwinds =>
    simp only [h]
    cases hin : ((e.prepare lane).after (Lane.finishInFlightBestEffort f
        (e.prepare lane).toServingLane e.drop)).inFlight with
    | true =>
      simp only [if_true, hleaked]
      refine .inr (.inr (.inl ⟨.inl (by simp), fun h => ?_, _, _, by simp, hin, rfl, rfl⟩))
      exact Bool.false_ne_true (h.2.symm.trans hin)
    | false =>
      simp only [Bool.false_eq_true, if_false]
      exact .inr (.inr (.inr ⟨.inl (by simp), ⟨trivial, hin⟩, _, rfl⟩))

theorem harms_iff (ha : Available (reclaimDroppedRuns r).1 id lane) :
    Harms f r id e ↔ e.Fails f lane ∧ (e.Exchanges lane ∨ e.Destroys f lane) := by
  constructor
  · rintro ⟨lane', ha', hharm⟩
    obtain rfl := available_unique ha ha'
    exact hharm
  · exact fun hharm => ⟨lane, ha, hharm⟩

/-- An enqueue restores its bucket, unless its closure does harm. -/
theorem enqueuePrepared_iff :
    EnqueueRestores r id (enqueuePreparedEnding f r id e) ↔ ¬ Harms f r id e := by
  rcases detachLane_outcomes (reclaimDroppedRuns r).1 id with
    ⟨hno, err, h⟩ | ⟨i, b, lane, ha, hb, -, hl, h, hback⟩
  · refine ⟨fun _ ⟨lane, ha, _⟩ => hno lane ha, fun _ => ?_⟩
    have hsame : (enqueuePreparedEnding f r id e).runtime = (reclaimDroppedRuns r).1 := by
      unfold enqueuePreparedEnding
      split <;> simp only [enqueueWith, h, Result.andThen, Result.ending]
    have hrestored : SameLanes (reclaimDroppedRuns r).1
      (enqueuePreparedEnding f r id e).runtime := by
      rw [hsame]
      exact .refl
    exact ⟨fun _ _ => hrestored, fun _ => hrestored⟩
  · rw [harms_iff ha]
    rcases enqueueEnding_cases (f := f) (e := e) h hback with
      ⟨hok, run, he⟩ | ⟨hfails, hkept, err, lane', ho, he⟩ |
        ⟨hfails, hkept, exit, d, hexit, hin, ho, he⟩ | ⟨hfails, hgone, d, he⟩ <;> rw [he]
    · exact ⟨fun _ h => hok h.1, fun _ => ⟨fun hno _ => absurd rfl (hno run), by simp⟩⟩
    · have hsame := sameLanes_takeBack_iff lane' hb hl
      rw [ho] at hsame
      constructor
      · rintro hrestores ⟨-, hx | hx⟩
        · refine hx (hsame.mp (hrestores.restored (by simp) ?_))
          rintro ⟨_, -, d, hd, -⟩
          have hd : (reclaimDroppedRuns r).1.leaked = d :: r.leaked := hd
          rw [reclaim_leaked] at hd
          exact List.cons_ne_self _ _ hd.symm
        · exact hkept hx
      · refine fun hno => ⟨fun _ _ => hsame.mpr ?_, by simp⟩
        by_contra hx
        exact hno ⟨hfails, .inl hx⟩
    · constructor
      · rintro hrestores ⟨-, hx | hx⟩
        · refine not_sameLanes_giveOut hb rfl (hrestores.restored hexit ?_)
          rintro ⟨lane', ha', d', hd, -, ho'⟩
          obtain ⟨rfl, -⟩ := List.cons_eq_cons.mp hd
          rw [available_unique ha ha'] at ho'
          exact hx (ho.symm.trans ho')
        · exact hkept hx
      · refine fun hno => ⟨fun _ hleaks => ?_, by simp⟩
        refine absurd ⟨lane, ha, d, rfl, hin, ?_⟩ hleaks
        by_contra hx
        exact hno ⟨hfails, .inl fun h => hx (ho.trans h)⟩
    · constructor
      · exact fun hrestores => absurd (hrestores.counted rfl) (not_sameLanes_giveOut hb rfl)
      · exact fun hno => absurd ⟨hfails, .inr hgone⟩ hno

theorem reclaimReady_ready {ready : List Nat} (h : r.recovery.ready = ready) :
    (reclaimReady r ready).1.recovery.ready = [] := by
  induction ready generalizing r with
  | nil => exact h
  | cons slot ready ih =>
    simp only [reclaimReady]
    refine ih ?_
    rcases reclaimSlot_cases { r with recovery := { r.recovery with ready := ready } } slot with
      ⟨-, h⟩ | ⟨d, -, ⟨-, h⟩ | ⟨i, b, -, -, -, -, h⟩⟩ <;> rw [h] <;> rfl

variable {held : Multiset (PreparedBucketId × Tag ins outs)}
  {lost lost' : List (RecoveredDynamicLane ins outs)} {b b' : ShapeBucket ins outs}

/-- Once the dropped runs are back, only the leaked lanes and the lost ones are nowhere. -/
theorem Ledger.loans_reclaim (h : Ledger r held lost) : (reclaimDroppedRuns r).1.loans =
    ((r.leaked ++ lost).map RecoveredDynamicLane.loan :
      List (PreparedBucketId × Tag ins outs)) := by
  have hr := ledger_reclaim h
  have hempty : (reclaimDroppedRuns r).1.recovery.lanes = [] := by
    refine List.eq_nil_iff_forall_not_mem.mpr ?_
    intro d hd
    obtain ⟨slot, hslot⟩ := List.mem_iff_getElem?.mp (List.reduceOption_mem_iff.mp hd)
    have hm := (hr.stored.ready slot).mpr ⟨d, hslot⟩
    rw [show (reclaimDroppedRuns r).1.recovery.ready = [] from reclaimReady_ready rfl] at hm
    cases hm
  rw [DynamicIoRuntime.loans, hempty, reclaim_leaked, hr.lost, List.nil_append]

/-- A lane that is off the loans of its bucket is back in it. -/
theorem Ledger.laneBack (h : Ledger r (run.loan ::ₘ held) lost) (h' : Ledger r' held lost)
    (hs : SameIndex r r') (hleaked : r'.leaked = r.leaked) : LaneBack r r' run := by
  have hr := ledger_reclaim h
  have hr' := ledger_reclaim h'
  have hsame : SameIndex (reclaimDroppedRuns r).1 (reclaimDroppedRuns r').1 := by
    have h₁ : SameIndex r (reclaimDroppedRuns r).1 := sameIndex_reclaim
    have h₂ : SameIndex r (reclaimDroppedRuns r').1 := hs.trans sameIndex_reclaim
    exact ⟨h₂.name.trans h₁.name.symm, h₂.laneCount.trans h₁.laneCount.symm,
      h₂.options.trans h₁.options.symm, h₂.plan.trans h₁.plan.symm, h₂.slots.trans h₁.slots.symm,
      h₂.labels.trans h₁.labels.symm⟩
  obtain ⟨b, hb, hid, -⟩ := hr.source
    (show (run.bucketId, run.lane.tag) ∈ run.loan ::ₘ held + (reclaimDroppedRuns r).1.loans from
      Multiset.mem_add.mpr (.inl (Multiset.mem_cons_self _ _)))
  obtain ⟨b', hb', hlabel⟩ : ∃ b' ∈ (reclaimDroppedRuns r').1.buckets, b'.label = b.label := by
    have hm : b.label ∈ (reclaimDroppedRuns r').1.labels := by
      rw [hsame.labels]
      exact List.mem_map_of_mem hb
    exact List.mem_map.mp hm
  obtain ⟨hid', hkey⟩ := Prod.mk.inj hlabel
  have hstock : (reclaimDroppedRuns r').1.stock b' = (reclaimDroppedRuns r).1.stock b := by
    simp only [DynamicIoRuntime.stock, hsame.name, hsame.laneCount, hid', hkey]
  have hloans : (reclaimDroppedRuns r').1.loans = (reclaimDroppedRuns r).1.loans := by
    rw [h.loans_reclaim, h'.loans_reclaim, hleaked]
  obtain ⟨hitems, hlent⟩ := hr.balanced hb
  obtain ⟨hitems', hlent'⟩ := hr'.balanced hb'
  have hloan : run.loan = (b.id, run.lane.tag) := by rw [hid]; rfl
  simp only [DynamicIoRuntime.shelf, hloan, Multiset.cons_add, Lending.lentBy_cons_self,
    Multiset.card_cons] at hitems hlent
  simp only [DynamicIoRuntime.shelf, hloans, hid', hstock] at hitems' hlent'
  refine ⟨b, hb, b', hb', hid, hid'.trans hid, by omega, ?_⟩
  have htags : ((b'.lanes.map ServingLane.tag : List (Tag ins outs)) : Multiset (Tag ins outs)) =
      run.lane.tag ::ₘ (b.lanes.map ServingLane.tag : List (Tag ins outs)) := by
    have hsum := hitems'.trans hitems.symm
    rw [Multiset.add_cons, ← Multiset.cons_add] at hsum
    exact add_right_cancel hsum
  have hperm := (Multiset.coe_eq_coe.mp htags).map Prod.fst
  rw [List.map_map, List.map_cons, List.map_map] at hperm
  exact hperm

/-- A lane that moves from one loan to another is not back. -/
theorem Ledger.not_laneBack {d : RecoveredDynamicLane ins outs}
    (h : Ledger r (run.loan ::ₘ held) lost)
    (h' : Ledger r' held (d :: lost)) (hd : d.loan = run.loan) (hleaked : r'.leaked = r.leaked) :
    ¬ LaneBack r r' run := by
  rintro ⟨b, hb, b', hb', hid, hid', hcount, -⟩
  have hlent := ((ledger_reclaim h).balanced hb).lent
  have hlent' := ((ledger_reclaim h').balanced hb').lent
  simp only [DynamicIoRuntime.shelf] at hlent hlent'
  rw [h.loans_reclaim, hid] at hlent
  rw [h'.loans_reclaim, hid', hleaked] at hlent'
  have hloans : run.loan ::ₘ held + ((r.leaked ++ lost).map RecoveredDynamicLane.loan :
      List (PreparedBucketId × Tag ins outs)) = held + ((r.leaked ++ d :: lost).map
        RecoveredDynamicLane.loan : List (PreparedBucketId × Tag ins outs)) := by
    have hperm : ((r.leaked ++ d :: lost).map RecoveredDynamicLane.loan).Perm
        (run.loan :: (r.leaked ++ lost).map RecoveredDynamicLane.loan) :=
      hd ▸ (List.perm_middle.map RecoveredDynamicLane.loan)
    rw [Multiset.coe_eq_coe.mpr hperm, ← Multiset.cons_coe, Multiset.add_cons, Multiset.cons_add]
  rw [hloans] at hlent
  omega

/-- The token's lane after its owner's last synchronization. -/
def OwnedDynamicIoRun.synchronized (f : Features) (run : OwnedDynamicIoRun ins outs) (n : Native) :
    ServingLane ins outs :=
  run.lane.after (Lane.synchronizeOutputs f run.lane.toServingLane n).1

/-- The closure of a completion unwinds, and its lane has no recovery cell. -/
def UnwindsBeyond (f : Features) (r : DynamicIoRuntime ins outs) (run : OwnedDynamicIoRun ins outs)
    (n : Native) (consume : ServingLane ins outs → Exit α) : Prop :=
  (Lane.synchronizeOutputs f run.lane.toServingLane n).2 = .ok () ∧
    consume (run.synchronized f n) = .unwinds ∧
    ∀ slot, run.lane.recoverySlot = some slot → r.recovery.slots.length ≤ slot

/-- A completion ends with the token's drop, or as one whose closure returns. -/
theorem completeOwnedEnding_cases (r : DynamicIoRuntime ins outs) (run : OwnedDynamicIoRun ins outs)
    (n drop : Native) (consume : ServingLane ins outs → Exit α) :
    ((Lane.synchronizeOutputs f run.lane.toServingLane n).2 = .ok () ∧
      consume (run.synchronized f n) = .unwinds ∧ completeOwnedEnding f r run n drop consume =
        ⟨dropOwned f r { run with lane := run.synchronized f n } drop, .unwinds, none⟩) ∨
    (¬ UnwindsBeyond f r run n consume ∧ ∃ result,
      completeOwnedEnding f r run n drop consume = (completeOwned f r run n fun _ =>
        result).ending) := by
  unfold completeOwnedEnding UnwindsBeyond
  dsimp only
  rw [show run.lane.after (Lane.synchronizeOutputs f run.lane.toServingLane n).1 =
    run.synchronized f n from rfl]
  cases (Lane.synchronizeOutputs f run.lane.toServingLane n).2 with
  | error e => exact .inr ⟨fun h => (by cases h.1), _, rfl⟩
  | ok _ => cases consume (run.synchronized f n) with
    | returns result => exact .inr ⟨fun h => (by cases h.2.1), _, rfl⟩
    | unwinds => exact .inl ⟨rfl, rfl, rfl⟩

/-- The drop of a synchronized token: the lane is in its cell, or lost for want of one. -/
theorem ledger_dropSynchronized (drop : Native) (h : Ledger r (run.loan ::ₘ held) lost)
    (hsync : (Lane.synchronizeOutputs f run.lane.toServingLane n).2 = .ok ()) :
    ((∃ slot, run.lane.recoverySlot = some slot ∧ slot < r.recovery.slots.length) ∧
      Ledger (dropOwned f r { run with lane := run.synchronized f n } drop) held lost) ∨
    ((∀ slot, run.lane.recoverySlot = some slot → r.recovery.slots.length ≤ slot) ∧
      (dropOwned f r { run with lane := run.synchronized f n } drop).leaked = r.leaked ∧
      ∃ d, d.loan = run.loan ∧
        Ledger (dropOwned f r { run with lane := run.synchronized f n } drop) held
          (d :: lost)) := by
  have hin : (OwnedDynamicIoRun.fenced f { run with lane := run.synchronized f n } drop).inFlight =
      false := by
    have hl : (run.synchronized f n).toServingLane.inFlight = false :=
      Lane.synchronizeOutputs_ok hsync
    simp [OwnedDynamicIoRun.fenced, Lane.finishInFlightBestEffort, ServingLane.after, hl]
  have htag : (run.synchronized f n).tag = run.lane.tag := tag_after Lane.slot_synchronizeOutputs
  have hslot : (run.synchronized f n).recoverySlot = run.lane.recoverySlot := congrArg Prod.snd htag
  have h' : Ledger r (OwnedDynamicIoRun.loan { run with lane := run.synchronized f n } ::ₘ held)
      lost := h.used htag
  by_cases hcell : ∀ slot, run.lane.recoverySlot = some slot → r.recovery.slots.length ≤ slot
  · refine .inr ⟨hcell, ?_, _, ?_, ledger_dropOwned_beyond h' hin fun slot hs =>
      hcell slot (hslot.symm.trans hs)⟩
    · rw [dropOwned_eq, hin]
      split
      · contradiction
      · split <;> rfl
    · exact congrArg (Prod.mk run.bucketId) (fenced_tag.trans htag)
  · push Not at hcell
    obtain ⟨slot, hs, hlt⟩ := hcell
    exact .inl ⟨⟨slot, hs, hlt⟩, ledger_dropOwned h' fun _ => ⟨slot, hslot.trans hs, hlt⟩⟩

/-- A completion brings its lane back, unless its closure unwinds and the lane has no cell. -/
theorem completeOwned_iff (h : Ledger r (run.loan ::ₘ held) lost) :
    CompleteRestores r run (completeOwnedEnding f r run n drop consume) ↔
      ¬ UnwindsBeyond f r run n consume := by
  rcases completeOwnedEnding_cases (f := f) r run n drop consume with
    ⟨hsync, hunwinds, he⟩ | ⟨hno, result, he⟩ <;> rw [he]
  · rcases ledger_dropSynchronized drop h hsync with
      ⟨⟨slot, hs, hlt⟩, hl⟩ | ⟨hcell, hleaked, d, hd, hl⟩
    · refine ⟨fun _ hbeyond => ?_, fun _ => ⟨fun hleaked => ?_, rfl⟩⟩
      · exact absurd (hbeyond.2.2 slot hs) (Nat.not_le.mpr hlt)
      · exact h.laneBack hl sameIndex_dropOwned hleaked
    · refine ⟨?_, fun hno => absurd ⟨hsync, hunwinds, hcell⟩ hno⟩
      intro hrestores
      exact absurd (hrestores.restored hleaked) (h.not_laneBack hl hd hleaked)
  · refine ⟨fun _ => hno, fun _ => ⟨fun hleaked => ?_, rfl⟩⟩
    exact h.laneBack (ledger_completeOwned h) sameIndex_completeOwned hleaked

theorem ledger_completeOwnedEnding (n drop : Native)
    (consume : ServingLane ins outs → Exit α) (h : Ledger r (run.loan ::ₘ held) lost) :
    (completeOwnedEnding f r run n drop consume).destroyed = none ∧
      ∃ lost', Ledger (completeOwnedEnding f r run n drop consume).runtime held lost' := by
  rcases completeOwnedEnding_cases (f := f) r run n drop consume with
    ⟨hsync, -, he⟩ | ⟨-, result, he⟩ <;> rw [he]
  · rcases ledger_dropSynchronized drop h hsync with ⟨-, hl⟩ | ⟨-, -, d, -, hl⟩
    · exact ⟨rfl, lost, hl⟩
    · exact ⟨rfl, d :: lost, hl⟩
  · exact ⟨rfl, lost, ledger_completeOwned h⟩

/-- An enqueue whose closure unwinds over a lane in place has the lane destroyed or leaked. -/
theorem ledger_enqueueUnwinds (id : PreparedBucketId) (h : Ledger r held lost)
    (hc : c.prepared = .unwinds) :
    ((∀ run, (enqueuePreparedEnding f r id (c.enqueue f)).exit ≠ .returns (.ok run)) ∧
      (enqueuePreparedEnding f r id (c.enqueue f)).destroyed = none ∧
      Ledger (enqueuePreparedEnding f r id (c.enqueue f)).runtime held lost) ∨
    ∃ d, (enqueuePreparedEnding f r id (c.enqueue f)).exit = .unwinds ∧
      (enqueuePreparedEnding f r id (c.enqueue f)).destroyed = some d ∧
      Ledger (enqueuePreparedEnding f r id (c.enqueue f)).runtime (d.loan ::ₘ held) lost := by
  unfold enqueuePreparedEnding
  simp only [EnqueueClosure.enqueue, hc]
  have hdetach := ledger_detachLane id (ledger_reclaim h)
  revert hdetach
  obtain ⟨r₁, e | ⟨lane, id'⟩⟩ := detachLane (reclaimDroppedRuns r).1 id
  · rintro (⟨-, hl⟩ | ⟨lane, hno, -⟩)
    · exact .inl ⟨by simp, rfl, hl⟩
    · cases hno
  · rintro (⟨⟨e, hno⟩, -⟩ | ⟨lane', hid, hl⟩)
    · cases hno
    · obtain ⟨rfl, rfl⟩ := Prod.mk.inj (Except.ok.inj hid)
      have hslot := Lane.slot_finishInFlightBestEffort (f := f) (n := c.drop)
        (l := (lane.play f c.prepare).toServingLane)
      have hfence := (hl.used tag_play).used (tag_after hslot)
      dsimp only
      cases hin : ((lane.play f c.prepare).after (Lane.finishInFlightBestEffort f
          (lane.play f c.prepare).toServingLane c.drop)).inFlight with
      | true =>
        simp only [if_true]
        exact .inl ⟨by simp, trivial, ledger_leak (d := ⟨_, id'⟩) hfence hin⟩
      | false =>
        simp only [Bool.false_eq_true, if_false]
        exact .inr ⟨_, trivial, rfl, hfence⟩

theorem Stable.enqueuePreparedEnding {R : DynamicIoRuntime ins outs →
    DynamicIoRuntime ins outs → Prop}
    (hR : Stable R) : R r (enqueuePreparedEnding f r id (c.enqueue f)).runtime := by
  unfold Dynamic.enqueuePreparedEnding
  split
  · exact hR.lanes.enqueuePrepared r id ⟨c.prepare, _, c.run, c.fence⟩
  · have h := hR.trans hR.lanes.reclaim (hR.lanes.detachLane (reclaimDroppedRuns r).1 id)
    revert h
    obtain ⟨r₁, e | ⟨lane, id'⟩⟩ := Dynamic.detachLane (reclaimDroppedRuns r).1 id
    · exact fun h => h
    · intro h
      dsimp only
      split
      · exact hR.trans h (hR.rest _ _ _ _ _)
      · exact h

theorem Stable.completeOwnedEnding {R : DynamicIoRuntime ins outs →
    DynamicIoRuntime ins outs → Prop}
    (hR : Stable R) : R r (completeOwnedEnding f r run n drop consume).runtime := by
  rcases completeOwnedEnding_cases (f := f) r run n drop consume with
    ⟨-, -, he⟩ | ⟨-, result, he⟩ <;> rw [he]
  · exact hR.lanes.dropOwned
  · exact hR.lanes.completeOwned

/-- A runtime with its tokens, and the lanes that unwinding closures have destroyed. -/
structure UnwindState (ins outs : Nat) extends State ins outs where
  destroyed : List (RecoveredDynamicLane ins outs)

/-- The calls, and those whose closure may unwind over a lane in place. An `enqueue_owned` is a
bucket request and an enqueue. -/
inductive UnwindOp (ins outs : Nat) where
  | call (a : Op ins outs)
  | enqueuePrepared (bucketId : PreparedBucketId) (c : EnqueueClosure)
  | completeOwned (k : Nat) (n drop : Native) (consume : ServingLane ins outs → Exit Unit)

def unwindStep (f : Features) (s : UnwindState ins outs) : UnwindOp ins outs → UnwindState ins outs
  | .call a => { s with toState := step f s.toState a }
  | .enqueuePrepared bucketId c =>
    let x := enqueuePreparedEnding f s.runtime bucketId (c.enqueue f)
    { runtime := x.runtime
      runs := match x.exit with
        | .returns (.ok run) => run :: s.runs
        | _ => s.runs
      destroyed := x.destroyed.toList ++ s.destroyed }
  | .completeOwned k n drop consume => match s.runs[k]? with
    | none => s
    | some run =>
      let x := completeOwnedEnding f s.runtime run n drop consume
      { runtime := x.runtime
        runs := s.runs.eraseIdx k
        destroyed := x.destroyed.toList ++ s.destroyed }

def unwindLts (f : Features) (ins outs : Nat) :
    Lts.System (UnwindState ins outs) (UnwindOp ins outs) :=
  Lts.System.ofNext (fun s => Initial f s.toState ∧ s.destroyed = []) (unwindStep f)

/-- The lanes destroyed, on the books of the buckets they were taken from. -/
def UnwindState.debts (s : UnwindState ins outs) : Multiset (PreparedBucketId × Tag ins outs) :=
  (s.destroyed.map RecoveredDynamicLane.loan : List (PreparedBucketId × Tag ins outs))

variable {s : UnwindState ins outs} {a : UnwindOp ins outs}

/-- Every call keeps the books, whatever closures do and whoever else holds lanes. -/
theorem ledger_unwindStep (h : Ledger s.runtime (s.tokens + (s.debts + held)) lost) :
    ∃ lost', Ledger (unwindStep f s a).runtime
      ((unwindStep f s a).tokens + ((unwindStep f s a).debts + held)) lost' := by
  cases a with
  | call a =>
    by_cases hd : DropsBeyond f s.toState a
    · obtain ⟨d, hl⟩ := ledger_dropsBeyond h hd
      exact ⟨d :: lost, hl⟩
    · exact ⟨lost, ledger_step_held h hd⟩
  | enqueuePrepared id c =>
    cases hc : c.prepared with
    | returns prepared =>
      have hcall : unwindStep f s (.enqueuePrepared id c) =
          unwindStep f s (.call (.enqueuePrepared id ⟨c.prepare, prepared, c.run, c.fence⟩)) := by
        simp only [unwindStep, enqueuePreparedEnding, EnqueueClosure.enqueue, hc, step,
          enqueuePrepared, Result.ending]
        obtain ⟨r', e | run⟩ :=
          enqueueWith f s.runtime id (fun lane => lane.play f c.prepare) prepared
          c.run c.fence <;> rfl
      rw [hcall]
      refine ⟨lost, ledger_step_held h ?_⟩
      rintro ⟨k, n, run, hno, -⟩
      cases hno
    | unwinds =>
      refine ⟨lost, ?_⟩
      rcases ledger_enqueueUnwinds (f := f) id h hc with
        ⟨hexit, hnone, hl⟩ | ⟨d, hexit, hsome, hl⟩
      · simp only [unwindStep, hnone]
        revert hexit
        obtain ⟨e | run⟩ | _ := (enqueuePreparedEnding f s.runtime id (c.enqueue f)).exit
        · exact fun _ => hl
        · exact fun hexit => absurd rfl (hexit run)
        · exact fun _ => hl
      · simp only [unwindStep, hexit, hsome]
        rw [← Multiset.add_cons, ← Multiset.cons_add] at hl
        exact hl
  | completeOwned k n drop consume =>
    cases hk : s.runs[k]? with
    | none =>
      simp only [unwindStep, hk]
      exact ⟨lost, h⟩
    | some run =>
      rw [tokens_erase hk, Multiset.cons_add] at h
      obtain ⟨hnone, lost', hl⟩ := ledger_completeOwnedEnding (f := f) n drop consume h
      refine ⟨lost', ?_⟩
      simp only [unwindStep, hk, hnone]
      exact hl

/-- What the caller exchanges among what the runtime and the tokens lend it. -/
def UnwindState.exchange (s : UnwindState ins outs) (x : Exchange ins outs) :
    UnwindState ins outs :=
  { s with toState := s.toState.exchange x }

theorem ledger_unwindReachable (h : Lts.Reachable (((unwindLts f ins outs).beside
    UnwindState.exchange).restrict fun _ => Sum.elim (fun _ => True) Exchange.InPlace) s) :
    ∃ lost, Ledger s.runtime (s.tokens + s.debts) lost := by
  refine Lts.invariant_beside (P := fun s => ∃ lost, Ledger s.runtime (s.tokens + s.debts) lost)
    ?_ ?_ ?_ h
  · intro s hi
    have hdebts : s.debts = 0 := by
      rw [UnwindState.debts, hi.2]
      rfl
    refine ⟨[], ?_⟩
    rw [hdebts, add_zero]
    exact ledger_initial hi.1
  · rintro s a t ⟨lost, hl⟩ - rfl
    have h0 : Ledger s.runtime (s.tokens + (s.debts + 0)) lost := by rwa [add_zero]
    obtain ⟨lost', hl'⟩ := ledger_unwindStep (f := f) (a := a) h0
    rw [add_zero] at hl'
    exact ⟨lost', hl'⟩
  · rintro s x ⟨lost, hl⟩ hx
    exact ⟨lost, ledger_exchange hl hx⟩

/-- Whatever closures have done before: an enqueue leaves its bucket as it was, or without a lane
that is in the token or that no fence covers, unless its closure does harm; a completion brings its
lane back, or leaks it unfenced, unless its closure unwinds and the lane has no recovery cell, as
long as nothing lent was exchanged but the lanes of one bucket. -/
theorem closures_restore :
    (∀ (r : DynamicIoRuntime ins outs) id e,
      EnqueueRestores r id (enqueuePreparedEnding f r id e) ↔ ¬ Harms f r id e) ∧
    (∀ (r : DynamicIoRuntime ins outs) request n e r' i,
      getOrCreateBucket f r request n = (r', .ok i) → ∀ b, r'.buckets[i]? = some b →
        (EnqueueRestores r' b.id (enqueueOwnedEnding f r request n e) ↔ ¬ Harms f r' b.id e)) ∧
    ∀ s : UnwindState ins outs, Lts.Reachable (((unwindLts f ins outs).beside
        UnwindState.exchange).restrict fun _ => Sum.elim (fun _ => True) Exchange.InPlace) s →
      ∀ run ∈ s.runs, ∀ (α : Type) (n drop : Native) (consume : ServingLane ins outs → Exit α),
        CompleteRestores s.runtime run (completeOwnedEnding f s.runtime run n drop consume) ↔
          ¬ UnwindsBeyond f s.runtime run n consume := by
  refine ⟨fun r id e => enqueuePrepared_iff, ?_, ?_⟩
  · intro r request n e r' i hr b hb
    simp only [enqueueOwnedEnding, hr, hb]
    exact enqueuePrepared_iff
  · intro s hs run hrun α n drop consume
    obtain ⟨lost, hl⟩ := ledger_unwindReachable hs
    obtain ⟨k, hk⟩ := List.mem_iff_getElem?.mp hrun
    rw [tokens_erase hk, Multiset.cons_add] at hl
    exact completeOwned_iff hl

/-- A runtime with one bucket of two lanes, both in it. -/
def idleState : UnwindState 1 1 :=
  unwindStep ⟨false, false⟩ ⟨⟨emptyRuntime 1 1 2 ⟨[], []⟩ 0, []⟩, []⟩
    (.call (.getOrCreateBucket unitKey true .success))

theorem idleState_reachable : Lts.Reachable ((unwindLts ⟨false, false⟩ 1 1).restrict
    fun _ _ => True) idleState :=
  .step (.initial ⟨emptyRuntime_initial (by decide) (by decide), rfl⟩) ⟨trivial, rfl⟩

/-- A closure that leaves `prepare lane` and ends so, before calls that succeed. -/
def Enqueue.ending (prepare : ServingLane 1 1 → ServingLane 1 1) (prepared : Exit Unit) :
    Enqueue 1 1 := ⟨prepare, prepared, .success, .success, .success⟩

theorem closures_restore_error :
    EnqueueRestores idleState.runtime ⟨0, 1⟩ (enqueuePreparedEnding ⟨false, false⟩ idleState.runtime
      ⟨0, 1⟩ (.ending (fun lane => lane) (.returns (.error (.local "zrt: not prepared"))))) ∧
    ∃ s : UnwindState 1 1, ∃ run ∈ s.runs, CompleteRestores s.runtime run (completeOwnedEnding
      ⟨false, false⟩ s.runtime run .success .success fun _ => (.unwinds : Exit Unit)) := by
  constructor
  · refine (closures_restore.1 _ ⟨0, 1⟩ _).mpr ?_
    rintro ⟨lane, -, -, hx | hx⟩
    · exact hx rfl
    · cases hx.1
  · have h₁ := idleState_reachable.step (a := .call (.enqueuePrepared ⟨0, 1⟩ .success))
      ⟨trivial, rfl⟩
    refine ⟨_, _, List.mem_cons_self, ((closures_restore.2.2 _ (Lts.reachable_beside h₁)) _
      List.mem_cons_self Unit _ _ _).mpr ?_⟩
    rintro ⟨-, -, hbeyond⟩
    exact absurd (hbeyond 1 rfl) (by decide)

/-- The lane of another runtime. -/
def otherLane : ServingLane 1 1 := ⟨.new none, ⟨1, unitKey, ⟨0, 1⟩, 0⟩⟩

/-- The closure of an enqueue unwinds: its lane is destroyed, and the bucket counts it forever. Or
it leaves another lane in place of its own and returns an error: the bucket has that one. And after
an exchange of its bucket a token cannot return its lane. -/
theorem closures_restore_fails :
    (Lts.Reachable ((unwindLts ⟨false, false⟩ 1 1).restrict fun _ _ => True) idleState ∧
      ¬ EnqueueRestores idleState.runtime ⟨0, 1⟩ (enqueuePreparedEnding ⟨false, false⟩
        idleState.runtime ⟨0, 1⟩ (.ending (fun lane => lane) .unwinds)) ∧
      ¬ EnqueueRestores idleState.runtime ⟨0, 1⟩ (enqueuePreparedEnding ⟨false, false⟩
        idleState.runtime ⟨0, 1⟩ (.ending (fun _ => otherLane)
          (.returns (.error (.local "zrt: not prepared")))))) ∧
    ∃ s : UnwindState 1 1, Lts.Reachable ((unwindLts ⟨false, false⟩ 1 1).beside
        UnwindState.exchange) s ∧ ∃ run ∈ s.runs, ¬ CompleteRestores s.runtime run
          (completeOwnedEnding ⟨false, false⟩ s.runtime run .success .success
            fun _ => Exit.returns (.ok ())) := by
  refine ⟨⟨idleState_reachable, ?_, ?_⟩, ?_⟩
  · intro h
    exact enqueuePrepared_iff.mp h ⟨_, ⟨0, _, rfl, rfl, rfl, rfl⟩, .inl (by simp [Enqueue.ending]),
      .inr ⟨rfl, rfl⟩⟩
  · intro h
    refine enqueuePrepared_iff.mp h ⟨_, ⟨0, _, rfl, rfl, rfl, rfl⟩,
      .inl (by simp [Enqueue.ending]), .inl fun ho => ?_⟩
    exact absurd (congrArg Origin.runtime ho) (by decide)
  · have hinit : (unwindLts ⟨false, false⟩ 1 1).Initial
        ⟨⟨.fresh 0 .sharedSession 1 (.new 2), []⟩, []⟩ :=
      ⟨⟨0, .sharedSession, 1, .new 2, rfl, rfl⟩, rfl⟩
    have h₀ := Lts.Reachable.initial (L := (unwindLts ⟨false, false⟩ 1 1).beside
      UnwindState.exchange) hinit
    have h₁ := h₀.ours (.call (.getOrCreateBucket unitKey true .success)) rfl
    have h₂ := h₁.ours (.call (.getOrCreateBucket pairKey true .success)) rfl
    have h₃ := h₂.ours (.call (.enqueuePrepared ⟨0, 1⟩ .success)) rfl
    have h₄ := h₃.theirs (.buckets 0 1)
    refine ⟨_, h₄, _, List.mem_cons_self, ?_⟩
    intro h
    obtain ⟨b, hb, b', hb', hid, hid', hcount, -⟩ := h.restored rfl
    revert b b'
    decide

end Zrt.Dynamic
