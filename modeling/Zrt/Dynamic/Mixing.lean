import Zrt.Dynamic.Exchange
import Zrt.Dynamic.Origins

/-! Runtimes whose tokens may be completed on each other. -/
namespace Zrt.Dynamic

open Lane (Features Native)

variable {ins outs : Nat} {f : Features} {r r' : DynamicIoRuntime ins outs} {s : State ins outs}
  {a : Op ins outs} {id id' : PreparedBucketId} {o : Origin ins outs}
  {lane : ServingLane ins outs} {run : OwnedDynamicIoRun ins outs} {request : ShapeKey ins outs}
  {n : Native} {i k : Nat}

/-- A lane of this origin was built by `r`, for the bucket of this id. -/
structure Own (r : DynamicIoRuntime ins outs) (id : PreparedBucketId) (o : Origin ins outs) :
    Prop where
  runtime : o.runtime = r.name
  bucketId : o.bucketId = id
  issued : Issued r.toPreparedSlots id
  key : ∀ x ∈ r.labels, x.1 = id → x.2 = o.key

theorem Own.shrinks (h : Own r id o) (hc : Cached r) (hs : Shrinks r r') : Own r' id o :=
  ⟨hs.name ▸ h.runtime, h.bucketId, hs.issued hc id h.issued, fun x hx => h.key x (hs.labels hx)⟩

/-- A new bucket has an id that no lane was built for. -/
theorem Own.inserts (h : Own r id o) (hi : Inserts r r' request) : Own r' id o := by
  refine ⟨hi.name ▸ h.runtime, h.bucketId, hi.issued id h.issued, ?_⟩
  intro x hx he
  rcases hi.labels x hx with hx | ⟨hno, -⟩
  · exact h.key x hx he
  · exact absurd (he ▸ h.issued) hno

theorem own_step (hc : Cached s.runtime) (h : Own s.runtime id o) :
    Own (step f s a).runtime id o := by
  rcases step_cases (f := f) s a with
    hs | ⟨plan, -, -, he⟩ | ⟨r', request, lanes, graphId, -, hs, hk, hlt, he⟩
  · exact h.shrinks hc hs
  · exact he ▸ ⟨h.runtime, h.bucketId, h.issued, h.key⟩
  · rw [he]
    exact (h.shrinks hc hs).inserts (insertBucket_spec lanes graphId (hs.cached hc) hk (hlt hc))

/-- Everything a runtime holds is its own. -/
structure Unmixed (r : DynamicIoRuntime ins outs) : Prop where
  cached : Cached r
  own : ∀ id o, Holds r id o → Own r id o

theorem Unmixed.shrinks (h : Unmixed r) (hs : Shrinks r r')
    (hn : ∀ id o, Holds r' id o → Holds r id o ∨ Own r id o) : Unmixed r' := by
  refine ⟨hs.cached h.cached, ?_⟩
  intro id o hh
  rcases hn id o hh with hh | ho
  · exact (h.own id o hh).shrinks h.cached hs
  · exact ho.shrinks h.cached hs

theorem holds_insertBucket {lanes : List Lane.ServingLane} {graphId : Option Int} (hc : Cached r)
    (hk : request ∉ r.keys) (hlt : r.buckets.length < r.options.maxBuckets)
    (h : Holds (insertBucket r request lanes graphId).1 id o) :
    Holds r id o ∨ Own (insertBucket r request lanes graphId).1 id o := by
  have hins := insertBucket_spec lanes graphId hc hk hlt
  rcases insertBucket_cases request lanes graphId hc.indexed with
    ⟨-, e, he⟩ | ⟨slots, id', ha, ⟨-, e, he⟩ | ⟨-, he⟩⟩ <;> rw [he] at h hins ⊢
  · exact .inl h
  · exact .inl h
  · rcases h with ⟨b, hb, rfl, l, hl, rfl⟩ | h
    · rcases List.mem_append.mp hb with hb | hb
      · exact .inl (.inl ⟨b, hb, rfl, l, hl, rfl⟩)
      · obtain rfl := List.mem_singleton.mp hb
        obtain ⟨j, hj, rfl⟩ := List.mem_mapIdx.mp hl
        have hids : (r.pushed slots (r.newBucket request id' lanes graphId)).bucketIds =
            r.bucketIds ++ [id'] := List.map_append
        have hlabels : (r.pushed slots (r.newBucket request id' lanes graphId)).labels =
            r.labels ++ [(id', request)] := List.map_append
        refine .inr ⟨rfl, rfl, hins.cached.indexed.issued ?_, ?_⟩
        · rw [hids]
          exact List.mem_append_right _ (List.mem_singleton.mpr rfl)
        · intro x hx hid
          rw [hlabels] at hx
          rcases List.mem_append.mp hx with hx | hx
          · -- the new id is not that of a cached bucket
            have hmem : id' ∈ r.bucketIds := by
              rw [← map_fst_labels]
              exact List.mem_map.mpr ⟨x, hx, hid⟩
            exact absurd (hc.indexed.issued hmem) ha.fresh
          · obtain rfl := List.mem_singleton.mp hx
            rfl
    · exact .inl (.inr h)

theorem unmixed_getOrCreate {allowCreate : Bool} {n : CreateNative} (h : Unmixed r) :
    Unmixed (getOrCreateBucketInner f r request allowCreate n).1 := by
  rcases getOrCreate_outcomes (f := f) r request allowCreate n with
    he | ⟨r₁, hl, he⟩ | ⟨r', lanes, hcr, he⟩ <;> rw [he]
  · have hn := noNew_of_within ((within_holds r).lookupBucket request allowCreate n.released)
    exact h.shrinks (sameIndex_lookupBucket r request allowCreate n.released).shrinks
      fun id o hh => .inl (hn id o hh)
  · have hlookup := noNew_of_within ((within_holds r).lookupBucket request allowCreate n.released)
    rw [hl] at hlookup
    have hn := hlookup.trans (noNew_of_within ((within_holds r₁).prepareBucket (f := f) n))
    exact h.shrinks ((shrinks_lookup hl).trans (shrinks_prepareBucket r₁ n))
      fun id o hh => .inl (hn id o hh)
  · obtain ⟨hs, hk, hroom⟩ := creates_shrinks hcr
    have hlt := hroom h.cached
    have hn := noNew_of_within ((within_holds r).creates hcr)
    have h' : Unmixed r' := h.shrinks hs fun id o hh => .inl (hn id o hh)
    have hins := insertBucket_spec lanes.1 lanes.2 h'.cached hk hlt
    refine ⟨hins.cached, ?_⟩
    intro id o hh
    rcases holds_insertBucket h'.cached hk hlt hh with hh | ho
    · exact (h'.own id o hh).inserts hins
    · exact ho

/-- An enqueued lane was in the bucket its token names. -/
theorem enqueuePrepared_holds (r : DynamicIoRuntime ins outs) (id : PreparedBucketId)
    (n : EnqueueNative) : NoNew r (enqueuePrepared f r id n).1 ∧ ∀ run,
    (enqueuePrepared f r id n).2 = .ok run → run.recovery = r.name ∧
      Holds r run.bucketId run.lane.origin := by
  obtain ⟨hn, hrun⟩ := (closed_origin (f := f)).enqueuePrepared (n := n) (fun _ _ => trivial)
    (within_holds r) id
  refine ⟨noNew_of_within hn, fun run h => ⟨?_, hrun run h⟩⟩
  have hname : (detachLane (reclaimDroppedRuns r).1 id).1.name = r.name :=
    (sameIndex_detachLane _ id).name.trans sameIndex_reclaim.name
  revert h
  unfold enqueuePrepared enqueueWith
  revert hname
  obtain ⟨r₁, e | ⟨lane, id'⟩⟩ := detachLane (reclaimDroppedRuns r).1 id
  · intro hname h
    cases h
  · intro hname
    simp only [Result.andThen]
    cases n.prepared with
    | error e =>
      intro h
      cases h
    | ok _ =>
      obtain ⟨l, e | ⟨⟩⟩ := Lane.runEnqueued f (lane.play f n.prepare).toServingLane n.run
      · dsimp only
        split <;> intro h <;> cases h
      · intro h
        obtain rfl := Except.ok.inj h
        exact hname

/-- `complete_owned` called with this token inserts its lane: the lane is or can be fenced, and
the bucket that the token's id names here misses one. -/
def Accepts (f : Features) (r : DynamicIoRuntime ins outs) (run : OwnedDynamicIoRun ins outs)
    (n : Native) : Prop :=
  (Lane.synchronizeOutputs f run.lane.toServingLane n).1.inFlight = false ∧
    ∃ i b, r.bucketIndex run.bucketId = some i ∧ r.buckets[i]? = some b ∧ b.detachedLanes ≠ 0 ∧
      b.lanes.length < r.laneCount

theorem completeOwned_cases {α : Type} (r : DynamicIoRuntime ins outs)
    (run : OwnedDynamicIoRun ins outs) (n : Native) (consume : ServingLane ins outs →
      Except Error α) :
    (¬ Accepts f r run n ∧ (completeOwned f r run n consume).1.buckets = r.buckets ∧
      (completeOwned f r run n consume).1.recovery = r.recovery) ∨
    (Accepts f r run n ∧ ∃ i b, r.buckets[i]? = some b ∧ b.id = run.bucketId ∧
      (completeOwned f r run n consume).1 = r.setBucket i (b.takeBack
        (run.lane.after (Lane.synchronizeOutputs f run.lane.toServingLane n).1))) := by
  unfold completeOwned
  dsimp only
  cases hin : (Lane.synchronizeOutputs f run.lane.toServingLane n).1.inFlight with
  | true =>
    refine .inl ⟨?_, ?_⟩
    · intro ha
      rw [ha.1] at hin
      cases hin
    · have hin' : (run.lane.after (Lane.synchronizeOutputs f run.lane.toServingLane n).1).inFlight =
          true := hin
      simp [hin']
  | false =>
    have hin' : (run.lane.after (Lane.synchronizeOutputs f run.lane.toServingLane n).1).inFlight =
        false := hin
    simp only [hin', Bool.false_eq_true, if_false]
    rcases returnDetachedLane_cases r run.bucketId
        (run.lane.after (Lane.synchronizeOutputs f run.lane.toServingLane n).1) with
      ⟨hno, e, he⟩ | ⟨i, b, hi, hb, hid, ⟨hfull, e, he⟩ | ⟨hpos, hlt, he⟩⟩ <;> rw [he]
    · refine .inl ⟨?_, rfl, rfl⟩
      rintro ⟨-, i, b, hi, -⟩
      cases hno.symm.trans hi
    · refine .inl ⟨?_, rfl, rfl⟩
      rintro ⟨-, i', b', hi', hb', hpos, hlt⟩
      obtain rfl := Option.some.inj (hi.symm.trans hi')
      obtain rfl := Option.some.inj (hb.symm.trans hb')
      omega
    · exact .inr ⟨⟨hin, i, b, hi, hb, hpos, hlt⟩, i, b, hb, hid, rfl⟩

theorem unmixed_completeOwned {α : Type} {consume : ServingLane ins outs → Except Error α}
    (h : Unmixed r) (ho : Own r run.bucketId run.lane.origin ∨ ¬ Accepts f r run n) :
    Unmixed (completeOwned f r run n consume).1 := by
  refine h.shrinks sameIndex_completeOwned.shrinks ?_
  intro id o hh
  rcases completeOwned_cases (f := f) r run n consume with
    ⟨-, hb, hr⟩ | ⟨ha, i, b, hb, hid, he⟩
  · exact .inl (noNew_of_eq hb (congrArg _ hr) id o hh)
  · rw [he] at hh
    rcases holds_takeBack hb hh with hh | ⟨hid', ho'⟩
    · exact .inl hh
    · refine .inr ?_
      rw [← hid', hid, ← ho']
      exact ho.resolve_right fun hno => hno ha

theorem unmixed_dropOwned (h : Unmixed r) (ho : Own r run.bucketId run.lane.origin) :
    Unmixed (dropOwned f r run n) := by
  have hw : Within (fun id l => Holds r id l.origin ∨ Own r id l.origin) r :=
    (within_iff fun id o => Holds r id o ∨ Own r id o).mpr fun _ _ hh => .inl hh
  have hw' := (closed_origin (f := f) (R := fun id o => Holds r id o ∨ Own r id o)).dropOwned
    (n := n) run hw (.inr ho)
  exact h.shrinks sameIndex_dropOwned.shrinks
    ((within_iff fun id o => Holds r id o ∨ Own r id o).mp hw')

theorem name_step : (step f s a).runtime.name = s.runtime.name := by
  rcases step_cases (f := f) s a with
    hs | ⟨plan, -, -, he⟩ | ⟨r', request, lanes, graphId, -, hs, -, -, he⟩
  · exact hs.name
  · rw [he]
  · rw [he, ← hs.name]
    unfold insertBucket
    dsimp only
    split
    · rfl
    · split <;> rfl

/-- A call keeps a runtime to its own lanes, if the token it is given is its own or refused. -/
theorem unmixed_step (h : Unmixed s.runtime)
    (hcomplete : ∀ k n consume run, a = .completeOwned k n consume → s.runs[k]? = some run →
      Own s.runtime run.bucketId run.lane.origin ∨ ¬ Accepts f s.runtime run n)
    (hdrop : ∀ k n run, a = .dropOwned k n → s.runs[k]? = some run →
      Own s.runtime run.bucketId run.lane.origin) : Unmixed (step f s a).runtime := by
  have hnew : ∀ {r : DynamicIoRuntime ins outs}, Shrinks s.runtime r → NoNew s.runtime r →
      Unmixed r := fun hs hn => h.shrinks hs fun id o hh => .inl (hn id o hh)
  cases a with
  | getOrCreateBucket request allowCreate n => exact unmixed_getOrCreate h
  | bucketMut request =>
    exact hnew sameIndex_bucketMut.shrinks (noNew_of_within (within_holds _).bucketMut)
  | bucketLane i j op n =>
    exact hnew sameIndex_bucketLane.shrinks
      (noNew_of_within (closed_origin.bucketLane trivial (within_holds _)))
  | enqueuePrepared id n =>
    have hn := (enqueuePrepared_holds (f := f) s.runtime id n).1
    refine hnew sameIndex_enqueueStep.shrinks ?_
    simp only [step]
    revert hn
    obtain ⟨r', e | run⟩ := enqueuePrepared f s.runtime id n <;> exact fun hn => hn
  | completeOwned k n consume =>
    simp only [step]
    split
    · rename_i run hk
      exact unmixed_completeOwned h (hcomplete k n consume run rfl hk)
    · exact h
  | dropOwned k n =>
    simp only [step]
    split
    · rename_i run hk
      exact unmixed_dropOwned h (hdrop k n run rfl hk)
    · exact h
  | runLane k op n => exact h
  | reclaimDroppedRuns =>
    exact hnew sameIndex_reclaim.shrinks (noNew_of_within (within_holds _).reclaim)
  | removeBucket request n =>
    exact hnew shrinks_removeBucket (noNew_of_within (within_holds _).removeBucket)
  | clearBuckets n =>
    exact hnew shrinks_clearBuckets (noNew_of_within (within_holds _).clearBuckets)
  | installShapePlan plan =>
    rcases installShapePlan_cases s.runtime plan with ⟨e, he⟩ | ⟨-, -, -, he⟩
    · simp only [step, he]
      exact h
    · simp only [step, he]
      refine ⟨⟨h.cached.indexed, h.cached.keys, h.cached.bound⟩, ?_⟩
      intro id o hh
      have ho := h.own id o hh
      exact ⟨ho.runtime, ho.bucketId, ho.issued, ho.key⟩

/-- A token was there before, or holds a lane that was in its runtime. -/
theorem runs_step {run : OwnedDynamicIoRun ins outs} (hrun : run ∈ (step f s a).runs) :
    (∃ run' ∈ s.runs, run'.recovery = run.recovery ∧ run'.bucketId = run.bucketId ∧
      run'.lane.origin = run.lane.origin) ∨
    (run.recovery = s.runtime.name ∧ Holds s.runtime run.bucketId run.lane.origin) := by
  have hsame : run ∈ s.runs → (∃ run' ∈ s.runs, run'.recovery = run.recovery ∧
      run'.bucketId = run.bucketId ∧ run'.lane.origin = run.lane.origin) ∨
      (run.recovery = s.runtime.name ∧ Holds s.runtime run.bucketId run.lane.origin) :=
    fun hm => .inl ⟨run, hm, rfl, rfl, rfl⟩
  cases a with
  | enqueuePrepared id n =>
    have hn := (enqueuePrepared_holds (f := f) s.runtime id n).2
    simp only [step] at hrun
    revert hrun hn
    obtain ⟨r', e | run'⟩ := enqueuePrepared f s.runtime id n
    · exact fun hrun _ => hsame hrun
    · intro hrun hn
      rcases List.mem_cons.mp hrun with rfl | hrun
      · exact .inr (hn run rfl)
      · exact hsame hrun
  | completeOwned k n consume =>
    simp only [step] at hrun
    split at hrun
    · exact hsame (List.mem_of_mem_eraseIdx hrun)
    · exact hsame hrun
  | dropOwned k n =>
    simp only [step] at hrun
    split at hrun
    · exact hsame (List.mem_of_mem_eraseIdx hrun)
    · exact hsame hrun
  | runLane k op n =>
    obtain ⟨run', hm, rfl | rfl⟩ := mem_modify hrun
    · exact hsame hm
    · refine .inl ⟨run', hm, ?_⟩
      unfold OwnedDynamicIoRun.exec
      split <;> exact ⟨rfl, rfl, rfl⟩
  | _ => exact hsame hrun

/-- Runtimes, named by their number, and the tokens they have issued. -/
structure World (ins outs : Nat) where
  runtimes : Nat → DynamicIoRuntime ins outs
  runs : List (OwnedDynamicIoRun ins outs)

/-- The runtime that a call changes: a dropped token finds the one that issued it. -/
def World.target (w : World ins outs) (i : Nat) : Op ins outs → Nat
  | .dropOwned k _ => ((w.runs[k]?).map OwnedDynamicIoRun.recovery).getD i
  | _ => i

/-- A call on one of the runtimes, with any token. -/
def World.step (f : Features) (w : World ins outs) (a : Nat × Op ins outs) : World ins outs :=
  let i := w.target a.1 a.2
  let s := Dynamic.step f ⟨w.runtimes i, w.runs⟩ a.2
  ⟨Function.update w.runtimes i s.runtime, s.runs⟩

def World.Initial (f : Features) (w : World ins outs) : Prop :=
  (∀ i, Dynamic.Initial f ⟨w.runtimes i, []⟩ ∧ (w.runtimes i).name = i) ∧ w.runs = []

def worldLts (f : Features) (ins outs : Nat) : Lts.System (World ins outs) (Nat × Op ins outs) :=
  Lts.System.ofNext (World.Initial f) (World.step f)

/-- What the caller exchanges among what one of the runtimes and the tokens lend it. -/
def World.exchange (w : World ins outs) (x : Nat × Exchange ins outs) : World ins outs :=
  let s := State.exchange ⟨w.runtimes x.1, w.runs⟩ x.2
  ⟨Function.update w.runtimes x.1 s.runtime, s.runs⟩

variable {w : World ins outs} {c : Nat × Op ins outs} {x : Nat × Exchange ins outs}

/-- A token is completed on a runtime that did not issue it and inserts its lane. -/
def Mixes (f : Features) (w : World ins outs) (c : Nat × Op ins outs) : Prop :=
  ∃ k n consume run, c.2 = .completeOwned k n consume ∧ w.runs[k]? = some run ∧
    run.recovery ≠ c.1 ∧ Accepts f (w.runtimes c.1) run n

/-- Every runtime holds its own lanes only, and so do its tokens. -/
structure Separate (w : World ins outs) : Prop where
  name : ∀ i, (w.runtimes i).name = i
  unmixed : ∀ i, Unmixed (w.runtimes i)
  tokens : ∀ run ∈ w.runs, Own (w.runtimes run.recovery) run.bucketId run.lane.origin

theorem separate_initial (h : w.Initial f) : Separate w := by
  obtain ⟨hruntimes, hruns⟩ := h
  refine ⟨fun i => (hruntimes i).2, fun i => ?_, by simp [hruns]⟩
  obtain ⟨hi, -⟩ := hruntimes i
  exact ⟨(cached_initial hi).1, (within_iff (Own (w.runtimes i))).mp (within_initial hi).runtime⟩

theorem separate_step (h : Separate w) (hno : ¬ Mixes f w c) : Separate (w.step f c) := by
  obtain ⟨i, a⟩ := c
  have hown : ∀ (k : Nat) (run : OwnedDynamicIoRun ins outs), w.runs[k]? = some run →
      run.recovery = w.target i a → Own (w.runtimes (w.target i a)) run.bucketId run.lane.origin :=
    fun k run hk he => he ▸ h.tokens run (List.mem_of_getElem? hk)
  have hstep : Unmixed (Dynamic.step f ⟨w.runtimes (w.target i a), w.runs⟩ a).runtime := by
    refine unmixed_step (h.unmixed _) ?_ ?_
    · rintro k n consume run rfl hk
      by_cases he : run.recovery = i
      · exact .inl (hown k run hk he)
      · exact .inr fun ha => hno ⟨k, n, consume, run, rfl, hk, he, ha⟩
    · rintro k n run rfl hk
      have hk : w.runs[k]? = some run := hk
      exact hown k run hk (by simp [World.target, hk])
  refine ⟨?_, ?_, ?_⟩
  · intro j
    by_cases hj : j = w.target i a
    · subst hj
      simp only [World.step, Function.update_self, name_step, h.name]
    · simp only [World.step, Function.update_of_ne hj, h.name]
  · intro j
    by_cases hj : j = w.target i a
    · subst hj
      simp only [World.step, Function.update_self]
      exact hstep
    · simp only [World.step, Function.update_of_ne hj]
      exact h.unmixed j
  · intro run hrun
    have hnow : Own (w.runtimes run.recovery) run.bucketId run.lane.origin := by
      rcases runs_step hrun with ⟨run', hm, hr, hid, ho⟩ | ⟨hname, hh⟩
      · exact hr ▸ hid ▸ ho ▸ h.tokens run' hm
      · rw [hname, h.name]
        exact (h.unmixed _).own _ _ hh
    by_cases hj : run.recovery = w.target i a
    · simp only [World.step, hj, Function.update_self]
      rw [hj] at hnow
      exact own_step (h.unmixed _).cached hnow
    · simp only [World.step, Function.update_of_ne hj]
      exact hnow

/-- Reordering the lanes of a bucket brings none in. -/
theorem unmixed_reorder {b : ShapeBucket ins outs} {lanes : List (ServingLane ins outs)}
    (h : Unmixed r) (hb : r.buckets[i]? = some b) (hl : lanes.Perm b.lanes) :
    Unmixed (r.setBucket i { b with lanes := lanes }) := by
  have hs : SameIndex r (r.setBucket i { b with lanes := lanes }) := sameIndex_set hb rfl
  have hn := noNew_of_within ((within_holds r).reorder hb hl)
  exact h.shrinks hs.shrinks fun id o hh => .inl (hn id o hh)

theorem separate_exchange (h : Separate w) (hx : x.2.InPlace) : Separate (w.exchange x) := by
  obtain ⟨i, x⟩ := x
  rcases exchange_inPlace (s := ⟨w.runtimes i, w.runs⟩) hx with he | ⟨j, b, lanes, hb, hl, he⟩
  · have hsame : w.exchange (i, x) = w := by
      simp only [World.exchange, he, Function.update_eq_self]
    rw [hsame]
    exact h
  · have hexchange : w.exchange (i, x) = ⟨Function.update w.runtimes i
        ((w.runtimes i).setBucket j { b with lanes := lanes }), w.runs⟩ := by
      simp only [World.exchange, he]
    have hs : SameIndex (w.runtimes i) ((w.runtimes i).setBucket j { b with lanes := lanes }) :=
      sameIndex_set hb rfl
    rw [hexchange]
    refine ⟨?_, ?_, ?_⟩
    · intro i'
      rcases eq_or_ne i' i with rfl | hne
      · simp only [Function.update_self, hs.name, h.name]
      · simp only [Function.update_of_ne hne, h.name]
    · intro i'
      rcases eq_or_ne i' i with rfl | hne
      · simp only [Function.update_self]
        exact unmixed_reorder (h.unmixed i') hb hl
      · simp only [Function.update_of_ne hne]
        exact h.unmixed i'
    · intro run hrun
      have hown := h.tokens run hrun
      by_cases hi : run.recovery = i
      · simp only [hi, Function.update_self]
        rw [hi] at hown
        exact hown.shrinks (h.unmixed i).cached hs.shrinks
      · simp only [Function.update_of_ne hi]
        exact hown

/-- Every bucket contains lanes that this runtime built for its key, and no others. -/
def OwnLanes (r : DynamicIoRuntime ins outs) : Prop :=
  ∀ b ∈ r.buckets, ∀ l ∈ b.lanes, l.origin.runtime = r.name ∧ l.origin.key = b.key

theorem Unmixed.ownLanes (h : Unmixed r) : OwnLanes r := by
  intro b hb l hl
  have ho := h.own b.id l.origin (.inl ⟨b, hb, rfl, l, hl, rfl⟩)
  exact ⟨ho.runtime, (ho.key b.label (List.mem_map_of_mem hb) rfl).symm⟩

/-- As long as no token is completed on another runtime that inserts its lane, and nothing lent is
exchanged but the lanes of one bucket, every bucket of every runtime keeps to its own lanes; and
completing a token spoils that only in this way. -/
theorem runtimes_unmixed
    (h : Lts.Reachable (((worldLts f ins outs).beside World.exchange).restrict fun w =>
      Sum.elim (fun c => ¬ Mixes f w c) fun x => x.2.InPlace) w) :
    (∀ i, OwnLanes (w.runtimes i)) ∧ ∀ (i : Nat) (run : OwnedDynamicIoRun ins outs) (n : Native)
      (α : Type) (consume : ServingLane ins outs → Except Error α), run ∈ w.runs →
      (OwnLanes (completeOwned f (w.runtimes i) run n consume).1 ↔
        run.recovery = i ∨ ¬ Accepts f (w.runtimes i) run n) := by
  have hsep : Separate w := by
    refine Lts.invariant_beside (P := Separate) (fun w => separate_initial) ?_ ?_ h
    · rintro w c w' hw hno rfl
      exact separate_step hw hno
    · exact fun w x hw hx => separate_exchange hw hx
  refine ⟨fun i => (hsep.unmixed i).ownLanes, fun i run n α consume hrun => ⟨fun hl => ?_, ?_⟩⟩
  · by_contra hmix
    obtain ⟨hne, ha⟩ := not_or.mp hmix
    rcases completeOwned_cases (f := f) (w.runtimes i) run n consume
      with ⟨hno, -⟩ | ⟨-, j, b, hb, -, he⟩
    · exact hmix (.inr hno)
    · rw [he] at hl
      have hlt : j < (w.runtimes i).buckets.length := (List.getElem?_eq_some_iff.mp hb).1
      obtain ⟨hname, -⟩ := hl _ (List.mem_set hlt _) _
        (List.mem_append_right _ (List.mem_singleton.mpr rfl))
      have hrun' : run.lane.origin.runtime = run.recovery :=
        (hsep.tokens run hrun).runtime.trans (hsep.name _)
      exact hne (hrun'.symm.trans (hname.trans (hsep.name i)))
  · intro hc
    refine (unmixed_completeOwned (hsep.unmixed i) ?_).ownLanes
    rcases hc with rfl | hno
    · exact .inl (hsep.tokens run hrun)
    · exact .inr hno

/-- Runtimes for one bucket of one lane. -/
def freshWorld : World 1 1 := ⟨fun i => .fresh i .sharedSession 1 (.new 1), []⟩

theorem freshWorld_initial : freshWorld.Initial ⟨false, false⟩ :=
  ⟨fun i => ⟨⟨i, .sharedSession, 1, .new 1, rfl, rfl⟩, rfl⟩, rfl⟩

/-- The first two runtimes get a bucket each, for different shapes, and enqueue its only lane. -/
def twinCalls : List (Nat × Op 1 1) :=
  [(0, .getOrCreateBucket unitKey true .success), (1, .getOrCreateBucket pairKey true .success),
    (0, .enqueuePrepared ⟨0, 1⟩ .success), (1, .enqueuePrepared ⟨0, 1⟩ .success)]

def twinWorld : World 1 1 := twinCalls.foldl (World.step ⟨false, false⟩) freshWorld

theorem twinWorld_reachable :
    Lts.Reachable ((worldLts ⟨false, false⟩ 1 1).restrict fun w c => ¬ Mixes ⟨false, false⟩ w c)
      twinWorld := by
  have hrun : ∀ cs : List (Nat × Op 1 1),
    (∀ c ∈ cs, ∀ k n consume, c.2 ≠ .completeOwned k n consume) →
      ∀ w, Lts.Reachable ((worldLts ⟨false, false⟩ 1 1).restrict fun w c =>
        ¬ Mixes ⟨false, false⟩ w c) w → Lts.Reachable ((worldLts ⟨false, false⟩ 1 1).restrict
          fun w c => ¬ Mixes ⟨false, false⟩ w c) (cs.foldl (World.step ⟨false, false⟩) w) := by
    intro cs
    induction cs with
    | nil => exact fun _ w hw => hw
    | cons c cs ih =>
      intro hc w hw
      refine ih (fun c' hc' => hc c' (List.mem_cons_of_mem _ hc')) _ (.step hw ⟨?_, rfl⟩)
      rintro ⟨k, n, consume, run, he, -⟩
      exact hc c List.mem_cons_self k n consume he
  exact hrun twinCalls (by simp [twinCalls]) freshWorld (.initial freshWorld_initial)

theorem runtimes_unmixed_twin : ∃ run ∈ twinWorld.runs, run.recovery = 1 ∧
    OwnLanes (completeOwned ⟨false, false⟩ (twinWorld.runtimes 1) run .success
      fun _ => Except.ok ()).1 :=
  ⟨_, List.mem_cons_self, rfl, ((runtimes_unmixed (Lts.reachable_beside twinWorld_reachable)).2 1 _
    .success Unit _ List.mem_cons_self).mpr (.inl rfl)⟩

/-- A token of the second runtime completed on the first puts its lane into a bucket for other
shapes. So does a token of the first, once its lane and that of the second were exchanged. -/
theorem runtimes_unmixed_fails :
    (∃ w : World 1 1, Lts.Reachable (worldLts ⟨false, false⟩ 1 1) w ∧
      ∃ run ∈ w.runs, ¬ OwnLanes (completeOwned ⟨false, false⟩ (w.runtimes 0) run .success
        fun _ => Except.ok ()).1) ∧
    ∃ w : World 1 1, Lts.Reachable ((worldLts ⟨false, false⟩ 1 1).beside World.exchange) w ∧
      ∃ run ∈ w.runs, run.recovery = 0 ∧ ¬ OwnLanes (completeOwned ⟨false, false⟩ (w.runtimes 0) run
        .success fun _ => Except.ok ()).1 := by
  have htwin := Lts.restrict_reachable twinWorld_reachable
  constructor
  · refine ⟨twinWorld, htwin, _, List.mem_cons_self, ?_⟩
    intro h
    obtain ⟨hname, -⟩ := h _ List.mem_cons_self _ List.mem_cons_self
    exact absurd hname (by decide)
  · have h₀ := Lts.restrict_reachable (Lts.reachable_beside (g := World.exchange)
      (E := fun x => x.2.InPlace) twinWorld_reachable)
    have h₁ := h₀.ours (0, .runLane 0 .synchronizeOutputs .success) rfl
    have h₂ := h₁.ours (0, .runLane 1 .synchronizeOutputs .success) rfl
    have h₃ := h₂.theirs (0, .lanes (.run 0) (.run 1))
    refine ⟨_, h₃, _, List.mem_cons_of_mem _ List.mem_cons_self, rfl, ?_⟩
    intro h
    obtain ⟨hname, -⟩ := h _ List.mem_cons_self _ List.mem_cons_self
    exact absurd hname (by decide)

end Zrt.Dynamic
