import Zrt.Dynamic.Specification
import Zrt.Lts

/-! A runtime with its owned runs, under any sequence of calls. -/
namespace Zrt.Dynamic

open Lane (Features Native)
open ShapePlan (SealedPlan)

variable {ins outs : Nat}

/-- A runtime and the tokens it has issued that are still alive. -/
structure State (ins outs : Nat) where
  runtime : DynamicIoRuntime ins outs
  runs : List (OwnedDynamicIoRun ins outs)

/-- The calls, with the outcomes of what they call in turn. Tokens are named by position. A
reference to a lane, in a bucket or in a token, is used one lane operation at a time; to put another
lane or bucket in its place is an `Exchange`. -/
inductive Op (ins outs : Nat) where
  | getOrCreateBucket (request : ShapeKey ins outs) (allowCreate : Bool) (n : CreateNative)
  | bucketMut (request : ShapeKey ins outs)
  | bucketLane (i j : Nat) (op : Lane.Op) (n : Native)
  | enqueuePrepared (bucketId : PreparedBucketId) (n : EnqueueNative)
  | completeOwned (k : Nat) (n : Native) (consume : ServingLane ins outs → Except Error Unit)
  | dropOwned (k : Nat) (n : Native)
  | runLane (k : Nat) (op : Lane.Op) (n : Native)
  | reclaimDroppedRuns
  | removeBucket (request : ShapeKey ins outs) (n : Nat → Native)
  | clearBuckets (n : Nat → Nat → Native)
  | installShapePlan (plan : SealedPlan)

variable (f : Features)

/-- What a token lets its owner do: query and synchronize always, anything once it is complete. -/
def OwnedDynamicIoRun.Allows (run : OwnedDynamicIoRun ins outs) (op : Lane.Op) : Prop :=
  run.lane.inFlight = false ∨ op = .tryComplete ∨ op = .synchronizeOutputs

instance (run : OwnedDynamicIoRun ins outs) (op : Lane.Op) : Decidable (run.Allows op) :=
  inferInstanceAs (Decidable (_ ∨ _))

/-- The token after a call of its owner. -/
def OwnedDynamicIoRun.exec (run : OwnedDynamicIoRun ins outs) (op : Lane.Op) (n : Native) :
    OwnedDynamicIoRun ins outs :=
  if run.Allows op then { run with lane := run.lane.after (op.exec f run.lane.toServingLane n) }
  else run

def step (s : State ins outs) : Op ins outs → State ins outs
  | .getOrCreateBucket request allowCreate n =>
    { s with runtime := (getOrCreateBucketInner f s.runtime request allowCreate n).1 }
  | .bucketMut request => { s with runtime := (bucketMut s.runtime request).1 }
  | .bucketLane i j op n => { s with runtime := bucketLane f s.runtime i j op n }
  | .enqueuePrepared bucketId n => match enqueuePrepared f s.runtime bucketId n with
    | (r, .ok run) => ⟨r, run :: s.runs⟩
    | (r, .error _) => { s with runtime := r }
  | .completeOwned k n consume => match s.runs[k]? with
    | some run => ⟨(completeOwned f s.runtime run n consume).1, s.runs.eraseIdx k⟩
    | none => s
  | .dropOwned k n => match s.runs[k]? with
    | some run => ⟨dropOwned f s.runtime run n, s.runs.eraseIdx k⟩
    | none => s
  | .runLane k op n => { s with runs := s.runs.modify k fun run => run.exec f op n }
  | .reclaimDroppedRuns => { s with runtime := (reclaimDroppedRuns s.runtime).1 }
  | .removeBucket request n => { s with runtime := (removeBucket f s.runtime request n).1 }
  | .clearBuckets n => { s with runtime := (clearBuckets f s.runtime n).1 }
  | .installShapePlan plan => { s with runtime := (installShapePlan s.runtime plan).1 }

/-- A runtime as one of its constructors returns it, without tokens. -/
def Initial (s : State ins outs) : Prop :=
  ∃ name mode laneCount options, DynamicIoRuntime.new f name mode laneCount options =
    .ok s.runtime ∧
    s.runs = []

def dynamicLts (f : Features) (ins outs : Nat) : Lts.System (State ins outs) (Op ins outs) :=
  Lts.System.ofNext (Initial f) (step f)

abbrev Reachable (s : State ins outs) : Prop := Lts.Reachable (dynamicLts f ins outs) s

/-- `t` is reached from `s` by some calls. -/
def Runs (s t : State ins outs) : Prop := ∃ xs, Lts.Trace (dynamicLts f ins outs) s xs t

variable {f} {s t u : State ins outs}

theorem Runs.refl : Runs f s s := ⟨[], .refl⟩

theorem Runs.single (a : Op ins outs) : Runs f s (step f s a) := ⟨[a], .single rfl⟩

theorem Runs.trans (h : Runs f s t) (h' : Runs f t u) : Runs f s u := by
  obtain ⟨xs, hx⟩ := h
  obtain ⟨ys, hy⟩ := h'
  exact ⟨xs ++ ys, hx.append hy⟩

theorem Runs.reachable (h : Runs f s t) (hs : Reachable f s) : Reachable f t := by
  obtain ⟨xs, hx⟩ := h
  exact Lts.trace_reachable hs hx

variable (f) (r : DynamicIoRuntime ins outs)

/-- `enqueue_owned`. -/
def enqueueOwned (request : ShapeKey ins outs) (n : CreateNative) (e : EnqueueNative) :
    Result ins outs (OwnedDynamicIoRun ins outs) :=
  Result.andThen (getOrCreateBucket f r request n) fun r i =>
    match r.buckets[i]? with
    | some bucket => enqueuePrepared f r bucket.id e
    | none => (r, .error (.local
        "zrt: failed to access newly created dynamic shape bucket"))

/-- A closure run on a lent-out lane. -/
def playBucketLane (i j : Nat) (script : Script) : DynamicIoRuntime ins outs :=
  script.foldl (fun r a => bucketLane f r i j a.1 a.2) r

/-- `run_on`, with a closure that performs `script` and returns `result`. -/
def runOn (request : ShapeKey ins outs) (lane : Nat) (n : CreateNative) (script : Script)
    (result : Except Error Unit) : Result ins outs Unit :=
  Result.andThen (getOrCreateBucketInner f r request (!r.options.strictShapeCache) n) fun r i =>
    if ((r.buckets[i]?).bind fun bucket => bucket.lanes[lane]?).isSome then
      (playBucketLane f r i lane script, result)
    else (r, .error (.local ("zrt: serving lane index " ++ toString lane ++ " out of range")))

/-- `prebuild_buckets`. -/
def prebuildBuckets (r : DynamicIoRuntime ins outs) :
    List (ShapeKey ins outs × CreateNative) → Result ins outs Nat
  | [] => (r, .ok 0)
  | (spec, n) :: specs =>
    Result.andThen (getOrCreateBucketInner f r spec true n) fun r _ =>
      Result.andThen (prebuildBuckets r specs) fun r count => (r, .ok (count + 1))

/-- The lane operations of one priming run, synchronized or through the enqueued path. -/
def primeOps (enqueued : Bool) : List Lane.Op :=
  if enqueued then [.runEnqueued, .synchronizeOutputs] else [.run]

/-- The result of the lane operations that priming uses. -/
def primeResult (l : Lane.ServingLane) (n : Native) : Lane.Op → Except Error Unit
  | .run => (Lane.run f l n).2
  | .runEnqueued => (Lane.runEnqueued f l n).2
  | .synchronizeOutputs => (Lane.synchronizeOutputs f l n).2
  | _ => .ok ()

/-- Lane operations in order, until one fails. -/
def primeLane (r : DynamicIoRuntime ins outs) (i j : Nat) :
    List (Lane.Op × Native) → Result ins outs Unit
  | [] => (r, .ok ())
  | (op, n) :: ops =>
    match (r.buckets[i]?).bind fun bucket => bucket.lanes[j]? with
    | none => (r, .ok ())
    | some lane => Result.andThen (bucketLane f r i j op n, primeResult f lane.toServingLane n op)
        fun r _ => primeLane r i j ops

/-- `ShapeBucket::prime` and `prime_enqueued`, on the `lanes` lanes from `j` on; `n` gives the
outcomes by lane, run and operation. -/
def primeBucketLanes (enqueued : Bool) (runs : Nat) (n : Nat → Nat → Lane.Op → Native) (i : Nat)
    (r : DynamicIoRuntime ins outs) (j : Nat) : Nat → Result ins outs Unit
  | 0 => (r, .ok ())
  | lanes + 1 =>
    let ops := (List.range runs).flatMap fun k => (primeOps enqueued).map fun op => (op, n j k op)
    Result.andThen (primeLane f r i j ops) fun r _ =>
      primeBucketLanes enqueued runs n i r (j + 1) lanes

/-- The priming of bucket `i`, every lane `runs` times. -/
def primeBucketAt (enqueued : Bool) (runs : Nat) (n : Nat → Nat → Lane.Op → Native) (i : Nat) :
    Result ins outs Unit :=
  primeBucketLanes f enqueued runs n i r 0 ((r.buckets[i]?).elim 0 fun bucket =>
    bucket.lanes.length)

/-- `prime_bucket` and `prime_bucket_enqueued`. -/
def primeBucket (enqueued : Bool) (request : ShapeKey ins outs) (runs : Nat) (n : CreateNative)
    (m : Nat → Nat → Lane.Op → Native) : Result ins outs Unit :=
  Result.andThen (getOrCreateBucketInner f r request true n) fun r i =>
    primeBucketAt f r enqueued runs m i

/-- `prime_cached_buckets`, on the `buckets` buckets from `i` on. -/
def primeCachedBuckets (runs : Nat) (m : Nat → Nat → Nat → Lane.Op → Native)
    (r : DynamicIoRuntime ins outs) (i : Nat) : Nat → Result ins outs Unit
  | 0 => (r, .ok ())
  | buckets + 1 => Result.andThen (primeBucketAt f r false runs (m i) i) fun r _ =>
      primeCachedBuckets runs m r (i + 1) buckets

/-- `warm_buckets` and `warm_buckets_enqueued`. -/
def warmBuckets (enqueued : Bool) (runs : Nat) (r : DynamicIoRuntime ins outs) :
    List (ShapeKey ins outs × CreateNative × (Nat → Nat → Lane.Op → Native)) → Result ins outs Nat
  | [] => (r, .ok 0)
  | (spec, n, m) :: specs =>
    Result.andThen (primeBucket f r enqueued spec runs n m) fun r _ =>
      Result.andThen (warmBuckets enqueued runs r specs) fun r count => (r, .ok (count + 1))

variable {f r} {α β : Type} {runs : List (OwnedDynamicIoRun ins outs)}

theorem runs_andThen {x : Result ins outs α} {k : DynamicIoRuntime ins outs → α → Result ins outs β}
    (hx : Runs f s ⟨x.1, runs⟩) (hk : ∀ r a, Runs f s ⟨r, runs⟩ → Runs f s ⟨(k r a).1, runs⟩) :
    Runs f s ⟨(x.andThen k).1, runs⟩ := by
  obtain ⟨r, a | a⟩ := x
  · exact hx
  · exact hk r a hx

/-- One call that only changes the runtime, after others. -/
theorem Runs.snoc (h : Runs f s ⟨r, runs⟩) (a : Op ins outs)
    {r' : DynamicIoRuntime ins outs} (ha : step f ⟨r, runs⟩ a = ⟨r', runs⟩) :
    Runs f s ⟨r', runs⟩ :=
  h.trans (ha ▸ Runs.single a)

theorem runs_getOrCreate (request : ShapeKey ins outs) (allowCreate : Bool) (n : CreateNative)
    (h : Runs f s ⟨r, runs⟩) :
    Runs f s ⟨(getOrCreateBucketInner f r request allowCreate n).1, runs⟩ :=
  h.snoc (.getOrCreateBucket request allowCreate n) rfl

theorem runs_enqueueOwned {request : ShapeKey ins outs} {n : CreateNative} {e : EnqueueNative} :
    Runs f ⟨r, runs⟩ (match enqueueOwned f r request n e with
      | (r, .ok run) => ⟨r, run :: runs⟩
      | (r, .error _) => ⟨r, runs⟩) := by
  have h := runs_getOrCreate (f := f) (s := ⟨r, runs⟩) request (!r.options.strictShapeCache) n .refl
  unfold enqueueOwned getOrCreateBucket
  revert h
  obtain ⟨r, i | i⟩ := getOrCreateBucketInner f r request (!r.options.strictShapeCache) n
  · exact fun h => h
  · intro h
    simp only [Result.andThen]
    cases hb : r.buckets[i]? with
    | none => exact h
    | some bucket =>
      refine h.trans ?_
      have hstep := Runs.single (f := f) (s := ⟨r, runs⟩) (.enqueuePrepared bucket.id e)
      revert hstep
      simp only [step]
      split <;> exact fun hstep => hstep

theorem runs_playBucketLane {i j : Nat} {script : Script} (h : Runs f s ⟨r, runs⟩) :
    Runs f s ⟨playBucketLane f r i j script, runs⟩ := by
  induction script generalizing r with
  | nil => exact h
  | cons a script ih => exact ih (h.snoc (.bucketLane i j a.1 a.2) rfl)

theorem runs_runOn {request : ShapeKey ins outs} {lane : Nat} {n : CreateNative} {script : Script}
    {result : Except Error Unit} (h : Runs f s ⟨r, runs⟩) :
    Runs f s ⟨(runOn f r request lane n script result).1, runs⟩ := by
  refine runs_andThen (runs_getOrCreate _ _ _ h) ?_
  intro r i h
  split
  · exact runs_playBucketLane h
  · exact h

theorem runs_prebuildBuckets {specs : List (ShapeKey ins outs × CreateNative)}
    (h : Runs f s ⟨r, runs⟩) : Runs f s ⟨(prebuildBuckets f r specs).1, runs⟩ := by
  induction specs generalizing r with
  | nil => exact h
  | cons spec specs ih =>
    exact runs_andThen (runs_getOrCreate _ _ _ h) fun r _ h => runs_andThen (ih h) fun _ _ h => h

theorem runs_primeLane {i j : Nat} {ops : List (Lane.Op × Native)} (h : Runs f s ⟨r, runs⟩) :
    Runs f s ⟨(primeLane f r i j ops).1, runs⟩ := by
  induction ops generalizing r with
  | nil => exact h
  | cons a ops ih =>
    simp only [primeLane]
    split
    · exact h
    · exact runs_andThen (h.snoc (.bucketLane i j a.1 a.2) rfl) fun r _ h => ih h

theorem runs_primeBucketAt {enqueued : Bool} {k : Nat} {m : Nat → Nat → Lane.Op → Native} {i : Nat}
    (h : Runs f s ⟨r, runs⟩) : Runs f s ⟨(primeBucketAt f r enqueued k m i).1, runs⟩ := by
  unfold primeBucketAt
  generalize (r.buckets[i]?).elim 0 (fun bucket => bucket.lanes.length) = lanes
  generalize 0 = j
  induction lanes generalizing r j with
  | zero => exact h
  | succ lanes ih => exact runs_andThen (runs_primeLane h) fun r _ h => ih h _

theorem runs_primeBucket {enqueued : Bool} {request : ShapeKey ins outs} {k : Nat}
    {n : CreateNative} {m : Nat → Nat → Lane.Op → Native} (h : Runs f s ⟨r, runs⟩) :
    Runs f s ⟨(primeBucket f r enqueued request k n m).1, runs⟩ :=
  runs_andThen (runs_getOrCreate _ _ _ h) fun _ _ h => runs_primeBucketAt h

theorem runs_primeCachedBuckets {k i buckets : Nat} {m : Nat → Nat → Nat → Lane.Op → Native}
    (h : Runs f s ⟨r, runs⟩) : Runs f s ⟨(primeCachedBuckets f k m r i buckets).1, runs⟩ := by
  induction buckets generalizing r i with
  | zero => exact h
  | succ buckets ih => exact runs_andThen (runs_primeBucketAt h) fun _ _ h => ih h

theorem runs_warmBuckets {enqueued : Bool} {k : Nat}
    {specs : List (ShapeKey ins outs × CreateNative × (Nat → Nat → Lane.Op → Native))}
    (h : Runs f s ⟨r, runs⟩) : Runs f s ⟨(warmBuckets f enqueued k r specs).1, runs⟩ := by
  induction specs generalizing r with
  | nil => exact h
  | cons spec specs ih =>
    exact runs_andThen (runs_primeBucket h) fun r _ h => runs_andThen (ih h) fun _ _ h => h

end Zrt.Dynamic
