import Zrt.Pool.Progress

/-! The lanes of a pool run as lanes do under one owner, wherever they are. -/
namespace Zrt.Pool

open Lane (Features Native ServingLane)

variable {ι : Type*} [DecidableEq ι] {f : Features} {lanes : List ServingLane} {s t : State ι}
  {i j : ι} {n : Native} {a : ι × Action ι} {m : Member} {P : ServingLane → Prop}
  {C : ServingLane → Lane.Op × Native → Prop}

/-- The lane that a thread carries. -/
def Pc.lane : Pc → Option Member
  | .unlock (some m) | .finish m | .lockReturn m | .push m => some m
  | _ => none

/-- `P` holds of every lane, in the pool, in a guard, forgotten or on its way. -/
structure Everywhere (P : ServingLane → Prop) (s : State ι) : Prop where
  idle : ∀ m ∈ s.pool.idle, P m.lane
  held : ∀ m ∈ s.held, P m.lane
  lost : ∀ m ∈ s.lost, P m.lane
  carried : ∀ i m, (s.pc i).lane = some m → P m.lane

/-- What the call leaves behind is recorded: an operation meets `C`, a condition on the lane and the
operation, no unsynchronized run is issued, and no future is let go of. -/
def Use.Meets (C : ServingLane → Lane.Op × Native → Prop) (f : Features) (l : ServingLane)
    (n : Native) : Use → Prop
  | .op o => C l (o, n)
  | .runUnsynchronized => ¬ (l.deviceInputs = false ∧ l.graphId = none ∧
      Lane.Issues f l n l.runOpts.isSome false)
  | .runAsync _ letGo => letGo = false

/-- So are all uses of guards. -/
def Uses (C : ServingLane → Lane.Op × Native → Prop) (f : Features) (s : State ι)
    (a : ι × Action ι) : Prop :=
  ∀ k call n m, a.2 = .use k call n → s.held[k]? = some m → call.Meets C f m.lane n

/-- The holder of a guard puts another lane in place of its own. -/
def State.exchange (s : State ι) (x : Nat × ServingLane) : State ι :=
  { s with held := s.held.modify x.1 fun m => { m with lane := x.2 } }

/-- The rest of what a guard does to its lane leaves it alone. -/
theorem use_cases {call : Use} {l : ServingLane} (h : call.Meets C f l n) :
    call.exec f l n = l ∨ ∃ op, call = .op op ∧ C l (op, n) := by
  cases call with
  | op op => exact .inr ⟨op, rfl, h⟩
  | runUnsynchronized => exact .inl (Lane.Access.runUnsynchronized_same h)
  | runAsync outcome letGo =>
    have hkept : letGo = false := h
    exact .inl (by simp [Use.exec, hkept])

theorem everywhere_initial (h : (poolLts f lanes ι).Initial s) (hp : ∀ l ∈ lanes, P l) :
    Everywhere P s := by
  obtain ⟨pool, hpool, rfl⟩ := h
  unfold fromLanes at hpool
  split at hpool
  · cases hpool
  · cases hpool
    refine ⟨?_, fun m hm => (by cases hm), fun m hm => (by cases hm), fun i m hm => (by cases hm)⟩
    intro m hm
    obtain ⟨p, hmem, rfl⟩ := List.mem_map.mp hm
    exact hp _ (List.fst_mem_of_mem_zipIdx hmem)

theorem lane_update {pcs : ι → Pc} {pc : Pc} (h : ∀ j m, (pcs j).lane = some m → P m.lane)
    (hpc : ∀ m, pc.lane = some m → P m.lane) (j : ι) (m : Member)
    (hj : (Function.update pcs i pc j).lane = some m) : P m.lane := by
  by_cases he : j = i
  · subst he
    exact hpc m (by rwa [Function.update_self] at hj)
  · exact h j m (by rwa [Function.update_of_ne he] at hj)

/-- A thread that moves on without a lane. -/
theorem Everywhere.goto {pc : Pc} (h : Everywhere P s) (hpc : ∀ m, pc.lane = some m → P m.lane) :
    Everywhere P (s.goto i pc) := ⟨h.idle, h.held, h.lost, lane_update h.carried hpc⟩

theorem Acquires.lane {pc pc' : Pc} (h : Acquires pc pc') : pc'.lane = pc.lane := by
  cases h <;> rfl

theorem Takes.lane {pc pc' : Pc} (h : Takes pc pc') : pc'.lane = none := by
  cases h <;> rfl

theorem everywhere_moves (h : Everywhere P s) (hm : Moves f s i n t)
    (hf : ∀ l, P l → P (Lane.finishInFlightBestEffort f l n)) : Everywhere P t := by
  cases hm with
  | acquire hpc hl =>
    have hgoto := h.goto (i := i) fun m hm => h.carried i m (hpc.lane ▸ hm)
    exact ⟨hgoto.idle, hgoto.held, hgoto.lost, hgoto.carried⟩
  | @take pc rest m hpc hidle =>
    have hmem := h.idle
    rw [hidle] at hmem
    have hgoto : Everywhere P (s.goto i (.unlock (some m))) :=
      h.goto fun m' hm' =>
        Option.some.inj hm' ▸ hmem m (List.mem_append_right _ (List.mem_singleton_self m))
    exact ⟨fun m' hm' => hmem m' (List.mem_append_left _ hm'), hgoto.held, hgoto.lost,
      hgoto.carried⟩
  | empty hpc hidle => exact h.goto fun m hm => by rw [hpc.lane] at hm; cases hm
  | count hpc => exact h.goto fun m hm => by cases hm
  | park hpc =>
    have hgoto : Everywhere P (s.goto i .parked) := h.goto fun m hm => by cases hm
    exact ⟨hgoto.idle, hgoto.held, hgoto.lost, hgoto.carried⟩
  | @finish m hpc =>
    refine h.goto fun m' hm' => ?_
    cases hm'
    exact hf _ (h.carried i m (by rw [hpc]; rfl))
  | @push m hpc =>
    have hgoto : Everywhere P (s.goto i .notify) := h.goto fun m hm => by cases hm
    refine ⟨fun m' hm' => ?_, hgoto.held, hgoto.lost, hgoto.carried⟩
    rcases List.mem_append.mp hm' with hm' | hm'
    · exact h.idle m' hm'
    · cases List.mem_singleton.mp hm'
      exact h.carried i m (by rw [hpc]; rfl)
  | @unlock lane hpc =>
    have hgoto : Everywhere P (s.goto i .idle) := h.goto fun m hm => by cases hm
    refine ⟨hgoto.idle, fun m hm => ?_, hgoto.lost, hgoto.carried⟩
    rcases List.mem_append.mp hm with hm | hm
    · cases lane with
      | none => cases hm
      | some m' =>
        cases List.mem_singleton.mp hm
        exact h.carried i m (by rw [hpc]; rfl)
    · exact h.held m hm

omit [DecidableEq ι] in
theorem everywhere_exchange {x : Nat × ServingLane} (h : Everywhere P s) (hx : P x.2) :
    Everywhere P (s.exchange x) := by
  refine ⟨h.idle, fun m hm => ?_, h.lost, h.carried⟩
  obtain ⟨k, hk⟩ := List.mem_iff_getElem?.mp hm
  simp only [State.exchange, List.getElem?_modify] at hk
  obtain ⟨m', hm', rfl⟩ := Option.map_eq_some_iff.mp hk
  split
  · exact hx
  · exact h.held m' (List.mem_of_getElem? hm')

theorem everywhere_step (h : Everywhere P s) (hs : Step f s a t) (hu : Uses C f s a)
    (hc : ∀ l op n, P l → C l (op, n) → P (op.exec f l n))
    (hf : ∀ l n, P l → P (Lane.finishInFlightBestEffort f l n)) : Everywhere P t := by
  have hpc {pc : Pc} (hnone : pc.lane = none) (m : Member) (hm : pc.lane = some m) : P m.lane := by
    rw [hnone] at hm
    cases hm
  cases hs with
  | call c => exact h.goto (hpc rfl)
  | @use i k m call n hpc hk hcall =>
    refine ⟨h.idle, fun m' hm' => ?_, h.lost, h.carried⟩
    have hheld := h.held m (List.mem_of_getElem? hk)
    rcases List.mem_or_eq_of_mem_set hm' with hm' | rfl
    · exact h.held m' hm'
    · rcases use_cases (hu k call n m rfl hk) with he | ⟨op, rfl, hop⟩
      · exact he.symm ▸ hheld
      · exact hc _ op n hheld hop
  | @drop i k m hpc hk =>
    have hgoto : Everywhere P (s.goto i (.finish m)) :=
      h.goto fun m' hm' => Option.some.inj hm' ▸ h.held m (List.mem_of_getElem? hk)
    exact ⟨hgoto.idle, fun m' hm' => h.held m' (List.mem_of_mem_eraseIdx hm'), hgoto.lost,
      hgoto.carried⟩
  | @forget i k m hpc hk =>
    refine ⟨h.idle, fun m' hm' => h.held m' (List.mem_of_mem_eraseIdx hm'), fun m' hm' =>
      ?_, h.carried⟩
    rcases List.mem_cons.mp hm' with rfl | hm'
    · exact h.held _ (List.mem_of_getElem? hk)
    · exact h.lost m' hm'
  | step hadv => exact everywhere_moves h (moves hadv) fun l => hf l _
  | notifyOne => exact (h.goto (hpc rfl)).goto (hpc rfl)
  | notifyNone => exact h.goto (hpc rfl)
  | wake => exact h.goto (hpc rfl)

/-- Every lane has a history of its own: what its guards did with it, and the fences of their drops;
so has a lane that a holder puts in its place. -/
theorem lanes_reachable
    (h : Lts.Reachable (((poolLts f lanes ι).beside State.exchange).restrict fun s =>
      Sum.elim (Uses C f s) fun x => Lts.Reachable ((Lane.laneLts f).restrict C) x.2) s)
    (hl : ∀ l ∈ lanes, Lts.Reachable ((Lane.laneLts f).restrict C) l)
    (hc : ∀ l n, C l (.finishInFlightBestEffort, n)) :
    Everywhere (Lts.Reachable ((Lane.laneLts f).restrict C)) s := by
  refine Lts.invariant_beside (P := Everywhere (Lts.Reachable ((Lane.laneLts f).restrict C)))
    ?_ ?_ ?_ h
  · exact fun _ hi => everywhere_initial (f := f) hi hl
  · intro s a t hs hu hstep
    refine everywhere_step hs hstep hu ?_ ?_
    · exact fun l op n hl hcl => hl.step (a := (op, n)) ⟨hcl, rfl⟩
    · exact fun l n hl => hl.step (a := (.finishInFlightBestEffort, n)) ⟨hc l n, rfl⟩
  · exact fun s x hs hx => everywhere_exchange hs hx

/-- Whoever gets a lane from a pool may rely on its state, whoever had it before: in a run in which
no guard takes the unfenced path, issues an unsynchronized run or lets an asynchronous one go, and
holders put in such lanes only, a lane that is not in flight has no provider work left. -/
theorem pooled_lanes_fenced
    (hl : ∀ l ∈ lanes, Lts.Reachable ((Lane.laneLts f).restrict
      fun l a => ¬ Lane.Unsettled f l a.2 a.1) l)
    (h : Lts.Reachable (((poolLts f lanes ι).beside State.exchange).restrict fun s =>
      Sum.elim (Uses (fun l a => ¬ Lane.Unsettled f l a.2 a.1) f s) fun x =>
        Lts.Reachable ((Lane.laneLts f).restrict fun l a => ¬ Lane.Unsettled f l a.2 a.1) x.2) s) :
    Everywhere (fun l => l.inFlight = false → l.work = .none) s := by
  have hr := lanes_reachable h hl fun l n => id
  have hfenced {l : ServingLane} (hl : Lts.Reachable ((Lane.laneLts f).restrict
      fun l a => ¬ Lane.Unsettled f l a.2 a.1) l) (hi : l.inFlight = false) : l.work = .none :=
    (Lane.settled_reachable hl).idle hi
  exact ⟨fun m hm => hfenced (hr.idle m hm), fun m hm => hfenced (hr.held m hm),
    fun m hm => hfenced (hr.lost m hm), fun i m hm => hfenced (hr.carried i m hm)⟩

/-- A graph lane's run fails unfenced, and its guard is dropped: the fence of the drop settles
it. -/
theorem pooled_lanes_fenced_dropped : ∃ s : State Nat, ∃ l : ServingLane, s.pool.idle = [⟨0, l⟩] ∧
    l.graphId = some 1 ∧ l.inFlight = false ∧ l.work = .none := by
  let f : Features := ⟨true, false⟩
  let C : ServingLane → Lane.Op × Native → Prop := fun l a => ¬ Lane.Unsettled f l a.2 a.1
  let L := (poolLts f [.new (some 0)] Nat).restrict (Uses C f)
  have hplain {s t : State Nat} {a : Nat × Action Nat} (h : Lts.Reachable L s)
      (ha : ∀ k call n, a.2 ≠ .use k call n) (ht : Step f s a t) : Lts.Reachable L t :=
    h.step ⟨fun k call n m he => absurd he (ha k call n), ht⟩
  have hadv {s t : State Nat} (h : Lts.Reachable L s) (ht : s.advance f 0 .success = some t) :
      Lts.Reachable L t := hplain h (by simp) (.step ht)
  have hinitial : Lts.Reachable L ⟨⟨[⟨0, .new (some 0)⟩], 1⟩, none, fun _ => .idle, [], []⟩ :=
    .initial ⟨_, rfl, rfl⟩
  have hcall := hplain hinitial (by simp) (.call (i := 0) .checkout rfl)
  have hheld := hadv (hadv (hadv hcall rfl) rfl) rfl
  have hgraph := hheld.step ⟨fun k call n m he hk => (by cases he; exact id),
    Step.use (i := 0) (k := 0) (.op (.setGpuGraphId 1)) .success rfl rfl (by simp)⟩
  have hrun := hgraph.step ⟨fun k call n m he hk => (by
      cases he
      cases hk
      exact fun hu => (by cases hu.1)),
    Step.use (i := 0) (k := 0) (.op .runEnqueued) .failure rfl rfl (by simp)⟩
  have hdrop := hplain hrun (by simp) (.drop (i := 0) (k := 0) rfl rfl)
  have hpushed := hadv (hadv (hadv hdrop rfl) rfl) rfl
  obtain ⟨s, hs, l, hidle, hid, hflight⟩ : ∃ s : State Nat, Lts.Reachable L s ∧
      ∃ l, s.pool.idle = [⟨0, l⟩] ∧ l.graphId = some 1 ∧ l.inFlight = false :=
    ⟨_, hpushed, _, rfl, rfl, rfl⟩
  have hlane : ∀ l ∈ [ServingLane.new (some 0)], Lts.Reachable ((Lane.laneLts f).restrict C) l := by
    intro l hl
    rw [List.mem_singleton.mp hl]
    exact .initial ⟨some 0, fun _ => rfl, rfl⟩
  have hmem : (⟨0, l⟩ : Member) ∈ s.pool.idle := by
    rw [hidle]
    exact List.mem_singleton_self _
  exact ⟨s, l, hidle, hid, hflight, (pooled_lanes_fenced hlane (Lts.reachable_beside hs)).idle
    ⟨0, l⟩ hmem hflight⟩

end Zrt.Pool
