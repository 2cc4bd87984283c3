import Zrt.Lease.Safety

/-! Wakeups: a parked thread still has something to wait for, or a notification is on its way. -/
namespace Zrt.Lease

open FlagWord

variable {b : Nat} {ι : Type*} {s t : State b ι} {i j k : ι} {a : Action} {o : Option ι}
  {p : Pc b} {w : Wait}

/-- Between an acquisition of `wait_lock` and its release. -/
def Pc.holdsLock : Pc b → Bool
  | .check _ | .wait _ | .unlock _ | .endAssert | .endStore | .endNotify | .endUnlock
  | .dropNotify | .dropUnlock => true
  | _ => false

/-- A thread that changed the word and has yet to call `notify_all`. -/
def Pc.willNotify : Pc b → Bool
  | .endNotify | .dropLock | .dropNotify => true
  | _ => false

/-- Decided to wait in this loop, or parked there. -/
def Pc.Waits (p : Pc b) (w : Wait) : Prop := p = .wait w ∨ p = .parked w

@[simp] theorem holdsLock_notified : p.notified.holdsLock = p.holdsLock := by
  cases p <;> rfl

@[simp] theorem willNotify_notified : p.notified.willNotify = p.willNotify := by
  cases p <;> rfl

theorem not_parked_notified : p.notified ≠ .parked w := by
  cases p <;> simp [Pc.notified]

/-- Nobody parks by being notified. -/
theorem waits_of_notified (h : p.notified.Waits w) : p = .wait w := by
  rcases h with h | h
  · cases p <;> simp_all [Pc.notified]
  · exact absurd h not_parked_notified

/-- One thread holds the lock, the one that acquired it. -/
def Locked (s : State b ι) : Prop := ∀ i, (s.pc i).holdsLock = true ↔ s.lock = some i

/-- Whoever waits has a reason to, or a notification coming. -/
def Served (s : State b ι) : Prop :=
  ∀ i w, (s.pc i).Waits w → Blocked s.word w ∨ ∃ j, (s.pc j).willNotify = true

theorem Moves.holdsLock (hm : Moves s t i p) (hj : j ≠ i) :
    (t.pc j).holdsLock = (s.pc j).holdsLock := by
  rcases hm.other j hj with he | he <;> simp [he]

theorem Moves.willNotify (hm : Moves s t i p) (hj : j ≠ i) :
    (t.pc j).willNotify = (s.pc j).willNotify := by
  rcases hm.other j hj with he | he <;> simp [he]

theorem Moves.waits (hm : Moves s t i p) (hj : j ≠ i) (hw : (t.pc j).Waits w) :
    (s.pc j).Waits w := by
  rcases hm.other j hj with he | he
  · exact he ▸ hw
  · exact .inl (waits_of_notified (he ▸ hw))

theorem Locked.keep (h : Locked s) (hm : Moves s t i p) (hl : t.lock = s.lock)
    (hp : p.holdsLock = (s.pc i).holdsLock) : Locked t := by
  intro j
  rw [hl, ← h j]
  by_cases hj : j = i
  · rw [hj, hm.self, hp]
  · rw [hm.holdsLock hj]

theorem Locked.acquire (h : Locked s) (hm : Moves s t i p) (hs : s.lock = none)
    (hl : t.lock = some i) (hp : p.holdsLock = true) : Locked t := by
  intro j
  rw [hl]
  by_cases hj : j = i
  · simp [hj, hm.self, hp]
  · have hn := h j
    rw [hs] at hn
    rw [hm.holdsLock hj, hn]
    simp [Ne.symm hj]

theorem Locked.release (h : Locked s) (hm : Moves s t i p) (hs : (s.pc i).holdsLock = true)
    (hl : t.lock = none) (hp : p.holdsLock = false) : Locked t := by
  intro j
  rw [hl]
  by_cases hj : j = i
  · simp [hj, hm.self, hp]
  · have hn := h j
    rw [(h i).mp hs] at hn
    rw [hm.holdsLock hj, hn]
    simp [Ne.symm hj]

/-- Waiting stays justified while only reasons backed by the moving thread go away. -/
theorem Served.step (h : Served s) (hm : Moves s t i p)
    (hb : ∀ j w, (s.pc j).Waits w → Blocked s.word w → Blocked t.word w ∨ p.willNotify = true)
    (hn : (s.pc i).willNotify = true → p.willNotify = true)
    (hi : ∀ w, p.Waits w → Blocked t.word w ∨ (s.pc i).Waits w) : Served t := by
  have hself : p.willNotify = true → ∃ j, (t.pc j).willNotify = true :=
    fun hp => ⟨i, by rw [hm.self, hp]⟩
  have hserved : ∀ j w, (s.pc j).Waits w →
      Blocked t.word w ∨ ∃ j, (t.pc j).willNotify = true := by
    intro j w hw
    rcases h j w hw with hblocked | ⟨k, hk⟩
    · exact (hb j w hw hblocked).imp_right hself
    · right
      by_cases hki : k = i
      · exact hself (hn (hki ▸ hk))
      · exact ⟨k, by rw [hm.willNotify hki, hk]⟩
  intro j w hw
  by_cases hj : j = i
  · subst hj
    rw [hm.self] at hw
    rcases hi w hw with hblocked | hw
    · exact .inl hblocked
    · exact hserved j w hw
  · exact hserved j w (hm.waits hj hw)

/-- A notifier holds the lock, so that every thread that waits is parked, and woken. -/
theorem served_notifyAll [DecidableEq ι] (h : Locked s) (hs : (s.pc i).holdsLock = true)
    (hp : ∀ w, ¬ p.Waits w) : Served (s.notifyAll i p) := by
  intro j w hw
  have hm := moves_notifyAll s i p
  by_cases hj : j = i
  · subst hj
    exact absurd (hm.self ▸ hw) (hp w)
  · have hnot : (s.notifyAll i p).pc j = (s.pc j).notified := by simp [State.notifyAll, hj]
    have hwait := waits_of_notified (hnot ▸ hw)
    have hlock : (s.pc j).holdsLock = true := by rw [hwait]; rfl
    have he := ((h j).mp hlock).symm.trans ((h i).mp hs)
    exact absurd (Option.some.inj he) hj

theorem Invariant.blocked_releasing {l : Loop} (h : Invariant o s) :
    Blocked s.word (.releasing l) ↔ o ≠ none :=
  not_congr h.flag_eq_zero

theorem Invariant.blocked_drain (h : Invariant o s) : Blocked s.word .drain ↔ s.live ≠ ∅ :=
  not_congr h.mask_eq_zero

/-- The lock discipline and the wakeups, which only hold together. -/
structure Parking (s : State b ι) : Prop where
  locked : Locked s
  served : Served s

/-- An exchange or store that changes the word. -/
theorem Parking.write (h : Parking s) (hm : Moves s t i p) (hk : t.lock = s.lock)
    (hl : p.holdsLock = (s.pc i).holdsLock) (hn : (s.pc i).willNotify = false)
    (hi : ∀ w, ¬ p.Waits w)
    (hb : ∀ j w, (s.pc j).Waits w → Blocked s.word w → Blocked t.word w ∨ p.willNotify = true) :
    Parking t where
  locked := h.locked.keep hm hk hl
  served := h.served.step hm hb (by simp [hn]) (fun w hw => absurd hw (hi w))

variable [DecidableEq ι]

theorem Parking.goto (h : Parking s) (hl : p.holdsLock = (s.pc i).holdsLock)
    (hn : (s.pc i).willNotify = true → p.willNotify = true)
    (hi : ∀ w, p.Waits w → Blocked s.word w ∨ (s.pc i).Waits w) : Parking (s.goto i p) where
  locked := h.locked.keep (moves_goto s i p) rfl hl
  served := h.served.step (moves_goto s i p) (fun _ _ _ hb => .inl hb) hn hi

theorem Parking.acquire (h : Parking s) (ha : s.acquire i p = some t) (hl : p.holdsLock = true)
    (hn : (s.pc i).willNotify = true → p.willNotify = true)
    (hi : ∀ w, ¬ p.Waits w) : Parking t := by
  obtain ⟨hnone, rfl⟩ := acquire_eq ha
  have hm : Moves s { s.goto i p with lock := some i } i p :=
    ⟨(moves_goto s i p).self, (moves_goto s i p).other⟩
  exact ⟨h.locked.acquire hm hnone rfl hl,
    h.served.step hm (fun _ _ _ hb => .inl hb) hn (fun w hw => absurd hw (hi w))⟩

theorem Parking.release (h : Parking s) (hs : (s.pc i).holdsLock = true)
    (hl : p.holdsLock = false) (hn : (s.pc i).willNotify = false)
    (hi : ∀ w, p.Waits w → (s.pc i).Waits w) : Parking (s.release i p) where
  locked := h.locked.release (moves_release s i p) hs rfl hl
  served := h.served.step (moves_release s i p) (fun _ _ _ hb => .inl hb) (by simp [hn])
    (fun w hw => .inr (hi w hw))

theorem Parking.notifyAll (h : Parking s) (hs : (s.pc i).holdsLock = true)
    (hl : p.holdsLock = true) (hi : ∀ w, ¬ p.Waits w) : Parking (s.notifyAll i p) where
  locked := h.locked.keep (moves_notifyAll s i p) rfl (by rw [hl, hs])
  served := served_notifyAll h.locked hs hi

theorem dropLoop_class (g : Nat) (current : BitVec (b + 1)) :
    (dropLoop g current).holdsLock = false ∧ (dropLoop g current).willNotify = false ∧
      ∀ w, ¬ (dropLoop g current).Waits w := by
  unfold dropLoop
  split <;> simp [Pc.holdsLock, Pc.willNotify, Pc.Waits]

theorem parking_load {l : Loop} (h : Parking s) (hp : s.pc i = .load l)
    (hs : s.advance i = some t) : Parking t := by
  simp only [State.advance, hp] at hs
  split at hs
  · obtain rfl := Option.some.inj hs
    exact h.goto (by rw [hp]; rfl) (by simp [hp, Pc.willNotify]) (by simp [Pc.Waits])
  · cases l with
    | beginRun =>
      obtain rfl := Option.some.inj hs
      split <;> exact h.goto (by rw [hp]; rfl) (by simp [hp, Pc.willNotify]) (by simp [Pc.Waits])
    | beginRelease =>
      obtain rfl := Option.some.inj hs
      exact h.goto (by rw [hp]; rfl) (by simp [hp, Pc.willNotify]) (by simp [Pc.Waits])

theorem parking_cas {l : Loop} {current : BitVec (b + 1)} (h : Parking s) (ho : Invariant o s)
    (hp : s.pc i = .cas l current) (hs : s.advance i = some t) : Parking t := by
  obtain ⟨o', ho', ha⟩ := accounted_cas ho hp hs
  have hlk : (s.pc i).holdsLock = false := by rw [hp]; rfl
  have hwn : (s.pc i).willNotify = false := by rw [hp]; rfl
  cases l with
  | beginRun =>
    simp only [State.advance, hp] at hs
    split at hs <;> obtain rfl := Option.some.inj hs
    · have hm := moves_goto s i (.idle : Pc b)
      refine h.write ⟨hm.self, hm.other⟩ rfl (by rw [hlk]; rfl) hwn (by simp [Pc.Waits]) ?_
      intro j w _ hb
      left
      cases w with
      | releasing l =>
        subst current
        have hc := ho.checked i
        simp only [hp, Pc.Checked] at hc
        exact absurd hc.1 hb
      | drain =>
        rw [ho'.blocked_drain]
        exact (Finset.insert_nonempty _ _).ne_empty
    · exact h.goto (by rw [hlk]; rfl) (by simp [hwn]) (by simp [Pc.Waits])
  | beginRelease =>
    simp only [State.advance, hp] at hs
    split at hs <;> obtain rfl := Option.some.inj hs
    · have hm := moves_goto s i (.lock .drain : Pc b)
      refine h.write ⟨hm.self, hm.other⟩ rfl (by rw [hlk]; rfl) hwn (by simp [Pc.Waits]) ?_
      intro j w _ hb
      left
      cases w with
      | releasing l =>
        rw [ho'.blocked_releasing, (ho'.owner i).mp (by simp [State.goto, Pc.releasing])]
        simp
      | drain =>
        rw [ho'.blocked_drain]
        exact ho.blocked_drain.mp hb
    · exact h.goto (by rw [hlk]; rfl) (by simp [hwn]) (by simp [Pc.Waits])

/-- The exchange of `drop` owes the draining thread a notification when it takes the last run. -/
theorem parking_dropCas {g : Nat} {current : BitVec (b + 1)} (h : Parking s) (ho : Invariant o s)
    (hp : s.pc i = .dropCas g current) (hs : s.advance i = some t) : Parking t := by
  have hlk : (s.pc i).holdsLock = false := by rw [hp]; rfl
  have hwn : (s.pc i).willNotify = false := by rw [hp]; rfl
  simp only [State.advance, hp] at hs
  split at hs <;> obtain rfl := Option.some.inj hs
  · subst current
    generalize hpd : (if s.word &&& flag b ≠ 0 ∧ s.word &&& mask b = 1 then Pc.dropLock
      else Pc.idle) = p
    have hcases : p = .dropLock ∨ p = .idle := by
      rw [← hpd]
      split <;> simp
    have hm : Moves s { s.goto i p with word := s.word - 1, live := s.live.erase g } i p :=
      ⟨(moves_goto s i p).self, (moves_goto s i p).other⟩
    have ho' := ho.leave hm hp hcases rfl rfl rfl rfl
    refine h.write hm rfl ?_ hwn ?_ ?_
    · rw [hlk]
      rcases hcases with rfl | rfl <;> rfl
    · rcases hcases with rfl | rfl <;> simp [Pc.Waits]
    · intro j w hj hb
      cases w with
      | releasing l =>
        left
        rw [ho'.blocked_releasing]
        exact ho.blocked_releasing.mp hb
      | drain =>
        by_cases hlast : s.live.card = 1
        · right
          have hreleasing : (s.pc j).releasing = true := by
            rcases hj with hj | hj <;> rw [hj] <;> rfl
          have hflag : s.word &&& flag b ≠ 0 := by
            rw [Ne, ho.flag_eq_zero, (ho.owner j).mp hreleasing]
            simp
          have hmask : s.word &&& mask b = 1 := by
            rw [ho.word, pack_and_mask_eq_one ho.card]
            exact hlast
          rw [← hpd, if_pos ⟨hflag, hmask⟩]
          rfl
        · left
          have hlive : g ∈ s.live := (ho.guards.dropping i g (by rw [hp]; rfl)).1
          have hpos : 0 < s.live.card := Finset.card_pos.mpr ⟨g, hlive⟩
          rw [ho'.blocked_drain]
          intro he
          have hcard : (s.live.erase g).card = 0 := Finset.card_eq_zero.mpr he
          rw [Finset.card_erase_of_mem hlive] at hcard
          omega
  · obtain ⟨hl, hn, hw⟩ := dropLoop_class g s.word
    exact h.goto (by rw [hl, hlk]) (by simp [hwn]) (fun w hd => absurd hd (hw w))

theorem parking_check (h : Parking s) (hp : s.pc i = .check w) (hs : s.advance i = some t) :
    Parking t := by
  simp only [State.advance, hp] at hs
  obtain rfl := Option.some.inj hs
  split
  · rename_i hb
    refine h.goto (by rw [hp]; rfl) (by simp [hp, Pc.willNotify]) ?_
    rintro w' (he | he)
    · obtain rfl := Pc.wait.inj he
      exact .inl hb
    · cases he
  · exact h.goto (by rw [hp]; rfl) (by simp [hp, Pc.willNotify]) (by simp [Pc.Waits])

theorem parking_unlock (h : Parking s) (hp : s.pc i = .unlock w) (hs : s.advance i = some t) :
    Parking t := by
  simp only [State.advance, hp] at hs
  obtain rfl := Option.some.inj hs
  refine h.release (by rw [hp]; rfl) ?_ (by rw [hp]; rfl) ?_
  · cases w <;> rfl
  · cases w <;> simp [Wait.resume, Pc.Waits]

theorem parking_endStore (h : Parking s) (hp : s.pc i = .endStore)
    (hs : s.advance i = some t) : Parking t := by
  simp only [State.advance, hp] at hs
  obtain rfl := Option.some.inj hs
  have hm := moves_goto s i (.endNotify : Pc b)
  exact h.write ⟨hm.self, hm.other⟩ rfl (by rw [hp]; rfl) (by rw [hp]; rfl) (by simp [Pc.Waits])
    (fun _ _ _ _ => .inr rfl)

theorem parking_endAssert (h : Parking s) (hp : s.pc i = .endAssert)
    (hs : s.advance i = some t) : Parking t := by
  simp only [State.advance, hp] at hs
  obtain rfl := Option.some.inj hs
  split
  · exact h.goto (by rw [hp]; rfl) (by simp [hp, Pc.willNotify]) (by simp [Pc.Waits])
  · exact h.release (by rw [hp]; rfl) rfl (by rw [hp]; rfl) (by simp [Pc.Waits])

theorem parking_advance (h : Parking s) (ho : Invariant o s) (hs : s.advance i = some t) :
    Parking t := by
  cases hp : s.pc i with
  | idle | parked | released => simp [State.advance, hp] at hs
  | load l => exact parking_load h hp hs
  | cas l current => exact parking_cas h ho hp hs
  | check w => exact parking_check h hp hs
  | unlock w => exact parking_unlock h hp hs
  | endAssert => exact parking_endAssert h hp hs
  | endStore => exact parking_endStore h hp hs
  | dropCas g previous => exact parking_dropCas h ho hp hs
  | lock w | woken w | endLock | dropLock =>
    simp only [State.advance, hp] at hs
    exact h.acquire hs rfl (by simp [hp, Pc.willNotify]) (by simp [Pc.Waits])
  | wait w =>
    simp only [State.advance, hp] at hs
    obtain rfl := Option.some.inj hs
    refine h.release (by rw [hp]; rfl) rfl (by rw [hp]; rfl) ?_
    rintro w' (he | he)
    · cases he
    · obtain rfl := Pc.parked.inj he
      exact .inl hp
  | dropLoad g =>
    simp only [State.advance, hp] at hs
    obtain rfl := Option.some.inj hs
    obtain ⟨hl, -, hw⟩ := dropLoop_class g s.word
    exact h.goto (by rw [hl, hp]; rfl) (by simp [hp, Pc.willNotify]) (fun w hd => absurd hd (hw w))
  | endNotify | dropNotify =>
    simp only [State.advance, hp] at hs
    obtain rfl := Option.some.inj hs
    exact h.notifyAll (by rw [hp]; rfl) rfl (by simp [Pc.Waits])
  | endUnlock | dropUnlock =>
    simp only [State.advance, hp] at hs
    obtain rfl := Option.some.inj hs
    exact h.release (by rw [hp]; rfl) rfl (by rw [hp]; rfl) (by simp [Pc.Waits])

theorem parking_step (h : Parking s) (ho : Invariant o s) (hs : step s i a = some t) :
    Parking t := by
  cases step_cases hs with
  | step ha => exact parking_advance h ho ha
  | beginRun hp | beginRelease hp | endRelease hp | weakFailCas hp | wake hp =>
    exact h.goto (by rw [hp]; rfl) (by simp [hp, Pc.willNotify]) (by simp [Pc.Waits])
  | @drop g hp _ =>
    have hm := moves_goto s i (.dropLoad g : Pc b)
    exact h.write ⟨hm.self, hm.other⟩ rfl (by rw [hp]; rfl) (by rw [hp]; rfl)
      (by simp [Pc.Waits]) (fun _ _ _ hb => .inl hb)
  | @weakFailDrop g _ hp =>
    obtain ⟨hl, -, hw⟩ := dropLoop_class g s.word
    exact h.goto (by rw [hl, hp]; rfl) (by simp [hp, Pc.willNotify])
      (fun w hd => absurd hd (hw w))

omit [DecidableEq ι] in
theorem parking_initial : Parking (.new : State b ι) where
  locked i := by simp [State.new, Pc.holdsLock]
  served i w hw := by simp [State.new, Pc.Waits] at hw

theorem parking_reachable (h : Reachable s) : Parking s := by
  apply Lts.invariant_of_reachable ?_ ?_ h
  · rintro _ rfl
    exact parking_initial
  · intro s a t hr hp hs
    obtain ⟨o, ho⟩ := invariant_reachable hr
    exact parking_step hp ho hs

/-- What keeps a wait condition true: a release in progress, or for a drain a live guard. -/
def Wait.Cause (s : State b ι) : Wait → Prop
  | .releasing _ => ∃ j, (s.pc j).releasing = true
  | .drain => s.live.Nonempty

omit [DecidableEq ι] in
theorem Invariant.cause (h : Invariant o s) (hb : Blocked s.word w) : w.Cause s := by
  cases w with
  | releasing l =>
    obtain ⟨j, hj⟩ := Option.ne_none_iff_exists'.mp (h.blocked_releasing.mp hb)
    exact ⟨j, (h.owner j).mpr hj⟩
  | drain => exact Finset.nonempty_iff_ne_empty.mpr (h.blocked_drain.mp hb)

/-- No wakeup is lost: a parked thread's condition is still false for a cause that is still there,
or some thread is yet to notify it; so never is everybody idle or parked with no guard live. -/
theorem parked_served (h : Reachable s) :
    (∀ i w, s.pc i = .parked w →
      (Blocked s.word w ∧ w.Cause s) ∨ ∃ j, (s.pc j).willNotify = true) ∧
    ¬ ((∃ i w, s.pc i = .parked w) ∧ (∀ i, s.pc i = .idle ∨ ∃ w, s.pc i = .parked w) ∧
      s.live = ∅) := by
  obtain ⟨o, ho⟩ := invariant_reachable h
  have hserved : ∀ i w, s.pc i = .parked w →
      (Blocked s.word w ∧ w.Cause s) ∨ ∃ j, (s.pc j).willNotify = true := by
    intro i w hp
    exact ((parking_reachable h).served i w (.inr hp)).imp_left fun hb => ⟨hb, ho.cause hb⟩
  refine ⟨hserved, ?_⟩
  rintro ⟨⟨i, w, hp⟩, hall, hlive⟩
  have hquiet : ¬ ∃ j, (s.pc j).willNotify = true := by
    rintro ⟨j, hj⟩
    rcases hall j with he | ⟨w, he⟩ <;> simp [he, Pc.willNotify] at hj
  have hdrain : ∀ j, s.pc j ≠ .parked .drain := by
    intro j hj
    obtain ⟨-, g, hg⟩ := (hserved j .drain hj).resolve_right hquiet
    simp [hlive] at hg
  cases w with
  | drain => exact hdrain i hp
  | releasing l =>
    -- the release it waits for is by a thread that is parked itself, and so in its drain
    obtain ⟨-, j, hj⟩ := (hserved i _ hp).resolve_right hquiet
    rcases hall j with he | ⟨w, he⟩
    · simp [he, Pc.releasing] at hj
    · cases w with
      | drain => exact hdrain j he
      | releasing l => simp [he, Pc.releasing] at hj

theorem parked_served_drain : ∃ s : State 63 Nat,
    Lts.schedule (fun s a => step s a.1 a.2) .new drainRun = some s ∧ s.pc 1 = .parked .drain ∧
      ((Blocked s.word .drain ∧ Wait.drain.Cause s) ∨ ∃ j, (s.pc j).willNotify = true) := by
  obtain ⟨s, hs, hp⟩ : ∃ s : State 63 Nat,
      Lts.schedule (fun s a => step s a.1 a.2) .new drainRun = some s ∧ s.pc 1 = .parked .drain :=
    ⟨_, rfl, rfl⟩
  exact ⟨s, hs, hp, (parked_served (schedule_reachable (.initial rfl) hs)).1 1 .drain hp⟩

/-- The holder of `wait_lock` is never kept waiting itself. -/
theorem holder_enabled (h : Reachable s) (hl : s.lock = some k) : ∃ t, step s k .step = some t := by
  have hk := ((parking_reachable h).locked k).mpr hl
  cases hp : s.pc k <;> simp_all [Pc.holdsLock, step, State.advance]

/-- A thread that owes a notification can go on, or waits for a lock whose holder can. -/
theorem notifier_enabled (h : Reachable s) (hj : (s.pc j).willNotify = true) :
    ∃ k t, step s k .step = some t := by
  cases hl : s.lock with
  | some k => exact ⟨k, holder_enabled h hl⟩
  | none => cases hp : s.pc j <;> simp_all [Pc.willNotify] <;>
      exact ⟨j, by simp [step, State.advance, hp, State.acquire, hl]⟩

end Zrt.Lease
