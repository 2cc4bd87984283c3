import Zrt.Plugins.Specification

/-! What the engine is given is released once, whatever the code of users does. -/
namespace Zrt.Plugins

open Ownership

section Steps

variable {ι : Type} {s : State ι}

/-- What a call does to the objects. -/
inductive Effect [DecidableEq ι] (s : State ι) (i : ι) (c : Call) : State ι → Answer → Prop where
  | idle {a : Answer} : c.reclaims = none → ¬ c.Uncaught → a.out = none →
      (∀ x, a.name ≠ some (.stored x)) → Effect s i c s a
  | uncaught : c.reclaims = none → c.Uncaught →
      Effect s i c { s with aborted := true } ⟨none, none, none, none⟩
  | made {k : Kind} : c.reclaims = none → ¬ c.Uncaught → k ≠ .name →
      Effect s i c (s.make k) ⟨none, some s.books.count, none, none⟩
  | refused {k : Kind} : c.reclaims = none → ¬ c.Uncaught → k ≠ .name →
      Effect s i c { s.make k with books := s.books.make.drop s.books.count }
        ⟨none, none, none, none⟩
  | reclaimed {k : Kind} {x : Nat} {dropped : Ran Unit} : c.reclaims = some (k, x, dropped) →
      ¬ c.Uncaught → k ≠ .name → Effect s i c (s.reclaim k x dropped) ⟨none, none, none, none⟩
  | named {name : String} : c.reclaims = none → ¬ c.Uncaught → c.name = some name →
      Effect s i c (s.storeName i name) ⟨none, none, some (.stored s.books.count), none⟩

/-- The pointers that the engine was given in a history. -/
def handed (ls : List (ι × Call × Answer)) : List Nat := ls.filterMap fun l => l.2.2.out

/-- The pointers that it gave back. -/
def reclaimed (ls : List (ι × Call × Answer)) : List Nat :=
  ls.filterMap fun l => l.2.1.reclaims.map fun p => p.2.1

variable {t : State ι} {i : ι} {c : Call} {a : Answer} {ls : List (ι × Call × Answer)} {x y : Nat}

theorem handed_snoc : handed (ls ++ [(i, c, a)]) = handed ls ++ a.out.toList := by
  cases h : a.out <;> simp [handed, h]

theorem reclaimed_snoc :
    reclaimed (ls ++ [(i, c, a)]) = reclaimed ls ++ (c.reclaims.map fun p => p.2.1).toList := by
  cases h : c.reclaims <;> simp [reclaimed, h]

section Effects

variable [DecidableEq ι]

theorem effect_quiet {status : Option String} {number : Option Int} (hc : c.reclaims = none)
    (hu : ¬ c.Uncaught) : Effect s i c s ⟨status, none, none, number⟩ :=
  .idle hc hu rfl fun x hx => by cases hx

theorem effect_create {k : Kind} {fallback panic : String} {made : Ran (Except Error Unit)}
    (hc : c.reclaims = none) (hu : ¬ c.Uncaught) (hk : k ≠ .name) :
    Effect s i c (s.create k fallback panic made).1 (s.create k fallback panic made).2 := by
  unfold State.create
  split
  · exact .made hc hu hk
  · exact effect_quiet hc hu

theorem effect_destroyed {k : Kind} {p : Option Nat} {dropped : Ran Unit}
    (hc : c.reclaims = p.map fun x => (k, x, dropped)) (hu : ¬ c.Uncaught) (hk : k ≠ .name) :
    Effect s i c (s.destroyed k p dropped).1 (s.destroyed k p dropped).2 := by
  cases p with
  | none => exact effect_quiet hc hu
  | some x => exact .reclaimed hc hu hk

theorem effect_named {panic : String} {name : Ran String} (hc : c.reclaims = none)
    (hu : ¬ c.Uncaught) (hname : ∀ n, name = .returned n → c.name = some n) :
    Effect s i c (s.named i panic name).1 (s.named i panic name).2 := by
  cases name with
  | returned name => exact .named hc hu (hname name rfl)
  | panicked => exact .idle hc hu rfl fun x hx => by cases hx

theorem effect_uncaught {run : Ran (Option Int)} (hc : c.reclaims = none)
    (hu : c.Uncaught ↔ run.panics = true) :
    Effect s i c (s.uncaught run).1 (s.uncaught run).2 := by
  cases run with
  | returned number => exact effect_quiet hc fun h => Bool.false_ne_true (hu.mp h)
  | panicked => exact .uncaught hc (hu.mpr rfl)

theorem effect_exec : Effect s i c (s.exec i c).1 (s.exec i c).2 := by
  cases c with
  | createKernel made => exact effect_create rfl id (by decide)
  | compute kernel run => cases kernel <;> exact effect_quiet rfl id
  | destroy kernel dropped => exact effect_destroyed (by cases kernel <;> rfl) id (by decide)
  | inferOutputShape run => exact effect_quiet rfl id
  | getCapability run => exact effect_quiet rfl id
  | createEp made => exact effect_create rfl id (by decide)
  | releaseEp ep dropped => exact effect_destroyed (by cases ep <;> rfl) id (by decide)
  | createEpFactories maxFactories made =>
    cases made with
    | panicked => exact effect_quiet rfl id
    | returned u =>
      unfold State.exec createEpFactories
      dsimp only
      split
      · exact .refused rfl id (by decide)
      · exact .made rfl id (by decide)
  | releaseEpFactory factory dropped =>
    exact effect_destroyed (by cases factory <;> rfl) id (by decide)
  | threadCreate made =>
    rcases made with (e | u) | _
    · exact effect_quiet rfl id
    · exact .made rfl id (by decide)
    · exact effect_quiet rfl id
  | threadJoin handle joined => exact effect_destroyed (by cases handle <;> rfl) id (by decide)
  | query q =>
    refine effect_uncaught rfl ?_
    change q.run.panics = true ↔ _
    cases q.run <;> exact Iff.rfl
  | parallelFor => exact .made rfl id (by decide)
  | parallelForTrampoline data iteration =>
    cases data with
    | none => exact effect_quiet rfl id
    | some x => exact effect_uncaught rfl (by cases iteration <;> exact Iff.rfl)
  | parallelForReturned data dropped => exact effect_destroyed rfl id (by decide)
  | getName name => exact effect_named rfl id fun n hn => hn ▸ rfl
  | getFactoryName name => exact effect_named rfl id fun n hn => hn ▸ rfl
  | getVendor name => exact effect_named rfl id fun n hn => hn ▸ rfl
  | getVersion => exact .named rfl id rfl

end Effects

theorem effect_of_exec [DecidableEq ι] (h : s.exec i c = (t, a)) : Effect s i c t a := by
  have heffect := effect_exec (s := s) (i := i) (c := c)
  rwa [h] at heffect

/-- The engine has what it was given and did not give back, and each thread keeps its last name. -/
structure Accounted (ls : List (ι × Call × Answer)) (s : State ι) : Prop where
  sound : s.books.Sound
  owner : ∀ x, s.books.owner x = none
  held : ∀ x, s.books.held x = true ↔
    (x ∈ handed ls ∧ x ∉ reclaimed ls) ∨ ∃ i, s.lastName i = some x
  handed_nodup : (handed ls).Nodup
  reclaimed_nodup : (reclaimed ls).Nodup
  handed_lt : ∀ x ∈ handed ls, x < s.books.count ∧ s.kind x ≠ .name
  reclaimed_handed : ∀ x ∈ reclaimed ls, x ∈ handed ls
  names : ∀ i x, s.lastName i = some x → s.kind x = .name
  alone : ∀ i j x, s.lastName i = some x → s.lastName j = some x → i = j

theorem Accounted.count_not_held (h : Accounted ls s) : s.books.held s.books.count = false :=
  (h.sound.unmade _ (Nat.le_refl _)).1

theorem Accounted.count_not_handed (h : Accounted ls s) : s.books.count ∉ handed ls := fun hmem =>
  Nat.lt_irrefl _ (h.handed_lt _ hmem).1

theorem Accounted.lastName_lt (h : Accounted ls s) (hx : s.lastName i = some x) :
    x < s.books.count :=
  h.sound.lt_count ((h.held x).mpr (.inr ⟨i, hx⟩))

theorem accounted_initial : Accounted [] (initial ι) where
  sound := Books.sound_empty
  owner _ := rfl
  held x := by simp [initial, Books.empty, handed]
  handed_nodup := List.nodup_nil
  reclaimed_nodup := List.nodup_nil
  handed_lt _ hx := absurd hx List.not_mem_nil
  reclaimed_handed _ hx := absurd hx List.not_mem_nil
  names _ _ h := by cases h
  alone _ _ _ h := by cases h

theorem accounted_made {k : Kind} (h : Accounted ls s) (hc : c.reclaims = none) (hk : k ≠ .name) :
    Accounted (ls ++ [(i, c, ⟨none, some s.books.count, none, none⟩)]) (s.make k) where
  sound := h.sound.make
  owner := h.owner
  held x := by
    rw [handed_snoc, reclaimed_snoc, hc]
    simp only [State.make, Books.make_held, Option.toList, Option.map_none, List.append_nil,
      List.mem_append, List.mem_singleton]
    rcases eq_or_ne x s.books.count with rfl | hne
    · have hnew : s.books.count ∉ reclaimed ls := fun hmem =>
        h.count_not_handed (h.reclaimed_handed _ hmem)
      simp [hnew]
    · simp [hne, h.held x]
  handed_nodup := by
    rw [handed_snoc]
    exact List.nodup_append.mpr ⟨h.handed_nodup, by simp, fun x hx y hy heq =>
      h.count_not_handed (List.mem_singleton.mp hy ▸ heq ▸ hx)⟩
  reclaimed_nodup := by
    rw [reclaimed_snoc, hc]
    simpa using h.reclaimed_nodup
  handed_lt x hx := by
    rw [handed_snoc] at hx
    rcases List.mem_append.mp hx with hx | hx
    · obtain ⟨hlt, hkind⟩ := h.handed_lt x hx
      exact ⟨Nat.lt_succ_of_lt hlt, by simpa [State.make, Nat.ne_of_lt hlt] using hkind⟩
    · cases List.mem_singleton.mp hx
      exact ⟨Nat.lt_succ_self _, by simpa [State.make] using hk⟩
  reclaimed_handed x hx := by
    rw [reclaimed_snoc, hc] at hx
    rw [handed_snoc]
    exact List.mem_append_left _ (h.reclaimed_handed x (by simpa using hx))
  names j x hx := by
    have hlt : x < s.books.count := h.lastName_lt hx
    simpa [State.make, Nat.ne_of_lt hlt] using h.names j x hx
  alone := h.alone

/-- A step that hands nothing out and takes nothing back. -/
theorem accounted_between (h : Accounted ls s) (hc : c.reclaims = none) (ha : a.out = none)
    (hsound : t.books.Sound) (howner : ∀ x, t.books.owner x = none)
    (hheld : ∀ x, t.books.held x = true ↔
      (x ∈ handed ls ∧ x ∉ reclaimed ls) ∨ ∃ i, t.lastName i = some x)
    (hkind : ∀ x, x < s.books.count → t.kind x = s.kind x) (hcount : s.books.count ≤ t.books.count)
    (hnames : ∀ i x, t.lastName i = some x → t.kind x = .name)
    (halone : ∀ i j x, t.lastName i = some x → t.lastName j = some x → i = j) :
    Accounted (ls ++ [(i, c, a)]) t := by
  have hhanded : handed (ls ++ [(i, c, a)]) = handed ls := by simp [handed_snoc, ha]
  have hreclaimed : reclaimed (ls ++ [(i, c, a)]) = reclaimed ls := by simp [reclaimed_snoc, hc]
  refine ⟨hsound, howner, ?_, ?_, ?_, ?_, ?_, hnames, halone⟩
  · simpa only [hhanded, hreclaimed] using hheld
  · exact hhanded ▸ h.handed_nodup
  · exact hreclaimed ▸ h.reclaimed_nodup
  · intro x hx
    rw [hhanded] at hx
    obtain ⟨hlt, hne⟩ := h.handed_lt x hx
    exact ⟨Nat.lt_of_lt_of_le hlt hcount, hkind x hlt ▸ hne⟩
  · rw [hhanded, hreclaimed]
    exact h.reclaimed_handed

theorem accounted_refused {k : Kind} (h : Accounted ls s) (hc : c.reclaims = none) :
    Accounted (ls ++ [(i, c, ⟨none, none, none, none⟩)])
      { s.make k with books := s.books.make.drop s.books.count } := by
  have hmade : s.books.make.held s.books.count = true := by rw [Books.make_held, if_pos rfl]
  refine accounted_between h hc rfl (h.sound.make.drop hmade) h.owner (fun x => ?_)
    (fun x hlt => ?_) (Nat.le_succ _) (fun j x hx => ?_) h.alone
  · have hsame : (s.books.make.drop s.books.count).held x = s.books.held x := by
      rw [Books.drop_held, Books.make_held]
      split
      · rename_i hx
        exact hx ▸ h.count_not_held.symm
      · rfl
    exact hsame ▸ h.held x
  · exact if_neg (Nat.ne_of_lt hlt)
  · exact (if_neg (Nat.ne_of_lt (h.lastName_lt hx))).trans (h.names j x hx)

theorem accounted_reclaimed {k : Kind} {dropped : Ran Unit} (h : Accounted ls s)
    (hc : c.reclaims = some (k, x, dropped)) (hk : k ≠ .name) (hx : s.books.held x = true)
    (hkind : s.kind x = k) :
    Accounted (ls ++ [(i, c, ⟨none, none, none, none⟩)]) (s.reclaim k x dropped) := by
  have hhanded : handed (ls ++ [(i, c, ⟨none, none, none, none⟩)]) = handed ls := by
    simp [handed_snoc]
  have hreclaimed : reclaimed (ls ++ [(i, c, ⟨none, none, none, none⟩)]) = reclaimed ls ++ [x] := by
    simp [reclaimed_snoc, hc]
  have hname (j : ι) : s.lastName j ≠ some x := fun hj => hk (hkind ▸ h.names j x hj)
  obtain ⟨hin, hout⟩ : x ∈ handed ls ∧ x ∉ reclaimed ls := by
    rcases (h.held x).mp hx with hx | ⟨j, hj⟩
    · exact hx
    · exact absurd hj (hname j)
  refine ⟨h.sound.drop hx, h.owner, fun y => ?_, hhanded ▸ h.handed_nodup, ?_, ?_, fun y hy => ?_,
    h.names, h.alone⟩
  · change (s.books.drop x).held y = true ↔ _
    rw [Books.drop_held, hhanded, hreclaimed]
    rcases eq_or_ne y x with rfl | hne
    · simp [State.reclaim, hname]
    · simp [State.reclaim, hne, h.held y]
  · rw [hreclaimed]
    exact List.nodup_append.mpr ⟨h.reclaimed_nodup, by simp, fun y hy z hz heq =>
      hout (List.mem_singleton.mp hz ▸ heq ▸ hy)⟩
  · rw [hhanded]
    exact h.handed_lt
  · rw [hreclaimed] at hy
    rw [hhanded]
    rcases List.mem_append.mp hy with hy | hy
    · exact h.reclaimed_handed y hy
    · exact List.mem_singleton.mp hy ▸ hin

section Names

variable [DecidableEq ι] {name : String}

theorem storeName_held : (s.storeName i name).books.held x =
    if s.lastName i = some x then false
    else if x = s.books.count then true else s.books.held x := by
  cases h : s.lastName i with
  | none => simp [State.storeName, h, Books.make_held]
  | some old => simp [State.storeName, h, Books.drop_held, Books.make_held, eq_comm]

theorem storeName_lastName (j : ι) : (s.storeName i name).lastName j =
    if j = i then some s.books.count else s.lastName j := rfl

theorem Accounted.storeName_sound (h : Accounted ls s) : (s.storeName i name).books.Sound := by
  unfold State.storeName
  cases hold : s.lastName i with
  | none => exact h.sound.make
  | some old =>
    refine h.sound.make.drop ?_
    rw [Books.make_held]
    split
    · rfl
    · exact (h.held old).mpr (.inr ⟨i, hold⟩)

theorem Accounted.storeName_owner (h : Accounted ls s) :
    (s.storeName i name).books.owner x = none := by
  unfold State.storeName
  cases s.lastName i <;> exact h.owner x

theorem storeName_count : (s.storeName i name).books.count = s.books.count + 1 := by
  unfold State.storeName
  cases s.lastName i <;> rfl

theorem Accounted.storeName_held_iff (h : Accounted ls s) :
    (s.storeName i name).books.held x = true ↔
      (x ∈ handed ls ∧ x ∉ reclaimed ls) ∨ ∃ j, (s.storeName i name).lastName j = some x := by
  rw [storeName_held]
  simp only [storeName_lastName]
  split
  · -- the text that is freed was neither given to the engine nor kept by another thread
    rename_i hold
    refine iff_of_false Bool.false_ne_true ?_
    rintro (⟨hmem, -⟩ | ⟨j, hj⟩)
    · exact (h.handed_lt x hmem).2 (h.names i x hold)
    · split at hj
      · cases hj
        exact Nat.lt_irrefl _ (h.lastName_lt hold)
      · rename_i hne
        exact hne (h.alone j i x hj hold)
  · rename_i hold
    split
    · rename_i hx
      exact iff_of_true rfl (.inr ⟨i, by rw [if_pos rfl, hx]⟩)
    · rename_i hx
      rw [h.held x]
      refine or_congr_right (exists_congr fun j => ?_)
      split
      · rename_i hj
        exact iff_of_false (fun hjx => hold (hj ▸ hjx)) fun hjx => hx (Option.some.inj hjx).symm
      · rfl

theorem accounted_named (h : Accounted ls s) (hc : c.reclaims = none) :
    Accounted (ls ++ [(i, c, ⟨none, none, some (.stored s.books.count), none⟩)])
      (s.storeName i name) := by
  have hcount : s.books.count ≤ (s.storeName i name).books.count := by
    rw [storeName_count]
    exact Nat.le_succ _
  refine accounted_between h hc rfl h.storeName_sound (fun x => h.storeName_owner)
    (fun x => h.storeName_held_iff) (fun x hlt => if_neg (Nat.ne_of_lt hlt)) hcount
    (fun j x hj => ?_) fun j k x hj hk => ?_
  · rw [storeName_lastName] at hj
    split at hj
    · cases hj
      exact if_pos rfl
    · exact (if_neg (Nat.ne_of_lt (h.lastName_lt hj))).trans (h.names j x hj)
  · rw [storeName_lastName] at hj hk
    split at hj <;> split at hk
    · rename_i hji hki
      exact hji.trans hki.symm
    · cases hj
      exact absurd (h.lastName_lt hk) (Nat.lt_irrefl _)
    · cases hk
      exact absurd (h.lastName_lt hj) (Nat.lt_irrefl _)
    · exact h.alone j k x hj hk

end Names

end Steps

section Runs

variable {ι : Type} [DecidableEq ι] {s t : State ι} {i : ι} {c : Call} {a : Answer}
  {ls later : List (ι × Call × Answer)} {x : Nat}

theorem accounted_step (h : Accounted ls s) (hstep : (plugins ι).Tr s (i, c, a) t) :
    Accounted (ls ++ [(i, c, a)]) t := by
  obtain ⟨-, hallowed, hexec⟩ := hstep
  have heffect : Effect s i c t a := effect_of_exec hexec
  cases heffect with
  | idle hc _ ha hn =>
    exact accounted_between h hc ha h.sound h.owner h.held (fun _ _ => rfl) (Nat.le_refl _) h.names
      h.alone
  | uncaught hc _ =>
    exact accounted_between h hc rfl h.sound h.owner h.held (fun _ _ => rfl) (Nat.le_refl _) h.names
      h.alone
  | made hc _ hk => exact accounted_made h hc hk
  | refused hc _ hk => exact accounted_refused h hc
  | reclaimed hc _ hk =>
    obtain ⟨hx, hkind⟩ := hallowed.2 _ _ _ hc
    exact accounted_reclaimed h hc hk hx hkind
  | named hc _ _ => exact accounted_named h hc

theorem accounted_trace (h : Lts.Trace (plugins ι) (initial ι) ls t) : Accounted ls t := by
  generalize hs : initial ι = s at h
  induction h with
  | refl => exact hs ▸ accounted_initial
  | snoc _ hstep ih => exact accounted_step ih hstep

/-- Only a panic that nothing catches, or the drop of what is given back, can abort the process. -/
theorem aborted_trace (h : Lts.Trace (plugins ι) (initial ι) ls t) :
    t.aborted = true ↔ ∃ l ∈ ls, l.2.1.DropPanics ∨ l.2.1.Uncaught := by
  generalize hs : initial ι = s at h
  induction h with
  | refl =>
    cases hs
    simp [initial]
  | @snoc s t ls l _ hstep ih =>
    obtain ⟨i, c, a⟩ := l
    obtain ⟨halive, -, hexec⟩ := hstep
    have hnone : ¬ ∃ l ∈ ls, l.2.1.DropPanics ∨ l.2.1.Uncaught := fun hl =>
      absurd (halive.symm.trans (ih.mpr hl)) Bool.false_ne_true
    have hlast : (∃ l ∈ ls ++ [(i, c, a)], l.2.1.DropPanics ∨ l.2.1.Uncaught) ↔
        c.DropPanics ∨ c.Uncaught := by
      constructor
      · rintro ⟨l, hl, hend⟩
        rcases List.mem_append.mp hl with hl | hl
        · exact absurd ⟨l, hl, hend⟩ hnone
        · obtain rfl := List.mem_singleton.mp hl
          exact hend
      · exact fun hend => ⟨_, List.mem_append_right _ (List.mem_singleton_self _), hend⟩
    rw [hlast]
    have heffect : Effect s i c t a := effect_of_exec hexec
    have hquiet (hc : c.reclaims = none) (hu : ¬ c.Uncaught) (ht : t.aborted = s.aborted) :
        t.aborted = true ↔ c.DropPanics ∨ c.Uncaught := by
      simp [Call.DropPanics, hc, hu, ht, halive]
    cases heffect with
    | idle hc hu _ _ => exact hquiet hc hu rfl
    | uncaught _ hu => exact iff_of_true rfl (.inr hu)
    | made hc hu _ => exact hquiet hc hu rfl
    | refused hc hu _ => exact hquiet hc hu rfl
    | named hc hu _ => exact hquiet hc hu rfl
    | @reclaimed k x dropped hc hu hk =>
      cases dropped <;> simp [State.reclaim, Call.DropPanics, hc, hu, Ran.panics]

/-- What another thread does, or this one without a name, leaves the last name of this one. -/
theorem name_step (h : Accounted ls s) (hstep : (plugins ι).Tr s (i, c, a) t) {j : ι}
    (hx : s.lastName j = some x) (hquiet : i = j → ∀ y, a.name ≠ some (.stored y)) :
    t.lastName j = some x ∧ t.text x = s.text x := by
  have heffect : Effect s i c t a := effect_of_exec hstep.2.2
  cases heffect with
  | idle _ _ _ _ | uncaught _ _ | made _ _ _ | refused _ _ _ | reclaimed _ _ _ => exact ⟨hx, rfl⟩
  | named _ _ _ =>
    have hne : j ≠ i := fun hji => hquiet hji.symm _ rfl
    exact ⟨(if_neg hne).trans hx, if_neg (Nat.ne_of_lt (h.lastName_lt hx))⟩

theorem name_trace (h : Accounted ls s) (hx : s.lastName i = some x)
    (htrace : Lts.Trace (plugins ι) s later t)
    (hquiet : ∀ l ∈ later, l.1 = i → ∀ y, l.2.2.name ≠ some (.stored y)) :
    Accounted (ls ++ later) t ∧ t.lastName i = some x ∧ t.text x = s.text x := by
  induction htrace with
  | refl => exact ⟨(List.append_nil ls).symm ▸ h, hx, rfl⟩
  | @snoc t u later l _ hstep ih =>
    obtain ⟨j, c, a⟩ := l
    obtain ⟨hacc, hlast, htext⟩ := ih fun l hl => hquiet l (List.mem_append_left _ hl)
    obtain ⟨hlast', htext'⟩ := name_step hacc hstep hlast fun hj =>
      hquiet _ (List.mem_append_right _ (List.mem_singleton_self _)) hj
    exact ⟨List.append_assoc .. ▸ accounted_step hacc hstep, hlast', htext'.trans htext⟩

theorem name_given (hstep : (plugins ι).Tr s (i, c, a) t) (ha : a.name = some (.stored x)) :
    t.lastName i = some x ∧ ∃ name, c.name = some name ∧ t.text x = nameText name := by
  have heffect : Effect s i c t a := effect_of_exec hstep.2.2
  cases heffect with
  | idle _ _ _ hn => exact absurd ha (hn x)
  | uncaught _ _ | made _ _ _ | refused _ _ _ | reclaimed _ _ _ => cases ha
  | named _ _ hname =>
    cases ha
    exact ⟨if_pos rfl, _, hname, if_pos rfl⟩

theorem errorToStatus_no_nul {fallback : String} (hfallback : '\x00' ∉ fallback.toList)
    (e : Error) : '\x00' ∉ (errorToStatus fallback e).toList := by
  unfold errorToStatus
  split
  · exact hfallback
  · rename_i h
    simpa using h

theorem status_no_nul {fallback panic m : String} {run : Ran (Except Error Unit)}
    (hfallback : '\x00' ∉ fallback.toList) (h : status fallback panic run = some m) :
    '\x00' ∉ m.toList := by
  unfold status at h
  split at h
  · cases h
  · cases h
    exact errorToStatus_no_nul hfallback _
  · cases h
    exact errorToStatus_no_nul hfallback _

theorem customOpFallback_no_nul : '\x00' ∉ customOpFallback.toList := by decide

theorem epFallback_no_nul : '\x00' ∉ epFallback.toList := by decide

omit [DecidableEq ι] in
theorem create_failed {k : Kind} {fallback panic m : String} {made : Ran (Except Error Unit)}
    (hfallback : '\x00' ∉ fallback.toList)
    (h : (s.create k fallback panic made).2.status = some m) :
    '\x00' ∉ m.toList ∧ (s.create k fallback panic made).2.out = none := by
  unfold State.create at h ⊢
  split at h
  · cases h
  · rename_i hs
    cases h
    exact ⟨status_no_nul hfallback hs, rfl⟩

/-- A status that is an error is a C string, and comes without a pointer. -/
theorem exec_failed {m : String} (h : (s.exec i c).2.status = some m) :
    '\x00' ∉ m.toList ∧ (s.exec i c).2.out = none := by
  cases c with
  | createKernel made => exact create_failed customOpFallback_no_nul h
  | compute kernel run =>
    cases kernel with
    | none => cases h
    | some x => exact ⟨status_no_nul customOpFallback_no_nul h, rfl⟩
  | destroy kernel dropped => cases kernel <;> cases h
  | inferOutputShape run => exact ⟨status_no_nul customOpFallback_no_nul h, rfl⟩
  | getCapability run => exact ⟨status_no_nul epFallback_no_nul h, rfl⟩
  | createEp made => exact create_failed epFallback_no_nul h
  | releaseEp ep dropped => cases ep <;> cases h
  | createEpFactories maxFactories made =>
    unfold State.exec createEpFactories at h
    dsimp only at h
    split at h
    · cases h
    · split at h <;> cases h
  | releaseEpFactory factory dropped => cases factory <;> cases h
  | threadCreate made => rcases made with (e | u) | _ <;> cases h
  | threadJoin handle joined => cases handle <;> cases h
  | query q =>
    change (s.uncaught _).2.status = some m at h
    unfold State.uncaught at h
    split at h <;> cases h
  | parallelFor => cases h
  | parallelForTrampoline data iteration => cases data <;> cases iteration <;> cases h
  | parallelForReturned data dropped => cases h
  | getName name => cases name <;> cases h
  | getFactoryName name => cases name <;> cases h
  | getVendor name => cases name <;> cases h
  | getVersion => cases h

theorem failed_trace (h : Lts.Trace (plugins ι) (initial ι) ls t) :
    ∀ l ∈ ls, ∀ m, l.2.2.status = some m → '\x00' ∉ m.toList ∧ l.2.2.out = none := by
  induction h with
  | refl => exact fun _ hl => absurd hl List.not_mem_nil
  | snoc _ hstep ih =>
    intro l hl m hm
    rcases List.mem_append.mp hl with hl | hl
    · exact ih l hl m hm
    · cases List.mem_singleton.mp hl
      have hanswer := congrArg Prod.snd hstep.2.2
      exact hanswer ▸ exec_failed (hanswer ▸ hm)

/-- Whatever the code of users does, on whatever threads: what the engine is given is new, and is
released once, when it gives it back; all else that was made is freed, but for the last name of each
thread; no failed call gives anything, and its message is a C string; the process ends if the drop
of what is given back panics, or code behind a call without a catch, and only then; and a name can
be read until the thread asks for another. -/
theorem callbacks_contained (h : Lts.Trace (plugins ι) (initial ι) ls t) :
    (handed ls).Nodup ∧ (reclaimed ls).Nodup ∧ (∀ x ∈ reclaimed ls, x ∈ handed ls) ∧
    (∀ x < t.books.count, t.books.released x ≤ 1 ∧ (t.books.released x = 0 ↔
      (x ∈ handed ls ∧ x ∉ reclaimed ls) ∨ ∃ i, t.lastName i = some x)) ∧
    (∀ l ∈ ls, ∀ m, l.2.2.status = some m → '\x00' ∉ m.toList ∧ l.2.2.out = none) ∧
    (t.aborted = true ↔ ∃ l ∈ ls, l.2.1.DropPanics ∨ l.2.1.Uncaught) ∧
    (∀ before i c a x later, ls = before ++ (i, c, a) :: later → a.name = some (.stored x) →
      (∀ l ∈ later, l.1 = i → ∀ y, l.2.2.name ≠ some (.stored y)) →
      t.books.released x = 0 ∧ ∃ name, c.name = some name ∧ t.text x = nameText name) := by
  have hacc := accounted_trace h
  refine ⟨hacc.handed_nodup, hacc.reclaimed_nodup, hacc.reclaimed_handed, fun x hx => ?_,
    failed_trace h, aborted_trace h, fun before i c a x later hls ha hquiet => ?_⟩
  · have hholder : t.books.holder x = x := by rw [Books.holder, hacc.owner x, Option.getD_none]
    rw [hacc.sound.released x hx, hholder, ← hacc.held x]
    cases t.books.held x <;> simp
  · subst hls
    obtain ⟨s, hbefore, hrest⟩ := h.split
    obtain ⟨u, hstep, hlater⟩ := hrest.first
    obtain ⟨hlast, name, hname, htext⟩ := name_given hstep ha
    have hu := accounted_step (accounted_trace hbefore) hstep
    obtain ⟨hend, hkept, hsame⟩ := name_trace hu hlast hlater hquiet
    have hheld := (hend.held x).mpr (.inr ⟨i, hkept⟩)
    exact ⟨hend.sound.released_held hheld, name, hname, hsame.trans htext⟩

theorem trace_exec (h : Lts.Trace (plugins ι) s ls t) (i : ι) (c : Call)
    (halive : t.aborted = false) (hallowed : c.Allowed t) :
    Lts.Trace (plugins ι) s (ls ++ [(i, c, (t.exec i c).2)]) (t.exec i c).1 :=
  h.snoc ⟨halive, hallowed, rfl⟩

/-- A kernel whose run panics is destroyed; another thread reads the name of a factory meanwhile. -/
theorem callbacks_contained_panic : ∃ ls t, Lts.Trace (plugins Nat) (initial Nat) ls t ∧
    handed ls = [0] ∧ reclaimed ls = [0] ∧ t.books.released 1 = 0 ∧ t.text 1 = "zrt" := by
  have hcreated := trace_exec (.refl (s := initial Nat)) 0 (.createKernel (.returned (.ok ()))) rfl
    ⟨nofun, nofun⟩
  have hnamed := trace_exec hcreated 1 (.getFactoryName (.returned "zrt")) rfl ⟨nofun, nofun⟩
  have hrun := trace_exec hnamed 0 (.compute (some 0) .panicked) rfl
    ⟨fun _ _ hc => by cases hc; exact ⟨rfl, rfl⟩, nofun⟩
  have h := trace_exec hrun 0 (.destroy (some 0) (.returned ())) rfl
    ⟨nofun, fun _ _ _ hc => by cases hc; exact ⟨rfl, rfl⟩⟩
  obtain ⟨-, -, -, -, -, -, hnames⟩ := callbacks_contained h
  obtain ⟨hkept, name, hname, htext⟩ := hnames [_] 1 _ _ 1 [_, _] rfl rfl fun l hl hi => by
    rcases List.mem_cons.mp hl with rfl | hl
    · cases hi
    · cases List.mem_singleton.mp hl
      cases hi
  cases hname
  exact ⟨_, _, h, rfl, rfl, hkept, htext⟩

end Runs

end Zrt.Plugins
