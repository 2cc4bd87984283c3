import Zrt.Build.Specification

/-! What a build links was unpacked from a package that has the pinned digest. -/
namespace Zrt.Build

open Crash

variable {w : World} {pin : String} {target : String} {gpu : Bool} {s t : OutDir} {tree : Tree}
  {p q : Path} {node : Node} {b : Bytes} {bound k : Nat}

theorem lookup_remove : (tree.remove q).lookup p = if p = q then none else tree.lookup p := by
  induction tree with
  | nil => simp [Tree.remove]
  | cons e tree ih =>
    unfold Tree.remove at ih ⊢
    by_cases he : e.1 = q
    · rw [List.filter_cons_of_neg (by simpa using he), ih]
      by_cases hp : p = q
      · simp [hp]
      · rw [if_neg hp, if_neg hp, List.lookup_cons]
        have hne : (p == e.1) = false := by simpa [he] using hp
        simp [hne]
    · rw [List.filter_cons_of_pos (by simpa using he), List.lookup_cons, List.lookup_cons, ih]
      by_cases hp : p = e.1
      · have hpq : p ≠ q := fun h => he (hp ▸ h)
        simp [hp, he]
      · have hne : (p == e.1) = false := by simpa using hp
        simp [hne]

theorem lookup_put : (tree.put q node).lookup p = if p = q then some node else tree.lookup p := by
  unfold Tree.put
  rw [List.lookup_cons, lookup_remove]
  by_cases hp : p = q
  · simp [hp]
  · have hne : (p == q) = false := by simpa using hp
    simp [hne, hp]

theorem mem_paths_remove : p ∈ (tree.remove q).paths ↔ p ∈ tree.paths ∧ p ≠ q := by
  simp only [Tree.paths, Tree.remove, List.mem_map, List.mem_filter, decide_eq_true_eq]
  constructor
  · rintro ⟨e, ⟨he, hne⟩, rfl⟩
    exact ⟨⟨e, he, rfl⟩, hne⟩
  · rintro ⟨⟨e, he, rfl⟩, hne⟩
    exact ⟨e, ⟨he, hne⟩, rfl⟩

theorem mem_paths_put : p ∈ (tree.put q node).paths ↔ p = q ∨ p ∈ tree.paths := by
  have hcons : p ∈ (tree.put q node).paths ↔ p = q ∨ p ∈ (tree.remove q).paths := by
    simp only [Tree.put, Tree.paths, List.map_cons, List.mem_cons]
  rw [hcons, mem_paths_remove]
  by_cases hp : p = q <;> simp [hp]

theorem isDir_iff : tree.isDir p = true ↔
    tree.lookup p = some .dir ∨ ∃ q ∈ tree.paths, p <+: q ∧ p ≠ q := by
  simp [Tree.isDir]

theorem hasLib_remove (h : tree.hasLib = false) : (tree.remove q).hasLib = false := by
  rw [Tree.hasLib, ← Bool.not_eq_true, isDir_iff, not_or] at h ⊢
  refine ⟨fun hdir => h.1 ?_, ?_⟩
  · rw [lookup_remove] at hdir
    split at hdir
    · cases hdir
    · exact hdir
  · rintro ⟨x, hx, hsub⟩
    exact h.2 ⟨x, (mem_paths_remove.mp hx).1, hsub⟩

/-- A package unpacked into an empty directory. -/
def unpackedTree (es : Tree) : Tree := es.foldl (fun t e => t.put e.1 e.2) []

theorem unpackedTree_concat (es : Tree) (e : Path × Node) :
    unpackedTree (es ++ [e]) = (unpackedTree es).put e.1 e.2 := by
  unfold unpackedTree
  rw [List.foldl_append]
  rfl

theorem unpackedTree_ne_none {es : Tree} (h : p ∈ es.paths) :
    (unpackedTree es).lookup p ≠ none := by
  induction es using List.reverseRecOn with
  | nil => cases h
  | append_singleton es e ih =>
    rw [unpackedTree_concat, lookup_put]
    by_cases hp : p = e.1
    · simp [hp]
    · rw [if_neg hp]
      simp only [Tree.paths, List.map_append, List.mem_append] at h
      exact ih (h.resolve_right (by simpa using hp))

variable (w pin)

/-- A path of a package that has the pinned digest. -/
def PinnedPath (p : Path) : Prop := ∃ b, w.sha256 b = pin ∧ p ∈ (w.untar b).paths

/-- The tree holds what the package `b` holds. Any other path is the link that the build puts there,
or comes from other contents with the pinned digest. -/
structure Installed (tree : Tree) (b : Bytes) : Prop where
  digest : w.sha256 b = pin
  entries : ∀ p ∈ (w.untar b).paths, tree.lookup p = (unpackedTree (w.untar b)).lookup p
  others : ∀ p ∈ tree.paths, PinnedPath w pin p ∨
    (p = ["lib", soName] ∧ ∃ version ∈ tree.versions, tree.lookup p = some (.link version))

def Leftover (s : OutDir) : Prop := ∀ t, s.unpacked = some t → ∀ p ∈ t.paths, PinnedPath w pin p

/-- The marker keeps its promise while `lib` exists. -/
def Promise (s : OutDir) : Prop :=
  s.marker = true → ∀ t, s.onnxruntime = some t → t.hasLib = true → ∃ b, Installed w pin t b

/-- What holds wherever a build stops, with at most `bound` requests made. -/
def Kept (bound : Nat) (s : OutDir) : Prop :=
  Leftover w pin s ∧ Promise w pin s ∧ s.requests ≤ bound

/-- No promise is given; `k` requests may follow. -/
def Pending (bound k : Nat) (s : OutDir) : Prop :=
  Leftover w pin s ∧ (s.marker = false ∨ s.hasLib = false) ∧ s.requests + k ≤ bound

def Ready (bound : Nat) (s : OutDir) : Prop :=
  Leftover w pin s ∧ (∃ t b, s.onnxruntime = some t ∧ Installed w pin t b) ∧ s.requests ≤ bound

def Verified (s : OutDir) : Prop := ∃ b, s.archive = some b ∧ w.sha256 b = pin

variable {w pin}

theorem Pending.kept (h : Pending w pin bound k s) : Kept w pin bound s := by
  obtain ⟨hl, hno, hr⟩ := h
  refine ⟨hl, ?_, by omega⟩
  intro hm t ht hlib
  rcases hno with hno | hno
  · simp [hno] at hm
  · simp [OutDir.hasLib, ht, hlib] at hno

theorem Pending.less {m : Nat} (h : Pending w pin bound k s) (hm : m ≤ k) :
    Pending w pin bound m s :=
  ⟨h.1, h.2.1, by have := h.2.2; omega⟩

theorem Ready.kept (h : Ready w pin bound s) : Kept w pin bound s := by
  obtain ⟨hl, ⟨t, b, ht, hi⟩, hr⟩ := h
  refine ⟨hl, ?_, hr⟩
  intro _ t' ht' _
  obtain rfl := Option.some.inj (ht.symm.trans ht')
  exact ⟨b, hi⟩

/-- An operation that fails only by its outcome. -/
theorem eq_of_ok {o : Outcome} {s' : OutDir} (h : (if o.ok then some s' else none) = some t) :
    t = s' := by
  cases ho : o.ok with
  | true => simpa [ho] using h.symm
  | false => simp [ho] at h

theorem attempt_pending {g : OutDir → Outcome → Option OutDir}
    (hg : ∀ s o t, g s o = some t → Pending w pin bound k s → Pending w pin bound k t) :
    Triple (Pending w pin bound k) (Prog.attempt g) (fun _ => Pending w pin bound k)
      (Kept w pin bound) :=
  .attempt (fun _ h => h.kept) (fun s o t hs he => hg s o t he hs) fun _ h => h

theorem removePart_triple : Triple (Pending w pin bound k) (.attempt removePart)
    (fun _ => Pending w pin bound k) (Kept w pin bound) :=
  attempt_pending fun s o t he hs => by
    rw [eq_of_ok he]
    exact hs

/-- The attempt takes one request of those that may follow. -/
theorem request_triple : Triple (Pending w pin bound (k + 1)) (request w)
    (fun _ => Pending w pin bound k) (Kept w pin bound) := by
  refine .op (fun s h => h.kept) fun s o h => ⟨h.1, h.2.1, ?_⟩
  have hr := h.2.2
  show s.requests + 1 + k ≤ bound
  omega

theorem streamBody_triple (body : Bytes) : Triple (Pending w pin bound k) (streamBody body)
    (fun _ => Pending w pin bound k) (Kept w pin bound) := by
  refine .bind (attempt_pending fun s o t he hs => ?_) fun created => ?_
  · rw [eq_of_ok he]
    exact hs
  · refine .ite (fun _ => ?_) fun _ => .pure fun s hs => hs
    refine .bind (Q := fun _ => Pending w pin bound k) (.loop (fun s hs => hs.kept) ?_)
      fun copied => ?_
    · rintro s ⟨ok, more, upto, path⟩ hs
      cases ok
      · exact hs
      · cases more <;> exact hs
    · refine .ite (fun _ => attempt_pending fun s o t he hs => ?_) fun _ => .pure fun s hs => hs
      rw [eq_of_ok he]
      exact hs

theorem downloadOnce_triple : Triple (Pending w pin bound (k + 1)) (downloadOnce w)
    (fun _ => Pending w pin bound k) (Kept w pin bound) := by
  refine .bind request_triple fun resp => ?_
  cases resp with
  | none => exact .pure fun s hs => hs
  | some resp => exact .ite (fun _ => streamBody_triple resp.body) fun _ => .pure fun s hs => hs

/-- By induction on the attempts that are left. -/
theorem downloadLoop_triple (attempts : Nat) : Triple (Pending w pin bound attempts)
    (downloadLoop w attempts) (fun _ => Pending w pin bound 0) (Kept w pin bound) := by
  induction attempts with
  | zero => exact .abort fun s hs => hs.kept
  | succ attempts ih =>
    refine .bind downloadOnce_triple fun downloaded => .ite (fun _ => ?_) fun _ => ?_
    · refine .bind (attempt_pending fun s o t he hs => ?_) fun renamed =>
        .ite (fun _ => ?_) fun _ => ?_
      · unfold renamePart at he
        split at he
        · rw [← Option.some.inj he]
          exact hs
        · cases he
      · exact .pure fun s hs => hs.less (Nat.zero_le _)
      · exact .bind removePart_triple fun _ => .abort fun s hs => hs.kept
    · exact .bind removePart_triple fun _ => ih

theorem downloadWithRetries_triple : Triple (Pending w pin bound downloadAttempts)
    (downloadWithRetries w) (fun _ => Pending w pin bound 0) (Kept w pin bound) :=
  .bind removePart_triple fun _ => downloadLoop_triple _

theorem sha256File_triple : Triple (Pending w pin bound k) (sha256File w)
    (fun got s => Pending w pin bound k s ∧ ∃ b, s.archive = some b ∧ w.sha256 b = got)
    (Kept w pin bound) := by
  have hread : Triple (Pending w pin bound k)
      (.op fun s (o : Outcome) => (s, if o.ok then s.archive.map w.sha256 else none))
      (fun got s => Pending w pin bound k s ∧
        ∀ d, got = some d → ∃ b, s.archive = some b ∧ w.sha256 b = d) (Kept w pin bound) := by
    refine .op (fun s hs => hs.kept) fun s o hs => ⟨hs, fun d hd => ?_⟩
    cases ho : o.ok <;> simp [ho] at hd
    exact hd
  refine hread.bind fun got => ?_
  cases got with
  | none => exact .abort fun s hs => hs.1.kept
  | some d => exact .pure fun s hs => ⟨hs.1, hs.2 d rfl⟩

theorem verifyCached_triple : Triple (Pending w pin bound k) (verifyCached w pin)
    (fun got s => Pending w pin bound k s ∧ (got.isSome = true → Verified w pin s))
    (Kept w pin bound) := by
  refine .bind (Q := fun _ => Pending w pin bound k) (.read fun s hs => hs) fun cached => ?_
  refine .ite (fun _ => ?_) fun _ => .pure fun s hs => ⟨hs, fun h => by cases h⟩
  refine .bind sha256File_triple fun got => .ite (fun hgot => ?_) fun _ => ?_
  · exact .pure fun s hs => ⟨hs.1, fun _ => hgot ▸ hs.2⟩
  · have hremove : Triple (fun s => Pending w pin bound k s ∧ ∃ b, s.archive = some b ∧
        w.sha256 b = got) (.expect removeArchive) (fun _ => Pending w pin bound k)
        (Kept w pin bound) := by
      refine .expect (fun s hs => hs.1.kept) fun s o t hs he => ?_
      rw [eq_of_ok he]
      exact hs.1
    exact .bind hremove fun _ => .pure fun s hs => ⟨hs, fun h => by cases h⟩

theorem acquireVerifiedArchive_triple : Triple (Pending w pin bound downloadAttempts)
    (acquireVerifiedArchive w pin) (fun _ s => Pending w pin bound 0 s ∧ Verified w pin s)
    (Kept w pin bound) := by
  refine .bind verifyCached_triple fun cached => ?_
  cases cached with
  | some got => exact .pure fun s hs => ⟨hs.1.less (Nat.zero_le _), hs.2 rfl⟩
  | none =>
    refine .bind (downloadWithRetries_triple.pre fun s hs => hs.1) fun _ => ?_
    refine .bind sha256File_triple fun got => .ite (fun hgot => ?_) fun _ => ?_
    · exact .pure fun s hs => ⟨hs.1, hgot ▸ hs.2⟩
    · exact .abort fun s hs => hs.1.kept

/-- Removing paths gives back no `lib`. -/
theorem removeDirAll_triple :
    Triple (fun s => Pending w pin bound k s ∧ Verified w pin s) (.loop removeDirAll)
      (fun _ s => Pending w pin bound k s ∧ Verified w pin s) (Kept w pin bound) := by
  refine .loop (fun s hs => hs.1.kept) ?_
  rintro s ⟨ok, more, upto, path⟩ ⟨⟨hl, hno, hr⟩, hv⟩
  cases ok
  · exact ⟨⟨hl, hno, hr⟩, hv⟩
  · cases more
    · exact ⟨⟨hl, hno.imp_right fun _ => rfl, hr⟩, hv⟩
    · refine ⟨⟨hl, hno.imp_right fun h => ?_, hr⟩, hv⟩
      unfold OutDir.hasLib at h
      show (s.onnxruntime.map fun t => t.remove path).any Tree.hasLib = false
      cases ht : s.onnxruntime with
      | none => rfl
      | some t =>
        rw [ht] at h
        exact hasLib_remove h

theorem removeExtracted_triple :
    Triple (fun s => Pending w pin bound k s ∧ Verified w pin s) removeExtracted
      (fun _ s => Pending w pin bound k s ∧ Verified w pin s) (Kept w pin bound) := by
  refine .bind (Q := fun _ s => Pending w pin bound k s ∧ Verified w pin s) (.read fun s hs => hs)
    fun present => .ite (fun _ => ?_) fun _ => .pure fun s hs => hs
  exact removeDirAll_triple.bind fun _ => .pure fun s hs => hs

/-- The entries `es` are unpacked, but for a path that is being written. -/
def Written (es : Tree) (writing : Path → Prop) (s : OutDir) : Prop :=
  ∀ t, s.unpacked = some t → ∀ p ∈ es.paths, ¬ writing p →
    t.lookup p = (unpackedTree es).lookup p

theorem leftover_put (h : Leftover w pin s) (hq : PinnedPath w pin q) :
    Leftover w pin { s with unpacked := some (Tree.put (s.unpacked.getD []) q node) } := by
  intro t ht p hp
  obtain rfl := Option.some.inj ht
  rcases mem_paths_put.mp hp with rfl | hp
  · exact hq
  · cases hs : s.unpacked with
    | none => simp [hs, Tree.paths] at hp
    | some t => exact h t hs p (by simpa [hs] using hp)

theorem lookup_getD {es : Tree} {writing : Path → Prop} (h : Written es writing s)
    (hu : s.unpacked = none → es = []) (hp : p ∈ es.paths) (hw : ¬ writing p) :
    (s.unpacked.getD []).lookup p = (unpackedTree es).lookup p := by
  cases hs : s.unpacked with
  | none => simp [hu hs, Tree.paths] at hp
  | some t => exact h t hs p hp hw

/-- Entries that are written are somewhere. -/
def Placed (es : Tree) (s : OutDir) : Prop := s.unpacked = none → es = []

theorem unpackEntry_triple {es : Tree} {e : Path × Node} (he : PinnedPath w pin e.1) :
    Triple (fun s => Pending w pin bound k s ∧ Written es (fun _ => False) s ∧ Placed es s)
      (.loop (unpackEntry e))
      (fun a s => Pending w pin bound k s ∧
        (a = true → Written (es ++ [e]) (fun _ => False) s ∧ Placed (es ++ [e]) s))
      (Kept w pin bound) := by
  have hloop : Triple (fun s => Pending w pin bound k s ∧ Written es (· = e.1) s ∧ Placed es s)
      (.loop (unpackEntry e))
      (fun a s => Pending w pin bound k s ∧
        (a = true → Written (es ++ [e]) (fun _ => False) s ∧ Placed (es ++ [e]) s))
      (Kept w pin bound) := by
    refine .loop (fun s hs => hs.1.kept) ?_
    rintro s ⟨ok, more, upto, path⟩ ⟨⟨hl, hno, hr⟩, hw, hu⟩
    cases ok
    · exact ⟨⟨hl, hno, hr⟩, fun h => by cases h⟩
    · cases more
      · refine ⟨⟨leftover_put hl he, hno, hr⟩, fun _ => ⟨?_, fun h => by cases h⟩⟩
        intro t ht p hp _
        obtain rfl := Option.some.inj ht
        rw [unpackedTree_concat, lookup_put, lookup_put]
        by_cases hpe : p = e.1
        · rw [if_pos hpe, if_pos hpe]
        · rw [if_neg hpe, if_neg hpe]
          refine lookup_getD hw hu ?_ hpe
          simp only [Tree.paths, List.map_append, List.mem_append] at hp
          exact hp.resolve_right (by simpa using hpe)
      · refine ⟨⟨leftover_put hl he, hno, hr⟩, ?_, fun h => by cases h⟩
        intro t ht p hp hne
        obtain rfl := Option.some.inj ht
        rw [lookup_put, if_neg hne]
        exact lookup_getD hw hu hp hne
  refine hloop.pre fun s hs => ⟨hs.1, ?_, hs.2.2⟩
  exact fun t ht p hp _ => hs.2.1 t ht p hp id

/-- By induction on the entries that are left. -/
theorem unpackEntries_triple (es rest : Tree) (h : ∀ e ∈ rest, PinnedPath w pin e.1) :
    Triple (fun s => Pending w pin bound k s ∧ Written es (fun _ => False) s ∧ Placed es s)
      (unpackEntries rest)
      (fun _ s => Pending w pin bound k s ∧ Written (es ++ rest) (fun _ => False) s)
      (Kept w pin bound) := by
  induction rest generalizing es with
  | nil =>
    refine .expect (fun s hs => hs.1.kept) fun s o t hs he => ?_
    rw [eq_of_ok he, List.append_nil]
    exact ⟨hs.1, hs.2.1⟩
  | cons e rest ih =>
    have hentry := @unpackEntry_triple w pin bound k es e (h e List.mem_cons_self)
    refine hentry.bind fun written => .ite (fun hwritten => ?_) fun _ => ?_
    · have hrest := ih (es ++ [e]) fun e' he' => h e' (List.mem_cons_of_mem _ he')
      rw [List.append_assoc] at hrest
      exact hrest.pre fun s hs => ⟨hs.1, hs.2 hwritten⟩
    · exact .abort fun s hs => hs.1.kept

/-- What is unpacked is a package with the pinned digest, over what earlier builds left of such. -/
def Unpacked (w : World) (pin : String) (s : OutDir) : Prop :=
  ∃ b, w.sha256 b = pin ∧ ∀ t, s.unpacked = some t → Installed w pin t b

theorem extractTgz_triple :
    Triple (fun s => Pending w pin bound k s ∧ Verified w pin s) (extractTgz w)
      (fun _ s => Pending w pin bound k s ∧ Unpacked w pin s) (Kept w pin bound) := by
  have hopen : Triple (fun s => Pending w pin bound k s ∧ Verified w pin s)
      (.op fun s (o : Outcome) => (s, if o.ok then s.archive else none))
      (fun archive s => Pending w pin bound k s ∧ ∀ b, archive = some b → w.sha256 b = pin)
      (Kept w pin bound) := by
    refine .op (fun s hs => hs.1.kept) fun s o hs => ⟨hs.1, fun b hb => ?_⟩
    obtain ⟨b', ha, hd⟩ := hs.2
    cases ho : o.ok <;> simp [ho, ha] at hb
    exact hb ▸ hd
  refine hopen.bind fun archive => ?_
  cases archive with
  | none => exact .abort fun s hs => hs.1.kept
  | some b =>
    intro s os hs
    have hb : w.sha256 b = pin := hs.2 b rfl
    have hpaths : ∀ e ∈ w.untar b, PinnedPath w pin e.1 := fun e he =>
      ⟨b, hb, List.mem_map_of_mem he⟩
    have hunpack := @unpackEntries_triple w pin bound k [] (w.untar b) hpaths
    refine hunpack.post (fun _ t ht => ⟨ht.1, b, hb, fun tree htree => ?_⟩) s os
      ⟨hs.1, fun _ _ p hp => (by cases hp), fun _ => rfl⟩
    exact ⟨hb, fun p hp => ht.2 tree htree p hp id, fun p hp => .inl (ht.1.1 tree htree p hp)⟩

theorem renameUnpacked_triple :
    Triple (fun s => Pending w pin bound 0 s ∧ Unpacked w pin s) (.expect renameUnpacked)
      (fun _ => Ready w pin bound) (Kept w pin bound) := by
  refine .expect (fun s hs => hs.1.kept) fun s o t hs he => ?_
  obtain ⟨⟨-, -, hr⟩, b, -, hi⟩ := hs
  unfold renameUnpacked at he
  split at he
  next hc =>
    rw [← Option.some.inj he]
    cases hu : s.unpacked with
    | none => simp [hu] at hc
    | some tree => exact ⟨fun t ht => (by cases ht), ⟨tree, b, rfl, hi tree hu⟩, hr⟩
  next => cases he

theorem install_triple : Triple (Pending w pin bound downloadAttempts) (install w pin)
    (fun _ => Ready w pin bound) (Kept w pin bound) := by
  have hmarker : Triple (Pending w pin bound downloadAttempts) (.attempt removeMarker)
      (fun _ => Pending w pin bound downloadAttempts) (Kept w pin bound) :=
    attempt_pending fun s o t he hs => by
      rw [eq_of_ok he]
      exact ⟨hs.1, .inl rfl, hs.2.2⟩
  have hcreate : Triple (Ready w pin bound) (.attempt createMarker) (fun _ => Ready w pin bound)
      (Kept w pin bound) :=
    .attempt (fun s hs => hs.kept) (fun s o t hs he => by rw [eq_of_ok he]; exact hs) fun s hs => hs
  refine hmarker.bind fun _ => acquireVerifiedArchive_triple.bind fun _ => ?_
  refine removeExtracted_triple.bind fun _ => extractTgz_triple.bind fun _ =>
    renameUnpacked_triple.bind fun _ => ?_
  exact hcreate.bind fun _ => .pure fun s hs => hs

variable (w pin) in
/-- What holds between builds, with room for the requests of one more. -/
def Between (bound : Nat) (s : OutDir) : Prop :=
  Leftover w pin s ∧ Promise w pin s ∧ s.requests + downloadAttempts ≤ bound

theorem Between.kept (h : Between w pin bound s) : Kept w pin bound s :=
  ⟨h.1, h.2.1, by have := h.2.2; omega⟩

theorem provide_triple : Triple (Between w pin bound) (provide w pin)
    (fun _ => Ready w pin bound) (Kept w pin bound) := by
  refine .bind (Q := fun promised s => Between w pin bound s ∧ promised = (s.marker && s.hasLib))
    (.read fun s hs => ⟨hs, rfl⟩) fun promised => .ite (fun hyes => ?_) fun hno => ?_
  · refine .pure fun s ⟨hs, hp⟩ => ⟨hs.1, ?_, hs.kept.2.2⟩
    obtain ⟨hm, hlib⟩ := Bool.and_eq_true_iff.mp (hp.symm.trans hyes)
    obtain ⟨tree, ht, hlib⟩ := (Option.any_eq_true ..).mp hlib
    obtain ⟨b, hb⟩ := hs.2.1 hm tree ht hlib
    exact ⟨tree, b, ht, hb⟩
  · refine install_triple.pre fun s ⟨hs, hp⟩ => ⟨hs.1, ?_, hs.2.2⟩
    rw [hp, Bool.and_eq_true_iff, not_and_or, Bool.not_eq_true, Bool.not_eq_true] at hno
    exact hno

theorem firstVersion_mem {path : Path} {version : String}
    (h : firstVersion tree path = some version) : version ∈ tree.versions := by
  unfold firstVersion at h
  rcases Option.or_eq_some_iff.mp h with h | ⟨-, h⟩
  · exact List.mem_of_find?_eq_some h
  · exact List.mem_of_mem_head? h

theorem versions_put (h : q ∉ tree.paths) : tree.versions ⊆ (tree.put q node).versions := by
  have hput : tree.put q node = (q, node) :: tree := by
    unfold Tree.put Tree.remove
    rw [List.filter_eq_self.mpr]
    intro e he
    have hne : e.1 ≠ q := fun heq => h (heq ▸ List.mem_map_of_mem he)
    simpa using hne
  intro version hv
  rw [hput]
  unfold Tree.versions at hv ⊢
  exact List.Sublist.subset (List.Sublist.filterMap _ (List.sublist_cons_self q tree.paths)) hv

theorem not_mem_paths (h : tree.lookup p = none) : p ∉ tree.paths := by
  intro hp
  obtain ⟨e, he, rfl⟩ := List.mem_map.mp hp
  rw [List.lookup_eq_none_iff] at h
  simpa using h e he

/-- The link is put where the package has nothing. -/
theorem Installed.link {version : String} (h : Installed w pin tree b)
    (hno : tree.lookup ["lib", soName] = none) (hv : version ∈ tree.versions) :
    Installed w pin (tree.put ["lib", soName] (.link version)) b := by
  have hso := not_mem_paths hno
  have hnot : ["lib", soName] ∉ (w.untar b).paths := by
    intro hp
    exact unpackedTree_ne_none hp ((h.entries _ hp).symm.trans hno)
  refine ⟨h.digest, fun p hp => ?_, fun p hp => ?_⟩
  · have hne : p ≠ ["lib", soName] := fun heq => hnot (heq ▸ hp)
    rw [lookup_put, if_neg hne]
    exact h.entries p hp
  · by_cases heq : p = ["lib", soName]
    · refine .inr ⟨heq, version, versions_put hso hv, ?_⟩
      rw [lookup_put, if_pos heq]
    · rcases h.others p ((mem_paths_put.mp hp).resolve_left heq) with hp | ⟨hp, -⟩
      · exact .inl hp
      · exact absurd hp heq

theorem symlinkSo_triple {version : String} :
    Triple (fun s => Ready w pin bound s ∧ ∀ t, s.onnxruntime = some t → version ∈ t.versions)
      (.expect (symlinkSo version)) (fun _ => Ready w pin bound) (Kept w pin bound) := by
  refine .expect (fun s hs => hs.1.kept) fun s o t ⟨⟨hl, ⟨tree, b, htree, hi⟩, hr⟩, hv⟩ he => ?_
  simp only [symlinkSo, htree, Option.getD_some] at he
  split at he
  next hc =>
    rw [← Option.some.inj he]
    simp only [Bool.and_eq_true, Option.isNone_iff_eq_none] at hc
    exact ⟨hl, ⟨_, b, rfl, hi.link hc.1.2 (hv tree htree)⟩, hr⟩
  next => cases he

theorem linkVersion_triple : Triple (Ready w pin bound) linkVersion (fun _ => Ready w pin bound)
    (Kept w pin bound) := by
  refine .bind (Q := fun tree s => Ready w pin bound s ∧ tree = s.onnxruntime.getD [])
    (.read fun s hs => ⟨hs, rfl⟩) fun tree => .ite (fun _ => .pure fun s hs => hs.1) fun _ => ?_
  refine .bind (Q := fun listed s => Ready w pin bound s ∧ ∀ version, listed = some (some version) →
    ∀ t, s.onnxruntime = some t → version ∈ t.versions) (.op (fun s hs => hs.1.kept) ?_)
      fun listed => ?_
  · rintro s o ⟨hs, rfl⟩
    refine ⟨hs, fun version hl t ht => ?_⟩
    cases ho : o.ok <;> simp only [ho, Bool.false_eq_true, if_false, if_true, reduceCtorEq,
      Option.some.injEq] at hl
    rw [ht] at hl
    exact firstVersion_mem hl
  · match listed with
    | none => exact .pure fun s hs => hs.1
    | some none => exact .abort fun s hs => hs.1.kept
    | some (some version) => exact symlinkSo_triple.pre fun s hs => ⟨hs.1, hs.2 version rfl⟩

theorem main_triple {slug ext : String} (ha : assetFor target gpu = some (slug, ext, pin)) :
    Triple (Between w pin bound) (main w target gpu) (fun _ => Ready w pin bound)
      (Kept w pin bound) := by
  unfold main
  rw [ha]
  refine provide_triple.bind fun _ => ?_
  refine .bind (Q := fun _ => Ready w pin bound) (.ensure (fun s hs => hs.kept) fun s hs _ => hs)
    fun _ => .ite (fun _ => linkVersion_triple) fun _ => .pure fun s hs => hs

theorem between_reachable {slug ext : String} (ha : assetFor target gpu = some (slug, ext, pin))
    (h : Reachable w target gpu s) : Leftover w pin s ∧ Promise w pin s := by
  induction h with
  | initial h =>
    obtain rfl := h
    exact ⟨fun t ht => (by cases ht), fun hm => (by cases hm)⟩
  | @step s t a _ hstep ih =>
    rw [← show step w target gpu s a = t from hstep]
    cases a with
    | build outcomes =>
      have hmain : Triple (Between w pin (s.requests + downloadAttempts)) (main w target gpu)
          (fun _ => Ready w pin _) (Kept w pin _) := main_triple ha
      have hkept : Kept w pin (s.requests + downloadAttempts) (main w target gpu s outcomes).1 :=
        hmain.anywhere (fun _ t ht => ht.kept) ⟨ih.1, ih.2, le_rfl⟩
      exact ⟨hkept.1, hkept.2.1⟩
    | rot archive part => exact ih
    | wipe onnxruntime marker =>
      simp only [step]
      split
      next => exact ih
      next hno =>
        refine ⟨ih.1, fun _ t ht hlib => absurd ?_ hno⟩
        rw [show onnxruntime = some t from ht]
        exact hlib

theorem lookup_eq_none (h : p ∉ tree.paths) : tree.lookup p = none := by
  rw [List.lookup_eq_none_iff]
  intro e he
  have hne : p ≠ e.1 := fun heq => h (heq ▸ List.mem_map_of_mem he)
  simpa using hne

theorem unpackedTree_paths {es : Tree} (h : p ∈ (unpackedTree es).paths) : p ∈ es.paths := by
  induction es using List.reverseRecOn with
  | nil => cases h
  | append_singleton es e ih =>
    rw [unpackedTree_concat] at h
    simp only [Tree.paths, List.map_append, List.mem_append, List.map_cons, List.map_nil,
      List.mem_singleton]
    exact (mem_paths_put.mp h).elim .inr fun h => .inl (ih h)

/-- Where no other contents have the digest, the tree is the package, but for the link. -/
theorem Installed.exact (h : Installed w pin tree b) (hb : ∀ b', w.sha256 b' = pin → b' = b)
    (hp : p ≠ ["lib", soName]) : tree.lookup p = (unpackedTree (w.untar b)).lookup p := by
  by_cases hin : p ∈ (w.untar b).paths
  · exact h.entries p hin
  · have hnot : p ∉ tree.paths := by
      intro hmem
      rcases h.others p hmem with ⟨b', hb', hp'⟩ | ⟨heq, -⟩
      · exact hin (hb b' hb' ▸ hp')
      · exact hp heq
    rw [lookup_eq_none hnot, lookup_eq_none fun hmem => hin (unpackedTree_paths hmem)]

/-- After any builds, killed or failed at any operation, with files that rot between them and any
answers of the server: a build asks the server three times at most, and one that links links a tree
unpacked from a package that has the pinned digest. -/
theorem links_pinned_package {slug ext : String} (hr : Reachable w target gpu s)
    (ha : assetFor target gpu = some (slug, ext, pin)) (outcomes : List Outcome) :
    (main w target gpu s outcomes).1.requests ≤ s.requests + downloadAttempts ∧
    ∀ rest, (main w target gpu s outcomes).2 = .done () rest →
      ∃ tree b, (main w target gpu s outcomes).1.onnxruntime = some tree ∧
        Installed w pin tree b ∧
        ((∀ b', w.sha256 b' = pin → b' = b) → ∀ p, p ≠ ["lib", soName] →
          tree.lookup p = (unpackedTree (w.untar b)).lookup p) := by
  obtain ⟨hl, hp⟩ := between_reachable ha hr
  have hs : Between w pin (s.requests + downloadAttempts) s := ⟨hl, hp, le_rfl⟩
  refine ⟨((main_triple ha).anywhere (fun _ t ht => ht.kept) hs).2.2, fun rest h => ?_⟩
  obtain ⟨-, ⟨tree, b, ht, hi⟩, -⟩ := (main_triple ha).done hs (Prod.ext rfl h)
  exact ⟨tree, b, ht, hi, fun hb p hp => hi.exact hb hp⟩

def linuxTarget : String := "x86_64-unknown-linux-gnu"

/-- A server that has the package of one versioned library. -/
def unitWorld : World where
  sha256 b := if b = [1] then
    "c3fddc4f139a045b0c4902c57410f0694f1c2fdf9b6939fbe38b1aeae7cd14ba" else ""
  untar _ := [(["lib", "libonnxruntime.so.1"], .file [7])]
  net _ := ⟨200, [1]⟩

/-- The first build is killed while it downloads, the second one links. -/
theorem links_pinned_package_killed : ∃ s tree b, Reachable unitWorld linuxTarget false s ∧
    s.part = some [] ∧
    (main unitWorld linuxTarget false s (.replicate 20 ⟨true, false, 0, []⟩)).1.onnxruntime =
      some tree ∧ unitWorld.sha256 b =
        "c3fddc4f139a045b0c4902c57410f0694f1c2fdf9b6939fbe38b1aeae7cd14ba" := by
  have hr : Reachable unitWorld linuxTarget false (step unitWorld linuxTarget false .empty
      (.build (.replicate 4 ⟨true, false, 0, []⟩))) := .step (.initial rfl) rfl
  obtain ⟨-, h⟩ := links_pinned_package hr rfl (.replicate 20 ⟨true, false, 0, []⟩)
  obtain ⟨tree, b, ht, hi, -⟩ := h _ rfl
  exact ⟨_, tree, b, hr, rfl, ht, hi.digest⟩

end Zrt.Build
