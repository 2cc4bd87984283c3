import Zrt.Build.Integrity

/-! No state of `OUT_DIR` is one that builds cannot get out of. -/
namespace Zrt.Build

open Crash

variable {w : World} {pin : String} {target : String} {gpu : Bool} {s t : OutDir}
  {tree pkg : Tree} {p q : Path} {b : Bytes} {bound n j k : Nat} {name : String}

/-- The operation succeeds in one step. -/
def Outcome.Good (o : Outcome) : Prop := o.ok = true ∧ o.more = false

theorem attempt_good {g : OutDir → OutDir} {P : OutDir → Prop} {Q : Bool → OutDir → Prop}
    (h : ∀ s, P s → Q true (g s)) :
    Finishes Outcome.Good 1 P (.attempt fun s o => if o.ok then some (g s) else none) Q :=
  .attempt fun s _ hs ho => ⟨g s, if_pos ho.1, h s hs⟩

theorem streamBody_finishes (body : Bytes) : Finishes Outcome.Good 3
    (fun s => s.requests = n) (streamBody body)
    (fun a s => s.requests = n ∧ a = true ∧ s.part = some body) := by
  refine .bind (m := 1) (n := 2) (Q := fun a s => s.requests = n ∧ a = true)
    (attempt_good fun s hs => ⟨hs, rfl⟩) fun created => .ite (fun _ => ?_) fun hno => ?_
  · refine .bind (m := 1) (n := 1) (Q := fun a s => s.requests = n ∧ a = true ∧ s.part = some body)
      (.loop ?_) fun copied => .ite (fun _ => ?_) fun hno => ?_
    · rintro s ⟨ok, more, upto, path⟩ ⟨hs, -⟩ ⟨rfl, rfl⟩
      exact ⟨{ s with part := some body }, true, rfl, hs, rfl, rfl⟩
    · exact attempt_good fun s hs => ⟨hs.1, rfl, hs.2.2⟩
    · exact fun s os hs _ _ => absurd hs.2.1 hno
  · exact fun s os hs _ _ => absurd hs.2 hno

theorem downloadOnce_finishes : Finishes Outcome.Good 4
    (fun s => s.requests = n) (downloadOnce w)
    (fun a s => s.requests = n + 1 ∧ (a = true ↔ (w.net n).status = 200) ∧
      (a = true → s.part = some (w.net n).body)) := by
  refine .bind (m := 1) (n := 3) (Q := fun resp s => s.requests = n + 1 ∧ resp = some (w.net n))
    (.op ?_) fun resp => ?_
  · rintro s o rfl ho
    exact ⟨rfl, if_pos ho.1⟩
  · rintro s os ⟨hs, rfl⟩
    refine Finishes.ite (c := (w.net n).status = 200) (n := 3) (P := fun s => s.requests = n + 1)
      (fun h => ?_) (fun h => ?_) s os hs
    · exact (streamBody_finishes _).conseq (fun s hs => hs)
        fun a s hs => ⟨hs.1, iff_of_true hs.2.1 h, fun _ => hs.2.2⟩
    · exact (Finishes.pure fun s hs => ⟨hs, by simp [h], by simp⟩).mono (Nat.zero_le 3)

/-- By induction on the attempts, up to the one that is answered with the package. -/
theorem downloadLoop_finishes (hj : j < k) (hnet : w.net (n + j) = ⟨200, b⟩)
    (hbefore : ∀ i < j, (w.net (n + i)).status ≠ 200) : Finishes Outcome.Good (5 * k)
    (fun s => s.requests = n) (downloadLoop w k) (fun _ s => s.archive = some b) := by
  induction k generalizing n j with
  | zero => omega
  | succ k ih =>
    refine (Finishes.bind (m := 4) (n := 1 + 5 * k) downloadOnce_finishes fun downloaded => ?_).mono
      (by omega)
    refine .ite (fun hyes => ?_) fun hno => ?_
    · have hrename : Finishes Outcome.Good 1
          (fun s => s.requests = n + 1 ∧ (downloaded = true ↔ (w.net n).status = 200) ∧
            (downloaded = true → s.part = some (w.net n).body))
          (.attempt renamePart) (fun a s => a = true ∧ s.archive = some b) := by
        refine .attempt fun s o hs ho => ?_
        have hzero : j = 0 := by
          by_contra hne
          exact hbefore 0 (by omega) (hs.2.1.mp hyes)
        subst hzero
        have hpart := hs.2.2 hyes
        rw [show w.net n = ⟨200, b⟩ from hnet] at hpart
        refine ⟨{ s with archive := s.part, part := none }, ?_, rfl, hpart⟩
        simp [renamePart, ho.1, hpart]
      refine (hrename.bind (n := 0) fun renamed => .ite (fun _ => ?_) fun hno => ?_).mono (by omega)
      · exact .pure fun s hs => hs.2
      · exact fun s os hs _ _ => absurd hs.1 hno
    · have hremove : Finishes Outcome.Good 1
          (fun s => s.requests = n + 1 ∧ (downloaded = true ↔ (w.net n).status = 200) ∧
            (downloaded = true → s.part = some (w.net n).body))
          (.attempt removePart) (fun _ s => s.requests = n + 1 ∧ (w.net n).status ≠ 200) :=
        attempt_good fun s hs => ⟨hs.1, fun h => hno (hs.2.1.mpr h)⟩
      refine hremove.bind fun _ => ?_
      intro s os hs
      obtain ⟨j, rfl⟩ : ∃ i, j = i + 1 := by
        refine Nat.exists_eq_add_one.mpr (Nat.pos_of_ne_zero ?_)
        rintro rfl
        exact hs.2 (by rw [show w.net n = ⟨200, b⟩ from hnet])
      refine ih (n := n + 1) (j := j) (by omega) ?_ ?_ s os hs.1
      · rw [← hnet]
        congr 1
        omega
      · intro i hi
        have hne := hbefore (i + 1) (by omega)
        rwa [← Nat.add_assoc, Nat.add_right_comm] at hne

theorem sha256File_finishes {P : OutDir → Prop} {a : Bytes} (h : ∀ s, P s → s.archive = some a) :
    Finishes Outcome.Good 1 P (sha256File w) (fun got s => P s ∧ got = w.sha256 a) := by
  refine .bind (m := 1) (n := 0) (Q := fun got s => P s ∧ got = some (w.sha256 a)) (.op ?_)
    fun got => ?_
  · intro s o hs ho
    exact ⟨hs, by simp [ho.1, h s hs]⟩
  · intro s os hs
    obtain ⟨hs, rfl⟩ := hs
    exact Finishes.pure (fun s hs => ⟨hs, rfl⟩) s os hs

/-- A cached archive that passes is the package. -/
theorem verifyCached_finishes (hb : ∀ b', w.sha256 b' = pin ↔ b' = b) : Finishes Outcome.Good 2
    (fun s => s.requests = n) (verifyCached w pin)
    (fun got s => s.requests = n ∧ (got.isSome = true → s.archive = some b)) := by
  intro s os hs
  cases ha : s.archive with
  | none =>
    have hread : Finishes Outcome.Good 0 (fun s => s.requests = n ∧ s.archive = none)
        (verifyCached w pin) (fun got s => s.requests = n ∧
          (got.isSome = true → s.archive = some b)) := by
      refine .bind (m := 0) (n := 0) (Q := fun cached s => s.requests = n ∧ cached = false)
        (.read fun s hs => ⟨hs.1, by rw [hs.2]; rfl⟩) fun cached =>
          .ite (fun hyes => ?_) fun _ => ?_
      · exact fun s os hs _ _ => absurd (hyes.symm.trans hs.2) (by decide)
      · exact .pure fun s hs => ⟨hs.1, fun h => by cases h⟩
    exact (hread.mono (by omega)) s os ⟨hs, ha⟩
  | some a =>
    have hread : Finishes Outcome.Good 2 (fun s => s.requests = n ∧ s.archive = some a)
        (verifyCached w pin) (fun got s => s.requests = n ∧
          (got.isSome = true → s.archive = some b)) := by
      refine .bind (m := 0) (n := 2)
        (Q := fun cached s => (s.requests = n ∧ s.archive = some a) ∧ cached = true)
        (.read fun s hs => ⟨hs, by rw [hs.2]; rfl⟩) fun cached => .ite (fun _ => ?_) fun hno => ?_
      · refine .bind (m := 1) (n := 1) (sha256File_finishes (a := a) fun s hs =>
          hs.1.2) fun got => ?_
        refine .ite (fun hgot => ?_) fun _ => ?_
        · refine (Finishes.pure fun s hs => ⟨hs.1.1.1, fun _ => ?_⟩).mono (Nat.zero_le 1)
          rw [hs.1.1.2, (hb a).mp (hs.2.symm.trans hgot)]
        · refine .bind (m := 1) (n := 0) (Q := fun _ s => s.requests = n)
            (.expect fun s o hs ho =>
              ⟨{ s with archive := none }, if_pos ho.1, hs.1.1.1⟩) fun _ => ?_
          exact .pure fun s hs => ⟨hs, fun h => by cases h⟩
      · exact fun s os hs _ _ => absurd hs.2 hno
    exact hread s os ⟨hs, ha⟩

theorem acquireVerifiedArchive_finishes (hb : ∀ b', w.sha256 b' = pin ↔ b' = b)
    (hj : j < downloadAttempts) (hnet : w.net (n + j) = ⟨200, b⟩)
    (hbefore : ∀ i < j, (w.net (n + i)).status ≠ 200) : Finishes Outcome.Good 19
    (fun s => s.requests = n) (acquireVerifiedArchive w pin) (fun _ s => s.archive = some b) := by
  refine .bind (m := 2) (n := 17) (verifyCached_finishes hb) fun cached => ?_
  cases cached with
  | some got => exact (Finishes.pure fun s hs => hs.2 rfl).mono (Nat.zero_le 17)
  | none =>
    have hdownload : Finishes Outcome.Good 16
        (fun s => s.requests = n ∧ ((none : Option String).isSome = true → s.archive = some b))
        (downloadWithRetries w) (fun _ s => s.archive = some b) := by
      refine .bind (m := 1) (n := 15) (Q := fun _ s => s.requests = n)
        (attempt_good fun s hs => hs.1) fun _ => ?_
      exact downloadLoop_finishes hj hnet hbefore
    refine .bind (m := 16) (n := 1) hdownload fun _ => ?_
    refine .bind (m := 1) (n := 0) (sha256File_finishes (a := b) fun s hs => hs) fun got => ?_
    refine .ite (fun _ => .pure fun s hs => hs.1) fun hno => ?_
    exact fun s os hs _ _ => absurd (hs.2.trans ((hb b).mpr rfl)) hno

theorem removeExtracted_finishes : Finishes Outcome.Good 1 (fun s => s.archive = some b)
    removeExtracted (fun _ s => s.archive = some b ∧ s.onnxruntime = none) := by
  refine .bind (m := 0) (n := 1)
    (Q := fun present s => s.archive = some b ∧ present = s.onnxruntime.isSome)
    (.read fun s hs => ⟨hs, rfl⟩) fun present => .ite (fun _ => ?_) fun hno => ?_
  · refine .bind (m := 1) (n := 0) (Q := fun _ s => s.archive = some b ∧ s.onnxruntime = none)
      (.loop ?_) fun _ => .pure fun s hs => hs
    rintro s ⟨ok, more, upto, path⟩ ⟨hs, -⟩ ⟨rfl, rfl⟩
    exact ⟨{ s with onnxruntime := none }, true, rfl, hs, rfl⟩
  · refine (Finishes.pure fun s hs => ⟨hs.1, ?_⟩).mono (Nat.zero_le 1)
    have hnone := hs.2 ▸ hno
    simpa using hnone

/-- By induction on the entries, of which there is one at least unless something is unpacked. -/
theorem unpackEntries_finishes (es : Tree) : Finishes Outcome.Good (es.length + 1)
    (fun s => s.onnxruntime = none ∧ (es = [] → s.unpacked.isSome = true)) (unpackEntries es)
    (fun _ s => s.onnxruntime = none ∧ s.unpacked.isSome = true) := by
  induction es with
  | nil => exact .expect fun s o hs ho => ⟨s, if_pos ho.1, hs.1, hs.2 rfl⟩
  | cons e es ih =>
    refine (Finishes.bind (m := 1) (n := es.length + 1)
      (Q := fun a s => (s.onnxruntime = none ∧ s.unpacked.isSome = true) ∧ a = true)
      (.loop ?_) fun written => .ite (fun _ => ?_) fun hno => ?_).mono
      (by rw [List.length_cons]; omega)
    · rintro s ⟨ok, more, upto, path⟩ ⟨hs, -⟩ ⟨rfl, rfl⟩
      exact ⟨_, true, rfl, ⟨hs, rfl⟩, rfl⟩
    · exact ih.conseq (fun s hs => ⟨hs.1.1, fun _ => hs.1.2⟩) fun _ s hs => hs
    · exact fun s os hs _ _ => absurd hs.2 hno

theorem extractTgz_finishes (hne : w.untar b ≠ []) :
    Finishes Outcome.Good ((w.untar b).length + 2)
      (fun s => s.archive = some b ∧ s.onnxruntime = none) (extractTgz w)
      (fun _ s => s.onnxruntime = none ∧ s.unpacked.isSome = true) := by
  refine (Finishes.bind (m := 1) (n := (w.untar b).length + 1)
    (Q := fun archive s => s.onnxruntime = none ∧ archive = some b) (.op ?_) fun archive => ?_).mono
    (by omega)
  · intro s o hs ho
    exact ⟨hs.2, by simp [ho.1, hs.1]⟩
  · rintro s os ⟨hs, rfl⟩
    exact unpackEntries_finishes _ s os ⟨hs, fun h => absurd h hne⟩

theorem renameUnpacked_finishes : Finishes Outcome.Good 1
    (fun s => s.onnxruntime = none ∧ s.unpacked.isSome = true) (.expect renameUnpacked)
    (fun _ _ => True) := by
  refine .expect fun s o hs ho =>
    ⟨{ s with onnxruntime := s.unpacked, unpacked := none }, ?_, trivial⟩
  simp [renameUnpacked, ho.1, hs.1, hs.2]

theorem install_finishes (hb : ∀ b', w.sha256 b' = pin ↔ b' = b) (hne : w.untar b ≠ [])
    (hj : j < downloadAttempts) (hnet : w.net (n + j) = ⟨200, b⟩)
    (hbefore : ∀ i < j, (w.net (n + i)).status ≠ 200) :
    Finishes Outcome.Good ((w.untar b).length + 25)
      (fun s => s.requests = n ∧ Pending w pin bound downloadAttempts s) (install w pin)
      (fun _ => Ready w pin bound) := by
  have hmarker : Finishes Outcome.Good 1
      (fun s => s.requests = n ∧ Pending w pin bound downloadAttempts s) (.attempt removeMarker)
      (fun _ s => s.requests = n ∧ Pending w pin bound downloadAttempts s) :=
    attempt_good fun s hs => ⟨hs.1, hs.2.1, .inl rfl, hs.2.2.2⟩
  have hcreate : Finishes Outcome.Good 1 (Ready w pin bound) (.attempt createMarker)
      (fun _ => Ready w pin bound) := attempt_good fun s hs => hs
  have hacquire := (acquireVerifiedArchive_finishes hb hj hnet hbefore).and_triple
    (@acquireVerifiedArchive_triple w pin bound)
  have hremove := (removeExtracted_finishes (b := b)).and_triple
    (@removeExtracted_triple w pin bound 0)
  have hextract := (extractTgz_finishes hne).and_triple
    (@extractTgz_triple w pin bound 0)
  have hrename := renameUnpacked_finishes.and_triple
    (@renameUnpacked_triple w pin bound)
  have hlast : Finishes Outcome.Good 1 (fun s => True ∧ Ready w pin bound s) (do
      let _ ← Prog.attempt createMarker) (fun _ => Ready w pin bound) :=
    (hcreate.conseq (fun s hs => hs.2) fun _ s hs => hs).bind (n := 0) fun _ => .pure fun s hs => hs
  refine (hmarker.bind fun _ => hacquire.bind fun _ => hremove.bind fun _ => hextract.bind fun _ =>
    hrename.bind fun _ => hlast).mono (by omega)

/-- What a package needs to be linked: `lib`, the library or a version of it, and no version that is
a dead link. -/
structure Loadable (pkg : Tree) : Prop where
  lib : pkg.hasLib = true
  file : pkg.isDir ["lib", soName] = false
  library : pkg.exists linkLimit soName = true ∨
    pkg.lookup ["lib", soName] = none ∧ pkg.versions ≠ []
  versions : ∀ version ∈ pkg.versions, pkg.exists (linkLimit - 1) version = true

/-- The package, with the link in it where it has no unversioned name. -/
structure Agrees (tree pkg : Tree) : Prop where
  lookup : ∀ p, p ≠ ["lib", soName] → tree.lookup p = pkg.lookup p
  so : tree.lookup ["lib", soName] = pkg.lookup ["lib", soName] ∨
    pkg.lookup ["lib", soName] = none ∧
      ∃ version ∈ pkg.versions, tree.lookup ["lib", soName] = some (.link version)

theorem mem_paths_iff : p ∈ tree.paths ↔ tree.lookup p ≠ none :=
  ⟨fun h hno => not_mem_paths hno h, fun h => by_contra fun hno => h (lookup_eq_none hno)⟩

theorem Agrees.paths (h : Agrees tree pkg) (hp : p ≠ ["lib", soName]) :
    p ∈ tree.paths ↔ p ∈ pkg.paths := by
  rw [mem_paths_iff, mem_paths_iff, h.lookup p hp]

theorem Agrees.isDir (h : Agrees tree pkg) (hp : p ≠ ["lib", soName])
    (hd : pkg.isDir p = true) : tree.isDir p = true := by
  rw [isDir_iff] at hd ⊢
  rcases hd with hd | ⟨q, hq, hsub⟩
  · exact .inl ((h.lookup p hp).trans hd)
  · refine .inr ⟨q, ?_, hsub⟩
    by_cases hqs : q = ["lib", soName]
    · subst hqs
      rw [mem_paths_iff] at hq ⊢
      rcases h.so with hso | ⟨hno, -⟩
      · rwa [hso]
      · exact absurd hno hq
    · exact (h.paths hqs).mpr hq

theorem Agrees.exists (h : Agrees tree pkg) (hfile : pkg.isDir ["lib", soName] = false)
    (he : pkg.exists n name = true) : tree.exists n name = true := by
  induction n generalizing name with
  | zero => exact he
  | succ n ih =>
    have hsame : tree.lookup ["lib", name] = pkg.lookup ["lib", name] := by
      by_cases hname : name = soName
      · subst hname
        rcases h.so with hso | ⟨hno, -⟩
        · exact hso
        · simp [Tree.exists, hno, hfile] at he
      · exact h.lookup _ (by simpa using hname)
    unfold Tree.exists at he ⊢
    rw [hsame]
    cases hl : pkg.lookup ["lib", name] with
    | none =>
      rw [hl] at he
      refine h.isDir ?_ he
      rintro heq
      rw [heq, hfile] at he
      cases he
    | some node =>
      rw [hl] at he
      cases node with
      | dir => rfl
      | file content => rfl
      | link target => exact ih he

theorem mem_versions {version : String} : version ∈ tree.versions ↔
    "libonnxruntime.so.".toList <+: version.toList ∧ ∃ rest,
      "lib" :: version :: rest ∈ tree.paths := by
  unfold Tree.versions
  rw [List.mem_filterMap]
  constructor
  · rintro ⟨p, hp, h⟩
    match p with
    | [] => cases h
    | [dir] => cases h
    | dir :: name :: rest =>
      simp only [Option.ite_none_right_eq_some, Option.some.injEq] at h
      obtain ⟨⟨rfl, hstart⟩, rfl⟩ := h
      exact ⟨hstart, rest, hp⟩
  · rintro ⟨hstart, rest, hp⟩
    exact ⟨_, hp, by simp only [hstart, and_true, if_true]⟩

/-- No version is the unversioned name. -/
theorem version_ne {version : String} {rest : Path}
    (h : "libonnxruntime.so.".toList <+: version.toList) :
    "lib" :: version :: rest ≠ ["lib", soName] := by
  intro heq
  obtain ⟨rfl, -⟩ := List.cons.inj (List.cons.inj heq).2
  exact absurd h (by decide)

theorem Agrees.versions (h : ∀ p, p ≠ ["lib", soName] → tree.lookup p = pkg.lookup p)
    {version : String} (hv : version ∈ tree.versions) : version ∈ pkg.versions := by
  obtain ⟨hstart, rest, hp⟩ := mem_versions.mp hv
  refine mem_versions.mpr ⟨hstart, rest, ?_⟩
  rwa [mem_paths_iff, ← h _ (version_ne hstart), ← mem_paths_iff]

/-- A tree that was installed agrees with the package. -/
theorem Installed.agrees (h : Installed w pin tree b) (hb : ∀ b', w.sha256 b' = pin ↔ b' = b) :
    Agrees tree (unpackedTree (w.untar b)) := by
  have hexact : ∀ p, p ≠ ["lib", soName] → tree.lookup p = (unpackedTree (w.untar b)).lookup p :=
    fun p hp => h.exact (fun b' => (hb b').mp) hp
  refine ⟨hexact, ?_⟩
  by_cases hso : ["lib", soName] ∈ (w.untar b).paths
  · exact .inl (h.entries _ hso)
  · have hno : (unpackedTree (w.untar b)).lookup ["lib", soName] = none :=
      lookup_eq_none fun hmem => hso (unpackedTree_paths hmem)
    by_cases hin : ["lib", soName] ∈ tree.paths
    · rcases h.others _ hin with ⟨b', hb', hp⟩ | ⟨-, version, hv, hl⟩
      · exact absurd ((hb b').mp hb' ▸ hp) hso
      · refine .inr ⟨hno, version, ?_, hl⟩
        exact Agrees.versions hexact hv
    · exact .inl ((lookup_eq_none hin).trans hno.symm)

theorem Agrees.hasLib (h : Agrees tree pkg) (hl : pkg.hasLib = true) : tree.hasLib = true :=
  h.isDir (by decide) hl

theorem firstVersion_isSome (path : Path) (h : tree.versions ≠ []) :
    ∃ version, firstVersion tree path = some version := by
  unfold firstVersion
  cases hv : tree.versions with
  | nil => exact absurd hv h
  | cons version rest => exact Option.isSome_iff_exists.mp (by simp)

/-- Where the unversioned name is missing, it can be put there. -/
theorem Agrees.linkable (h : Agrees tree pkg) (hp : Loadable pkg)
    (hno : tree.exists linkLimit soName ≠ true) :
    tree.lookup ["lib", soName] = none ∧ tree.isDir ["lib", soName] = false ∧
      tree.versions ≠ [] := by
  rcases hp.library with hlib | ⟨hnone, hversions⟩
  · exact absurd (h.exists hp.file hlib) hno
  · rcases h.so with hso | ⟨-, version, hv, hso⟩
    · rw [hnone] at hso
      refine ⟨hso, ?_, fun hnil => ?_⟩
      · rw [← Bool.not_eq_true]
        intro hdir
        refine hno ?_
        unfold linkLimit Tree.exists
        rw [hso]
        exact hdir
      · obtain ⟨version, hv⟩ := List.exists_mem_of_ne_nil _ hversions
        have hback := Agrees.versions (fun p hp => (h.lookup p hp).symm) hv
        rw [hnil] at hback
        cases hback
    · refine absurd ?_ hno
      unfold linkLimit Tree.exists
      rw [hso]
      exact h.exists hp.file (hp.versions version hv)

theorem linkVersion_finishes (hp : Loadable pkg) :
    Finishes Outcome.Good 2 (fun s => ∃ t, s.onnxruntime = some t ∧ Agrees t pkg) linkVersion
      (fun _ _ => True) := by
  rintro s os ⟨tree, ht, ha⟩
  have hread : Finishes Outcome.Good 2 (fun s => s.onnxruntime = some tree) linkVersion
      (fun _ _ => True) := by
    refine .bind (m := 0) (n := 2) (Q := fun t s => s.onnxruntime = some tree ∧ t = tree)
      (.read fun s hs => ⟨hs, by rw [hs]; rfl⟩) fun t => ?_
    rintro s os ⟨hs, rfl⟩
    refine Finishes.ite (P := fun s => s.onnxruntime = some t) (fun _ => ?_) (fun hno => ?_) s os hs
    · exact (Finishes.pure fun s hs => trivial).mono (Nat.zero_le 2)
    · rintro s os hs
      obtain ⟨hnone, hfile, hversions⟩ := ha.linkable hp hno
      refine Finishes.bind (m := 1) (n := 1) (P := fun s => s.onnxruntime = some t)
        (Q := fun listed s => s.onnxruntime = some t ∧ ∃ version, listed = some (some version))
        (.op fun s o hs ho => ?_) (fun listed => ?_) s os hs
      · obtain ⟨version, hv⟩ := firstVersion_isSome o.path hversions
        exact ⟨hs, version, by simp [ho.1, hv]⟩
      · rintro s os ⟨hs, version, rfl⟩
        refine Finishes.expect (P := fun s => s.onnxruntime = some t) (fun s o hs ho => ?_) s os hs
        refine ⟨{ s with onnxruntime := some (t.put ["lib", soName] (.link version)) }, ?_, trivial⟩
        simp [symlinkSo, hs, ho.1, hnone, hfile]
  exact hread s os ht

/-- The operations of a build in which each succeeds in one step, with as many to spare as retries
take. -/
def buildSteps (pkg : Tree) : Nat := pkg.length + 27

theorem main_finishes {slug ext : String} (ha : assetFor target gpu = some (slug, ext, pin))
    (hb : ∀ b', w.sha256 b' = pin ↔ b' = b) (hp : Loadable (unpackedTree (w.untar b)))
    (hj : j < downloadAttempts) (hnet : w.net (n + j) = ⟨200, b⟩)
    (hbefore : ∀ i < j, (w.net (n + i)).status ≠ 200) :
    Finishes Outcome.Good (buildSteps (w.untar b))
      (fun s => s.requests = n ∧ Between w pin (n + downloadAttempts) s) (main w target gpu)
      (fun _ _ => True) := by
  have hne : w.untar b ≠ [] := by
    intro hnil
    have hlib := hp.lib
    rw [hnil] at hlib
    exact absurd hlib (by decide)
  have hprovide : Finishes Outcome.Good ((w.untar b).length + 25)
      (fun s => s.requests = n ∧ Between w pin (n + downloadAttempts) s) (provide w pin)
      (fun _ _ => True) := by
    refine (Finishes.bind (m := 0) (n := (w.untar b).length + 25)
      (Q := fun promised s => (s.requests = n ∧ Between w pin (n + downloadAttempts) s) ∧
        promised = (s.marker && s.hasLib)) (.read fun s hs => ⟨hs, rfl⟩) fun promised => ?_).mono
      (by omega)
    refine .ite (fun _ => (Finishes.pure fun s hs => trivial).mono (Nat.zero_le _)) fun hno => ?_
    have hinstall := @install_finishes w pin b (n + downloadAttempts) n j hb hne hj hnet hbefore
    refine hinstall.conseq ?_ fun _ s hs => trivial
    rintro s ⟨⟨hn, hs⟩, rfl⟩
    refine ⟨hn, hs.1, ?_, hs.2.2⟩
    rw [Bool.and_eq_true_iff, not_and_or, Bool.not_eq_true, Bool.not_eq_true] at hno
    exact hno
  have hready : Finishes Outcome.Good ((w.untar b).length + 25)
      (fun s => s.requests = n ∧ Between w pin (n + downloadAttempts) s) (provide w pin)
      (fun _ s => ∃ t, s.onnxruntime = some t ∧ Agrees t (unpackedTree (w.untar b))) := by
    refine (hprovide.and_triple (provide_triple (w := w))).conseq
      (fun s hs => ⟨hs, hs.2⟩) ?_
    rintro _ s ⟨-, -, ⟨t, b', ht, hi⟩, -⟩
    obtain rfl := (hb b').mp hi.digest
    exact ⟨t, ht, hi.agrees hb⟩
  unfold main
  rw [ha]
  refine (hready.bind (n := 2) fun _ => ?_).mono (by unfold buildSteps; omega)
  refine .bind (m := 0) (n := 2)
    (Q := fun _ s => ∃ t, s.onnxruntime = some t ∧ Agrees t (unpackedTree (w.untar b)))
    (.ensure ?_) fun _ => .ite (fun _ => linkVersion_finishes hp) fun _ =>
      (Finishes.pure fun s hs => trivial).mono (Nat.zero_le 2)
  rintro s ⟨t, ht, hagrees⟩
  refine ⟨?_, t, ht, hagrees⟩
  unfold OutDir.hasLib
  rw [ht]
  exact hagrees.hasLib hp.lib

/-- From whatever earlier builds left, killed or failed anywhere, and whatever rotted: a build in
which no operation fails links, if the server has the package for it within three answers. -/
theorem build_recovers {slug ext : String} (hr : Reachable w target gpu s)
    (ha : assetFor target gpu = some (slug, ext, pin)) (hb : ∀ b', w.sha256 b' = pin ↔ b' = b)
    (hp : Loadable (unpackedTree (w.untar b))) (hj : j < downloadAttempts)
    (hnet : w.net (s.requests + j) = ⟨200, b⟩)
    (hbefore : ∀ i < j, (w.net (s.requests + i)).status ≠ 200) {outcomes : List Outcome}
    (hgood : ∀ o ∈ outcomes, o.Good) (hlen : buildSteps (w.untar b) ≤ outcomes.length) :
    ∃ rest, (main w target gpu s outcomes).2 = .done () rest := by
  obtain ⟨hl, hpromise⟩ := between_reachable ha hr
  obtain ⟨t, _, rest, he, -⟩ := main_finishes ha hb hp hj hnet hbefore s outcomes
    ⟨rfl, hl, hpromise, le_rfl⟩ hgood hlen
  exact ⟨rest, by rw [he]⟩

/-- A server that fails once, on its second request. -/
def failingWorld : World :=
  { unitWorld with net := fun n => if n = 1 then ⟨503, []⟩ else ⟨200, [1]⟩ }

/-- After a build that was killed in its download, and with a cached archive that rotted. -/
def rottenDir : OutDir := ⟨some [], some [9], none, none, false, 1⟩

theorem rottenDir_reachable : Reachable failingWorld linuxTarget false rottenDir :=
  .step (a := .rot (some [9]) (some []))
    (.step (a := .build (.replicate 4 ⟨true, false, 0, []⟩)) (.initial rfl) rfl) rfl

theorem build_recovers_rotten : ∃ rest,
    (main failingWorld linuxTarget false rottenDir (.replicate 28 ⟨true, false, 0, []⟩)).2 =
      .done () rest := by
  refine build_recovers (b := [1]) (j := 1) rottenDir_reachable rfl ?_ ?_ (by decide)
    rfl (by decide)
    ?_ (by decide)
  · intro b
    by_cases hb : b = [1] <;> simp [failingWorld, unitWorld, hb]
  · exact ⟨by decide, by decide, .inr ⟨by decide, by decide⟩, by decide⟩
  · intro o ho
    obtain rfl := List.eq_of_mem_replicate ho
    exact ⟨rfl, rfl⟩

end Zrt.Build
