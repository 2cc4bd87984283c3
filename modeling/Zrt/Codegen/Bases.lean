import Zrt.Codegen.Declarations

/-! The base types that the first type word alone tells. -/
namespace Zrt.Codegen

variable {m : DataModel} {n : String} {w f : List Char} {base : Base} {words : List IntWord}

set_option maxRecDepth 20000 in
theorem rustPrim_baseTable (m : DataModel) :
    ∀ b ∈ baseTable, rustPrim m (mapBase b.1) = cPrim m b.1 := by
  unfold baseTable
  repeat' refine List.forall_mem_cons.mpr ⟨rfl, ?_⟩
  exact List.forall_mem_nil _

theorem baseTable_words : ∀ b ∈ baseTable, IsWord b.1.toList := by
  decide +kernel

theorem cTable_known (m : DataModel) : ∀ b ∈ cTable m, (baseTable.lookup b.1).isSome := by
  have hnames : (cTable m).map Prod.fst = (cTable ⟨0, 0⟩).map Prod.fst := rfl
  have hall : ∀ s ∈ (cTable ⟨0, 0⟩).map Prod.fst, (baseTable.lookup s).isSome := by decide +kernel
  intro b hb
  exact hall b.1 (hnames ▸ List.mem_map_of_mem hb)

theorem rustNames_handles (m : DataModel) : ∀ b ∈ rustNames m,
    b.1 = "CustomThreadHandle" ∨ "Handle".toList.isSuffixOf b.1.toList = false := by
  have hnames : (rustNames m).map Prod.fst = (rustNames ⟨0, 0⟩).map Prod.fst := rfl
  have hall : ∀ s ∈ (rustNames ⟨0, 0⟩).map Prod.fst,
      s = "CustomThreadHandle" ∨ "Handle".toList.isSuffixOf s.toList = false := by decide +kernel
  intro b hb
  exact hall b.1 (hnames ▸ List.mem_map_of_mem hb)

theorem rustCallbacks_bracket : ∀ b ∈ rustCallbacks, '<' ∈ b.1.toList := by
  have hopen : ∀ {s t u : String}, s = t ++ u → '<' ∈ t.toList → '<' ∈ s.toList := by
    rintro s t u rfl h
    rw [String.toList_append]
    exact List.mem_append_left _ h
  refine List.forall_mem_cons.mpr ⟨?_, List.forall_mem_cons.mpr ⟨?_, List.forall_mem_nil _⟩⟩
  · exact hopen (t := "Option<unsafe extern \"C\" fn(*mut core::ffi::c_void, ") rfl (by decide)
  · exact hopen (t := "Option<unsafe extern \"C\" fn(*const *const EpDeviceHandle, usize, " ++
      "*const KeyValuePairsHandle, *const KeyValuePairsHandle, *mut *const EpDeviceHandle, usize, ")
      rfl (by decide +kernel)

theorem isWord_known (h : KnownName n) : IsWord n.toList := by
  rcases h with h | ⟨-, h⟩
  · obtain ⟨r, hr⟩ := Option.isSome_iff_exists.mp h
    obtain ⟨l₁, l₂, hl, -⟩ := List.lookup_eq_some_iff.mp hr
    exact baseTable_words (n, r) (by rw [hl]; simp)
  · exact h

theorem cPrim_of_lookup (h : baseTable.lookup n = none) : cPrim m n = .named n := by
  have hc : (cTable m).lookup n = none := by
    rw [List.lookup_eq_none_iff]
    intro b hb
    rw [bne_iff_ne]
    rintro rfl
    have hk := cTable_known m b hb
    rw [h] at hk
    cases hk
  rw [cPrim, hc, Option.getD_none]

/-- The handle of an `Ort` name has the representation of its struct, unless the bindings use the
handle's name themselves. -/
theorem rustPrim_handle (hn : baseTable.lookup n = none) (hp : "Ort".toList <+: n.toList)
    (hw : IsWord n.toList) :
    rustPrim m (mapBase n) = cPrim m n ↔ n ≠ "OrtCustomThread" := by
  obtain ⟨stem, hs⟩ := hp
  have hname : n = "Ort" ++ String.ofList stem := by
    apply String.toList_inj.mp
    rw [String.toList_append, ← hs]
    exact congrArg _ String.toList_ofList.symm
  have hmap : mapBase n = String.ofList stem ++ "Handle" := by
    have hdrop : n.toList.drop 3 = stem := by rw [← hs]; rfl
    rw [mapBase, hn]
    dsimp only
    rw [if_pos ⟨stem, hs⟩, hdrop]
  have hlist : (mapBase n).toList = stem ++ "Handle".toList := by
    rw [hmap, String.toList_append, String.toList_ofList]
  rw [cPrim_of_lookup hn]
  by_cases hc : n = "OrtCustomThread"
  · subst hc
    have hprim : rustPrim m (mapBase "OrtCustomThread") = .named "OrtCustomThreadHandle" := rfl
    rw [hprim]
    exact iff_of_false (by decide) (fun h => h rfl)
  refine iff_of_true ?_ hc
  have hnone : (rustNames m ++ rustCallbacks).lookup (mapBase n) = none := by
    rw [List.lookup_eq_none_iff]
    intro b hb
    rw [bne_iff_ne]
    intro he
    rcases List.mem_append.mp hb with hb | hb
    · rcases rustNames_handles m b hb with h | h
      · refine hc ?_
        rw [h, ← String.toList_inj, hlist] at he
        have hstem :=
          List.append_cancel_right
          (he.trans (show _ = "CustomThread".toList ++ "Handle".toList by rfl))
        rw [hname, hstem]
        rfl
      · rw [← he, hlist, List.isSuffixOf_iff_suffix.mpr (List.suffix_append ..)] at h
        cases h
    · have hlt := rustCallbacks_bracket b hb
      rw [← he, hlist] at hlt
      rcases List.mem_append.mp hlt with h | h
      · have hchar := hw.2 '<' (by rw [← hs]; exact List.mem_append_right _ h)
        revert hchar
        decide
      · revert h
        decide
  rw [rustPrim, hnone]
  dsimp only
  rw [hlist, if_pos (List.suffix_append ..), hname]
  simp

theorem rustPrim_known (h : KnownName n) :
    rustPrim m (mapBase n) = cPrim m n ↔ n ≠ "OrtCustomThread" := by
  cases hn : baseTable.lookup n with
  | none =>
    rw [KnownName, hn] at h
    obtain ⟨hp, hw⟩ := h.resolve_left (fun h => by cases h)
    exact rustPrim_handle hn hp hw
  | some r =>
    obtain ⟨l₁, l₂, hl, -⟩ := List.lookup_eq_some_iff.mp hn
    refine iff_of_true (rustPrim_baseTable m (n, r) (by rw [hl]; simp)) ?_
    rintro rfl
    cases hn

theorem cTable_void (m : DataModel) : ∀ b ∈ cTable m, b.2 = .void → b.1 = "void" := by
  unfold cTable
  refine List.forall_mem_cons.mpr ⟨fun _ => rfl, ?_⟩
  repeat' refine List.forall_mem_cons.mpr ⟨fun h => Prim.noConfusion h, ?_⟩
  exact List.forall_mem_nil _

theorem cPrim_eq_void : cPrim m n = .void ↔ n = "void" := by
  constructor
  · intro h
    rw [cPrim] at h
    cases hn : (cTable m).lookup n with
    | none =>
      rw [hn] at h
      cases h
    | some p =>
      rw [hn, Option.getD_some] at h
      obtain ⟨l₁, l₂, hl, -⟩ := List.lookup_eq_some_iff.mp hn
      exact cTable_void m (n, p) (by rw [hl]; simp) h
  · rintro rfl
    rfl

theorem intPrim_ne_void (words : List IntWord) : intPrim m words ≠ .void := by
  unfold intPrim
  dsimp only
  split_ifs <;> exact fun h => by cases h

theorem rustPrim_intWord (w : IntWord) :
    rustPrim m (mapBase w.text) = if w = .signed then .void else intPrim m [w] := by
  cases w <;> rfl

/-- A base is told by its first type word exactly when that word maps to its representation. -/
theorem firstTells_iff (hk : base.Known) (hf : base.typeWords.head? = some f) :
    rustPrim m (mapBase (String.ofList f)) = base.prim m ↔ base.FirstTells m := by
  have hname : ∀ {n : String}, [n.toList].head? = some f → String.ofList f = n := by
    intro n h
    obtain rfl := Option.some.inj h
    exact String.ofList_toList
  cases base with
  | type n =>
    rw [hname hf]
    exact rustPrim_known hk
  | tagged tag n =>
    rw [hname hf]
    exact rustPrim_known hk
  | integer words =>
    cases words with
    | nil => cases hf
    | cons w words =>
      obtain rfl : w.text.toList = f := Option.some.inj hf
      rw [String.ofList_toList, rustPrim_intWord]
      simp only [Base.FirstTells, Base.prim, List.head?_cons, Option.mem_some_iff, forall_eq']
      by_cases hs : w = .signed
      · rw [if_pos hs]
        exact iff_of_false (intPrim_ne_void _).symm fun h => h.1 hs
      · rw [if_neg hs, and_iff_right hs]

theorem base_void (m : DataModel) : base.prim m = .void ↔ base.IsVoid := by
  cases base with
  | type n => exact cPrim_eq_void
  | tagged tag n => exact cPrim_eq_void
  | integer words => exact iff_of_false (intPrim_ne_void words) id

theorem ofWord_ident (hc : w ≠ "const".toList) (hs : w ≠ "struct".toList) (he : w ≠ "enum".toList)
    (ht : w ≠ "*".toList) : Tok.ofWord w = .ident (String.ofList w) := by
  rw [Tok.ofWord, if_neg hc, if_neg hs, if_neg he, if_neg ht]

theorem ofWord_known (h : KnownName n) :
    Tok.ofWord n.toList = .ident (String.ofList n.toList) := by
  have hne : ∀ k : String, ¬ KnownName k → n.toList ≠ k.toList := by
    intro k hk he
    exact hk (String.toList_inj.mp he ▸ h)
  apply ofWord_ident
  · exact hne _ (by decide +kernel)
  · exact hne _ (by decide +kernel)
  · exact hne _ (by decide +kernel)
  · exact hne _ (by decide +kernel)

/-- The words of a base: its type words, behind at most a tag. -/
theorem base_words (hk : base.Known) : ∃ tags f rest, base.words = tags ++ f :: rest ∧
    base.typeWords = f :: rest ∧ (∀ w ∈ tags, IsWord w ∧ (Tok.ofWord w).isQualifier = true) ∧
    ∀ w ∈ f :: rest, IsWord w ∧ Tok.ofWord w = .ident (String.ofList w) := by
  cases base with
  | type n =>
    refine ⟨[], n.toList, [], rfl, rfl, fun w h => (List.not_mem_nil h).elim, fun w h => ?_⟩
    obtain rfl := List.mem_singleton.mp h
    exact ⟨isWord_known hk, ofWord_known hk⟩
  | tagged tag n =>
    refine ⟨[tag.text.toList], n.toList, [], rfl, rfl, fun w h => ?_, fun w h => ?_⟩
    · obtain rfl := List.mem_singleton.mp h
      cases tag <;> decide
    · obtain rfl := List.mem_singleton.mp h
      exact ⟨isWord_known hk, ofWord_known hk⟩
  | integer words =>
    cases words with
    | nil => exact absurd rfl hk.nonempty
    | cons v words =>
      refine ⟨[], v.text.toList, words.map fun w => w.text.toList, rfl, rfl,
        fun w h => (List.not_mem_nil h).elim, fun w h => ?_⟩
      obtain ⟨v', -, rfl⟩ :=
        List.mem_map.mp (show w ∈ (v :: words).map fun w => w.text.toList from h)
      cases v' <;> decide

end Zrt.Codegen
