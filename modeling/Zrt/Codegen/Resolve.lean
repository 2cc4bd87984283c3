import Zrt.Codegen.Items
import Zrt.Codegen.Positions

/-! Every function that is read of the C table is reached through its own slot. -/
namespace Zrt.Codegen

variable {isAlphanumeric : Char → Bool} {fields : List Codegen.Field}
  {subApis : List (String × List Codegen.Field)} {f g : Codegen.Field} {feature : Option String}
  {enabled : List String} {xs ys : List Item}
  {space : Namespace} {name : String} {pp structName : List Char}

/-- Each field has its position. -/
def Indexed (fields : List Codegen.Field) : Prop :=
  ∀ (i : Nat) (f : Codegen.Field), fields[i]? = some f → f.idx = i

theorem indexed_pushField (h : Indexed fields) (buf : List Char) :
    Indexed (pushField fields buf) := by
  unfold pushField
  split
  next f hf =>
    intro i g hg
    rcases Nat.lt_or_ge i fields.length with hi | hi
    · rw [List.getElem?_append_left hi] at hg
      exact h i g hg
    · rw [List.getElem?_append_right hi] at hg
      obtain ⟨hlt, rfl⟩ := List.getElem?_eq_some_iff.mp hg
      have hlast : i - fields.length = 0 := by simpa using hlt
      simp only [hlast, List.getElem_singleton]
      omega
  next => exact h

theorem indexed_readLine {s : List Char × List Field} (h : Indexed s.2) (raw : List Char) :
    Indexed (readLine s raw).2 := by
  unfold readLine
  dsimp only
  split
  · exact h
  · split
    · exact indexed_pushField h _
    · exact h

theorem indexed_parseApiStruct (h : parseApiStruct pp structName = some fields) :
    Indexed fields := by
  unfold parseApiStruct at h
  obtain ⟨⟨x, rest⟩, -, h⟩ := Option.bind_eq_some_iff.mp h
  obtain ⟨⟨body, y⟩, -, rfl⟩ := Option.map_eq_some_iff.mp h
  have hfold (ls : List (List Char)) (s : List Char × List Field) (hs : Indexed s.2) :
      Indexed (ls.foldl readLine s).2 := by
    induction ls generalizing s with
    | nil => exact hs
    | cons raw ls ih => exact ih _ (indexed_readLine hs raw)
  exact hfold _ _ fun i f hf => by cases hf

theorem declared_append : declared enabled (xs ++ ys) space name =
    declared enabled xs space name ++ declared enabled ys space name := List.filter_append _ _

theorem declared_text (s : String) :
    declared enabled (.text s :: xs) space name = declared enabled xs space name := by
  unfold declared
  rw [List.filter_cons_of_neg]
  simp [Item.keys]

theorem declared_flatMap {α : Type} (k : α → List Item) (l : List α) :
    declared enabled (l.flatMap k) space name =
      l.flatMap fun a => declared enabled (k a) space name := by
  induction l with
  | nil => rfl
  | cons a l ih => rw [List.flatMap_cons, declared_append, ih, List.flatMap_cons]

/-- Only one element of the list has something to tell. -/
theorem flatMap_only {α β γ : Type} {key : α → γ} {k : α → List β} {l : List α} {a : α}
    (hl : (l.map key).Nodup) (ha : a ∈ l) (hk : ∀ b ∈ l, key b ≠ key a → k b = []) :
    l.flatMap k = k a := by
  induction l with
  | nil => cases ha
  | cons b l ih =>
    rw [List.map_cons, List.nodup_cons] at hl
    rw [List.flatMap_cons]
    rcases List.mem_cons.mp ha with rfl | ha
    · have hrest : l.flatMap k = [] := by
        rw [List.flatMap_eq_nil_iff]
        intro b hb
        refine hk b (List.mem_cons_of_mem _ hb) fun h => hl.1 ?_
        rw [← h]
        exact List.mem_map_of_mem hb
      rw [hrest, List.append_nil]
    · have hne : key b ≠ key a := fun h => hl.1 (h ▸ List.mem_map_of_mem ha)
      rw [hk b List.mem_cons_self hne, List.nil_append]
      exact ih hl.2 ha fun b hb => hk b (List.mem_cons_of_mem _ hb)

/-- The names a field declares. -/
def Field.Declares (f : Field) (space : Namespace) (name : String) : Prop :=
  (space = .const ∧ name = indexName f) ∨ (space = .type ∧ name = fnTypeName f) ∨
    (space = .method ∧ name = toSnake f.name)

theorem append_cancel_left {a b c : String} (h : a ++ b = a ++ c) : b = c := by
  have hl := congrArg String.toList h
  rw [String.toList_append, String.toList_append] at hl
  exact String.toList_inj.mp (List.append_cancel_left hl)

theorem append_cancel_right {a b c : String} (h : a ++ c = b ++ c) : a = b := by
  have hl := congrArg String.toList h
  rw [String.toList_append, String.toList_append] at hl
  exact String.toList_inj.mp (List.append_cancel_right hl)

/-- A field that differs in more than case and underscores declares none of them. -/
theorem declared_other (hf : f.Declares space name) (hne : squash g.name ≠ squash f.name) :
    declared enabled (fieldItems g feature) space name = [] := by
  unfold declared
  rw [List.filter_eq_nil_iff]
  intro x hx hkey
  rw [Bool.and_eq_true, decide_eq_true_eq] at hkey
  obtain ⟨-, hkey⟩ := hkey
  rcases hf with ⟨rfl, rfl⟩ | ⟨rfl, rfl⟩ | ⟨rfl, rfl⟩ <;>
    simp only [fieldItems, List.mem_cons, List.not_mem_nil, or_false] at hx <;>
    rcases hx with rfl | rfl | rfl | rfl <;>
    simp only [Item.keys, List.not_mem_nil, List.mem_singleton, Prod.mk.injEq, reduceCtorEq,
      false_and, true_and] at hkey
  · exact hne (squash_eq squash_toScreamingSnake (append_cancel_left hkey.symm))
  · exact hne (squash_eq squash_toPascal (append_cancel_right hkey.symm))
  · exact hne (squash_eq squash_toSnake hkey.symm)

theorem declared_groupItems : declared enabled (groupItems fields feature) space name =
    (group fields feature).flatMap fun f => declared enabled (fieldItems f feature) space name := by
  unfold groupItems
  split
  next hempty =>
    rw [List.isEmpty_iff.mp hempty]
    rfl
  next => rw [declared_text, declared_flatMap]

theorem classify_mem (name : List Char) : classify name ∈ features := by
  unfold classify
  dsimp only
  split
  · decide
  · split
    · decide
    · split
      · decide
      · split <;> decide

/-- Of the groups, only the one of the field declares its names. -/
theorem declared_groups (hnames : (fields.map fun f => squash f.name).Nodup) (hmem : f ∈ fields)
    (hf : f.Declares space name) :
    declared enabled (features.flatMap (groupItems fields)) space name =
      declared enabled (fieldItems f (classify f.name)) space name := by
  rw [declared_flatMap]
  have hgroup (feature : Option String) :
    ((group fields feature).map fun f => squash f.name).Nodup :=
    hnames.sublist (List.filter_sublist.map _)
  have hfeatures : (features.map id).Nodup := by decide
  rw [flatMap_only hfeatures (classify_mem f.name)]
  · rw [declared_groupItems]
    refine flatMap_only (hgroup _) ?_ fun g _ hne => declared_other hf hne
    exact List.mem_filter.mpr ⟨hmem, by simp⟩
  · intro feature _ hne
    rw [declared_groupItems, List.flatMap_eq_nil_iff]
    intro g hg
    obtain ⟨hg, hclass⟩ := List.mem_filter.mp hg
    refine declared_other hf fun hsame => hne ?_
    have hgf : g = f := List.inj_on_of_nodup_map hnames hg hmem hsame
    have hg' : classify g.name = feature := by simpa using hclass
    rw [← hgf]
    exact hg'.symm

theorem declared_nil (h : ∀ x ∈ xs, (space, name) ∉ x.keys) :
    declared enabled xs space name = [] := by
  unfold declared
  rw [List.filter_eq_nil_iff]
  intro x hx hkey
  rw [Bool.and_eq_true, decide_eq_true_eq] at hkey
  exact h x hx hkey.2

theorem mem_collectHandles (isAlphanumeric : Char → Bool) (snippets : List String) :
    name ∈ collectHandles isAlphanumeric snippets ↔
    (∃ s ∈ snippets, name ∈ tokens isAlphanumeric s) ∧ endsWithHandle name = true ∧
      name ∉ handWritten := by
  unfold collectHandles
  rw [List.mem_mergeSort, List.mem_dedup, List.mem_filter, List.mem_flatMap]
  simp

theorem mem_of_mapM {α β : Type} {k : α → Option β} {l : List α} {ys : List β}
    (h : l.mapM k = some ys) {y : β} (hy : y ∈ ys) : ∃ x ∈ l, k x = some y := by
  induction l generalizing ys with
  | nil =>
    cases Option.some.inj h
    cases hy
  | cons x l ih =>
    rw [List.mapM_cons] at h
    obtain ⟨z, hz, h⟩ := Option.bind_eq_some_iff.mp h
    obtain ⟨zs, hzs, h⟩ := Option.bind_eq_some_iff.mp h
    cases Option.some.inj h
    rcases List.mem_cons.mp hy with rfl | hy
    · exact ⟨x, List.mem_cons_self, hz⟩
    · obtain ⟨x', hx', hk⟩ := ih hzs hy
      exact ⟨x', List.mem_cons_of_mem _ hx', hk⟩

theorem subApis_names (h : readHeader pp = some (fields, subApis)) :
    ∀ api ∈ subApis, api.1 ∈ subApiNames.map Prod.snd := by
  obtain ⟨fs, -, h⟩ := Option.bind_eq_some_iff.mp h
  split at h
  · cases h
  · obtain ⟨apis, happ, heq⟩ := Option.map_eq_some_iff.mp h
    obtain ⟨-, rfl⟩ := Prod.mk.inj heq
    intro api hapi
    obtain ⟨x, hx, hk⟩ := mem_of_mapM happ hapi
    obtain ⟨fs', -, rfl⟩ := Option.map_eq_some_iff.mp hk
    exact List.mem_map_of_mem hx

theorem readHeader_fields (h : readHeader pp = some (fields, subApis)) :
    parseApiStruct (replaceBool pp) "OrtApi".toList = some fields := by
  obtain ⟨fs, hfs, h⟩ := Option.bind_eq_some_iff.mp h
  split at h
  · cases h
  · obtain ⟨apis, -, heq⟩ := Option.map_eq_some_iff.mp h
    obtain ⟨rfl, -⟩ := Prod.mk.inj heq
    exact hfs

theorem readHeader_indexed (h : readHeader pp = some (fields, subApis)) : Indexed fields :=
  indexed_parseApiStruct (readHeader_fields h)

theorem fnTypeName_getLast (f : Codegen.Field) : (fnTypeName f).toList.getLast? = some 'n' := by
  unfold fnTypeName
  rw [String.toList_append, List.getLast?_append_of_ne_nil]
  · rfl
  · decide

theorem endsWithHandle_getLast (h : endsWithHandle name = true) :
    name.toList.getLast? = some 'e' := by
  obtain ⟨x, hx⟩ := of_decide_eq_true h
  rw [← hx, List.getLast?_append_of_ne_nil]
  · rfl
  · decide

/-- Beside the groups of the table, nothing in the file is called like a field. -/
theorem declared_field (h : readHeader pp = some (fields, subApis))
    (hworker : ∀ f ∈ fields, squash f.name ≠ "threadworker".toList) (hmem : f ∈ fields)
    (hf : f.Declares space name) :
    declared enabled (items isAlphanumeric fields subApis) space name =
      declared enabled (features.flatMap (groupItems fields)) space name := by
  have hlast : space = .type → name.toList.getLast? = some 'n' := by
    rcases hf with ⟨rfl, rfl⟩ | ⟨rfl, rfl⟩ | ⟨rfl, rfl⟩
    · intro hspace
      cases hspace
    · exact fun _ => fnTypeName_getLast f
    · intro hspace
      cases hspace
  have hhandles : declared enabled ((collectHandles isAlphanumeric (snippets fields subApis)).map
      .handle) space name = [] := by
    refine declared_nil fun x hx hkey => ?_
    obtain ⟨handle, hhandle, rfl⟩ := List.mem_map.mp hx
    obtain ⟨rfl, rfl⟩ := Prod.mk.inj (List.mem_singleton.mp hkey)
    have he := endsWithHandle_getLast ((mem_collectHandles _ _).mp hhandle).2.1
    rw [hlast rfl] at he
    cases he
  have htables : declared enabled (subApis.map fun api => .table api.1 api.2) space name = [] := by
    refine declared_nil fun x hx hkey => ?_
    obtain ⟨api, hapi, rfl⟩ := List.mem_map.mp hx
    obtain ⟨rfl, rfl⟩ := Prod.mk.inj (List.mem_singleton.mp hkey)
    have hfixed : ∀ t ∈ subApiNames.map Prod.snd, t.toList.getLast? ≠ some 'n' := by decide
    exact hfixed _ (subApis_names h api hapi) (hlast rfl)
  have hthreads : declared enabled [.written threadTypes threadText] space name = [] := by
    refine declared_nil fun x hx hkey => ?_
    obtain rfl := List.mem_singleton.mp hx
    obtain ⟨ty, hty, heq⟩ := List.mem_map.mp hkey
    obtain ⟨rfl, rfl⟩ := Prod.mk.inj heq
    have hfixed : ∀ t ∈ threadTypes, t.toList.getLast? = some 'n' → t = "ThreadWorker" ++ "Fn" := by
      decide
    have hname := hfixed _ hty (hlast rfl)
    rcases hf with ⟨hspace, -⟩ | ⟨-, hfn⟩ | ⟨hspace, -⟩
    · cases hspace
    · refine hworker f hmem ?_
      rw [← squash_toPascal, append_cancel_right (hfn.symm.trans hname)]
      decide
    · cases hspace
  unfold items
  rw [List.cons_append, declared_text, declared_append, hhandles, List.nil_append,
    ← List.singleton_append, declared_append, hthreads, List.nil_append, declared_append,
    declared_text, htables, List.append_nil]

theorem declared_fieldItems :
    declared enabled (fieldItems f feature) space name =
      if feature.all enabled.contains then
        (fieldItems f feature).filter fun x => decide ((space, name) ∈ x.keys)
      else [] := by
  unfold declared
  split
  next hlive =>
    refine List.filter_congr fun x hx => ?_
    simp only [fieldItems, List.mem_cons, List.not_mem_nil, or_false] at hx
    rcases hx with rfl | rfl | rfl | rfl
    · simp [Item.keys]
    all_goals
      unfold Item.live
      dsimp only [Item.feature]
      rw [hlive, Bool.true_and]
  next hlive =>
    rw [List.filter_eq_nil_iff]
    intro x hx hkey
    rw [Bool.and_eq_true, decide_eq_true_eq] at hkey
    simp only [fieldItems, List.mem_cons, List.not_mem_nil, or_false] at hx
    rcases hx with rfl | rfl | rfl | rfl
    · cases hkey.2
    all_goals exact hlive hkey.1

/-- The accessor of a function goes through the slot at which the table has it as it was read,
through the type of the function, under its feature and not without it; no other declaration of the
file takes their names. Where each member of the table has lines of its own and is a plain function
pointer, it is read one for one, so that the slots are those of the table itself. -/
theorem accessors_resolve (isAlphanumeric : Char → Bool) (enabled : List String)
    (h : readHeader pp = some (fields, subApis))
    (hnames : (fields.map fun f => squash f.name).Nodup)
    (hworker : ∀ f ∈ fields, squash f.name ≠ "threadworker".toList) :
    emit isAlphanumeric fields subApis = render (items isAlphanumeric fields subApis) ∧
      (∀ (i : Nat) (f : Codegen.Field), fields[i]? = some f →
        let feature := classify f.name
        let live := feature.all enabled.contains
        let found := declared enabled (items isAlphanumeric fields subApis)
        found .method (toSnake f.name) =
            (if live then [.accessor feature (toSnake f.name) (fnTypeName f) (indexName f)]
            else []) ∧
          found .type (fnTypeName f) =
            (if live then [.fnType feature (fnTypeName f) f.params f.ret] else []) ∧
          found .const (indexName f) = if live then [.index feature (indexName f) i] else []) ∧
      ∀ members, LaidOut (replaceBool pp) "OrtApi".toList members →
        fields.map Field.cSig = members.map fun m => m.line.rdropWhile (· = ';') := by
  refine ⟨emit_eq_render, fun i f hi => ?_, fun members hlaid => ?_⟩
  · have hmem := List.mem_of_getElem? hi
    have hfound {space : Namespace} {name : String} (hf : f.Declares space name) :
        declared enabled (items isAlphanumeric fields subApis) space name =
          if (classify f.name).all enabled.contains then
            (fieldItems f (classify f.name)).filter fun x => decide ((space, name) ∈ x.keys)
          else [] := by
      rw [declared_field h hworker hmem hf, declared_groups hnames hmem hf, declared_fieldItems]
    have hidx := readHeader_indexed h i f hi
    dsimp only
    refine ⟨?_, ?_, ?_⟩
    · rw [hfound (.inr (.inr ⟨rfl, rfl⟩))]
      simp [fieldItems, Item.keys]
    · rw [hfound (.inr (.inl ⟨rfl, rfl⟩))]
      simp [fieldItems, Item.keys]
    · rw [hfound (.inl ⟨rfl, rfl⟩)]
      simp [fieldItems, Item.keys, hidx]
  · obtain ⟨fs, hfs, hsigs⟩ := hlaid.parsed
    have hread := readHeader_fields h
    rw [hfs] at hread
    exact Option.some.inj hread ▸ hsigs

/-- A header with two functions and four empty tables. -/
def smallHeader : List Char := (
  "struct OrtApi \x7b\nOrtStatus* (*RunAsync)(void);\n" ++
  "const OrtEpApi* (*GetEpApi)(void);\n\x7d;\n" ++
  "struct OrtModelEditorApi \x7b\n\n\x7d;\nstruct OrtCompileApi \x7b\n\n\x7d;\n" ++
  "struct OrtInteropApi \x7b\n\n\x7d;\nstruct OrtEpApi \x7b\n\n\x7d;\n").toList

/-- Its functions. -/
def smallMembers : List Member := [
  ⟨"\nOrtStatus* (*RunAsync)(void)".toList, by decide, by decide, by decide, by decide⟩,
  ⟨"\nconst OrtEpApi* (*GetEpApi)(void)".toList, by decide, by decide, by decide, by decide⟩]

theorem laidOut_small : LaidOut (replaceBool smallHeader) "OrtApi".toList smallMembers := by
  refine ⟨[], [],
    ("\nstruct OrtModelEditorApi \x7b\n\n\x7d;\nstruct OrtCompileApi \x7b\n\n\x7d;\n" ++
    "struct OrtInteropApi \x7b\n\n\x7d;\nstruct OrtEpApi \x7b\n\n\x7d;\n").toList,
    ?_, Text.blank_nil, fun _ _ _ => Nat.zero_le _, fun m hm => ?_, fun m hm => ?_⟩
  · decide +kernel
  · obtain rfl := List.mem_singleton.mp hm
    exact ⟨[], _, rfl, Text.blank_nil⟩
  · rcases List.mem_cons.mp hm with rfl | hm
    · exact ⟨"OrtStatus* ".toList, [], "RunAsync".toList, [], "void".toList, ";".toList, rfl,
        by decide, Text.blank_nil, by decide, by decide, rfl⟩
    · obtain rfl := List.mem_singleton.mp hm
      exact ⟨"const OrtEpApi* ".toList, [], "GetEpApi".toList, [], "void".toList, ";".toList, rfl,
        by decide, Text.blank_nil, by decide, by decide, rfl⟩

theorem accessors_resolve_small :
    ∃ fields subApis, readHeader smallHeader = some (fields, subApis) ∧
    (∀ enabled, declared enabled (items Char.isAlphanum fields subApis) .const "IDX_GET_EP_API" =
      if enabled.contains "model-editor" then [.index (some "model-editor") "IDX_GET_EP_API" 1]
      else []) ∧
    fields.map Field.cSig =
      ["OrtStatus* (*RunAsync)(void)".toList, "const OrtEpApi* (*GetEpApi)(void)".toList] := by
  have hread : (readHeader smallHeader).map (fun x => x.1.map Field.name) =
      some ["RunAsync".toList, "GetEpApi".toList] := by decide +kernel
  obtain ⟨⟨fields, subApis⟩, h, hfields⟩ := Option.map_eq_some_iff.mp hread
  have hsquash : (fields.map fun f => squash f.name) = ["runasync".toList, "getepapi".toList] := by
    rw [← Function.comp_def squash, ← List.map_map, hfields]
    decide
  have hall (enabled : List String) := accessors_resolve Char.isAlphanum enabled h
    (by rw [hsquash]; decide) fun f hf => by
      have hmem := List.mem_map_of_mem (f := fun f => squash f.name) hf
      rw [hsquash] at hmem
      intro hworker
      simp [hworker] at hmem
  refine ⟨fields, subApis, h, fun enabled => ?_, (hall []).2.2 smallMembers laidOut_small⟩
  obtain ⟨f, hf, hname⟩ : ∃ f, fields[1]? = some f ∧ f.name = "GetEpApi".toList := by
    rw [← Option.map_eq_some_iff, ← List.getElem?_map]
    exact congrArg (·[1]?) hfields
  have hconst := ((hall enabled).2.1 1 f hf).2.2
  have hindex : indexName f = "IDX_GET_EP_API" := by
    unfold indexName
    rw [hname]
    decide
  have hfeature : classify f.name = some "model-editor" := by
    rw [hname]
    decide
  rw [hindex, hfeature] at hconst
  exact hconst

end Zrt.Codegen
