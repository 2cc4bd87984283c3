import Zrt.Codegen.Resolve

/-! Every handle type that the file names is declared in it. -/
namespace Zrt.Codegen

variable {isAlphanumeric : Char → Bool} {fields : List Codegen.Field}
  {subApis : List (String × List Codegen.Field)} {f : Codegen.Field} {feature : Option String}
  {enabled : List String} {params : List Param} {p : Param} {t : RustType} {name text : String}
  {xs ys : List Char} {pp : List Char}

/-- The text stands in the list between two characters that end words. -/
def Between (isAlphanumeric : Char → Bool) (text : String) (xs : List Char) : Prop :=
  ∃ x c d y, xs = x ++ c :: (text.toList ++ d :: y) ∧
    (!isAlphanumeric c && c ≠ '_') = true ∧ (!isAlphanumeric d && d ≠ '_') = true

theorem Between.append_left (h : Between isAlphanumeric text xs) :
    Between isAlphanumeric text (ys ++ xs) := by
  obtain ⟨x, c, d, y, rfl, hc, hd⟩ := h
  exact ⟨ys ++ x, c, d, y, by rw [List.append_assoc], hc, hd⟩

theorem Between.append_right (h : Between isAlphanumeric text xs) :
    Between isAlphanumeric text (xs ++ ys) := by
  obtain ⟨x, c, d, y, rfl, hc, hd⟩ := h
  exact ⟨x, c, d, y ++ ys, by simp, hc, hd⟩

/-- Its words are words of the whole. -/
theorem Between.tokens {s : String} (h : Between isAlphanumeric text s.toList)
    (hname : name ∈ tokens isAlphanumeric text) : name ∈ tokens isAlphanumeric s := by
  obtain ⟨x, c, d, y, hs, hc, hd⟩ := h
  unfold Codegen.tokens at hname ⊢
  have hfirst := List.splitOnP_append_cons (p := fun c => !isAlphanumeric c && c ≠ '_')
    x (text.toList ++ d :: y) hc
  have hsecond := List.splitOnP_append_cons (p := fun c => !isAlphanumeric c && c ≠ '_')
    text.toList y hd
  rw [hs, hfirst, hsecond, List.map_append, List.map_append]
  exact List.mem_append_right _ (List.mem_append_left _ hname)

/-- What `char::is_alphanumeric` says of ASCII. -/
def Ascii (isAlphanumeric : Char → Bool) : Prop :=
  ∀ c, c.toNat < 128 → isAlphanumeric c = c.isAlphanum

/-- A separator of ASCII. -/
theorem ends_word {c : Char} (hascii : Ascii isAlphanumeric) (hc : c ∈ [' ', ',', ')', ';', '>']) :
    (!isAlphanumeric c && c ≠ '_') = true := by
  have hsmall : ∀ c ∈ [' ', ',', ')', ';', '>'], c.toNat < 128 ∧
    (!c.isAlphanum && c ≠ '_') = true := by
    decide
  obtain ⟨hlt, hsep⟩ := hsmall c hc
  rw [hascii c hlt]
  exact hsep

theorem between_paramList (hascii : Ascii isAlphanumeric) (hp : p ∈ params) :
    Between isAlphanumeric p.rustType.text ((paramList params).toList ++ ")".toList) := by
  induction params with
  | nil => cases hp
  | cons q params ih =>
    have hfirst (d : Char) (hd : d ∈ [' ', ',', ')', ';', '>']) (rest : List Char) :
        Between isAlphanumeric q.rustType.text
          ((String.ofList q.name ++ ": " ++ q.rustType.text).toList ++ d :: rest) :=
      ⟨q.name ++ [':'], ' ', d, rest, by simp, ends_word hascii (by decide), ends_word hascii hd⟩
    unfold paramList at ih ⊢
    cases params with
    | nil =>
      obtain rfl := List.mem_singleton.mp hp
      exact hfirst ')' (by decide) []
    | cons r params =>
      rw [List.map_cons, List.map_cons, String.intercalate_cons_cons, String.toList_append,
        String.toList_append]
      rcases List.mem_cons.mp hp with rfl | hp
      · rw [List.append_assoc, List.append_assoc]
        exact hfirst ',' (by decide) _
      · rw [List.append_assoc]
        exact (ih hp).append_left

/-- The signature of the field as the text has it. -/
def Shows (f : Codegen.Field) (s : String) : Prop := ∃ a c b, c ∈ [';', '>'] ∧
  s.toList = a ++ ((paramList f.params).toList ++ (") -> ".toList ++ (f.ret.text.toList ++ c :: b)))

/-- A type of the field's signature. -/
def Field.Mentions (f : Codegen.Field) (t : RustType) : Prop :=
  t = f.ret ∨ ∃ p ∈ f.params, t = p.rustType

theorem Shows.between {s : String} (hascii : Ascii isAlphanumeric) (h : Shows f s)
    (ht : f.Mentions t) :
    Between isAlphanumeric t.text s.toList := by
  obtain ⟨a, c, b, hc, hs⟩ := h
  have hc' : c ∈ [' ', ',', ')', ';', '>'] := by
    rcases List.mem_cons.mp hc with rfl | hc
    · decide
    · rw [List.mem_singleton.mp hc]
      decide
  rw [hs]
  rcases ht with rfl | ⟨p, hp, rfl⟩
  · refine Between.append_left (Between.append_left ?_)
    exact ⟨") ->".toList, ' ', c, b, by simp, ends_word hascii (by decide), ends_word hascii hc'⟩
  · refine Between.append_left ?_
    have hclose : ") -> ".toList = ")".toList ++ " -> ".toList := by decide
    rw [hclose, List.append_assoc, ← List.append_assoc]
    exact (between_paramList hascii hp).append_right

theorem Shows.append {s u v : String} (h : Shows f s) : Shows f (u ++ s ++ v) := by
  obtain ⟨a, c, b, hc, hs⟩ := h
  refine ⟨u.toList ++ a, c, b ++ v.toList, hc, ?_⟩
  rw [String.toList_append, String.toList_append, hs]
  simp only [List.append_assoc, List.cons_append]

theorem shows_emitField : Shows f (emitField f feature) := by
  have hbehind : ";\n" = String.ofList [';'] ++ "\n" := by decide
  rw [emitField_eq, hbehind]
  refine ⟨("// " ++ String.ofList f.cSig ++ "\n" ++ cfg feature ++ indexConst f ++ cfg feature ++
    "pub type " ++ toPascal f.name ++ "Fn = unsafe extern \"C\" fn(").toList, ';',
    ("\n" ++ cfg feature ++ "impl Api \x7b\n  #[inline]\n  " ++ cfg feature ++ "pub unsafe fn " ++
      toSnake f.name ++ "(&self) -> " ++ toPascal f.name ++ "Fn \x7b unsafe \x7b self.f(IDX_" ++
      toScreamingSnake f.name ++ ") \x7d \x7d\n\x7d\n\n").toList, by decide, ?_⟩
  simp only [String.toList_append, List.append_assoc, String.toList_ofList, List.cons_append,
    List.nil_append]

theorem shows_subApiMember : Shows f (subApiMember f) := by
  have hbehind : ">,\n" = String.ofList ['>', ',', '\n'] := by decide
  rw [subApiMember, hbehind]
  refine ⟨("    pub " ++ String.ofList (sanitizeIdent f.name) ++
    ": Option<unsafe extern \"C\" fn(").toList, '>', [',', '\n'], by decide, ?_⟩
  simp only [String.toList_append, List.append_assoc, String.toList_ofList]

theorem shows_emitSubApi (rustName : String) (hf : f ∈ fields) :
    Shows f (emitSubApi rustName fields) := by
  have hkeep (fields : List Codegen.Field) (s : String) :
      ∃ v, fields.foldl (fun s f => s ++ subApiMember f) s = s ++ v := by
    induction fields generalizing s with
    | nil => exact ⟨"", by simp⟩
    | cons g fields ih =>
      obtain ⟨v, hv⟩ := ih (s ++ subApiMember g)
      exact ⟨subApiMember g ++ v, by rw [List.foldl_cons, hv, String.append_assoc]⟩
  obtain ⟨before, behind, rfl⟩ := List.append_of_mem hf
  obtain ⟨v, hv⟩ := hkeep behind
    (before.foldl (fun s f => s ++ subApiMember f) (subApiHead rustName) ++ subApiMember f)
  unfold emitSubApi
  rw [List.foldl_append, List.foldl_cons, hv, String.append_assoc]
  exact shows_subApiMember.append

/-- The types of the header's signatures are in what the handles are collected from. -/
theorem mem_snippets (hascii : Ascii isAlphanumeric)
    (hf : f ∈ fields ∨ ∃ api ∈ subApis, f ∈ api.2) (ht : f.Mentions t)
    (hname : name ∈ tokens isAlphanumeric t.text) :
    ∃ s ∈ snippets fields subApis, name ∈ tokens isAlphanumeric s := by
  rcases hf with hf | ⟨api, hapi, hf⟩
  · refine ⟨emitField f (classify f.name), List.mem_append_left _ ?_,
      (Shows.between hascii shows_emitField ht).tokens hname⟩
    refine List.mem_flatMap.mpr ⟨classify f.name, classify_mem _, List.mem_map.mpr ⟨f, ?_, rfl⟩⟩
    exact List.mem_filter.mpr ⟨hf, by simp⟩
  · exact ⟨emitSubApi api.1 api.2, List.mem_append_right _ (List.mem_map.mpr ⟨api, hapi, rfl⟩),
      (Shows.between hascii (shows_emitSubApi api.1 hf) ht).tokens hname⟩

/-- Only the handles and the callback types are called like a handle. -/
theorem declared_ending (h : readHeader pp = some (fields, subApis))
    (hend : endsWithHandle name = true) :
    declared enabled (items isAlphanumeric fields subApis) .type name =
      declared enabled ((collectHandles isAlphanumeric (snippets fields subApis)).map .handle)
        .type name ++ declared enabled [.written threadTypes threadText] .type name := by
  have hlast := endsWithHandle_getLast hend
  have hgroups : declared enabled (features.flatMap (groupItems fields)) .type name = [] := by
    rw [declared_flatMap, List.flatMap_eq_nil_iff]
    intro feature _
    rw [declared_groupItems, List.flatMap_eq_nil_iff]
    intro g _
    refine declared_nil fun x hx hkey => ?_
    simp only [fieldItems, List.mem_cons, List.not_mem_nil, or_false] at hx
    rcases hx with rfl | rfl | rfl | rfl
    · cases hkey
    · simp [Item.keys] at hkey
    · obtain ⟨-, rfl⟩ := Prod.mk.inj (List.mem_singleton.mp hkey)
      rw [fnTypeName_getLast] at hlast
      cases hlast
    · simp [Item.keys] at hkey
  have htables : declared enabled (subApis.map fun api => .table api.1 api.2) .type name = [] := by
    refine declared_nil fun x hx hkey => ?_
    obtain ⟨api, hapi, rfl⟩ := List.mem_map.mp hx
    obtain ⟨-, rfl⟩ := Prod.mk.inj (List.mem_singleton.mp hkey)
    have hfixed : ∀ t ∈ subApiNames.map Prod.snd, t.toList.getLast? ≠ some 'e' := by decide
    exact hfixed _ (subApis_names h api hapi) hlast
  unfold items
  rw [List.cons_append, declared_text, declared_append, ← List.singleton_append, declared_append,
    declared_append, hgroups, declared_text, htables, List.append_nil, List.append_nil]

theorem declared_handles {handles : List String} (hnodup : handles.Nodup) :
    declared enabled (handles.map .handle) .type name =
      if name ∈ handles then [.handle name] else [] := by
  induction handles with
  | nil => rfl
  | cons x handles ih =>
    obtain ⟨hx, hnodup⟩ := List.nodup_cons.mp hnodup
    rw [List.map_cons, ← List.singleton_append, declared_append, ih hnodup]
    by_cases hname : name = x
    · subst hname
      simp [declared, Item.keys, Item.live, Item.feature, hx]
    · have hne : x ≠ name := fun h => hname h.symm
      simp [declared, Item.keys, hname]

/-- Every name of a signature that ends like a handle has one declaration in the file, whatever the
features: its own, or that of the callback types. -/
theorem types_declared (enabled : List String) (hascii : Ascii isAlphanumeric)
    (h : readHeader pp = some (fields, subApis)) (hf : f ∈ fields ∨ ∃ api ∈ subApis, f ∈ api.2)
    (ht : f.Mentions t) (hname : name ∈ tokens isAlphanumeric t.text)
    (hend : endsWithHandle name = true) :
    declared enabled (items isAlphanumeric fields subApis) .type name =
      if name ∈ handWritten then [.written threadTypes threadText] else [.handle name] := by
  have hnodup : (collectHandles isAlphanumeric (snippets fields subApis)).Nodup :=
    (List.mergeSort_perm _ _).nodup_iff.mpr (List.nodup_dedup _)
  have hmem : name ∈ collectHandles isAlphanumeric (snippets fields subApis) ↔ _ :=
    mem_collectHandles isAlphanumeric _
  rw [declared_ending h hend, declared_handles hnodup]
  by_cases hin : name ∈ handWritten
  · rw [if_pos hin, if_neg fun hcol => (hmem.mp hcol).2.2 hin]
    have hwritten : ∀ name ∈ handWritten, name ∈ threadTypes := by decide
    simp [declared, Item.keys, Item.live, Item.feature, hwritten name hin]
  · rw [if_neg hin, if_pos (hmem.mpr ⟨mem_snippets hascii hf ht hname, hend, hin⟩)]
    have hwritten : ∀ name ∈ threadTypes, endsWithHandle name = true →
      name ∈ handWritten := by decide
    have hnone : declared enabled [.written threadTypes threadText] .type name = [] := by
      refine declared_nil fun x hx hkey => hin ?_
      obtain rfl := List.mem_singleton.mp hx
      obtain ⟨ty, hty, heq⟩ := List.mem_map.mp hkey
      obtain ⟨-, rfl⟩ := Prod.mk.inj heq
      exact hwritten _ hty hend
    rw [hnone, List.append_nil]

/-- A header with one function and four empty tables. -/
def sessionHeader : List Char := (
  "struct OrtApi \x7b\nOrtSession* (*TakeSession)(void);\n\x7d;\n" ++
  "struct OrtModelEditorApi \x7b\n\n\x7d;\nstruct OrtCompileApi \x7b\n\n\x7d;\n" ++
  "struct OrtInteropApi \x7b\n\n\x7d;\nstruct OrtEpApi \x7b\n\n\x7d;\n").toList

/-- The name that a pointer points at. -/
def RustType.pointee : RustType → Option String
  | .pointer _ (.name s) => some s
  | .pointer _ (.pointer _ _) => none
  | .pointer _ (.callback _) => none
  | .name _ => none
  | .callback _ => none

theorem pointee_eq_some : t.pointee = some name ↔ ∃ const, t = .pointer const (.name name) := by
  cases t with
  | name s => simp [RustType.pointee]
  | callback params => simp [RustType.pointee]
  | pointer const t => cases t <;> simp [RustType.pointee]

theorem types_declared_session :
    ∃ fields subApis, readHeader sessionHeader = some (fields, subApis) ∧
    ∀ enabled, declared enabled (items Char.isAlphanum fields subApis) .type "SessionHandle" =
      [.handle "SessionHandle"] := by
  have hread : (readHeader sessionHeader).bind (fun x => x.1.head?.bind fun f => f.ret.pointee) =
      some "SessionHandle" := by decide +kernel
  obtain ⟨⟨fields, subApis⟩, h, hfirst⟩ := Option.bind_eq_some_iff.mp hread
  obtain ⟨f, hf, hret⟩ := Option.bind_eq_some_iff.mp hfirst
  have hname : "SessionHandle" ∈ tokens Char.isAlphanum f.ret.text := by
    obtain ⟨const, hpointer⟩ := pointee_eq_some.mp hret
    rw [hpointer, RustType.text, RustType.text]
    cases const <;> decide
  refine ⟨fields, subApis, h, fun enabled => ?_⟩
  exact types_declared enabled (fun _ _ => rfl) h (.inl (List.mem_of_head? hf)) (.inl rfl) hname
    (by decide)

end Zrt.Codegen
