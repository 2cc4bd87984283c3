import Mathlib.Data.Multiset.Bind

/-! Shelves that lend out their items: every item stays in one place. -/
namespace Lending

variable {ι τ : Type*} [DecidableEq ι]

/-- A shelf: the items that belong to it, those that are at hand, and how many are lent out. -/
structure Shelf (ι τ : Type*) where
  id : ι
  stock : Multiset τ
  items : Multiset τ
  lent : ℕ

/-- The items on loan from one shelf. -/
def lentBy (loans : Multiset (ι × τ)) (id : ι) : Multiset τ :=
  (loans.filter fun loan => loan.1 = id).map Prod.snd

/-- The shelf accounts for all its items. -/
structure Shelf.Balanced (s : Shelf ι τ) (loans : Multiset (ι × τ)) : Prop where
  stock : s.items + lentBy loans s.id = s.stock
  lent : s.lent = (lentBy loans s.id).card

/-- Every item is on its shelf or on loan from it, and every loan has a shelf to return to. -/
structure Conserved (shelves : Multiset (Shelf ι τ)) (loans : Multiset (ι × τ)) : Prop where
  ids : (shelves.map Shelf.id).Nodup
  balanced : ∀ s ∈ shelves, s.Balanced loans
  known : ∀ loan ∈ loans, ∃ s ∈ shelves, s.id = loan.1

variable {s : Shelf ι τ} {shelves rest : Multiset (Shelf ι τ)} {loans : Multiset (ι × τ)}
  {ids : Multiset ι} {id id' : ι} {x : τ} {stock items : Multiset τ} {n : ℕ}

@[simp] theorem lentBy_cons_self : lentBy ((id, x) ::ₘ loans) id = x ::ₘ lentBy loans id := by
  simp [lentBy]

theorem lentBy_cons_of_ne (h : id' ≠ id) : lentBy ((id', x) ::ₘ loans) id = lentBy loans id := by
  simp [lentBy, h]

theorem mem_lentBy : x ∈ lentBy loans id ↔ (id, x) ∈ loans := by
  simp [lentBy]

theorem card_lentBy : (lentBy loans id).card = loans.countP fun loan => loan.1 = id := by
  rw [lentBy, Multiset.card_map, Multiset.countP_eq_card_filter]

/-- The loans, shelf by shelf. -/
theorem bind_lentBy (hn : ids.Nodup) (hk : ∀ loan ∈ loans, loan.1 ∈ ids) :
    ids.bind (lentBy loans) = loans.map Prod.snd := by
  induction ids using Multiset.induction_on generalizing loans with
  | empty =>
    have h0 : loans = 0 := Multiset.eq_zero_of_forall_notMem fun loan hl =>
      Multiset.notMem_zero _ (hk loan hl)
    simp [h0]
  | cons id ids ih =>
    obtain ⟨hid, hn⟩ := Multiset.nodup_cons.mp hn
    have hothers : ∀ loan ∈ loans.filter (fun loan => ¬ loan.1 = id), loan.1 ∈ ids := by
      intro loan hl
      obtain ⟨hl, hne⟩ := Multiset.mem_filter.mp hl
      exact (Multiset.mem_cons.mp (hk loan hl)).resolve_left hne
    have hsame : ids.bind (lentBy loans) =
        ids.bind (lentBy (loans.filter fun loan => ¬ loan.1 = id)) := by
      refine Multiset.bind_congr ?_
      intro id' hid'
      have hne : id' ≠ id := fun he => hid (he ▸ hid')
      unfold lentBy
      rw [Multiset.filter_filter]
      refine congrArg _ (Multiset.filter_congr ?_)
      intro loan _
      exact ⟨fun he => ⟨he, fun he' => hne (he.symm.trans he')⟩, And.left⟩
    calc (id ::ₘ ids).bind (lentBy loans)
        _ = lentBy loans id + ids.bind (lentBy loans) := Multiset.cons_bind ..
        _ = lentBy loans id + (loans.filter fun loan => ¬ loan.1 = id).map Prod.snd := by
          rw [hsame, ih hn hothers]
        _ = loans.map Prod.snd := by
          rw [lentBy, ← Multiset.map_add, Multiset.filter_add_not]

theorem Shelf.Balanced.card (h : s.Balanced loans) : s.items.card + s.lent = s.stock.card := by
  rw [h.lent, ← h.stock, Multiset.card_add]

theorem Shelf.Balanced.mem_stock (h : s.Balanced loans) (hx : (s.id, x) ∈ loans) : x ∈ s.stock := by
  rw [← h.stock]
  exact Multiset.mem_add.mpr (.inr (mem_lentBy.mpr hx))

theorem Shelf.Balanced.mem_stock_of_item (h : s.Balanced loans) (hx : x ∈ s.items) :
    x ∈ s.stock := by
  rw [← h.stock]
  exact Multiset.mem_add.mpr (.inl hx)

theorem conserved_zero : Conserved (0 : Multiset (Shelf ι τ)) 0 :=
  ⟨Multiset.nodup_zero, by simp, by simp⟩

theorem Conserved.ne_of_mem_rest (h : Conserved (s ::ₘ rest) loans) {t : Shelf ι τ}
    (ht : t ∈ rest) :
    s.id ≠ t.id := by
  have hn := h.ids
  rw [Multiset.map_cons, Multiset.nodup_cons] at hn
  exact fun he => hn.1 (Multiset.mem_map.mpr ⟨t, ht, he.symm⟩)

/-- Lending an item and taking it back are inverse to each other. -/
theorem conserved_exchange : Conserved (⟨id, stock, items, n + 1⟩ ::ₘ rest) ((id, x) ::ₘ loans) ↔
    Conserved (⟨id, stock, x ::ₘ items, n⟩ ::ₘ rest) loans := by
  have hbal : Shelf.Balanced ⟨id, stock, items, n + 1⟩ ((id, x) ::ₘ loans) ↔
      Shelf.Balanced ⟨id, stock, x ::ₘ items, n⟩ loans := by
    constructor
    · rintro ⟨hs, hl⟩
      simp only [lentBy_cons_self, Multiset.card_cons, Multiset.add_cons] at hs hl
      refine ⟨?_, ?_⟩
      · rw [Multiset.cons_add]
        exact hs
      · exact Nat.succ.inj hl
    · rintro ⟨hs, hl⟩
      simp only [Multiset.cons_add] at hs hl
      refine ⟨?_, ?_⟩
      · simpa using hs
      · simpa using hl
  constructor
  · intro h
    refine ⟨by simpa using h.ids, fun t ht => ?_, fun loan hl => ?_⟩
    · rcases Multiset.mem_cons.mp ht with rfl | hrest
      · exact hbal.mp (h.balanced _ (Multiset.mem_cons_self _ _))
      · have hb := h.balanced t (Multiset.mem_cons_of_mem hrest)
        have hne := h.ne_of_mem_rest hrest
        exact ⟨lentBy_cons_of_ne hne ▸ hb.stock, lentBy_cons_of_ne hne ▸ hb.lent⟩
    · simpa using h.known loan (Multiset.mem_cons_of_mem hl)
  · intro h
    refine ⟨by simpa using h.ids, fun t ht => ?_, fun loan hl => ?_⟩
    · rcases Multiset.mem_cons.mp ht with rfl | hrest
      · exact hbal.mpr (h.balanced _ (Multiset.mem_cons_self _ _))
      · have hb := h.balanced t (Multiset.mem_cons_of_mem hrest)
        have hne := h.ne_of_mem_rest hrest
        exact ⟨(lentBy_cons_of_ne hne).symm ▸ hb.stock, (lentBy_cons_of_ne hne).symm ▸ hb.lent⟩
    · rcases Multiset.mem_cons.mp hl with rfl | hl
      · simp
      · simpa using h.known loan hl

/-- A shelf with something out on loan knows it. -/
theorem Conserved.lent_pos (h : Conserved (s ::ₘ rest) ((s.id, x) ::ₘ loans)) : s.lent ≠ 0 := by
  have hl := (h.balanced s (Multiset.mem_cons_self _ _)).lent
  rw [lentBy_cons_self, Multiset.card_cons] at hl
  omega

/-- A shelf with nothing out on loan can go. -/
theorem conserved_remove (h : Conserved (s ::ₘ rest) loans) (h0 : s.lent = 0) :
    Conserved rest loans := by
  have hn := h.ids
  rw [Multiset.map_cons, Multiset.nodup_cons] at hn
  refine ⟨hn.2, fun t ht => h.balanced t (Multiset.mem_cons_of_mem ht), ?_⟩
  intro loan hl
  obtain ⟨t, ht, hid⟩ := h.known loan hl
  rcases Multiset.mem_cons.mp ht with rfl | hrest
  · have hb := (h.balanced t (Multiset.mem_cons_self _ _)).lent
    rw [h0, eq_comm, Multiset.card_eq_zero] at hb
    have hmem : loan.2 ∈ lentBy loans t.id := mem_lentBy.mpr (hid ▸ hl)
    rw [hb] at hmem
    exact absurd hmem (Multiset.notMem_zero _)
  · exact ⟨t, hrest, hid⟩

/-- Nothing is on loan from shelves that have lent nothing. -/
theorem Conserved.eq_zero (h : Conserved shelves loans) (h0 : ∀ s ∈ shelves, s.lent = 0) :
    loans = 0 := by
  refine Multiset.eq_zero_of_forall_notMem ?_
  intro loan hl
  obtain ⟨s, hs, hid⟩ := h.known loan hl
  have hb := (h.balanced s hs).lent
  rw [h0 s hs, eq_comm, Multiset.card_eq_zero] at hb
  have hmem : loan.2 ∈ lentBy loans s.id := mem_lentBy.mpr (hid ▸ hl)
  rw [hb] at hmem
  exact Multiset.notMem_zero _ hmem

/-- A full shelf of a new name can come. -/
theorem conserved_add (h : Conserved shelves loans) (hid : ∀ t ∈ shelves, t.id ≠ id) :
    Conserved (⟨id, stock, stock, 0⟩ ::ₘ shelves) loans := by
  have hnone : lentBy loans id = 0 := by
    refine Multiset.eq_zero_of_forall_notMem ?_
    intro x hx
    obtain ⟨t, ht, he⟩ := h.known _ (mem_lentBy.mp hx)
    exact hid t ht he
  refine ⟨?_, ?_, ?_⟩
  · rw [Multiset.map_cons, Multiset.nodup_cons]
    refine ⟨?_, h.ids⟩
    intro hm
    obtain ⟨t, ht, he⟩ := Multiset.mem_map.mp hm
    exact hid t ht he
  · intro t ht
    rcases Multiset.mem_cons.mp ht with rfl | ht
    · exact ⟨by rw [hnone, add_zero], by rw [hnone, Multiset.card_zero]⟩
    · exact h.balanced t ht
  · intro loan hl
    obtain ⟨t, ht, he⟩ := h.known loan hl
    exact ⟨t, Multiset.mem_cons_of_mem ht, he⟩

/-- The items at hand and those on loan are all the items that belong to the shelves. -/
theorem Conserved.total (h : Conserved shelves loans) :
    shelves.bind Shelf.items + loans.map Prod.snd = shelves.bind Shelf.stock := by
  have hloans : shelves.bind (fun s => lentBy loans s.id) = loans.map Prod.snd := by
    rw [← bind_lentBy h.ids fun loan hl => ?_, Multiset.bind_map]
    obtain ⟨s, hs, he⟩ := h.known loan hl
    exact Multiset.mem_map.mpr ⟨s, hs, he⟩
  rw [← hloans, ← Multiset.bind_add]
  exact Multiset.bind_congr fun s hs => (h.balanced s hs).stock

end Lending
