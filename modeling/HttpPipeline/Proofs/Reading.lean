/-! # Reading one item after another

  A list whose items are read in order, up to the first one that cannot be read. Either all of them
  can be read, and what is read of the list is what is read of each; or the first failure is the
  failure of the list, and what comes after it does not matter.
-/

namespace HttpPipeline

variable {α β ε : Type} {read : α → Except ε β} {items : List α}

/-- What was written item by item is read item by item. -/
theorem mapM_map_of_read {write : β → α} (h : ∀ b, read (write b) = .ok b) (bs : List β) :
    (bs.map write).mapM read = .ok bs := by
  induction bs with
  | nil => rfl
  | cons b bs ih =>
    rw [List.map_cons, List.mapM_cons, h, ih]
    rfl

/-- A list fails where its first item does, or else where the rest does. -/
theorem mapM_cons_eq_error_iff {a : α} {e : ε} :
    (a :: items).mapM read = .error e ↔
      read a = .error e ∨ (∃ b, read a = .ok b) ∧ items.mapM read = .error e := by
  rw [List.mapM_cons]
  cases read a with
  | error e' =>
    constructor
    · intro h
      obtain rfl := Except.error.inj h
      exact .inl rfl
    · rintro (h | ⟨⟨b, hb⟩, _⟩)
      · obtain rfl := Except.error.inj h
        rfl
      · cases hb
  | ok b =>
    cases items.mapM read with
    | error e' => exact ⟨fun h => .inr ⟨⟨b, rfl⟩, h⟩, fun h => (h.resolve_left nofun).2⟩
    | ok rest => exact ⟨nofun, fun h => nomatch (h.resolve_left nofun).2⟩

/-- **The first failure** is the failure of the list. -/
theorem mapM_eq_error_iff {e : ε} :
    items.mapM read = .error e ↔
      ∃ front item back, items = front ++ item :: back ∧
        (∀ a ∈ front, ∃ b, read a = .ok b) ∧ read item = .error e := by
  induction items with
  | nil => simp [pure, Except.pure]
  | cons first items ih =>
    rw [mapM_cons_eq_error_iff, ih]
    constructor
    · rintro (hfirst | ⟨hfirst, front, item, back, rfl, hfront, hitem⟩)
      · exact ⟨[], first, items, rfl, fun a ha => absurd ha List.not_mem_nil, hfirst⟩
      · refine ⟨first :: front, item, back, rfl, fun a ha => ?_, hitem⟩
        rcases List.mem_cons.mp ha with rfl | ha
        · exact hfirst
        · exact hfront a ha
    · rintro ⟨front, item, back, hitems, hfront, hitem⟩
      cases front with
      | nil =>
        obtain ⟨rfl, rfl⟩ := List.cons.inj hitems
        exact .inl hitem
      | cons a front =>
        obtain ⟨rfl, rfl⟩ := List.cons.inj hitems
        refine .inr ⟨hfront first List.mem_cons_self, front, item, back, rfl, ?_, hitem⟩
        exact fun a ha => hfront a (List.mem_cons_of_mem first ha)

/-- A list fails exactly if one of its items does. -/
theorem exists_mapM_eq_error_iff :
    (∃ e, items.mapM read = .error e) ↔ ∃ a ∈ items, ∃ e, read a = .error e := by
  constructor
  · rintro ⟨e, h⟩
    obtain ⟨front, item, back, rfl, _, hitem⟩ := mapM_eq_error_iff.mp h
    exact ⟨item, List.mem_append_right front List.mem_cons_self, e, hitem⟩
  · rintro ⟨a, ha, e, hfails⟩
    induction items with
    | nil => exact absurd ha List.not_mem_nil
    | cons first items ih =>
      cases hfirst : read first with
      | error e' => exact ⟨e', mapM_cons_eq_error_iff.mpr (.inl hfirst)⟩
      | ok b =>
        rcases List.mem_cons.mp ha with rfl | ha
        · cases hfirst.symm.trans hfails
        · obtain ⟨e', hrest⟩ := ih ha
          exact ⟨e', mapM_cons_eq_error_iff.mpr (.inr ⟨⟨b, hfirst⟩, hrest⟩)⟩

/-- What is read of a list, where a failure says nothing, is what is read of each item. -/
theorem mapM_eq_some_iff {read? : α → Option β} {values : List β} :
    items.mapM read? = some values ↔ items.map read? = values.map some := by
  induction items generalizing values with
  | nil => cases values <;> simp
  | cons a items ih =>
    rw [List.mapM_cons, List.map_cons]
    cases values with
    | nil => cases read? a <;> cases items.mapM read? <;> simp
    | cons value values =>
      -- Both sides say that the item and the rest of them are read.
      rw [List.map_cons, List.cons.injEq, ← ih]
      cases read? a <;> cases items.mapM read? <;> simp

/-- Where reading can only give what `f` says, a list that is read gives that. -/
theorem eq_map_of_mapM {read? : α → Option β} {f : α → β} {values : List β}
    (hf : ∀ a b, read? a = some b → b = f a) (h : items.mapM read? = some values) :
    values = items.map f := by
  rw [mapM_eq_some_iff] at h
  induction items generalizing values with
  | nil => exact List.map_eq_nil_iff.mp h.symm
  | cons a items ih =>
    cases values with
    | nil => cases h
    | cons value values =>
      obtain ⟨hfirst, hrest⟩ := List.cons.inj h
      rw [List.map_cons, ← hf a value hfirst, ← ih hrest]

end HttpPipeline
