import SurfaceExchange.Table.Basic

/-!
# Tables through their look-ups

Every operation is described by what it does to `find?`. The entries are then
determined (`mem_toList_iff`), and so is the whole table (`ext_find?`).
-/

namespace SurfaceExchange.Table

variable {κ α β : Type} [KeyOrder κ]

/-! ## Entries -/

theorem keys_ascending (t : Table κ α) : t.keys.Pairwise (· < ·) :=
  List.pairwise_map.mpr t.ascending

theorem keys_nodup (t : Table κ α) : t.keys.Nodup :=
  t.keys_ascending.imp fun h => KeyOrder.ne_of_lt h

theorem toList_injective {s t : Table κ α} (h : s.toList = t.toList) : s = t := by
  cases s; cases t; cases h; rfl

@[simp] theorem keys_empty : (empty : Table κ α).keys = [] := rfl

@[simp] theorem keys_mapValues (f : κ → α → β) (t : Table κ α) :
    (t.mapValues f).keys = t.keys := by
  simp [keys, mapValues, Function.comp_def]

theorem keys_filter (p : κ → Bool) (t : Table κ α) :
    (t.filter (fun k _ => p k)).keys = t.keys.filter p := by
  simp [keys, filter, List.filter_map, Function.comp_def]

/-- An ascending list is determined by its members. -/
theorem eq_of_ascending {es fs : List (κ × α)}
    (he : es.Pairwise (fun x y => x.1 < y.1)) (hf : fs.Pairwise (fun x y => x.1 < y.1))
    (h : ∀ e, e ∈ es ↔ e ∈ fs) : es = fs := by
  induction es generalizing fs with
  | nil =>
    cases fs with
    | nil => rfl
    | cons f fs => exact absurd ((h f).mpr List.mem_cons_self) (List.not_mem_nil)
  | cons e es ih =>
    cases fs with
    | nil => exact absurd ((h e).mp List.mem_cons_self) (List.not_mem_nil)
    | cons f fs =>
      obtain ⟨he1, he2⟩ := List.pairwise_cons.mp he
      obtain ⟨hf1, hf2⟩ := List.pairwise_cons.mp hf
      have hef : e = f := by
        rcases List.mem_cons.mp ((h e).mp List.mem_cons_self) with heq | hmem
        · exact heq
        · rcases List.mem_cons.mp ((h f).mpr List.mem_cons_self) with heq | hmem'
          · exact heq.symm
          · exact absurd (he1 f hmem') (KeyOrder.asymm (hf1 e hmem))
      subst hef
      refine congrArg _ (ih he2 hf2 fun x => ?_)
      have hx := h x
      simp only [List.mem_cons] at hx
      constructor
      · intro hm
        rcases hx.mp (Or.inr hm) with rfl | hm'
        · exact absurd (he1 x hm) (KeyOrder.irrefl _)
        · exact hm'
      · intro hm
        rcases hx.mpr (Or.inr hm) with rfl | hm'
        · exact absurd (hf1 x hm) (KeyOrder.irrefl _)
        · exact hm'

theorem size_eq_keys_length (t : Table κ α) : t.size = t.keys.length := by
  simp [size, keys]

variable [DecidableEq κ]

@[simp] theorem find?_empty (k : κ) : (empty : Table κ α).find? k = none := rfl

/-- An entry is what the look-up of its key finds. -/
theorem mem_toList_iff (t : Table κ α) (k : κ) (a : α) :
    (k, a) ∈ t.toList ↔ t.find? k = some a := by
  obtain ⟨es, h⟩ := t
  induction es with
  | nil => simp [find?]
  | cons e rest ih =>
    obtain ⟨he, hr⟩ := List.pairwise_cons.mp h
    have ih := ih hr
    simp only [find?] at ih ⊢
    by_cases hk : e.1 = k
    · have hne : ∀ x ∈ rest, x.1 ≠ k := fun x hx => hk ▸ (KeyOrder.ne_of_lt (he x hx)).symm
      constructor
      · intro hm
        rcases List.mem_cons.mp hm with hm | hm
        · simp [← hm]
        · exact absurd rfl (hne _ hm)
      · intro hf
        simp only [List.find?_cons, hk, decide_true, Option.map_some, Option.some.injEq] at hf
        exact List.mem_cons.mpr (Or.inl (by rw [← hk, ← hf]))
    · have hne : ((k, a) : κ × α) ≠ e := fun hm => hk (by rw [← hm])
      simpa [List.find?_cons, hk, hne] using ih

theorem mem_keys_iff (t : Table κ α) (k : κ) : k ∈ t.keys ↔ (t.find? k).isSome := by
  constructor
  · intro h
    obtain ⟨e, he, rfl⟩ := List.mem_map.mp h
    simp [(t.mem_toList_iff e.1 e.2).mp he]
  · intro h
    obtain ⟨a, ha⟩ := Option.isSome_iff_exists.mp h
    exact List.mem_map.mpr ⟨(k, a), (t.mem_toList_iff k a).mpr ha, rfl⟩

theorem contains_iff_mem_keys (t : Table κ α) (k : κ) : t.contains k = true ↔ k ∈ t.keys := by
  rw [contains, mem_keys_iff]

/-! ## Operations -/

theorem find?_insert (k k' : κ) (a : α) (t : Table κ α) :
    (t.insert k a).find? k' = if k = k' then some a else t.find? k' := by
  obtain ⟨es, h⟩ := t
  simp only [find?, insert]
  induction es with
  | nil => by_cases hk : k = k' <;> simp [insertEntry, hk]
  | cons e rest ih =>
    have ih := ih (List.pairwise_cons.mp h).2
    simp only [insertEntry]
    split
    · by_cases hk : k = k' <;> simp [List.find?_cons, hk]
    · next hlt =>
      split
      · next hgt =>
        by_cases he : e.1 = k'
        · have : k ≠ k' := fun hk => KeyOrder.ne_of_lt hgt (he.trans hk.symm)
          simp [he, this]
        · simpa [List.find?_cons, he] using ih
      · next hgt =>
        have heq : k = e.1 := KeyOrder.eq_of_not_lt hlt hgt
        by_cases hk : k = k'
        · simp [hk]
        · have : e.1 ≠ k' := fun he => hk (heq.trans he)
          simp [hk, this]

@[simp] theorem find?_insert_self (k : κ) (a : α) (t : Table κ α) :
    (t.insert k a).find? k = some a := by
  simp [find?_insert]

theorem find?_insert_of_ne {k k' : κ} (h : k ≠ k') (a : α) (t : Table κ α) :
    (t.insert k a).find? k' = t.find? k' := by
  simp [find?_insert, h]

/-- Whatever is found after an insertion is what went in or was there before. -/
theorem of_find?_insert {k k' : κ} {a b : α} {t : Table κ α}
    (h : (t.insert k a).find? k' = some b) : (k' = k ∧ b = a) ∨ t.find? k' = some b := by
  rw [find?_insert] at h
  split at h
  · next heq => exact Or.inl ⟨heq.symm, (Option.some.inj h).symm⟩
  · exact Or.inr h

/-- What goes in under a free key takes the place of nothing. -/
theorem find?_insert_of_free {k k' : κ} {a b : α} {t : Table κ α} (hfree : t.find? k = none)
    (h : t.find? k' = some b) : (t.insert k a).find? k' = some b := by
  have hne : k ≠ k' := fun heq => by
    rw [← heq, hfree] at h
    cases h
  rw [find?_insert_of_ne hne, h]

theorem find?_filter (p : κ → α → Bool) (t : Table κ α) (k : κ) :
    (t.filter p).find? k = (t.find? k).filter (p k) := by
  apply Option.ext
  intro a
  rw [← mem_toList_iff, Option.filter_eq_some_iff, ← mem_toList_iff]
  simp [filter]

theorem find?_filter_key (p : κ → Bool) (t : Table κ α) (k : κ) :
    (t.filter (fun k _ => p k)).find? k = if p k then t.find? k else none := by
  rw [find?_filter]
  cases t.find? k with
  | none => simp
  | some a => rw [Option.filter_some]

/-- Whatever is found among the entries that passed a test was there before. -/
theorem of_find?_filter {p : κ → α → Bool} {t : Table κ α} {k : κ} {a : α}
    (h : (t.filter p).find? k = some a) : t.find? k = some a := by
  rw [find?_filter] at h
  exact (Option.filter_eq_some_iff.mp h).1

theorem find?_mapValues (f : κ → α → β) (t : Table κ α) (k : κ) :
    (t.mapValues f).find? k = (t.find? k).map (f k) := by
  obtain ⟨es, h⟩ := t
  simp only [find?, mapValues, List.find?_map, Option.map_map]
  induction es with
  | nil => rfl
  | cons e rest ih =>
    by_cases hk : e.1 = k
    · simp [Function.comp_def, hk]
    · simpa [List.find?_cons, Function.comp_def, hk] using ih (List.pairwise_cons.mp h).2

theorem find?_erase (t : Table κ α) (k k' : κ) :
    (t.erase k).find? k' = if k' = k then none else t.find? k' := by
  rw [erase, find?_filter_key]
  by_cases h : k' = k <;> simp [h]

@[simp] theorem find?_erase_self (t : Table κ α) (k : κ) : (t.erase k).find? k = none := by
  simp [find?_erase]

theorem find?_erase_of_ne {k k' : κ} (h : k' ≠ k) (t : Table κ α) :
    (t.erase k).find? k' = t.find? k' := by
  simp [find?_erase, h]

theorem of_find?_erase {k k' : κ} {a : α} {t : Table κ α} (h : (t.erase k).find? k' = some a) :
    t.find? k' = some a := of_find?_filter h

theorem find?_modify (t : Table κ α) (k k' : κ) (f : α → α) :
    (t.modify k f).find? k' = if k' = k then (t.find? k').map f else t.find? k' := by
  rw [modify, find?_mapValues]
  by_cases h : k' = k
  · simp [h]
  · simp [h]

/-! ## Extensionality -/

/-- Tables with the same look-ups are equal. -/
theorem ext_find? {s t : Table κ α} (h : ∀ k, s.find? k = t.find? k) : s = t :=
  toList_injective <| eq_of_ascending s.ascending t.ascending fun e => by
    rw [show e = (e.1, e.2) from rfl, mem_toList_iff, mem_toList_iff, h]

/-- A set is determined by its keys. -/
theorem ext_keys {s t : KeySet κ} (h : ∀ k, k ∈ keys s ↔ k ∈ keys t) : s = t := by
  refine ext_find? fun k => ?_
  have hk := h k
  rw [mem_keys_iff, mem_keys_iff] at hk
  cases hs : s.find? k with
  | none =>
    cases ht : t.find? k with
    | none => rfl
    | some _ => simp [hs, ht] at hk
  | some _ =>
    cases ht : t.find? k with
    | none => simp [hs, ht] at hk
    | some _ => rfl

/-- Tables with the same keys have them in the same order. -/
theorem keys_congr {s : Table κ α} {t : Table κ β} (h : ∀ k, k ∈ s.keys ↔ k ∈ t.keys) :
    s.keys = t.keys := by
  have hset : s.mapValues (fun _ _ => ()) = t.mapValues (fun _ _ => ()) :=
    ext_keys fun k => by rw [keys_mapValues, keys_mapValues, h]
  rw [← keys_mapValues (fun _ _ => ()) s, hset, keys_mapValues]

end SurfaceExchange.Table
