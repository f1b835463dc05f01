import SurfaceExchange.Surface.Store

/-!
# Surfaces through what was done to them

Whatever is done to a store of surfaces, surfaces are numbered 1, 2, 3 and so
on, and what is destroyed is gone for good (`contains_after_of_lost`): nobody
has it for a parent until somebody is given it for one again
(`parent?_after_ne`). The children of a surface are those whose parent it is
(`mem_children_iff`). A store whose counter has not been started behaves like
one whose counter has (`Alike`).
-/

namespace SurfaceExchange.SurfaceStore

/-- What may be done to a store. -/
inductive Deed where
  | create (role : Option Role)
  | unmap (surface : SurfaceId)
  | destroy (surface : SurfaceId)
  | setParent (change : ParentChange)
  deriving DecidableEq, Repr

def act (s : SurfaceStore) : Deed → SurfaceStore
  | .create role => (s.create role).2
  | .unmap x => s.unmap x
  | .destroy x => s.destroy x
  | .setParent c => s.setParent c

/-- The surface that is made, if one is made. -/
def made (s : SurfaceStore) : Deed → List SurfaceId
  | .create role => [(s.create role).1]
  | _ => []

def after (s : SurfaceStore) (deeds : List Deed) : SurfaceStore := deeds.foldl act s

/-- The surfaces that are made, one after the other. -/
def created (s : SurfaceStore) : List Deed → List SurfaceId
  | [] => []
  | deed :: deeds => s.made deed ++ (s.act deed).created deeds

variable {s t : SurfaceStore} {x : SurfaceId} {deeds : List Deed}

/-! ## Numbers -/

/-- The number of the next surface. -/
def number (s : SurfaceStore) : Nat := max s.nextId 1

theorem number_act (s : SurfaceStore) (deed : Deed) :
    (s.act deed).number = s.number + (s.made deed).length := by
  cases deed with
  | create role => exact Nat.max_eq_left (Nat.le_add_left 1 _)
  | _ => rfl

theorem val_made (s : SurfaceStore) (deed : Deed) :
    (s.made deed).map SurfaceId.val = List.range' s.number (s.made deed).length := by
  cases deed <;> rfl

theorem val_created (s : SurfaceStore) (deeds : List Deed) :
    (s.created deeds).map SurfaceId.val = List.range' s.number (s.created deeds).length := by
  induction deeds generalizing s with
  | nil => rfl
  | cons deed deeds ih =>
    rw [created, List.map_append, val_made, ih, number_act, List.range'_append_1,
      List.length_append]

theorem number_after (s : SurfaceStore) (deeds : List Deed) :
    (s.after deeds).number = s.number + (s.created deeds).length := by
  induction deeds generalizing s with
  | nil => rfl
  | cons deed deeds ih =>
    rw [after, List.foldl_cons, ← after, ih, number_act, created, List.length_append, Nat.add_assoc]

theorem numbered_empty : empty.Numbered := nofun

theorem Numbered.act (h : s.Numbered) (deed : Deed) : (s.act deed).Numbered := by
  cases deed with
  | create role => exact h.create role
  | unmap x => exact h.unmap x
  | destroy x => exact h.destroy x
  | setParent c => exact h.setParent c

theorem Numbered.after (h : s.Numbered) (deeds : List Deed) : (s.after deeds).Numbered := by
  induction deeds generalizing s with
  | nil => exact h
  | cons deed deeds ih => exact ih (h.act deed)

/-- A new surface takes the place of none. -/
theorem Numbered.free (h : s.Numbered) (role : Option Role) :
    s.contains (s.create role).1 = false :=
  Bool.eq_false_iff.mpr fun hc => Nat.not_lt_of_le (Nat.le_max_left _ _) (h _ hc)

/-! ## Which surfaces exist -/

theorem contains_create (s : SurfaceStore) (role : Option Role) (y : SurfaceId) :
    (s.create role).2.contains y = true ↔ (s.create role).1 = y ∨ s.contains y = true := by
  simp only [contains, Table.contains, create, Table.find?_insert]
  split
  · next h => simp [h]
  · next h => simp [h]

@[simp] theorem contains_unmap (s : SurfaceStore) (x y : SurfaceId) :
    (s.unmap x).contains y = s.contains y := by
  simp only [contains, Table.contains, unmap, Table.find?_modify]
  split <;> simp

theorem contains_destroy (s : SurfaceStore) (x y : SurfaceId) :
    (s.destroy x).contains y = true ↔ y ≠ x ∧ s.contains y = true := by
  simp only [contains, Table.contains, destroy, Table.find?_mapValues, Table.find?_erase,
    Option.isSome_map]
  split
  · next h => simp [h]
  · next h => simp [h]

theorem contains_act (s : SurfaceStore) (deed : Deed) (y : SurfaceId)
    (h : (s.act deed).contains y = true) : s.contains y = true ∨ y ∈ s.made deed := by
  cases deed with
  | create role =>
    rcases (contains_create s role y).mp h with rfl | h
    · exact Or.inr List.mem_cons_self
    · exact Or.inl h
  | unmap x => exact Or.inl (contains_unmap s x y ▸ h)
  | destroy x => exact Or.inl ((contains_destroy s x y).mp h).2
  | setParent c => exact Or.inl (contains_setParent s c y ▸ h)

/-- Whatever exists was there before or was made on the way. -/
theorem contains_after (s : SurfaceStore) (deeds : List Deed) (y : SurfaceId)
    (h : (s.after deeds).contains y = true) : s.contains y = true ∨ y ∈ s.created deeds := by
  induction deeds generalizing s with
  | nil => exact Or.inl h
  | cons deed deeds ih =>
    rw [created, List.mem_append]
    rcases ih (s.act deed) h with hy | hy
    · exact (contains_act s deed y hy).imp_right Or.inl
    · exact Or.inr (Or.inr hy)

theorem number_le_of_mem_created (h : x ∈ s.created deeds) : s.number ≤ x.val := by
  have hm : x.val ∈ (s.created deeds).map SurfaceId.val := List.mem_map_of_mem h
  rw [val_created, List.mem_range'_1] at hm
  exact hm.1

theorem lt_number_after (h : x ∈ s.created deeds) : x.val < (s.after deeds).number := by
  have hm : x.val ∈ (s.created deeds).map SurfaceId.val := List.mem_map_of_mem h
  rw [val_created, List.mem_range'_1] at hm
  rw [number_after]
  exact hm.2

/-- A number that was given is not given again, so a surface that is gone stays so. -/
theorem contains_after_of_lost (hlost : s.contains x = false) (hgiven : x.val < s.number)
    (deeds : List Deed) : (s.after deeds).contains x = false := by
  refine Bool.eq_false_iff.mpr fun hc => ?_
  rcases contains_after s deeds x hc with hx | hx
  · rw [hlost] at hx
    cases hx
  · exact Nat.not_lt_of_le (number_le_of_mem_created hx) hgiven

/-! ## Parents -/

theorem mem_children_iff (s : SurfaceStore) (p x : SurfaceId) :
    x ∈ s.children p ↔ s.contains x = true ∧ s.parent? x = some p := by
  rw [children, Table.mem_keys_iff, Table.find?_filter, contains, Table.contains, parent?]
  cases s.surfaces.find? x with
  | none => simp
  | some r => by_cases h : r.parent = some p <;> simp [h]

theorem children_ascending (s : SurfaceStore) (p : SurfaceId) :
    (s.children p).Pairwise (fun x y => x.val < y.val) :=
  (Table.keys_ascending _).imp KeyOrder.PairLt.fst_lt

/-- The children of a surface are what a walk over all surfaces finds and sorts, in whatever order
the walk takes them. -/
theorem children_eq_sort (s : SurfaceStore) (p : SurfaceId) {walk : List (SurfaceId × Surface)}
    (h : walk.Perm s.surfaces.toList) :
    s.children p =
      KeyOrder.sort ((walk.filter (fun e => decide (e.2.parent = some p))).map Prod.fst) :=
  (KeyOrder.sort_eq_of_perm (Table.keys_ascending _) ((h.filter _).map Prod.fst)).symm

/-- A parent is one from before, or one that is set. -/
theorem parent?_of_act {deed : Deed} {y : SurfaceId} (h : (s.act deed).parent? y = some x) :
    s.parent? y = some x ∨ .setParent ⟨y, some x⟩ = deed := by
  cases deed with
  | create role =>
    rw [act, parent?_create] at h
    split at h
    · cases h
    · exact Or.inl h
  | unmap z =>
    rw [act, parent?_unmap] at h
    exact Or.inl h
  | destroy z =>
    rw [act, parent?_destroy] at h
    split at h
    · cases h
    · exact Or.inl h
  | setParent c =>
    rw [act, parent?_setParent] at h
    split at h
    · next hy =>
      obtain ⟨z, p⟩ := c
      obtain ⟨rfl, -⟩ := hy
      exact Or.inr (by rw [show p = some x from h])
    · exact Or.inl h

/-- Only setting a parent gives a surface a child. -/
theorem parent?_after_ne (h : ∀ y, s.parent? y ≠ some x)
    (hdeeds : ∀ y, .setParent ⟨y, some x⟩ ∉ deeds) (y : SurfaceId) :
    (s.after deeds).parent? y ≠ some x := by
  induction deeds generalizing s with
  | nil => exact h y
  | cons deed deeds ih =>
    refine ih (fun z hz => ?_) fun z hz => hdeeds z (List.mem_cons_of_mem _ hz)
    rcases parent?_of_act hz with hold | rfl
    · exact h z hold
    · exact hdeeds z List.mem_cons_self

/-! ## Surfaces that are destroyed -/

/-- A surface is gone, and nothing else is changed than the parents that it was. -/
structure Destroyed (s t : SurfaceStore) (x : SurfaceId) : Prop where
  gone : t.contains x = false
  orphans : ∀ y, t.parent? y ≠ some x
  contains : ∀ y, y ≠ x → t.contains y = s.contains y
  role : ∀ y, y ≠ x → t.role y = s.role y
  isMapped : ∀ y, y ≠ x → t.isMapped y = s.isMapped y
  parent : ∀ y, y ≠ x → s.parent? y ≠ some x → t.parent? y = s.parent? y

theorem isMapped_destroy_of_ne (s : SurfaceStore) {x y : SurfaceId} (h : y ≠ x) :
    (s.destroy x).isMapped y = s.isMapped y := by
  simp only [isMapped, destroy, Table.find?_mapValues, Table.find?_erase_of_ne h]
  cases s.surfaces.find? y with
  | none => rfl
  | some r =>
    simp only [Option.map_some]
    split <;> rfl

theorem destroyed (s : SurfaceStore) (x : SurfaceId) : Destroyed s (s.destroy x) x where
  gone := Bool.eq_false_iff.mpr fun h => ((contains_destroy s x x).mp h).1 rfl
  orphans y := by
    rw [parent?_destroy]
    split
    · exact Option.some_ne_none x |>.symm
    · next h => exact fun hy => h (Or.inr hy)
  contains y hy := by
    rw [Bool.eq_iff_iff, contains_destroy]
    exact and_iff_right hy
  role y hy := by rw [role_destroy, if_neg hy]
  isMapped _ := s.isMapped_destroy_of_ne
  parent y hy hp := by
    rw [parent?_destroy, if_neg]
    rintro (heq | heq)
    · exact hy heq
    · exact hp heq

/-! ## A counter that has not been started -/

/-- The stores answer every question alike, and number the next surface alike. -/
structure Alike (s t : SurfaceStore) : Prop where
  contains : ∀ x, s.contains x = t.contains x
  isMapped : ∀ x, s.isMapped x = t.isMapped x
  role : ∀ x, s.role x = t.role x
  inShell : ∀ x, s.view.inShell x = t.view.inShell x
  parent : ∀ x, s.parent? x = t.parent? x
  children : ∀ x, s.children x = t.children x
  create : ∀ role, (s.create role).1 = (t.create role).1

/-- Only the number of the next surface shows of a counter. -/
structure SameSurfaces (s t : SurfaceStore) : Prop where
  surfaces : s.surfaces = t.surfaces
  number : s.number = t.number

namespace SameSurfaces

theorem alike (h : SameSurfaces s t) : Alike s t where
  contains x := by rw [contains, h.surfaces, contains]
  isMapped x := by rw [isMapped, h.surfaces, isMapped]
  role x := by rw [role, h.surfaces, role]
  inShell x := by
    show (s.role x).isSome = (t.role x).isSome
    rw [role, h.surfaces, role]
  parent x := by rw [parent?, h.surfaces, parent?]
  children x := by rw [children, h.surfaces, children]
  create _ := congrArg SurfaceId.mk h.number

theorem made (h : SameSurfaces s t) (deed : Deed) : s.made deed = t.made deed := by
  cases deed with
  | create role => exact congrArg (fun id => [id]) (h.alike.create role)
  | _ => rfl

theorem act (h : SameSurfaces s t) (deed : Deed) : SameSurfaces (s.act deed) (t.act deed) where
  surfaces := by
    cases deed with
    | create role =>
      show s.surfaces.insert ⟨s.number⟩ { role } = t.surfaces.insert ⟨t.number⟩ { role }
      rw [h.surfaces, h.number]
    | unmap x => simp only [SurfaceStore.act, unmap, h.surfaces]
    | destroy x => simp only [SurfaceStore.act, destroy, h.surfaces]
    | setParent c => simp only [SurfaceStore.act, setParent, h.surfaces]
  number := by rw [number_act, number_act, h.number, h.made]

theorem after (h : SameSurfaces s t) (deeds : List Deed) :
    SameSurfaces (s.after deeds) (t.after deeds) ∧ s.created deeds = t.created deeds := by
  induction deeds generalizing s t with
  | nil => exact ⟨h, rfl⟩
  | cons deed deeds ih =>
    obtain ⟨hafter, hcreated⟩ := ih (h.act deed)
    exact ⟨hafter, by rw [created, h.made, hcreated, created]⟩

end SameSurfaces

/-! ## Whatever was done -/

/-- What a store keeps to, of which these surfaces were made so far. -/
structure Faithful (ids : List SurfaceId) (s : SurfaceStore) : Prop where
  /-- Numbers count from 1 and are given in turn. -/
  numbers : ids.map SurfaceId.val = List.range' 1 ids.length
  next : ∀ role, (s.create role).1.val = ids.length + 1
  free : ∀ role, s.contains (s.create role).1 = false
  made : ∀ x, s.contains x = true → x ∈ ids
  ascending : ∀ p, (s.children p).Pairwise (fun x y => x.val < y.val)
  children : ∀ p x, x ∈ s.children p ↔ s.contains x = true ∧ s.parent? x = some p
  setParent : ∀ c x, (s.setParent c).parent? x =
    if x = c.surface ∧ s.contains x then c.parent else s.parent? x
  destroy : ∀ x, Destroyed s (s.destroy x) x
  /-- Whatever comes after, a surface that is destroyed has no children before somebody is given it
  for a parent again. -/
  orphans : ∀ x later, (∀ y, .setParent ⟨y, some x⟩ ∉ later) →
    ∀ y, ((s.destroy x).after later).parent? y ≠ some x
  lost : ∀ x ∈ ids, ∀ later, ((s.destroy x).after later).contains x = false

/-- Whatever was done to a store, its numbers, its parents and its children are in order, and it
does not show whether its counter had been started. -/
theorem after_faithful (deeds : List Deed) :
    Faithful (empty.created deeds) (empty.after deeds) ∧
    Alike (unstarted.after deeds) (empty.after deeds) ∧
    unstarted.created deeds = empty.created deeds := by
  have hnumbered : (empty.after deeds).Numbered := numbered_empty.after deeds
  have hsame : SameSurfaces unstarted empty := ⟨rfl, rfl⟩
  obtain ⟨hafter, hcreated⟩ := hsame.after deeds
  refine ⟨?_, hafter.alike, hcreated⟩
  exact
    { numbers := val_created empty deeds
      next := fun _ => (number_after empty deeds).trans (Nat.add_comm 1 _)
      free := hnumbered.free
      made := fun x hx => (contains_after empty deeds x hx).resolve_left Bool.false_ne_true
      ascending := children_ascending _
      children := mem_children_iff _
      setParent := parent?_setParent _
      destroy := destroyed _
      orphans := fun x later hlater => parent?_after_ne (destroyed _ x).orphans hlater
      lost := fun x hx later =>
        contains_after_of_lost (destroyed _ x).gone (lt_number_after hx) later }

/-- A parent is destroyed and another surface made. The child of the first has no parent then, and
the first does not exist. -/
theorem after_faithful_orphan :
    let deeds : List Deed := [.create (some .toplevel), .create (some .toplevel),
      .setParent ⟨⟨2⟩, some ⟨1⟩⟩]
    (empty.after deeds).parent? ⟨2⟩ = some ⟨1⟩ ∧ ⟨1⟩ ∈ empty.created deeds ∧
    (((empty.after deeds).destroy ⟨1⟩).after [.create none]).parent? ⟨2⟩ ≠ some ⟨1⟩ ∧
    (((empty.after deeds).destroy ⟨1⟩).after [.create none]).contains ⟨1⟩ = false :=
  ⟨by decide, by decide, (after_faithful _).1.orphans ⟨1⟩ [.create none] (by simp) ⟨2⟩,
    (after_faithful _).1.lost ⟨1⟩ (by decide) _⟩

end SurfaceExchange.SurfaceStore
