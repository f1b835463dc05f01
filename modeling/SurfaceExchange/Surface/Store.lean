import SurfaceExchange.Surface.Role
import SurfaceExchange.Table.Lemmas

/-!
# Surfaces kept in memory

A shell without a screen: it keeps of every surface its role, whether it is
mapped, and its parent. Surfaces are numbered from 1 and numbers are never
given twice.
-/

namespace SurfaceExchange

structure Surface where
  role : Option Role
  mapped : Bool := true
  parent : Option SurfaceId := none
  deriving DecidableEq, Repr

structure SurfaceStore where
  surfaces : Table SurfaceId Surface := .empty
  /-- Numbers have no bound. A counter of 32 bits agrees until it is to pass 2^32 - 1. -/
  nextId : Nat := 1
  deriving DecidableEq

namespace SurfaceStore

def empty : SurfaceStore := {}

instance : Inhabited SurfaceStore := ⟨empty⟩

/-- A store whose counter has not been started. It starts with the first surface. -/
def unstarted : SurfaceStore := { nextId := 0 }

/-- A new surface is mapped and has no parent. -/
def create (s : SurfaceStore) (role : Option Role) : SurfaceId × SurfaceStore :=
  let id := max s.nextId 1
  (⟨id⟩, { surfaces := s.surfaces.insert ⟨id⟩ { role }, nextId := id + 1 })

def contains (s : SurfaceStore) (x : SurfaceId) : Bool := s.surfaces.contains x

def role (s : SurfaceStore) (x : SurfaceId) : Option Role :=
  (s.surfaces.find? x).bind Surface.role

def isMapped (s : SurfaceStore) (x : SurfaceId) : Bool :=
  ((s.surfaces.find? x).map Surface.mapped).getD false

def parent? (s : SurfaceStore) (x : SurfaceId) : Option SurfaceId :=
  (s.surfaces.find? x).bind Surface.parent

/-- The surfaces whose parent is `p`, in ascending order. -/
def children (s : SurfaceStore) (p : SurfaceId) : List SurfaceId :=
  (s.surfaces.filter (fun _ x => decide (x.parent = some p))).keys

/-- An unmapped surface stays, and so does its parent. -/
def unmap (s : SurfaceStore) (x : SurfaceId) : SurfaceStore :=
  { s with surfaces := s.surfaces.modify x (fun r => { r with mapped := false }) }

/-- Forgets a surface. No child keeps a pointer to it. -/
def destroy (s : SurfaceStore) (x : SurfaceId) : SurfaceStore :=
  { s with surfaces := (s.surfaces.erase x).mapValues (fun _ r =>
      if r.parent = some x then { r with parent := none } else r) }

/-- Sets or clears a parent. The parent need not exist. -/
def setParent (s : SurfaceStore) (c : ParentChange) : SurfaceStore :=
  { s with surfaces := s.surfaces.modify c.surface (fun r => { r with parent := c.parent }) }

/-- Sets parents one after the other. -/
def setParents (s : SurfaceStore) (cs : List ParentChange) : SurfaceStore := cs.foldl setParent s

/-- The store as a shell. -/
def view (s : SurfaceStore) : ShellView where
  role := s.role

theorem parent?_setParent (s : SurfaceStore) (c : ParentChange) (x : SurfaceId) :
    (s.setParent c).parent? x =
      if x = c.surface ∧ s.contains x then c.parent else s.parent? x := by
  simp only [parent?, setParent, contains, Table.contains, Table.find?_modify]
  by_cases h : x = c.surface
  · subst h
    rcases Option.eq_none_or_eq_some (s.surfaces.find? c.surface) with hf | ⟨r, hf⟩ <;> simp [hf]
  · simp [h]

@[simp] theorem contains_setParent (s : SurfaceStore) (c : ParentChange) (x : SurfaceId) :
    (s.setParent c).contains x = s.contains x := by
  simp only [contains, Table.contains, setParent, Table.find?_modify]
  split <;> simp

/-! ## Numbers -/

/-- Every surface was given a number, so the next number is nobody's. -/
def Numbered (s : SurfaceStore) : Prop := ∀ x, s.contains x → x.val < s.nextId

namespace Numbered

variable {s : SurfaceStore} (h : s.Numbered)

include h

theorem create (role : Option Role) : (s.create role).2.Numbered := by
  intro x hx
  simp only [contains, Table.contains, SurfaceStore.create, Table.find?_insert] at hx ⊢
  split at hx
  · next heq =>
    rw [← heq]
    exact Nat.lt_succ_self _
  · exact Nat.lt_succ_of_lt (Nat.lt_of_lt_of_le (h x hx) (Nat.le_max_left _ _))

theorem unmap (y : SurfaceId) : (s.unmap y).Numbered := by
  intro x hx
  refine h x ?_
  simp only [contains, Table.contains, SurfaceStore.unmap, Table.find?_modify] at hx ⊢
  split at hx
  · rwa [Option.isSome_map] at hx
  · exact hx

theorem destroy (y : SurfaceId) : (s.destroy y).Numbered := by
  intro x hx
  refine h x ?_
  simp only [contains, Table.contains, SurfaceStore.destroy, Table.find?_mapValues,
    Table.find?_erase, Option.isSome_map] at hx ⊢
  split at hx
  · cases hx
  · exact hx

theorem setParent (c : ParentChange) : (s.setParent c).Numbered := fun x hx =>
  h x (by rwa [contains_setParent] at hx)

theorem setParents (cs : List ParentChange) : (s.setParents cs).Numbered := by
  induction cs generalizing s with
  | nil => exact h
  | cons c cs ih => exact ih (h.setParent c)

end Numbered

/-! ## Roles

Roles are for life: only a surface's making and its end touch them. -/

@[simp] theorem role_setParent (s : SurfaceStore) (c : ParentChange) (x : SurfaceId) :
    (s.setParent c).role x = s.role x := by
  simp only [role, setParent, Table.find?_modify]
  split
  · cases s.surfaces.find? x <;> rfl
  · rfl

@[simp] theorem role_setParents (s : SurfaceStore) (cs : List ParentChange) (x : SurfaceId) :
    (s.setParents cs).role x = s.role x := by
  induction cs generalizing s with
  | nil => rfl
  | cons c cs ih => rw [setParents, List.foldl_cons, ← setParents, ih, role_setParent]

@[simp] theorem role_unmap (s : SurfaceStore) (x y : SurfaceId) :
    (s.unmap x).role y = s.role y := by
  simp only [role, unmap, Table.find?_modify]
  split
  · cases s.surfaces.find? y <;> rfl
  · rfl

theorem role_destroy (s : SurfaceStore) (x y : SurfaceId) :
    (s.destroy x).role y = if y = x then none else s.role y := by
  simp only [role, destroy, Table.find?_mapValues, Table.find?_erase]
  split
  · rfl
  · cases s.surfaces.find? y with
    | none => rfl
    | some r =>
      simp only [Option.map_some, Option.bind_some]
      split <;> rfl

theorem role_create (s : SurfaceStore) (role : Option Role) (y : SurfaceId) :
    (s.create role).2.role y = if (s.create role).1 = y then role else s.role y := by
  simp only [SurfaceStore.role, create, Table.find?_insert]
  by_cases h : (⟨max s.nextId 1⟩ : SurfaceId) = y <;> simp [h]

/-! ## Parents -/

@[simp] theorem parent?_unmap (s : SurfaceStore) (x y : SurfaceId) :
    (s.unmap x).parent? y = s.parent? y := by
  simp only [parent?, unmap, Table.find?_modify]
  split
  · cases s.surfaces.find? y <;> rfl
  · rfl

theorem parent?_destroy (s : SurfaceStore) (x y : SurfaceId) : (s.destroy x).parent? y =
    if y = x ∨ s.parent? y = some x then none else s.parent? y := by
  simp only [parent?, destroy, Table.find?_mapValues, Table.find?_erase]
  by_cases h : y = x
  · simp [h]
  · simp only [h, if_false, false_or]
    cases s.surfaces.find? y with
    | none => rfl
    | some r => by_cases hr : r.parent = some x <;> simp [hr]

theorem parent?_create (s : SurfaceStore) (role : Option Role) (y : SurfaceId) :
    (s.create role).2.parent? y = if (s.create role).1 = y then none else s.parent? y := by
  simp only [parent?, create, Table.find?_insert]
  by_cases h : (⟨max s.nextId 1⟩ : SurfaceId) = y <;> simp [h]

/-- Setting the parents of other surfaces leaves a surface's own. -/
theorem parent?_setParents_of_untouched (s : SurfaceStore) {cs : List ParentChange}
    {x : SurfaceId} (h : ∀ c ∈ cs, c.surface ≠ x) : (s.setParents cs).parent? x = s.parent? x := by
  induction cs generalizing s with
  | nil => rfl
  | cons c cs ih =>
    rw [setParents, List.foldl_cons, ← setParents, ih _ fun c hc => h c (List.mem_cons_of_mem _ hc),
      parent?_setParent, if_neg fun hx => h c List.mem_cons_self hx.1.symm]

/-- Where parents are only cleared, a surface that comes up has none in the end. -/
theorem parent?_setParents_of_cleared (s : SurfaceStore) {cs : List ParentChange}
    (h : ∀ c ∈ cs, c.parent = none) {x : SurfaceId} (hx : ∃ c ∈ cs, c.surface = x) :
    (s.setParents cs).parent? x = none := by
  have hnone : ∀ (cs : List ParentChange) (s : SurfaceStore), (∀ c ∈ cs, c.parent = none) →
      s.parent? x = none → (s.setParents cs).parent? x = none := by
    intro cs
    induction cs with
    | nil => exact fun s _ hs => hs
    | cons c cs ih =>
      intro s h hs
      refine ih _ (fun c hc => h c (List.mem_cons_of_mem _ hc)) ?_
      rw [parent?_setParent, h c List.mem_cons_self, hs, ite_self]
  induction cs generalizing s with
  | nil =>
    obtain ⟨c, hc, -⟩ := hx
    cases hc
  | cons c cs ih =>
    have hrest : ∀ c ∈ cs, c.parent = none := fun c hc => h c (List.mem_cons_of_mem _ hc)
    by_cases hcx : x = c.surface
    · refine hnone cs _ hrest ?_
      -- a surface that is not there has no parent to clear
      rw [parent?_setParent, h c List.mem_cons_self]
      split
      · rfl
      · next hout =>
        have hcontains : s.surfaces.find? x = none := by
          simpa [hcx, contains, Table.contains] using hout
        rw [parent?, hcontains]
        rfl
    · obtain ⟨c', hc', rfl⟩ := hx
      rcases List.mem_cons.mp hc' with rfl | hc'
      · exact absurd rfl hcx
      · exact ih _ hrest ⟨c', hc', rfl⟩

end SurfaceStore

end SurfaceExchange
