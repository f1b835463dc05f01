import SurfaceExchange.Exchange.Basic

/-!
# Cabinets

A cabinet has a folder for every registry, and in it what was made through the
registry. Nothing in the type says that a folder has entries of its own registry
only: whoever puts an entry away chooses the folder, and whoever looks an entry
up goes to the folder that its identifier names.
-/

namespace SurfaceExchange

/-- A registry and what was made through it. -/
structure Folder (κ α : Type) [KeyOrder κ] extends Registry where
  entries : Table κ α := .empty

/-- The folders of all registries of one kind. -/
abbrev Cabinet (ρ κ α : Type) [KeyOrder ρ] [KeyOrder κ] : Type := Table ρ (Folder κ α)

/-- Identifiers that name a registry and are ordered by it first. -/
class NamesRegistry (κ : Type) (ρ : outParam Type) [KeyOrder κ] [KeyOrder ρ] where
  registry : κ → ρ
  lt_of_registry_lt : ∀ k l, registry k < registry l → k < l

instance : NamesRegistry ExportId ExporterId where
  registry := ExportId.exporter
  lt_of_registry_lt a b h := (ExportId.lt_iff a b).mpr (Or.inl h)

instance : NamesRegistry ImportId ImporterId where
  registry := ImportId.importer
  lt_of_registry_lt a b h := (ImportId.lt_iff a b).mpr (Or.inl h)

namespace Cabinet

open NamesRegistry (registry)

variable {ρ κ α : Type} [KeyOrder ρ] [KeyOrder κ] [DecidableEq ρ] [DecidableEq κ]

/-- Every entry, folder by folder. -/
def all (t : Cabinet ρ κ α) : List (κ × α) := t.values.flatMap (fun g => g.entries.toList)

/-- Changes what is in the folder of a registry. Without the registry nothing is changed. -/
def inFolder (t : Cabinet ρ κ α) (p : ρ) (f : Table κ α → Table κ α) : Cabinet ρ κ α :=
  t.modify p (fun g => { g with entries := f g.entries })

/-- Puts an entry into the folder of a registry. -/
def put (t : Cabinet ρ κ α) (p : ρ) (k : κ) (a : α) : Cabinet ρ κ α :=
  t.inFolder p (·.insert k a)

variable [NamesRegistry κ ρ]

/-- The entry of a key in the folder that the key names. -/
def lookUp? (t : Cabinet ρ κ α) (k : κ) : Option α :=
  (t.find? (registry k)).bind (fun g => g.entries.find? k)

/-- Changes the entry of a key in the folder that the key names. -/
def edit (t : Cabinet ρ κ α) (k : κ) (f : α → α) : Cabinet ρ κ α :=
  t.inFolder (registry k) (·.modify k f)

/-- Takes the entry of a key out of the folder that the key names. -/
def drop (t : Cabinet ρ κ α) (k : κ) : Cabinet ρ κ α := t.inFolder (registry k) (·.erase k)

end Cabinet

end SurfaceExchange
