import SurfaceExchange.Identifier
import SurfaceExchange.Table.Lemmas

/-!
# Ownership

Which protocol objects each client holds. A client's entry is made with its
first object and goes only when the client leaves, and the numbers of objects
in it are what the limits are held against.
-/

namespace SurfaceExchange

/-- What one client holds, kind by kind. -/
structure Holdings where
  exporters : KeySet ExporterId := .empty
  exports : KeySet ExportId := .empty
  importers : KeySet ImporterId := .empty
  imports : KeySet ImportId := .empty
  deriving DecidableEq

/-- How many objects of each kind a client holds. -/
structure Counts where
  exporters : Nat
  exports : Nat
  importers : Nat
  imports : Nat
  deriving DecidableEq, Repr

/-- A registry that goes with its client. -/
inductive RegistryId where
  | importer (id : ImporterId)
  | exporter (id : ExporterId)
  deriving DecidableEq, Repr

namespace Holdings

def add (h : Holdings) : ObjectId → Holdings
  | .exporter id => { h with exporters := h.exporters.add id }
  | .exported id => { h with exports := h.exports.add id }
  | .importer id => { h with importers := h.importers.add id }
  | .imported id => { h with imports := h.imports.add id }

def remove (h : Holdings) : ObjectId → Holdings
  | .exporter id => { h with exporters := h.exporters.erase id }
  | .exported id => { h with exports := h.exports.erase id }
  | .importer id => { h with importers := h.importers.erase id }
  | .imported id => { h with imports := h.imports.erase id }

def has (h : Holdings) : ObjectId → Bool
  | .exporter id => h.exporters.contains id
  | .exported id => h.exports.contains id
  | .importer id => h.importers.contains id
  | .imported id => h.imports.contains id

def counts (h : Holdings) : Counts :=
  ⟨h.exporters.size, h.exports.size, h.importers.size, h.imports.size⟩

/-- Importers come before exporters, so that no import is left resolved to an export that is
about to go. -/
def registries (h : Holdings) : List RegistryId :=
  h.importers.keys.map .importer ++ h.exporters.keys.map .exporter

theorem has_add (h : Holdings) (o o' : ObjectId) :
    (h.add o).has o' = (decide (o = o') || h.has o') := by
  cases o <;> cases o' <;> simp [add, has, KeySet.add, Table.contains, Table.find?_insert] <;>
    split <;> simp_all

theorem has_remove (h : Holdings) (o o' : ObjectId) :
    (h.remove o).has o' = (decide (o' ≠ o) && h.has o') := by
  cases o <;> cases o' <;> simp [remove, has, Table.contains, Table.find?_erase] <;>
    split <;> simp_all

theorem has_default (o : ObjectId) : ({} : Holdings).has o = false := by
  cases o <;> rfl

/-- What a client holds is determined by which objects it holds. -/
theorem ext_has {h h' : Holdings} (heq : ∀ o, h.has o = h'.has o) : h = h' := by
  have hset : ∀ {κ : Type} [KeyOrder κ] [DecidableEq κ] {s t : KeySet κ},
      (∀ k, s.contains k = t.contains k) → s = t := fun hst =>
    Table.ext_keys fun k => by
      rw [← Table.contains_iff_mem_keys, ← Table.contains_iff_mem_keys, hst k]
  have hexporters : h.exporters = h'.exporters := hset fun id => heq (.exporter id)
  have hexports : h.exports = h'.exports := hset fun id => heq (.exported id)
  have himporters : h.importers = h'.importers := hset fun id => heq (.importer id)
  have himports : h.imports = h'.imports := hset fun id => heq (.imported id)
  cases h
  cases h'
  simp_all

end Holdings

/-- Every client's holdings. -/
structure Ownership where
  clients : Table ClientId Holdings := .empty
  deriving DecidableEq

namespace Ownership

def empty : Ownership := {}

instance : Inhabited Ownership := ⟨empty⟩

/-- What a client holds; a client that is not known holds nothing. -/
def holdings (w : Ownership) (c : ClientId) : Holdings := (w.clients.find? c).getD {}

/-- Records that a client has got an object. -/
def track (w : Ownership) (c : ClientId) (o : ObjectId) : Ownership :=
  ⟨w.clients.insert c ((w.holdings c).add o)⟩

/-- Records that a client has given an object up. -/
def untrack (w : Ownership) (c : ClientId) (o : ObjectId) : Ownership :=
  ⟨w.clients.modify c (·.remove o)⟩

def owns (w : Ownership) (c : ClientId) (o : ObjectId) : Bool := (w.holdings c).has o

def counts (w : Ownership) (c : ClientId) : Counts := (w.holdings c).counts

/-- Forgets a client and tells which registries it leaves behind. -/
def release (w : Ownership) (c : ClientId) : List RegistryId × Ownership :=
  ((w.holdings c).registries, ⟨w.clients.erase c⟩)

/-! ## Operations through who owns what -/

@[simp] theorem owns_empty (c : ClientId) (o : ObjectId) : empty.owns c o = false := by
  simp [owns, holdings, empty, Holdings.has_default]

theorem owns_track (w : Ownership) (c c' : ClientId) (o o' : ObjectId) :
    (w.track c o).owns c' o' = (decide (c = c' ∧ o = o') || w.owns c' o') := by
  by_cases h : c = c'
  · subst h
    simp [owns, holdings, track, Holdings.has_add]
  · simp [owns, holdings, track, Table.find?_insert, h]

theorem owns_untrack (w : Ownership) (c c' : ClientId) (o o' : ObjectId) :
    (w.untrack c o).owns c' o' = (decide (¬ (c' = c ∧ o' = o)) && w.owns c' o') := by
  by_cases h : c' = c
  · subst h
    simp only [owns, holdings, untrack, Table.find?_modify]
    cases w.clients.find? c' <;> simp [Holdings.has_remove, Holdings.has_default]
  · simp [owns, holdings, untrack, Table.find?_modify, h]

theorem owns_release (w : Ownership) (c c' : ClientId) (o : ObjectId) :
    (w.release c).2.owns c' o = (decide (c' ≠ c) && w.owns c' o) := by
  by_cases h : c' = c
  · simp [owns, holdings, release, h, Holdings.has_default]
  · simp [owns, holdings, release, Table.find?_erase, h]

end Ownership

end SurfaceExchange
