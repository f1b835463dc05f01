import SurfaceExchange.Proofs.Run

/-!
# Whose object an object is

The tracker and the tables of objects agree on it: what a client owns is what
`Belongs` to it, live or inert (`Registered.owns_iff_belongs`), and a live
export or import has the client of the registry that it was made through.
-/

namespace SurfaceExchange

namespace Exchange

variable {x : Exchange}

/-- The object is the client's: a registry that it bound, or an export or import of its own,
live or inert. -/
inductive Belongs (x : Exchange) (c : ClientId) : ObjectId → Prop
  | exporter {p g} : x.exporters.find? p = some g → g.client = c → Belongs x c (.exporter p)
  | importer {m g} : x.importers.find? m = some g → g.client = c → Belongs x c (.importer m)
  | liveExport {e s} : x.exports.find? e = some s → s.client = c → Belongs x c (.exported e)
  | liveImport {i r} : x.imports.find? i = some r → r.client = c → Belongs x c (.imported i)
  | inertExport {e} : x.inertExports.find? e = some c → Belongs x c (.exported e)
  | inertImport {i} : x.inertImports.find? i = some c → Belongs x c (.imported i)

theorem belongs_iff (c : ClientId) (o : ObjectId) :
    x.Belongs c o ↔ x.clientOf? o = some c ∨ x.inertClient? o = some c := by
  constructor
  · intro ho
    cases ho with
    | exporter hg hc => exact Or.inl (Option.map_eq_some_iff.mpr ⟨_, hg, hc⟩)
    | importer hg hc => exact Or.inl (Option.map_eq_some_iff.mpr ⟨_, hg, hc⟩)
    | liveExport he hc => exact Or.inl (Option.map_eq_some_iff.mpr ⟨_, he, hc⟩)
    | liveImport hi hc => exact Or.inl (Option.map_eq_some_iff.mpr ⟨_, hi, hc⟩)
    | inertExport he => exact Or.inr he
    | inertImport hi => exact Or.inr hi
  · rintro (ho | ho)
    · cases o <;> obtain ⟨a, ha, hc⟩ := Option.map_eq_some_iff.mp ho
      · exact .exporter ha hc
      · exact .liveExport ha hc
      · exact .importer ha hc
      · exact .liveImport ha hc
    · cases o with
      | exporter p => cases ho
      | exported e => exact .inertExport ho
      | importer m => cases ho
      | imported i => exact .inertImport ho

namespace Registered

variable (h : x.Registered)

include h

theorem owns_iff_belongs (c : ClientId) (o : ObjectId) :
    x.ownership.owns c o = true ↔ x.Belongs c o := by
  rw [belongs_iff]
  exact h.owns_iff c o

/-- The exporter of a live export is live and has the same client. -/
theorem exporter_of_export {e : ExportId} {s : Export} (he : x.exports.find? e = some s) :
    ∃ g, x.exporters.find? e.exporter = some g ∧ g.client = s.client :=
  Option.map_eq_some_iff.mp ((h.client_export_iff he s.client).mp rfl)

/-- The importer of a live import is live and has the same client. -/
theorem importer_of_import {i : ImportId} {r : Import} (hi : x.imports.find? i = some r) :
    ∃ g, x.importers.find? i.importer = some g ∧ g.client = r.client :=
  Option.map_eq_some_iff.mp ((h.client_import_iff hi r.client).mp rfl)

end Registered

end Exchange

end SurfaceExchange
