import SurfaceExchange.Exchange.Child

/-!
# Exports, imports and registries that go

An export that goes breaks its imports off: they stay, but without a source
and without children, and their clients are told. An import that goes drops
its children and leaves its export's list, and nobody is told.

A registry takes all its objects off the exchange first and finishes them one
after the other then, in ascending order, so that no object of it is found
from another on the way.
-/

namespace SurfaceExchange.Exchange

/-! ## Exports -/

/-- Takes an import off an export's list. -/
def forgetImporter (x : Exchange) (e : ExportId) (i : ImportId) : Exchange :=
  { x with exports := x.exports.modify e (fun r =>
      { r with importers := r.importers.filter (fun j => decide (j ≠ i)) }) }

/-- Breaks an import off its export for good, and tells the import's client. -/
def breakOff (x : Exchange) (i : ImportId) : Exchange :=
  match x.imports.find? i with
  | none => x
  | some r =>
    match r.source with
    | none => x
    | some e =>
      let x := { x with imports := x.imports.modify i (fun r =>
        { r with source := none, children := [] }) }
      ((x.forgetImporter e i).dropLinks r.children).send r.client (.destroyed i)

/-- Leaves of an export what is to be left. -/
def leaveExport (x : Exchange) (e : ExportId) (c : ClientId) : Remnant → Exchange
  | .nothing => x.untrack c (.exported e)
  | .inert => { x with inertExports := x.inertExports.insert e c }

/-- All that follows when an export has been taken off the exchange. -/
def unravelExport (x : Exchange) (e : ExportId) (r : Export) (left : Remnant) : Exchange :=
  ((r.importers.foldl breakOff x).cancel r.unmap).leaveExport e r.client left

/-- Destroys a live export. -/
def retireExport (x : Exchange) (e : ExportId) (left : Remnant) : Exchange :=
  match x.exports.find? e with
  | none => x
  | some r => { x with exports := x.exports.erase e }.unravelExport e r left

/-- Destroys an exporter and every export made through it. -/
def retireExporter (x : Exchange) (id : ExporterId) (left : Remnant) : Exchange :=
  match x.exporters.find? id with
  | none => x
  | some r =>
    let own := x.exports.filter (fun e _ => decide (e.exporter = id))
    let x := { x with
      exporters := x.exporters.erase id
      exports := x.exports.filter (fun e _ => decide (e.exporter ≠ id)) }
    (own.toList.foldl (fun x e => x.unravelExport e.1 e.2 left) x).untrack r.client (.exporter id)

/-! ## Imports -/

/-- Leaves of an import what is to be left. -/
def leaveImport (x : Exchange) (i : ImportId) (c : ClientId) : Remnant → Exchange
  | .nothing => x.untrack c (.imported i)
  | .inert => { x with inertImports := x.inertImports.insert i c }

/-- All that follows when an import has been taken off the exchange. -/
def unravelImport (x : Exchange) (i : ImportId) (r : Import) (left : Remnant) : Exchange :=
  let x := x.dropLinks r.children
  let x := match r.source with
    | none => x
    | some e => x.forgetImporter e i
  x.leaveImport i r.client left

/-- Destroys a live import. -/
def retireImport (x : Exchange) (i : ImportId) (left : Remnant) : Exchange :=
  match x.imports.find? i with
  | none => x
  | some r => { x with imports := x.imports.erase i }.unravelImport i r left

/-- Destroys an importer and every import made through it. -/
def retireImporter (x : Exchange) (id : ImporterId) (left : Remnant) : Exchange :=
  match x.importers.find? id with
  | none => x
  | some r =>
    let own := x.imports.filter (fun i _ => decide (i.importer = id))
    let x := { x with
      importers := x.importers.erase id
      imports := x.imports.filter (fun i _ => decide (i.importer ≠ id)) }
    (own.toList.foldl (fun x e => x.unravelImport e.1 e.2 left) x).untrack r.client (.importer id)

/-! ## Surfaces, clients and the exchange itself -/

/-- What a watcher does when a surface unmaps. -/
def onUnmap (x : Exchange) : Watcher → Exchange
  | .exportUnmap e => x.retireExport e .inert
  | .childUnmap i child =>
    if (x.link? i child).isSome then (x.cutLink i child).tell child none else x
  | .childSetParent _ _ => x

/-- A surface was unmapped or destroyed. Its exports end and links on it are taken away. -/
def unmapped (x : Exchange) (surface : SurfaceId) : Exchange := x.deliver surface .unmap onUnmap

def retireRegistry (x : Exchange) (left : Remnant) : RegistryId → Exchange
  | .importer id => x.retireImporter id left
  | .exporter id => x.retireExporter id left

/-- A client is gone, and with it all that it held. -/
def clientGone (x : Exchange) (c : ClientId) : Exchange :=
  let (registries, ownership) := x.ownership.release c
  let x := registries.foldl (retireRegistry · .nothing) { x with ownership }
  { x with
    inertExports := x.inertExports.filter (fun _ owner => decide (owner ≠ c))
    inertImports := x.inertImports.filter (fun _ owner => decide (owner ≠ c)) }

/-- Destroys every importer and then every exporter, and tells which listeners are due, in
the order in which they were added. With the importers gone first, no client is told of an
export that goes. -/
def teardown (x : Exchange) : List String × Exchange :=
  let x := x.importers.keys.foldl (retireImporter · · .nothing) x
  let x := x.exporters.keys.foldl (retireExporter · · .nothing) x
  let (due, farewells) := x.farewells.drain
  (due.map Prod.snd, { x with farewells })

/-- Withdraws both globals and the listener from the display, and tears the exchange down. -/
def destroy {L : Type} (x : Exchange) (d : Display L) : List String × Exchange × Display L :=
  let (_, d) := d.withdraw x.exporterGlobal
  let (_, d) := d.withdraw x.importerGlobal
  let (_, d) := d.removeListener x.displayListener
  let (due, x) := x.teardown
  (due, x, d)

/-- Adds a listener to the end of the exchange. -/
def addFarewell (x : Exchange) (name : String) : ListenerId × Exchange :=
  ((x.farewells.add name).1, { x with farewells := (x.farewells.add name).2 })

/-- Removes a listener to the end of the exchange and tells whether it was there. -/
def removeFarewell (x : Exchange) (id : ListenerId) : Bool × Exchange :=
  (x.farewells.contains id, { x with farewells := (x.farewells.remove id).2 })

end SurfaceExchange.Exchange
