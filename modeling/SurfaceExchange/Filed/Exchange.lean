import SurfaceExchange.Exchange.Departure
import SurfaceExchange.Filed.Cabinet

/-!
# The exchange with its folders

The same exchange with every export in the folder of its exporter, and its
imports in the folders of their importers. Here are the cascades: links that
end, exports, imports and registries that go. An object is found through the
registry that its identifier names, and a walk over all objects goes registry
by registry.
-/

namespace SurfaceExchange

structure FiledExchange where
  config : Config
  handles : HandleStream
  exporterGlobal : GlobalId
  importerGlobal : GlobalId
  displayListener : ListenerId
  exporters : Cabinet ExporterId ExportId Export := .empty
  importers : Cabinet ImporterId ImportId Import := .empty
  inertExports : Table ExportId ClientId := .empty
  inertImports : Table ImportId ClientId := .empty
  subscriptions : Subscriptions := .empty
  ownership : Ownership := .empty
  events : List Delivery := []
  parentChanges : List ParentChange := []
  farewells : Signal String := .empty
  nextId : Nat := 1

namespace FiledExchange

variable {L : Type}

/-- Advertises both globals on a display, and has a listener run when the display shuts
down. -/
def start (d : Display L) (config : Config) (handles : HandleStream) (listener : L) :
    FiledExchange × Display L :=
  let (exporterGlobal, d) := d.advertise exporterInterface config.offeredVersion
  let (importerGlobal, d) := d.advertise importerInterface config.offeredVersion
  let (displayListener, d) := d.addListener listener
  ({ config, handles, exporterGlobal, importerGlobal, displayListener }, d)

/-! ## Live objects -/

/-- Every live export, exporter by exporter. -/
def exports (n : FiledExchange) : List (ExportId × Export) := n.exporters.all

/-- Every live import, importer by importer. -/
def imports (n : FiledExchange) : List (ImportId × Import) := n.importers.all

/-- The live export that an identifier names. -/
def exported? (n : FiledExchange) (e : ExportId) : Option Export := n.exporters.lookUp? e

/-- The live import that an identifier names. -/
def imported? (n : FiledExchange) (i : ImportId) : Option Import := n.importers.lookUp? i

/-- The live export that has a handle, sought exporter by exporter. -/
def resolve (n : FiledExchange) (handle : String) : Option ExportId :=
  n.exporters.values.findSome? (fun g =>
    (g.entries.toList.find? (fun e => decide (e.2.handle.text = handle))).map Prod.fst)

/-! ## Queues, numbers and records -/

def send (n : FiledExchange) (c : ClientId) (e : Event) : FiledExchange :=
  { n with events := n.events ++ [⟨c, e⟩] }

def tell (n : FiledExchange) (surface : SurfaceId) (parent : Option SurfaceId) : FiledExchange :=
  { n with parentChanges := n.parentChanges ++ [⟨surface, parent⟩] }

def takeEvents (n : FiledExchange) : List Delivery × FiledExchange :=
  (n.events, { n with events := [] })

def takeParentChanges (n : FiledExchange) : List ParentChange × FiledExchange :=
  (n.parentChanges, { n with parentChanges := [] })

def allocate (n : FiledExchange) : Nat × FiledExchange :=
  (n.nextId, { n with nextId := n.nextId + 1 })

def track (n : FiledExchange) (c : ClientId) (o : ObjectId) : FiledExchange :=
  { n with ownership := n.ownership.track c o }

def untrack (n : FiledExchange) (c : ClientId) (o : ObjectId) : FiledExchange :=
  { n with ownership := n.ownership.untrack c o }

def subscribe (n : FiledExchange) (surface : SurfaceId) (event : SurfaceEvent) (w : Watcher) :
    Subscription × FiledExchange :=
  let (t, s) := n.subscriptions.subscribe surface event w
  (t, { n with subscriptions := s })

def cancel (n : FiledExchange) (t : Subscription) : FiledExchange :=
  { n with subscriptions := (n.subscriptions.cancel t).2 }

def addFarewell (n : FiledExchange) (name : String) : ListenerId × FiledExchange :=
  ((n.farewells.add name).1, { n with farewells := (n.farewells.add name).2 })

def removeFarewell (n : FiledExchange) (id : ListenerId) : Bool × FiledExchange :=
  (n.farewells.contains id, { n with farewells := (n.farewells.remove id).2 })

/-! ## Links to children -/

/-- The link that an import has on a surface. -/
def link? (n : FiledExchange) (i : ImportId) (child : SurfaceId) : Option ChildLink :=
  (n.imported? i).bind (fun r => r.children.find? (fun l => decide (l.surface = child)))

/-- Ends both subscriptions of a link. -/
def release (n : FiledExchange) (l : ChildLink) : FiledExchange :=
  (n.cancel l.unmap).cancel l.setParent

/-- Takes a link away and leaves the child's parent alone. -/
def cutLink (n : FiledExchange) (i : ImportId) (child : SurfaceId) : FiledExchange :=
  match n.link? i child with
  | none => n
  | some l =>
    { n with importers := n.importers.edit i (fun r =>
        { r with children := r.children.eraseP (fun l => decide (l.surface = child)) }) }.release l

/-- Delivers an event to those who listened to it when delivery started and still do. -/
def deliver (n : FiledExchange) (surface : SurfaceId) (event : SurfaceEvent)
    (act : FiledExchange → Watcher → FiledExchange) : FiledExchange :=
  (n.subscriptions.snapshot surface event).foldl
    (fun n e => if n.subscriptions.isLive e.1 then act n e.2 else n) n

/-- What a watcher does when a surface gets another parent. -/
def onSetParent (n : FiledExchange) : Watcher → FiledExchange
  | .childSetParent i child => n.cutLink i child
  | _ => n

/-- A surface got another parent. Links on it end. -/
def parentChanged (n : FiledExchange) (surface : SurfaceId) : FiledExchange :=
  n.deliver surface .setParent onSetParent

/-- Has the shell set a parent, and lets every link on the surface know. -/
def setParent (n : FiledExchange) (surface : SurfaceId) (parent : Option SurfaceId) :
    FiledExchange := (n.tell surface parent).parentChanged surface

/-- Ends a link that was taken off its import before, and clears the child's parent. -/
def dropLink (n : FiledExchange) (l : ChildLink) : FiledExchange :=
  (n.release l).setParent l.surface none

def dropLinks (n : FiledExchange) (ls : List ChildLink) : FiledExchange := ls.foldl dropLink n

/-! ## Exports -/

/-- Takes an import off an export's list. -/
def forgetImporter (n : FiledExchange) (e : ExportId) (i : ImportId) : FiledExchange :=
  { n with exporters := n.exporters.edit e (fun r =>
      { r with importers := r.importers.filter (fun j => decide (j ≠ i)) }) }

/-- Breaks an import off its export for good, and tells the import's client. -/
def breakOff (n : FiledExchange) (i : ImportId) : FiledExchange :=
  match n.imported? i with
  | none => n
  | some r =>
    match r.source with
    | none => n
    | some e =>
      let n := { n with importers := n.importers.edit i (fun r =>
        { r with source := none, children := [] }) }
      ((n.forgetImporter e i).dropLinks r.children).send r.client (.destroyed i)

/-- Leaves of an export what is to be left. -/
def leaveExport (n : FiledExchange) (e : ExportId) (c : ClientId) : Remnant → FiledExchange
  | .nothing => n.untrack c (.exported e)
  | .inert => { n with inertExports := n.inertExports.insert e c }

/-- All that follows when an export has been taken out of its folder. -/
def unravelExport (n : FiledExchange) (e : ExportId) (r : Export) (left : Remnant) :
    FiledExchange :=
  ((r.importers.foldl breakOff n).cancel r.unmap).leaveExport e r.client left

/-- Destroys a live export. -/
def retireExport (n : FiledExchange) (e : ExportId) (left : Remnant) : FiledExchange :=
  match n.exported? e with
  | none => n
  | some r => { n with exporters := n.exporters.drop e }.unravelExport e r left

/-- Destroys an exporter, with its folder, and every export in the folder. -/
def retireExporter (n : FiledExchange) (id : ExporterId) (left : Remnant) : FiledExchange :=
  match n.exporters.find? id with
  | none => n
  | some g =>
    (g.entries.toList.foldl (fun (n : FiledExchange) e => n.unravelExport e.1 e.2 left)
      { n with exporters := n.exporters.erase id }).untrack g.client (.exporter id)

/-! ## Imports -/

/-- Leaves of an import what is to be left. -/
def leaveImport (n : FiledExchange) (i : ImportId) (c : ClientId) : Remnant → FiledExchange
  | .nothing => n.untrack c (.imported i)
  | .inert => { n with inertImports := n.inertImports.insert i c }

/-- All that follows when an import has been taken out of its folder. -/
def unravelImport (n : FiledExchange) (i : ImportId) (r : Import) (left : Remnant) :
    FiledExchange :=
  let n := n.dropLinks r.children
  let n := match r.source with
    | none => n
    | some e => n.forgetImporter e i
  n.leaveImport i r.client left

/-- Destroys a live import. -/
def retireImport (n : FiledExchange) (i : ImportId) (left : Remnant) : FiledExchange :=
  match n.imported? i with
  | none => n
  | some r => { n with importers := n.importers.drop i }.unravelImport i r left

/-- Destroys an importer, with its folder, and every import in the folder. -/
def retireImporter (n : FiledExchange) (id : ImporterId) (left : Remnant) : FiledExchange :=
  match n.importers.find? id with
  | none => n
  | some g =>
    (g.entries.toList.foldl (fun (n : FiledExchange) e => n.unravelImport e.1 e.2 left)
      { n with importers := n.importers.erase id }).untrack g.client (.importer id)

/-! ## Surfaces and clients -/

/-- What a watcher does when a surface unmaps. -/
def onUnmap (n : FiledExchange) : Watcher → FiledExchange
  | .exportUnmap e => n.retireExport e .inert
  | .childUnmap i child =>
    if (n.link? i child).isSome then (n.cutLink i child).tell child none else n
  | .childSetParent _ _ => n

/-- A surface was unmapped or destroyed. Its exports end and links on it are taken away. -/
def unmapped (n : FiledExchange) (surface : SurfaceId) : FiledExchange :=
  n.deliver surface .unmap onUnmap

def retireRegistry (n : FiledExchange) (left : Remnant) : RegistryId → FiledExchange
  | .importer id => n.retireImporter id left
  | .exporter id => n.retireExporter id left

/-- A client is gone, and with it all that it held. -/
def clientGone (n : FiledExchange) (c : ClientId) : FiledExchange :=
  let (registries, ownership) := n.ownership.release c
  let n := registries.foldl (retireRegistry · .nothing) { n with ownership }
  { n with
    inertExports := n.inertExports.filter (fun _ owner => decide (owner ≠ c))
    inertImports := n.inertImports.filter (fun _ owner => decide (owner ≠ c)) }

end FiledExchange

end SurfaceExchange
