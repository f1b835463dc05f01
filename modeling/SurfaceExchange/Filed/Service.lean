import SurfaceExchange.Exchange.Operation
import SurfaceExchange.Filed.Exchange

/-!
# Operations on the exchange with its folders

What clients ask for, where an object that is made is put into the folder of the
registry it is made through, and the function that carries an operation out.
-/

namespace SurfaceExchange.FiledExchange

variable {L : Type}

/-! ## Registries -/

/-- Binds an exporter, with a folder that is empty. -/
def bindExporter (n : FiledExchange) (d : Display L) (c : ClientId) :
    Except RequestError ExporterId × FiledExchange :=
  if d.isConnected c then
    let (k, n) := n.allocate
    let n := { n with
      exporters := n.exporters.insert ⟨k⟩ { client := c, version := n.config.offeredVersion } }
    (.ok ⟨k⟩, n.track c (.exporter ⟨k⟩))
  else (.error (.notConnected c), n)

/-- Binds an importer, with a folder that is empty. -/
def bindImporter (n : FiledExchange) (d : Display L) (c : ClientId) :
    Except RequestError ImporterId × FiledExchange :=
  if d.isConnected c then
    let (k, n) := n.allocate
    let n := { n with
      importers := n.importers.insert ⟨k⟩ { client := c, version := n.config.offeredVersion } }
    (.ok ⟨k⟩, n.track c (.importer ⟨k⟩))
  else (.error (.notConnected c), n)

def destroyExporter (n : FiledExchange) (id : ExporterId) :
    Except RequestError Unit × FiledExchange :=
  if n.exporters.contains id then (.ok (), n.retireExporter id .inert)
  else (.error (.unknownObject (.exporter id)), n)

def destroyImporter (n : FiledExchange) (id : ImporterId) :
    Except RequestError Unit × FiledExchange :=
  if n.importers.contains id then (.ok (), n.retireImporter id .inert)
  else (.error (.unknownObject (.importer id)), n)

/-! ## Exports -/

/-- A live export has the handle. -/
def isTaken (n : FiledExchange) (h : Handle) : Bool := (n.resolve h.text).isSome

/-- Puts an export whose surface and handle are settled into its exporter's folder, and sends
its client the handle. -/
def addExport (n : FiledExchange) (exporter : ExporterId) (r : Registry) (surface : SurfaceId)
    (handle : Handle) : ExportId × FiledExchange :=
  let (k, n) := n.allocate
  let id : ExportId := ⟨exporter, k⟩
  let (unmap, n) := n.subscribe surface .unmap (.exportUnmap id)
  let made : Export := ⟨r.client, r.version, handle, surface, [], unmap⟩
  let n := { n with exporters := n.exporters.put exporter id made }
  (id, (n.track r.client (.exported id)).send r.client (.handle id handle))

/-- Exports a surface under a handle that no live export has. -/
def exportSurface (n : FiledExchange) (view : ShellView) (patience : Nat)
    (exporter : ExporterId) (surface : SurfaceId) :
    Option (Except RequestError ExportId × FiledExchange) :=
  match n.exporters.find? exporter with
  | none => some (.error (.unknownObject (.exporter exporter)), n)
  | some g =>
    match Exchange.requireToplevel view (.exporter exporter) surface with
    | .error e => some (.error (.protocol e), n)
    | .ok () =>
      if Config.reached n.config.maxExports (n.ownership.counts g.client).exports then
        some (.error (.protocol (.noMemory (.exporter exporter))), n)
      else
        (n.handles.search n.isTaken n.config.maxHandleAttempts patience).map fun
          | (.error _, handles) =>
            (.error (.protocol (.noMemory (.exporter exporter))), { n with handles })
          | (.ok h, handles) =>
            let (id, n) := { n with handles }.addExport exporter g.toRegistry surface h
            (.ok id, n)

/-- Destroys an export. If the server destroyed it before, its identifier is given up. -/
def destroyExport (n : FiledExchange) (id : ExportId) : Except RequestError Unit × FiledExchange :=
  if (n.exported? id).isSome then (.ok (), n.retireExport id .nothing)
  else
    match n.inertExports.find? id with
    | some c =>
      (.ok (), { n with inertExports := n.inertExports.erase id }.untrack c (.exported id))
    | none => (.error (.unknownObject (.exported id)), n)

/-! ## Imports -/

/-- Puts an import into its importer's folder and enters it with the export that it resolves
to. One that resolves to nothing is made nevertheless, and its client is told at once. -/
def addImport (n : FiledExchange) (importer : ImporterId) (r : Registry) (handle : String) :
    ImportId × FiledExchange :=
  let (k, n) := n.allocate
  let id : ImportId := ⟨importer, k⟩
  let source := n.resolve handle
  let n := { n with
    importers := n.importers.put importer id ⟨r.client, r.version, source, []⟩ }
  let n := n.track r.client (.imported id)
  match source with
  | some e =>
    (id, { n with exporters := n.exporters.edit e (fun r =>
      { r with importers := r.importers ++ [id] }) })
  | none => (id, n.send r.client (.destroyed id))

/-- Imports the surface that a handle names. A handle that names none is no error. -/
def importHandle (n : FiledExchange) (importer : ImporterId) (handle : String) :
    Except RequestError ImportId × FiledExchange :=
  match n.importers.find? importer with
  | none => (.error (.unknownObject (.importer importer)), n)
  | some g =>
    if Config.reached n.config.maxImports (n.ownership.counts g.client).imports then
      (.error (.protocol (.noMemory (.importer importer))), n)
    else
      let (id, n) := n.addImport importer g.toRegistry handle
      (.ok id, n)

/-- Makes a surface a child. Links that were on it end with the change of its parent. -/
def addLink (n : FiledExchange) (i : ImportId) (parent child : SurfaceId) : FiledExchange :=
  let n := n.setParent child (some parent)
  let (unmap, n) := n.subscribe child .unmap (.childUnmap i child)
  let (setParent, n) := n.subscribe child .setParent (.childSetParent i child)
  { n with importers := n.importers.edit i (fun r =>
      { r with children := r.children ++ [⟨child, unmap, setParent⟩] }) }

/-- Declares a surface a child of an imported one. -/
def setParentOf (n : FiledExchange) (view : ShellView) (i : ImportId) (child : SurfaceId) :
    Except RequestError Unit × FiledExchange :=
  if n.inertImports.contains i then (.ok (), n)
  else
    match n.imported? i with
    | none => (.error (.unknownObject (.imported i)), n)
    | some r =>
      match r.source.bind n.exported? with
      | none => (.ok (), n)
      | some e =>
        match Exchange.requireToplevel view (.imported i) child with
        | .error err => (.error (.protocol err), n)
        | .ok () =>
          if view.inShell e.surface ≠ view.inShell child then
            (.error (.protocol (.roleMismatch (.imported i))), n)
          else if (n.link? i child).isSome then (.ok (), n)
          else (.ok (), n.addLink i e.surface child)

/-- Destroys an import. If the server destroyed it before, its identifier is given up. -/
def destroyImport (n : FiledExchange) (id : ImportId) : Except RequestError Unit × FiledExchange :=
  if (n.imported? id).isSome then (.ok (), n.retireImport id .nothing)
  else
    match n.inertImports.find? id with
    | some c =>
      (.ok (), { n with inertImports := n.inertImports.erase id }.untrack c (.imported id))
    | none => (.error (.unknownObject (.imported id)), n)

/-! ## Requests and operations -/

/-- Ends a client's connection over an error. -/
def expel (n : FiledExchange) (d : Display L) (c : ClientId) (e : ProtocolError) :
    FiledExchange × Display L :=
  ((n.send c (.error e)).clientGone c, (d.disconnect c).2)

/-- The outcome of making an object, where only the object matters. -/
def withObject {α : Type} (object : α → ObjectId) :
    Except RequestError α × FiledExchange →
      Except RequestError (Option ObjectId) × FiledExchange
  | (r, n) => (r.map (fun id => some (object id)), n)

/-- The outcome of an operation that makes no object. -/
def withoutObject :
    Except RequestError Unit × FiledExchange →
      Except RequestError (Option ObjectId) × FiledExchange
  | (r, n) => (r.map (fun _ => none), n)

/-- Carries a request out and answers with the object that it made, if it makes one. -/
def serve (n : FiledExchange) (view : ShellView) (patience : Nat) :
    Request → Option (Except RequestError (Option ObjectId) × FiledExchange)
  | .exporter id .destroy => some (withoutObject (n.destroyExporter id))
  | .exporter id (.exportSurface surface) =>
    (n.exportSurface view patience id surface).map (withObject .exported)
  | .exported id .destroy => some (withoutObject (n.destroyExport id))
  | .importer id .destroy => some (withoutObject (n.destroyImporter id))
  | .importer id (.importHandle handle) => some (withObject .imported (n.importHandle id handle))
  | .imported id .destroy => some (withoutObject (n.destroyImport id))
  | .imported id (.setParentOf surface) => some (withoutObject (n.setParentOf view id surface))

/-- Carries out a client's request on an object of its own. -/
def dispatch (n : FiledExchange) (view : ShellView) (patience : Nat) (d : Display L)
    (c : ClientId) (r : Request) :
    Option (Except RequestError (Option ObjectId) × FiledExchange × Display L) :=
  if ¬ d.isConnected c then some (.error (.notConnected c), n, d)
  else if ¬ n.ownership.owns c r.object then
    let e := ProtocolError.invalidObject r.object
    some (.error (.protocol e), n.expel d c e)
  else
    (n.serve view patience r).map fun
      | (.error (.protocol e), n) => (.error (.protocol e), n.expel d c e)
      | (answer, n) => (answer, n, d)

/-- Carries an operation out. -/
def perform (n : FiledExchange) (view : ShellView) (patience : Nat) (d : Display L) :
    Operation → Option (Answer × FiledExchange × Display L)
  | .bindExporter c => answered (withObject .exporter (n.bindExporter d c))
  | .bindImporter c => answered (withObject .importer (n.bindImporter d c))
  | .exportSurface e s => (n.exportSurface view patience e s).bind (answered ∘ withObject .exported)
  | .importHandle i h => answered (withObject .imported (n.importHandle i h))
  | .setParentOf i s => answered (withoutObject (n.setParentOf view i s))
  | .destroyExport e => answered (withoutObject (n.destroyExport e))
  | .destroyImport i => answered (withoutObject (n.destroyImport i))
  | .destroyExporter e => answered (withoutObject (n.destroyExporter e))
  | .destroyImporter i => answered (withoutObject (n.destroyImporter i))
  | .unmapped s => some (.silent, n.unmapped s, d)
  | .parentChanged s => some (.silent, n.parentChanged s, d)
  | .clientGone c => some (.silent, n.clientGone c, d)
  | .expel c e => some (.silent, n.expel d c e)
  | .dispatch c r => (n.dispatch view patience d c r).map fun (r, n, d) => (.outcome r, n, d)
  | .takeEvents => some (.events n.takeEvents.1, n.takeEvents.2, d)
where
  answered : Except RequestError (Option ObjectId) × FiledExchange →
      Option (Answer × FiledExchange × Display L)
    | (r, n) => some (.outcome r, n, d)

end SurfaceExchange.FiledExchange
