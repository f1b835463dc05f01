import SurfaceExchange.Exchange.Departure
import SurfaceExchange.Request

/-!
# What clients ask for

Binding a registry, exporting, importing, declaring a child, destroying. An
operation that fails leaves the exchange as it was, except that a search for a
handle has drawn from the stream. To dispatch a request is to check that the
object is the client's own, to carry the request out, and to end the client's
connection if it is to be blamed.
-/

namespace SurfaceExchange.Exchange

variable {L : Type}

/-! ## Registries -/

def bindExporter (x : Exchange) (d : Display L) (c : ClientId) :
    Except RequestError ExporterId × Exchange :=
  if d.isConnected c then
    let (n, x) := x.allocate
    let x := { x with exporters := x.exporters.insert ⟨n⟩ ⟨c, x.config.offeredVersion⟩ }
    (.ok ⟨n⟩, x.track c (.exporter ⟨n⟩))
  else (.error (.notConnected c), x)

def bindImporter (x : Exchange) (d : Display L) (c : ClientId) :
    Except RequestError ImporterId × Exchange :=
  if d.isConnected c then
    let (n, x) := x.allocate
    let x := { x with importers := x.importers.insert ⟨n⟩ ⟨c, x.config.offeredVersion⟩ }
    (.ok ⟨n⟩, x.track c (.importer ⟨n⟩))
  else (.error (.notConnected c), x)

/-- Destroys an exporter. Its exports stay inert until their client destroys them. -/
def destroyExporter (x : Exchange) (id : ExporterId) : Except RequestError Unit × Exchange :=
  if x.exporters.contains id then (.ok (), x.retireExporter id .inert)
  else (.error (.unknownObject (.exporter id)), x)

/-- Destroys an importer. Its imports stay inert until their client destroys them. -/
def destroyImporter (x : Exchange) (id : ImporterId) : Except RequestError Unit × Exchange :=
  if x.importers.contains id then (.ok (), x.retireImporter id .inert)
  else (.error (.unknownObject (.importer id)), x)

/-! ## Exports -/

/-- Only a toplevel can be exported or made a child. -/
def requireToplevel (view : ShellView) (o : ObjectId) (surface : SurfaceId) :
    Except ProtocolError Unit :=
  match view.role surface with
  | some .toplevel => .ok ()
  | some _ => .error (.notToplevel o)
  | none => .error (.notShellSurface o)

/-- A live export has the handle. -/
def isTaken (x : Exchange) (h : Handle) : Bool := (x.resolve h.text).isSome

/-- Files an export whose surface and handle are settled, and sends its client the handle. -/
def addExport (x : Exchange) (exporter : ExporterId) (r : Registry) (surface : SurfaceId)
    (handle : Handle) : ExportId × Exchange :=
  let (n, x) := x.allocate
  let id : ExportId := ⟨exporter, n⟩
  let (unmap, x) := x.subscribe surface .unmap (.exportUnmap id)
  let made : Export := ⟨r.client, r.version, handle, surface, [], unmap⟩
  let x := { x with exports := x.exports.insert id made }
  (id, (x.track r.client (.exported id)).send r.client (.handle id handle))

/-- Exports a surface under a handle that no live export has. `none` is a search for such a
handle that has not ended within `patience` draws. -/
def exportSurface (x : Exchange) (view : ShellView) (patience : Nat) (exporter : ExporterId)
    (surface : SurfaceId) : Option (Except RequestError ExportId × Exchange) :=
  match x.exporters.find? exporter with
  | none => some (.error (.unknownObject (.exporter exporter)), x)
  | some r =>
    match requireToplevel view (.exporter exporter) surface with
    | .error e => some (.error (.protocol e), x)
    | .ok () =>
      if Config.reached x.config.maxExports (x.ownership.counts r.client).exports then
        some (.error (.protocol (.noMemory (.exporter exporter))), x)
      else
        (x.handles.search x.isTaken x.config.maxHandleAttempts patience).map fun
          | (.error _, handles) =>
            (.error (.protocol (.noMemory (.exporter exporter))), { x with handles })
          | (.ok h, handles) =>
            let (id, x) := { x with handles }.addExport exporter r surface h
            (.ok id, x)

/-- Destroys an export. If the server destroyed it before, its identifier is given up. -/
def destroyExport (x : Exchange) (id : ExportId) : Except RequestError Unit × Exchange :=
  if x.exports.contains id then (.ok (), x.retireExport id .nothing)
  else
    match x.inertExports.find? id with
    | some c =>
      (.ok (), { x with inertExports := x.inertExports.erase id }.untrack c (.exported id))
    | none => (.error (.unknownObject (.exported id)), x)

/-! ## Imports -/

/-- Files an import and enters it with the export that it resolves to. One that resolves to
nothing is made nevertheless, and its client is told at once. -/
def addImport (x : Exchange) (importer : ImporterId) (r : Registry) (handle : String) :
    ImportId × Exchange :=
  let (n, x) := x.allocate
  let id : ImportId := ⟨importer, n⟩
  let source := x.resolve handle
  let x := { x with imports := x.imports.insert id ⟨r.client, r.version, source, []⟩ }
  let x := x.track r.client (.imported id)
  match source with
  | some e =>
    (id, { x with exports := x.exports.modify e (fun r =>
      { r with importers := r.importers ++ [id] }) })
  | none => (id, x.send r.client (.destroyed id))

/-- Imports the surface that a handle names. A handle that names none is no error. -/
def importHandle (x : Exchange) (importer : ImporterId) (handle : String) :
    Except RequestError ImportId × Exchange :=
  match x.importers.find? importer with
  | none => (.error (.unknownObject (.importer importer)), x)
  | some r =>
    if Config.reached x.config.maxImports (x.ownership.counts r.client).imports then
      (.error (.protocol (.noMemory (.importer importer))), x)
    else
      let (id, x) := x.addImport importer r handle
      (.ok id, x)

/-- Makes a surface a child. Links that were on it end with the change of its parent, before
the new link is made. -/
def addLink (x : Exchange) (i : ImportId) (parent child : SurfaceId) : Exchange :=
  let x := x.setParent child (some parent)
  let (unmap, x) := x.subscribe child .unmap (.childUnmap i child)
  let (setParent, x) := x.subscribe child .setParent (.childSetParent i child)
  { x with imports := x.imports.modify i (fun r =>
      { r with children := r.children ++ [⟨child, unmap, setParent⟩] }) }

/-- Declares a surface a child of an imported one. On an import that is inert or has no source
nothing is done and nothing is checked. -/
def setParentOf (x : Exchange) (view : ShellView) (i : ImportId) (child : SurfaceId) :
    Except RequestError Unit × Exchange :=
  if x.inertImports.contains i then (.ok (), x)
  else
    match x.imports.find? i with
    | none => (.error (.unknownObject (.imported i)), x)
    | some r =>
      match r.source.bind x.exports.find? with
      | none => (.ok (), x)
      | some e =>
        match requireToplevel view (.imported i) child with
        | .error err => (.error (.protocol err), x)
        | .ok () =>
          if view.inShell e.surface ≠ view.inShell child then
            (.error (.protocol (.roleMismatch (.imported i))), x)
          else if (x.link? i child).isSome then (.ok (), x)
          else (.ok (), x.addLink i e.surface child)

/-- Destroys an import. If the server destroyed it before, its identifier is given up. -/
def destroyImport (x : Exchange) (id : ImportId) : Except RequestError Unit × Exchange :=
  if x.imports.contains id then (.ok (), x.retireImport id .nothing)
  else
    match x.inertImports.find? id with
    | some c =>
      (.ok (), { x with inertImports := x.inertImports.erase id }.untrack c (.imported id))
    | none => (.error (.unknownObject (.imported id)), x)

/-! ## Requests -/

/-- Ends a client's connection over an error: the client is told, all that it held goes, and
the display drops it. -/
def expel (x : Exchange) (d : Display L) (c : ClientId) (e : ProtocolError) :
    Exchange × Display L :=
  ((x.send c (.error e)).clientGone c, (d.disconnect c).2)

/-- The outcome of making an object, where only the object matters. -/
def withObject {α : Type} (object : α → ObjectId) :
    Except RequestError α × Exchange → Except RequestError (Option ObjectId) × Exchange
  | (r, x) => (r.map (fun id => some (object id)), x)

/-- The outcome of an operation that makes no object. -/
def withoutObject :
    Except RequestError Unit × Exchange → Except RequestError (Option ObjectId) × Exchange
  | (r, x) => (r.map (fun _ => none), x)

/-- Carries a request out and answers with the object that it made, if it makes one. -/
def serve (x : Exchange) (view : ShellView) (patience : Nat) :
    Request → Option (Except RequestError (Option ObjectId) × Exchange)
  | .exporter id .destroy => some (withoutObject (x.destroyExporter id))
  | .exporter id (.exportSurface surface) =>
    (x.exportSurface view patience id surface).map (withObject .exported)
  | .exported id .destroy => some (withoutObject (x.destroyExport id))
  | .importer id .destroy => some (withoutObject (x.destroyImporter id))
  | .importer id (.importHandle handle) => some (withObject .imported (x.importHandle id handle))
  | .imported id .destroy => some (withoutObject (x.destroyImport id))
  | .imported id (.setParentOf surface) => some (withoutObject (x.setParentOf view id surface))

/-- Carries out a client's request on an object of its own. A client that addresses any other
object, or whose request raises a protocol error, is expelled. -/
def dispatch (x : Exchange) (view : ShellView) (patience : Nat) (d : Display L) (c : ClientId)
    (r : Request) : Option (Except RequestError (Option ObjectId) × Exchange × Display L) :=
  if ¬ d.isConnected c then some (.error (.notConnected c), x, d)
  else if ¬ x.ownership.owns c r.object then
    let e := ProtocolError.invalidObject r.object
    some (.error (.protocol e), x.expel d c e)
  else
    (x.serve view patience r).map fun
      | (.error (.protocol e), x) => (.error (.protocol e), x.expel d c e)
      | (answer, x) => (answer, x, d)

end SurfaceExchange.Exchange
