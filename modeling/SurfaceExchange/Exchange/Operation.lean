import SurfaceExchange.Exchange.Service

/-!
# Operations

Everything that can be asked of a running exchange, as one type, and one
function that carries it out. A run is a list of operations; between two of
them the shell, the display and the queues may change in any way.
-/

namespace SurfaceExchange

inductive Operation where
  | bindExporter (client : ClientId)
  | bindImporter (client : ClientId)
  | exportSurface (exporter : ExporterId) (surface : SurfaceId)
  | importHandle (importer : ImporterId) (handle : String)
  | setParentOf (imported : ImportId) (child : SurfaceId)
  | destroyExport (exported : ExportId)
  | destroyImport (imported : ImportId)
  | destroyExporter (exporter : ExporterId)
  | destroyImporter (importer : ImporterId)
  | unmapped (surface : SurfaceId)
  | parentChanged (surface : SurfaceId)
  | clientGone (client : ClientId)
  | expel (client : ClientId) (error : ProtocolError)
  | dispatch (client : ClientId) (request : Request)
  | takeEvents
  deriving DecidableEq, Repr

/-- What an operation answers: how it went and the object that it made, nothing at all, or the
events taken. -/
inductive Answer where
  | outcome (result : Except RequestError (Option ObjectId))
  | silent
  | events (taken : List Delivery)

namespace Exchange

variable {L : Type}

/-- Carries an operation out. `none` is an operation still waiting for a handle after `patience`
draws from a stream, which only exporting can be. -/
def perform (x : Exchange) (view : ShellView) (patience : Nat) (d : Display L) :
    Operation → Option (Answer × Exchange × Display L)
  | .bindExporter c => answered (withObject .exporter (x.bindExporter d c))
  | .bindImporter c => answered (withObject .importer (x.bindImporter d c))
  | .exportSurface e s => (x.exportSurface view patience e s).bind (answered ∘ withObject .exported)
  | .importHandle i h => answered (withObject .imported (x.importHandle i h))
  | .setParentOf i s => answered (withoutObject (x.setParentOf view i s))
  | .destroyExport e => answered (withoutObject (x.destroyExport e))
  | .destroyImport i => answered (withoutObject (x.destroyImport i))
  | .destroyExporter e => answered (withoutObject (x.destroyExporter e))
  | .destroyImporter i => answered (withoutObject (x.destroyImporter i))
  | .unmapped s => some (.silent, x.unmapped s, d)
  | .parentChanged s => some (.silent, x.parentChanged s, d)
  | .clientGone c => some (.silent, x.clientGone c, d)
  | .expel c e => some (.silent, x.expel d c e)
  | .dispatch c r => (x.dispatch view patience d c r).map fun (r, x, d) => (.outcome r, x, d)
  | .takeEvents => some (.events x.takeEvents.1, x.takeEvents.2, d)
where
  answered : Except RequestError (Option ObjectId) × Exchange →
      Option (Answer × Exchange × Display L)
    | (r, x) => some (.outcome r, x, d)

end Exchange

end SurfaceExchange
