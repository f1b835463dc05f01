import SurfaceExchange.Config
import SurfaceExchange.Display
import SurfaceExchange.Event
import SurfaceExchange.Ownership
import SurfaceExchange.Subscription
import SurfaceExchange.Surface.Role

/-!
# The exchange

The state that lets one client's surface become the parent of another's. A
client exports a surface through its exporter and gets a handle; another
client imports the handle through its importer and declares children of what
it imported.

Exports and imports refer to each other by identifier only. An object that the
server destroys while its client still holds it leaves an inert identifier
behind, which stays until the client destroys it too. The exchange does not
act on clients or surfaces itself: it queues events for clients and parent
changes for the shell, and both queues are taken from outside.
-/

namespace SurfaceExchange

/-- A bound exporter or importer. What was made through it carries its identifier. -/
structure Registry where
  client : ClientId
  version : Nat
  deriving DecidableEq, Repr

/-- An exported surface, its handle and the imports resolved to it. The subscription ends it
when the surface unmaps. -/
structure Export where
  client : ClientId
  version : Nat
  handle : Handle
  surface : SurfaceId
  importers : List ImportId
  unmap : Subscription
  deriving DecidableEq, Repr

/-- A surface declared a child of an imported one, until it unmaps or gets another parent. -/
structure ChildLink where
  surface : SurfaceId
  unmap : Subscription
  setParent : Subscription
  deriving DecidableEq, Repr

/-- An imported surface. It has no source if its handle named no export, or once the export
is gone. Children are kept in the order in which they were declared. -/
structure Import where
  client : ClientId
  version : Nat
  source : Option ExportId
  children : List ChildLink
  deriving DecidableEq, Repr

structure Exchange where
  config : Config
  handles : HandleStream
  exporterGlobal : GlobalId
  importerGlobal : GlobalId
  displayListener : ListenerId
  exporters : Table ExporterId Registry := .empty
  importers : Table ImporterId Registry := .empty
  exports : Table ExportId Export := .empty
  imports : Table ImportId Import := .empty
  inertExports : Table ExportId ClientId := .empty
  inertImports : Table ImportId ClientId := .empty
  subscriptions : Subscriptions := .empty
  ownership : Ownership := .empty
  events : List Delivery := []
  parentChanges : List ParentChange := []
  /-- Listeners to the end of the exchange, by name. -/
  farewells : Signal String := .empty
  /-- The number of the next object. Objects of all kinds share one count, which has no bound: a
  counter of 64 bits agrees until it is to pass 2^64 - 1. -/
  nextId : Nat := 1

/-- What is left of an object whose state is destroyed. -/
inductive Remnant where
  /-- Nothing: its client asked for it, or is gone. -/
  | nothing
  /-- The identifier, which its client still holds. -/
  | inert
  deriving DecidableEq, Repr

namespace Exchange

variable {L : Type}

/-- Advertises both globals on a display, and has a listener run when the display shuts
down. -/
def start (d : Display L) (config : Config) (handles : HandleStream) (listener : L) :
    Exchange × Display L :=
  let (exporterGlobal, d) := d.advertise exporterInterface config.offeredVersion
  let (importerGlobal, d) := d.advertise importerInterface config.offeredVersion
  let (displayListener, d) := d.addListener listener
  ({ config, handles, exporterGlobal, importerGlobal, displayListener }, d)

/-! ## Queues -/

/-- Queues an event for a client. -/
def send (x : Exchange) (c : ClientId) (e : Event) : Exchange :=
  { x with events := x.events ++ [⟨c, e⟩] }

/-- Queues a parent change for the shell. -/
def tell (x : Exchange) (surface : SurfaceId) (parent : Option SurfaceId) : Exchange :=
  { x with parentChanges := x.parentChanges ++ [⟨surface, parent⟩] }

/-- Takes the events queued for clients, oldest first. -/
def takeEvents (x : Exchange) : List Delivery × Exchange := (x.events, { x with events := [] })

/-- Takes the parent changes queued for the shell, oldest first. -/
def takeParentChanges (x : Exchange) : List ParentChange × Exchange :=
  (x.parentChanges, { x with parentChanges := [] })

/-! ## Questions -/

/-- The live export that has a handle. -/
def resolve (x : Exchange) (handle : String) : Option ExportId :=
  (x.exports.toList.find? (fun e => decide (e.2.handle.text = handle))).map Prod.fst

/-- The handles of the live exports. -/
def liveHandles (x : Exchange) : List Handle := x.exports.values.map Export.handle

/-- The object is one that the server destroyed and whose client has not destroyed it yet. -/
def isInert (x : Exchange) : ObjectId → Bool
  | .exported id => x.inertExports.contains id
  | .imported id => x.inertImports.contains id
  | .exporter _ => false
  | .importer _ => false

/-- The inert objects, in the order in which they were made. -/
def inertObjects (x : Exchange) : List ObjectId :=
  let numbered : List (Nat × ObjectId) :=
    x.inertExports.keys.map (fun id => (id.serial, .exported id))
      ++ x.inertImports.keys.map (fun id => (id.serial, .imported id))
  (numbered.mergeSort (fun a b => decide (a.1 ≤ b.1))).map Prod.snd

/-- The exports made through an exporter. -/
def exportsOf (x : Exchange) (id : ExporterId) : List ExportId :=
  x.exports.keys.filter (fun e => decide (e.exporter = id))

/-- The imports made through an importer. -/
def importsOf (x : Exchange) (id : ImporterId) : List ImportId :=
  x.imports.keys.filter (fun i => decide (i.importer = id))

/-! ## Numbers of objects -/

/-- The next number and the exchange that has given it away. -/
def allocate (x : Exchange) : Nat × Exchange := (x.nextId, { x with nextId := x.nextId + 1 })

def track (x : Exchange) (c : ClientId) (o : ObjectId) : Exchange :=
  { x with ownership := x.ownership.track c o }

def untrack (x : Exchange) (c : ClientId) (o : ObjectId) : Exchange :=
  { x with ownership := x.ownership.untrack c o }

def subscribe (x : Exchange) (surface : SurfaceId) (event : SurfaceEvent) (w : Watcher) :
    Subscription × Exchange :=
  let (t, s) := x.subscriptions.subscribe surface event w
  (t, { x with subscriptions := s })

def cancel (x : Exchange) (t : Subscription) : Exchange :=
  { x with subscriptions := (x.subscriptions.cancel t).2 }

end Exchange

end SurfaceExchange
