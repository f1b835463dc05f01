import SurfaceExchange.Identifier

/-!
# Requests

What a client can ask of one of its objects. Within an interface a request is
known by its opcode, and every interface has `destroy` as opcode 0.
-/

namespace SurfaceExchange

inductive ExporterRequest where
  | destroy
  | exportSurface (surface : SurfaceId)
  deriving DecidableEq, Repr

inductive ExportedRequest where
  | destroy
  deriving DecidableEq, Repr

inductive ImporterRequest where
  | destroy
  | importHandle (handle : String)
  deriving DecidableEq, Repr

inductive ImportedRequest where
  | destroy
  | setParentOf (surface : SurfaceId)
  deriving DecidableEq, Repr

namespace ExporterRequest

def opcode : ExporterRequest → Nat
  | .destroy => 0
  | .exportSurface _ => 1

def name : ExporterRequest → String
  | .destroy => "destroy"
  | .exportSurface _ => "export"

end ExporterRequest

namespace ExportedRequest

def opcode : ExportedRequest → Nat
  | .destroy => 0

def name : ExportedRequest → String
  | .destroy => "destroy"

end ExportedRequest

namespace ImporterRequest

def opcode : ImporterRequest → Nat
  | .destroy => 0
  | .importHandle _ => 1

def name : ImporterRequest → String
  | .destroy => "destroy"
  | .importHandle _ => "import"

end ImporterRequest

namespace ImportedRequest

def opcode : ImportedRequest → Nat
  | .destroy => 0
  | .setParentOf _ => 1

def name : ImportedRequest → String
  | .destroy => "destroy"
  | .setParentOf _ => "set_parent_of"

end ImportedRequest

/-- A request addressed to one object. -/
inductive Request where
  | exporter (id : ExporterId) (request : ExporterRequest)
  | exported (id : ExportId) (request : ExportedRequest)
  | importer (id : ImporterId) (request : ImporterRequest)
  | imported (id : ImportId) (request : ImportedRequest)
  deriving DecidableEq, Repr

namespace Request

/-- The object addressed. -/
def object : Request → ObjectId
  | .exporter id _ => .exporter id
  | .exported id _ => .exported id
  | .importer id _ => .importer id
  | .imported id _ => .imported id

/-- The request's number within the interface of its object. -/
def opcode : Request → Nat
  | .exporter _ r => r.opcode
  | .exported _ r => r.opcode
  | .importer _ r => r.opcode
  | .imported _ r => r.opcode

/-- The request's name in the protocol. -/
def name : Request → String
  | .exporter _ r => r.name
  | .exported _ r => r.name
  | .importer _ r => r.name
  | .imported _ r => r.name

end Request

end SurfaceExchange
