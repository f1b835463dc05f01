import SurfaceExchange.Error
import SurfaceExchange.Handle.Basic

/-!
# Events

What a client is told: the handle of a surface that it exported, that an
imported surface is no longer valid, or the error that ends its connection.
-/

namespace SurfaceExchange

inductive Event where
  | handle (exported : ExportId) (handle : Handle)
  | destroyed (imported : ImportId)
  | error (e : ProtocolError)
  deriving DecidableEq, Repr

namespace Event

/-- The opcode of `handle` within the exported interface. -/
def handleOpcode : Nat := 0

/-- The opcode of `destroyed` within the imported interface. -/
def destroyedOpcode : Nat := 0

/-- The object that the event is about. -/
def object : Event → ObjectId
  | .handle e _ => .exported e
  | .destroyed i => .imported i
  | .error e => e.object

/-- The event's number within the interface of its object. An error is sent by the display
and has none. -/
def opcode? : Event → Option Nat
  | .handle _ _ => some handleOpcode
  | .destroyed _ => some destroyedOpcode
  | .error _ => none

end Event

/-- An event addressed to a client. -/
structure Delivery where
  client : ClientId
  event : Event
  deriving DecidableEq, Repr

end SurfaceExchange
