import SurfaceExchange.Identifier

/-!
# Errors

A protocol error blames a client and ends its connection. A request error is
what the caller of an operation gets back: a protocol error, or one of two
mistakes of the caller that blame nobody.
-/

namespace SurfaceExchange

/-- What a client can be blamed for. -/
inductive ErrorCode where
  | invalidRole
  | roleMismatch
  | invalidObject
  | noMemory
  deriving DecidableEq, Repr

namespace ErrorCode

/-- The number sent over the wire. -/
def number : ErrorCode → Nat
  | .invalidRole => 0
  | .roleMismatch => 1
  | .invalidObject => 2
  | .noMemory => 3

def ofNumber? : Nat → Option ErrorCode
  | 0 => some .invalidRole
  | 1 => some .roleMismatch
  | 2 => some .invalidObject
  | 3 => some .noMemory
  | _ => none

def name : ErrorCode → String
  | .invalidRole => "InvalidRole"
  | .roleMismatch => "RoleMismatch"
  | .invalidObject => "InvalidObject"
  | .noMemory => "NoMemory"

def explanation : ErrorCode → String
  | .invalidRole => "surface is not an xdg_toplevel"
  | .roleMismatch => "surfaces must have the same role"
  | .invalidObject => "object does not exist"
  | .noMemory => "insufficient resources"

def text (c : ErrorCode) : String := c.name ++ ": " ++ c.explanation

/-- Numbers and codes correspond. -/
theorem ofNumber?_eq_some_iff (n : Nat) (c : ErrorCode) : ofNumber? n = some c ↔ c.number = n := by
  constructor
  · intro h
    match n with
    | 0 | 1 | 2 | 3 => cases h; rfl
    | n + 4 => simp [ofNumber?] at h
  · rintro rfl
    cases c <;> rfl

end ErrorCode

/-- An error raised against one object of a client. -/
structure ProtocolError where
  code : ErrorCode
  object : ObjectId
  detail : String
  deriving DecidableEq, Repr

namespace ProtocolError

/-- The surface is outside the shell. -/
def notShellSurface (o : ObjectId) : ProtocolError :=
  ⟨.invalidRole, o, "surface must be an xdg_surface"⟩

/-- The surface is in the shell with another role. -/
def notToplevel (o : ObjectId) : ProtocolError :=
  ⟨.invalidRole, o, "surface must be an xdg_toplevel"⟩

def roleMismatch (o : ObjectId) : ProtocolError :=
  ⟨.roleMismatch, o, "surfaces must have the same role"⟩

def invalidObject (o : ObjectId) : ProtocolError := ⟨.invalidObject, o, "unknown object"⟩

def noMemory (o : ObjectId) : ProtocolError := ⟨.noMemory, o, "no memory"⟩

def text (e : ProtocolError) : String :=
  e.object.text ++ ": " ++ e.code.text ++ " (" ++ e.detail ++ ")"

end ProtocolError

/-- Why an operation was not carried out. -/
inductive RequestError where
  | protocol (e : ProtocolError)
  | unknownObject (o : ObjectId)
  | notConnected (c : ClientId)
  deriving DecidableEq, Repr

namespace RequestError

/-- Only a protocol error ends the connection. -/
def isFatal : RequestError → Bool
  | .protocol _ => true
  | _ => false

def protocolError? : RequestError → Option ProtocolError
  | .protocol e => some e
  | _ => none

def message : RequestError → String
  | .protocol e => "protocol error: " ++ e.text
  | .unknownObject o => "unknown object " ++ o.text
  | .notConnected c => c.text ++ " is not connected"

end RequestError

end SurfaceExchange
