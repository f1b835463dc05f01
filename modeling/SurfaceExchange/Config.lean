import SurfaceExchange.Identifier

/-!
# Configuration

The limits that an exchange enforces. A limit of 0 is no limit.
-/

namespace SurfaceExchange

structure Config where
  version : Nat := protocolVersion
  maxHandleAttempts : Nat := 16
  maxExports : Nat := 1000
  maxImports : Nat := 1000
  deriving DecidableEq, Repr

namespace Config

/-- For clients that are trusted: nothing is limited. -/
def permissive : Config :=
  { maxHandleAttempts := 0, maxExports := 0, maxImports := 0 }

/-- For clients that are not. -/
def strict : Config :=
  { maxHandleAttempts := 4, maxExports := 100, maxImports := 100 }

/-- The version offered to clients is one that exists. -/
def offeredVersion (c : Config) : Nat := min (max c.version 1) protocolVersion

/-- Whether a client that holds `held` objects may have no further one. -/
def reached (limit held : Nat) : Bool := decide (limit ≠ 0 ∧ limit ≤ held)

theorem offeredVersion_eq (c : Config) : c.offeredVersion = 1 := by
  simp only [offeredVersion, protocolVersion]
  omega

end Config

end SurfaceExchange
