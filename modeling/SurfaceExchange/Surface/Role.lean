import SurfaceExchange.Identifier

/-!
# Surfaces as the exchange sees them

The shell owns the surfaces. The exchange asks it for their roles and tells it
which parents to set; everything else about surfaces stays with the shell.
-/

namespace SurfaceExchange

/-- The role of a surface of the shell. -/
inductive Role where
  | unassigned
  | toplevel
  | popup
  deriving DecidableEq, Repr

/-- What a shell answers about its surfaces while one operation runs. A surface outside the
shell, or one that does not exist, has no role. -/
structure ShellView where
  role : SurfaceId → Option Role
  inShell : SurfaceId → Bool := fun s => (role s).isSome

/-- A parent that the shell is told to set, or to clear. -/
structure ParentChange where
  surface : SurfaceId
  parent : Option SurfaceId
  deriving DecidableEq, Repr

end SurfaceExchange
