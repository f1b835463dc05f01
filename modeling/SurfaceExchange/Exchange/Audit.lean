import SurfaceExchange.Exchange.Basic

/-!
# Audit

A walk over the whole exchange that reports every broken reference: an import
and its export must name each other, nothing is live and inert at once, and
the subscriptions that are registered are those that objects hold.
-/

namespace SurfaceExchange

/-- What an audit can find. -/
inductive Violation where
  /-- The subscription of an export is not registered. -/
  | exportUnwatched (e : ExportId)
  /-- An export lists an import that has another source, or none. -/
  | importerElsewhere (e : ExportId) (i : ImportId)
  /-- An export lists an import that is not live. -/
  | importerDead (e : ExportId) (i : ImportId)
  /-- The source of an import does not list it. -/
  | unlisted (i : ImportId) (e : ExportId)
  /-- The source of an import is not live. -/
  | sourceDead (i : ImportId) (e : ExportId)
  /-- A subscription of a link is not registered. -/
  | childUnwatched (i : ImportId) (child : SurfaceId)
  | liveAndInert (o : ObjectId)
  /-- As many subscriptions are registered as the first number, and held as the second. -/
  | miscounted (registered held : Nat)
  deriving DecidableEq, Repr

def Violation.message : Violation → String
  | .exportUnwatched e => e.text ++ " lost its unmap subscription"
  | .importerElsewhere e i => e.text ++ " lists " ++ i.text ++ " which points elsewhere"
  | .importerDead e i => e.text ++ " lists dead " ++ i.text
  | .unlisted i e => i.text ++ " not listed by " ++ e.text
  | .sourceDead i e => i.text ++ " points at dead " ++ e.text
  | .childUnwatched i child => i.text ++ " child " ++ child.text ++ " lost a subscription"
  | .liveAndInert o => o.text ++ " is both live and inert"
  | .miscounted registered held =>
    toString registered ++ " subscriptions registered, " ++ toString held
      ++ " owned by live objects"

namespace Exchange

/-- The subscriptions that live exports and links hold, one after the other. -/
def heldSubscriptions (x : Exchange) : List Subscription :=
  x.exports.values.map Export.unmap
    ++ x.imports.values.flatMap (fun r => r.children.flatMap (fun l => [l.unmap, l.setParent]))

def exportViolations (x : Exchange) (e : ExportId) (r : Export) : List Violation :=
  (if x.subscriptions.isLive r.unmap then [] else [.exportUnwatched e])
    ++ r.importers.flatMap (fun i =>
      match x.imports.find? i with
      | some s => if s.source = some e then [] else [.importerElsewhere e i]
      | none => [.importerDead e i])

def importViolations (x : Exchange) (i : ImportId) (r : Import) : List Violation :=
  (match r.source with
    | none => []
    | some e =>
      match x.exports.find? e with
      | some s => if i ∈ s.importers then [] else [.unlisted i e]
      | none => [.sourceDead i e])
    ++ r.children.flatMap (fun l =>
      if x.subscriptions.isLive l.unmap ∧ x.subscriptions.isLive l.setParent then []
      else [.childUnwatched i l.surface])

def inertViolations (x : Exchange) : List Violation :=
  (x.inertExports.keys.filter x.exports.contains).map (fun e => .liveAndInert (.exported e))
    ++ (x.inertImports.keys.filter x.imports.contains).map (fun i => .liveAndInert (.imported i))

/-- Everything that an audit finds. -/
def violations (x : Exchange) : List Violation :=
  x.exports.toList.flatMap (fun e => x.exportViolations e.1 e.2)
    ++ x.imports.toList.flatMap (fun e => x.importViolations e.1 e.2)
    ++ x.inertViolations
    ++ (if x.subscriptions.size = x.heldSubscriptions.length then []
      else [.miscounted x.subscriptions.size x.heldSubscriptions.length])

end Exchange

end SurfaceExchange
