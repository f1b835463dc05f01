import SurfaceExchange.Exchange.Basic

/-!
# Links to children

A link ends in one of two ways. Removed, it goes and the child keeps the
parent that it has. Dropped, it goes and the shell is told to clear the
child's parent, of which every other link on that child hears.
-/

namespace SurfaceExchange.Exchange

/-- The link that an import has on a surface. -/
def link? (x : Exchange) (i : ImportId) (child : SurfaceId) : Option ChildLink :=
  (x.imports.find? i).bind (fun r => r.children.find? (fun l => decide (l.surface = child)))

/-- Ends both subscriptions of a link. -/
def release (x : Exchange) (l : ChildLink) : Exchange := (x.cancel l.unmap).cancel l.setParent

/-- Takes a link away and leaves the child's parent alone. -/
def cutLink (x : Exchange) (i : ImportId) (child : SurfaceId) : Exchange :=
  match x.link? i child with
  | none => x
  | some l =>
    { x with imports := x.imports.modify i (fun r =>
        { r with children := r.children.eraseP (fun l => decide (l.surface = child)) }) }.release l

/-- Delivers an event to those who listened to it when delivery started. One who stopped
listening since is passed over. -/
def deliver (x : Exchange) (surface : SurfaceId) (event : SurfaceEvent)
    (act : Exchange → Watcher → Exchange) : Exchange :=
  (x.subscriptions.snapshot surface event).foldl
    (fun x e => if x.subscriptions.isLive e.1 then act x e.2 else x) x

/-- What a watcher does when a surface gets another parent. -/
def onSetParent (x : Exchange) : Watcher → Exchange
  | .childSetParent i child => x.cutLink i child
  | _ => x

/-- A surface got another parent, by the shell's own doing or its client's. Links on it end;
the new parent is left alone. -/
def parentChanged (x : Exchange) (surface : SurfaceId) : Exchange :=
  x.deliver surface .setParent onSetParent

/-- Has the shell set a parent, and lets every link on the surface know. -/
def setParent (x : Exchange) (surface : SurfaceId) (parent : Option SurfaceId) : Exchange :=
  (x.tell surface parent).parentChanged surface

/-- Ends a link that was taken off its import before, and clears the child's parent. -/
def dropLink (x : Exchange) (l : ChildLink) : Exchange := (x.release l).setParent l.surface none

def dropLinks (x : Exchange) (ls : List ChildLink) : Exchange := ls.foldl dropLink x

end SurfaceExchange.Exchange
