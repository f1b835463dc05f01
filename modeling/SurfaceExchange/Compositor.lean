import SurfaceExchange.Exchange.Operation
import SurfaceExchange.Surface.Store

/-!
# A compositor without a screen

A display, a slot that may hold one exchange with the surfaces that it works
on, and a record of what happened. What the exchange tells the shell to do is
done as soon as an operation ends. The shell may be made to lie about roles.

The exchange in the slot hears of the display's shutdown through a listener of
its own and is then torn down; other listeners may watch, and may empty the
slot before it does.
-/

namespace SurfaceExchange

/-- What a shell is made to answer about a surface in place of the truth. -/
structure Override where
  role : Option (Option Role)
  inShell : Option Bool
  deriving DecidableEq, Repr

/-- An exchange with its surfaces. Past its first `horizon` answers, the stream of handles
does not repeat itself. -/
structure Shell where
  exchange : Exchange
  surfaces : SurfaceStore := .empty
  overrides : Table SurfaceId Override := .empty
  horizon : Nat

namespace Shell

/-- The role of a surface, overrides included. -/
def role (s : Shell) (x : SurfaceId) : Option Role :=
  ((s.overrides.find? x).bind Override.role).getD (s.surfaces.role x)

/-- The answers that the exchange gets. Unless overridden, a surface is in the shell if it
seems to have a role. -/
def view (s : Shell) : ShellView where
  role := s.role
  inShell x := ((s.overrides.find? x).bind Override.inShell).getD (s.role x).isSome

/-- Sets or removes both overrides of a surface. -/
def override (s : Shell) (x : SurfaceId) (o : Override) : Shell :=
  { s with overrides := s.overrides.insert x o }

/-- The number of draws in which a search for a handle ends: past the horizon every answer is
new, and each live export takes one handle. -/
def patience (s : Shell) : Nat := s.horizon + s.exchange.exports.size + 1

/-- Does what the exchange told the shell to do, and tells what that was. -/
def settle (s : Shell) : List ParentChange × Shell :=
  let (changes, exchange) := s.exchange.takeParentChanges
  (changes, { s with exchange, surfaces := s.surfaces.setParents changes })

end Shell

/-- Who listens to the display's shutdown. -/
inductive ShutdownListener where
  /-- An exchange, which takes what the slot holds and tears it down. -/
  | exchange
  /-- Somebody who watches, and empties the slot if so inclined. -/
  | observer (name : String) (takes : Bool)
  deriving DecidableEq, Repr

/-- A listener that ran. -/
inductive Fired where
  /-- An observer of the display, with the number of live exports in the slot if it was full. -/
  | observer (name : String) (liveExports : Option Nat)
  /-- A listener to the end of an exchange, with the number of parent changes before it. -/
  | farewell (name : String) (changes : Nat)
  deriving DecidableEq, Repr

/-- The slot, and what has happened since the record was cleared. -/
structure Scene where
  slot : Option Shell := none
  changes : List ParentChange := []
  fired : List Fired := []

namespace Scene

/-- Forgets what has happened so far. -/
def clear (s : Scene) : Scene := { s with changes := [], fired := [] }

/-- Fills the slot, after doing what its exchange told the shell to do. -/
def hold (s : Scene) (shell : Shell) : Scene :=
  let (changes, shell) := shell.settle
  { s with slot := some shell, changes := s.changes ++ changes }

/-- Puts on record what the end of an exchange brought: its last parent changes, and its
listeners after them. -/
def farewell (s : Scene) (x : Exchange) (due : List String) : Scene :=
  let changes := s.changes ++ x.parentChanges
  { s with changes, fired := s.fired ++ due.map (.farewell · changes.length) }

/-- Empties the slot and tears down what it held. -/
def tearDown (s : Scene) : Scene :=
  match s.slot with
  | none => s
  | some shell =>
    let (due, x) := shell.exchange.teardown
    { s with slot := none }.farewell x due

/-- Runs a listener to the display's shutdown. -/
def run (s : Scene) : ShutdownListener → Scene
  | .exchange => s.tearDown
  | .observer name takes =>
    { s with
      slot := if takes then none else s.slot
      fired := s.fired ++ [.observer name (s.slot.map (·.exchange.exports.size))] }

end Scene

structure Compositor where
  display : Display ShutdownListener := .empty
  scene : Scene := {}

namespace Compositor

/-- What the slot holds. -/
def shell? (c : Compositor) : Option Shell := c.scene.slot

/-- Forgets what has happened so far. -/
def clear (c : Compositor) : Compositor := { c with scene := c.scene.clear }

/-- Works on the display alone. -/
def onDisplay {α : Type} (c : Compositor)
    (f : Display ShutdownListener → α × Display ShutdownListener) : α × Compositor :=
  let (a, display) := f c.display
  (a, { c with display })

/-- Works on what the slot holds, if it holds anything. -/
def onShell? {α : Type} (c : Compositor) (f : Shell → α × Shell) : Option (α × Compositor) :=
  c.shell?.map fun shell =>
    let (a, shell) := f shell
    (a, { c with scene := c.scene.hold shell })

/-- Puts a new exchange with new surfaces into the slot. One that was there is dropped without
being destroyed: its globals and its listener stay on the display. -/
def openExchange (c : Compositor) (config : Config) (script : List (Option Handle))
    (exhausts : Bool) : Compositor :=
  let (exchange, display) :=
    Exchange.start c.display config (.scripted script exhausts) .exchange
  { c with
    display
    scene := { c.scene with slot := some { exchange, horizon := script.length } } }

/-- Empties the slot without destroying what it held, and tells whether it held anything. -/
def dropExchange (c : Compositor) : Bool × Compositor :=
  (c.shell?.isSome, { c with scene := { c.scene with slot := none } })

/-- Takes the exchange out of the slot and destroys it. -/
def destroyExchange? (c : Compositor) : Option Compositor :=
  c.shell?.map fun shell =>
    let (due, x, display) := shell.exchange.destroy c.display
    { display, scene := { c.scene with slot := none }.farewell x due }

/-- Shuts the display down. -/
def terminate (c : Compositor) : Compositor :=
  let (scene, display) := c.display.terminate Scene.run c.scene
  { display, scene }

/-- Carries out an operation of the exchange in the slot. -/
def operate? (c : Compositor) (op : Operation) : Option (Answer × Compositor) :=
  c.shell?.bind fun shell =>
    (shell.exchange.perform shell.view shell.patience c.display op).map
      fun (answer, exchange, display) =>
        (answer, { display, scene := c.scene.hold { shell with exchange } })

/-- Has the shell set a parent of its own accord. -/
def setParent? (c : Compositor) (change : ParentChange) : Option Compositor :=
  c.shell?.map fun shell =>
    { c with scene := { c.scene with
        slot := some { shell with surfaces := shell.surfaces.setParent change }
        changes := c.scene.changes ++ [change] } }

end Compositor

end SurfaceExchange
