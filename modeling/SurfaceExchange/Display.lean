import SurfaceExchange.Identifier
import SurfaceExchange.Signal
import SurfaceExchange.Table.Lemmas
import SurfaceExchange.Text.Quoted

/-!
# The display

The session that clients connect to: the globals it advertises, the clients
that are connected, and the listeners to be run when it shuts down. Numbers of
globals and clients count from 1 and are never given twice. A listener changes
the state of whoever runs the display; what it is, is left open.
-/

namespace SurfaceExchange

/-- What is advertised under a global's number. -/
structure Global where
  interface : String
  version : Nat
  deriving DecidableEq, Repr

def GlobalId.describe (id : GlobalId) : String := "GlobalId(" ++ toString id.val ++ ")"

def ClientId.describe (id : ClientId) : String := "ClientId(" ++ toString id.val ++ ")"

def Global.describe (g : Global) : String :=
  "GlobalInfo \x7b interface: " ++ Text.quoted g.interface ++ ", version: "
    ++ toString g.version ++ " \x7d"

structure Display (L : Type) where
  globals : Table GlobalId Global := .empty
  /-- Numbers have no bound. A counter of 32 bits agrees until it is to pass 2^32 - 1. -/
  nextGlobal : Nat := 1
  clients : KeySet ClientId := .empty
  /-- As unbounded as the numbers of globals. -/
  nextClient : Nat := 1
  shutdown : Signal L := .empty
  terminated : Bool := false
  deriving DecidableEq

namespace Display

variable {L σ : Type}

def empty : Display L := {}

instance : Inhabited (Display L) := ⟨empty⟩

/-! ## Globals -/

def advertise (d : Display L) (interface : String) (version : Nat) : GlobalId × Display L :=
  (⟨d.nextGlobal⟩,
    { d with
      globals := d.globals.insert ⟨d.nextGlobal⟩ ⟨interface, version⟩
      nextGlobal := d.nextGlobal + 1 })

/-- Withdraws a global and tells whether it was there. -/
def withdraw (d : Display L) (id : GlobalId) : Bool × Display L :=
  (d.globals.contains id, { d with globals := d.globals.erase id })

def global? (d : Display L) (id : GlobalId) : Option Global := d.globals.find? id

/-- The first global with an interface. -/
def findGlobal? (d : Display L) (interface : String) : Option GlobalId :=
  (d.globals.toList.find? (fun e => decide (e.2.interface = interface))).map Prod.fst

/-! ## Clients -/

def connect (d : Display L) : ClientId × Display L :=
  (⟨d.nextClient⟩,
    { d with clients := d.clients.add ⟨d.nextClient⟩, nextClient := d.nextClient + 1 })

def isConnected (d : Display L) (c : ClientId) : Bool := d.clients.contains c

/-- Drops a connection and tells whether it was there. -/
def disconnect (d : Display L) (c : ClientId) : Bool × Display L :=
  (d.isConnected c, { d with clients := d.clients.erase c })

/-! ## Shutting down -/

def addListener (d : Display L) (l : L) : ListenerId × Display L :=
  ((d.shutdown.add l).1, { d with shutdown := (d.shutdown.add l).2 })

/-- Removes a listener and tells whether it was there. -/
def removeListener (d : Display L) (id : ListenerId) : Bool × Display L :=
  (d.shutdown.contains id, { d with shutdown := (d.shutdown.remove id).2 })

/-- Runs the listeners on a state, in the order in which they were added, and drops every
global and client. A display shuts down once; after that nothing is left to do. -/
def terminate (run : σ → L → σ) (d : Display L) (s : σ) : σ × Display L :=
  if d.terminated then (s, d)
  else
    (d.shutdown.drain.1.foldl (fun s e => run s e.2) s,
      { d with
        globals := .empty
        clients := .empty
        shutdown := d.shutdown.drain.2
        terminated := true })

/-- A display that has shut down does not do so again. -/
theorem terminate_terminate (run : σ → L → σ) (d : Display L) (s s' : σ) :
    (d.terminate run s).2.terminate run s' = (s', (d.terminate run s).2) := by
  unfold terminate
  split
  · simp_all
  · simp

/-! ## Written form -/

private def braced (items : List String) : String :=
  "\x7b" ++ ", ".intercalate items ++ "\x7d"

/-- A display is described by everything but its counters. -/
def describe (d : Display L) : String :=
  "Display \x7b globals: "
    ++ braced (d.globals.toList.map fun e => GlobalId.describe e.1 ++ ": " ++ Global.describe e.2)
    ++ ", clients: " ++ braced (d.clients.keys.map ClientId.describe)
    ++ ", destroy: " ++ d.shutdown.describe
    ++ ", terminated: " ++ toString d.terminated ++ " \x7d"

end Display

end SurfaceExchange
