import SurfaceExchange.Identifier
import SurfaceExchange.Signal
import SurfaceExchange.Table.Lemmas

/-!
# Subscriptions to surfaces

Each surface has two signals, one for being unmapped and one for getting a new
parent. A subscription is a token that says where its listener sits. The
numbers of listeners are allocated for all surfaces together, so a cancelled
token never names a later subscription. A surface nobody listens to has no
entry.
-/

namespace SurfaceExchange

/-- What may happen to a surface. -/
inductive SurfaceEvent where
  | unmap
  | setParent
  deriving DecidableEq, Repr

/-- Who listens, which is what has to be taken down when the event comes. -/
inductive Watcher where
  | exportUnmap (exported : ExportId)
  | childUnmap (imported : ImportId) (child : SurfaceId)
  | childSetParent (imported : ImportId) (child : SurfaceId)
  deriving DecidableEq, Repr

/-- A subscriber's token. -/
structure Subscription where
  surface : SurfaceId
  event : SurfaceEvent
  listener : ListenerId
  deriving DecidableEq, Repr

/-- The two signals of one surface. -/
structure WatchedSurface where
  unmap : Signal Watcher := .empty
  setParent : Signal Watcher := .empty
  deriving DecidableEq

namespace WatchedSurface

def signal (s : WatchedSurface) : SurfaceEvent → Signal Watcher
  | .unmap => s.unmap
  | .setParent => s.setParent

def modify (s : WatchedSurface) (f : Signal Watcher → Signal Watcher) :
    SurfaceEvent → WatchedSurface
  | .unmap => { s with unmap := f s.unmap }
  | .setParent => { s with setParent := f s.setParent }

def isEmpty (s : WatchedSurface) : Bool := s.unmap.isEmpty && s.setParent.isEmpty

def size (s : WatchedSurface) : Nat := s.unmap.size + s.setParent.size

theorem signal_modify (s : WatchedSurface) (f : Signal Watcher → Signal Watcher)
    (e e' : SurfaceEvent) :
    (s.modify f e).signal e' = if e = e' then f (s.signal e') else s.signal e' := by
  cases e <;> cases e' <;> rfl

end WatchedSurface

/-- The subscriptions to all surfaces. -/
structure Subscriptions where
  surfaces : Table SurfaceId WatchedSurface := .empty
  /-- As unbounded as the numbers of a single signal. -/
  nextId : Nat := 1
  deriving DecidableEq

namespace Subscriptions

def empty : Subscriptions := {}

instance : Inhabited Subscriptions := ⟨empty⟩

/-- The signal of one event of one surface. -/
def signal (s : Subscriptions) (surface : SurfaceId) (event : SurfaceEvent) :
    Signal Watcher :=
  ((s.surfaces.find? surface).getD {}).signal event

/-- Adds a listener behind those that the event already has. -/
def subscribe (s : Subscriptions) (surface : SurfaceId) (event : SurfaceEvent)
    (l : Watcher) : Subscription × Subscriptions :=
  let id : ListenerId := ⟨s.nextId⟩
  let signals := (s.surfaces.find? surface).getD {}
  (⟨surface, event, id⟩,
    { surfaces := s.surfaces.insert surface (signals.modify (·.addAs id l) event)
      nextId := s.nextId + 1 })

/-- Ends a subscription and tells whether there was one to end. A token that is no longer
good is no error, so that no cascade stops halfway. -/
def cancel (s : Subscriptions) (t : Subscription) : Bool × Subscriptions :=
  match s.surfaces.find? t.surface with
  | none => (false, s)
  | some signals =>
    let rest := signals.modify (fun g => (g.remove t.listener).2) t.event
    ((signals.signal t.event).contains t.listener,
      { s with surfaces :=
          if rest.isEmpty then s.surfaces.erase t.surface
          else s.surfaces.insert t.surface rest })

def isLive (s : Subscriptions) (t : Subscription) : Bool :=
  (s.signal t.surface t.event).contains t.listener

/-- The listeners of one event of one surface with their tokens, in order, as they stand
before delivery starts. -/
def snapshot (s : Subscriptions) (surface : SurfaceId) (event : SurfaceEvent) :
    List (Subscription × Watcher) :=
  (s.signal surface event).listeners.map (fun e => (⟨surface, event, e.1⟩, e.2))

/-- The number of live subscriptions. -/
def size (s : Subscriptions) : Nat := s.surfaces.values.foldr (fun w n => w.size + n) 0

def isEmpty (s : Subscriptions) : Bool := s.surfaces.isEmpty

/-! ## Subscribing through the signals -/

@[simp] theorem nextId_subscribe (s : Subscriptions) (x : SurfaceId) (e : SurfaceEvent)
    (l : Watcher) : (s.subscribe x e l).2.nextId = s.nextId + 1 := rfl

@[simp] theorem nextId_cancel (s : Subscriptions) (t : Subscription) :
    (s.cancel t).2.nextId = s.nextId := by
  unfold cancel
  split <;> rfl

theorem signal_subscribe (s : Subscriptions) (x x' : SurfaceId) (e e' : SurfaceEvent)
    (l : Watcher) :
    (s.subscribe x e l).2.signal x' e' =
      if x = x' ∧ e = e' then (s.signal x' e').addAs ⟨s.nextId⟩ l else s.signal x' e' := by
  by_cases hx : x = x'
  · subst hx
    simp [signal, subscribe, WatchedSurface.signal_modify]
  · simp [signal, subscribe, Table.find?_insert, hx]

/-- Cancelling tells whether the token was live. -/
theorem cancel_fst (s : Subscriptions) (t : Subscription) : (s.cancel t).1 = s.isLive t := by
  unfold cancel isLive signal
  split
  · next h =>
    rw [h]
    cases t.event <;> rfl
  · next h => rw [h]; rfl

end Subscriptions

end SurfaceExchange
