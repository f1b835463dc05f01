/-!
# Signals

An ordered list of listeners, each known by the number it was given when it
was added. Numbers count from 1 and are never given twice, so a number whose
listener has left never names a later one. What a listener is, is left open.
-/

namespace SurfaceExchange

/-- The number of a listener within its signal. -/
structure ListenerId where
  val : Nat
  deriving DecidableEq, Repr

/-- Listeners in the order in which they were added. -/
structure Signal (L : Type) where
  listeners : List (ListenerId × L) := []
  /-- Numbers have no bound. A counter of 64 bits agrees until it is to pass 2^64 - 1. -/
  nextId : Nat := 1
  deriving DecidableEq

namespace Signal

variable {L : Type}

def empty : Signal L := {}

instance : Inhabited (Signal L) := ⟨empty⟩

def size (s : Signal L) : Nat := s.listeners.length

def isEmpty (s : Signal L) : Bool := s.listeners.isEmpty

/-- Adds a listener under a number that the caller has allocated. -/
def addAs (s : Signal L) (id : ListenerId) (l : L) : Signal L :=
  { s with listeners := s.listeners ++ [(id, l)] }

/-- Adds a listener under the next number. -/
def add (s : Signal L) (l : L) : ListenerId × Signal L :=
  (⟨s.nextId⟩, { s.addAs ⟨s.nextId⟩ l with nextId := s.nextId + 1 })

/-- The listener added under a number, while it is still there. -/
def find? (s : Signal L) (id : ListenerId) : Option L :=
  (s.listeners.find? (fun e => decide (e.1 = id))).map Prod.snd

def contains (s : Signal L) (id : ListenerId) : Bool :=
  s.listeners.any (fun e => decide (e.1 = id))

/-- Takes one listener out. -/
def remove (s : Signal L) (id : ListenerId) : Option L × Signal L :=
  (s.find? id, { s with listeners := s.listeners.eraseP (fun e => decide (e.1 = id)) })

/-- Takes every listener out, for a signal that fires once. -/
def drain (s : Signal L) : List (ListenerId × L) × Signal L :=
  (s.listeners, { s with listeners := [] })

/-- A signal is described by how many listen to it. -/
def describe (s : Signal L) : String :=
  "Signal \x7b listeners: " ++ toString s.size ++ " \x7d"

/-! ## Operations through the list of listeners -/

@[simp] theorem listeners_addAs (s : Signal L) (id : ListenerId) (l : L) :
    (s.addAs id l).listeners = s.listeners ++ [(id, l)] := rfl

@[simp] theorem listeners_add (s : Signal L) (l : L) :
    (s.add l).2.listeners = s.listeners ++ [(⟨s.nextId⟩, l)] := rfl

@[simp] theorem nextId_add (s : Signal L) (l : L) : (s.add l).2.nextId = s.nextId + 1 := rfl

@[simp] theorem listeners_drain (s : Signal L) : s.drain.2.listeners = [] := rfl

theorem contains_eq_isSome_find? (s : Signal L) (id : ListenerId) :
    s.contains id = (s.find? id).isSome := by
  rw [contains, find?, Option.isSome_map, Bool.eq_iff_iff, List.any_eq_true, List.find?_isSome]

/-- Removal of a number that is not there changes nothing. -/
theorem remove_of_not_contains {s : Signal L} {id : ListenerId} (h : s.contains id = false) :
    s.remove id = (none, s) := by
  have hn : ∀ e ∈ s.listeners, ¬ e.1 = id := by simpa [contains] using h
  have hf : s.find? id = none := by
    rw [find?, Option.map_eq_none_iff, List.find?_eq_none]
    simpa using hn
  have he : s.listeners.eraseP (fun e => decide (e.1 = id)) = s.listeners :=
    List.eraseP_of_forall_not (by simpa using hn)
  rw [remove, hf, he]

end Signal

end SurfaceExchange
