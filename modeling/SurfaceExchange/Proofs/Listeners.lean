import SurfaceExchange.Compositor
import Mathlib.Data.List.Nodup

/-!
# Listeners and what happens to them

Listeners to the display's shutdown, and listeners to the end of an exchange,
come and go in one way: a signal keeps those that were added and are not gone
(`Signal.Keeps`). Their history is told of everything at once, for the
listener of an exchange tears down whatever the slot then holds, which may be
another exchange, and an exchange that is taken out of the slot lives on: a
compositor with the exchanges that are held elsewhere (`Estate`), and a log of
all that has happened to listeners (`Occurrence`).
-/

namespace SurfaceExchange

namespace Signal

variable {L : Type} {s : Signal L} {added gone gone' : List ListenerId} {id : ListenerId}

/-- Of those that were added, those that are not gone, in the order in which they were added. -/
def standing (added gone : List ListenerId) : List ListenerId :=
  added.filter (fun id => decide (id ∉ gone))

theorem mem_standing : id ∈ standing added gone ↔ id ∈ added ∧ id ∉ gone := by
  simp [standing]

/-- The signal has the listeners that were added to it and are not gone. -/
structure Keeps (s : Signal L) (added gone : List ListenerId) : Prop where
  ids : s.listeners.map Prod.fst = standing added gone
  nodup : added.Nodup
  given : ∀ id ∈ added, id.val < s.nextId
  past : ∀ id ∈ gone, id ∈ added

theorem keeps_empty : (empty : Signal L).Keeps [] [] := ⟨rfl, .nil, nofun, nofun⟩

theorem Keeps.congr (h : s.Keeps added gone) (hgone : ∀ id, id ∈ gone' ↔ id ∈ gone) :
    s.Keeps added gone' where
  ids := by simp only [h.ids, standing, hgone]
  nodup := h.nodup
  given := h.given
  past id hid := h.past id ((hgone id).mp hid)

/-- The next number is nobody's. -/
theorem Keeps.fresh (h : s.Keeps added gone) : ⟨s.nextId⟩ ∉ added := fun hm =>
  Nat.lt_irrefl _ (h.given _ hm)

theorem Keeps.nodup_ids (h : s.Keeps added gone) : (s.listeners.map Prod.fst).Nodup := by
  rw [h.ids]
  exact h.nodup.filter _

theorem Keeps.contains_iff (h : s.Keeps added gone) :
    s.contains id = true ↔ id ∈ added ∧ id ∉ gone := by
  rw [← mem_standing, ← h.ids]
  simp [contains]

theorem Keeps.add (h : s.Keeps added gone) (l : L) :
    (s.add l).2.Keeps (added ++ [⟨s.nextId⟩]) gone where
  ids := by
    have hnot : (⟨s.nextId⟩ : ListenerId) ∉ gone := fun hm => h.fresh (h.past _ hm)
    have hids := h.ids
    rw [standing] at hids
    simp [standing, hids, hnot]
  nodup := by
    refine List.nodup_append'.mpr ⟨h.nodup, List.nodup_singleton _, ?_⟩
    exact List.disjoint_singleton.mpr h.fresh
  given := by
    intro id hid
    rcases List.mem_append.mp hid with hid | hid
    · exact Nat.lt_succ_of_lt (h.given id hid)
    · rw [List.mem_singleton.mp hid]
      exact Nat.lt_succ_self _
  past id hid := List.mem_append_left _ (h.past id hid)

/-- A listener that leaves is gone. -/
theorem Keeps.remove (h : s.Keeps added gone) (hid : id ∈ added) :
    (s.remove id).2.Keeps added (gone ++ [id]) where
  ids := by
    have herase : (s.remove id).2.listeners.map Prod.fst
        = (s.listeners.map Prod.fst).erase id := by
      rw [List.erase_eq_eraseP', List.eraseP_map]
      rfl
    rw [herase, h.nodup_ids.erase_eq_filter, h.ids, standing, standing, List.filter_filter]
    refine List.filter_congr fun i _ => ?_
    by_cases hi : i = id <;> simp [hi]
  nodup := h.nodup
  given := h.given
  past i hi := by
    rcases List.mem_append.mp hi with hi | hi
    · exact h.past i hi
    · rw [List.mem_singleton.mp hi]
      exact hid

end Signal

/-! ## What happens to listeners -/

/-- What happens to listeners. Those of the display go by their numbers, and an exchange goes by
the number of its own listener. -/
inductive Occurrence where
  /-- A listener was added to the display. -/
  | enrolled (id : ListenerId)
  /-- A listener that was on the display was removed. -/
  | struckOff (id : ListenerId)
  /-- A listener to the end of an exchange was added. -/
  | farewellAdded (k id : ListenerId)
  /-- A listener that would have heard of the end of an exchange was removed. -/
  | farewellRemoved (k id : ListenerId)
  /-- The display's shutdown begins. -/
  | shutDown
  /-- A listener to the shutdown runs, and finds this exchange in the slot. -/
  | ran (id : ListenerId) (l : ShutdownListener) (found : Option ListenerId)
  /-- Whoever holds an exchange destroys it. -/
  | destroyed (k : ListenerId)
  /-- An exchange is torn down, and these listeners to its end run. -/
  | ended (k : ListenerId) (due : List (ListenerId × String))
  deriving DecidableEq

namespace Occurrence

@[simp] def enrolled? : Occurrence → Option ListenerId
  | enrolled id => some id
  | _ => none

@[simp] def struckOff? : Occurrence → Option ListenerId
  | struckOff id => some id
  | _ => none

@[simp] def ran? : Occurrence → Option ListenerId
  | ran id _ _ => some id
  | _ => none

@[simp] def ended? : Occurrence → Option (ListenerId × List (ListenerId × String))
  | ended k due => some (k, due)
  | _ => none

@[simp] def farewellAdded? (k : ListenerId) : Occurrence → Option ListenerId
  | farewellAdded j id => if j = k then some id else none
  | _ => none

@[simp] def farewellRemoved? (k : ListenerId) : Occurrence → Option ListenerId
  | farewellRemoved j id => if j = k then some id else none
  | _ => none

/-- The names of those who run. -/
def names : Occurrence → List String
  | ran _ (.observer name _) _ => [name]
  | ended _ due => due.map Prod.snd
  | _ => []

end Occurrence

/-- The name of a listener that ran. -/
def Fired.name : Fired → String
  | .observer name _ => name
  | .farewell name _ => name

/-- What a log tells of one kind of occurrence. -/
def told {α : Type} (f : Occurrence → Option α) (log : List Occurrence) : List α :=
  log.filterMap f

section Log

variable {α : Type} (f : Occurrence → Option α) (o : Occurrence) (log log' : List Occurrence)

@[simp] theorem told_nil : told f [] = [] := rfl

@[simp] theorem told_cons : told f (o :: log) = (f o).toList ++ told f log := by
  rw [told, List.filterMap_cons]
  cases f o <;> rfl

@[simp] theorem told_append : told f (log ++ log') = told f log ++ told f log' :=
  List.filterMap_append

theorem mem_told {f} {a : α} {o} {log} (ho : o ∈ log) (hf : f o = some a) : a ∈ told f log :=
  List.mem_filterMap.mpr ⟨o, ho, hf⟩

/-- The listeners that were added to the display. -/
abbrev enrolled : List ListenerId := told Occurrence.enrolled? log

/-- The listeners that were removed from the display. -/
abbrev struckOff : List ListenerId := told Occurrence.struckOff? log

/-- The listeners to the shutdown that ran. -/
abbrev ran : List ListenerId := told Occurrence.ran? log

/-- The exchanges that were torn down, each with those who heard of it. -/
abbrev endings : List (ListenerId × List (ListenerId × String)) := told Occurrence.ended? log

/-- The exchanges that were torn down. -/
abbrev ended : List ListenerId := (endings log).map Prod.fst

theorem ended_append : ended (log ++ log') = ended log ++ ended log' := by
  rw [ended, endings, told_append, List.map_append]

/-- The listeners that were added to the end of an exchange. -/
abbrev farewellsAdded (k : ListenerId) : List ListenerId :=
  told (Occurrence.farewellAdded? k) log

/-- The listeners that were removed from the end of an exchange. -/
abbrev farewellsRemoved (k : ListenerId) : List ListenerId :=
  told (Occurrence.farewellRemoved? k) log

/-- The listeners to the end of an exchange that ran, each with its exchange. -/
def farewellsRun : List (ListenerId × ListenerId) :=
  (endings log).flatMap (fun e => e.2.map (fun due => (e.1, due.1)))

/-- The names of those who ran. -/
def namesRun : List String := log.flatMap Occurrence.names

theorem namesRun_append : namesRun (log ++ log') = namesRun log ++ namesRun log' :=
  List.flatMap_append

end Log

/-! ## Histories -/

namespace Shell

/-- An exchange goes by the number of its own listener. -/
def number (s : Shell) : ListenerId := s.exchange.displayListener

/-- What its teardown will be on record as. -/
def ending (s : Shell) : Occurrence := .ended s.number s.exchange.farewells.listeners

end Shell

/-- A compositor, and the exchanges that are held elsewhere than in its slot. -/
structure Estate where
  compositor : Compositor := {}
  shelf : List Shell := []

namespace Estate

def display (w : Estate) : Display ShutdownListener := w.compositor.display

def slot (w : Estate) : Option Shell := w.compositor.scene.slot

/-- The exchanges that are held. -/
def held (w : Estate) : List Shell := w.slot.toList ++ w.shelf

/-- The same estate with other exchanges in the slot and on the shelf. -/
def arrange (w : Estate) (slot : Option Shell) (shelf : List Shell) : Estate where
  compositor := { w.compositor with scene := { w.compositor.scene with slot } }
  shelf := shelf

/-- The same estate with another display. -/
def under (w : Estate) (display : Display ShutdownListener) : Estate :=
  { w with compositor := { w.compositor with display } }

/-- Fills the slot, after doing what its exchange told the shell to do. -/
def hold (w : Estate) (s : Shell) : Estate :=
  { w with compositor := { w.compositor with scene := w.compositor.scene.hold s } }

/-- Starts an exchange that is not stored yet. -/
def create (w : Estate) (config : Config) (handles : HandleStream) (horizon : Nat) : Estate :=
  let (exchange, d) := Exchange.start w.display config handles .exchange
  { w.under d with shelf := { exchange, horizon } :: w.shelf }

/-- A listener to the shutdown runs. What it takes out of the slot is put on the shelf. -/
def hear (w : Estate) (e : ListenerId × ShutdownListener) : Estate where
  compositor := { w.compositor with scene := w.compositor.scene.run e.2 }
  shelf :=
    match e.2 with
    | .observer _ true => w.slot.toList ++ w.shelf
    | _ => w.shelf

/-- The display shuts down, and what was taken out of the slot is put on the shelf. -/
def shutDown (w : Estate) : Estate where
  compositor := w.compositor.terminate
  shelf := (w.display.shutdown.listeners.foldl hear w).shelf

/-- What happens when a listener runs. -/
def heard (w : Estate) (e : ListenerId × ShutdownListener) : List Occurrence :=
  .ran e.1 e.2 (w.slot.map Shell.number) ::
    match e.2 with
    | .exchange => w.slot.toList.map Shell.ending
    | .observer _ _ => []

/-- What happens when listeners run one after the other. -/
def tale : Estate → List (ListenerId × ShutdownListener) → List Occurrence
  | _, [] => []
  | w, e :: es => w.heard e ++ (w.hear e).tale es

/-- Nothing that concerns a listener. -/
inductive Shift (w : Estate) : Estate → Prop
  /-- An exchange is stored in the slot, in place of what was there. -/
  | store {l r : List Shell} {s : Shell} : w.shelf = l ++ s :: r →
      Shift w (w.arrange (some s) (l ++ w.slot.toList ++ r))
  | takeOut : Shift w (w.arrange none w.held)
  /-- Exchanges may be dropped without being destroyed. -/
  | dropExchange : Shift w { w with compositor := w.compositor.dropExchange.2 }
  | discard {l r : List Shell} {s : Shell} : w.shelf = l ++ s :: r →
      Shift w (w.arrange w.slot (l ++ r))
  | operate {op : Operation} {a : Answer} {c : Compositor} :
      w.compositor.operate? op = some (a, c) → Shift w { w with compositor := c }
  | setParent {change : ParentChange} {c : Compositor} :
      w.compositor.setParent? change = some c → Shift w { w with compositor := c }
  /-- Surfaces come and go. -/
  | reshape {s t : Shell} : w.slot = some s → t.exchange = s.exchange → Shift w (w.hold t)
  /-- Clients and globals come and go. -/
  | display {d : Display ShutdownListener} : d.shutdown = w.display.shutdown →
      d.terminated = w.display.terminated → Shift w (w.under d)
  /-- The display has shut down before. -/
  | terminate : w.display.terminated = true →
      Shift w { w with compositor := w.compositor.terminate }

/-- What can be done, and what happens to listeners when it is. What is done with an exchange is
done in the slot, with which the shelf can be swapped. -/
inductive Step (w : Estate) : List Occurrence → Estate → Prop
  | shift {w' : Estate} : Shift w w' → Step w [] w'
  /-- An exchange is started, and is not stored yet. -/
  | create (config : Config) (handles : HandleStream) (horizon : Nat) :
      Step w [.enrolled (w.display.addListener .exchange).1] (w.create config handles horizon)
  /-- An exchange is started in the slot, and what was there is dropped. -/
  | openExchange (config : Config) (script : List (Option Handle)) (exhausts : Bool) :
      Step w [.enrolled (w.display.addListener .exchange).1]
        { w with compositor := w.compositor.openExchange config script exhausts }
  | addListener (name : String) (takes : Bool) :
      Step w [.enrolled (w.display.addListener (.observer name takes)).1]
        (w.under (w.display.addListener (.observer name takes)).2)
  | removeListener (id : ListenerId) :
      Step w (if w.display.shutdown.contains id then [.struckOff id] else [])
        (w.under (w.display.removeListener id).2)
  | addFarewell {s : Shell} (name : String) : w.slot = some s →
      Step w [.farewellAdded s.number (s.exchange.addFarewell name).1]
        (w.hold { s with exchange := (s.exchange.addFarewell name).2 })
  | removeFarewell {s : Shell} (id : ListenerId) : w.slot = some s →
      Step w (if s.exchange.farewells.contains id then [.farewellRemoved s.number id] else [])
        (w.hold { s with exchange := (s.exchange.removeFarewell id).2 })
  | destroy {s : Shell} {c : Compositor} : w.slot = some s →
      w.compositor.destroyExchange? = some c →
      Step w ((if w.display.shutdown.contains s.number then [.struckOff s.number] else [])
          ++ [.destroyed s.number, s.ending])
        { w with compositor := c }
  | terminate : w.display.terminated = false →
      Step w (.shutDown :: w.tale w.display.shutdown.listeners) w.shutDown

end Estate

/-- What can have happened to listeners since there was a display, and what it has come to. -/
inductive History : List Occurrence → Estate → Prop
  | start : History [] {}
  | step {log os : List Occurrence} {w w' : Estate} :
      History log w → w.Step os w' → History (log ++ os) w'

end SurfaceExchange
