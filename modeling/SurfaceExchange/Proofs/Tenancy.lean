import SurfaceExchange.Proofs.Attendance
import SurfaceExchange.Proofs.LastWord
import SurfaceExchange.Proofs.Mooring

/-!
# What an exchange has on its display

A new exchange puts two globals and a listener on its display, under numbers
that the display gives once. So whatever happens to the display, what is filed
there under one of these numbers is the exchange's own (`Tenant`). The exchange
keeps the numbers from its start to its end, whatever happens to it, and
destroying it takes away what is filed under them and nothing else
(`destroy_display`).
-/

namespace SurfaceExchange

/-! ## Numbers that a display has given -/

namespace Display

variable {L : Type} {d d' : Display L} {g : Global} {l : L}

/-- Whatever is advertised under the number is this global. -/
structure OwnGlobal (d : Display L) (id : GlobalId) (g : Global) : Prop where
  given : id.val < d.nextGlobal
  own : ∀ g', d.globals.find? id = some g' → g' = g

/-- Whatever listens to the shutdown under the number is this listener. -/
structure OwnListener (d : Display L) (id : ListenerId) (l : L) : Prop where
  given : id.val < d.shutdown.nextId
  own : ∀ l', (id, l') ∈ d.shutdown.listeners → l' = l

theorem ownGlobal_advertise (d : Display L) (interface : String) (version : Nat) :
    (d.advertise interface version).2.OwnGlobal (d.advertise interface version).1
      ⟨interface, version⟩ where
  given := Nat.lt_succ_self _
  own g' hg := by
    have hnew : (d.advertise interface version).2.globals.find? ⟨d.nextGlobal⟩ =
        some ⟨interface, version⟩ := Table.find?_insert_self _ _ _
    exact Option.some.inj (hg.symm.trans hnew)

theorem ownListener_addListener (h : d.shutdown.Ordered) (l : L) :
    (d.addListener l).2.OwnListener (d.addListener l).1 l where
  given := Nat.lt_succ_self _
  own l' hl := by
    rcases List.mem_append.mp hl with hl | hl
    · exact absurd (h.given _ hl) (Nat.lt_irrefl _)
    · exact (Prod.mk.inj (List.mem_singleton.mp hl)).2

theorem Move.ordered (hmove : d.Move d') (h : d.shutdown.Ordered) : d'.shutdown.Ordered := by
  cases hmove with
  | addListener l => exact h.add l
  | removeListener id => exact h.remove id
  | terminate run s =>
    unfold Display.terminate
    split
    · exact h
    · exact Signal.ordered_drain _
  | _ => exact h

theorem Move.ownGlobal {id : GlobalId} (hmove : d.Move d') (h : d.OwnGlobal id g) :
    d'.OwnGlobal id g := by
  cases hmove with
  | advertise interface version =>
    refine ⟨Nat.lt_succ_of_lt h.given, fun g' hg => ?_⟩
    rcases Table.of_find?_insert hg with ⟨rfl, -⟩ | hg
    · exact absurd h.given (Nat.lt_irrefl _)
    · exact h.own g' hg
  | withdraw id' => exact ⟨h.given, fun g' hg => h.own g' (Table.of_find?_erase hg)⟩
  | terminate run s =>
    unfold Display.terminate
    split
    · exact h
    · exact ⟨h.given, nofun⟩
  | _ => exact ⟨h.given, h.own⟩

theorem Move.ownListener {id : ListenerId} (hmove : d.Move d') (h : d.OwnListener id l) :
    d'.OwnListener id l := by
  cases hmove with
  | addListener l' =>
    refine ⟨Nat.lt_succ_of_lt h.given, fun l'' hl => ?_⟩
    rcases List.mem_append.mp hl with hl | hl
    · exact h.own l'' hl
    · obtain ⟨rfl, -⟩ := Prod.mk.inj (List.mem_singleton.mp hl)
      exact absurd h.given (Nat.lt_irrefl _)
  | removeListener id' => exact ⟨h.given, fun l' hl => h.own l' (List.eraseP_sublist.mem hl)⟩
  | terminate run s =>
    unfold Display.terminate
    split
    · exact h
    · exact ⟨h.given, nofun⟩
  | _ => exact ⟨h.given, h.own⟩

theorem Moves.ordered (hmoves : d.Moves d') (h : d.shutdown.Ordered) : d'.shutdown.Ordered := by
  induction hmoves with
  | refl => exact h
  | tail _ hmove ih => exact hmove.ordered ih

end Display

/-! ## An exchange and its display -/

namespace Exchange

variable {L : Type} {x y : Exchange} {d d' : Display L} {l : L}

/-- What is filed on the display under the numbers of the exchange is its own. -/
structure Tenant (x : Exchange) (d : Display L) (l : L) : Prop where
  exporterGlobal : d.OwnGlobal x.exporterGlobal ⟨exporterInterface, x.config.offeredVersion⟩
  importerGlobal : d.OwnGlobal x.importerGlobal ⟨importerInterface, x.config.offeredVersion⟩
  apart : x.exporterGlobal ≠ x.importerGlobal
  listener : d.OwnListener x.displayListener l
  ordered : d.shutdown.Ordered

theorem tenant_start (h : d.shutdown.Ordered) (config : Config) (handles : HandleStream) (l : L) :
    (start d config handles l).1.Tenant (start d config handles l).2 l where
  exporterGlobal := (Display.Move.addListener l).ownGlobal
    ((Display.Move.advertise _ _).ownGlobal (d.ownGlobal_advertise _ _))
  importerGlobal := (Display.Move.addListener l).ownGlobal (Display.ownGlobal_advertise _ _ _)
  apart heq := by
    have hval : d.nextGlobal = d.nextGlobal + 1 := congrArg GlobalId.val heq
    omega
  listener := Display.ownListener_addListener
    (d := ((d.advertise exporterInterface _).2.advertise importerInterface _).2) h l
  ordered := h.add l

/-- A tenant stays one whatever happens to the display. -/
theorem Tenant.moves (h : x.Tenant d l) (hmoves : d.Moves d') : x.Tenant d' l := by
  induction hmoves with
  | refl => exact h
  | tail _ hmove ih =>
    exact ⟨hmove.ownGlobal ih.exporterGlobal, hmove.ownGlobal ih.importerGlobal, ih.apart,
      hmove.ownListener ih.listener, hmove.ordered ih.ordered⟩

/-- What an exchange keeps from its start to its end. -/
def lease (x : Exchange) : Config × GlobalId × GlobalId × ListenerId :=
  (x.config, x.exporterGlobal, x.importerGlobal, x.displayListener)

theorem Run.lease {ts : List (Transition L)} (hrun : Run x ts y) : y.lease = x.lease := by
  induction hrun with
  | start => rfl
  | perform t _ hvalid ih =>
    have hberth := (perform_moored hvalid).berth
    exact (congrArg (fun b : Berth => (b.config, b.exporterGlobal, b.importerGlobal,
      b.displayListener)) hberth).trans ih
  | aside _ haside ih => cases haside <;> exact ih

/-- A tenant stays one whatever happens to the exchange. -/
theorem Tenant.run {L' : Type} {ts : List (Transition L')} (h : x.Tenant d l)
    (hrun : Run x ts y) : y.Tenant d l := by
  have hlease := hrun.lease
  simp only [Exchange.lease, Prod.mk.injEq] at hlease
  obtain ⟨hconfig, hexporter, himporter, hlistener⟩ := hlease
  constructor
  · rw [hexporter, hconfig]
    exact h.exporterGlobal
  · rw [himporter, hconfig]
    exact h.importerGlobal
  · rw [hexporter, himporter]
    exact h.apart
  · rw [hlistener]
    exact h.listener
  · exact h.ordered

/-- Listeners to the end of an exchange stand in the order in which they were added. -/
theorem Run.farewells_ordered {ts : List (Transition L)} (hrun : Run x ts y)
    (h : x.farewells.Ordered) : y.farewells.Ordered := by
  induction hrun with
  | start => exact h
  | perform t _ hvalid ih =>
    rw [show t.after.farewells = t.before.farewells from
      congrArg Berth.farewells (perform_moored hvalid).berth]
    exact ih
  | aside _ haside ih =>
    cases haside with
    | takeParentChanges => exact ih
    | addFarewell name => exact ih.add name
    | removeFarewell id => exact ih.remove id

/-- Destroying an exchange takes its globals and its listener off the display and leaves all else
there as it is. -/
theorem destroy_display (x : Exchange) (h : d.shutdown.Ordered) :
    (x.destroy d).2.2 = { d with
      globals := d.globals.filter
        (fun id _ => decide (id ≠ x.exporterGlobal ∧ id ≠ x.importerGlobal))
      shutdown := { d.shutdown with
        listeners := d.shutdown.listeners.filter
          (fun e => decide (e.1 ≠ x.displayListener)) } } := by
  have hglobals : (d.globals.erase x.exporterGlobal).erase x.importerGlobal =
      d.globals.filter (fun id _ => decide (id ≠ x.exporterGlobal ∧ id ≠ x.importerGlobal)) := by
    rw [Table.erase, Table.erase, Table.filter_filter]
    simp only [Bool.decide_and]
  rw [← hglobals, ← h.listeners_remove]
  rfl

end Exchange

end SurfaceExchange
