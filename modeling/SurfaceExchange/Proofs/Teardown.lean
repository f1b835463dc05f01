import SurfaceExchange.Proofs.Reparenting
import SurfaceExchange.Proofs.Shutdown
import SurfaceExchange.Proofs.Tenancy

/-!
# The end of an exchange

A teardown takes the importers away first. All links go with them, one after
the other in the order of the tables, and the shell is told to clear the parent
of each (`Sound.disbanded`). The exports that are left have no imports then, so
when the exporters follow, nobody is told of anything (`Sound.tornDown`).

An exchange is destroyed by whoever holds it, or torn down by the listener that
finds it in the slot when the display shuts down. Either way the same parents
are cleared, and then the same listeners run in the same order
(`ends_cleanly`).
-/

namespace SurfaceExchange

namespace Exchange

variable {x y : Exchange}

/-- All links, importer by importer and import by import, in the order of their declaration. -/
def allLinks (x : Exchange) : List ChildLink :=
  x.importers.keys.flatMap fun m => (x.ownImports m).flatMap fun p => p.2.children

/-- The exchange when its exporters are gone too. -/
def dissolve (x : Exchange) : Exchange :=
  x.disband.exporters.keys.foldl (retireExporter · · .nothing) x.disband

theorem teardown_eq (x : Exchange) :
    x.teardown.2 = { x.dissolve with farewells := x.dissolve.farewells.drain.2 } := rfl

/-- Nothing is left of imports, and of exports all but their lists of imports. -/
structure Disbanded (x y : Exchange) : Prop where
  importers : y.importers = .empty
  imports : y.imports = .empty
  exporters : y.exporters = x.exporters
  exports : y.exports.keys = x.exports.keys
  inertImports : y.inertImports = x.inertImports
  inertExports : y.inertExports = x.inertExports
  events : y.events = x.events
  parentChanges : y.parentChanges = x.parentChanges ++ x.allLinks.map ChildLink.parting

/-- Nothing is left but what is inert. -/
structure TornDown (x y : Exchange) : Prop where
  importers : y.importers = .empty
  exporters : y.exporters = .empty
  imports : y.imports = .empty
  exports : y.exports = .empty
  inertImports : y.inertImports = x.inertImports
  inertExports : y.inertExports = x.inertExports
  subscriptions : y.subscriptions.surfaces = .empty
  events : y.events = x.events
  parentChanges : y.parentChanges = x.parentChanges ++ x.allLinks.map ChildLink.parting
  farewells : y.farewells.listeners = []

/-! ## Links in order -/

/-- Every live import is made through an importer that is live. -/
theorem Registered.allImports (h : x.Registered) :
    x.importers.keys.flatMap x.ownImports = x.imports.toList := by
  refine Table.flatMap_all_groups x.importers.keys_ascending x.imports ImportId.importer
    (fun a b hab => (ImportId.lt_iff a b).mpr (Or.inl hab)) fun p hp => ?_
  obtain ⟨g, hg, -⟩ := h.importer_of_import ((x.imports.mem_toList_iff p.1 p.2).mp hp)
  exact (x.importers.mem_keys_iff _).mpr (Option.isSome_of_eq_some hg)

/-- Every live export is made through an exporter that is live. -/
theorem Registered.allExports (h : x.Registered) :
    x.exporters.keys.flatMap x.ownExports = x.exports.toList := by
  refine Table.flatMap_all_groups x.exporters.keys_ascending x.exports ExportId.exporter
    (fun a b hab => (ExportId.lt_iff a b).mpr (Or.inl hab)) fun p hp => ?_
  obtain ⟨g, hg, -⟩ := h.exporter_of_export ((x.exports.mem_toList_iff p.1 p.2).mp hp)
  exact (x.exporters.mem_keys_iff _).mpr (Option.isSome_of_eq_some hg)

theorem Registered.allLinks_eq (h : x.Registered) :
    x.allLinks = x.imports.toList.flatMap fun p => p.2.children := by
  rw [← h.allImports, allLinks, List.flatMap_assoc]

theorem Registered.mem_allLinks_iff (h : x.Registered) (l : ChildLink) :
    l ∈ x.allLinks ↔ ∃ i r, x.imports.find? i = some r ∧ l ∈ r.children := by
  rw [h.allLinks_eq, List.mem_flatMap]
  constructor
  · rintro ⟨⟨i, r⟩, hi, hl⟩
    exact ⟨i, r, (x.imports.mem_toList_iff i r).mp hi, hl⟩
  · rintro ⟨i, r, hi, hl⟩
    exact ⟨(i, r), (x.imports.mem_toList_iff i r).mpr hi, hl⟩

/-- No surface is cleared twice. -/
theorem Sound.allLinks_nodup (h : x.Sound) : (x.allLinks.map ChildLink.surface).Nodup := by
  have hlinks := h.coherent.links
  rw [h.registered.allLinks_eq, List.map_flatMap, List.nodup_flatMap]
  refine ⟨fun p hp => hlinks.surfaces_nodup ((x.imports.mem_toList_iff p.1 p.2).mp hp), ?_⟩
  refine (List.pairwise_map.mp x.imports.keys_nodup).imp_of_mem fun {p q} hp hq hne c hc hc' => ?_
  obtain ⟨l, hl, rfl⟩ := List.mem_map.mp hc
  obtain ⟨m, hm, hlm⟩ := List.mem_map.mp hc'
  exact hne (hlinks.oneParent ((x.imports.mem_toList_iff p.1 p.2).mp hp)
    ((x.imports.mem_toList_iff q.1 q.2).mp hq) hl hm hlm.symm)

/-! ## The importers go -/

theorem Sound.disbanded (h : x.Sound) : x.Disbanded x.disband := by
  have hps := h.registered.allImports
  have hlive : ∀ m ∈ x.importers.keys, (x.importers.find? m).isSome := fun m hm =>
    (x.importers.mem_keys_iff m).mp hm
  rw [disband, foldl_retireImporter_eq h.coherent x.importers.keys_nodup hlive, hps]
  constructor
  case importers => exact x.importers.filter_not_mem_keys
  case imports => exact x.imports.filter_not_mem_keys
  case exports => exact Table.keys_mapValues _ _
  case parentChanges =>
    rw [h.registered.allLinks_eq]
    rfl
  all_goals rfl

/-! ## The exporters follow -/

/-- Without imports no export has any. -/
theorem Disbanded.importersOf_eq_nil (h : x.Disbanded y) (hy : y.Coherent)
    {ps : List (ExportId × Export)} (hps : ∀ p ∈ ps, y.exports.find? p.1 = some p.2) :
    importersOf ps = [] := by
  refine List.flatMap_eq_nil_iff.mpr fun p hp => List.eq_nil_iff_forall_not_mem.mpr fun i hi => ?_
  obtain ⟨r, hr, -⟩ := hy.links.resolved (hps p hp) hi
  rw [h.imports] at hr
  cases hr

/-- Nobody listens to anything when there is nothing to listen for. -/
theorem Coherent.surfaces_eq_empty (h : x.Coherent) (hexports : x.exports = .empty)
    (himports : x.imports = .empty) : x.subscriptions.surfaces = .empty := by
  refine h.watched.wellFormed.surfaces_eq_empty_iff.mpr ?_
  refine List.eq_nil_iff_forall_not_mem.mpr fun ⟨t, w⟩ htw => ?_
  have hholds := h.watched.listens_iff.mp ((Subscriptions.mem_entries_iff t w).mp htw)
  rw [hexports, himports] at hholds
  cases hholds with
  | exportUnmap he => cases he
  | childUnmap hi => cases hi
  | childSetParent hi => cases hi

theorem Sound.tornDown (h : x.Sound) : x.TornDown x.teardown.2 := by
  have hdisbanded := h.disbanded
  have hsound := h.frees_disband.1
  have hcoherent := h.frees_teardown.1.coherent
  rw [teardown_eq] at hcoherent ⊢
  have hlive : ∀ q ∈ x.disband.exporters.keys, (x.disband.exporters.find? q).isSome := fun q hq =>
    (x.disband.exporters.mem_keys_iff q).mp hq
  have hps := hsound.registered.allExports
  have hnobody : importersOf x.disband.exports.toList = [] :=
    hdisbanded.importersOf_eq_nil hsound.coherent fun p hp =>
      (x.disband.exports.mem_toList_iff p.1 p.2).mp hp
  have hdissolve := foldl_retireExporter_eq hsound.coherent
    x.disband.exporters.keys_nodup hlive
  rw [hps, ← dissolve] at hdissolve
  rw [hdissolve] at hcoherent ⊢
  have hexports : (x.disband.dropExports x.disband.exports.toList).exports = .empty :=
    x.disband.exports.filter_not_mem_keys
  have himports : (x.disband.dropExports x.disband.exports.toList).imports = .empty := by
    refine Table.ext_find? fun i => ?_
    rw [Exchange.dropExports, find?_imports_sever, hdisbanded.imports]
    rfl
  have hevents : (x.disband.dropExports x.disband.exports.toList).events = x.events := by
    rw [Exchange.dropExports, hnobody]
    exact (List.append_nil _).trans hdisbanded.events
  have hparents : (x.disband.dropExports x.disband.exports.toList).parentChanges =
      x.disband.parentChanges := by
    rw [Exchange.dropExports, hnobody]
    exact List.append_nil _
  constructor
  case importers => exact hdisbanded.importers
  case exporters => exact x.disband.exporters.filter_not_mem_keys
  case imports => exact himports
  case exports => exact hexports
  case inertImports => exact hdisbanded.inertImports
  case inertExports => exact hdisbanded.inertExports
  case subscriptions => exact hcoherent.surfaces_eq_empty hexports himports
  case events => exact hevents
  case parentChanges => exact hparents.trans hdisbanded.parentChanges
  case farewells => rfl

end Exchange

/-! ## In a compositor -/

/-- Somebody who leaves the slot as it is. -/
def ShutdownListener.onlooks : ShutdownListener → Bool
  | .exchange => false
  | .observer _ takes => !takes

def Fired.isFarewell : Fired → Bool
  | .observer _ _ => false
  | .farewell _ _ => true

namespace Scene

variable {s : Scene} {x : Exchange} {l : ShutdownListener}
  {es : List (ListenerId × ShutdownListener)}

/-- What an observer puts on record. -/
def sighting (s : Scene) : ShutdownListener → List Fired
  | .exchange => []
  | .observer name _ => [.observer name (s.slot.map (·.exchange.exports.size))]

/-- The observers among the listeners put on record what they see. -/
def watch (s : Scene) (es : List (ListenerId × ShutdownListener)) : Scene :=
  { s with fired := s.fired ++ es.flatMap fun e => s.sighting e.2 }

/-- The slot is empty, the shell is told what it was not told yet and then that each child of the
exchange has no parent any more, and after that the listeners to its end have run. -/
def bury (s : Scene) (x : Exchange) : Scene where
  slot := none
  changes := s.changes ++ (x.parentChanges ++ x.allLinks.map ChildLink.parting)
  fired := s.fired ++ x.farewells.listeners.map fun e =>
    .farewell e.2 (s.changes ++ (x.parentChanges ++ x.allLinks.map ChildLink.parting)).length

/-- A listener changes nothing but the record if it leaves the slot as it is or finds nothing. -/
theorem run_eq_watch (h : s.slot = none ∨ l.onlooks = true) (id : ListenerId) :
    s.run l = s.watch [(id, l)] := by
  cases l with
  | exchange =>
    have hs : s.slot = none := h.resolve_right Bool.false_ne_true
    have hidle : s.tearDown = s := by rw [tearDown, hs]
    simp [run, hidle, watch, sighting]
  | observer name takes =>
    rcases h with hs | hl
    · simp [run, watch, sighting, hs]
    · have htakes : takes = false := by simpa [ShutdownListener.onlooks] using hl
      simp [run, watch, sighting, htakes]

theorem watch_cons (s : Scene) (e : ListenerId × ShutdownListener) :
    (s.watch [e]).watch es = s.watch (e :: es) := by
  simp [watch, sighting]

theorem foldl_run_eq_watch (h : s.slot = none ∨ ∀ e ∈ es, e.2.onlooks = true) :
    es.foldl (fun s e => s.run e.2) s = s.watch es := by
  induction es generalizing s with
  | nil => simp [watch]
  | cons e es ih =>
    have hhead : s.slot = none ∨ e.2.onlooks = true := h.imp_right fun h => h e List.mem_cons_self
    have htail : (s.watch [e]).slot = none ∨ ∀ e ∈ es, e.2.onlooks = true :=
      h.imp_right fun h e he => h e (List.mem_cons_of_mem _ he)
    rw [List.foldl_cons, run_eq_watch hhead e.1, ih htail, watch_cons]

/-- Observers do not say farewell. -/
theorem farewells_watch (s : Scene) (es : List (ListenerId × ShutdownListener)) :
    (s.watch es).fired.filter Fired.isFarewell = s.fired.filter Fired.isFarewell := by
  have hnone : (es.flatMap fun e => s.sighting e.2).filter Fired.isFarewell = [] := by
    refine List.filter_eq_nil_iff.mpr fun f hf => ?_
    obtain ⟨⟨id, l⟩, -, hf⟩ := List.mem_flatMap.mp hf
    cases l with
    | exchange => cases hf
    | observer name takes =>
      rw [List.mem_singleton.mp hf]
      exact Bool.false_ne_true
  rw [watch, List.filter_append, hnone, List.append_nil]

theorem farewell_eq_bury (h : x.Sound) (s : Scene) :
    ({ s with slot := none } : Scene).farewell x.teardown.2 x.teardown.1 = s.bury x := by
  simp [farewell, bury, h.tornDown.parentChanges, Exchange.teardown_due]

theorem tearDown_eq_bury {shell : Shell} (h : shell.exchange.Sound) (hs : s.slot = some shell) :
    s.tearDown = s.bury shell.exchange := by
  rw [← farewell_eq_bury h, tearDown, hs]

end Scene

namespace Compositor

variable {c : Compositor} {shell : Shell}

theorem destroyExchange_eq (h : shell.exchange.Sound) (hs : c.scene.slot = some shell) :
    c.destroyExchange? =
      some ⟨(shell.exchange.destroy c.display).2.2, c.scene.bury shell.exchange⟩ := by
  rw [← Scene.farewell_eq_bury h, destroyExchange?, shell?, hs]
  rfl

/-- The first listener that does not leave the slot as it is tears down what it finds there. -/
theorem scene_terminate_eq (h : shell.exchange.Sound) (hs : c.scene.slot = some shell)
    (hterminated : c.display.terminated = false) {k : ListenerId}
    {before after : List (ListenerId × ShutdownListener)}
    (hlisteners : c.display.shutdown.listeners = before ++ (k, .exchange) :: after)
    (hbefore : ∀ e ∈ before, e.2.onlooks = true) :
    c.terminate.scene = ((c.scene.watch before).bury shell.exchange).watch after := by
  have hrun : c.terminate.scene =
      c.display.shutdown.listeners.foldl (fun s e => s.run e.2) c.scene := by
    rw [terminate, Display.terminate, if_neg (by simp [hterminated])]
    rfl
  have hslot : (c.scene.watch before).slot = some shell := hs
  rw [hrun, hlisteners, List.foldl_append, List.foldl_cons,
    Scene.foldl_run_eq_watch (Or.inr hbefore)]
  have htorn : (c.scene.watch before).run .exchange =
      (c.scene.watch before).bury shell.exchange := Scene.tearDown_eq_bury h hslot
  rw [htorn, Scene.foldl_run_eq_watch (Or.inl rfl)]

end Compositor

namespace Exchange

variable {L : Type} {x : Exchange}

/-- What can be told of the end of an exchange that is on a display. -/
structure EndsCleanly (x : Exchange) (d : Display L) (l : L) : Prop where
  /-- What the display has under the numbers of the exchange is the exchange's own, if it is there
  still. -/
  tenant : x.Tenant d l
  /-- Two globals and a listener are withdrawn. Nothing else on the display changes. -/
  display : (x.destroy d).2.2 = { d with
    globals := d.globals.filter
      (fun id _ => decide (id ≠ x.exporterGlobal ∧ id ≠ x.importerGlobal))
    shutdown := { d.shutdown with
      listeners := d.shutdown.listeners.filter (fun e => decide (e.1 ≠ x.displayListener)) } }
  /-- The importers go before the exporters. -/
  order : (x.destroy d).2.1 = { x.dissolve with farewells := x.dissolve.farewells.drain.2 }
  /-- With the importers gone all exports are there still, and all parents are cleared. -/
  disbanded : x.Disbanded x.disband
  /-- In the end nothing is left, and no client was told. -/
  tornDown : x.TornDown (x.destroy d).2.1
  /-- The parents that are cleared are those of the children of live imports. -/
  links : ∀ k, k ∈ x.allLinks ↔ ∃ i r, x.imports.find? i = some r ∧ k ∈ r.children
  /-- No surface is cleared twice. -/
  once : (x.allLinks.map ChildLink.surface).Nodup
  /-- Due are those who listen, in the order in which they were added. -/
  due : (x.destroy d).1 = x.farewells.listeners.map Prod.snd
  added : x.farewells.Ordered
  /-- Whoever holds the exchange destroys it. -/
  destroyed : ∀ (c : Compositor) shell, c.scene.slot = some shell → shell.exchange = x →
    c.destroyExchange? = some ⟨(x.destroy c.display).2.2, c.scene.bury x⟩
  /-- The listener of an exchange finds it in the slot when the display shuts down, before anybody
  has emptied the slot. The shell is told the same then, and the same listeners run. -/
  shutDown : ∀ (c : Compositor) shell, c.scene.slot = some shell → shell.exchange = x →
    c.display.terminated = false → ∀ before k after,
      c.display.shutdown.listeners = before ++ (k, .exchange) :: after →
      (∀ e ∈ before, e.2.onlooks = true) →
      c.terminate.scene = ((c.scene.watch before).bury x).watch after ∧
      c.terminate.scene.changes = (c.scene.bury x).changes ∧
      c.terminate.scene.fired.filter Fired.isFarewell =
        (c.scene.bury x).fired.filter Fired.isFarewell

/-- However an exchange and its display came to be what they are, the exchange ends cleanly. -/
theorem ends_cleanly {L' : Type} {d₀ d : Display L} {config : Config} {handles : HandleStream}
    {l : L} {ts : List (Transition L')} (hdisplay : Display.empty.Moves d₀)
    (hrun : Run (start d₀ config handles l).1 ts x)
    (hmoves : (start d₀ config handles l).2.Moves d) : x.EndsCleanly d l := by
  have htenant : x.Tenant d l :=
    ((tenant_start (hdisplay.ordered Signal.ordered_empty) config handles l).moves hmoves).run hrun
  have hsound : x.Sound := hrun.sound (sound_start d₀ config handles l)
  refine
    { tenant := htenant
      display := x.destroy_display htenant.ordered
      order := rfl
      disbanded := hsound.disbanded
      tornDown := hsound.tornDown
      links := hsound.registered.mem_allLinks_iff
      once := hsound.allLinks_nodup
      due := x.teardown_due
      added := hrun.farewells_ordered Signal.ordered_empty
      destroyed := ?destroyed
      shutDown := ?shutDown }
  case destroyed =>
    rintro c shell hs rfl
    exact Compositor.destroyExchange_eq hsound hs
  case shutDown =>
    rintro c shell hs rfl hterminated before k after hlisteners hbefore
    have hscene := Compositor.scene_terminate_eq hsound hs hterminated hlisteners hbefore
    refine ⟨hscene, by rw [hscene]; rfl, ?_⟩
    rw [hscene, Scene.farewells_watch]
    simp only [Scene.bury, List.filter_append, Scene.farewells_watch]
    rfl

/-- A display with two clients. -/
def lobby : Display ShutdownListener := Display.empty.connect.2.connect.2

/-- The handle of a shared surface is drawn from these. -/
def lobbyHandles : HandleStream :=
  .scripted [some ⟨"first"⟩, some ⟨"second"⟩, some ⟨"third"⟩] true

/-- An exchange with a child and with two listeners to its end. -/
def attended : Exchange := (((rehearse sharing).2.addFarewell "first").2.addFarewell "second").2

/-- It is on a display that somebody else listens to. -/
def attendedDisplay : Display ShutdownListener :=
  ((start lobby {} lobbyHandles .exchange).2.addListener (.observer "late" true)).2

def attendance : Compositor where
  display := attendedDisplay
  scene := { slot := some { exchange := attended, horizon := 3 } }

/-- Destroyed or shut down, the exchange clears the parent of its child. Both listeners to its end
run when the shell has been told of that. -/
theorem ends_cleanly_attended : Display.empty.Moves lobby ∧
    Run (start lobby {} lobbyHandles .exchange).1 (rehearse sharing).1 attended ∧
    (start lobby {} lobbyHandles .exchange).2.Moves attendedDisplay ∧
    attended.allLinks.map ChildLink.surface = [⟨7⟩] ∧
    (attended.destroy attendedDisplay).2.2.globals = .empty ∧
    (attended.destroy attendedDisplay).2.2.shutdown.listeners = [(⟨2⟩, .observer "late" true)] ∧
    (attended.destroy attendedDisplay).2.1.exports = .empty ∧
    attendance.destroyExchange?.map (·.scene.fired) =
      some [.farewell "first" 2, .farewell "second" 2] ∧
    attendance.terminate.scene.changes = [⟨⟨7⟩, some ⟨5⟩⟩, ⟨⟨7⟩, none⟩] ∧
    attendance.terminate.scene.fired =
      [.farewell "first" 2, .farewell "second" 2, .observer "late" none] := by
  have hdisplay : Display.empty.Moves lobby := (Relation.ReflTransGen.single .connect).tail .connect
  have hrun : Run (start lobby {} lobbyHandles .exchange).1 (rehearse sharing).1 attended :=
    ((run_rehearse sharing).aside (.addFarewell "first")).aside (.addFarewell "second")
  have hmoves : (start lobby {} lobbyHandles .exchange).2.Moves attendedDisplay :=
    .single (.addListener _)
  have hends := ends_cleanly hdisplay hrun hmoves
  obtain ⟨hscene, hchanges, -⟩ := hends.shutDown attendance _ rfl rfl rfl [] ⟨1⟩
    [(⟨2⟩, .observer "late" true)] rfl nofun
  refine ⟨hdisplay, hrun, hmoves, rfl, ?_, ?_, hends.tornDown.exports, ?_, ?_, ?_⟩
  · rw [hends.display]
    rfl
  · rw [hends.display]
    rfl
  · rw [hends.destroyed attendance _ rfl rfl]
    rfl
  · rw [hchanges]
    rfl
  · rw [hscene]
    rfl

end Exchange

end SurfaceExchange
