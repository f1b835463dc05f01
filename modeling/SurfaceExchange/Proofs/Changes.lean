import Mathlib.Logic.Relation
import SurfaceExchange.Exchange.Operation
import SurfaceExchange.Proofs.Fading

/-!
# What an operation changes

Every operation comes to a `Change`: an export or an import is made, imports
are given up, a client goes, events are taken, or the exchange ebbs. `Ebb` is
a change without any of that, and operations that cascade are made of several.
A change keeps an exchange sound, and so whatever holds of every change holds
of every operation.
-/

namespace SurfaceExchange

namespace Request

/-- The operation that a request asks for. -/
def operation : Request → Operation
  | .exporter id .destroy => .destroyExporter id
  | .exporter id (.exportSurface s) => .exportSurface id s
  | .exported id .destroy => .destroyExport id
  | .importer id .destroy => .destroyImporter id
  | .importer id (.importHandle h) => .importHandle id h
  | .imported id .destroy => .destroyImport id
  | .imported id (.setParentOf s) => .setParentOf id s

end Request

namespace Operation

/-- The operation itself, or what a dispatched request asks for. -/
def direct : Operation → Operation
  | .dispatch _ r => r.operation
  | op => op

/-- The handle that an operation imports. -/
def handle? (op : Operation) : Option String :=
  match op.direct with
  | .importHandle _ h => some h
  | _ => none

end Operation

namespace Answer

/-- The object that was made. -/
def made? : Answer → Option ObjectId
  | .outcome (.ok o) => o
  | _ => none

/-- The events that were taken. -/
def taken : Answer → List Delivery
  | .events ds => ds
  | _ => []

/-- No export or import was made and no event taken. -/
structure Plain (a : Answer) : Prop where
  no_export : ∀ e, a.made? ≠ some (.exported e)
  no_import : ∀ i, a.made? ≠ some (.imported i)
  taken : a.taken = []

theorem plain_silent : silent.Plain := ⟨nofun, nofun, rfl⟩

theorem plain_error (e : RequestError) : (outcome (.error e)).Plain := ⟨nofun, nofun, rfl⟩

theorem plain_exporter (p : ExporterId) : (outcome (.ok (some (.exporter p)))).Plain :=
  ⟨nofun, nofun, rfl⟩

theorem plain_importer (m : ImporterId) : (outcome (.ok (some (.importer m)))).Plain :=
  ⟨nofun, nofun, rfl⟩

theorem made?_withoutObject (res : Except RequestError Unit) :
    (outcome (res.map (fun _ => none))).made? = none := by
  cases res <;> rfl

theorem plain_withoutObject (res : Except RequestError Unit) :
    (outcome (res.map (fun _ => none))).Plain := by
  cases res <;> exact ⟨nofun, nofun, rfl⟩

end Answer

namespace Exchange

variable {x y z : Exchange}

/-- A change in which no export or import is made and no import goes. -/
inductive Ebb (x : Exchange) : Exchange → Prop
  | draw (handles : HandleStream) : Ebb x { x with handles }
  | tell (surface : SurfaceId) (parent : Option SurfaceId) : Ebb x (x.tell surface parent)
  | addExporter (g : Registry) : Ebb x { x with
      nextId := x.nextId + 1
      exporters := x.exporters.insert ⟨x.nextId⟩ g
      ownership := x.ownership.track g.client (.exporter ⟨x.nextId⟩) }
  | addImporter (g : Registry) : Ebb x { x with
      nextId := x.nextId + 1
      importers := x.importers.insert ⟨x.nextId⟩ g
      ownership := x.ownership.track g.client (.importer ⟨x.nextId⟩) }
  | attach {i r c} : x.imports.find? i = some r → r.source ≠ none → ¬ x.IsChild c →
      Ebb x (x.attach i c)
  | disown {i r l} : x.imports.find? i = some r → l ∈ r.children →
      Ebb x (x.disown l.surface l.tokens)
  | retireExport (e : ExportId) (left : Remnant) : Ebb x (x.retireExport e left)
  | retireExporter (p : ExporterId) : Ebb x (x.retireExporter p .inert)
  | releaseExport {e c} : x.inertExports.find? e = some c →
      Ebb x ({ x with inertExports := x.inertExports.erase e }.untrack c (.exported e))
  | releaseImport {i c} : x.inertImports.find? i = some c →
      Ebb x ({ x with inertImports := x.inertImports.erase i }.untrack c (.imported i))

/-- Ebbs one after the other. -/
abbrev Ebbs : Exchange → Exchange → Prop := Relation.ReflTransGen Ebb

/-- What an operation may do to an exchange, and what it answers then. -/
inductive Change (x : Exchange) (op : Operation) : Answer → Exchange → Prop
  | ebbs {a y} : Ebbs x y → a.Plain → Change x op a y
  | takeEvents : Change x op (.events x.events) { x with events := [] }
  | addExport {p g} (handles : HandleStream) (surface : SurfaceId) {handle : Handle} :
      x.exporters.find? p = some g →
      Config.reached x.config.maxExports (x.ownership.counts g.client).exports = false →
      x.isTaken handle = false →
      Change x op (.outcome (.ok (some (.exported ⟨p, x.nextId⟩))))
        ({ x with handles }.addExport p g surface handle).2
  | addImport {m g handle} : x.importers.find? m = some g →
      Config.reached x.config.maxImports (x.ownership.counts g.client).imports = false →
      op.handle? = some handle →
      Change x op (.outcome (.ok (some (.imported ⟨m, x.nextId⟩)))) (x.addImport m g handle).2
  | retireImport (i : ImportId) : Change x op (.outcome (.ok none)) (x.retireImport i .nothing)
  | retireImporter (m : ImporterId) :
      Change x op (.outcome (.ok none)) (x.retireImporter m .inert)
  | clientGone (c : ClientId) : Change x op .silent (x.clientGone c)
  | expel {a} (handles : HandleStream) (c : ClientId) (e : ProtocolError) : a.Plain →
      Change x op a (({ x with handles }.send c (.error e)).clientGone c)

/-! ## Changes keep an exchange sound -/

theorem Ebb.sound (h : x.Sound) (hxy : Ebb x y) : y.Sound := by
  cases hxy with
  | draw handles => exact h.congr rfl rfl rfl rfl rfl rfl rfl rfl rfl
  | tell surface parent => exact h.congr rfl rfl rfl rfl rfl rfl rfl rfl rfl
  | addExporter g => exact h.addExporter g
  | addImporter g => exact h.addImporter g
  | attach hi hs hc =>
    exact ⟨h.coherent.attach hi hs hc,
      h.registered.congr (clientOf?_attach _ _) (fun o => by cases o <;> rfl) rfl rfl⟩
  | disown hi hl =>
    exact ⟨h.coherent.disown hi hl,
      h.registered.congr (clientOf?_disown _ _) (fun o => by cases o <;> rfl) rfl rfl⟩
  | retireExport e left => exact h.retireExport e left
  | retireExporter p => exact h.retireExporter p .inert
  | releaseExport hc => exact h.releaseExport hc
  | releaseImport hc => exact h.releaseImport hc

theorem Ebbs.sound (h : x.Sound) (hxy : Ebbs x y) : y.Sound := by
  induction hxy with
  | refl => exact h
  | tail _ hstep ih => exact hstep.sound ih

theorem Change.sound {op : Operation} {a : Answer} (h : x.Sound) (hxy : Change x op a y) :
    y.Sound := by
  cases hxy with
  | ebbs hxy _ => exact Ebbs.sound h hxy
  | takeEvents => exact h.congr rfl rfl rfl rfl rfl rfl rfl rfl rfl
  | addExport handles surface hg _ _ =>
    have hdrawn : { x with handles : Exchange }.Sound :=
      h.congr rfl rfl rfl rfl rfl rfl rfl rfl rfl
    exact hdrawn.addExport hg surface _
  | addImport hg _ _ => exact h.addImport hg _
  | retireImport i => exact h.retireImport i .nothing
  | retireImporter m => exact h.retireImporter m .inert
  | clientGone c => exact h.clientGone c
  | expel handles c e _ => exact (h.blame handles c e).clientGone c

/-! ## Ebbs fade -/

theorem Ebb.fades (h : x.Sound) (hxy : Ebb x y) :
    (∃ ds, Fades x y ds) ∧ ∀ i, (y.imports.find? i).isSome = (x.imports.find? i).isSome := by
  have hsame : ∀ {y : Exchange}, y.events = x.events → x.nextId ≤ y.nextId →
      y.exports = x.exports → y.imports = x.imports →
      (∃ ds, Fades x y ds) ∧ ∀ i, (y.imports.find? i).isSome = (x.imports.find? i).isSome := by
    intro y hevents hnext hexports himports
    refine ⟨⟨[], .of_same (by rw [hevents, List.append_nil]) nofun hnext (fun e => ?_)
      fun i => ?_⟩, fun i => ?_⟩
    · rw [hexports]
    · rw [himports]
    · rw [himports]
  cases hxy with
  | draw handles => exact hsame rfl (Nat.le_refl _) rfl rfl
  | tell surface parent => exact hsame rfl (Nat.le_refl _) rfl rfl
  | addExporter g => exact hsame rfl (Nat.le_succ _) rfl rfl
  | addImporter g => exact hsame rfl (Nat.le_succ _) rfl rfl
  | @attach i r c hi hs hc =>
    refine ⟨⟨[], .of_same (List.append_nil _).symm nofun (Nat.le_refl _) (fun _ => rfl)
      fun j => ?_⟩, fun j => ?_⟩
    · rw [find?_imports_attach]
      split
      · rw [Option.map_map]
        rfl
      · rfl
    · rw [find?_imports_attach]
      split
      · rw [Option.isSome_map]
      · rfl
  | @disown i r l hi hl =>
    refine ⟨⟨[], .of_same (List.append_nil _).symm nofun (Nat.le_refl _) (fun _ => rfl)
      fun j => ?_⟩, fun j => ?_⟩
    · rw [find?_imports_disown, Option.map_map]
      rfl
    · rw [find?_imports_disown, Option.isSome_map]
  | retireExport e left =>
    have hloses := losesExports_retireExport h.coherent e left
    exact ⟨hloses.fades h.coherent, hloses.isSome_imports⟩
  | retireExporter p =>
    have hloses := losesExports_retireExporter h.coherent p .inert
    exact ⟨hloses.fades h.coherent, hloses.isSome_imports⟩
  | releaseExport hc => exact hsame rfl (Nat.le_refl _) rfl rfl
  | releaseImport hc => exact hsame rfl (Nat.le_refl _) rfl rfl

theorem Ebbs.fades (h : x.Sound) (hxy : Ebbs x y) :
    (∃ ds, Fades x y ds) ∧ ∀ i, (y.imports.find? i).isSome = (x.imports.find? i).isSome := by
  induction hxy with
  | refl => exact ⟨⟨[], Fades.refl x⟩, fun _ => rfl⟩
  | tail hxy hstep ih =>
    obtain ⟨⟨ds, hfades⟩, hkeeps⟩ := ih
    obtain ⟨⟨ds', hfades'⟩, hkeeps'⟩ := hstep.fades (Ebbs.sound h hxy)
    exact ⟨⟨ds ++ ds', hfades.trans hfades' fun i hi => (hkeeps' i).trans hi⟩,
      fun i => (hkeeps' i).trans (hkeeps i)⟩

end Exchange

end SurfaceExchange
