import SurfaceExchange.Filed.Service
import SurfaceExchange.Proofs.Filing
import SurfaceExchange.Proofs.Run

/-!
# Folders and tables lay out the same exchange

An exchange with folders is laid out as an exchange with tables if its folders
are tidy and its entries make up the tables (`LaidOut`). Every operation keeps
two exchanges laid out alike and answers the same on both (`LaidOut.perform`),
so that whatever a run reaches with folders is what it reaches with tables
(`FiledExchange.Reachable.laidOut`, `Exchange.Reachable.filed`).
-/

namespace SurfaceExchange

/-- The exchange with all exports in one table, and all imports. -/
def FiledExchange.flat (n : FiledExchange) : Exchange where
  config := n.config
  handles := n.handles
  exporterGlobal := n.exporterGlobal
  importerGlobal := n.importerGlobal
  displayListener := n.displayListener
  exporters := n.exporters.registries
  importers := n.importers.registries
  exports := n.exporters.gathered
  imports := n.importers.gathered
  inertExports := n.inertExports
  inertImports := n.inertImports
  subscriptions := n.subscriptions
  ownership := n.ownership
  events := n.events
  parentChanges := n.parentChanges
  farewells := n.farewells
  nextId := n.nextId

/-- Both are the same exchange, the one in folders that are tidy and the other in tables. -/
structure LaidOut (n : FiledExchange) (x : Exchange) : Prop where
  exporters : n.exporters.Tidy
  importers : n.importers.Tidy
  flat : n.flat = x

section

variable {α β γ δ : Type} {r : α → β → Prop} {s : γ → δ → Prop} {a : Option α} {b : Option β}

theorem rel_map {f : α → γ} {g : β → δ} (h : Option.Rel r a b)
    (hfg : ∀ a b, r a b → s (f a) (g b)) : Option.Rel s (a.map f) (b.map g) := by
  cases h with
  | some h => exact .some (hfg _ _ h)
  | none => exact .none

theorem rel_bind {f : α → Option γ} {g : β → Option δ} (h : Option.Rel r a b)
    (hfg : ∀ a b, r a b → Option.Rel s (f a) (g b)) : Option.Rel s (a.bind f) (b.bind g) := by
  cases h with
  | some h => exact hfg _ _ h
  | none => exact .none

end

/-- The same answer, and exchanges that are laid out alike. -/
structure Concur {α : Type} (p : α × FiledExchange) (q : α × Exchange) : Prop where
  answer : p.1 = q.1
  laidOut : LaidOut p.2 q.2

/-- The same answer and the same display, and exchanges that are laid out alike. -/
structure ConcurOn {α L : Type} (p : α × FiledExchange × Display L)
    (q : α × Exchange × Display L) : Prop where
  answer : p.1 = q.1
  laidOut : LaidOut p.2.1 q.2.1
  display : p.2.2 = q.2.2

namespace LaidOut

variable {L : Type} {n : FiledExchange} {x : Exchange}

/-! ## What is found -/

theorem config (h : LaidOut n x) : n.config = x.config := by rw [← h.flat]; rfl

theorem handles (h : LaidOut n x) : n.handles = x.handles := by rw [← h.flat]; rfl

theorem ownership (h : LaidOut n x) : n.ownership = x.ownership := by rw [← h.flat]; rfl

theorem subscriptions (h : LaidOut n x) : n.subscriptions = x.subscriptions := by
  rw [← h.flat]; rfl

theorem inertExports (h : LaidOut n x) : n.inertExports = x.inertExports := by
  rw [← h.flat]; rfl

theorem inertImports (h : LaidOut n x) : n.inertImports = x.inertImports := by
  rw [← h.flat]; rfl

theorem exported? (h : LaidOut n x) (e : ExportId) : n.exported? e = x.exports.find? e := by
  obtain ⟨-, -, rfl⟩ := h
  exact (n.exporters.find?_gathered e).symm

theorem imported? (h : LaidOut n x) (i : ImportId) : n.imported? i = x.imports.find? i := by
  obtain ⟨-, -, rfl⟩ := h
  exact (n.importers.find?_gathered i).symm

theorem find?_exporters (h : LaidOut n x) (p : ExporterId) :
    x.exporters.find? p = (n.exporters.find? p).map Folder.toRegistry := by
  obtain ⟨-, -, rfl⟩ := h
  exact n.exporters.find?_registries p

theorem find?_importers (h : LaidOut n x) (m : ImporterId) :
    x.importers.find? m = (n.importers.find? m).map Folder.toRegistry := by
  obtain ⟨-, -, rfl⟩ := h
  exact n.importers.find?_registries m

theorem exports (h : LaidOut n x) : n.exports = x.exports.toList := by
  obtain ⟨htidy, -, rfl⟩ := h
  exact htidy.all_eq

theorem imports (h : LaidOut n x) : n.imports = x.imports.toList := by
  obtain ⟨-, htidy, rfl⟩ := h
  exact htidy.all_eq

theorem link? (h : LaidOut n x) (i : ImportId) (child : SurfaceId) :
    n.link? i child = x.link? i child := by
  rw [FiledExchange.link?, h.imported?, Exchange.link?]

/-- The first match exporter by exporter is the first match of all. -/
theorem resolve (h : LaidOut n x) (handle : String) : n.resolve handle = x.resolve handle := by
  rw [Exchange.resolve, ← h.exports, FiledExchange.exports, Cabinet.all, List.find?_flatMap,
    List.map_findSome?]
  rfl

/-! ## One change at a time -/

theorem editExport (h : LaidOut n x) (e : ExportId) (f : Export → Export) :
    LaidOut { n with exporters := n.exporters.edit e f }
      { x with exports := x.exports.modify e f } where
  exporters := h.exporters.edit e f
  importers := h.importers
  flat := by
    rw [← h.flat]
    simp only [FiledExchange.flat, Cabinet.gathered_edit, Cabinet.registries_edit]

theorem editImport (h : LaidOut n x) (i : ImportId) (f : Import → Import) :
    LaidOut { n with importers := n.importers.edit i f }
      { x with imports := x.imports.modify i f } where
  exporters := h.exporters
  importers := h.importers.edit i f
  flat := by
    rw [← h.flat]
    simp only [FiledExchange.flat, Cabinet.gathered_edit, Cabinet.registries_edit]

theorem dropExport (h : LaidOut n x) (e : ExportId) :
    LaidOut { n with exporters := n.exporters.drop e }
      { x with exports := x.exports.erase e } where
  exporters := h.exporters.drop e
  importers := h.importers
  flat := by
    rw [← h.flat]
    simp only [FiledExchange.flat, Cabinet.gathered_drop, Cabinet.registries_drop]

theorem dropImport (h : LaidOut n x) (i : ImportId) :
    LaidOut { n with importers := n.importers.drop i }
      { x with imports := x.imports.erase i } where
  exporters := h.exporters
  importers := h.importers.drop i
  flat := by
    rw [← h.flat]
    simp only [FiledExchange.flat, Cabinet.gathered_drop, Cabinet.registries_drop]

theorem send (h : LaidOut n x) (c : ClientId) (e : Event) : LaidOut (n.send c e) (x.send c e) :=
  ⟨h.exporters, h.importers, by rw [← h.flat]; rfl⟩

theorem tell (h : LaidOut n x) (surface : SurfaceId) (parent : Option SurfaceId) :
    LaidOut (n.tell surface parent) (x.tell surface parent) :=
  ⟨h.exporters, h.importers, by rw [← h.flat]; rfl⟩

theorem track (h : LaidOut n x) (c : ClientId) (o : ObjectId) :
    LaidOut (n.track c o) (x.track c o) :=
  ⟨h.exporters, h.importers, by rw [← h.flat]; rfl⟩

theorem untrack (h : LaidOut n x) (c : ClientId) (o : ObjectId) :
    LaidOut (n.untrack c o) (x.untrack c o) :=
  ⟨h.exporters, h.importers, by rw [← h.flat]; rfl⟩

theorem cancel (h : LaidOut n x) (t : Subscription) : LaidOut (n.cancel t) (x.cancel t) :=
  ⟨h.exporters, h.importers, by rw [← h.flat]; rfl⟩

theorem allocate (h : LaidOut n x) : Concur n.allocate x.allocate :=
  ⟨by rw [← h.flat]; rfl, h.exporters, h.importers, by rw [← h.flat]; rfl⟩

theorem subscribe (h : LaidOut n x) (surface : SurfaceId) (event : SurfaceEvent) (w : Watcher) :
    Concur (n.subscribe surface event w) (x.subscribe surface event w) :=
  ⟨by rw [← h.flat]; rfl, h.exporters, h.importers, by rw [← h.flat]; rfl⟩

theorem takeEvents (h : LaidOut n x) : Concur n.takeEvents x.takeEvents :=
  ⟨by rw [← h.flat]; rfl, h.exporters, h.importers, by rw [← h.flat]; rfl⟩

theorem release (h : LaidOut n x) (l : ChildLink) : LaidOut (n.release l) (x.release l) :=
  (h.cancel _).cancel _

/-! ## Cascades -/

theorem foldl {α : Type} {f : FiledExchange → α → FiledExchange} {g : Exchange → α → Exchange}
    (hstep : ∀ {n x} a, LaidOut n x → LaidOut (f n a) (g x a)) (as : List α) (h : LaidOut n x) :
    LaidOut (as.foldl f n) (as.foldl g x) := by
  induction as generalizing n x with
  | nil => exact h
  | cons a as ih => exact ih (hstep a h)

theorem cutLink (h : LaidOut n x) (i : ImportId) (child : SurfaceId) :
    LaidOut (n.cutLink i child) (x.cutLink i child) := by
  rw [FiledExchange.cutLink, Exchange.cutLink, h.link?]
  cases x.link? i child with
  | none => exact h
  | some l => exact (h.editImport i _).release l

theorem deliver (h : LaidOut n x) (surface : SurfaceId) (event : SurfaceEvent)
    {f : FiledExchange → Watcher → FiledExchange} {g : Exchange → Watcher → Exchange}
    (hact : ∀ {n x} w, LaidOut n x → LaidOut (f n w) (g x w)) :
    LaidOut (n.deliver surface event f) (x.deliver surface event g) := by
  rw [FiledExchange.deliver, Exchange.deliver, h.subscriptions]
  refine foldl (fun e h => ?_) _ h
  rw [h.subscriptions]
  split
  · exact hact e.2 h
  · exact h

theorem parentChanged (h : LaidOut n x) (surface : SurfaceId) :
    LaidOut (n.parentChanged surface) (x.parentChanged surface) :=
  h.deliver surface .setParent fun w h => by
    cases w with
    | childSetParent i child => exact h.cutLink i child
    | exportUnmap => exact h
    | childUnmap => exact h

theorem setParent (h : LaidOut n x) (surface : SurfaceId) (parent : Option SurfaceId) :
    LaidOut (n.setParent surface parent) (x.setParent surface parent) :=
  (h.tell _ _).parentChanged _

theorem dropLink (h : LaidOut n x) (l : ChildLink) : LaidOut (n.dropLink l) (x.dropLink l) :=
  (h.release l).setParent _ _

theorem dropLinks (h : LaidOut n x) (ls : List ChildLink) :
    LaidOut (n.dropLinks ls) (x.dropLinks ls) :=
  h.foldl (fun l h => h.dropLink l) ls

theorem forgetImporter (h : LaidOut n x) (e : ExportId) (i : ImportId) :
    LaidOut (n.forgetImporter e i) (x.forgetImporter e i) :=
  h.editExport e _

theorem breakOff (h : LaidOut n x) (i : ImportId) : LaidOut (n.breakOff i) (x.breakOff i) := by
  rw [FiledExchange.breakOff, Exchange.breakOff, h.imported?]
  cases x.imports.find? i with
  | none => exact h
  | some r =>
    dsimp only
    cases r.source with
    | none => exact h
    | some e => exact (((h.editImport i _).forgetImporter e i).dropLinks r.children).send _ _

theorem leaveExport (h : LaidOut n x) (e : ExportId) (c : ClientId) (left : Remnant) :
    LaidOut (n.leaveExport e c left) (x.leaveExport e c left) := by
  cases left with
  | nothing => exact h.untrack c _
  | inert => exact ⟨h.exporters, h.importers, by rw [← h.flat]; rfl⟩

theorem unravelExport (h : LaidOut n x) (e : ExportId) (s : Export) (left : Remnant) :
    LaidOut (n.unravelExport e s left) (x.unravelExport e s left) :=
  ((h.foldl (fun i h => h.breakOff i) s.importers).cancel _).leaveExport e _ left

theorem retireExport (h : LaidOut n x) (e : ExportId) (left : Remnant) :
    LaidOut (n.retireExport e left) (x.retireExport e left) := by
  rw [FiledExchange.retireExport, Exchange.retireExport, h.exported?]
  cases x.exports.find? e with
  | none => exact h
  | some s => exact (h.dropExport e).unravelExport e s left

/-- The folder that goes with an exporter has those exports that name the exporter. -/
theorem retireExporter (h : LaidOut n x) (p : ExporterId) (left : Remnant) :
    LaidOut (n.retireExporter p left) (x.retireExporter p left) := by
  rw [FiledExchange.retireExporter, Exchange.retireExporter, h.find?_exporters]
  cases hg : n.exporters.find? p with
  | none => exact h
  | some g =>
    obtain ⟨hexporters, himporters, rfl⟩ := h
    have hgone : LaidOut { n with exporters := n.exporters.erase p }
        { n.flat with
          exporters := n.flat.exporters.erase p
          exports := n.flat.exports.filter (fun e _ => decide (e.exporter ≠ p)) } :=
      { exporters := hexporters.erase p
        importers := himporters
        flat := by
          simp only [FiledExchange.flat, Cabinet.registries_erase, Cabinet.gathered_erase]
          rfl }
    dsimp only [Option.map_some]
    rw [hexporters.entries_eq hg]
    exact (hgone.foldl (fun e h => h.unravelExport e.1 e.2 left) _).untrack _ _

theorem leaveImport (h : LaidOut n x) (i : ImportId) (c : ClientId) (left : Remnant) :
    LaidOut (n.leaveImport i c left) (x.leaveImport i c left) := by
  cases left with
  | nothing => exact h.untrack c _
  | inert => exact ⟨h.exporters, h.importers, by rw [← h.flat]; rfl⟩

theorem unravelImport (h : LaidOut n x) (i : ImportId) (r : Import) (left : Remnant) :
    LaidOut (n.unravelImport i r left) (x.unravelImport i r left) := by
  rw [FiledExchange.unravelImport, Exchange.unravelImport]
  cases r.source with
  | none => exact (h.dropLinks r.children).leaveImport i _ left
  | some e => exact ((h.dropLinks r.children).forgetImporter e i).leaveImport i _ left

theorem retireImport (h : LaidOut n x) (i : ImportId) (left : Remnant) :
    LaidOut (n.retireImport i left) (x.retireImport i left) := by
  rw [FiledExchange.retireImport, Exchange.retireImport, h.imported?]
  cases x.imports.find? i with
  | none => exact h
  | some r => exact (h.dropImport i).unravelImport i r left

/-- The folder that goes with an importer has those imports that name the importer. -/
theorem retireImporter (h : LaidOut n x) (m : ImporterId) (left : Remnant) :
    LaidOut (n.retireImporter m left) (x.retireImporter m left) := by
  rw [FiledExchange.retireImporter, Exchange.retireImporter, h.find?_importers]
  cases hg : n.importers.find? m with
  | none => exact h
  | some g =>
    obtain ⟨hexporters, himporters, rfl⟩ := h
    have hgone : LaidOut { n with importers := n.importers.erase m }
        { n.flat with
          importers := n.flat.importers.erase m
          imports := n.flat.imports.filter (fun i _ => decide (i.importer ≠ m)) } :=
      { exporters := hexporters
        importers := himporters.erase m
        flat := by
          simp only [FiledExchange.flat, Cabinet.registries_erase, Cabinet.gathered_erase]
          rfl }
    dsimp only [Option.map_some]
    rw [himporters.entries_eq hg]
    exact (hgone.foldl (fun e h => h.unravelImport e.1 e.2 left) _).untrack _ _

theorem unmapped (h : LaidOut n x) (surface : SurfaceId) :
    LaidOut (n.unmapped surface) (x.unmapped surface) :=
  h.deliver surface .unmap fun {n x} w h => by
    cases w with
    | exportUnmap e => exact h.retireExport e .inert
    | childUnmap i child =>
      rw [FiledExchange.onUnmap, Exchange.onUnmap, h.link?]
      split
      · exact (h.cutLink i child).tell child none
      · exact h
    | childSetParent => exact h

theorem retireRegistry (h : LaidOut n x) (left : Remnant) (q : RegistryId) :
    LaidOut (n.retireRegistry left q) (x.retireRegistry left q) := by
  cases q with
  | importer m => exact h.retireImporter m left
  | exporter p => exact h.retireExporter p left

theorem clientGone (h : LaidOut n x) (c : ClientId) :
    LaidOut (n.clientGone c) (x.clientGone c) := by
  obtain ⟨hexporters, himporters, rfl⟩ := h
  have hreleased : LaidOut { n with ownership := (n.ownership.release c).2 }
      { n.flat with ownership := (n.ownership.release c).2 } := ⟨hexporters, himporters, rfl⟩
  have hretired := hreleased.foldl (fun q h => h.retireRegistry .nothing q)
    (n.ownership.release c).1
  exact ⟨hretired.exporters, hretired.importers, congrArg (fun y : Exchange =>
    { y with
      inertExports := y.inertExports.filter (fun _ owner => decide (owner ≠ c))
      inertImports := y.inertImports.filter (fun _ owner => decide (owner ≠ c)) }) hretired.flat⟩

/-! ## Objects that are made -/

/-- The folder of a registry that is new takes the place of none. -/
theorem openExporter (h : LaidOut n x) {p : ExporterId} (hp : x.exporters.find? p = none)
    (g : Registry) : LaidOut { n with exporters := n.exporters.insert p { toRegistry := g } }
      { x with exporters := x.exporters.insert p g } where
  exporters := h.exporters.insert p g
  importers := h.importers
  flat := by
    rw [h.find?_exporters, Option.map_eq_none_iff] at hp
    rw [← h.flat]
    simp only [FiledExchange.flat, Cabinet.gathered_insert hp, Cabinet.registries_insert]

theorem openImporter (h : LaidOut n x) {m : ImporterId} (hm : x.importers.find? m = none)
    (g : Registry) : LaidOut { n with importers := n.importers.insert m { toRegistry := g } }
      { x with importers := x.importers.insert m g } where
  exporters := h.exporters
  importers := h.importers.insert m g
  flat := by
    rw [h.find?_importers, Option.map_eq_none_iff] at hm
    rw [← h.flat]
    simp only [FiledExchange.flat, Cabinet.gathered_insert hm, Cabinet.registries_insert]

theorem putExport (h : LaidOut n x) {e : ExportId}
    (hp : (x.exporters.find? e.exporter).isSome) (s : Export) :
    LaidOut { n with exporters := n.exporters.put e.exporter e s }
      { x with exports := x.exports.insert e s } where
  exporters := h.exporters.put rfl s
  importers := h.importers
  flat := by
    rw [h.find?_exporters, Option.isSome_map] at hp
    rw [← h.flat]
    simp only [FiledExchange.flat, Cabinet.registries_put,
      Cabinet.gathered_put (show NamesRegistry.registry e = e.exporter from rfl) hp]

theorem putImport (h : LaidOut n x) {i : ImportId}
    (hm : (x.importers.find? i.importer).isSome) (r : Import) :
    LaidOut { n with importers := n.importers.put i.importer i r }
      { x with imports := x.imports.insert i r } where
  exporters := h.exporters
  importers := h.importers.put rfl r
  flat := by
    rw [h.find?_importers, Option.isSome_map] at hm
    rw [← h.flat]
    simp only [FiledExchange.flat, Cabinet.registries_put,
      Cabinet.gathered_put (show NamesRegistry.registry i = i.importer from rfl) hm]

/-- A registry has a number that no other has. -/
theorem bindExporter (h : LaidOut n x) (hx : x.Sound) (d : Display L) (c : ClientId) :
    Concur (n.bindExporter d c) (x.bindExporter d c) := by
  have hfree : x.exporters.find? ⟨x.nextId⟩ = none := Option.map_eq_none_iff.mp
    (hx.registered.clientOf?_eq_none_of_number (o := .exporter ⟨x.nextId⟩) rfl)
  have hnumbered := h.allocate.laidOut
  rw [FiledExchange.bindExporter, Exchange.bindExporter]
  split
  · obtain ⟨-, -, rfl⟩ := h
    exact ⟨rfl, (hnumbered.openExporter hfree ⟨c, n.config.offeredVersion⟩).track c _⟩
  · exact ⟨rfl, h⟩

theorem bindImporter (h : LaidOut n x) (hx : x.Sound) (d : Display L) (c : ClientId) :
    Concur (n.bindImporter d c) (x.bindImporter d c) := by
  have hfree : x.importers.find? ⟨x.nextId⟩ = none := Option.map_eq_none_iff.mp
    (hx.registered.clientOf?_eq_none_of_number (o := .importer ⟨x.nextId⟩) rfl)
  have hnumbered := h.allocate.laidOut
  rw [FiledExchange.bindImporter, Exchange.bindImporter]
  split
  · obtain ⟨-, -, rfl⟩ := h
    exact ⟨rfl, (hnumbered.openImporter hfree ⟨c, n.config.offeredVersion⟩).track c _⟩
  · exact ⟨rfl, h⟩

/-- An export goes into the folder of the exporter that its identifier names, for it is made
through that one. -/
theorem addExport (h : LaidOut n x) {p : ExporterId} (hp : (x.exporters.find? p).isSome)
    (g : Registry) (surface : SurfaceId) (handle : Handle) :
    Concur (n.addExport p g surface handle) (x.addExport p g surface handle) := by
  have hnumbered := h.allocate.laidOut
  obtain ⟨-, -, rfl⟩ := h
  have hwatched := (hnumbered.subscribe surface .unmap (.exportUnmap ⟨p, n.nextId⟩)).laidOut
  exact ⟨rfl, ((hwatched.putExport (e := ⟨p, n.nextId⟩) hp _).track _ _).send _ _⟩

theorem addImport (h : LaidOut n x) {m : ImporterId} (hm : (x.importers.find? m).isSome)
    (g : Registry) (handle : String) :
    Concur (n.addImport m g handle) (x.addImport m g handle) := by
  have hnumbered := h.allocate.laidOut
  have hsource := hnumbered.resolve handle
  obtain ⟨-, -, rfl⟩ := h
  have hmade := fun source => (hnumbered.putImport (i := ⟨m, n.nextId⟩) hm
    ⟨g.client, g.version, source, []⟩).track g.client (.imported ⟨m, n.nextId⟩)
  dsimp only [FiledExchange.addImport, Exchange.addImport]
  rw [hsource]
  cases n.flat.allocate.2.resolve handle with
  | some e => exact ⟨rfl, (hmade (some e)).editExport e _⟩
  | none => exact ⟨rfl, (hmade none).send _ _⟩

theorem addLink (h : LaidOut n x) (i : ImportId) (parent child : SurfaceId) :
    LaidOut (n.addLink i parent child) (x.addLink i parent child) := by
  have hset := h.setParent child (some parent)
  obtain ⟨hunmap, hwatched⟩ := hset.subscribe child .unmap (.childUnmap i child)
  obtain ⟨hsetParent, hboth⟩ := hwatched.subscribe child .setParent (.childSetParent i child)
  dsimp only [FiledExchange.addLink, Exchange.addLink]
  rw [hunmap, hsetParent]
  exact hboth.editImport i _

/-! ## Requests -/

theorem contains_exporters (h : LaidOut n x) (p : ExporterId) :
    n.exporters.contains p = x.exporters.contains p := by
  rw [Table.contains, Table.contains, h.find?_exporters, Option.isSome_map]

theorem contains_importers (h : LaidOut n x) (m : ImporterId) :
    n.importers.contains m = x.importers.contains m := by
  rw [Table.contains, Table.contains, h.find?_importers, Option.isSome_map]

theorem destroyExporter (h : LaidOut n x) (p : ExporterId) :
    Concur (n.destroyExporter p) (x.destroyExporter p) := by
  rw [FiledExchange.destroyExporter, Exchange.destroyExporter, h.contains_exporters]
  split
  · exact ⟨rfl, h.retireExporter p .inert⟩
  · exact ⟨rfl, h⟩

theorem destroyImporter (h : LaidOut n x) (m : ImporterId) :
    Concur (n.destroyImporter m) (x.destroyImporter m) := by
  rw [FiledExchange.destroyImporter, Exchange.destroyImporter, h.contains_importers]
  split
  · exact ⟨rfl, h.retireImporter m .inert⟩
  · exact ⟨rfl, h⟩

theorem destroyExport (h : LaidOut n x) (e : ExportId) :
    Concur (n.destroyExport e) (x.destroyExport e) := by
  have hinert : n.inertExports.find? e = x.inertExports.find? e := by rw [h.inertExports]
  rw [FiledExchange.destroyExport, Exchange.destroyExport, h.exported?, hinert, Table.contains]
  split
  · exact ⟨rfl, h.retireExport e .nothing⟩
  · cases x.inertExports.find? e with
    | none => exact ⟨rfl, h⟩
    | some c =>
      have herased : LaidOut { n with inertExports := n.inertExports.erase e }
          { x with inertExports := x.inertExports.erase e } :=
        ⟨h.exporters, h.importers, by rw [← h.flat]; rfl⟩
      exact ⟨rfl, herased.untrack c _⟩

theorem destroyImport (h : LaidOut n x) (i : ImportId) :
    Concur (n.destroyImport i) (x.destroyImport i) := by
  have hinert : n.inertImports.find? i = x.inertImports.find? i := by rw [h.inertImports]
  rw [FiledExchange.destroyImport, Exchange.destroyImport, h.imported?, hinert, Table.contains]
  split
  · exact ⟨rfl, h.retireImport i .nothing⟩
  · cases x.inertImports.find? i with
    | none => exact ⟨rfl, h⟩
    | some c =>
      have herased : LaidOut { n with inertImports := n.inertImports.erase i }
          { x with inertImports := x.inertImports.erase i } :=
        ⟨h.exporters, h.importers, by rw [← h.flat]; rfl⟩
      exact ⟨rfl, herased.untrack c _⟩

theorem isTaken (h : LaidOut n x) : n.isTaken = x.isTaken := by
  funext a
  rw [FiledExchange.isTaken, Exchange.isTaken, h.resolve]

theorem withHandles (h : LaidOut n x) (handles : HandleStream) :
    LaidOut { n with handles } { x with handles } :=
  ⟨h.exporters, h.importers, by rw [← h.flat]; rfl⟩

theorem exportSurface (h : LaidOut n x) (view : ShellView) (patience : Nat) (p : ExporterId)
    (surface : SurfaceId) :
    Option.Rel Concur (n.exportSurface view patience p surface)
      (x.exportSurface view patience p surface) := by
  have hfind := h.find?_exporters p
  have hreached : ∀ c, Config.reached n.config.maxExports (n.ownership.counts c).exports =
      Config.reached x.config.maxExports (x.ownership.counts c).exports := fun c => by
    rw [h.config, h.ownership]
  have hsearch : n.handles.search n.isTaken n.config.maxHandleAttempts patience =
      x.handles.search x.isTaken x.config.maxHandleAttempts patience := by
    rw [h.handles, h.isTaken, h.config]
  rw [FiledExchange.exportSurface, Exchange.exportSurface, hfind, hsearch]
  cases hg : n.exporters.find? p with
  | none => exact .some ⟨rfl, h⟩
  | some g =>
    have hp : (x.exporters.find? p).isSome := by rw [hfind, hg]; rfl
    dsimp only [Option.map_some]
    cases Exchange.requireToplevel view (.exporter p) surface with
    | error e => exact .some ⟨rfl, h⟩
    | ok _ =>
      dsimp only
      rw [hreached]
      split
      · exact .some ⟨rfl, h⟩
      · cases x.handles.search x.isTaken x.config.maxHandleAttempts patience with
        | none => exact .none
        | some found =>
          obtain ⟨result, handles⟩ := found
          cases result with
          | error => exact .some ⟨rfl, h.withHandles handles⟩
          | ok a =>
            obtain ⟨hid, hmade⟩ := (h.withHandles handles).addExport hp g.toRegistry surface a
            exact .some ⟨congrArg Except.ok hid, hmade⟩

theorem importHandle (h : LaidOut n x) (m : ImporterId) (handle : String) :
    Concur (n.importHandle m handle) (x.importHandle m handle) := by
  have hfind := h.find?_importers m
  have hreached : ∀ c, Config.reached n.config.maxImports (n.ownership.counts c).imports =
      Config.reached x.config.maxImports (x.ownership.counts c).imports := fun c => by
    rw [h.config, h.ownership]
  rw [FiledExchange.importHandle, Exchange.importHandle, hfind]
  cases hg : n.importers.find? m with
  | none => exact ⟨rfl, h⟩
  | some g =>
    have hm : (x.importers.find? m).isSome := by rw [hfind, hg]; rfl
    dsimp only [Option.map_some]
    rw [hreached]
    split
    · exact ⟨rfl, h⟩
    · obtain ⟨hid, hmade⟩ := h.addImport hm g.toRegistry handle
      exact ⟨congrArg Except.ok hid, hmade⟩

theorem setParentOf (h : LaidOut n x) (view : ShellView) (i : ImportId) (child : SurfaceId) :
    Concur (n.setParentOf view i child) (x.setParentOf view i child) := by
  have hexported : n.exported? = x.exports.find? := funext h.exported?
  rw [FiledExchange.setParentOf, Exchange.setParentOf, h.inertImports, h.imported?, hexported,
    h.link?]
  split
  · exact ⟨rfl, h⟩
  · cases x.imports.find? i with
    | none => exact ⟨rfl, h⟩
    | some r =>
      dsimp only
      cases r.source.bind x.exports.find? with
      | none => exact ⟨rfl, h⟩
      | some s =>
        dsimp only
        cases Exchange.requireToplevel view (.imported i) child with
        | error => exact ⟨rfl, h⟩
        | ok =>
          dsimp only
          split
          · exact ⟨rfl, h⟩
          · split
            · exact ⟨rfl, h⟩
            · exact ⟨rfl, h.addLink i s.surface child⟩

theorem expel (h : LaidOut n x) (d : Display L) (c : ClientId) (e : ProtocolError) :
    LaidOut (n.expel d c e).1 (x.expel d c e).1 :=
  (h.send c _).clientGone c

end LaidOut

namespace Concur

variable {L α : Type}

theorem withObject {p : Except RequestError α × FiledExchange}
    {q : Except RequestError α × Exchange} (h : Concur p q) (object : α → ObjectId) :
    Concur (FiledExchange.withObject object p) (Exchange.withObject object q) :=
  ⟨congrArg (Except.map fun id => some (object id)) h.answer, h.laidOut⟩

theorem withoutObject {p : Except RequestError Unit × FiledExchange}
    {q : Except RequestError Unit × Exchange} (h : Concur p q) :
    Concur (FiledExchange.withoutObject p) (Exchange.withoutObject q) :=
  ⟨congrArg (Except.map fun _ => none) h.answer, h.laidOut⟩

/-- An outcome is answered with, and the display is left alone. -/
theorem answered {p : Except RequestError (Option ObjectId) × FiledExchange}
    {q : Except RequestError (Option ObjectId) × Exchange} (h : Concur p q) (d : Display L) :
    Option.Rel ConcurOn (FiledExchange.perform.answered d p) (Exchange.perform.answered d q) :=
  .some ⟨congrArg Answer.outcome h.answer, h.laidOut, rfl⟩

end Concur

namespace LaidOut

variable {L : Type} {n : FiledExchange} {x : Exchange}

/-! ## Operations -/

theorem serve (h : LaidOut n x) (view : ShellView) (patience : Nat) (r : Request) :
    Option.Rel Concur (n.serve view patience r) (x.serve view patience r) := by
  cases r with
  | exporter p r =>
    cases r with
    | destroy => exact .some (h.destroyExporter p).withoutObject
    | exportSurface s =>
      exact rel_map (h.exportSurface view patience p s) fun _ _ hs => hs.withObject .exported
  | exported e r =>
    cases r with
    | destroy => exact .some (h.destroyExport e).withoutObject
  | importer m r =>
    cases r with
    | destroy => exact .some (h.destroyImporter m).withoutObject
    | importHandle a => exact .some ((h.importHandle m a).withObject .imported)
  | imported i r =>
    cases r with
    | destroy => exact .some (h.destroyImport i).withoutObject
    | setParentOf s => exact .some (h.setParentOf view i s).withoutObject

theorem dispatch (h : LaidOut n x) (view : ShellView) (patience : Nat) (d : Display L)
    (c : ClientId) (r : Request) :
    Option.Rel ConcurOn (n.dispatch view patience d c r) (x.dispatch view patience d c r) := by
  rw [FiledExchange.dispatch, Exchange.dispatch, h.ownership]
  split
  · exact .some ⟨rfl, h, rfl⟩
  · split
    · exact .some ⟨rfl, h.expel d c _, rfl⟩
    · refine rel_map (h.serve view patience r) ?_
      rintro ⟨result, m⟩ ⟨result', y⟩ ⟨rfl, hmy⟩
      cases result with
      | ok => exact ⟨rfl, hmy, rfl⟩
      | error e =>
        cases e with
        | protocol e => exact ⟨rfl, hmy.expel d c e, rfl⟩
        | _ => exact ⟨rfl, hmy, rfl⟩

/-- An operation answers the same and leaves exchanges that are laid out alike, or waits for a
handle in both. -/
theorem perform (h : LaidOut n x) (hx : x.Sound) (view : ShellView) (patience : Nat)
    (d : Display L) (op : Operation) :
    Option.Rel ConcurOn (n.perform view patience d op) (x.perform view patience d op) := by
  cases op with
  | bindExporter c => exact ((h.bindExporter hx d c).withObject .exporter).answered d
  | bindImporter c => exact ((h.bindImporter hx d c).withObject .importer).answered d
  | exportSurface p s =>
    exact rel_bind (h.exportSurface view patience p s) fun _ _ hs =>
      (hs.withObject .exported).answered d
  | importHandle m a => exact ((h.importHandle m a).withObject .imported).answered d
  | setParentOf i s => exact (h.setParentOf view i s).withoutObject.answered d
  | destroyExport e => exact (h.destroyExport e).withoutObject.answered d
  | destroyImport i => exact (h.destroyImport i).withoutObject.answered d
  | destroyExporter p => exact (h.destroyExporter p).withoutObject.answered d
  | destroyImporter m => exact (h.destroyImporter m).withoutObject.answered d
  | unmapped s => exact .some ⟨rfl, h.unmapped s, rfl⟩
  | parentChanged s => exact .some ⟨rfl, h.parentChanged s, rfl⟩
  | clientGone c => exact .some ⟨rfl, h.clientGone c, rfl⟩
  | expel c e => exact .some ⟨rfl, h.expel d c e, rfl⟩
  | dispatch c r =>
    refine rel_map (h.dispatch view patience d c r) ?_
    rintro ⟨result, m, d'⟩ ⟨result', y, d''⟩ ⟨rfl, hmy, rfl⟩
    exact ⟨rfl, hmy, rfl⟩
  | takeEvents =>
    exact .some ⟨congrArg Answer.events h.takeEvents.answer, h.takeEvents.laidOut, rfl⟩

end LaidOut

end SurfaceExchange
