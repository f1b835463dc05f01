import SurfaceExchange.Proofs.Operations

/-!
# What holds an exchange in its place

An exchange is tied to what is around it by its configuration, its two globals
and its own listener on the display, and by those who listen to its end
(`berth`). No operation touches any of these, whatever it does to exports and
imports, and neither does a teardown until all registries are gone. So the
limits that an exchange is held to are those that it was started with, the
number of its listener is a name for it from its start to its end, and the
listeners that are due in the end are those that were added to it and not
removed.
-/

namespace SurfaceExchange.Exchange

variable {L : Type} {x y : Exchange} {d d' : Display L} {view : ShellView} {patience : Nat}

/-- What an exchange keeps from its start, and those who listen to its end. -/
structure Berth where
  config : Config
  exporterGlobal : GlobalId
  importerGlobal : GlobalId
  displayListener : ListenerId
  farewells : Signal String

def berth (x : Exchange) : Berth where
  config := x.config
  exporterGlobal := x.exporterGlobal
  importerGlobal := x.importerGlobal
  displayListener := x.displayListener
  farewells := x.farewells

/-- The exchange's own listener on the display, and those who listen to its end. -/
def mooring (x : Exchange) : ListenerId × Signal String := (x.displayListener, x.farewells)

/-- What no step of a sequence touches, the sequence does not touch. -/
theorem berth_foldl {α : Type} {act : Exchange → α → Exchange}
    (h : ∀ x a, (act x a).berth = x.berth) (l : List α) (x : Exchange) :
    (l.foldl act x).berth = x.berth := by
  induction l generalizing x with
  | nil => rfl
  | cons a l ih => exact (ih (act x a)).trans (h x a)

/-! ## Links -/

theorem berth_cutLink (x : Exchange) (i : ImportId) (c : SurfaceId) :
    (x.cutLink i c).berth = x.berth := by
  unfold cutLink
  split <;> rfl

theorem berth_deliver {act : Exchange → Watcher → Exchange}
    (h : ∀ x w, (act x w).berth = x.berth) (x : Exchange) (s : SurfaceId)
    (event : SurfaceEvent) : (x.deliver s event act).berth = x.berth := by
  refine berth_foldl (fun x e => ?_) _ x
  split
  · exact h x e.2
  · rfl

theorem berth_onSetParent (x : Exchange) (w : Watcher) :
    (x.onSetParent w).berth = x.berth := by
  cases w with
  | childSetParent i c => exact berth_cutLink x i c
  | _ => rfl

theorem berth_parentChanged (x : Exchange) (s : SurfaceId) :
    (x.parentChanged s).berth = x.berth :=
  berth_deliver berth_onSetParent x s .setParent

theorem berth_dropLinks (x : Exchange) (ls : List ChildLink) :
    (x.dropLinks ls).berth = x.berth :=
  berth_foldl (fun x l => berth_parentChanged ((x.release l).tell l.surface none) l.surface)
    ls x

/-! ## Exports and imports that go -/

theorem berth_breakOff (x : Exchange) (i : ImportId) : (x.breakOff i).berth = x.berth := by
  unfold breakOff
  split
  · rfl
  · split
    · rfl
    · exact berth_dropLinks _ _

theorem berth_leaveExport (x : Exchange) (e : ExportId) (c : ClientId) (left : Remnant) :
    (x.leaveExport e c left).berth = x.berth := by
  cases left <;> rfl

theorem berth_unravelExport (x : Exchange) (e : ExportId) (r : Export) (left : Remnant) :
    (x.unravelExport e r left).berth = x.berth :=
  (berth_leaveExport _ e r.client left).trans (berth_foldl berth_breakOff r.importers x)

theorem berth_retireExport (x : Exchange) (e : ExportId) (left : Remnant) :
    (x.retireExport e left).berth = x.berth := by
  unfold retireExport
  split
  · rfl
  · exact berth_unravelExport _ e _ left

theorem berth_retireExporter (x : Exchange) (p : ExporterId) (left : Remnant) :
    (x.retireExporter p left).berth = x.berth := by
  unfold retireExporter
  split
  · rfl
  · exact berth_foldl (fun x (e : ExportId × Export) => berth_unravelExport x e.1 e.2 left) _ _

theorem berth_leaveImport (x : Exchange) (i : ImportId) (c : ClientId) (left : Remnant) :
    (x.leaveImport i c left).berth = x.berth := by
  cases left <;> rfl

theorem berth_unravelImport (x : Exchange) (i : ImportId) (r : Import) (left : Remnant) :
    (x.unravelImport i r left).berth = x.berth := by
  refine (berth_leaveImport _ i r.client left).trans ?_
  cases r.source <;> exact berth_dropLinks x r.children

theorem berth_retireImport (x : Exchange) (i : ImportId) (left : Remnant) :
    (x.retireImport i left).berth = x.berth := by
  unfold retireImport
  split
  · rfl
  · exact berth_unravelImport _ i _ left

theorem berth_retireImporter (x : Exchange) (m : ImporterId) (left : Remnant) :
    (x.retireImporter m left).berth = x.berth := by
  unfold retireImporter
  split
  · rfl
  · exact berth_foldl (fun x (i : ImportId × Import) => berth_unravelImport x i.1 i.2 left) _ _

theorem berth_onUnmap (x : Exchange) (w : Watcher) : (x.onUnmap w).berth = x.berth := by
  cases w with
  | exportUnmap e => exact berth_retireExport x e .inert
  | childUnmap i c =>
    rw [onUnmap]
    split
    · exact berth_cutLink x i c
    · rfl
  | childSetParent _ _ => rfl

theorem berth_unmapped (x : Exchange) (s : SurfaceId) : (x.unmapped s).berth = x.berth :=
  berth_deliver berth_onUnmap x s .unmap

theorem berth_clientGone (x : Exchange) (c : ClientId) :
    (x.clientGone c).berth = x.berth := by
  have hregistry : ∀ (x : Exchange) r, (x.retireRegistry .nothing r).berth = x.berth := by
    intro x r
    cases r with
    | importer m => exact berth_retireImporter x m .nothing
    | exporter p => exact berth_retireExporter x p .nothing
  exact berth_foldl hregistry _ { x with ownership := (x.ownership.release c).2 }

/-! ## What clients ask for -/

theorem berth_bindExporter (x : Exchange) (d : Display L) (c : ClientId) :
    (x.bindExporter d c).2.berth = x.berth := by
  unfold bindExporter
  split <;> rfl

theorem berth_bindImporter (x : Exchange) (d : Display L) (c : ClientId) :
    (x.bindImporter d c).2.berth = x.berth := by
  unfold bindImporter
  split <;> rfl

theorem berth_destroyExporter (x : Exchange) (p : ExporterId) :
    (x.destroyExporter p).2.berth = x.berth := by
  unfold destroyExporter
  split
  · exact berth_retireExporter x p .inert
  · rfl

theorem berth_destroyImporter (x : Exchange) (m : ImporterId) :
    (x.destroyImporter m).2.berth = x.berth := by
  unfold destroyImporter
  split
  · exact berth_retireImporter x m .inert
  · rfl

theorem berth_destroyExport (x : Exchange) (e : ExportId) :
    (x.destroyExport e).2.berth = x.berth := by
  unfold destroyExport
  split
  · exact berth_retireExport x e .nothing
  · split <;> rfl

theorem berth_destroyImport (x : Exchange) (i : ImportId) :
    (x.destroyImport i).2.berth = x.berth := by
  unfold destroyImport
  split
  · exact berth_retireImport x i .nothing
  · split <;> rfl

theorem berth_exportSurface {p : ExporterId} {s : SurfaceId}
    {res : Except RequestError ExportId}
    (hp : x.exportSurface view patience p s = some (res, y)) : y.berth = x.berth := by
  cases exporting_of_exportSurface hp <;> rfl

theorem berth_addImport (x : Exchange) (m : ImporterId) (r : Registry) (handle : String) :
    (x.addImport m r handle).2.berth = x.berth := by
  unfold addImport
  dsimp only
  split <;> rfl

theorem berth_importHandle (x : Exchange) (m : ImporterId) (handle : String) :
    (x.importHandle m handle).2.berth = x.berth := by
  rcases importHandle_cases (x := x) m handle with ⟨err, heq⟩ | ⟨g, -, -, heq⟩ <;> rw [heq]
  exact berth_addImport x m g handle

theorem berth_setParentOf (x : Exchange) (view : ShellView) (i : ImportId) (s : SurfaceId) :
    (x.setParentOf view i s).2.berth = x.berth := by
  rcases setParentOf_cases (x := x) view i s with heq | ⟨r, e, t, -, -, -, -, -, heq⟩ <;> rw [heq]
  exact berth_parentChanged _ s

/-! ## Operations -/

/-- An operation leaves alone what the exchange keeps from its start, who listens to its end and
who listens to the display's shutdown. -/
structure Moored (x : Exchange) (d : Display L) (y : Exchange) (d' : Display L) : Prop where
  berth : y.berth = x.berth
  shutdown : d'.shutdown = d.shutdown
  terminated : d'.terminated = d.terminated

theorem Moored.mooring (h : Moored x d y d') : y.mooring = x.mooring :=
  congrArg (fun b : Berth => (b.displayListener, b.farewells)) h.berth

theorem moored_of_berth (d : Display L) (h : y.berth = x.berth) : Moored x d y d :=
  ⟨h, rfl, rfl⟩

theorem moored_expel (d : Display L) (c : ClientId) (e : ProtocolError)
    (h : y.berth = x.berth) : Moored x d (y.expel d c e).1 (y.expel d c e).2 :=
  ⟨(berth_clientGone _ c).trans h, rfl, rfl⟩

/-- The operations other than dispatching. -/
theorem moored_of_direct {op : Operation} {a : Answer} (hdirect : ∀ c r, op ≠ .dispatch c r)
    (hp : x.perform view patience d op = some (a, y, d')) : Moored x d y d' := by
  cases op with
  | bindExporter c =>
    cases hp
    exact moored_of_berth d (berth_bindExporter x d c)
  | bindImporter c =>
    cases hp
    exact moored_of_berth d (berth_bindImporter x d c)
  | exportSurface p s =>
    obtain ⟨⟨res, z⟩, hexport, heq⟩ := Option.bind_eq_some_iff.mp hp
    cases heq
    exact moored_of_berth d (berth_exportSurface hexport)
  | importHandle m handle =>
    cases hp
    exact moored_of_berth d (berth_importHandle x m handle)
  | setParentOf i s =>
    cases hp
    exact moored_of_berth d (berth_setParentOf x view i s)
  | destroyExport e =>
    cases hp
    exact moored_of_berth d (berth_destroyExport x e)
  | destroyImport i =>
    cases hp
    exact moored_of_berth d (berth_destroyImport x i)
  | destroyExporter p =>
    cases hp
    exact moored_of_berth d (berth_destroyExporter x p)
  | destroyImporter m =>
    cases hp
    exact moored_of_berth d (berth_destroyImporter x m)
  | unmapped s =>
    cases hp
    exact moored_of_berth d (berth_unmapped x s)
  | parentChanged s =>
    cases hp
    exact moored_of_berth d (berth_parentChanged x s)
  | clientGone c =>
    cases hp
    exact moored_of_berth d (berth_clientGone x c)
  | expel c e =>
    cases hp
    exact moored_expel d c e rfl
  | dispatch c r => exact absurd rfl (hdirect c r)
  | takeEvents =>
    cases hp
    exact moored_of_berth d rfl

theorem perform_moored {op : Operation} {a : Answer}
    (hp : x.perform view patience d op = some (a, y, d')) : Moored x d y d' := by
  cases op with
  | dispatch c r =>
    obtain ⟨⟨res, z, d₁⟩, hdispatch, heq⟩ := Option.map_eq_some_iff.mp hp
    cases heq
    rcases dispatch_cases hdispatch with ⟨-, rfl, rfl⟩ | ⟨e, handles, -, rfl, rfl⟩ | ⟨-, hserve⟩
    · exact moored_of_berth _ rfl
    · have hdrawn : ({ x with handles } : Exchange).berth = x.berth := rfl
      exact moored_expel d c e hdrawn
    · exact moored_of_direct (operation_ne_dispatch r) hserve
  | _ => exact moored_of_direct (fun _ _ heq => by cases heq) hp

/-! ## The end -/

/-- Due in the end are those who listen then, in the order in which they were added. -/
theorem teardown_due (x : Exchange) : x.teardown.1 = x.farewells.listeners.map Prod.snd := by
  have himporters : ∀ (x : Exchange) m, (x.retireImporter m .nothing).berth = x.berth :=
    fun x m => berth_retireImporter x m .nothing
  have hexporters : ∀ (x : Exchange) p, (x.retireExporter p .nothing).berth = x.berth :=
    fun x p => berth_retireExporter x p .nothing
  have hberth : ∀ (ms : List ImporterId) (ps : List ExporterId),
      (ps.foldl (retireExporter · · .nothing)
        (ms.foldl (retireImporter · · .nothing) x)).berth = x.berth := fun ms ps =>
    (berth_foldl hexporters ps _).trans (berth_foldl himporters ms x)
  exact congrArg (fun b : Berth => b.farewells.listeners.map Prod.snd) (hberth _ _)

end SurfaceExchange.Exchange
