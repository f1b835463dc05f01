import SurfaceExchange.Proofs.Declaring

/-!
# What is refused, and that it leaves no trace

An operation checks one thing after the other, and the first thing that it
finds wrong is what it answers. `ExportFails`, `ImportFails` and `ChildFails`
say in that order what can be wrong, without running anything. Each operation
fails if and only if they say so, and with that error. Of one that has failed
nothing is left but the handles that it has drawn, which only an export whose
search for a handle failed can have (`Reachable.refused_iff`).
-/

namespace SurfaceExchange.Exchange

variable {L : Type} {x y : Exchange} {view : ShellView} {err : RequestError}

/-- No object has this identifier, neither a live one nor an inert one. -/
def Absent (x : Exchange) (o : ObjectId) : Prop :=
  x.clientOf? o = none ∧ x.inertClient? o = none

/-- The error for a surface that is no toplevel. -/
def roleError (view : ShellView) (o : ObjectId) (c : SurfaceId) : ProtocolError where
  code := .invalidRole
  object := o
  detail :=
    if (view.role c).isSome then "surface must be an xdg_toplevel"
    else "surface must be an xdg_surface"

/-- Why a surface is not exported, and the stream of handles that is left then. -/
inductive ExportFails (x : Exchange) (view : ShellView) (p : ExporterId) (c : SurfaceId) :
    RequestError → HandleStream → Prop
  /-- The exporter is not live. -/
  | unknown : x.exporters.find? p = none →
      ExportFails x view p c (.unknownObject (.exporter p)) x.handles
  /-- The surface is no toplevel. -/
  | role {g : Registry} : x.exporters.find? p = some g → view.role c ≠ some .toplevel →
      ExportFails x view p c (.protocol (roleError view (.exporter p) c)) x.handles
  /-- The client has all the exports that it may have. -/
  | limit {g : Registry} : x.exporters.find? p = some g → view.role c = some .toplevel →
      Config.reached x.config.maxExports (x.ownership.counts g.client).exports = true →
      ExportFails x view p c (.protocol (.noMemory (.exporter p))) x.handles
  /-- The search for a handle fails. -/
  | handle {g : Registry} {n : Nat} {f : HandleFailure} :
      x.exporters.find? p = some g → view.role c = some .toplevel →
      Config.reached x.config.maxExports (x.ownership.counts g.client).exports = false →
      x.handles.Ends x.isTaken x.config.maxHandleAttempts n (.error f) →
      ExportFails x view p c (.protocol (.noMemory (.exporter p))) (x.handles.skip n)

/-- Why a handle is not imported. What the handle is does not matter. -/
inductive ImportFails (x : Exchange) (m : ImporterId) : RequestError → Prop
  /-- The importer is not live. -/
  | unknown : x.importers.find? m = none → ImportFails x m (.unknownObject (.importer m))
  /-- The client has all the imports that it may have. -/
  | limit {g : Registry} : x.importers.find? m = some g →
      Config.reached x.config.maxImports (x.ownership.counts g.client).imports = true →
      ImportFails x m (.protocol (.noMemory (.importer m)))

/-- Why a child is not declared. -/
inductive ChildFails (x : Exchange) (view : ShellView) (i : ImportId) (c : SurfaceId) :
    RequestError → Prop
  /-- The import is neither live nor inert. -/
  | unknown : x.Absent (.imported i) → ChildFails x view i c (.unknownObject (.imported i))
  /-- The import is resolved, and the surface is no toplevel. -/
  | role {r : Import} {e : ExportId} : x.imports.find? i = some r → r.source = some e →
      view.role c ≠ some .toplevel →
      ChildFails x view i c (.protocol (roleError view (.imported i) c))
  /-- Only one of the surface and the exported one is in the shell. -/
  | mismatch {r : Import} {e : ExportId} {s : Export} : x.imports.find? i = some r →
      r.source = some e → x.exports.find? e = some s → view.role c = some .toplevel →
      view.inShell s.surface ≠ view.inShell c →
      ChildFails x view i c (.protocol (.roleMismatch (.imported i)))

/-- Destroys an object of any kind as its client asks. -/
def destroyObject (x : Exchange) : ObjectId → Except RequestError Unit × Exchange
  | .exporter id => x.destroyExporter id
  | .exported id => x.destroyExport id
  | .importer id => x.destroyImporter id
  | .imported id => x.destroyImport id

theorem requireToplevel_eq (view : ShellView) (o : ObjectId) (c : SurfaceId) :
    requireToplevel view o c =
      if view.role c = some .toplevel then .ok () else .error (roleError view o c) := by
  rw [requireToplevel, roleError]
  cases view.role c with
  | none => rfl
  | some r => cases r <;> rfl

/-! ## Exports and imports -/

theorem exportFails_of_exportSurface {patience : Nat} {p : ExporterId} {c : SurfaceId}
    (hp : x.exportSurface view patience p c = some (.error err, y)) :
    ∃ s, ExportFails x view p c err s ∧ y = { x with handles := s } := by
  unfold exportSurface at hp
  cases hg : x.exporters.find? p with
  | none =>
    rw [hg] at hp
    cases hp
    exact ⟨_, .unknown hg, rfl⟩
  | some g =>
    simp only [hg, requireToplevel_eq] at hp
    by_cases hrole : view.role c = some .toplevel
    · simp only [if_pos hrole] at hp
      cases hlimit : Config.reached x.config.maxExports (x.ownership.counts g.client).exports with
      | true =>
        rw [hlimit, if_pos rfl] at hp
        cases hp
        exact ⟨_, .limit hg hrole hlimit, rfl⟩
      | false =>
        rw [hlimit, if_neg Bool.false_ne_true] at hp
        obtain ⟨⟨found, s⟩, hsearch, heq⟩ := Option.map_eq_some_iff.mp hp
        obtain ⟨n, hends, rfl⟩ := HandleStream.search_eq_some_iff.mp ⟨patience, hsearch⟩
        cases found with
        | error f =>
          cases heq
          exact ⟨_, .handle hg hrole hlimit hends, rfl⟩
        | ok h => cases heq
    · simp only [if_neg hrole] at hp
      cases hp
      exact ⟨_, .role hg hrole, rfl⟩

theorem ExportFails.exportSurface_eq {p : ExporterId} {c : SurfaceId} {s : HandleStream}
    (h : ExportFails x view p c err s) :
    ∃ patience, x.exportSurface view patience p c = some (.error err, { x with handles := s }) := by
  cases h with
  | unknown hg => exact ⟨0, by simp only [exportSurface, hg]⟩
  | role hg hrole => exact ⟨0, by simp only [exportSurface, hg, requireToplevel_eq, if_neg hrole]⟩
  | limit hg hrole hlimit =>
    exact ⟨0, by simp only [exportSurface, hg, requireToplevel_eq, if_pos hrole, hlimit, if_true]⟩
  | handle hg hrole hlimit hends =>
    obtain ⟨patience, hsearch⟩ := HandleStream.search_eq_some_iff.mpr ⟨_, hends, rfl⟩
    refine ⟨patience, ?_⟩
    simp only [exportSurface, hg, requireToplevel_eq, if_pos hrole, hlimit, hsearch,
      Bool.false_eq_true, if_false, Option.map_some]

theorem importHandle_eq_error_iff (m : ImporterId) (handle : String) :
    x.importHandle m handle = (.error err, y) ↔ ImportFails x m err ∧ y = x := by
  constructor
  · intro hp
    unfold importHandle at hp
    split at hp
    · next hg =>
      cases hp
      exact ⟨.unknown hg, rfl⟩
    · next g hg =>
      split at hp
      · next hlimit =>
        cases hp
        exact ⟨.limit hg hlimit, rfl⟩
      · cases hp
  · rintro ⟨hfails, rfl⟩
    cases hfails with
    | unknown hg => simp only [importHandle, hg]
    | limit hg hlimit => simp only [importHandle, hg, hlimit, if_true]

/-! ## Children -/

theorem absent_imported_iff (i : ImportId) : x.Absent (.imported i) ↔
    x.imports.find? i = none ∧ x.inertImports.contains i = false := by
  simp [Absent, clientOf?, inertClient?, Table.contains]

theorem Sound.setParentOf_eq_error_iff (h : x.Sound) (i : ImportId) (c : SurfaceId) :
    x.setParentOf view i c = (.error err, y) ↔ ChildFails x view i c err ∧ y = x := by
  constructor
  · intro hp
    unfold setParentOf at hp
    split at hp
    · cases hp
    next hinert =>
    split at hp
    · next hi =>
      cases hp
      exact ⟨.unknown ((absent_imported_iff i).mpr ⟨hi, by simpa using hinert⟩), rfl⟩
    next r hi =>
    split at hp
    · cases hp
    next s hsource =>
    obtain ⟨e, hs, he⟩ := Option.bind_eq_some_iff.mp hsource
    rw [requireToplevel_eq] at hp
    by_cases hrole : view.role c = some .toplevel
    · simp only [if_pos hrole] at hp
      split at hp
      · next hshell =>
        cases hp
        exact ⟨.mismatch hi hs he hrole hshell, rfl⟩
      · split at hp <;> cases hp
    · simp only [if_neg hrole] at hp
      cases hp
      exact ⟨.role hi hs hrole, rfl⟩
  · rintro ⟨hfails, rfl⟩
    -- a live import is not inert, and what it is resolved to is live
    have hlive : ∀ {r}, y.imports.find? i = some r → y.inertImports.contains i = false :=
      fun hi => h.registered.inertImports_of_live (Option.isSome_of_eq_some hi)
    cases hfails with
    | unknown habsent =>
      obtain ⟨hi, hinert⟩ := (absent_imported_iff i).mp habsent
      simp only [setParentOf, hi, hinert, Bool.false_eq_true, if_false]
    | role hi hs hrole =>
      obtain ⟨s, he, -⟩ := h.coherent.links.listed hi hs
      simp only [setParentOf, hlive hi, hi, hs, Option.bind_some, he, requireToplevel_eq,
        if_neg hrole, Bool.false_eq_true, if_false]
    | mismatch hi hs he hrole hshell =>
      simp only [setParentOf, hlive hi, hi, hs, Option.bind_some, he, requireToplevel_eq,
        if_pos hrole, if_pos hshell, Bool.false_eq_true, if_false]

/-! ## Registries and objects that are destroyed -/

theorem refusal_eq_iff {α : Type} {e : RequestError} :
    ((.error e, x) : Except RequestError α × Exchange) = (.error err, y) ↔ err = e ∧ y = x := by
  simp only [Prod.mk.injEq, Except.error.injEq]
  exact and_congr eq_comm eq_comm

theorem bindExporter_eq_error_iff (d : Display L) (c : ClientId) :
    x.bindExporter d c = (.error err, y) ↔
      d.isConnected c = false ∧ err = .notConnected c ∧ y = x := by
  unfold bindExporter
  cases d.isConnected c with
  | true => simp
  | false => simp only [Bool.false_eq_true, if_false, refusal_eq_iff, true_and]

theorem bindImporter_eq_error_iff (d : Display L) (c : ClientId) :
    x.bindImporter d c = (.error err, y) ↔
      d.isConnected c = false ∧ err = .notConnected c ∧ y = x := by
  unfold bindImporter
  cases d.isConnected c with
  | true => simp
  | false => simp only [Bool.false_eq_true, if_false, refusal_eq_iff, true_and]

theorem destroyExporter_eq_error_iff (q : ExporterId) : x.destroyExporter q = (.error err, y) ↔
    x.Absent (.exporter q) ∧ err = .unknownObject (.exporter q) ∧ y = x := by
  unfold destroyExporter Table.contains
  cases h : x.exporters.find? q with
  | none =>
    have habsent : x.Absent (.exporter q) := ⟨by rw [clientOf?, h]; rfl, rfl⟩
    simp only [Option.isSome_none, Bool.false_eq_true, if_false, refusal_eq_iff, habsent, true_and]
  | some g => simp [Absent, clientOf?, h]

theorem destroyImporter_eq_error_iff (m : ImporterId) : x.destroyImporter m = (.error err, y) ↔
    x.Absent (.importer m) ∧ err = .unknownObject (.importer m) ∧ y = x := by
  unfold destroyImporter Table.contains
  cases h : x.importers.find? m with
  | none =>
    have habsent : x.Absent (.importer m) := ⟨by rw [clientOf?, h]; rfl, rfl⟩
    simp only [Option.isSome_none, Bool.false_eq_true, if_false, refusal_eq_iff, habsent, true_and]
  | some g => simp [Absent, clientOf?, h]

theorem destroyExport_eq_error_iff (e : ExportId) : x.destroyExport e = (.error err, y) ↔
    x.Absent (.exported e) ∧ err = .unknownObject (.exported e) ∧ y = x := by
  unfold destroyExport Table.contains
  cases h : x.exports.find? e with
  | some g => simp [Absent, clientOf?, h]
  | none =>
    cases hinert : x.inertExports.find? e with
    | some c => simp [Absent, inertClient?, hinert]
    | none =>
      have habsent : x.Absent (.exported e) := ⟨by rw [clientOf?, h]; rfl, hinert⟩
      simp only [Option.isSome_none, Bool.false_eq_true, if_false, refusal_eq_iff, habsent,
        true_and]

theorem destroyImport_eq_error_iff (i : ImportId) : x.destroyImport i = (.error err, y) ↔
    x.Absent (.imported i) ∧ err = .unknownObject (.imported i) ∧ y = x := by
  unfold destroyImport Table.contains
  cases h : x.imports.find? i with
  | some g => simp [Absent, clientOf?, h]
  | none =>
    cases hinert : x.inertImports.find? i with
    | some c => simp [Absent, inertClient?, hinert]
    | none =>
      have habsent : x.Absent (.imported i) := ⟨by rw [clientOf?, h]; rfl, hinert⟩
      simp only [Option.isSome_none, Bool.false_eq_true, if_false, refusal_eq_iff, habsent,
        true_and]

theorem destroyObject_eq_error_iff (o : ObjectId) : x.destroyObject o = (.error err, y) ↔
    x.Absent o ∧ err = .unknownObject o ∧ y = x := by
  cases o with
  | exporter q => exact destroyExporter_eq_error_iff q
  | exported e => exact destroyExport_eq_error_iff e
  | importer m => exact destroyImporter_eq_error_iff m
  | imported i => exact destroyImport_eq_error_iff i

/-- When each operation fails, how, and what it has changed then. -/
structure Refused (x : Exchange) (view : ShellView) : Prop where
  export_iff : ∀ p c err y, (∃ patience, x.exportSurface view patience p c = some (.error err, y)) ↔
    ∃ s, ExportFails x view p c err s ∧ y = { x with handles := s }
  import_iff : ∀ m handle err y, x.importHandle m handle = (.error err, y) ↔
    ImportFails x m err ∧ y = x
  child_iff : ∀ i c err y, x.setParentOf view i c = (.error err, y) ↔
    ChildFails x view i c err ∧ y = x
  destroy_iff : ∀ o err y, x.destroyObject o = (.error err, y) ↔
    x.Absent o ∧ err = .unknownObject o ∧ y = x
  bindExporter_iff : ∀ {L : Type} (d : Display L) c err y,
    x.bindExporter d c = (.error err, y) ↔
      d.isConnected c = false ∧ err = .notConnected c ∧ y = x
  bindImporter_iff : ∀ {L : Type} (d : Display L) c err y,
    x.bindImporter d c = (.error err, y) ↔
      d.isConnected c = false ∧ err = .notConnected c ∧ y = x

/-- An operation fails exactly when and as `ExportFails`, `ImportFails` and `ChildFails` say, or
when there is nothing to destroy or no client to bind for. One that has failed has changed nothing
but the handles drawn. -/
theorem Reachable.refused_iff (h : x.Reachable) (view : ShellView) : x.Refused view where
  export_iff p c err y := by
    constructor
    · rintro ⟨patience, hp⟩
      exact exportFails_of_exportSurface hp
    · rintro ⟨s, hfails, rfl⟩
      exact hfails.exportSurface_eq
  import_iff m handle _ _ := importHandle_eq_error_iff m handle
  child_iff i c _ _ := h.sound.setParentOf_eq_error_iff i c
  destroy_iff o _ _ := destroyObject_eq_error_iff o
  bindExporter_iff d c _ _ := bindExporter_eq_error_iff d c
  bindImporter_iff d c _ _ := bindImporter_eq_error_iff d c

/-- The three handles of the stream are used up. -/
def drained : List Operation :=
  sharing ++ [.exportSurface ⟨1⟩ ⟨5⟩, .exportSurface ⟨1⟩ ⟨6⟩]

/-- A popup is no child for an import that is resolved, a fourth handle is not to be had, and an
export that never was is not destroyed. -/
theorem refused_iff_drained : (rehearse drained).2.Reachable ∧
    (rehearse drained).2.setParentOf { role := fun _ => some .popup } ⟨⟨2⟩, 4⟩ ⟨8⟩ =
      (.error (.protocol (.notToplevel (.imported ⟨⟨2⟩, 4⟩))), (rehearse drained).2) ∧
    (∃ patience, (rehearse drained).2.exportSurface { role := fun _ => some .toplevel } patience
        ⟨1⟩ ⟨8⟩ = some (.error (.protocol (.noMemory (.exporter ⟨1⟩))),
          { (rehearse drained).2 with handles := (rehearse drained).2.handles.skip 1 })) ∧
    (rehearse drained).2.destroyObject (.exported ⟨⟨1⟩, 9⟩) =
      (.error (.unknownObject (.exported ⟨⟨1⟩, 9⟩)), (rehearse drained).2) := by
  have hreach := reachable_rehearse drained
  refine ⟨hreach, ?_, ?_, ?_⟩
  · exact ((hreach.refused_iff _).child_iff _ _ _ _).mpr ⟨.role rfl rfl (by decide), rfl⟩
  · refine ((hreach.refused_iff _).export_iff _ _ _ _).mpr
      ⟨_, .handle rfl rfl rfl (f := .exhausted) ?_, rfl⟩
    exact .concluded nofun (by decide) rfl trivial
  · exact ((hreach.refused_iff { role := fun _ => none }).destroy_iff _ _ _).mpr
      ⟨⟨rfl, rfl⟩, rfl, rfl⟩

end SurfaceExchange.Exchange
