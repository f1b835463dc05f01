import SurfaceExchange.Proofs.Registries

/-!
# Sound exchanges

`Sound` is what holds of an exchange between any two operations: it is
coherent, and what it has on record about ownership agrees. Here are the ways
in which objects come; those in which they become inert or go follow.
-/

namespace SurfaceExchange

/-! ## Objects that are made -/

variable {E E' : Table ExportId Export} {I : Table ImportId Import}

/-- An export that nobody imports yet is linked to nothing. -/
theorem Links.addExport (h : Links E I) {e : ExportId} {s : Export} (he : E.find? e = none)
    (hs : s.importers = []) (hplaced : s.Placed) : Links (E.insert e s) I where
  listed := by
    intro i r e' hi hsource
    obtain ⟨s', he', hm⟩ := h.listed hi hsource
    exact ⟨s', Table.find?_insert_of_free he he', hm⟩
  resolved := by
    intro e' s' i hf hm
    rcases Table.of_find?_insert hf with ⟨-, rfl⟩ | hf
    · rw [hs] at hm
      cases hm
    · exact h.resolved hf hm
  ordered := by
    intro e' s' hf
    rcases Table.of_find?_insert hf with ⟨-, rfl⟩ | hf
    · rw [hs]
      exact List.Pairwise.nil
    · exact h.ordered hf
  childless := h.childless
  exportPlaced := by
    intro e' s' hf
    rcases Table.of_find?_insert hf with ⟨-, rfl⟩ | hf
    · exact hplaced
    · exact h.exportPlaced hf
  linkPlaced := h.linkPlaced
  surfaces_nodup := h.surfaces_nodup
  oneParent := h.oneParent

/-- An import without children owns no link. -/
theorem of_find?_insert_childless {i j : ImportId} {r r' : Import} {l : ChildLink}
    (hr : r.children = []) (hf : (I.insert i r).find? j = some r') (hl : l ∈ r'.children) :
    I.find? j = some r' := by
  rcases Table.of_find?_insert hf with ⟨-, rfl⟩ | hf
  · rw [hr] at hl
    cases hl
  · exact hf

/-- Exports before and after an import is put behind the others on the list of its source. -/
def Enlists (E E' : Table ExportId Export) (i : ImportId) (source : Option ExportId) : Prop :=
  ∀ e, E'.find? e = (E.find? e).map (fun s =>
    { s with importers := if source = some e then s.importers ++ [i] else s.importers })

namespace Enlists

variable {i : ImportId} {r : Import} (hE : Enlists E E' i r.source)

include hE

theorem after {e : ExportId} {s : Export} (he : E.find? e = some s) :
    ∃ s', E'.find? e = some s' := ⟨_, by rw [hE, he]; rfl⟩

theorem before {e : ExportId} {s' : Export} (he : E'.find? e = some s') :
    ∃ s, E.find? e = some s ∧ s' =
      { s with importers := if r.source = some e then s.importers ++ [i] else s.importers } := by
  rw [hE] at he
  obtain ⟨s, hs, heq⟩ := Option.map_eq_some_iff.mp he
  exact ⟨s, hs, heq.symm⟩

theorem mem_importers_iff {e : ExportId} {s s' : Export} (he : E.find? e = some s)
    (he' : E'.find? e = some s') (j : ImportId) :
    j ∈ s'.importers ↔ j ∈ s.importers ∨ (r.source = some e ∧ j = i) := by
  rw [hE, he] at he'
  cases he'
  by_cases hs : r.source = some e <;> simp [hs]

theorem listed (h : Links E I) (hsource : ∀ e, r.source = some e → (E.find? e).isSome)
    {j : ImportId} {r' : Import} {e : ExportId} (hj : (I.insert i r).find? j = some r')
    (hs : r'.source = some e) : ∃ s, E'.find? e = some s ∧ j ∈ s.importers := by
  rcases Table.of_find?_insert hj with ⟨rfl, rfl⟩ | hj
  · obtain ⟨s, he⟩ := Option.isSome_iff_exists.mp (hsource e hs)
    obtain ⟨s', he'⟩ := hE.after he
    exact ⟨s', he', (hE.mem_importers_iff he he' _).mpr (Or.inr ⟨hs, rfl⟩)⟩
  · obtain ⟨s, he, hm⟩ := h.listed hj hs
    obtain ⟨s', he'⟩ := hE.after he
    exact ⟨s', he', (hE.mem_importers_iff he he' _).mpr (Or.inl hm)⟩

theorem resolved (h : Links E I) (hi : I.find? i = none) {e : ExportId} {s' : Export}
    {j : ImportId} (he' : E'.find? e = some s') (hj : j ∈ s'.importers) :
    ∃ r', (I.insert i r).find? j = some r' ∧ r'.source = some e := by
  obtain ⟨s, he, -⟩ := hE.before he'
  rcases (hE.mem_importers_iff he he' j).mp hj with hm | ⟨hs, rfl⟩
  · obtain ⟨r', hj', hs'⟩ := h.resolved he hm
    exact ⟨r', Table.find?_insert_of_free hi hj', hs'⟩
  · exact ⟨r, Table.find?_insert_self _ _ _, hs⟩

/-- The import goes behind the others because its number is the highest. -/
theorem ordered (h : Links E I) (hfresh : ∀ {j r'}, I.find? j = some r' → j.serial < i.serial)
    {e : ExportId} {s' : Export} (he' : E'.find? e = some s') :
    s'.importers.Pairwise (fun j k => j.serial < k.serial) := by
  obtain ⟨s, he, rfl⟩ := hE.before he'
  dsimp only
  split
  · refine List.pairwise_append.mpr ⟨h.ordered he, List.pairwise_singleton _ _, ?_⟩
    intro j hj k hk
    obtain ⟨r', hj', -⟩ := h.resolved he hj
    rw [List.mem_singleton.mp hk]
    exact hfresh hj'
  · exact h.ordered he

end Enlists

/-- An import that is made has no links, and its source lists it behind the others. -/
theorem Links.addImport (h : Links E I) {i : ImportId} {r : Import} (hi : I.find? i = none)
    (hr : r.children = []) (hsource : ∀ e, r.source = some e → (E.find? e).isSome)
    (hfresh : ∀ {j r'}, I.find? j = some r' → j.serial < i.serial)
    (hE : Enlists E E' i r.source) : Links E' (I.insert i r) where
  listed := hE.listed h hsource
  resolved := hE.resolved h hi
  ordered := hE.ordered h hfresh
  childless := by
    intro j r' hf hs
    rcases Table.of_find?_insert hf with ⟨-, rfl⟩ | hf
    · exact hr
    · exact h.childless hf hs
  exportPlaced := by
    intro e s' hf
    obtain ⟨s, he, rfl⟩ := hE.before hf
    exact ⟨(h.exportPlaced he).unmap_surface, (h.exportPlaced he).unmap_event⟩
  linkPlaced := fun hf hl => h.linkPlaced (of_find?_insert_childless hr hf hl) hl
  surfaces_nodup := by
    intro j r' hf
    rcases Table.of_find?_insert hf with ⟨-, rfl⟩ | hf
    · rw [hr]
      exact List.nodup_nil
    · exact h.surfaces_nodup hf
  oneParent := fun hj hk hl hm => h.oneParent (of_find?_insert_childless hr hj hl)
    (of_find?_insert_childless hr hk hm) hl hm

theorem holds_insert_export_iff {e : ExportId} {s : Export} (he : E.find? e = none)
    {t : Subscription} {w : Watcher} : Holds (E.insert e s) I t w ↔
      (t = s.unmap ∧ w = .exportUnmap e) ∨ Holds E I t w := by
  constructor
  · intro hw
    cases hw with
    | exportUnmap hf =>
      rcases Table.of_find?_insert hf with ⟨rfl, rfl⟩ | hf
      · exact Or.inl ⟨rfl, rfl⟩
      · exact Or.inr (.exportUnmap hf)
    | childUnmap hi hl => exact Or.inr (.childUnmap hi hl)
    | childSetParent hi hl => exact Or.inr (.childSetParent hi hl)
  · rintro (⟨rfl, rfl⟩ | hw)
    · exact .exportUnmap (Table.find?_insert_self _ _ _)
    · cases hw with
      | exportUnmap hf => exact .exportUnmap (Table.find?_insert_of_free he hf)
      | childUnmap hi hl => exact .childUnmap hi hl
      | childSetParent hi hl => exact .childSetParent hi hl

/-- Neither importers nor an import without children have any tokens. -/
theorem holds_insert_import_iff {i : ImportId} {r : Import} (hi : I.find? i = none)
    (hr : r.children = []) {importers : ExportId → Export → List ImportId}
    (hE : ∀ e, E'.find? e = (E.find? e).map (fun s => { s with importers := importers e s }))
    {t : Subscription} {w : Watcher} : Holds E' (I.insert i r) t w ↔ Holds E I t w := by
  constructor
  · intro hw
    cases hw with
    | exportUnmap hf =>
      rw [hE] at hf
      obtain ⟨s, hs, rfl⟩ := Option.map_eq_some_iff.mp hf
      exact .exportUnmap (r := s) hs
    | childUnmap hf hl => exact .childUnmap (of_find?_insert_childless hr hf hl) hl
    | childSetParent hf hl => exact .childSetParent (of_find?_insert_childless hr hf hl) hl
  · intro hw
    cases hw with
    | @exportUnmap e s hs =>
      exact .exportUnmap (r := { s with importers := importers e s }) (by rw [hE, hs]; rfl)
    | childUnmap hf hl => exact .childUnmap (Table.find?_insert_of_free hi hf) hl
    | childSetParent hf hl => exact .childSetParent (Table.find?_insert_of_free hi hf) hl

theorem Watched.congr {E E' : Table ExportId Export} {I I' : Table ImportId Import}
    {s : Subscriptions} (h : Watched E I s) (hold : ∀ t w, Holds E' I' t w ↔ Holds E I t w) :
    Watched E' I' s :=
  ⟨h.wellFormed, fun {t w} => by rw [hold, h.listens_iff]⟩

namespace Exchange

variable {x y : Exchange}

/-- What holds between any two operations. -/
structure Sound (x : Exchange) : Prop where
  coherent : x.Coherent
  registered : x.Registered

/-! ## Resolving a handle -/

theorem export_of_resolve {h : String} {e : ExportId} (hr : x.resolve h = some e) :
    ∃ s, x.exports.find? e = some s ∧ s.handle.text = h := by
  obtain ⟨p, hp, rfl⟩ := Option.map_eq_some_iff.mp hr
  exact ⟨p.2, (x.exports.mem_toList_iff _ _).mp (List.mem_of_find?_eq_some hp),
    by simpa using List.find?_some hp⟩

theorem resolve_eq_none_iff (h : String) :
    x.resolve h = none ↔ ∀ e s, x.exports.find? e = some s → s.handle.text ≠ h := by
  rw [resolve, Option.map_eq_none_iff, List.find?_eq_none]
  constructor
  · intro hn e s he hs
    exact hn (e, s) ((x.exports.mem_toList_iff _ _).mpr he) (decide_eq_true hs)
  · intro hn p hp hs
    exact hn p.1 p.2 ((x.exports.mem_toList_iff _ _).mp hp) (of_decide_eq_true hs)

namespace Sound

/-- Soundness is a matter of tables, subscriptions and ownership. -/
theorem congr (h : x.Sound) (hexporters : y.exporters = x.exporters)
    (himporters : y.importers = x.importers) (hexports : y.exports = x.exports)
    (himports : y.imports = x.imports) (hinertExports : y.inertExports = x.inertExports)
    (hinertImports : y.inertImports = x.inertImports)
    (hsubscriptions : y.subscriptions = x.subscriptions) (hownership : y.ownership = x.ownership)
    (hnext : y.nextId = x.nextId) : y.Sound where
  coherent := by
    refine ⟨?_, ?_⟩
    · rw [hexports, himports]
      exact h.coherent.links
    · rw [hexports, himports, hsubscriptions]
      exact h.coherent.watched
  registered := by
    refine h.registered.congr (fun o => ?_) (fun o => ?_) hownership hnext
    · cases o <;> simp only [clientOf?, hexporters, himporters, hexports, himports]
    · cases o <;> simp only [inertClient?, hinertExports, hinertImports]

/-- Drawing handles and sending a client its error are no matter of soundness. -/
theorem blame (h : x.Sound) (handles : HandleStream) (c : ClientId) (err : ProtocolError) :
    ({ x with handles }.send c (.error err)).Sound :=
  h.congr rfl rfl rfl rfl rfl rfl rfl rfl rfl

/-- The number of a live import has been given away. -/
theorem serial_lt (h : x.Sound) {i : ImportId} {r : Import} (hi : x.imports.find? i = some r) :
    i.serial < x.nextId := by
  have hlive : x.clientOf? (.imported i) = some r.client := by simp [clientOf?, hi]
  exact h.registered.fresh (h.registered.owns_of_live hlive)

theorem find?_exports_next (h : x.Sound) (p : ExporterId) :
    x.exports.find? ⟨p, x.nextId⟩ = none := by
  have hn := h.registered.clientOf?_eq_none_of_number (o := .exported ⟨p, x.nextId⟩) rfl
  simpa [clientOf?] using hn

theorem find?_imports_next (h : x.Sound) (m : ImporterId) :
    x.imports.find? ⟨m, x.nextId⟩ = none := by
  have hn := h.registered.clientOf?_eq_none_of_number (o := .imported ⟨m, x.nextId⟩) rfl
  simpa [clientOf?] using hn

/-! ## Objects that come -/

/-- A registry that is bound takes the next number. -/
theorem addExporter (h : x.Sound) (g : Registry) :
    ({ x with
      nextId := x.nextId + 1
      exporters := x.exporters.insert ⟨x.nextId⟩ g
      ownership := x.ownership.track g.client (.exporter ⟨x.nextId⟩) } : Exchange).Sound where
  coherent := ⟨h.coherent.links, h.coherent.watched⟩
  registered := by
    refine h.registered.add (o := .exporter ⟨x.nextId⟩) rfl (by simp [ObjectId.registry?])
      (fun o => ?_) (fun o => by cases o <;> rfl) rfl rfl
    cases o with
    | exporter id =>
      simp only [clientOf?, Table.find?_insert, ObjectId.exporter.injEq, eq_comm (a := id)]
      split <;> rfl
    | _ => rfl

theorem addImporter (h : x.Sound) (g : Registry) :
    ({ x with
      nextId := x.nextId + 1
      importers := x.importers.insert ⟨x.nextId⟩ g
      ownership := x.ownership.track g.client (.importer ⟨x.nextId⟩) } : Exchange).Sound where
  coherent := ⟨h.coherent.links, h.coherent.watched⟩
  registered := by
    refine h.registered.add (o := .importer ⟨x.nextId⟩) rfl (by simp [ObjectId.registry?])
      (fun o => ?_) (fun o => by cases o <;> rfl) rfl rfl
    cases o with
    | importer id =>
      simp only [clientOf?, Table.find?_insert, ObjectId.importer.injEq, eq_comm (a := id)]
      split <;> rfl
    | _ => rfl

end Sound

/-- The export that an exporter makes next. -/
def nextExport (x : Exchange) (g : Registry) (surface : SurfaceId) (handle : Handle) : Export :=
  ⟨g.client, g.version, handle, surface, [], ⟨surface, .unmap, ⟨x.subscriptions.nextId⟩⟩⟩

theorem addExport_eq (p : ExporterId) (g : Registry) (surface : SurfaceId) (handle : Handle) :
    x.addExport p g surface handle = (⟨p, x.nextId⟩, { x with
      nextId := x.nextId + 1
      exports := x.exports.insert ⟨p, x.nextId⟩ (x.nextExport g surface handle)
      subscriptions :=
        (x.subscriptions.subscribe surface .unmap (.exportUnmap ⟨p, x.nextId⟩)).2
      ownership := x.ownership.track g.client (.exported ⟨p, x.nextId⟩)
      events := x.events ++ [⟨g.client, .handle ⟨p, x.nextId⟩ handle⟩] }) := rfl

/-- The import that an importer makes next. -/
def nextImport (x : Exchange) (g : Registry) (handle : String) : Import :=
  ⟨g.client, g.version, x.resolve handle, []⟩

/-- What the client of a new import is told at once. -/
def firstNotice (x : Exchange) (m : ImporterId) (g : Registry) (handle : String) :
    List Delivery :=
  if (x.resolve handle).isSome then [] else [⟨g.client, .destroyed ⟨m, x.nextId⟩⟩]

theorem addImport_eq (m : ImporterId) (g : Registry) (handle : String) :
    x.addImport m g handle = (⟨m, x.nextId⟩, { x with
      nextId := x.nextId + 1
      imports := x.imports.insert ⟨m, x.nextId⟩ (x.nextImport g handle)
      exports := x.exports.mapValues (fun e s => { s with
        importers := if x.resolve handle = some e then s.importers ++ [⟨m, x.nextId⟩]
          else s.importers })
      ownership := x.ownership.track g.client (.imported ⟨m, x.nextId⟩)
      events := x.events ++ x.firstNotice m g handle }) := by
  have hsame : { x with nextId := x.nextId + 1 : Exchange }.resolve handle = x.resolve handle := rfl
  cases hr : x.resolve handle with
  | none =>
    have hexports : x.exports.mapValues (fun e s => { s with
        importers := if none = some e then s.importers ++ [⟨m, x.nextId⟩] else s.importers }) =
        x.exports :=
      Table.ext_find? fun e => by simp [Table.find?_mapValues]
    simp only [addImport, allocate, track, send, nextImport, firstNotice, hsame, hr, hexports]
    rfl
  | some e =>
    have hexports : x.exports.modify e (fun s => { s with
        importers := s.importers ++ [⟨m, x.nextId⟩] }) =
        x.exports.mapValues (fun e' s => { s with
          importers := if some e = some e' then s.importers ++ [⟨m, x.nextId⟩]
            else s.importers }) := by
      apply Table.ext_find?
      intro e'
      rw [Table.find?_modify, Table.find?_mapValues]
      by_cases he : e' = e
      · simp [he]
      · simp [he, Ne.symm he]
    simp only [addImport, allocate, track, nextImport, firstNotice, hsame, hr, hexports]
    simp

namespace Sound

theorem addExport (h : x.Sound) {p : ExporterId} {g : Registry} (hg : x.exporters.find? p = some g)
    (surface : SurfaceId) (handle : Handle) : (x.addExport p g surface handle).2.Sound where
  coherent := by
    have hfree := h.find?_exports_next p
    refine ⟨h.coherent.links.addExport hfree rfl ⟨rfl, rfl⟩, ?_⟩
    exact h.coherent.watched.subscribe surface .unmap _ fun t w => holds_insert_export_iff hfree
  registered := by
    refine h.registered.add (o := .exported ⟨p, x.nextId⟩) rfl (fun q hq => ?_) (fun o => ?_)
      (fun o => by cases o <;> rfl) rfl rfl
    · cases hq
      simp [clientOf?, hg]
    · cases o with
      | exported id =>
        simp only [clientOf?, addExport_eq, Table.find?_insert, ObjectId.exported.injEq,
          eq_comm (a := id)]
        split <;> rfl
      | _ => rfl

theorem addImport (h : x.Sound) {m : ImporterId} {g : Registry} (hg : x.importers.find? m = some g)
    (handle : String) : (x.addImport m g handle).2.Sound := by
  have hfree := h.find?_imports_next m
  rw [addImport_eq]
  have hexport : ∀ e, (x.exports.mapValues (fun e (s : Export) => { s with
      importers := if x.resolve handle = some e then s.importers ++ [(⟨m, x.nextId⟩ : ImportId)]
        else s.importers })).find? e = (x.exports.find? e).map (fun s => { s with
      importers := if (x.nextImport g handle).source = some e then
        s.importers ++ [(⟨m, x.nextId⟩ : ImportId)] else s.importers }) :=
    fun e => Table.find?_mapValues _ _ e
  refine ⟨⟨?_, ?_⟩, ?_⟩
  · refine h.coherent.links.addImport hfree rfl (fun e he => ?_) (fun hj => h.serial_lt hj) hexport
    obtain ⟨s, hs, -⟩ := export_of_resolve he
    exact Option.isSome_of_eq_some hs
  · exact h.coherent.watched.congr fun t w => holds_insert_import_iff hfree rfl hexport
  · refine h.registered.add (o := .imported ⟨m, x.nextId⟩) rfl (fun q hq => ?_) (fun o => ?_)
      (fun o => by cases o <;> rfl) rfl rfl
    · cases hq
      simp [clientOf?, hg]
    · cases o with
      | imported id =>
        simp only [clientOf?, Table.find?_insert, ObjectId.imported.injEq, eq_comm (a := id)]
        split <;> rfl
      | exported id =>
        simp only [clientOf?, hexport, Option.map_map]
        rfl
      | _ => rfl

end Sound

end Exchange

end SurfaceExchange
