import SurfaceExchange.Proofs.Run

/-!
# A client that disappears

Everything of the client goes, and the others keep what they have. What they
lose is listed by `brokenOff`: imports of theirs that were resolved to exports
of the client, each of which is told of once.
-/

namespace SurfaceExchange

theorem Ownership.holdings_release (w : Ownership) {c d : ClientId} (h : d ≠ c) :
    (w.release c).2.holdings d = w.holdings d := by
  simp [holdings, release, Table.find?_erase, h]

namespace Exchange

variable {x : Exchange}

/-- The imports that lose their source with a client, each with the export that it was resolved
to and with its own client. Imports of the client itself are not among them. -/
def brokenOff (x : Exchange) (c : ClientId) : List (ExportId × ImportId × ClientId) :=
  ((x.withoutImports c).exportsHeld c).flatMap (fun p =>
    p.2.importers.filterMap (fun i => (x.imports.find? i).map (fun r => (p.1, i, r.client))))

/-- What the client of an import is told when its source goes. -/
def parting (b : ExportId × ImportId × ClientId) : Delivery := ⟨b.2.2, .destroyed b.2.1⟩

/-- An import that is listed when the imports of a client are gone is another client's. -/
theorem import_of_listed (h : x.Coherent) {c : ClientId} {p : ExportId × Export} {i : ImportId}
    (hp : p ∈ (x.withoutImports c).exportsHeld c) (hi : i ∈ p.2.importers) :
    ∃ r, x.imports.find? i = some r ∧ r.client ≠ c ∧ r.source = some p.1 := by
  obtain ⟨hf, -⟩ := (mem_exportsHeld_iff c p).mp hp
  obtain ⟨r, hr, hs⟩ := (h.withoutImports c).links.resolved hf hi
  rw [find?_imports_withoutImports, Option.filter_eq_some_iff, decide_eq_true_eq] at hr
  exact ⟨r, hr.1, hr.2, hs⟩

theorem partingNotices_eq (h : x.Coherent) (c : ClientId) :
    x.partingNotices c = (x.brokenOff c).map parting := by
  rw [partingNotices, importersOf, brokenOff, List.filterMap_flatMap, List.map_flatMap]
  refine List.flatMap_congr fun p hp => ?_
  rw [List.map_filterMap]
  refine List.filterMap_congr fun i hi => ?_
  obtain ⟨r, hr, hc, -⟩ := import_of_listed h hp hi
  have hleft : (x.withoutImports c).imports.find? i = some r := by
    rw [find?_imports_withoutImports, hr]
    simp [Option.filter_some, hc]
  rw [notice?, hleft, hr]
  rfl

theorem mem_brokenOff_iff (h : x.Coherent) (c : ClientId) (e : ExportId) (i : ImportId)
    (d : ClientId) : (e, i, d) ∈ x.brokenOff c ↔ d ≠ c ∧ ∃ r s, x.imports.find? i = some r ∧
      r.client = d ∧ r.source = some e ∧ x.exports.find? e = some s ∧ s.client = c := by
  rw [brokenOff, List.mem_flatMap]
  constructor
  · rintro ⟨p, hp, hm⟩
    obtain ⟨j, hj, hm⟩ := List.mem_filterMap.mp hm
    obtain ⟨r, hr, heq⟩ := Option.map_eq_some_iff.mp hm
    cases heq
    obtain ⟨r', hr', hc, hs⟩ := import_of_listed h hp hj
    rw [hr] at hr'
    cases hr'
    obtain ⟨hf, hclient⟩ := (mem_exportsHeld_iff c p).mp hp
    rw [find?_exports_withoutImports] at hf
    obtain ⟨s, hs', heq⟩ := Option.map_eq_some_iff.mp hf
    exact ⟨hc, r, s, hr, rfl, hs, hs', by rw [← hclient, ← heq]; rfl⟩
  · rintro ⟨hd, r, s, hr, rfl, hs, he, hc⟩
    have hf := (find?_exports_withoutImports (x := x) c e).trans (congrArg _ he)
    have hleft : (x.withoutImports c).imports.find? i = some r := by
      rw [find?_imports_withoutImports, hr]
      simp [Option.filter_some, hd]
    obtain ⟨s', hs', hm⟩ := (h.withoutImports c).links.listed hleft hs
    rw [hf] at hs'
    cases hs'
    refine ⟨(e, _), (mem_exportsHeld_iff c _).mpr ⟨hf, hc⟩, List.mem_filterMap.mpr ⟨i, hm, ?_⟩⟩
    rw [hr]
    rfl

/-- First by exports, whose exporters decide first (`ExportId.lt_iff`), then in the order in
which the imports were made. -/
def Before (a b : ExportId × ImportId × ClientId) : Prop :=
  a.1 < b.1 ∨ (a.1 = b.1 ∧ a.2.1.serial < b.2.1.serial)

theorem brokenOff_ordered (h : x.Coherent) (c : ClientId) : (x.brokenOff c).Pairwise Before := by
  rw [brokenOff, List.pairwise_flatMap]
  refine ⟨fun p hp => ?_, (Table.ascending _).imp fun {p q} hlt a ha b hb => Or.inl ?_⟩
  · obtain ⟨hf, -⟩ := (mem_exportsHeld_iff c p).mp hp
    refine ((h.withoutImports c).links.ordered hf).filterMap _ fun i j hlt a ha b hb => ?_
    obtain ⟨r, -, rfl⟩ := Option.map_eq_some_iff.mp ha
    obtain ⟨s, -, rfl⟩ := Option.map_eq_some_iff.mp hb
    exact Or.inr ⟨rfl, hlt⟩
  · obtain ⟨i, -, ha⟩ := List.mem_filterMap.mp ha
    obtain ⟨j, -, hb⟩ := List.mem_filterMap.mp hb
    obtain ⟨r, -, rfl⟩ := Option.map_eq_some_iff.mp ha
    obtain ⟨s, -, rfl⟩ := Option.map_eq_some_iff.mp hb
    exact hlt

theorem events_withoutClient (h : x.Coherent) (c : ClientId) :
    (x.withoutClient c).events = x.events ++ (x.brokenOff c).map parting :=
  (Fades.withoutClient h c).events.trans (by rw [partingNotices_eq h])

/-- The import is one of the client's. -/
def isImportOf (x : Exchange) (c : ClientId) (i : ImportId) : Bool :=
  decide ((x.imports.find? i).map Import.client = some c)

theorem mem_importsHeld_keys_iff (c : ClientId) (i : ImportId) :
    i ∈ (x.importsHeld c).map Prod.fst ↔ x.isImportOf c i = true := by
  rw [isImportOf, decide_eq_true_eq, Option.map_eq_some_iff, List.mem_map]
  constructor
  · rintro ⟨p, hp, rfl⟩
    obtain ⟨hf, hc⟩ := (mem_importsHeld_iff c p).mp hp
    exact ⟨p.2, hf, hc⟩
  · rintro ⟨r, hr, hc⟩
    exact ⟨(i, r), (mem_importsHeld_iff c _).mpr ⟨hr, hc⟩, rfl⟩

/-- An export loses those of its importers that are imports of the client. -/
theorem withoutImporters_importsHeld (c : ClientId) (s : Export) :
    s.withoutImporters ((x.importsHeld c).map Prod.fst) =
      { s with importers := s.importers.filter (fun i => !x.isImportOf c i) } := by
  rw [Export.withoutImporters]
  congr 2
  funext i
  rw [decide_not, Bool.not_inj_iff, Bool.eq_iff_iff, decide_eq_true_eq]
  exact mem_importsHeld_keys_iff c i

/-- What is left of another client's export: everything but the importers of the client that
is gone. -/
theorem export_withoutClient {c : ClientId} {e : ExportId} {s' : Export} (hc : s'.client ≠ c) :
    (x.withoutClient c).exports.find? e = some s' ↔ ∃ s, x.exports.find? e = some s ∧
      s' = { s with importers := s.importers.filter (fun i => !x.isImportOf c i) } := by
  rw [find?_exports_withoutClient, Option.map_eq_some_iff]
  constructor
  · rintro ⟨s, hs, rfl⟩
    exact ⟨s, (Option.filter_eq_some_iff.mp hs).1, withoutImporters_importsHeld c s⟩
  · rintro ⟨s, hs, rfl⟩
    refine ⟨s, Option.filter_eq_some_iff.mpr ⟨hs, ?_⟩, withoutImporters_importsHeld c s⟩
    simpa using hc

/-- What is left of another client's import: nothing but the import itself if it was resolved
to an export of the client that is gone, and everything otherwise. -/
theorem import_withoutClient (h : x.Coherent) {c : ClientId} {i : ImportId} {r' : Import}
    (hc : r'.client ≠ c) : (x.withoutClient c).imports.find? i = some r' ↔
      ∃ r, x.imports.find? i = some r ∧
        r' = if x.exportingClient? r = some c then { r with source := none, children := [] }
          else r := by
  rw [find?_imports_withoutClient h, Option.map_eq_some_iff]
  constructor
  · rintro ⟨r, hr, rfl⟩
    exact ⟨r, (Option.filter_eq_some_iff.mp hr).1, rfl⟩
  · rintro ⟨r, hr, rfl⟩
    refine ⟨r, Option.filter_eq_some_iff.mpr ⟨hr, ?_⟩, rfl⟩
    have hclient : (if x.exportingClient? r = some c then { r with source := none, children := [] }
        else r).client = r.client := by split <;> rfl
    rw [hclient] at hc
    simpa using hc

/-- Taking the things of one owner out of a table leaves those of others. -/
theorem find?_filter_owner {κ α : Type} [KeyOrder κ] [DecidableEq κ] (owner : α → ClientId)
    (t : Table κ α) {c : ClientId} (k : κ) {a : α} (ha : owner a ≠ c) :
    (t.filter (fun _ a => decide (owner a ≠ c))).find? k = some a ↔ t.find? k = some a := by
  rw [Table.find?_filter, Option.filter_eq_some_iff, decide_eq_true_eq]
  exact and_iff_left ha

/-- Nothing is left of a client. -/
structure Vanished (y : Exchange) (c : ClientId) : Prop where
  live : ∀ o, y.clientOf? o ≠ some c
  inert : ∀ o, y.inertClient? o ≠ some c
  owns : ∀ o, y.ownership.owns c o = false

/-- What a client has when another one is gone: all that it had, but that its exports lose the
importers and its imports the sources that were the other one's. -/
structure Survives (x : Exchange) (c : ClientId) (y : Exchange) (d : ClientId) : Prop where
  exporters : ∀ p g, g.client = d → (y.exporters.find? p = some g ↔ x.exporters.find? p = some g)
  importers : ∀ m g, g.client = d → (y.importers.find? m = some g ↔ x.importers.find? m = some g)
  inert : ∀ o, y.inertClient? o = some d ↔ x.inertClient? o = some d
  holdings : y.ownership.holdings d = x.ownership.holdings d
  exports : ∀ e s', s'.client = d → (y.exports.find? e = some s' ↔
    ∃ s, x.exports.find? e = some s ∧
      s' = { s with importers := s.importers.filter (fun i => !x.isImportOf c i) })
  imports : ∀ i r', r'.client = d → (y.imports.find? i = some r' ↔
    ∃ r, x.imports.find? i = some r ∧
      r' = if x.exportingClient? r = some c then { r with source := none, children := [] } else r)

/-- What is left of an exchange when a client is gone. -/
structure ClientGone (x : Exchange) (c : ClientId) (y : Exchange) : Prop where
  vanished : y.Vanished c
  survives : ∀ d, d ≠ c → x.Survives c y d
  /-- The others are told of the sources that they lost, each once and in order, and nobody is told
  of anything else. -/
  events : ∃ bs : List (ExportId × ImportId × ClientId), y.events = x.events ++ bs.map parting ∧
    bs.Pairwise Before ∧ ∀ e i d, (e, i, d) ∈ bs ↔ d ≠ c ∧ ∃ r s, x.imports.find? i = some r ∧
      r.client = d ∧ r.source = some e ∧ x.exports.find? e = some s ∧ s.client = c

theorem vanished_withoutClient (h : x.Coherent) (c : ClientId) :
    (x.withoutClient c).Vanished c where
  live o hc := ((clientOf?_withoutClient h c c o).mp hc).2 rfl
  inert o hc := ((inertClient?_withoutClient c c o).mp hc).2 rfl
  owns o := Bool.eq_false_iff.mpr fun ho => ((owns_withoutClient c c o).mp ho).2 rfl

theorem survives_withoutClient (h : x.Coherent) {c d : ClientId} (hd : d ≠ c) :
    x.Survives c (x.withoutClient c) d where
  exporters p _ hg := find?_filter_owner Registry.client x.exporters p (hg ▸ hd)
  importers m _ hg := find?_filter_owner Registry.client x.importers m (hg ▸ hd)
  inert o := (inertClient?_withoutClient c d o).trans (and_iff_left hd)
  holdings := Ownership.holdings_release x.ownership hd
  exports _ _ hs' := export_withoutClient (hs' ▸ hd)
  imports _ _ hr' := import_withoutClient h (hr' ▸ hd)

/-- A client that is gone leaves nothing behind and takes nothing of the others with it but the
sources that were its own. -/
theorem Reachable.client_gone (h : x.Reachable) (c : ClientId) :
    x.ClientGone c (x.clientGone c) := by
  have hsound := h.sound
  rw [clientGone_eq hsound.coherent hsound.registered]
  exact
    { vanished := vanished_withoutClient hsound.coherent c
      survives := fun d hd => survives_withoutClient hsound.coherent hd
      events := ⟨x.brokenOff c, events_withoutClient hsound.coherent c,
        brokenOff_ordered hsound.coherent c, mem_brokenOff_iff hsound.coherent c⟩ }

/-- With client 1 the import of client 2 loses its source and its child. -/
theorem client_gone_sharing : (rehearse sharing).2.Reachable ∧ (⟨2⟩ : ClientId) ≠ ⟨1⟩ ∧
    ((rehearse sharing).2.clientGone ⟨1⟩).imports.find? ⟨⟨2⟩, 4⟩ =
      some { client := ⟨2⟩, version := 1, source := none, children := [] } := by
  have hreach := reachable_rehearse sharing
  have hleft := (hreach.client_gone ⟨1⟩).survives ⟨2⟩ (by decide)
  exact ⟨hreach, by decide, (hleft.imports _ _ rfl).mpr ⟨_, rfl, rfl⟩⟩

end Exchange

end SurfaceExchange
