import SurfaceExchange.Proofs.Refusals
import SurfaceExchange.Proofs.Unmapping

/-!
# How far the destruction of one object reaches

An object that its client destroys takes along what was made through it
(`GoesWith`), and beyond that it reaches one step: an import loses its source
with an export that lists it, an export loses from its list the imports that
go. `Removes` says of every live object what becomes of it, `Leaves` says what
the clients are left with. Both hold of every destruction, whatever else is
linked to what (`Reachable.destroyed_locally`).
-/

namespace SurfaceExchange

/-- The object is the other one, or was made through it. -/
def ObjectId.GoesWith (o' o : ObjectId) : Prop := o' = o ∨ o'.registry? = some o

theorem ObjectId.goesWith_self (o : ObjectId) : o.GoesWith o := Or.inl rfl

instance (o' o : ObjectId) : Decidable (o'.GoesWith o) := inferInstanceAs (Decidable (_ ∨ _))

namespace Exchange

variable {x y : Exchange} {o : ObjectId}

/-- An export that goes with the object lists the import. -/
def LosesSource (x : Exchange) (o : ObjectId) (i : ImportId) : Prop :=
  ∃ e s, (ObjectId.exported e).GoesWith o ∧ x.exports.find? e = some s ∧ i ∈ s.importers

/-- What goes with the object is gone, and what remains is as it was but for this: imports that an
export lists that is gone have neither source nor children, and their clients are told, and the
lists of exports no longer have the imports that are gone. -/
structure Removes (x y : Exchange) (o : ObjectId) : Prop where
  exporters : ∀ q, y.exporters.find? q = if .exporter q = o then none else x.exporters.find? q
  importers : ∀ m, y.importers.find? m = if .importer m = o then none else x.importers.find? m
  exports : ∀ e, y.exports.find? e =
    if (ObjectId.exported e).GoesWith o then none
    else (x.exports.find? e).map (fun s => { s with
      importers := s.importers.filter (fun i => decide (¬ (ObjectId.imported i).GoesWith o)) })
  gone : ∀ i, (ObjectId.imported i).GoesWith o → y.imports.find? i = none
  lost : ∀ i r, x.LosesSource o i → x.imports.find? i = some r →
    y.imports.find? i = some { r with source := none, children := [] }
  kept : ∀ i, ¬ (ObjectId.imported i).GoesWith o → ¬ x.LosesSource o i →
    y.imports.find? i = x.imports.find? i
  /-- The events queued are those of the imports that lose their source, in order. -/
  told : ∃ bs : List (ExportId × ImportId × ClientId),
    y.events = x.events ++ bs.map parting ∧ bs.Pairwise Before ∧
    ∀ e i c, (e, i, c) ∈ bs ↔ (ObjectId.exported e).GoesWith o ∧
      ∃ s r, x.exports.find? e = some s ∧ i ∈ s.importers ∧
        x.imports.find? i = some r ∧ r.client = c
  frame : y = { x with
    exporters := y.exporters
    importers := y.importers
    exports := y.exports
    imports := y.imports
    inertExports := y.inertExports
    inertImports := y.inertImports
    subscriptions := y.subscriptions
    ownership := y.ownership
    events := y.events
    parentChanges := y.parentChanges }

/-- The live objects made through the destroyed one are inert, and the other inert objects are so
still. The clients hold everything that they held but the destroyed object. -/
structure Leaves (x y : Exchange) (o : ObjectId) : Prop where
  inert : ∀ o' c, y.inertClient? o' = some c ↔
    (x.inertClient? o' = some c ∧ o' ≠ o) ∨ (o'.registry? = some o ∧ x.clientOf? o' = some c)
  owned : ∀ c o', y.ownership.owns c o' = true ↔ x.ownership.owns c o' = true ∧ o' ≠ o

/-- The keys of entries that are those of a table that have a property. -/
theorem mem_keys_of_mem_iff {κ α : Type} [KeyOrder κ] [DecidableEq κ] {t : Table κ α}
    {P : κ → Prop} {ps : List (κ × α)} (hps : ∀ k a, (k, a) ∈ ps ↔ t.find? k = some a ∧ P k)
    (k : κ) : k ∈ ps.map Prod.fst ↔ (t.find? k).isSome = true ∧ P k := by
  rw [List.mem_map]
  constructor
  · rintro ⟨p, hp, rfl⟩
    obtain ⟨hfind, hP⟩ := (hps p.1 p.2).mp hp
    exact ⟨Option.isSome_of_eq_some hfind, hP⟩
  · rintro ⟨hsome, hP⟩
    obtain ⟨a, hfind⟩ := Option.isSome_iff_exists.mp hsome
    exact ⟨(k, a), (hps k a).mpr ⟨hfind, hP⟩, rfl⟩

/-! ## Exports that go -/

theorem mem_importersOfAll_iff {ps : List (ExportId × Export)} (e : ExportId) (i : ImportId)
    (c : ClientId) : (e, i, c) ∈ x.importersOfAll ps ↔
      ∃ s r, (e, s) ∈ ps ∧ i ∈ s.importers ∧ x.imports.find? i = some r ∧ r.client = c := by
  simp only [importersOfAll, importersWithClients, List.mem_flatMap, List.mem_filterMap]
  constructor
  · rintro ⟨p, hp, j, hj, hm⟩
    obtain ⟨r, hr, heq⟩ := Option.map_eq_some_iff.mp hm
    cases heq
    exact ⟨p.2, r, hp, hj, hr, rfl⟩
  · rintro ⟨s, r, hp, hi, hr, rfl⟩
    exact ⟨(e, s), hp, i, hi, by rw [hr]; rfl⟩

theorem Coherent.importersOfAll_ordered (h : x.Coherent) {ps : List (ExportId × Export)}
    (hlive : ∀ p ∈ ps, x.exports.find? p.1 = some p.2)
    (hsorted : ps.Pairwise (fun p q => p.1 < q.1)) : (x.importersOfAll ps).Pairwise Before := by
  rw [importersOfAll, List.pairwise_flatMap]
  refine ⟨fun p hp => (importersWithClients_ordered h (hlive p hp)).imp Or.inr,
    hsorted.imp fun {p q} hlt a ha b hb => Or.inl ?_⟩
  rw [fst_of_mem_importersWithClients ha, fst_of_mem_importersWithClients hb]
  exact hlt

/-- Exports go with an object with which no imports go. -/
theorem Coherent.removes_dropExports (h : x.Coherent) {ps : List (ExportId × Export)}
    (hps : ∀ e s, (e, s) ∈ ps ↔ x.exports.find? e = some s ∧ (ObjectId.exported e).GoesWith o)
    (hsorted : ps.Pairwise (fun p q => p.1 < q.1))
    (hstay : ∀ i, ¬ (ObjectId.imported i).GoesWith o) {X : Table ExporterId Registry}
    (hX : ∀ q, X.find? q = if .exporter q = o then none else x.exporters.find? q)
    (N : Table ExportId ClientId) (w : Ownership) :
    Removes x { x.dropExports ps with exporters := X, inertExports := N, ownership := w } o := by
  have hlive : ∀ p ∈ ps, x.exports.find? p.1 = some p.2 := fun p hp => ((hps p.1 p.2).mp hp).1
  have himport : ∀ i, (x.dropExports ps).imports.find? i =
      (x.imports.find? i).map (fun r => if i ∈ importersOf ps then r.orphan else r) :=
    find?_imports_dropExports ps
  refine ⟨hX, fun m => ?_, fun e => ?_, fun i hgoes => absurd hgoes (hstay i), ?_, ?_, ?_, rfl⟩
  · have hm : ObjectId.importer m ≠ o := fun hm => hstay ⟨m, 0⟩ (Or.inr (congrArg some hm))
    rw [if_neg hm]
    rfl
  · refine (find?_exports_dropExports ps e).trans ?_
    simp only [mem_keys_of_mem_iff hps]
    cases x.exports.find? e with
    | none => simp
    | some s => simp [hstay]
  · rintro i r ⟨e, s, hgoes, he, hi⟩ hr
    have hlost : i ∈ importersOf ps := List.mem_flatMap.mpr ⟨(e, s), (hps e s).mpr ⟨he, hgoes⟩, hi⟩
    refine (himport i).trans ?_
    rw [hr, Option.map_some, if_pos hlost, Import.orphan]
  · intro i _ hn
    have hkept : i ∉ importersOf ps := by
      intro hi
      obtain ⟨⟨e, s⟩, hp, hi⟩ := List.mem_flatMap.mp hi
      obtain ⟨he, hgoes⟩ := (hps e s).mp hp
      exact hn ⟨e, s, hgoes, he, hi⟩
    refine (himport i).trans ?_
    simp only [if_neg hkept, Option.map_id']
  · refine ⟨x.importersOfAll ps, events_dropExports ps, h.importersOfAll_ordered hlive hsorted,
      fun e i c => ?_⟩
    rw [mem_importersOfAll_iff]
    constructor
    · rintro ⟨s, r, hp, hi, hr, hc⟩
      obtain ⟨he, hgoes⟩ := (hps e s).mp hp
      exact ⟨hgoes, s, r, he, hi, hr, hc⟩
    · rintro ⟨hgoes, s, r, he, hi, hr, hc⟩
      exact ⟨s, r, (hps e s).mpr ⟨he, hgoes⟩, hi, hr, hc⟩

/-! ## Imports that go -/

/-- Imports go with an object with which no exports go. -/
theorem Coherent.removes_dropImports (h : x.Coherent) {ps : List (ImportId × Import)}
    (hps : ∀ i r, (i, r) ∈ ps ↔ x.imports.find? i = some r ∧ (ObjectId.imported i).GoesWith o)
    (hstay : ∀ e, ¬ (ObjectId.exported e).GoesWith o) {M : Table ImporterId Registry}
    (hM : ∀ m, M.find? m = if .importer m = o then none else x.importers.find? m)
    (N : Table ImportId ClientId) (w : Ownership) :
    Removes x { x.dropImports ps with importers := M, inertImports := N, ownership := w } o := by
  have himport : ∀ i, (x.dropImports ps).imports.find? i =
      if i ∈ ps.map Prod.fst then none else x.imports.find? i := find?_imports_dropImports ps
  refine ⟨fun q => ?_, hM, fun e => ?_, fun i hgoes => ?_, ?_, fun i hn _ => ?_, ⟨[], ?_⟩, rfl⟩
  · have hq : ObjectId.exporter q ≠ o := fun hq => hstay ⟨q, 0⟩ (Or.inr (congrArg some hq))
    rw [if_neg hq]
    rfl
  · refine (find?_exports_dropImports ps e).trans ?_
    rw [if_neg (hstay e)]
    refine Option.map_congr fun s he => ?_
    congr 1
    -- an export lists live imports only
    refine List.filter_congr fun i hi => ?_
    obtain ⟨r, hr, -⟩ := h.links.resolved he hi
    simp [mem_keys_of_mem_iff hps, hr]
  · refine (himport i).trans ?_
    simp only [mem_keys_of_mem_iff hps]
    cases x.imports.find? i with
    | none => simp
    | some r => simp [hgoes]
  · rintro i r ⟨e, s, hgoes, -⟩
    exact absurd hgoes (hstay e)
  · refine (himport i).trans (if_neg fun hi => hn ((mem_keys_of_mem_iff hps i).mp hi).2)
  · refine ⟨(List.append_nil _).symm, .nil, fun e i c => iff_of_false List.not_mem_nil ?_⟩
    rintro ⟨hgoes, -⟩
    exact hstay e hgoes

/-! ## Objects with which nothing goes -/

/-- Nothing live goes with the object, and nothing that is live changes. -/
theorem Coherent.removes_of_dead (h : x.Coherent)
    (hdead : ∀ o', o'.GoesWith o → x.clientOf? o' = none) (N : Table ExportId ClientId)
    (N' : Table ImportId ClientId) (w : Ownership) :
    Removes x { x with inertExports := N, inertImports := N', ownership := w } o := by
  have hexport : ∀ {e}, (ObjectId.exported e).GoesWith o → x.exports.find? e = none :=
    fun hgoes => Option.map_eq_none_iff.mp (hdead _ hgoes)
  have himport : ∀ {i}, (ObjectId.imported i).GoesWith o → x.imports.find? i = none :=
    fun hgoes => Option.map_eq_none_iff.mp (hdead _ hgoes)
  refine ⟨fun q => ?_, fun m => ?_, fun e => ?_, fun i hgoes => himport hgoes, ?_,
    fun _ _ _ => rfl, ⟨[], ?_⟩, rfl⟩
  · split
    · next hq => exact Option.map_eq_none_iff.mp (hdead _ (Or.inl hq))
    · rfl
  · split
    · next hm => exact Option.map_eq_none_iff.mp (hdead _ (Or.inl hm))
    · rfl
  · split
    · next hgoes => exact hexport hgoes
    · cases he : x.exports.find? e with
      | none => rfl
      | some s =>
        have hlisted : s.importers.filter
            (fun i => decide (¬ (ObjectId.imported i).GoesWith o)) = s.importers := by
          refine List.filter_eq_self.mpr fun i hi => decide_eq_true fun hgoes => ?_
          obtain ⟨r, hr, -⟩ := h.links.resolved he hi
          rw [himport hgoes] at hr
          cases hr
        rw [Option.map_some, hlisted]
  · rintro i r ⟨e, s, hgoes, he, -⟩
    rw [hexport hgoes] at he
    cases he
  · refine ⟨(List.append_nil _).symm, .nil, fun e i c => iff_of_false List.not_mem_nil ?_⟩
    rintro ⟨hgoes, s, r, he, -⟩
    rw [hexport hgoes] at he
    cases he

/-- Nothing was made through the object, or nothing of it is left. -/
theorem Leaves.of_unmade (hmade : ∀ o', o'.registry? = some o → x.clientOf? o' = none)
    (hinert : ∀ o', y.inertClient? o' = if o' = o then none else x.inertClient? o')
    (howned : ∀ c o', y.ownership.owns c o' = true ↔ x.ownership.owns c o' = true ∧ o' ≠ o) :
    Leaves x y o := by
  refine ⟨fun o' c => ?_, howned⟩
  rw [hinert]
  constructor
  · intro hc
    split at hc
    · cases hc
    · next hne => exact Or.inl ⟨hc, hne⟩
  · rintro (⟨hc, hne⟩ | ⟨hregistry, hc⟩)
    · rw [if_neg hne, hc]
    · rw [hmade o' hregistry] at hc
      cases hc

namespace Registered

/-- Without an exporter there are no exports of it, and without an importer no imports. -/
theorem unmade_of_dead (h : x.Registered) (ho : x.clientOf? o = none) (o' : ObjectId)
    (hregistry : o'.registry? = some o) : x.clientOf? o' = none := by
  cases hc : x.clientOf? o' with
  | none => rfl
  | some c =>
    rw [h.registry hc hregistry] at ho
    cases ho

theorem dead_of_dead (h : x.Registered) (ho : x.clientOf? o = none) (o' : ObjectId)
    (hgoes : o'.GoesWith o) : x.clientOf? o' = none := by
  rcases hgoes with rfl | hregistry
  · exact ho
  · exact h.unmade_of_dead ho o' hregistry

end Registered

/-! ## The four destructions -/

/-- What the destruction of an object does. -/
def Destroys (x y : Exchange) (o : ObjectId) : Prop := Removes x y o ∧ Leaves x y o

namespace Sound

theorem destroys_absent (h : x.Sound) (ho : x.Absent o) : Destroys x x o := by
  refine ⟨h.coherent.removes_of_dead (h.registered.dead_of_dead ho.1) _ _ _,
    .of_unmade (h.registered.unmade_of_dead ho.1) (fun o' => ?_) (fun c o' => ?_)⟩
  · split
    · next heq => rw [heq, ho.2]
    · rfl
  · refine ⟨fun hc => ⟨hc, ?_⟩, And.left⟩
    rintro rfl
    rcases (h.registered.owns_iff c o').mp hc with hlive | hinert
    · rw [ho.1] at hlive
      cases hlive
    · rw [ho.2] at hinert
      cases hinert

theorem destroys_liveExport (h : x.Sound) {e : ExportId} {s : Export}
    (he : x.exports.find? e = some s) :
    Destroys x (x.retireExport e .nothing) (.exported e) := by
  have hlive : x.clientOf? (.exported e) = some s.client := by rw [clientOf?, he]; rfl
  have hps : ∀ e' s', (e', s') ∈ [(e, s)] ↔
      x.exports.find? e' = some s' ∧ (ObjectId.exported e').GoesWith (.exported e) := by
    intro e' s'
    simp only [List.mem_singleton, Prod.mk.injEq, ObjectId.GoesWith, ObjectId.registry?,
      ObjectId.exported.injEq, Option.some.injEq, reduceCtorEq, or_false]
    constructor
    · rintro ⟨rfl, rfl⟩
      exact ⟨he, rfl⟩
    · rintro ⟨he', rfl⟩
      exact ⟨rfl, Option.some.inj (he'.symm.trans he)⟩
  rw [retireExport_eq h.coherent he, leaveExports_nothing]
  refine ⟨h.coherent.removes_dropExports hps (List.pairwise_singleton _ _)
    (fun i => by simp [ObjectId.GoesWith, ObjectId.registry?]) (fun q => by simp; rfl) _ _,
    .of_unmade (fun o' ho' => by cases o' <;> cases ho') (fun o' => ?_)
    (h.registered.owns_untrack_iff (h.registered.owns_of_live hlive))⟩
  split
  · next heq => rw [heq, ← h.registered.apart hlive]; rfl
  · cases o' <;> rfl

theorem destroys_liveImport (h : x.Sound) {i : ImportId} {r : Import}
    (hi : x.imports.find? i = some r) :
    Destroys x (x.retireImport i .nothing) (.imported i) := by
  have hlive : x.clientOf? (.imported i) = some r.client := by rw [clientOf?, hi]; rfl
  have hps : ∀ i' r', (i', r') ∈ [(i, r)] ↔
      x.imports.find? i' = some r' ∧ (ObjectId.imported i').GoesWith (.imported i) := by
    intro i' r'
    simp only [List.mem_singleton, Prod.mk.injEq, ObjectId.GoesWith, ObjectId.registry?,
      ObjectId.imported.injEq, Option.some.injEq, reduceCtorEq, or_false]
    constructor
    · rintro ⟨rfl, rfl⟩
      exact ⟨hi, rfl⟩
    · rintro ⟨hi', rfl⟩
      exact ⟨rfl, Option.some.inj (hi'.symm.trans hi)⟩
  rw [retireImport_eq h.coherent hi, leaveImports_nothing]
  refine ⟨h.coherent.removes_dropImports hps
    (fun e => by simp [ObjectId.GoesWith, ObjectId.registry?]) (fun m => by simp; rfl) _ _,
    .of_unmade (fun o' ho' => by cases o' <;> cases ho') (fun o' => ?_)
    (h.registered.owns_untrack_iff (h.registered.owns_of_live hlive))⟩
  split
  · next heq => rw [heq, ← h.registered.apart hlive]; rfl
  · cases o' <;> rfl

theorem destroys_inertExport (h : x.Sound) {e : ExportId} {c : ClientId}
    (hc : x.inertExports.find? e = some c) :
    Destroys x ({ x with inertExports := x.inertExports.erase e }.untrack c (.exported e))
      (.exported e) := by
  have hdead := h.registered.dead_of_inert (o := .exported e) hc
  refine ⟨h.coherent.removes_of_dead (h.registered.dead_of_dead hdead) _ _ _,
    .of_unmade (h.registered.unmade_of_dead hdead) (fun o' => ?_)
    (h.registered.owns_untrack_iff (h.registered.owns_of_inert (o := .exported e) hc))⟩
  cases o' with
  | exported e' => simp only [inertClient?, untrack, Table.find?_erase, ObjectId.exported.injEq]
  | _ => rfl

theorem destroys_inertImport (h : x.Sound) {i : ImportId} {c : ClientId}
    (hc : x.inertImports.find? i = some c) :
    Destroys x ({ x with inertImports := x.inertImports.erase i }.untrack c (.imported i))
      (.imported i) := by
  have hdead := h.registered.dead_of_inert (o := .imported i) hc
  refine ⟨h.coherent.removes_of_dead (h.registered.dead_of_dead hdead) _ _ _,
    .of_unmade (h.registered.unmade_of_dead hdead) (fun o' => ?_)
    (h.registered.owns_untrack_iff (h.registered.owns_of_inert (o := .imported i) hc))⟩
  cases o' with
  | imported i' => simp only [inertClient?, untrack, Table.find?_erase, ObjectId.imported.injEq]
  | _ => rfl

/-- With its exporter gone a live export is inert. -/
theorem find?_fileAll_ownExports (h : x.Sound) (q : ExporterId) (e : ExportId) (c : ClientId) :
    (fileAll x.inertExports ((x.ownExports q).map (fun p => (p.1, p.2.client)))).find? e = some c ↔
      x.inertExports.find? e = some c ∨
        (e.exporter = q ∧ x.clientOf? (.exported e) = some c) := by
  have hfree : ∀ p ∈ x.ownExports q, x.inertExports.find? p.1 = none := by
    intro p hp
    have hlive : x.clientOf? (.exported p.1) = some p.2.client := by
      rw [clientOf?, ownExports_live q p hp]
      rfl
    exact h.registered.apart hlive
  have hkeys : ((x.ownExports q).map Prod.fst).Nodup := Table.keys_nodup _
  rw [find?_fileAll_client Export.client hkeys hfree]
  simp only [mem_ownExports_iff, clientOf?, Option.map_eq_some_iff]
  refine or_congr_right ⟨?_, ?_⟩
  · rintro ⟨s, ⟨he, hq⟩, hc⟩
    exact ⟨hq, s, he, hc⟩
  · rintro ⟨hq, s, he, hc⟩
    exact ⟨s, ⟨he, hq⟩, hc⟩

/-- With its importer gone a live import is inert. -/
theorem find?_fileAll_ownImports (h : x.Sound) (m : ImporterId) (i : ImportId) (c : ClientId) :
    (fileAll x.inertImports ((x.ownImports m).map (fun p => (p.1, p.2.client)))).find? i = some c ↔
      x.inertImports.find? i = some c ∨
        (i.importer = m ∧ x.clientOf? (.imported i) = some c) := by
  have hfree : ∀ p ∈ x.ownImports m, x.inertImports.find? p.1 = none := by
    intro p hp
    have hlive : x.clientOf? (.imported p.1) = some p.2.client := by
      rw [clientOf?, ownImports_live m p hp]
      rfl
    exact h.registered.apart hlive
  have hkeys : ((x.ownImports m).map Prod.fst).Nodup := Table.keys_nodup _
  rw [find?_fileAll_client Import.client hkeys hfree]
  simp only [mem_ownImports_iff, clientOf?, Option.map_eq_some_iff]
  refine or_congr_right ⟨?_, ?_⟩
  · rintro ⟨r, ⟨hi, hm⟩, hc⟩
    exact ⟨hm, r, hi, hc⟩
  · rintro ⟨hm, r, hi, hc⟩
    exact ⟨r, ⟨hi, hm⟩, hc⟩

theorem destroys_liveExporter (h : x.Sound) {q : ExporterId} {g : Registry}
    (hg : x.exporters.find? q = some g) :
    Destroys x (x.retireExporter q .inert) (.exporter q) := by
  have hlive : x.clientOf? (.exporter q) = some g.client := by rw [clientOf?, hg]; rfl
  have hps : ∀ e s, (e, s) ∈ x.ownExports q ↔
      x.exports.find? e = some s ∧ (ObjectId.exported e).GoesWith (.exporter q) := by
    intro e s
    rw [mem_ownExports_iff]
    simp [ObjectId.GoesWith, ObjectId.registry?]
  rw [retireExporter_eq h.coherent hg, leaveExports_inert]
  refine ⟨h.coherent.removes_dropExports hps (Table.ascending _)
    (fun i => by simp [ObjectId.GoesWith, ObjectId.registry?])
    (fun q' => by rw [Table.find?_erase]; simp) _ _, fun o' c => ?_,
    h.registered.owns_untrack_iff (h.registered.owns_of_live hlive)⟩
  cases o' with
  | exported e =>
    refine (h.find?_fileAll_ownExports q e c).trans ?_
    simp [inertClient?, ObjectId.registry?]
  | imported i =>
    show x.inertImports.find? i = some c ↔ _
    simp [inertClient?, ObjectId.registry?]
  | _ => simp [inertClient?, ObjectId.registry?]

theorem destroys_liveImporter (h : x.Sound) {m : ImporterId} {g : Registry}
    (hg : x.importers.find? m = some g) :
    Destroys x (x.retireImporter m .inert) (.importer m) := by
  have hlive : x.clientOf? (.importer m) = some g.client := by rw [clientOf?, hg]; rfl
  have hps : ∀ i r, (i, r) ∈ x.ownImports m ↔
      x.imports.find? i = some r ∧ (ObjectId.imported i).GoesWith (.importer m) := by
    intro i r
    rw [mem_ownImports_iff]
    simp [ObjectId.GoesWith, ObjectId.registry?]
  rw [retireImporter_eq h.coherent hg, leaveImports_inert]
  refine ⟨h.coherent.removes_dropImports hps
    (fun e => by simp [ObjectId.GoesWith, ObjectId.registry?])
    (fun m' => by rw [Table.find?_erase]; simp) _ _, fun o' c => ?_,
    h.registered.owns_untrack_iff (h.registered.owns_of_live hlive)⟩
  cases o' with
  | imported i =>
    refine (h.find?_fileAll_ownImports m i c).trans ?_
    simp [inertClient?, ObjectId.registry?]
  | exported e =>
    show x.inertExports.find? e = some c ↔ _
    simp [inertClient?, ObjectId.registry?]
  | _ => simp [inertClient?, ObjectId.registry?]

/-- Whatever the object is and whether it exists. -/
theorem destroys_destroyObject (h : x.Sound) (o : ObjectId) :
    Destroys x (x.destroyObject o).2 o := by
  by_cases habsent : x.Absent o
  · rw [(destroyObject_eq_error_iff o).mpr ⟨habsent, rfl, rfl⟩]
    exact h.destroys_absent habsent
  cases o with
  | exporter q =>
    cases hg : x.exporters.find? q with
    | none => exact absurd ⟨by rw [clientOf?, hg]; rfl, rfl⟩ habsent
    | some g =>
      simp only [destroyObject, destroyExporter, Table.contains, hg]
      exact h.destroys_liveExporter hg
  | importer m =>
    cases hg : x.importers.find? m with
    | none => exact absurd ⟨by rw [clientOf?, hg]; rfl, rfl⟩ habsent
    | some g =>
      simp only [destroyObject, destroyImporter, Table.contains, hg]
      exact h.destroys_liveImporter hg
  | exported e =>
    cases he : x.exports.find? e with
    | some s =>
      simp only [destroyObject, destroyExport, Table.contains, he]
      exact h.destroys_liveExport he
    | none =>
      cases hinert : x.inertExports.find? e with
      | none => exact absurd ⟨by rw [clientOf?, he]; rfl, hinert⟩ habsent
      | some c =>
        simp only [destroyObject, destroyExport, Table.contains, he, hinert]
        exact h.destroys_inertExport hinert
  | imported i =>
    cases hi : x.imports.find? i with
    | some r =>
      simp only [destroyObject, destroyImport, Table.contains, hi]
      exact h.destroys_liveImport hi
    | none =>
      cases hinert : x.inertImports.find? i with
      | none => exact absurd ⟨by rw [clientOf?, hi]; rfl, hinert⟩ habsent
      | some c =>
        simp only [destroyObject, destroyImport, Table.contains, hi, hinert]
        exact h.destroys_inertImport hinert

end Sound

/-- Nothing of the object itself is left. -/
theorem Destroys.absent (h : Destroys x y o) : y.Absent o := by
  obtain ⟨hremoves, hleaves⟩ := h
  constructor
  · cases o with
    | exporter q => rw [clientOf?, hremoves.exporters, if_pos rfl]; rfl
    | importer m => rw [clientOf?, hremoves.importers, if_pos rfl]; rfl
    | exported e => rw [clientOf?, hremoves.exports, if_pos (ObjectId.goesWith_self _)]; rfl
    | imported i => rw [clientOf?, hremoves.gone i (ObjectId.goesWith_self _)]; rfl
  · cases hc : y.inertClient? o with
    | none => rfl
    | some c =>
      rcases (hleaves.inert o c).mp hc with ⟨-, hne⟩ | ⟨hregistry, -⟩
      · exact absurd rfl hne
      · cases o <;> cases hregistry

theorem Destroys.not_owned (h : Destroys x y o) (c : ClientId) : y.ownership.owns c o = false := by
  rw [← Bool.not_eq_true]
  intro hc
  exact ((h.2.owned c o).mp hc).2 rfl

/-- Where no exports go nobody is told of anything. -/
theorem Removes.events_eq (h : Removes x y o)
    (hstay : ∀ e, ¬ (ObjectId.exported e).GoesWith o) : y.events = x.events := by
  obtain ⟨bs, hevents, -, hbs⟩ := h.told
  have hnone : bs = [] := List.eq_nil_iff_forall_not_mem.mpr fun b hb =>
    hstay b.1 ((hbs b.1 b.2.1 b.2.2).mp hb).1
  rw [hevents, hnone, List.map_nil, List.append_nil]

theorem Sound.destroyObject (h : x.Sound) (o : ObjectId) : (x.destroyObject o).2.Sound := by
  cases o with
  | exporter q => exact (destroyExporter_change q (.destroyExporter q)).sound h
  | exported e => exact (destroyExport_change e (.destroyExport e)).sound h
  | importer m => exact (destroyImporter_change m (.destroyImporter m)).sound h
  | imported i => exact (destroyImport_change i (.destroyImport i)).sound h

/-- The destruction of an object reaches what was made through it and what is linked to that, and
goes no further. A client is told of imports of its own that have lost their source, and of nothing
when imports go. -/
theorem Reachable.destroyed_locally (h : x.Reachable) :
    (∀ o, Removes x (x.destroyObject o).2 o ∧ Leaves x (x.destroyObject o).2 o ∧
      (x.destroyObject o).2.Absent o ∧ (∀ c, (x.destroyObject o).2.ownership.owns c o = false) ∧
      ∀ t w, (x.destroyObject o).2.subscriptions.Listens t w ↔
        SurfaceExchange.Holds (x.destroyObject o).2.exports (x.destroyObject o).2.imports t w) ∧
    (∀ i, (x.destroyImport i).2.events = x.events) ∧
    ∀ m, (x.destroyImporter m).2.events = x.events := by
  refine ⟨fun o => ?_, fun i => ?_, fun m => ?_⟩
  · have hdestroys := h.sound.destroys_destroyObject o
    exact ⟨hdestroys.1, hdestroys.2, hdestroys.absent, hdestroys.not_owned,
      fun _ _ => (h.sound.destroyObject o).coherent.watched.listens_iff⟩
  · exact (h.sound.destroys_destroyObject (.imported i)).1.events_eq
      fun e => by simp [ObjectId.GoesWith, ObjectId.registry?]
  · exact (h.sound.destroys_destroyObject (.importer m)).1.events_eq
      fun e => by simp [ObjectId.GoesWith, ObjectId.registry?]

/-- With the exporter its export becomes inert, and the import of the handle loses its source. -/
theorem destroyed_locally_sharing : (rehearse sharing).2.Reachable ∧
    ((rehearse sharing).2.destroyExporter ⟨1⟩).2.imports.find? ⟨⟨2⟩, 4⟩ =
      some { client := ⟨2⟩, version := 1, source := none, children := [] } ∧
    ((rehearse sharing).2.destroyExporter ⟨1⟩).2.inertClient? (.exported ⟨⟨1⟩, 3⟩) = some ⟨1⟩ ∧
    ((rehearse sharing).2.destroyImporter ⟨2⟩).2.events = (rehearse sharing).2.events := by
  have hreach := reachable_rehearse sharing
  obtain ⟨hlocal, -, hsilent⟩ := hreach.destroyed_locally
  obtain ⟨hremoves, hleaves, -⟩ := hlocal (.exporter ⟨1⟩)
  refine ⟨hreach, ?_, ?_, hsilent ⟨2⟩⟩
  · have hlist : ((rehearse sharing).2.exports.find? ⟨⟨1⟩, 3⟩).map Export.importers =
        some [⟨⟨2⟩, 4⟩] := rfl
    obtain ⟨s, he, hs⟩ := Option.map_eq_some_iff.mp hlist
    exact hremoves.lost ⟨⟨2⟩, 4⟩ _ ⟨⟨⟨1⟩, 3⟩, s, Or.inr rfl, he, by simp [hs]⟩ rfl
  · exact (hleaves.inert _ _).mpr (Or.inr ⟨rfl, rfl⟩)

end Exchange

end SurfaceExchange
