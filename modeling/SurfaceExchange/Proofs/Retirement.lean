import SurfaceExchange.Proofs.Cascade

/-!
# What retiring an object comes to

`dropExports` takes exports off the exchange together with everything that
hangs on them, `dropImports` does so with imports. On a coherent exchange a
retired export, import or registry is one of these, apart from what is left
to the client (`retireExport_eq`, `retireExporter_eq`, `retireImport_eq`,
`retireImporter_eq`): that a registry takes all its objects off before it
finishes the first makes no difference.
-/

namespace SurfaceExchange.Exchange

variable {x : Exchange} {left : Remnant}

/-! ## Exports -/

/-- The tokens that go with an export: those of the links made through it and its own. -/
def tokensOf (x : Exchange) (p : ExportId × Export) : List Subscription :=
  (x.linksOf p.2.importers).flatMap ChildLink.tokens ++ [p.2.unmap]

/-- The importers of several exports, export by export. -/
def importersOf (ps : List (ExportId × Export)) : List ImportId :=
  ps.flatMap (fun p => p.2.importers)

/-- Takes exports off the exchange, and with them the sources of their imports. -/
def dropExports (x : Exchange) (ps : List (ExportId × Export)) : Exchange :=
  { x.sever (importersOf ps) (ps.flatMap x.tokensOf) with
    exports := x.exports.filter (fun e _ => decide (e ∉ ps.map Prod.fst)) }

/-- Leaves of every export what is to be left. -/
def leaveExports (x : Exchange) (ps : List (ExportId × Export)) (left : Remnant) : Exchange :=
  ps.foldl (fun x p => x.leaveExport p.1 p.2.client left) x

theorem leaveExport_sever (e : ExportId) (c : ClientId) (is : List ImportId)
    (ts : List Subscription) :
    (x.leaveExport e c left).sever is ts = (x.sever is ts).leaveExport e c left := by
  cases left <;> rfl

theorem Severable.leaveExport {is : List ImportId} (h : x.Severable is) (e : ExportId)
    (c : ClientId) : (x.leaveExport e c left).Severable is := by
  cases left <;> exact ⟨h.wellFormed, h.nodup, h.bereft, h.onlyHears⟩

theorem unravelExport_eq (e : ExportId) {r : Export} (h : x.Severable r.importers) :
    x.unravelExport e r left =
      (x.sever r.importers (x.tokensOf (e, r))).leaveExport e r.client left := by
  rw [unravelExport, foldl_breakOff_eq h, cancel, tokensOf]
  simp only [sever, Subscriptions.cancelAll_append]
  rfl

/-- What two exports of a list take with them does not overlap, so the order of the list is the
only order there is. -/
theorem foldl_unravelExport_eq {ps : List (ExportId × Export)} (h : x.Severable (importersOf ps)) :
    ps.foldl (fun x p => x.unravelExport p.1 p.2 left) x =
      (x.sever (importersOf ps) (ps.flatMap x.tokensOf)).leaveExports ps left := by
  induction ps generalizing x with
  | nil => exact foldl_breakOff_eq h
  | cons p ps ih =>
    have happ : importersOf (p :: ps) = p.2.importers ++ importersOf ps := rfl
    rw [happ] at h ⊢
    have hd : ∀ i ∈ importersOf ps, i ∉ p.2.importers := fun i hi hm =>
      (List.nodup_append.mp h.nodup).2.2 i hm i hi rfl
    have hhead : x.unravelExport p.1 p.2 left =
        (x.sever p.2.importers (x.tokensOf p)).leaveExport p.1 p.2.client left :=
      unravelExport_eq p.1 h.head
    have htokens : ∀ q ∈ ps,
        ((x.sever p.2.importers (x.tokensOf p)).leaveExport p.1 p.2.client left).tokensOf q =
          x.tokensOf q := by
      intro q hq
      have hsame : ∀ i ∈ q.2.importers,
          (x.sever p.2.importers (x.tokensOf p)).imports.find? i = x.imports.find? i := fun i hi =>
        find?_imports_sever_of_not_mem _ (hd i (List.mem_flatMap.mpr ⟨q, hq, hi⟩))
      have hlinks := linksOf_congr hsame
      cases left <;> simp only [tokensOf] <;> rw [← hlinks] <;> rfl
    have hflat : ps.flatMap
        ((x.sever p.2.importers (x.tokensOf p)).leaveExport p.1 p.2.client left).tokensOf =
          ps.flatMap x.tokensOf :=
      List.flatMap_congr htokens
    rw [List.foldl_cons, hhead, ih ((h.tail (x.tokensOf p)).leaveExport p.1 p.2.client),
      leaveExport_sever, hflat, sever_append hd]
    rfl

/-- Exports that are taken off a coherent exchange leave imports that can be severed. -/
theorem Coherent.severable (h : x.Coherent) {ps : List (ExportId × Export)}
    (hps : ∀ p ∈ ps, x.exports.find? p.1 = some p.2) (hn : (ps.map Prod.fst).Nodup)
    {E : Table ExportId Export} (hE : ∀ p ∈ ps, E.find? p.1 = none) :
    ({ x with exports := E } : Exchange).Severable (importersOf ps) where
  wellFormed := h.watched.wellFormed
  nodup := by
    rw [importersOf, List.nodup_flatMap]
    refine ⟨fun p hp => h.links.importers_nodup (hps p hp), ?_⟩
    have hkeys : ps.Pairwise (fun p q => p.1 ≠ q.1) := List.pairwise_map.mp hn
    refine hkeys.imp_of_mem fun {p q} hp hq hne i hi hi' => hne ?_
    obtain ⟨r, hr, hs⟩ := h.links.resolved (hps p hp) hi
    rw [h.links.source_of_listed hr (hps q hq) hi'] at hs
    exact (Option.some.inj hs).symm
  bereft := by
    intro i hi
    obtain ⟨p, hp, hi⟩ := List.mem_flatMap.mp hi
    obtain ⟨r, hr, hs⟩ := h.links.resolved (hps p hp) hi
    exact ⟨r, p.1, hr, hs, hE p hp⟩
  onlyHears := by
    intro l hl
    obtain ⟨i, -, r, hi, hl⟩ := (mem_linksOf_iff _ l).mp hl
    exact h.onlyHears hi hl

theorem filter_not_mem_singleton {κ α : Type} [KeyOrder κ] [DecidableEq κ] (t : Table κ α)
    (k : κ) : t.filter (fun k' _ => decide (k' ∉ [k])) = t.erase k := by
  simp [Table.erase]

theorem retireExport_eq (h : x.Coherent) {e : ExportId} {r : Export}
    (he : x.exports.find? e = some r) (left : Remnant) :
    x.retireExport e left = (x.dropExports [(e, r)]).leaveExports [(e, r)] left := by
  have hlive : ∀ p ∈ [(e, r)], x.exports.find? p.1 = some p.2 := by simpa using he
  have hsev : ({ x with exports := x.exports.erase e } : Exchange).Severable r.importers := by
    simpa [importersOf] using h.severable hlive (by simp) (E := x.exports.erase e) (by simp)
  simp only [retireExport, he]
  rw [unravelExport_eq e hsev]
  simp only [dropExports, importersOf, List.flatMap_cons, List.flatMap_nil, List.append_nil,
    List.map_cons, List.map_nil, filter_not_mem_singleton]
  rfl

/-- The exports made through an exporter, in order. -/
def ownExports (x : Exchange) (id : ExporterId) : List (ExportId × Export) :=
  (x.exports.filter (fun e _ => decide (e.exporter = id))).toList

theorem mem_ownExports_iff (id : ExporterId) (p : ExportId × Export) :
    p ∈ x.ownExports id ↔ x.exports.find? p.1 = some p.2 ∧ p.1.exporter = id := by
  rw [ownExports, Table.mem_toList_filter_iff, decide_eq_true_eq]

theorem ownExports_live (id : ExporterId) :
    ∀ p ∈ x.ownExports id, x.exports.find? p.1 = some p.2 :=
  fun p hp => ((mem_ownExports_iff id p).mp hp).1

/-- What is left when the exports of an exporter go are the exports of other exporters. -/
theorem filter_ownExports (id : ExporterId) :
    x.exports.filter (fun e _ => decide (e.exporter ≠ id)) =
      x.exports.filter (fun e _ => decide (e ∉ (x.ownExports id).map Prod.fst)) := by
  rw [ownExports, Table.filter_not_mem]
  simp only [ne_eq, decide_not]

theorem leaveExports_exporters (ps : List (ExportId × Export)) (X : Table ExporterId Registry) :
    { x with exporters := X }.leaveExports ps left =
      { x.leaveExports ps left with exporters := X } := by
  induction ps generalizing x with
  | nil => rfl
  | cons p ps ih =>
    have hrest := ih (x := x.leaveExport p.1 p.2.client left)
    cases left <;> exact hrest

theorem retireExporter_eq (h : x.Coherent) {id : ExporterId} {g : Registry}
    (hg : x.exporters.find? id = some g) (left : Remnant) :
    x.retireExporter id left =
      { (x.dropExports (x.ownExports id)).leaveExports (x.ownExports id) left with
        exporters := x.exporters.erase id }.untrack g.client (.exporter id) := by
  have hps := ownExports_live (x := x) id
  have hn : ((x.ownExports id).map Prod.fst).Nodup := Table.keys_nodup _
  have hE : ∀ p ∈ x.ownExports id,
      (x.exports.filter (fun e _ => decide (e.exporter ≠ id))).find? p.1 = none := by
    intro p hp
    rw [Table.find?_filter, hps p hp]
    simp [((mem_ownExports_iff id p).mp hp).2]
  have hsev : ({ x with
      exporters := x.exporters.erase id
      exports := x.exports.filter (fun e _ => decide (e.exporter ≠ id)) } : Exchange).Severable
        (importersOf (x.ownExports id)) := by
    have hs := h.severable hps hn hE
    exact ⟨hs.wellFormed, hs.nodup, hs.bereft, hs.onlyHears⟩
  simp only [retireExporter, hg]
  rw [← ownExports, foldl_unravelExport_eq hsev, ← leaveExports_exporters, dropExports,
    ← filter_ownExports]
  rfl

/-! ## Imports -/

/-- Imports leave the lists of the exports, and their links are dropped. -/
def shed (x : Exchange) (is : List ImportId) (ls : List ChildLink) : Exchange :=
  { x with
    exports := x.exports.mapValues (fun _ r =>
      { r with importers := r.importers.filter (fun i => decide (i ∉ is)) })
    subscriptions := x.subscriptions.cancelAll (ls.flatMap ChildLink.tokens)
    parentChanges := x.parentChanges ++ ls.map ChildLink.parting }

theorem shed_append (is is' : List ImportId) (ls ls' : List ChildLink) :
    (x.shed is ls).shed is' ls' = x.shed (is ++ is') (ls ++ ls') := by
  have hexports : (x.shed is ls).exports.mapValues (fun _ r =>
      { r with importers := r.importers.filter (fun i => decide (i ∉ is')) }) =
      x.exports.mapValues (fun _ r =>
        { r with importers := r.importers.filter (fun i => decide (i ∉ is ++ is')) }) := by
    apply Table.ext_find?
    intro e
    simp only [shed, Table.find?_mapValues, Option.map_map]
    congr 1
    funext r
    simp [List.filter_filter, Bool.and_comm]
  rw [shed, hexports]
  simp only [shed, List.map_append, List.append_assoc, List.flatMap_append,
    Subscriptions.cancelAll_append]

/-- Only the source of an import lists it, and nobody but its own links hears of its children. -/
structure Sheddable (x : Exchange) (ps : List (ImportId × Import)) : Prop where
  wellFormed : x.subscriptions.WellFormed
  listed : ∀ p ∈ ps, ∀ e s, x.exports.find? e = some s → p.1 ∈ s.importers → p.2.source = some e
  onlyHears : ∀ p ∈ ps, ∀ l ∈ p.2.children, x.subscriptions.OnlyHears l

/-- Leaves of every import what is to be left. -/
def leaveImports (x : Exchange) (ps : List (ImportId × Import)) (left : Remnant) : Exchange :=
  ps.foldl (fun x p => x.leaveImport p.1 p.2.client left) x

theorem leaveImport_shed (i : ImportId) (c : ClientId) (is : List ImportId)
    (ls : List ChildLink) :
    (x.leaveImport i c left).shed is ls = (x.shed is ls).leaveImport i c left := by
  cases left <;> rfl

/-- A list without an import is the same when it forgets it. -/
theorem filter_of_not_mem {is : List ImportId} {i : ImportId} (h : i ∉ is) :
    is.filter (fun j => decide (j ∉ [i])) = is := by
  refine List.filter_eq_self.mpr fun j hj => ?_
  have hji : j ≠ i := fun hji => h (hji ▸ hj)
  simpa using hji

/-- An import that nobody lists has nobody to forget it. -/
theorem shed_of_unlisted {i : ImportId}
    (h : ∀ e s, x.exports.find? e = some s → i ∉ s.importers) : x.shed [i] [] = x := by
  have hexports : x.exports.mapValues (fun _ s =>
      { s with importers := s.importers.filter (fun j => decide (j ∉ [i])) }) = x.exports := by
    apply Table.ext_find?
    intro e
    rw [Table.find?_mapValues]
    cases he : x.exports.find? e with
    | none => rfl
    | some s => rw [Option.map_some, filter_of_not_mem (h e s he)]
  rw [shed, hexports]
  simp [Subscriptions.cancelAll]

/-- No list but that of its source has to forget an import. -/
theorem forgetImporter_eq {e : ExportId} {i : ImportId}
    (h : ∀ e' s, x.exports.find? e' = some s → i ∈ s.importers → e = e') :
    x.forgetImporter e i = x.shed [i] [] := by
  have hexports : x.exports.modify e (fun s =>
      { s with importers := s.importers.filter (fun j => decide (j ≠ i)) }) =
      x.exports.mapValues (fun _ s =>
        { s with importers := s.importers.filter (fun j => decide (j ∉ [i])) }) := by
    apply Table.ext_find?
    intro e'
    rw [Table.find?_mapValues, Table.find?_modify]
    cases he : x.exports.find? e' with
    | none => simp
    | some s =>
      by_cases hee : e' = e
      · simp [hee]
      · have hm : i ∉ s.importers := fun hm => hee (h e' s he hm).symm
        rw [if_neg hee, Option.map_some, filter_of_not_mem hm]
  rw [forgetImporter, hexports, shed]
  simp [Subscriptions.cancelAll]

theorem unravelImport_eq {i : ImportId} {r : Import} (h : x.Sheddable [(i, r)]) :
    x.unravelImport i r left = (x.shed [i] r.children).leaveImport i r.client left := by
  obtain ⟨y, hy⟩ : ∃ y, x.dropLinks r.children = y := ⟨_, rfl⟩
  have hdrop := hy.symm.trans (dropLinks_eq h.wellFormed (h.onlyHears (i, r) List.mem_cons_self))
  have hshed : y.shed [i] [] = x.shed [i] r.children := by
    rw [hdrop]
    simp only [shed, List.flatMap_nil, List.map_nil, List.append_nil]
    rfl
  have hlisted : ∀ e s, y.exports.find? e = some s → i ∈ s.importers → r.source = some e := by
    rw [hdrop]
    exact h.listed (i, r) List.mem_cons_self
  simp only [unravelImport, hy]
  cases hs : r.source with
  | none =>
    have hun : ∀ e s, y.exports.find? e = some s → i ∉ s.importers := fun e s he hm => by
      have hsource := hlisted e s he hm
      rw [hs] at hsource
      cases hsource
    simp only
    rw [← hshed, shed_of_unlisted hun]
  | some e =>
    have honly : ∀ e' s, y.exports.find? e' = some s → i ∈ s.importers → e = e' :=
      fun e' s he hm => Option.some.inj (hs ▸ hlisted e' s he hm)
    simp only
    rw [← hshed, forgetImporter_eq honly]

theorem foldl_unravelImport_eq {ps : List (ImportId × Import)} (h : x.Sheddable ps) :
    ps.foldl (fun x p => x.unravelImport p.1 p.2 left) x =
      (x.shed (ps.map Prod.fst) (ps.flatMap (fun p => p.2.children))).leaveImports ps left := by
  induction ps generalizing x with
  | nil => simp [shed, leaveImports, Subscriptions.cancelAll, Table.mapValues]
  | cons p ps ih =>
    have hhead : x.Sheddable [(p.1, p.2)] :=
      ⟨h.wellFormed, fun q hq => h.listed q (by simp_all), fun q hq => h.onlyHears q (by simp_all)⟩
    have htail : ((x.shed [p.1] p.2.children).leaveImport p.1 p.2.client left).Sheddable ps := by
      have hshed : (x.shed [p.1] p.2.children).Sheddable ps := by
        refine ⟨h.wellFormed.cancelAll _, fun q hq e s he hm => ?_, fun q hq l hl => ?_⟩
        · rw [shed, Table.find?_mapValues, Option.map_eq_some_iff] at he
          obtain ⟨s', he', rfl⟩ := he
          exact h.listed q (List.mem_cons_of_mem _ hq) e s' he' (List.mem_filter.mp hm).1
        · exact (h.onlyHears q (List.mem_cons_of_mem _ hq) l hl).mono fun t w ht =>
            ((Subscriptions.listens_cancelAll h.wellFormed _ t w).mp ht).2
      cases left <;> exact ⟨hshed.wellFormed, hshed.listed, hshed.onlyHears⟩
    rw [List.foldl_cons, unravelImport_eq hhead, ih htail, leaveImport_shed, shed_append]
    rfl

/-- Takes imports off the exchange. -/
def dropImports (x : Exchange) (ps : List (ImportId × Import)) : Exchange :=
  { x.shed (ps.map Prod.fst) (ps.flatMap (fun p => p.2.children)) with
    imports := x.imports.filter (fun i _ => decide (i ∉ ps.map Prod.fst)) }

theorem Coherent.sheddable (h : x.Coherent) {ps : List (ImportId × Import)}
    (hps : ∀ p ∈ ps, x.imports.find? p.1 = some p.2) (I : Table ImportId Import) :
    ({ x with imports := I } : Exchange).Sheddable ps where
  wellFormed := h.watched.wellFormed
  listed := fun p hp _ _ he hm => h.links.source_of_listed (hps p hp) he hm
  onlyHears := fun p hp _ hl => h.onlyHears (hps p hp) hl

theorem retireImport_eq (h : x.Coherent) {i : ImportId} {r : Import}
    (hi : x.imports.find? i = some r) (left : Remnant) :
    x.retireImport i left = (x.dropImports [(i, r)]).leaveImports [(i, r)] left := by
  have hlive : ∀ p ∈ [(i, r)], x.imports.find? p.1 = some p.2 := by simpa using hi
  have hshed := h.sheddable hlive (x.imports.erase i)
  simp only [retireImport, hi]
  rw [unravelImport_eq hshed]
  simp only [dropImports, List.map_cons, List.map_nil, filter_not_mem_singleton,
    List.flatMap_cons, List.flatMap_nil, List.append_nil]
  rfl

/-- The imports made through an importer, in order. -/
def ownImports (x : Exchange) (id : ImporterId) : List (ImportId × Import) :=
  (x.imports.filter (fun i _ => decide (i.importer = id))).toList

theorem mem_ownImports_iff (id : ImporterId) (p : ImportId × Import) :
    p ∈ x.ownImports id ↔ x.imports.find? p.1 = some p.2 ∧ p.1.importer = id := by
  rw [ownImports, Table.mem_toList_filter_iff, decide_eq_true_eq]

theorem ownImports_live (id : ImporterId) :
    ∀ p ∈ x.ownImports id, x.imports.find? p.1 = some p.2 :=
  fun p hp => ((mem_ownImports_iff id p).mp hp).1

/-- What is left when the imports of an importer go are the imports of other importers. -/
theorem filter_ownImports (id : ImporterId) :
    x.imports.filter (fun i _ => decide (i.importer ≠ id)) =
      x.imports.filter (fun i _ => decide (i ∉ (x.ownImports id).map Prod.fst)) := by
  rw [ownImports, Table.filter_not_mem]
  simp only [ne_eq, decide_not]

theorem leaveImports_importers (ps : List (ImportId × Import)) (M : Table ImporterId Registry) :
    { x with importers := M }.leaveImports ps left =
      { x.leaveImports ps left with importers := M } := by
  induction ps generalizing x with
  | nil => rfl
  | cons p ps ih =>
    have hrest := ih (x := x.leaveImport p.1 p.2.client left)
    cases left <;> exact hrest

theorem retireImporter_eq (h : x.Coherent) {id : ImporterId} {g : Registry}
    (hg : x.importers.find? id = some g) (left : Remnant) :
    x.retireImporter id left =
      { (x.dropImports (x.ownImports id)).leaveImports (x.ownImports id) left with
        importers := x.importers.erase id }.untrack g.client (.importer id) := by
  have hshed : ({ x with
      importers := x.importers.erase id
      imports := x.imports.filter (fun i _ => decide (i.importer ≠ id)) } : Exchange).Sheddable
        (x.ownImports id) := by
    have hs := h.sheddable (ownImports_live id)
      (x.imports.filter (fun i _ => decide (i.importer ≠ id)))
    exact ⟨hs.wellFormed, hs.listed, hs.onlyHears⟩
  simp only [retireImporter, hg]
  rw [← ownImports, foldl_unravelImport_eq hshed, ← leaveImports_importers, dropImports,
    ← filter_ownImports]
  rfl

end SurfaceExchange.Exchange
