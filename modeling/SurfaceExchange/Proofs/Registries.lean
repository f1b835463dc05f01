import SurfaceExchange.Proofs.Tracking

/-!
# Many registries at once

Retiring registries one after the other is taking all their objects off at
once, registry by registry (`foldl_retireImporter_eq`,
`foldl_retireExporter_eq`). For the registries of one client that is the
order of the tables (`Table.flatMap_groups`), and so a client that is gone is
`withoutClient` (`clientGone_eq`).
-/

namespace SurfaceExchange

namespace Table

variable {κ α : Type} [KeyOrder κ]

theorem filter_filter (t : Table κ α) (p q : κ → α → Bool) :
    (t.filter p).filter q = t.filter (fun k a => p k a && q k a) :=
  toList_injective (by simp [filter, List.filter_filter, Bool.and_comm])

variable [DecidableEq κ]

/-- Tests that agree on the entries of a table keep the same entries. -/
theorem filter_congr {t : Table κ α} {p q : κ → α → Bool}
    (h : ∀ k a, t.find? k = some a → p k a = q k a) : t.filter p = t.filter q := by
  apply ext_find?
  intro k
  rw [find?_filter, find?_filter]
  cases hk : t.find? k with
  | none => rfl
  | some a => rw [Option.filter_some, Option.filter_some, h k a hk]

theorem filter_not_mem_keys (t : Table κ α) :
    t.filter (fun k _ => decide (k ∉ t.keys)) = .empty := by
  refine (filter_congr (q := fun _ _ => false) fun k a hk => ?_).trans
    (toList_injective (List.filter_false _))
  exact decide_eq_false (not_not.mpr ((t.mem_keys_iff k).mpr (Option.isSome_of_eq_some hk)))

/-- Entries gathered group by group are in order if the groups are. -/
theorem flatMap_groups {ρ : Type} [KeyOrder ρ] {gs : List ρ} (hgs : gs.Pairwise (· < ·))
    (t : Table κ α) (group : κ → ρ) [DecidableEq ρ] (hlt : ∀ a b, group a < group b → a < b)
    (q : κ → α → Bool) (hq : ∀ e ∈ t.toList, q e.1 e.2 = true ↔ group e.1 ∈ gs) :
    gs.flatMap (fun g => (t.filter (fun k _ => decide (group k = g))).toList) =
      (t.filter q).toList := by
  refine eq_of_ascending (List.pairwise_flatMap.mpr ⟨fun g _ => ascending _, ?_⟩)
    (ascending _) fun e => ?_
  · refine hgs.imp fun {g g'} hgg a ha b hb => hlt _ _ ?_
    have h1 := of_decide_eq_true ((mem_toList_filter_iff _ a).mp ha).2
    have h2 := of_decide_eq_true ((mem_toList_filter_iff _ b).mp hb).2
    rw [h1, h2]
    exact hgg
  · rw [List.mem_flatMap, mem_toList_filter_iff]
    constructor
    · rintro ⟨g, hg, he⟩
      obtain ⟨hf, hgroup⟩ := (mem_toList_filter_iff _ e).mp he
      have hmem : e ∈ t.toList := (t.mem_toList_iff e.1 e.2).mpr hf
      exact ⟨hf, (hq e hmem).mpr (of_decide_eq_true hgroup ▸ hg)⟩
    · rintro ⟨hf, hqe⟩
      have hmem : e ∈ t.toList := (t.mem_toList_iff e.1 e.2).mpr hf
      exact ⟨_, (hq e hmem).mp hqe, (mem_toList_filter_iff _ e).mpr ⟨hf, decide_eq_true rfl⟩⟩

/-- The groups gather all entries of a table if every entry is in one of them. -/
theorem flatMap_all_groups {ρ : Type} [KeyOrder ρ] {gs : List ρ} (hgs : gs.Pairwise (· < ·))
    (t : Table κ α) (group : κ → ρ) [DecidableEq ρ] (hlt : ∀ a b, group a < group b → a < b)
    (h : ∀ e ∈ t.toList, group e.1 ∈ gs) :
    gs.flatMap (fun g => (t.filter (fun k _ => decide (group k = g))).toList) = t.toList := by
  rw [flatMap_groups hgs t group hlt (fun _ _ => true) fun e he => iff_of_true rfl (h e he)]
  exact List.filter_true _

theorem filter_not_mem_nil (t : Table κ α) : t.filter (fun k _ => decide (k ∉ [])) = t :=
  toList_injective (by simp [filter])

/-- The keys of those entries whose values have one property in common. -/
theorem mem_keys_filter_iff {γ : Type} [DecidableEq γ] (t : Table κ α) (f : α → γ) (c : γ)
    (k : κ) : k ∈ (t.filter (fun _ a => decide (f a = c))).keys ↔ (t.find? k).map f = some c := by
  rw [mem_keys_iff, find?_filter]
  cases t.find? k with
  | none => simp
  | some a => by_cases ha : f a = c <;> simp [Option.filter_some, ha]

/-- Erasing a key and then others. -/
theorem filter_erase (t : Table κ α) (k : κ) (ks : List κ) :
    (t.erase k).filter (fun k' _ => decide (k' ∉ ks)) =
      t.filter (fun k' _ => decide (k' ∉ k :: ks)) := by
  rw [erase, filter_filter]
  congr 1
  funext k' _
  by_cases h1 : k' = k <;> by_cases h2 : k' ∈ ks <;> simp [h1, h2]

end Table

theorem Ownership.untrackAll_append (w : Ownership) (os os' : List (ClientId × ObjectId)) :
    w.untrackAll (os ++ os') = (w.untrackAll os).untrackAll os' :=
  List.foldl_append

namespace Exchange

variable {x : Exchange}

/-! ## Importers -/

theorem dropImports_append (ps ps' : List (ImportId × Import)) :
    (x.dropImports ps).dropImports ps' = x.dropImports (ps ++ ps') := by
  have himports : (x.dropImports ps).imports.filter (fun i _ => decide (i ∉ ps'.map Prod.fst)) =
      x.imports.filter (fun i _ => decide (i ∉ (ps ++ ps').map Prod.fst)) := by
    rw [dropImports, Table.filter_filter]
    congr 1
    funext i _
    rw [List.map_append]
    by_cases h1 : i ∈ ps.map Prod.fst <;> by_cases h2 : i ∈ ps'.map Prod.fst <;> simp [h1, h2]
  have hshed := shed_append (x := x) (ps.map Prod.fst) (ps'.map Prod.fst)
    (ps.flatMap (fun p => p.2.children)) (ps'.flatMap (fun p => p.2.children))
  rw [← List.map_append, ← List.flatMap_append] at hshed
  rw [dropImports, himports, dropImports, dropImports, ← hshed]
  rfl

/-- The objects that go with an importer, itself the last. -/
def importerObjects (x : Exchange) (id : ImporterId) : List (ClientId × ObjectId) :=
  importObjects (x.ownImports id) ++
    ((x.importers.find? id).map (fun g => (g.client, .importer id))).toList

/-- One importer takes none of another's imports with it. -/
theorem ownImports_dropImports {id id' : ImporterId} (h : id' ≠ id) :
    (x.dropImports (x.ownImports id)).ownImports id' = x.ownImports id' := by
  rw [ownImports, dropImports, ← filter_ownImports, Table.filter_filter, ownImports]
  congr 2
  funext i _
  by_cases hi : i.importer = id' <;> simp [hi, h]

theorem dropImports_nil : x.dropImports [] = x := by
  rw [dropImports, List.map_nil, Table.filter_not_mem_nil]
  simp [shed, Subscriptions.cancelAll, Table.mapValues]

theorem retireImporter_nothing (h : x.Coherent) {id : ImporterId} {g : Registry}
    (hg : x.importers.find? id = some g) :
    x.retireImporter id .nothing = { x.dropImports (x.ownImports id) with
      importers := x.importers.erase id
      ownership := x.ownership.untrackAll (x.importerObjects id) } := by
  rw [retireImporter_eq h hg, leaveImports_nothing, importerObjects, hg,
    Ownership.untrackAll_append]
  rfl

theorem foldl_retireImporter_eq (h : x.Coherent) {ms : List ImporterId} (hn : ms.Nodup)
    (hms : ∀ id ∈ ms, (x.importers.find? id).isSome) :
    ms.foldl (retireImporter · · .nothing) x = { x.dropImports (ms.flatMap x.ownImports) with
      importers := x.importers.filter (fun id _ => decide (id ∉ ms))
      ownership := x.ownership.untrackAll (ms.flatMap x.importerObjects) } := by
  induction ms generalizing x with
  | nil =>
    simp only [List.foldl_nil, List.flatMap_nil, Table.filter_not_mem_nil, dropImports_nil]
    rfl
  | cons id ms ih =>
    obtain ⟨hid, hms'⟩ := List.nodup_cons.mp hn
    obtain ⟨g, hg⟩ := Option.isSome_iff_exists.mp (hms id List.mem_cons_self)
    have hne : ∀ id' ∈ ms, id' ≠ id := fun id' hid' heq => hid (heq ▸ hid')
    obtain ⟨y, hy⟩ : ∃ y, x.retireImporter id .nothing = y := ⟨_, rfl⟩
    have hy' := hy.symm.trans (retireImporter_nothing h hg)
    have hcoherent : y.Coherent := by
      have hleft := h.dropImports (ownImports_live id)
      rw [hy']
      exact ⟨hleft.links, hleft.watched⟩
    have hlive : ∀ id' ∈ ms, (y.importers.find? id').isSome := by
      intro id' hid'
      rw [hy']
      simp only [Table.find?_erase_of_ne (hne id' hid')]
      exact hms id' (List.mem_cons_of_mem _ hid')
    have hown : ∀ id' ∈ ms, y.ownImports id' = x.ownImports id' := by
      intro id' hid'
      rw [hy']
      exact ownImports_dropImports (hne id' hid')
    have hobjects : ∀ id' ∈ ms, y.importerObjects id' = x.importerObjects id' := by
      intro id' hid'
      rw [importerObjects, hown id' hid', importerObjects]
      congr 3
      rw [hy']
      exact Table.find?_erase_of_ne (hne id' hid') _
    have hdrop : { x.dropImports (x.ownImports id) with
        importers := x.importers.erase id
        ownership := x.ownership.untrackAll (x.importerObjects id) : Exchange }.dropImports
          (ms.flatMap x.ownImports) =
        { x.dropImports ((id :: ms).flatMap x.ownImports) with
          importers := x.importers.erase id
          ownership := x.ownership.untrackAll (x.importerObjects id) } := by
      rw [List.flatMap_cons, ← dropImports_append]
      rfl
    rw [List.foldl_cons, hy, ih hcoherent hms' hlive, List.flatMap_congr hown,
      List.flatMap_congr hobjects, hy', hdrop]
    simp only [Table.filter_erase, List.flatMap_cons, Ownership.untrackAll_append]

/-! ## Exporters -/

/-- Exports that go leave the others their importers and links. -/
theorem tokensOf_dropExports (h : x.Coherent) {ps : List (ExportId × Export)}
    (hps : ∀ p ∈ ps, x.exports.find? p.1 = some p.2) {q : ExportId × Export}
    (hq : x.exports.find? q.1 = some q.2) (hqps : q.1 ∉ ps.map Prod.fst) :
    (∀ i ∈ q.2.importers, i ∉ importersOf ps) ∧
      (x.dropExports ps).tokensOf q = x.tokensOf q := by
  have hd : ∀ i ∈ q.2.importers, i ∉ importersOf ps := by
    intro i hi hm
    obtain ⟨r, hr, hs⟩ := h.links.resolved hq hi
    obtain ⟨e, he, hs'⟩ := (h.mem_importersOf_iff hps hr).mp hm
    rw [hs] at hs'
    cases hs'
    exact hqps he
  have hsame : ∀ i ∈ q.2.importers, (x.dropExports ps).imports.find? i = x.imports.find? i :=
    fun i hi => find?_imports_sever_of_not_mem (ps.flatMap x.tokensOf) (hd i hi)
  exact ⟨hd, by rw [tokensOf, linksOf_congr hsame, tokensOf]⟩

theorem dropExports_append (h : x.Coherent) {ps ps' : List (ExportId × Export)}
    (hps : ∀ p ∈ ps, x.exports.find? p.1 = some p.2)
    (hps' : ∀ q ∈ ps', x.exports.find? q.1 = some q.2 ∧ q.1 ∉ ps.map Prod.fst) :
    (x.dropExports ps).dropExports ps' = x.dropExports (ps ++ ps') := by
  have hexports : (x.dropExports ps).exports.filter (fun e _ => decide (e ∉ ps'.map Prod.fst)) =
      x.exports.filter (fun e _ => decide (e ∉ (ps ++ ps').map Prod.fst)) := by
    rw [dropExports, Table.filter_filter]
    congr 1
    funext e _
    rw [List.map_append]
    by_cases h1 : e ∈ ps.map Prod.fst <;> by_cases h2 : e ∈ ps'.map Prod.fst <;> simp [h1, h2]
  have htokens : ps'.flatMap (x.dropExports ps).tokensOf = ps'.flatMap x.tokensOf :=
    List.flatMap_congr fun q hq =>
      (tokensOf_dropExports h hps (hps' q hq).1 (hps' q hq).2).2
  have hd : ∀ i ∈ importersOf ps', i ∉ importersOf ps := by
    intro i hi
    obtain ⟨q, hq, hi⟩ := List.mem_flatMap.mp hi
    exact (tokensOf_dropExports h hps (hps' q hq).1 (hps' q hq).2).1 i hi
  have hsever := sever_append hd (ps.flatMap x.tokensOf) (ps'.flatMap x.tokensOf) (x := x)
  have happ : importersOf (ps ++ ps') = importersOf ps ++ importersOf ps' := List.flatMap_append
  rw [← happ, ← List.flatMap_append] at hsever
  rw [dropExports, hexports, htokens, dropExports, dropExports, ← hsever]
  rfl

/-- The objects that go with an exporter, itself the last. -/
def exporterObjects (x : Exchange) (id : ExporterId) : List (ClientId × ObjectId) :=
  exportObjects (x.ownExports id) ++
    ((x.exporters.find? id).map (fun g => (g.client, .exporter id))).toList

/-- One exporter takes none of another's exports with it. -/
theorem ownExports_dropExports {id id' : ExporterId} (h : id' ≠ id) :
    (x.dropExports (x.ownExports id)).ownExports id' = x.ownExports id' := by
  rw [ownExports, dropExports, ← filter_ownExports, Table.filter_filter, ownExports]
  congr 2
  funext e _
  by_cases he : e.exporter = id' <;> simp [he, h]

theorem dropExports_nil : x.dropExports [] = x := by
  rw [dropExports, List.map_nil, Table.filter_not_mem_nil]
  simp [sever, importersOf, linksOf, Subscriptions.cancelAll, Table.mapValues]

theorem retireExporter_nothing (h : x.Coherent) {id : ExporterId} {g : Registry}
    (hg : x.exporters.find? id = some g) :
    x.retireExporter id .nothing = { x.dropExports (x.ownExports id) with
      exporters := x.exporters.erase id
      ownership := x.ownership.untrackAll (x.exporterObjects id) } := by
  rw [retireExporter_eq h hg, leaveExports_nothing, exporterObjects, hg,
    Ownership.untrackAll_append]
  rfl

theorem foldl_retireExporter_eq (h : x.Coherent) {xs : List ExporterId} (hn : xs.Nodup)
    (hxs : ∀ id ∈ xs, (x.exporters.find? id).isSome) :
    xs.foldl (retireExporter · · .nothing) x = { x.dropExports (xs.flatMap x.ownExports) with
      exporters := x.exporters.filter (fun id _ => decide (id ∉ xs))
      ownership := x.ownership.untrackAll (xs.flatMap x.exporterObjects) } := by
  induction xs generalizing x with
  | nil =>
    simp only [List.foldl_nil, List.flatMap_nil, Table.filter_not_mem_nil, dropExports_nil]
    rfl
  | cons id xs ih =>
    obtain ⟨hid, hxs'⟩ := List.nodup_cons.mp hn
    obtain ⟨g, hg⟩ := Option.isSome_iff_exists.mp (hxs id List.mem_cons_self)
    have hne : ∀ id' ∈ xs, id' ≠ id := fun id' hid' heq => hid (heq ▸ hid')
    obtain ⟨y, hy⟩ : ∃ y, x.retireExporter id .nothing = y := ⟨_, rfl⟩
    have hy' := hy.symm.trans (retireExporter_nothing h hg)
    have hcoherent : y.Coherent := by
      have hleft := h.dropExports (ownExports_live id)
      rw [hy']
      exact ⟨hleft.links, hleft.watched⟩
    have hlive : ∀ id' ∈ xs, (y.exporters.find? id').isSome := by
      intro id' hid'
      rw [hy']
      simp only [Table.find?_erase_of_ne (hne id' hid')]
      exact hxs id' (List.mem_cons_of_mem _ hid')
    have hown : ∀ id' ∈ xs, y.ownExports id' = x.ownExports id' := by
      intro id' hid'
      rw [hy']
      exact ownExports_dropExports (hne id' hid')
    have hobjects : ∀ id' ∈ xs, y.exporterObjects id' = x.exporterObjects id' := by
      intro id' hid'
      rw [exporterObjects, hown id' hid', exporterObjects]
      congr 3
      rw [hy']
      exact Table.find?_erase_of_ne (hne id' hid') _
    have hrest : ∀ q ∈ xs.flatMap x.ownExports,
        x.exports.find? q.1 = some q.2 ∧ q.1 ∉ (x.ownExports id).map Prod.fst := by
      intro q hq
      obtain ⟨id', hid', hq⟩ := List.mem_flatMap.mp hq
      obtain ⟨hf, hq'⟩ := (mem_ownExports_iff id' q).mp hq
      refine ⟨hf, fun hm => ?_⟩
      obtain ⟨p, hp, hpq⟩ := List.mem_map.mp hm
      exact hne id' hid' (by rw [← hq', ← hpq, ((mem_ownExports_iff id p).mp hp).2])
    have hdrop : { x.dropExports (x.ownExports id) with
        exporters := x.exporters.erase id
        ownership := x.ownership.untrackAll (x.exporterObjects id) : Exchange }.dropExports
          (xs.flatMap x.ownExports) =
        { x.dropExports ((id :: xs).flatMap x.ownExports) with
          exporters := x.exporters.erase id
          ownership := x.ownership.untrackAll (x.exporterObjects id) } := by
      rw [List.flatMap_cons, ← dropExports_append h (ownExports_live id) hrest]
      rfl
    rw [List.foldl_cons, hy, ih hcoherent hxs' hlive, List.flatMap_congr hown,
      List.flatMap_congr hobjects, hy', hdrop]
    simp only [Table.filter_erase, List.flatMap_cons, Ownership.untrackAll_append]

/-! ## A client that is gone -/

/-- The live imports of a client, in order. -/
def importsHeld (x : Exchange) (c : ClientId) : List (ImportId × Import) :=
  (x.imports.filter (fun _ r => decide (r.client = c))).toList

/-- The live exports of a client, in order. -/
def exportsHeld (x : Exchange) (c : ClientId) : List (ExportId × Export) :=
  (x.exports.filter (fun _ r => decide (r.client = c))).toList

theorem mem_importsHeld_iff (c : ClientId) (p : ImportId × Import) :
    p ∈ x.importsHeld c ↔ x.imports.find? p.1 = some p.2 ∧ p.2.client = c := by
  rw [importsHeld, Table.mem_toList_filter_iff, decide_eq_true_eq]

theorem mem_exportsHeld_iff (c : ClientId) (p : ExportId × Export) :
    p ∈ x.exportsHeld c ↔ x.exports.find? p.1 = some p.2 ∧ p.2.client = c := by
  rw [exportsHeld, Table.mem_toList_filter_iff, decide_eq_true_eq]

theorem importsHeld_live (c : ClientId) :
    ∀ p ∈ x.importsHeld c, x.imports.find? p.1 = some p.2 :=
  fun p hp => ((mem_importsHeld_iff c p).mp hp).1

theorem exportsHeld_live (c : ClientId) :
    ∀ p ∈ x.exportsHeld c, x.exports.find? p.1 = some p.2 :=
  fun p hp => ((mem_exportsHeld_iff c p).mp hp).1

/-- The exchange without its imports of a client. -/
def withoutImports (x : Exchange) (c : ClientId) : Exchange := x.dropImports (x.importsHeld c)

theorem Coherent.withoutImports (h : x.Coherent) (c : ClientId) : (x.withoutImports c).Coherent :=
  h.dropImports (importsHeld_live c)

/-- The exchange without anything of a client: first its imports go, then its exports. -/
def withoutClient (x : Exchange) (c : ClientId) : Exchange :=
  { (x.withoutImports c).dropExports ((x.withoutImports c).exportsHeld c) with
    exporters := x.exporters.filter (fun _ g => decide (g.client ≠ c))
    importers := x.importers.filter (fun _ g => decide (g.client ≠ c))
    inertExports := x.inertExports.filter (fun _ owner => decide (owner ≠ c))
    inertImports := x.inertImports.filter (fun _ owner => decide (owner ≠ c))
    ownership := (x.ownership.release c).2 }

namespace Registered

theorem mem_importers_iff (h : x.Registered) (c : ClientId) (id : ImporterId) :
    id ∈ (x.ownership.holdings c).importers.keys ↔ x.clientOf? (.importer id) = some c := by
  rw [← Table.contains_iff_mem_keys]
  exact (h.owns_iff c (.importer id)).trans (or_iff_left (by simp [inertClient?]))

theorem mem_exporters_iff (h : x.Registered) (c : ClientId) (id : ExporterId) :
    id ∈ (x.ownership.holdings c).exporters.keys ↔ x.clientOf? (.exporter id) = some c := by
  rw [← Table.contains_iff_mem_keys]
  exact (h.owns_iff c (.exporter id)).trans (or_iff_left (by simp [inertClient?]))

/-- The tracker has a client's importers in the order of the table. -/
theorem importers_keys (h : x.Registered) (c : ClientId) :
    (x.ownership.holdings c).importers.keys =
      (x.importers.filter (fun _ g => decide (g.client = c))).keys :=
  Table.keys_congr fun m => by rw [h.mem_importers_iff, Table.mem_keys_filter_iff, clientOf?]

/-- The tracker has a client's exporters in the order of the table. -/
theorem exporters_keys (h : x.Registered) (c : ClientId) :
    (x.ownership.holdings c).exporters.keys =
      (x.exporters.filter (fun _ g => decide (g.client = c))).keys :=
  Table.keys_congr fun q => by rw [h.mem_exporters_iff, Table.mem_keys_filter_iff, clientOf?]

/-- An import is a client's if its importer is. -/
theorem client_import_iff (h : x.Registered) {i : ImportId} {r : Import}
    (hi : x.imports.find? i = some r) (c : ClientId) :
    r.client = c ↔ x.clientOf? (.importer i.importer) = some c := by
  have hlive : x.clientOf? (.imported i) = some r.client := by simp [clientOf?, hi]
  rw [h.registry hlive rfl, Option.some.injEq]

/-- An export is a client's if its exporter is. -/
theorem client_export_iff (h : x.Registered) {e : ExportId} {s : Export}
    (he : x.exports.find? e = some s) (c : ClientId) :
    s.client = c ↔ x.clientOf? (.exporter e.exporter) = some c := by
  have hlive : x.clientOf? (.exported e) = some s.client := by simp [clientOf?, he]
  rw [h.registry hlive rfl, Option.some.injEq]

/-- The importers of a client, one after the other, have made all of its imports. -/
theorem flatMap_ownImports (h : x.Registered) (c : ClientId) :
    (x.ownership.holdings c).importers.keys.flatMap x.ownImports = x.importsHeld c := by
  refine Table.flatMap_groups (Table.keys_ascending _) x.imports ImportId.importer
    (fun a b hab => (ImportId.lt_iff a b).mpr (Or.inl hab)) _ fun p hp => ?_
  rw [decide_eq_true_eq, h.mem_importers_iff]
  exact h.client_import_iff ((x.imports.mem_toList_iff _ _).mp hp) c

/-- The exporters of a client, one after the other, have made all of its exports, whatever may
have happened to their importers. -/
theorem flatMap_ownExports (h : x.Registered) (c : ClientId) (y : Exchange)
    (hy : ∀ e s', y.exports.find? e = some s' →
      ∃ s, x.exports.find? e = some s ∧ s.client = s'.client) :
    (x.ownership.holdings c).exporters.keys.flatMap y.ownExports = y.exportsHeld c := by
  refine Table.flatMap_groups (Table.keys_ascending _) y.exports ExportId.exporter
    (fun a b hab => (ExportId.lt_iff a b).mpr (Or.inl hab)) _ fun p hp => ?_
  obtain ⟨s, hs, hclient⟩ := hy p.1 p.2 ((y.exports.mem_toList_iff _ _).mp hp)
  rw [decide_eq_true_eq, h.mem_exporters_iff, ← hclient]
  exact h.client_export_iff hs c

theorem importerObjects_client (h : x.Registered) {c : ClientId} {o : ClientId × ObjectId}
    (ho : o ∈ (x.ownership.holdings c).importers.keys.flatMap x.importerObjects) : o.1 = c := by
  obtain ⟨id, hid, ho⟩ := List.mem_flatMap.mp ho
  rcases List.mem_append.mp ho with ho | ho
  · obtain ⟨p, hp, rfl⟩ := List.mem_map.mp ho
    have hheld : p ∈ x.importsHeld c := by
      rw [← h.flatMap_ownImports]
      exact List.mem_flatMap.mpr ⟨id, hid, hp⟩
    exact ((mem_importsHeld_iff c p).mp hheld).2
  · have hlive := (h.mem_importers_iff c id).mp hid
    obtain ⟨g, hg, rfl⟩ := Option.map_eq_some_iff.mp (Option.mem_toList.mp ho)
    simpa [clientOf?, hg] using hlive

theorem exporterObjects_client (h : x.Registered) {c : ClientId} {y : Exchange}
    (hx : y.exporters = x.exporters) (hy : ∀ e s', y.exports.find? e = some s' →
      ∃ s, x.exports.find? e = some s ∧ s.client = s'.client) {o : ClientId × ObjectId}
    (ho : o ∈ (x.ownership.holdings c).exporters.keys.flatMap y.exporterObjects) : o.1 = c := by
  obtain ⟨id, hid, ho⟩ := List.mem_flatMap.mp ho
  rcases List.mem_append.mp ho with ho | ho
  · obtain ⟨p, hp, rfl⟩ := List.mem_map.mp ho
    have hheld : p ∈ y.exportsHeld c := by
      rw [← h.flatMap_ownExports c y hy]
      exact List.mem_flatMap.mpr ⟨id, hid, hp⟩
    exact ((mem_exportsHeld_iff c p).mp hheld).2
  · have hlive := (h.mem_exporters_iff c id).mp hid
    rw [hx] at ho
    obtain ⟨g, hg, rfl⟩ := Option.map_eq_some_iff.mp (Option.mem_toList.mp ho)
    simpa [clientOf?, hg] using hlive

theorem importer_live (h : x.Registered) {c : ClientId} {m : ImporterId}
    (hm : m ∈ (x.ownership.holdings c).importers.keys) : (x.importers.find? m).isSome := by
  obtain ⟨g, hg, -⟩ := Option.map_eq_some_iff.mp ((h.mem_importers_iff c m).mp hm)
  exact Option.isSome_of_eq_some hg

theorem exporter_live (h : x.Registered) {c : ClientId} {q : ExporterId}
    (hq : q ∈ (x.ownership.holdings c).exporters.keys) : (x.exporters.find? q).isSome := by
  obtain ⟨g, hg, -⟩ := Option.map_eq_some_iff.mp ((h.mem_exporters_iff c q).mp hq)
  exact Option.isSome_of_eq_some hg

/-- The importers that the tracker does not have for a client are those of the others. -/
theorem importers_others (h : x.Registered) (c : ClientId) :
    x.importers.filter (fun m _ => decide (m ∉ (x.ownership.holdings c).importers.keys)) =
      x.importers.filter (fun _ g => decide (g.client ≠ c)) :=
  Table.filter_congr fun m g hg => by simp [h.mem_importers_iff, clientOf?, hg]

theorem exporters_others (h : x.Registered) (c : ClientId) :
    x.exporters.filter (fun q _ => decide (q ∉ (x.ownership.holdings c).exporters.keys)) =
      x.exporters.filter (fun _ g => decide (g.client ≠ c)) :=
  Table.filter_congr fun q g hg => by simp [h.mem_exporters_iff, clientOf?, hg]

end Registered

/-! ### Importers first, exporters then -/

/-- The exchange when the importers of a client are gone and nothing is on record for it. -/
def withoutImporters (x : Exchange) (c : ClientId) : Exchange :=
  { x.withoutImports c with
    importers := x.importers.filter (fun _ g => decide (g.client ≠ c))
    ownership := (x.ownership.release c).2 }

theorem Coherent.withoutImporters (h : x.Coherent) (c : ClientId) :
    (x.withoutImporters c).Coherent :=
  ⟨(h.withoutImports c).links, (h.withoutImports c).watched⟩

/-- The importers of a client take no export along. -/
theorem export_of_withoutImporters (c : ClientId) (e : ExportId) (s' : Export)
    (he : (x.withoutImporters c).exports.find? e = some s') :
    ∃ s, x.exports.find? e = some s ∧ s.client = s'.client := by
  obtain ⟨s, hs, rfl⟩ := Option.map_eq_some_iff.mp
    ((Coherent.find?_exports_dropImports _ e).symm.trans he)
  exact ⟨s, hs, rfl⟩

theorem find?_release (w : Ownership) (c : ClientId) : (w.release c).2.clients.find? c = none :=
  Table.find?_erase_self _ _

theorem retireImporters_released (h : x.Coherent) (hr : x.Registered) (c : ClientId) :
    (x.ownership.holdings c).importers.keys.foldl (retireImporter · · .nothing)
      { x with ownership := (x.ownership.release c).2 } = x.withoutImporters c := by
  have habsent := find?_release x.ownership c
  rw [withoutImporters]
  generalize (x.ownership.release c).2 = w at habsent ⊢
  have hreleased : { x with ownership := w : Exchange }.Coherent := ⟨h.links, h.watched⟩
  have hheld : (x.ownership.holdings c).importers.keys.flatMap
      { x with ownership := w : Exchange }.ownImports = x.importsHeld c := hr.flatMap_ownImports c
  have huntrack : w.untrackAll ((x.ownership.holdings c).importers.keys.flatMap
      { x with ownership := w : Exchange }.importerObjects) = w :=
    Ownership.untrackAll_of_absent habsent fun o ho => hr.importerObjects_client ho
  rw [foldl_retireImporter_eq hreleased (Table.keys_nodup _) fun m hm => hr.importer_live hm]
  simp only [hheld, hr.importers_others, huntrack]
  rfl

theorem retireExporters_released (h : x.Coherent) (hr : x.Registered) (c : ClientId) :
    (x.ownership.holdings c).exporters.keys.foldl (retireExporter · · .nothing)
      (x.withoutImporters c) =
        { (x.withoutImporters c).dropExports ((x.withoutImporters c).exportsHeld c) with
          exporters := x.exporters.filter (fun _ g => decide (g.client ≠ c)) } := by
  have hexport := export_of_withoutImporters (x := x) c
  have hexporters : (x.withoutImporters c).exporters = x.exporters := rfl
  have habsent : (x.withoutImporters c).ownership.clients.find? c = none := find?_release _ c
  have hcoherent := h.withoutImporters c
  generalize x.withoutImporters c = z at *
  have huntrack : z.ownership.untrackAll ((x.ownership.holdings c).exporters.keys.flatMap
      z.exporterObjects) = z.ownership :=
    Ownership.untrackAll_of_absent habsent fun o ho =>
      hr.exporterObjects_client hexporters hexport ho
  rw [foldl_retireExporter_eq hcoherent (Table.keys_nodup _) fun q hq =>
    hexporters ▸ hr.exporter_live hq]
  simp only [hr.flatMap_ownExports c z hexport, hexporters, hr.exporters_others, huntrack]
  rfl

theorem clientGone_eq (h : x.Coherent) (hr : x.Registered) (c : ClientId) :
    x.clientGone c = x.withoutClient c := by
  have hfold : (x.ownership.holdings c).registries.foldl (retireRegistry · .nothing)
      { x with ownership := (x.ownership.release c).2 } =
        { (x.withoutImporters c).dropExports ((x.withoutImporters c).exportsHeld c) with
          exporters := x.exporters.filter (fun _ g => decide (g.client ≠ c)) } := by
    rw [Holdings.registries, List.foldl_append, List.foldl_map, List.foldl_map]
    simp only [retireRegistry]
    rw [retireImporters_released h hr, retireExporters_released h hr]
  simp only [clientGone]
  rw [show (x.ownership.release c).1 = (x.ownership.holdings c).registries from rfl, hfold]
  rfl

end Exchange

end SurfaceExchange
