import SurfaceExchange.Proofs.Disappearance

/-!
# Exchanges that differ in what is left behind

Two exchanges are `Alike` if they differ in inert identifiers and the tracker
only. Retiring objects is blind to both, so alike exchanges stay alike however
much is left of what they retire. Retiring a registry is then the same as
retiring what was made through it, one by one, and the registry at the end
(`alike_destroyContents`), and a client that is gone is its registries retired
(`alike_clientGone`).
-/

namespace SurfaceExchange

namespace RegistryId

/-- The registry as an object. -/
def object : RegistryId → ObjectId
  | .importer id => .importer id
  | .exporter id => .exporter id

end RegistryId

namespace Exchange

variable {x y z : Exchange}

/-- The two differ in inert identifiers and the tracker only. -/
def Alike (x y : Exchange) : Prop :=
  ∃ I J w, y = { x with inertExports := I, inertImports := J, ownership := w }

namespace Alike

theorem refl (x : Exchange) : Alike x x := ⟨_, _, _, rfl⟩

theorem symm (h : Alike x y) : Alike y x := by
  obtain ⟨I, J, w, rfl⟩ := h
  exact ⟨_, _, _, rfl⟩

theorem trans (h : Alike x y) (h' : Alike y z) : Alike x z := by
  obtain ⟨I, J, w, rfl⟩ := h
  obtain ⟨I', J', w', rfl⟩ := h'
  exact ⟨_, _, _, rfl⟩

theorem coherent (h : Alike x y) (hx : x.Coherent) : y.Coherent := by
  obtain ⟨I, J, w, rfl⟩ := h
  exact ⟨hx.links, hx.watched⟩

theorem dropExports (h : Alike x y) (ps : List (ExportId × Export)) :
    Alike (x.dropExports ps) (y.dropExports ps) := by
  obtain ⟨I, J, w, rfl⟩ := h
  exact ⟨I, J, w, rfl⟩

theorem dropImports (h : Alike x y) (ps : List (ImportId × Import)) :
    Alike (x.dropImports ps) (y.dropImports ps) := by
  obtain ⟨I, J, w, rfl⟩ := h
  exact ⟨I, J, w, rfl⟩

end Alike

theorem alike_leaveExports (ps : List (ExportId × Export)) (left : Remnant) :
    Alike x (x.leaveExports ps left) := by
  obtain ⟨I, w, heq⟩ := leaveExports_eq (x := x) ps left
  exact ⟨_, _, _, heq⟩

theorem alike_leaveImports (ps : List (ImportId × Import)) (left : Remnant) :
    Alike x (x.leaveImports ps left) := by
  obtain ⟨I, w, heq⟩ := leaveImports_eq (x := x) ps left
  exact ⟨_, _, _, heq⟩

/-! ## Registries -/

/-- The exchange without a registry and all that was made through it, whatever is left of it. -/
def withoutRegistry (x : Exchange) : RegistryId → Exchange
  | .importer id => { x.dropImports (x.ownImports id) with importers := x.importers.erase id }
  | .exporter id => { x.dropExports (x.ownExports id) with exporters := x.exporters.erase id }

theorem Alike.withoutRegistry (h : Alike x y) (r : RegistryId) :
    Alike (x.withoutRegistry r) (y.withoutRegistry r) := by
  obtain ⟨I, J, w, rfl⟩ := h
  cases r <;> exact ⟨I, J, w, rfl⟩

theorem alike_retireRegistry (h : x.Coherent) {r : RegistryId} {c : ClientId}
    (hr : x.clientOf? r.object = some c) (left : Remnant) :
    Alike (x.withoutRegistry r) (x.retireRegistry left r) := by
  cases r with
  | importer id =>
    obtain ⟨g, hg, -⟩ := Option.map_eq_some_iff.mp hr
    obtain ⟨I, w, heq⟩ :=
      leaveImports_eq (x := x.dropImports (x.ownImports id)) (x.ownImports id) left
    rw [retireRegistry, retireImporter_eq h hg, heq]
    exact ⟨_, _, _, rfl⟩
  | exporter id =>
    obtain ⟨g, hg, -⟩ := Option.map_eq_some_iff.mp hr
    obtain ⟨I, w, heq⟩ :=
      leaveExports_eq (x := x.dropExports (x.ownExports id)) (x.ownExports id) left
    rw [retireRegistry, retireExporter_eq h hg, heq]
    exact ⟨_, _, _, rfl⟩

/-- A registry that is not there is not retired. -/
theorem retireRegistry_of_absent {r : RegistryId} (hr : x.clientOf? r.object = none)
    (left : Remnant) : x.retireRegistry left r = x := by
  cases r with
  | importer id =>
    have hg : x.importers.find? id = none := Option.map_eq_none_iff.mp hr
    simp only [retireRegistry, retireImporter, hg]
  | exporter id =>
    have hg : x.exporters.find? id = none := Option.map_eq_none_iff.mp hr
    simp only [retireRegistry, retireExporter, hg]

/-- Alike exchanges have the same live objects. -/
theorem Alike.clientOf?_eq (h : Alike x y) (o : ObjectId) : y.clientOf? o = x.clientOf? o := by
  obtain ⟨I, J, w, rfl⟩ := h
  cases o <;> rfl

theorem Alike.retireRegistry (h : Alike x y) (hx : x.Coherent) (r : RegistryId)
    (left left' : Remnant) : Alike (x.retireRegistry left r) (y.retireRegistry left' r) := by
  cases hr : x.clientOf? r.object with
  | none =>
    rw [retireRegistry_of_absent hr, retireRegistry_of_absent ((h.clientOf?_eq _).trans hr)]
    exact h
  | some c =>
    have hretired := alike_retireRegistry (h.coherent hx) ((h.clientOf?_eq _).trans hr) left'
    exact ((alike_retireRegistry hx hr left).symm.trans (h.withoutRegistry r)).trans hretired

theorem Coherent.withoutRegistry (h : x.Coherent) (r : RegistryId) :
    (x.withoutRegistry r).Coherent := by
  cases r with
  | importer id =>
    have hleft := h.dropImports (ownImports_live id)
    exact ⟨hleft.links, hleft.watched⟩
  | exporter id =>
    have hleft := h.dropExports (ownExports_live id)
    exact ⟨hleft.links, hleft.watched⟩

theorem Coherent.retireRegistry (h : x.Coherent) (r : RegistryId) (left : Remnant) :
    (x.retireRegistry left r).Coherent := by
  cases hr : x.clientOf? r.object with
  | none =>
    rw [retireRegistry_of_absent hr]
    exact h
  | some c => exact (alike_retireRegistry h hr left).coherent (h.withoutRegistry r)

theorem Alike.foldl_retireRegistry (h : Alike x y) (hx : x.Coherent) (rs : List RegistryId)
    (left left' : Remnant) :
    Alike (rs.foldl (Exchange.retireRegistry · left) x)
      (rs.foldl (Exchange.retireRegistry · left') y) := by
  induction rs generalizing x y with
  | nil => exact h
  | cons r rs ih => exact ih (h.retireRegistry hx r left left') (hx.retireRegistry r left)

/-- A client that is gone is its registries retired, one after the other. -/
theorem alike_clientGone (h : x.Coherent) (c : ClientId) :
    Alike ((x.ownership.holdings c).registries.foldl (retireRegistry · .nothing) x)
      (x.clientGone c) := by
  have hreleased : Alike x { x with ownership := (x.ownership.release c).2 } := ⟨_, _, _, rfl⟩
  exact (hreleased.foldl_retireRegistry h _ .nothing .nothing).trans ⟨_, _, _, rfl⟩

/-! ## Objects destroyed one by one -/

/-- The exchange after an object is destroyed. -/
def destroyed (x : Exchange) : ObjectId → Exchange
  | .exporter id => (x.destroyExporter id).2
  | .exported id => (x.destroyExport id).2
  | .importer id => (x.destroyImporter id).2
  | .imported id => (x.destroyImport id).2

/-- A registry that is destroyed is retired. -/
theorem destroyed_object (r : RegistryId) :
    x.destroyed r.object = x.retireRegistry .inert r := by
  cases r with
  | importer id =>
    show (x.destroyImporter id).2 = x.retireRegistry .inert (.importer id)
    unfold destroyImporter
    split
    · rfl
    · next hmissing =>
      have habsent : x.clientOf? (RegistryId.importer id).object = none :=
        Option.map_eq_none_iff.mpr (by simpa [Table.contains] using hmissing)
      exact (retireRegistry_of_absent habsent .inert).symm
  | exporter id =>
    show (x.destroyExporter id).2 = x.retireRegistry .inert (.exporter id)
    unfold destroyExporter
    split
    · rfl
    · next hmissing =>
      have habsent : x.clientOf? (RegistryId.exporter id).object = none :=
        Option.map_eq_none_iff.mpr (by simpa [Table.contains] using hmissing)
      exact (retireRegistry_of_absent habsent .inert).symm

theorem alike_destroyImport (h : x.Coherent) {i : ImportId} {r : Import}
    (hi : x.imports.find? i = some r) :
    Alike (x.dropImports [(i, r)]) (x.destroyed (.imported i)) := by
  have hlive : x.imports.contains i = true := Option.isSome_of_eq_some hi
  have hretired : x.destroyed (.imported i) = x.retireImport i .nothing := by
    rw [destroyed, destroyImport, if_pos hlive]
  rw [hretired, retireImport_eq h hi]
  exact alike_leaveImports _ _

theorem alike_destroyExport (h : x.Coherent) {e : ExportId} {s : Export}
    (he : x.exports.find? e = some s) :
    Alike (x.dropExports [(e, s)]) (x.destroyed (.exported e)) := by
  have hlive : x.exports.contains e = true := Option.isSome_of_eq_some he
  have hretired : x.destroyed (.exported e) = x.retireExport e .nothing := by
    rw [destroyed, destroyExport, if_pos hlive]
  rw [hretired, retireExport_eq h he]
  exact alike_leaveExports _ _

/-- Imports destroyed one by one are gone as if all at once. -/
theorem alike_destroyImports (h : x.Coherent) {ps : List (ImportId × Import)}
    (hps : ∀ p ∈ ps, x.imports.find? p.1 = some p.2) (hn : (ps.map Prod.fst).Nodup) :
    Alike (x.dropImports ps)
      ((ps.map (fun p => ObjectId.imported p.1)).foldl destroyed x) := by
  induction ps generalizing x with
  | nil =>
    rw [dropImports_nil]
    exact .refl x
  | cons p ps ih =>
    obtain ⟨hp, hn⟩ := List.nodup_cons.mp hn
    have hfirst := alike_destroyImport h (hps p List.mem_cons_self)
    have hcoherent : (x.dropImports [p]).Coherent :=
      h.dropImports fun q hq => hps q (List.mem_singleton.mp hq ▸ List.mem_cons_self)
    have hlive : ∀ q ∈ ps, (x.destroyed (.imported p.1)).imports.find? q.1 = some q.2 := by
      intro q hq
      have hne : q.1 ∉ [p].map Prod.fst := fun hm =>
        hp (List.mem_singleton.mp hm ▸ List.mem_map_of_mem hq)
      obtain ⟨I, J, w, heq⟩ := hfirst
      rw [heq, Coherent.find?_imports_dropImports, if_neg hne]
      exact hps q (List.mem_cons_of_mem _ hq)
    rw [List.map_cons, List.foldl_cons, ← List.singleton_append, ← dropImports_append]
    exact (hfirst.dropImports ps).trans (ih (hfirst.coherent hcoherent) hlive hn)

/-- Exports destroyed one by one are gone as if all at once. -/
theorem alike_destroyExports (h : x.Coherent) {ps : List (ExportId × Export)}
    (hps : ∀ p ∈ ps, x.exports.find? p.1 = some p.2) (hn : (ps.map Prod.fst).Nodup) :
    Alike (x.dropExports ps)
      ((ps.map (fun p => ObjectId.exported p.1)).foldl destroyed x) := by
  induction ps generalizing x with
  | nil =>
    rw [dropExports_nil]
    exact .refl x
  | cons p ps ih =>
    obtain ⟨hp, hn⟩ := List.nodup_cons.mp hn
    have hfirst := alike_destroyExport h (hps p List.mem_cons_self)
    have hone : ∀ q ∈ [p], x.exports.find? q.1 = some q.2 := fun q hq =>
      hps q (List.mem_singleton.mp hq ▸ List.mem_cons_self)
    have hother : ∀ q ∈ ps, x.exports.find? q.1 = some q.2 ∧ q.1 ∉ [p].map Prod.fst := by
      intro q hq
      exact ⟨hps q (List.mem_cons_of_mem _ hq), fun hm =>
        hp (List.mem_singleton.mp hm ▸ List.mem_map_of_mem hq)⟩
    have hlive : ∀ q ∈ ps, (x.destroyed (.exported p.1)).exports.find? q.1 = some q.2 := by
      intro q hq
      obtain ⟨I, J, w, heq⟩ := hfirst
      rw [heq, Coherent.find?_exports_dropExports, if_neg (hother q hq).2]
      exact (hother q hq).1
    rw [List.map_cons, List.foldl_cons, ← List.singleton_append, ← dropExports_append h hone hother]
    exact (hfirst.dropExports ps).trans (ih (hfirst.coherent (h.dropExports hone)) hlive hn)

/-! ## A registry after what was made through it -/

/-- The live objects that were made through a registry, in order. -/
def contentsOf (x : Exchange) : RegistryId → List ObjectId
  | .importer id => (x.importsOf id).map .imported
  | .exporter id => (x.exportsOf id).map .exported

theorem contentsOf_importer (id : ImporterId) :
    x.contentsOf (.importer id) = (x.ownImports id).map (fun p => .imported p.1) := by
  have hkeys : x.importsOf id = (x.ownImports id).map Prod.fst :=
    (Table.keys_filter (fun i : ImportId => decide (i.importer = id)) x.imports).symm
  rw [contentsOf, hkeys, List.map_map]
  rfl

theorem contentsOf_exporter (id : ExporterId) :
    x.contentsOf (.exporter id) = (x.ownExports id).map (fun p => .exported p.1) := by
  have hkeys : x.exportsOf id = (x.ownExports id).map Prod.fst :=
    (Table.keys_filter (fun e : ExportId => decide (e.exporter = id)) x.exports).symm
  rw [contentsOf, hkeys, List.map_map]
  rfl

theorem Alike.contentsOf_eq (h : Alike x y) (r : RegistryId) : y.contentsOf r = x.contentsOf r := by
  obtain ⟨I, J, w, rfl⟩ := h
  cases r <;> rfl

/-- What goes with one registry is none of another's. -/
theorem contentsOf_withoutRegistry {r r' : RegistryId} (hne : r ≠ r') :
    (x.withoutRegistry r').contentsOf r = x.contentsOf r := by
  cases r with
  | importer id =>
    cases r' with
    | importer id' =>
      have hown := ownImports_dropImports (x := x) fun heq : id = id' => hne (congrArg _ heq)
      rw [contentsOf_importer, contentsOf_importer, ← hown]
      rfl
    | exporter id' =>
      simp [contentsOf, importsOf, withoutRegistry, dropExports, sever]
  | exporter id =>
    cases r' with
    | importer id' =>
      simp [contentsOf, exportsOf, withoutRegistry, dropImports, shed]
    | exporter id' =>
      have hown := ownExports_dropExports (x := x) fun heq : id = id' => hne (congrArg _ heq)
      rw [contentsOf_exporter, contentsOf_exporter, ← hown]
      rfl

theorem clientOf?_withoutRegistry {r r' : RegistryId} (hne : r ≠ r') :
    (x.withoutRegistry r').clientOf? r.object = x.clientOf? r.object := by
  cases r with
  | importer id =>
    cases r' with
    | importer id' =>
      have hfind := Table.find?_erase_of_ne (fun heq : id = id' => hne (congrArg _ heq)) x.importers
      exact congrArg (Option.map Registry.client) hfind
    | exporter id' => rfl
  | exporter id =>
    cases r' with
    | importer id' => rfl
    | exporter id' =>
      have hfind := Table.find?_erase_of_ne (fun heq : id = id' => hne (congrArg _ heq)) x.exporters
      exact congrArg (Option.map Registry.client) hfind

/-- Nothing is left to a registry whose contents are gone. -/
theorem withoutRegistry_dropImports (id : ImporterId) :
    (x.dropImports (x.ownImports id)).withoutRegistry (.importer id) =
      x.withoutRegistry (.importer id) := by
  have hnone : (x.dropImports (x.ownImports id)).ownImports id = [] := by
    rw [List.eq_nil_iff_forall_not_mem]
    intro p hp
    obtain ⟨hf, hid⟩ := (mem_ownImports_iff id p).mp hp
    rw [Coherent.find?_imports_dropOwn, if_pos hid] at hf
    cases hf
  rw [withoutRegistry, hnone, dropImports_nil]
  rfl

theorem withoutRegistry_dropExports (id : ExporterId) :
    (x.dropExports (x.ownExports id)).withoutRegistry (.exporter id) =
      x.withoutRegistry (.exporter id) := by
  have hnone : (x.dropExports (x.ownExports id)).ownExports id = [] := by
    rw [List.eq_nil_iff_forall_not_mem]
    intro p hp
    obtain ⟨hf, hid⟩ := (mem_ownExports_iff id p).mp hp
    rw [Coherent.find?_exports_dropOwn, if_pos hid] at hf
    cases hf
  rw [withoutRegistry, hnone, dropExports_nil]
  rfl

/-- Destroying what was made through a registry and then the registry is retiring it. -/
theorem alike_destroyContents (h : x.Coherent) {r : RegistryId} {c : ClientId}
    (hr : x.clientOf? r.object = some c) :
    Alike (x.withoutRegistry r) ((x.contentsOf r ++ [r.object]).foldl destroyed x) := by
  obtain ⟨w, hw, hcoherent, hlive, hrest⟩ : ∃ w, Alike w ((x.contentsOf r).foldl destroyed x) ∧
      w.Coherent ∧ w.clientOf? r.object = some c ∧ w.withoutRegistry r = x.withoutRegistry r := by
    cases r with
    | importer id =>
      rw [contentsOf_importer]
      exact ⟨_, alike_destroyImports h (ownImports_live id) (Table.keys_nodup _),
        h.dropImports (ownImports_live id), hr, withoutRegistry_dropImports id⟩
    | exporter id =>
      rw [contentsOf_exporter]
      exact ⟨_, alike_destroyExports h (ownExports_live id) (Table.keys_nodup _),
        h.dropExports (ownExports_live id), hr, withoutRegistry_dropExports id⟩
  rw [List.foldl_append, List.foldl_cons, List.foldl_nil, destroyed_object, ← hrest]
  exact (hw.withoutRegistry r).trans
    (alike_retireRegistry (hw.coherent hcoherent) ((hw.clientOf?_eq _).trans hlive) .inert)

/-- So it is for several registries, one after the other. -/
theorem Alike.foldl_destroyContents (h : Alike x y) (hx : x.Coherent) {rs : List RegistryId}
    (hn : rs.Nodup) (hlive : ∀ r ∈ rs, ∃ c, x.clientOf? r.object = some c) :
    Alike (rs.foldl (Exchange.retireRegistry · .nothing) x)
      ((rs.flatMap (fun r => x.contentsOf r ++ [r.object])).foldl destroyed y) := by
  induction rs generalizing x y with
  | nil => exact h
  | cons r rs ih =>
    obtain ⟨hr, hn⟩ := List.nodup_cons.mp hn
    obtain ⟨c, hc⟩ := hlive r List.mem_cons_self
    have hne : ∀ r' ∈ rs, r' ≠ r := fun r' hr' heq => hr (heq ▸ hr')
    have hretired := alike_retireRegistry hx hc .nothing
    have hfirst : Alike (x.retireRegistry .nothing r)
        ((x.contentsOf r ++ [r.object]).foldl destroyed y) := by
      have hblock := alike_destroyContents (h.coherent hx) ((h.clientOf?_eq _).trans hc)
      rw [h.contentsOf_eq] at hblock
      exact (hretired.symm.trans (h.withoutRegistry r)).trans hblock
    have hcontents : ∀ r' ∈ rs, x.contentsOf r' ++ [r'.object] =
        (x.retireRegistry .nothing r).contentsOf r' ++ [r'.object] := fun r' hr' => by
      rw [hretired.contentsOf_eq, contentsOf_withoutRegistry (hne r' hr')]
    have hlive' : ∀ r' ∈ rs, ∃ c, (x.retireRegistry .nothing r).clientOf? r'.object = some c :=
      fun r' hr' => by
        rw [hretired.clientOf?_eq, clientOf?_withoutRegistry (hne r' hr')]
        exact hlive r' (List.mem_cons_of_mem _ hr')
    rw [List.foldl_cons, List.flatMap_cons, List.foldl_append, List.flatMap_congr hcontents]
    exact ih hfirst (hx.retireRegistry r .nothing) hn hlive'

/-- Registries that are destroyed are retired, and what is left of their contents is inert. -/
theorem Alike.foldl_destroyObjects (h : Alike x y) (hx : x.Coherent) (rs : List RegistryId) :
    Alike (rs.foldl (Exchange.retireRegistry · .nothing) x)
      ((rs.map RegistryId.object).foldl destroyed y) := by
  have hsame : (fun (y : Exchange) (r : RegistryId) => y.destroyed r.object) =
      (Exchange.retireRegistry · .inert) := by
    funext y r
    exact destroyed_object r
  rw [List.foldl_map, hsame]
  exact h.foldl_retireRegistry hx rs .nothing .inert

end Exchange

end SurfaceExchange
