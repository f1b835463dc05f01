import SurfaceExchange.Proofs.Sound

/-!
# Objects that become inert or go

One lemma for each way in which objects leave a sound exchange: the exchange
is sound without them. What is left of a registry's objects is settled before
the registry itself goes.
-/

namespace SurfaceExchange

/-- What an export loses when imports go. -/
def Export.withoutImporters (s : Export) (is : List ImportId) : Export :=
  { s with importers := s.importers.filter (fun i => decide (i ∉ is)) }

/-- The owner of what is left when the things of one owner are taken out. -/
theorem map_filter_owner {α : Type} (owner : α → ClientId) (c d : ClientId) (a : Option α) :
    (a.filter (fun a => decide (owner a ≠ c))).map owner = some d ↔
      a.map owner = some d ∧ d ≠ c := by
  cases a with
  | none => simp
  | some a =>
    by_cases hc : owner a = c
    · simp only [Option.filter_some, hc, ne_eq, not_true_eq_false, decide_false]
      constructor
      · intro h
        cases h
      · rintro ⟨h, hn⟩
        rw [Option.map_some, Option.some.injEq, hc] at h
        exact absurd h.symm hn
    · simp only [Option.filter_some, ne_eq, hc, not_false_eq_true, decide_true, if_true]
      refine ⟨fun h => ⟨h, fun hd => hc ?_⟩, And.left⟩
      rw [Option.map_some, Option.some.injEq, hd] at h
      exact h

namespace Exchange

variable {x : Exchange}

namespace Sound

/-- Exports that go leave their identifiers, or nothing. -/
theorem dropExports (h : x.Sound) {ps : List (ExportId × Export)}
    (hps : ∀ p ∈ ps, x.exports.find? p.1 = some p.2) (hn : (ps.map Prod.fst).Nodup)
    (left : Remnant) : ((x.dropExports ps).leaveExports ps left).Sound := by
  have hcoherent := h.coherent.dropExports hps
  have hlive : ∀ {c o}, (c, o) ∈ exportObjects ps → x.clientOf? o = some c := by
    intro c o ho
    obtain ⟨p, hp, heq⟩ := List.mem_map.mp ho
    cases heq
    simp [clientOf?, hps p hp]
  have hregistry : ∀ {c o q}, ObjectId.registry? o = some q → (c, q) ∉ exportObjects ps := by
    intro c o q hq
    cases o <;> cases hq <;> simp [exportObjects]
  cases left with
  | nothing =>
    rw [leaveExports_nothing]
    refine ⟨⟨hcoherent.links, hcoherent.watched⟩, ?_⟩
    refine h.registered.forgetAll hlive hregistry (fun c o => ?_) (fun o => ?_) rfl rfl
    · rw [← clientOf?_dropExports hps]
      cases o <;> exact Iff.rfl
    · cases o <;> rfl
  | inert =>
    rw [leaveExports_inert]
    refine ⟨⟨hcoherent.links, hcoherent.watched⟩, ?_⟩
    refine h.registered.keepAll hlive hregistry (fun c o => ?_) (fun c o => ?_) rfl rfl
    · rw [← clientOf?_dropExports hps]
      cases o <;> exact Iff.rfl
    · cases o with
      | exported e =>
        have hfree : ∀ p ∈ ps, x.inertExports.find? p.1 = none := fun p hp =>
          h.registered.apart (hlive (List.mem_map_of_mem hp))
        refine (find?_fileAll_client Export.client hn hfree e c).trans (or_congr_right ?_)
        simp [exportObjects, and_comm]
      | _ => simp [inertClient?, exportObjects, Exchange.dropExports, sever]

/-- Imports that go leave their identifiers, or nothing. -/
theorem dropImports (h : x.Sound) {ps : List (ImportId × Import)}
    (hps : ∀ p ∈ ps, x.imports.find? p.1 = some p.2) (hn : (ps.map Prod.fst).Nodup)
    (left : Remnant) : ((x.dropImports ps).leaveImports ps left).Sound := by
  have hcoherent := h.coherent.dropImports hps
  have hlive : ∀ {c o}, (c, o) ∈ importObjects ps → x.clientOf? o = some c := by
    intro c o ho
    obtain ⟨p, hp, heq⟩ := List.mem_map.mp ho
    cases heq
    simp [clientOf?, hps p hp]
  have hregistry : ∀ {c o q}, ObjectId.registry? o = some q → (c, q) ∉ importObjects ps := by
    intro c o q hq
    cases o <;> cases hq <;> simp [importObjects]
  cases left with
  | nothing =>
    rw [leaveImports_nothing]
    refine ⟨⟨hcoherent.links, hcoherent.watched⟩, ?_⟩
    refine h.registered.forgetAll hlive hregistry (fun c o => ?_) (fun o => ?_) rfl rfl
    · rw [← clientOf?_dropImports hps]
      cases o <;> exact Iff.rfl
    · cases o <;> rfl
  | inert =>
    rw [leaveImports_inert]
    refine ⟨⟨hcoherent.links, hcoherent.watched⟩, ?_⟩
    refine h.registered.keepAll hlive hregistry (fun c o => ?_) (fun c o => ?_) rfl rfl
    · rw [← clientOf?_dropImports hps]
      cases o <;> exact Iff.rfl
    · cases o with
      | imported i =>
        have hfree : ∀ p ∈ ps, x.inertImports.find? p.1 = none := fun p hp =>
          h.registered.apart (hlive (List.mem_map_of_mem hp))
        refine (find?_fileAll_client Import.client hn hfree i c).trans (or_congr_right ?_)
        simp [importObjects, and_comm]
      | _ => simp [inertClient?, importObjects, Exchange.dropImports, shed]

theorem retireExport (h : x.Sound) (e : ExportId) (left : Remnant) :
    (x.retireExport e left).Sound := by
  cases he : x.exports.find? e with
  | none => rwa [Exchange.retireExport, he]
  | some s =>
    rw [retireExport_eq h.coherent he]
    exact h.dropExports (by simpa using he) (by simp) left

theorem retireImport (h : x.Sound) (i : ImportId) (left : Remnant) :
    (x.retireImport i left).Sound := by
  cases hi : x.imports.find? i with
  | none => rwa [Exchange.retireImport, hi]
  | some r =>
    rw [retireImport_eq h.coherent hi]
    exact h.dropImports (by simpa using hi) (by simp) left

theorem retireExporter (h : x.Sound) (p : ExporterId) (left : Remnant) :
    (x.retireExporter p left).Sound := by
  cases hg : x.exporters.find? p with
  | none => rwa [Exchange.retireExporter, hg]
  | some g =>
    obtain ⟨z, hz⟩ : ∃ z, (x.dropExports (x.ownExports p)).leaveExports (x.ownExports p) left = z :=
      ⟨_, rfl⟩
    have hsound : z.Sound :=
      hz ▸ h.dropExports (ownExports_live p) (Table.keys_nodup _) left
    obtain ⟨I, w, hleft⟩ :=
      leaveExports_eq (x := x.dropExports (x.ownExports p)) (x.ownExports p) left
    have hzX : z.exporters = x.exporters := by rw [← hz, hleft]; rfl
    have hzexports : z.exports = (x.dropExports (x.ownExports p)).exports := by rw [← hz, hleft]
    have hlive : z.clientOf? (.exporter p) = some g.client := by
      simp only [clientOf?, hzX, hg, Option.map_some]
    rw [retireExporter_eq h.coherent hg, hz]
    refine ⟨⟨hsound.coherent.links, hsound.coherent.watched⟩, ?_⟩
    refine hsound.registered.forgetOne (hsound.registered.owns_of_live hlive) (fun {o} ho => ?_)
      (fun o => ?_) (fun o => ?_) rfl rfl
    · cases o <;> cases ho
      simp only [clientOf?, hzexports, Coherent.find?_exports_dropOwn]
      rfl
    · cases o with
      | exporter id =>
        simp only [clientOf?, untrack, hzX, Table.find?_erase, ObjectId.exporter.injEq]
        split <;> rfl
      | _ => rfl
    · cases o with
      | exporter id => simp [inertClient?]
      | _ => rfl

theorem retireImporter (h : x.Sound) (m : ImporterId) (left : Remnant) :
    (x.retireImporter m left).Sound := by
  cases hg : x.importers.find? m with
  | none => rwa [Exchange.retireImporter, hg]
  | some g =>
    obtain ⟨z, hz⟩ : ∃ z, (x.dropImports (x.ownImports m)).leaveImports (x.ownImports m) left = z :=
      ⟨_, rfl⟩
    have hsound : z.Sound :=
      hz ▸ h.dropImports (ownImports_live m) (Table.keys_nodup _) left
    obtain ⟨I, w, hleft⟩ :=
      leaveImports_eq (x := x.dropImports (x.ownImports m)) (x.ownImports m) left
    have hzX : z.importers = x.importers := by rw [← hz, hleft]; rfl
    have hzimports : z.imports = (x.dropImports (x.ownImports m)).imports := by rw [← hz, hleft]
    have hlive : z.clientOf? (.importer m) = some g.client := by
      simp only [clientOf?, hzX, hg, Option.map_some]
    rw [retireImporter_eq h.coherent hg, hz]
    refine ⟨⟨hsound.coherent.links, hsound.coherent.watched⟩, ?_⟩
    refine hsound.registered.forgetOne (hsound.registered.owns_of_live hlive) (fun {o} ho => ?_)
      (fun o => ?_) (fun o => ?_) rfl rfl
    · cases o <;> cases ho
      simp only [clientOf?, hzimports, Coherent.find?_imports_dropOwn]
      rfl
    · cases o with
      | importer id =>
        simp only [clientOf?, untrack, hzX, Table.find?_erase, ObjectId.importer.injEq]
        split <;> rfl
      | _ => rfl
    · cases o with
      | importer id => simp [inertClient?]
      | _ => rfl

/-- A client gives the identifier of an inert export up. -/
theorem releaseExport (h : x.Sound) {e : ExportId} {c : ClientId}
    (hc : x.inertExports.find? e = some c) :
    ({ x with inertExports := x.inertExports.erase e }.untrack c (.exported e)).Sound := by
  have howned := h.registered.owns_of_inert (o := .exported e) hc
  have hdead := h.registered.dead_of_inert (o := .exported e) hc
  refine ⟨⟨h.coherent.links, h.coherent.watched⟩, h.registered.forgetOne howned (fun {o} ho => ?_)
    (fun o => ?_) (fun o => ?_) rfl rfl⟩
  · cases o <;> cases ho
  · split
    · next heq =>
      rw [heq]
      exact hdead
    · cases o <;> rfl
  · cases o with
    | exported id =>
      simp only [inertClient?, untrack, Table.find?_erase, ObjectId.exported.injEq]
    | _ => rfl

/-- A client gives the identifier of an inert import up. -/
theorem releaseImport (h : x.Sound) {i : ImportId} {c : ClientId}
    (hc : x.inertImports.find? i = some c) :
    ({ x with inertImports := x.inertImports.erase i }.untrack c (.imported i)).Sound := by
  have howned := h.registered.owns_of_inert (o := .imported i) hc
  have hdead := h.registered.dead_of_inert (o := .imported i) hc
  refine ⟨⟨h.coherent.links, h.coherent.watched⟩, h.registered.forgetOne howned (fun {o} ho => ?_)
    (fun o => ?_) (fun o => ?_) rfl rfl⟩
  · cases o <;> cases ho
  · split
    · next heq =>
      rw [heq]
      exact hdead
    · cases o <;> rfl
  · cases o with
    | imported id =>
      simp only [inertClient?, untrack, Table.find?_erase, ObjectId.imported.injEq]
    | _ => rfl

end Sound

/-! ## A client that is gone -/

theorem find?_imports_withoutImports (c : ClientId) (i : ImportId) :
    (x.withoutImports c).imports.find? i =
      (x.imports.find? i).filter (fun r => decide (r.client ≠ c)) := by
  rw [withoutImports, Coherent.find?_imports_dropImports]
  cases hi : x.imports.find? i with
  | none => simp
  | some r =>
    have hiff : i ∈ (x.importsHeld c).map Prod.fst ↔ r.client = c := by
      rw [List.mem_map]
      constructor
      · rintro ⟨p, hp, rfl⟩
        obtain ⟨hf, hc⟩ := (mem_importsHeld_iff c p).mp hp
        rw [hi] at hf
        cases hf
        exact hc
      · exact fun hc => ⟨(i, r), (mem_importsHeld_iff c _).mpr ⟨hi, hc⟩, rfl⟩
    by_cases hc : r.client = c <;> simp [hiff, hc, Option.filter_some]

theorem find?_exports_withoutImports (c : ClientId) (e : ExportId) :
    (x.withoutImports c).exports.find? e =
      (x.exports.find? e).map (Export.withoutImporters · ((x.importsHeld c).map Prod.fst)) :=
  Coherent.find?_exports_dropImports _ e

theorem find?_exports_withoutClient (c : ClientId) (e : ExportId) :
    (x.withoutClient c).exports.find? e =
      ((x.exports.find? e).filter (fun s => decide (s.client ≠ c))).map
        (Export.withoutImporters · ((x.importsHeld c).map Prod.fst)) := by
  have hfind := Coherent.find?_exports_dropExports (x := x.withoutImports c)
    ((x.withoutImports c).exportsHeld c) e
  refine hfind.trans ?_
  rw [find?_exports_withoutImports]
  cases he : x.exports.find? e with
  | none => simp
  | some s =>
    have hfound : (x.withoutImports c).exports.find? e =
        some (Export.withoutImporters s ((x.importsHeld c).map Prod.fst)) := by
      rw [find?_exports_withoutImports, he]
      rfl
    have hiff : e ∈ ((x.withoutImports c).exportsHeld c).map Prod.fst ↔ s.client = c := by
      rw [List.mem_map]
      constructor
      · rintro ⟨p, hp, rfl⟩
        obtain ⟨hf, hc⟩ := (mem_exportsHeld_iff c p).mp hp
        rw [hfound] at hf
        rw [← hc, ← Option.some.inj hf]
        rfl
      · exact fun hc => ⟨(e, _), (mem_exportsHeld_iff c _).mpr ⟨hfound, hc⟩, rfl⟩
    by_cases hc : s.client = c <;> simp [hiff, hc, Option.filter_some]

/-- The client that exports what an import is resolved to. -/
def exportingClient? (x : Exchange) (r : Import) : Option ClientId :=
  (r.source.bind x.exports.find?).map Export.client

theorem find?_imports_withoutClient (h : x.Coherent) (c : ClientId) (i : ImportId) :
    (x.withoutClient c).imports.find? i =
      ((x.imports.find? i).filter (fun r => decide (r.client ≠ c))).map
        (fun r => if x.exportingClient? r = some c then r.orphan else r) := by
  have hfind := Coherent.find?_imports_dropExports (x := x.withoutImports c)
    ((x.withoutImports c).exportsHeld c) i
  refine hfind.trans ?_
  rw [← find?_imports_withoutImports]
  cases hi : (x.withoutImports c).imports.find? i with
  | none => rfl
  | some r =>
    have hiff : i ∈ importersOf ((x.withoutImports c).exportsHeld c) ↔
        x.exportingClient? r = some c := by
      rw [(h.withoutImports c).mem_importersOf_iff (exportsHeld_live c) hi, exportingClient?,
        Option.map_eq_some_iff]
      constructor
      · rintro ⟨e, he, hs⟩
        obtain ⟨p, hp, rfl⟩ := List.mem_map.mp he
        obtain ⟨hf, hc⟩ := (mem_exportsHeld_iff c p).mp hp
        rw [find?_exports_withoutImports] at hf
        obtain ⟨s, hs', heq⟩ := Option.map_eq_some_iff.mp hf
        exact ⟨s, by rw [hs, Option.bind_some, hs'], by rw [← hc, ← heq]; rfl⟩
      · rintro ⟨s, hs, hc⟩
        obtain ⟨e, hs, he⟩ := Option.bind_eq_some_iff.mp hs
        have hf := (find?_exports_withoutImports (x := x) c e).trans (congrArg _ he)
        exact ⟨e, List.mem_map.mpr ⟨(e, _), (mem_exportsHeld_iff c _).mpr ⟨hf, hc⟩, rfl⟩, hs⟩
    simp only [Option.map_some, hiff]

/-- A client that is gone takes its own live objects with it. -/
theorem clientOf?_withoutClient (h : x.Coherent) (c d : ClientId) (o : ObjectId) :
    (x.withoutClient c).clientOf? o = some d ↔ x.clientOf? o = some d ∧ d ≠ c := by
  cases o with
  | exporter id =>
    simp only [clientOf?, withoutClient, Table.find?_filter]
    exact map_filter_owner Registry.client c d _
  | importer id =>
    simp only [clientOf?, withoutClient, Table.find?_filter]
    exact map_filter_owner Registry.client c d _
  | exported id =>
    simp only [clientOf?, find?_exports_withoutClient, Option.map_map]
    exact map_filter_owner Export.client c d _
  | imported id =>
    have hclient : (Import.client ∘ fun r =>
        if x.exportingClient? r = some c then r.orphan else r) = Import.client := by
      funext r
      simp only [Function.comp_apply]
      split <;> rfl
    simp only [clientOf?, find?_imports_withoutClient h, Option.map_map, hclient]
    exact map_filter_owner Import.client c d _

/-- A client that is gone takes its own inert objects with it. -/
theorem inertClient?_withoutClient (c d : ClientId) (o : ObjectId) :
    (x.withoutClient c).inertClient? o = some d ↔ x.inertClient? o = some d ∧ d ≠ c := by
  have howner := map_filter_owner (fun owner : ClientId => owner) c d
  simp only [Option.map_id_fun'] at howner
  cases o with
  | exported id =>
    simp only [inertClient?, withoutClient, Table.find?_filter]
    exact howner _
  | imported id =>
    simp only [inertClient?, withoutClient, Table.find?_filter]
    exact howner _
  | _ => simp [inertClient?]

theorem owns_withoutClient (c d : ClientId) (o : ObjectId) :
    (x.withoutClient c).ownership.owns d o = true ↔ x.ownership.owns d o = true ∧ d ≠ c := by
  have hw : (x.withoutClient c).ownership = (x.ownership.release c).2 := rfl
  rw [hw, Ownership.owns_release, Bool.and_eq_true, decide_eq_true_eq]
  exact And.comm

namespace Sound

theorem withoutClient (h : x.Sound) (c : ClientId) : (x.withoutClient c).Sound where
  coherent := by
    have hleft := (h.coherent.withoutImports c).dropExports (exportsHeld_live c)
    exact ⟨hleft.links, hleft.watched⟩
  registered := h.registered.forget (fun d _ => d = c) (clientOf?_withoutClient h.coherent c)
    (inertClient?_withoutClient c) (owns_withoutClient c) (fun _ _ hg => hg) rfl

theorem clientGone (h : x.Sound) (c : ClientId) : (x.clientGone c).Sound := by
  rw [clientGone_eq h.coherent h.registered]
  exact h.withoutClient c

end Sound

end Exchange

end SurfaceExchange
