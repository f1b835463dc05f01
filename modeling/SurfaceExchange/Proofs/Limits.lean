import Mathlib.Algebra.Ring.Nat
import SurfaceExchange.Proofs.Belonging
import SurfaceExchange.Proofs.Lifetimes
import SurfaceExchange.Proofs.Mooring
import SurfaceExchange.Proofs.Refusals

/-!
# What a client may hold

A client's exports are held against a limit, live and inert ones together, and
so are its imports. The tracker counts them, and its number is what is live,
registry by registry, with what is inert (`counts_exports`, `counts_imports`).
No operation adds to a client's number but one that makes an object for that
client, and such a one is let through only below the limit
(`WithinLimits.perform`). So no run leads past a limit.
-/

namespace SurfaceExchange

namespace Table

variable {κ : Type} [KeyOrder κ] [DecidableEq κ] {s t : KeySet κ}

/-- A set whose members are on a list or in another set is no larger than both together. -/
theorem size_le_of_covered (extra : List κ)
    (h : ∀ k, s.contains k = true → k ∈ extra ∨ t.contains k = true) :
    s.size ≤ extra.length + t.size := by
  rw [size_eq_keys_length, size_eq_keys_length, ← List.length_append]
  refine s.keys_nodup.length_le_of_subset fun k hk => ?_
  rw [List.mem_append, ← contains_iff_mem_keys]
  exact h k ((s.contains_iff_mem_keys k).mpr hk)

/-- A set that grows by one member at most, and not beyond a limit. -/
theorem size_le_of_made (made : κ → Prop) {limit : Nat} (hle : t.size ≤ limit)
    (hone : ∀ k k', made k → made k' → k = k')
    (hgrow : ∀ k, s.contains k = true → made k ∨ t.contains k = true)
    (hroom : ∀ k, made k → s.contains k = true → t.size < limit) : s.size ≤ limit := by
  by_cases hnew : ∃ k, made k ∧ s.contains k = true
  · obtain ⟨k, hk, hcontains⟩ := hnew
    have hsize : s.size ≤ 1 + t.size := size_le_of_covered [k] fun k' hk' =>
      (hgrow k' hk').imp_left fun hmade => List.mem_singleton.mpr (hone k' k hmade hk)
    have hlt := hroom k hk hcontains
    omega
  · have hsize : s.size ≤ 0 + t.size := size_le_of_covered [] fun k hk =>
      Or.inr ((hgrow k hk).resolve_left fun hmade => hnew ⟨k, hmade, hk⟩)
    omega

/-- A set that falls into two lists without repetition has as many members as both together. -/
theorem size_eq_of_split {l l' : List κ} (hl : l.Nodup) (hl' : l'.Nodup)
    (hapart : ∀ k ∈ l, k ∉ l') (h : ∀ k, s.contains k = true ↔ k ∈ l ∨ k ∈ l') :
    s.size = l.length + l'.length := by
  have hnodup : (l ++ l').Nodup :=
    List.nodup_append'.mpr ⟨hl, hl', fun k hk hk' => hapart k hk hk'⟩
  have hperm : s.keys.Perm (l ++ l') :=
    (List.perm_ext_iff_of_nodup s.keys_nodup hnodup).mpr fun k => by
      rw [List.mem_append, ← contains_iff_mem_keys, h k]
  rw [size_eq_keys_length, hperm.length_eq, List.length_append]

end Table

theorem Config.reached_eq_false_iff (limit held : Nat) :
    Config.reached limit held = false ↔ (limit ≠ 0 → held < limit) := by
  simp [Config.reached]

namespace Exchange

variable {L : Type} {x y : Exchange} {c : ClientId} {op : Operation} {a : Answer}

/-! ## What is held against a client -/

/-- The exporters that a client has bound. -/
def exportersBoundBy (x : Exchange) (c : ClientId) : List ExporterId :=
  (x.exporters.filter (fun _ g => decide (g.client = c))).keys

/-- The importers that a client has bound. -/
def importersBoundBy (x : Exchange) (c : ClientId) : List ImporterId :=
  (x.importers.filter (fun _ g => decide (g.client = c))).keys

/-- The inert exports that a client still holds. -/
def inertExportsOf (x : Exchange) (c : ClientId) : List ExportId :=
  (x.inertExports.filter (fun _ owner => decide (owner = c))).keys

/-- The inert imports that a client still holds. -/
def inertImportsOf (x : Exchange) (c : ClientId) : List ImportId :=
  (x.inertImports.filter (fun _ owner => decide (owner = c))).keys

/-- A client's live exports, exporter by exporter, and its inert ones. -/
def exportsCharged (x : Exchange) (c : ClientId) : Nat :=
  ((x.exportersBoundBy c).map (fun p => (x.exportsOf p).length)).sum + (x.inertExportsOf c).length

/-- A client's live imports, importer by importer, and its inert ones. -/
def importsCharged (x : Exchange) (c : ClientId) : Nat :=
  ((x.importersBoundBy c).map (fun m => (x.importsOf m).length)).sum + (x.inertImportsOf c).length

theorem length_exportsOf (p : ExporterId) : (x.exportsOf p).length = (x.ownExports p).length := by
  rw [exportsOf, ← Table.keys_filter (fun e : ExportId => decide (e.exporter = p)), Table.keys,
    List.length_map]
  rfl

theorem length_importsOf (m : ImporterId) : (x.importsOf m).length = (x.ownImports m).length := by
  rw [importsOf, ← Table.keys_filter (fun i : ImportId => decide (i.importer = m)), Table.keys,
    List.length_map]
  rfl

theorem mem_inertExportsOf_iff (e : ExportId) :
    e ∈ x.inertExportsOf c ↔ x.inertClient? (.exported e) = some c :=
  (x.inertExports.mem_keys_filter_iff id c e).trans (by rw [Option.map_id, id, inertClient?])

theorem mem_inertImportsOf_iff (i : ImportId) :
    i ∈ x.inertImportsOf c ↔ x.inertClient? (.imported i) = some c :=
  (x.inertImports.mem_keys_filter_iff id c i).trans (by rw [Option.map_id, id, inertClient?])

namespace Registered

variable (h : x.Registered)

include h

/-- A client's live exports, counted exporter by exporter. -/
theorem sum_exportsOf (c : ClientId) :
    ((x.exportersBoundBy c).map (fun p => (x.exportsOf p).length)).sum =
      (x.exportsHeld c).length := by
  have hheld := h.flatMap_ownExports c x fun e s he => ⟨s, he, rfl⟩
  rw [h.exporters_keys] at hheld
  simp only [← hheld, List.length_flatMap, length_exportsOf, exportersBoundBy]

/-- A client's live imports, counted importer by importer. -/
theorem sum_importsOf (c : ClientId) :
    ((x.importersBoundBy c).map (fun m => (x.importsOf m).length)).sum =
      (x.importsHeld c).length := by
  have hheld := h.flatMap_ownImports c
  rw [h.importers_keys] at hheld
  simp only [← hheld, List.length_flatMap, length_importsOf, importersBoundBy]

/-- The tracker's number of a client's exports is what is held against it. -/
theorem counts_exports (c : ClientId) :
    (x.ownership.counts c).exports = x.exportsCharged c := by
  have hlive := x.exports.mem_keys_filter_iff Export.client c
  have hsize : (x.ownership.holdings c).exports.size =
      (x.exports.filter (fun _ s => decide (s.client = c))).keys.length +
        (x.inertExportsOf c).length := by
    refine Table.size_eq_of_split (Table.keys_nodup _) (Table.keys_nodup _) (fun e he hinert => ?_)
      fun e => ?_
    · have hnone := h.apart (o := .exported e) ((hlive e).mp he)
      rw [(mem_inertExportsOf_iff e).mp hinert] at hnone
      cases hnone
    · rw [hlive, mem_inertExportsOf_iff]
      exact h.owns_iff c (.exported e)
  rw [exportsCharged, h.sum_exportsOf, exportsHeld]
  rwa [Table.keys, List.length_map] at hsize

/-- The tracker's number of a client's imports is what is held against it. -/
theorem counts_imports (c : ClientId) :
    (x.ownership.counts c).imports = x.importsCharged c := by
  have hlive := x.imports.mem_keys_filter_iff Import.client c
  have hsize : (x.ownership.holdings c).imports.size =
      (x.imports.filter (fun _ r => decide (r.client = c))).keys.length +
        (x.inertImportsOf c).length := by
    refine Table.size_eq_of_split (Table.keys_nodup _) (Table.keys_nodup _) (fun i hi hinert => ?_)
      fun i => ?_
    · have hnone := h.apart (o := .imported i) ((hlive i).mp hi)
      rw [(mem_inertImportsOf_iff i).mp hinert] at hnone
      cases hnone
    · rw [hlive, mem_inertImportsOf_iff]
      exact h.owns_iff c (.imported i)
  rw [importsCharged, h.sum_importsOf, importsHeld]
  rwa [Table.keys, List.length_map] at hsize

end Registered

/-! ## No operation leads past a limit -/

/-- No client holds more than it may. -/
structure WithinLimits (x : Exchange) : Prop where
  exports : x.config.maxExports ≠ 0 → ∀ c, (x.ownership.counts c).exports ≤ x.config.maxExports
  imports : x.config.maxImports ≠ 0 → ∀ c, (x.ownership.counts c).imports ≤ x.config.maxImports

/-- Whoever owns an object afterwards owned it before, unless it is the one that was made. -/
theorem Begets.owns (hx : x.Registered) (hy : y.Registered) (hb : Begets x a y) {o : ObjectId}
    (ho : y.ownership.owns c o = true) : a.made? = some o ∨ x.ownership.owns c o = true := by
  rw [hx.owns_iff]
  rcases (hy.owns_iff c o).mp ho with hlive | hinert
  · exact (hb.ages.clientOf? hlive).imp Option.mem_toList.mp Or.inl
  · exact (hb.ages.inert hinert).imp Option.mem_toList.mp Or.symm

/-- An export is made only for a client with room for it. -/
theorem Change.room_for_export (hxy : Change x op a y) {e : ExportId}
    (ha : a.made? = some (.exported e)) : ∃ c, y.clientOf? (.exported e) = some c ∧
      Config.reached x.config.maxExports (x.ownership.counts c).exports = false := by
  cases hxy with
  | ebbs _ hplain => exact absurd ha (hplain.no_export e)
  | @addExport p g handles surface handle _ hroom _ =>
    cases ha
    refine ⟨g.client, ?_, hroom⟩
    rw [clientOf?, addExport_eq]
    exact congrArg _ (Table.find?_insert_self _ _ _)
  | expel handles c err hplain => exact absurd ha (hplain.no_export e)
  | _ => cases ha

/-- An import is made only for a client with room for it. -/
theorem Change.room_for_import (hxy : Change x op a y) {i : ImportId}
    (ha : a.made? = some (.imported i)) : ∃ c, y.clientOf? (.imported i) = some c ∧
      Config.reached x.config.maxImports (x.ownership.counts c).imports = false := by
  cases hxy with
  | ebbs _ hplain => exact absurd ha (hplain.no_import i)
  | @addImport m g handle _ hroom _ =>
    cases ha
    refine ⟨g.client, ?_, hroom⟩
    rw [clientOf?, addImport_eq]
    exact congrArg _ (Table.find?_insert_self _ _ _)
  | expel handles c err hplain => exact absurd ha (hplain.no_import i)
  | _ => cases ha

theorem WithinLimits.perform (hw : x.WithinLimits) (h : x.Sound) {view : ShellView}
    {patience : Nat} {d d' : Display L} (hp : x.perform view patience d op = some (a, y, d')) :
    y.WithinLimits := by
  have hy := (h.perform hp).registered
  have hconfig : y.config = x.config := congrArg Berth.config (perform_moored hp).berth
  have hchange := perform_change h hp
  have hbegets := perform_begets h hp
  constructor
  · intro hlimit c
    rw [hconfig] at hlimit ⊢
    refine Table.size_le_of_made (fun e => a.made? = some (.exported e))
      (hw.exports hlimit c) (fun e e' he he' => ?_) (fun e he => hbegets.owns h.registered hy he)
      fun e he howns => ?_
    · exact ObjectId.exported.inj (Option.some.inj (he.symm.trans he'))
    · obtain ⟨d, hd, hroom⟩ := hchange.room_for_export he
      have howned : y.ownership.owns c (.exported e) = true := howns
      obtain rfl : c = d := hy.owner_unique howned (hy.owns_of_live hd)
      exact (Config.reached_eq_false_iff _ _).mp hroom hlimit
  · intro hlimit c
    rw [hconfig] at hlimit ⊢
    refine Table.size_le_of_made (fun i => a.made? = some (.imported i))
      (hw.imports hlimit c) (fun i i' hi hi' => ?_) (fun i hi => hbegets.owns h.registered hy hi)
      fun i hi howns => ?_
    · exact ObjectId.imported.inj (Option.some.inj (hi.symm.trans hi'))
    · obtain ⟨d, hd, hroom⟩ := hchange.room_for_import hi
      have howned : y.ownership.owns c (.imported i) = true := howns
      obtain rfl : c = d := hy.owner_unique howned (hy.owns_of_live hd)
      exact (Config.reached_eq_false_iff _ _).mp hroom hlimit

theorem Run.withinLimits {ts : List (Transition L)} (h : x.Sound) (hw : x.WithinLimits)
    (hrun : Run x ts y) : y.WithinLimits := by
  induction hrun with
  | start => exact hw
  | perform t hrun hvalid ih => exact ih.perform (hrun.sound h) hvalid
  | aside _ haside ih => cases haside <;> exact ⟨ih.exports, ih.imports⟩

theorem Reachable.withinLimits (h : x.Reachable) : x.WithinLimits := by
  obtain ⟨L, d, config, handles, l, ts, hrun⟩ := h
  refine hrun.withinLimits (sound_start d config handles l) ⟨fun _ c => ?_, fun _ c => ?_⟩
  · exact Nat.zero_le _
  · exact Nat.zero_le _

/-! ## Who is refused -/

/-- An export is refused before any handle is drawn if and only if its client has as many as it
may have. -/
theorem exportSurface_refused_iff {view : ShellView} {p : ExporterId} {g : Registry}
    {s : SurfaceId} (hg : x.exporters.find? p = some g) (hrole : view.role s = some .toplevel)
    (patience : Nat) :
    x.exportSurface view patience p s = some (.error (.protocol (.noMemory (.exporter p))), x) ↔
      Config.reached x.config.maxExports (x.ownership.counts g.client).exports = true := by
  constructor
  · intro hp
    obtain ⟨handles, hfails, heq⟩ := exportFails_of_exportSurface hp
    have hhandles : x.handles = handles := congrArg Exchange.handles heq
    cases hfails with
    | limit hg' _ hlimit =>
      cases hg.symm.trans hg'
      exact hlimit
    | @handle _ n _ _ _ _ hends =>
      -- a search that fails has drawn an answer
      have hdrawn : x.handles.drawn = x.handles.drawn + n := congrArg HandleStream.drawn hhandles
      cases hends <;> omega
  · intro hlimit
    simp only [exportSurface, hg, requireToplevel_eq, if_pos hrole, hlimit, if_true]

theorem importHandle_refused_iff {m : ImporterId} {g : Registry} (hg : x.importers.find? m = some g)
    (handle : String) :
    x.importHandle m handle = (.error (.protocol (.noMemory (.importer m))), x) ↔
      Config.reached x.config.maxImports (x.ownership.counts g.client).imports = true := by
  rw [importHandle_eq_error_iff, and_iff_left rfl]
  constructor
  · intro hfails
    cases hfails with
    | limit hg' hlimit =>
      cases hg.symm.trans hg'
      exact hlimit
  · exact .limit hg

/-- A client is held to its limits, by what is held against it. -/
structure LimitsHold (x : Exchange) (c : ClientId) : Prop where
  exportsCounted : (x.ownership.counts c).exports = x.exportsCharged c
  importsCounted : (x.ownership.counts c).imports = x.importsCharged c
  exports_le : x.config.maxExports ≠ 0 → x.exportsCharged c ≤ x.config.maxExports
  imports_le : x.config.maxImports ≠ 0 → x.importsCharged c ≤ x.config.maxImports
  exportRefused_iff : ∀ p g s (view : ShellView) patience, x.exporters.find? p = some g →
    g.client = c → view.role s = some .toplevel →
    (x.exportSurface view patience p s =
        some (.error (.protocol (.noMemory (.exporter p))), x) ↔
      x.config.maxExports ≠ 0 ∧ x.config.maxExports ≤ x.exportsCharged c)
  importRefused_iff : ∀ m g handle, x.importers.find? m = some g → g.client = c →
    (x.importHandle m handle = (.error (.protocol (.noMemory (.importer m))), x) ↔
      x.config.maxImports ≠ 0 ∧ x.config.maxImports ≤ x.importsCharged c)
  /-- What other clients hold does not matter. -/
  ownOnly : ∀ y : Exchange, y.Reachable → (∀ o, y.Belongs c o ↔ x.Belongs c o) →
    y.exportsCharged c = x.exportsCharged c ∧ y.importsCharged c = x.importsCharged c

/-- What a client holds is never more than it may hold, live and inert objects together. The
tracker's numbers are those that are held against it, a further object is refused if and only if
they have come to the limit, and they depend on nothing but the client's own objects. -/
theorem Reachable.limits_hold (h : x.Reachable) (c : ClientId) : x.LimitsHold c := by
  have hreg := h.sound.registered
  have hexports := hreg.counts_exports c
  have himports := hreg.counts_imports c
  constructor
  case exportsCounted => exact hexports
  case importsCounted => exact himports
  case exports_le =>
    intro hlimit
    rw [← hexports]
    exact h.withinLimits.exports hlimit c
  case imports_le =>
    intro hlimit
    rw [← himports]
    exact h.withinLimits.imports hlimit c
  case exportRefused_iff =>
    rintro p g s view patience hg rfl hrole
    rw [exportSurface_refused_iff hg hrole, hexports, Config.reached, decide_eq_true_eq]
  case importRefused_iff =>
    rintro m g handle hg rfl
    rw [importHandle_refused_iff hg, himports, Config.reached, decide_eq_true_eq]
  case ownOnly =>
    intro y hy hsame
    have hyreg := hy.sound.registered
    have hholdings : y.ownership.holdings c = x.ownership.holdings c :=
      Holdings.ext_has fun o => Bool.eq_iff_iff.mpr
        ((hyreg.owns_iff_belongs c o).trans ((hsame o).trans (hreg.owns_iff_belongs c o).symm))
    rw [← hyreg.counts_exports, ← hyreg.counts_imports, ← hexports, ← himports, Ownership.counts,
      hholdings]
    exact ⟨rfl, rfl⟩

/-- A client that may have one export makes one and destroys its exporter, which leaves the export
inert. Then it binds another exporter. -/
def frugal : Option (List (Transition Unit) × Exchange × Display Unit) :=
  let started := start Display.empty.connect.2 { maxExports := 1 }
    (.scripted [some ⟨"first"⟩] true) ()
  follow { role := fun _ => some .toplevel } 1
    [.bindExporter ⟨1⟩, .exportSurface ⟨1⟩ ⟨5⟩, .destroyExporter ⟨1⟩, .bindExporter ⟨1⟩]
    started.1 started.2

theorem limits_hold_frugal : ∃ ts x d, frugal = some (ts, x, d) ∧ x.Reachable ∧
    x.exports.size = 0 ∧ x.exportsCharged ⟨1⟩ = 1 ∧
    ∀ patience, x.exportSurface { role := fun _ => some .toplevel } patience ⟨3⟩ ⟨6⟩ =
      some (.error (.protocol (.noMemory (.exporter ⟨3⟩))), x) := by
  obtain ⟨⟨ts, x, d⟩, hf⟩ : ∃ p, frugal = some p := ⟨_, rfl⟩
  have hreach : x.Reachable := ⟨Unit, _, _, _, _, ts, run_follow hf⟩
  cases hf
  exact ⟨_, _, _, rfl, hreach, rfl, rfl, fun patience =>
    ((hreach.limits_hold ⟨1⟩).exportRefused_iff ⟨3⟩ _ ⟨6⟩ _ patience rfl rfl rfl).mpr (by decide)⟩

end Exchange

end SurfaceExchange
