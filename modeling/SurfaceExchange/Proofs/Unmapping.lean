import SurfaceExchange.Proofs.Adoption
import SurfaceExchange.Proofs.Disappearance

/-!
# What an unmap comes to

An unmap is delivered to a list of listeners that grows shorter while it is
walked: every export that is struck takes its own listener with it, and the
links that were made through it take theirs. `Strikes` says how far the unmap
has got. Exports listen in the order in which they were made (`InOrder`), and
so they are struck in that order, and in the end the unmap has done everything
that it is there for, each thing once (`Reachable.unmapped_effect`).
-/

namespace SurfaceExchange.Exchange

variable {x y : Exchange} {c : SurfaceId}

/-! ## The order of listening -/

/-- Live exports have begun to listen in the order of their numbers. -/
def InOrder (x : Exchange) : Prop :=
  ∀ e e' s s', x.exports.find? e = some s → x.exports.find? e' = some s' →
    (e.serial < e'.serial ↔ s.unmap.listener.val < s'.unmap.listener.val)

/-- Exports that are left listen under the numbers that they had. -/
def StillListen (x y : Exchange) : Prop :=
  ∀ e s', y.exports.find? e = some s' → ∃ s, x.exports.find? e = some s ∧ s'.unmap = s.unmap

theorem stillListen_of_eq (h : y.exports = x.exports) : x.StillListen y :=
  fun _ s' he => ⟨s', h ▸ he, rfl⟩

theorem StillListen.inOrder (hxy : x.StillListen y) (h : x.InOrder) : y.InOrder := by
  intro e e' s s' he he'
  obtain ⟨t, ht, heq⟩ := hxy e s he
  obtain ⟨t', ht', heq'⟩ := hxy e' s' he'
  rw [heq, heq']
  exact h e e' t t' ht ht'

theorem RetiresExports.stillListen (hxy : x.RetiresExports y) : x.StillListen y := by
  cases hxy with
  | nothing => exact stillListen_of_eq rfl
  | drop w _ _ _ _ =>
    intro e s' he
    rw [Coherent.find?_exports_dropExports] at he
    split at he
    · cases he
    · exact ⟨s', he, rfl⟩

theorem RetiresImports.stillListen (hxy : x.RetiresImports y) : x.StillListen y := by
  cases hxy with
  | nothing => exact stillListen_of_eq rfl
  | drop w _ _ _ _ =>
    intro e s' he
    rw [Coherent.find?_exports_dropImports] at he
    obtain ⟨s, hs, rfl⟩ := Option.map_eq_some_iff.mp he
    exact ⟨s, hs, rfl⟩

theorem stillListen_withoutClient (d : ClientId) : x.StillListen (x.withoutClient d) := by
  intro e s' he
  rw [find?_exports_withoutClient] at he
  obtain ⟨s, hs, rfl⟩ := Option.map_eq_some_iff.mp he
  exact ⟨s, (Option.filter_eq_some_iff.mp hs).1, rfl⟩

theorem stillListen_addImport (m : ImporterId) (g : Registry) (handle : String) :
    x.StillListen (x.addImport m g handle).2 := by
  intro e s' he
  rw [addImport_eq, Table.find?_mapValues] at he
  obtain ⟨s, hs, rfl⟩ := Option.map_eq_some_iff.mp he
  exact ⟨s, hs, rfl⟩

/-- A new export has the next number and listens under the next number. -/
theorem InOrder.addExport (h : x.InOrder) (hx : x.Sound) (p : ExporterId) (g : Registry)
    (surface : SurfaceId) (handle : Handle) : (x.addExport p g surface handle).2.InOrder := by
  have hserial : ∀ {e s}, x.exports.find? e = some s → e.serial < x.nextId := fun {e s} he => by
    have hlive : x.clientOf? (.exported e) = some s.client := by simp [clientOf?, he]
    exact hx.registered.fresh (hx.registered.owns_of_live hlive)
  have hlistener : ∀ {e s}, x.exports.find? e = some s →
      s.unmap.listener.val < x.subscriptions.nextId := fun he =>
    hx.coherent.watched.wellFormed.fresh (hx.coherent.watched.listens_iff.mpr (.exportUnmap he))
  intro e e' s s' he he'
  rw [addExport_eq] at he he'
  rcases Table.of_find?_insert he with ⟨rfl, rfl⟩ | he <;>
    rcases Table.of_find?_insert he' with ⟨rfl, rfl⟩ | he'
  · exact iff_of_false (Nat.lt_irrefl _) (Nat.lt_irrefl _)
  · exact iff_of_false (Nat.lt_asymm (hserial he')) (Nat.lt_asymm (hlistener he'))
  · exact iff_of_true (hserial he) (hlistener he)
  · exact h e e' s s' he he'

theorem Ebb.stillListen (h : x.Sound) (hxy : Ebb x y) : x.StillListen y := by
  cases hxy with
  | retireExport e left => exact (retiresExports_retireExport h.coherent e left).stillListen
  | retireExporter p => exact (retiresExports_retireExporter h.coherent p .inert).stillListen
  | _ => exact stillListen_of_eq rfl

theorem Ebbs.inOrder (hx : x.Sound) (h : x.InOrder) (hxy : Ebbs x y) : y.InOrder := by
  induction hxy with
  | refl => exact h
  | tail hxy hstep ih => exact (hstep.stillListen (Ebbs.sound hx hxy)).inOrder ih

theorem Change.inOrder {op : Operation} {a : Answer} (hx : x.Sound) (h : x.InOrder)
    (hxy : Change x op a y) : y.InOrder := by
  cases hxy with
  | ebbs hxy _ => exact Ebbs.inOrder hx h hxy
  | takeEvents => exact h
  | addExport handles surface _ _ _ =>
    have hdrawn : { x with handles : Exchange }.Sound :=
      hx.congr rfl rfl rfl rfl rfl rfl rfl rfl rfl
    exact InOrder.addExport (x := { x with handles }) h hdrawn _ _ _ _
  | addImport _ _ _ => exact (stillListen_addImport _ _ _).inOrder h
  | retireImport i =>
    exact (retiresImports_retireImport hx.coherent i .nothing).stillListen.inOrder h
  | retireImporter m =>
    exact (retiresImports_retireImporter hx.coherent m .inert).stillListen.inOrder h
  | clientGone d =>
    rw [clientGone_eq hx.coherent hx.registered]
    exact (stillListen_withoutClient d).inOrder h
  | expel handles d err _ =>
    have hblamed := hx.blame handles d err
    rw [clientGone_eq hblamed.coherent hblamed.registered]
    have horder : ({ x with handles }.send d (.error err)).InOrder := h
    exact (stillListen_withoutClient d).inOrder horder

theorem Run.inOrder {L : Type} {ts : List (Transition L)} (hx : x.Sound) (h : x.InOrder)
    (hrun : Run x ts y) : y.InOrder := by
  induction hrun with
  | start => exact h
  | perform t hrun hvalid ih =>
    have hsound := hrun.sound hx
    exact (perform_change hsound hvalid).inOrder hsound ih
  | aside _ haside ih => cases haside <;> exact ih

theorem Reachable.inOrder (h : x.Reachable) : x.InOrder := by
  obtain ⟨L, d, config, handles, l, ts, hrun⟩ := h
  exact hrun.inOrder (sound_start d config handles l) nofun

/-- No two live exports listen under one number, and so none have one number. -/
theorem InOrder.export_unique (h : x.InOrder) (hx : x.Coherent) {e e' : ExportId} {s s' : Export}
    (he : x.exports.find? e = some s) (he' : x.exports.find? e' = some s')
    (hserial : e.serial = e'.serial) : e = e' := by
  have hlt := mt (h e e' s s' he he').mpr (by omega)
  have hgt := mt (h e' e s' s he' he).mpr (by omega)
  have hlistener : s.unmap.listener.val = s'.unmap.listener.val := by omega
  have hw := hx.watched.listens_iff.mpr (.exportUnmap he)
  have hw' := hx.watched.listens_iff.mpr (.exportUnmap he')
  have htoken := hx.watched.wellFormed.unique hw hw' (congrArg ListenerId.mk hlistener)
  rw [htoken] at hw
  exact Watcher.exportUnmap.inj (hx.watched.wellFormed.listener_unique hw hw')

/-! ## Exports that are struck -/

/-- The imports that an export has, each with the export and with its own client. -/
def importersWithClients (x : Exchange) (e : ExportId) (s : Export) :
    List (ExportId × ImportId × ClientId) :=
  s.importers.filterMap (fun i => (x.imports.find? i).map (fun r => (e, i, r.client)))

theorem mem_importersWithClients_iff (h : x.Coherent) {e : ExportId} {s : Export}
    (he : x.exports.find? e = some s) (e' : ExportId) (i : ImportId) (d : ClientId) :
    (e', i, d) ∈ x.importersWithClients e s ↔
      e' = e ∧ ∃ r, x.imports.find? i = some r ∧ r.source = some e ∧ r.client = d := by
  rw [importersWithClients, List.mem_filterMap]
  constructor
  · rintro ⟨j, hj, hm⟩
    obtain ⟨r, hr, heq⟩ := Option.map_eq_some_iff.mp hm
    cases heq
    exact ⟨rfl, r, hr, h.links.source_of_listed hr he hj, rfl⟩
  · rintro ⟨rfl, r, hr, hs, rfl⟩
    obtain ⟨s', he', hm⟩ := h.links.listed hr hs
    rw [he] at he'
    cases he'
    exact ⟨i, hm, by rw [hr]; rfl⟩

/-- Made before: first by the export, then by the import. -/
def MadeBefore (a b : ExportId × ImportId × ClientId) : Prop :=
  a.1.serial < b.1.serial ∨ (a.1 = b.1 ∧ a.2.1.serial < b.2.1.serial)

theorem fst_of_mem_importersWithClients {e : ExportId} {s : Export}
    {b : ExportId × ImportId × ClientId} (hb : b ∈ x.importersWithClients e s) : b.1 = e := by
  obtain ⟨i, -, hm⟩ := List.mem_filterMap.mp hb
  obtain ⟨r, -, rfl⟩ := Option.map_eq_some_iff.mp hm
  rfl

/-- In the order in which they were made. -/
theorem importersWithClients_ordered (h : x.Coherent) {e : ExportId} {s : Export}
    (he : x.exports.find? e = some s) : (x.importersWithClients e s).Pairwise
      (fun a b => a.1 = b.1 ∧ a.2.1.serial < b.2.1.serial) := by
  refine (h.links.ordered he).filterMap _ fun i j hlt a ha b hb => ?_
  obtain ⟨r, -, rfl⟩ := Option.map_eq_some_iff.mp ha
  obtain ⟨q, -, rfl⟩ := Option.map_eq_some_iff.mp hb
  exact ⟨rfl, hlt⟩

/-- The imports that exports have, export by export, each with its own client. -/
def importersOfAll (x : Exchange) (ps : List (ExportId × Export)) :
    List (ExportId × ImportId × ClientId) :=
  ps.flatMap (fun p => x.importersWithClients p.1 p.2)

theorem events_dropExports (ps : List (ExportId × Export)) :
    (x.dropExports ps).events = x.events ++ (x.importersOfAll ps).map parting := by
  show x.events ++ (importersOf ps).filterMap x.notice? = _
  rw [importersOf, importersOfAll, List.filterMap_flatMap, List.map_flatMap]
  congr 1
  refine List.flatMap_congr fun p _ => ?_
  rw [importersWithClients, List.map_filterMap]
  refine List.filterMap_congr fun i _ => ?_
  rw [notice?, Option.map_map]
  rfl

/-- An export that becomes inert leaves its imports without a source. Their clients are told. -/
theorem retireExport_inert_eq (h : x.Coherent) {e : ExportId} {s : Export}
    (he : x.exports.find? e = some s) : x.retireExport e .inert =
      { x.dropExports [(e, s)] with inertExports := x.inertExports.insert e s.client } := by
  rw [retireExport_eq h he, leaveExports_inert]
  rfl

theorem events_retireExport_inert (h : x.Coherent) {e : ExportId} {s : Export}
    (he : x.exports.find? e = some s) : (x.retireExport e .inert).events =
      x.events ++ (x.importersWithClients e s).map parting := by
  rw [retireExport_inert_eq h he]
  refine (events_dropExports [(e, s)]).trans ?_
  rw [importersOfAll, List.flatMap_singleton]

theorem find?_imports_retireExport_inert (h : x.Coherent) {e : ExportId} {s : Export}
    (he : x.exports.find? e = some s) (i : ImportId) :
    (x.retireExport e .inert).imports.find? i =
      (x.imports.find? i).map (fun r => if r.source = some e then r.orphan else r) := by
  rw [retireExport_inert_eq h he]
  refine (Coherent.find?_imports_dropExports [(e, s)] i).trans ?_
  cases hi : x.imports.find? i with
  | none => rfl
  | some r =>
    have hlive : ∀ p ∈ [(e, s)], x.exports.find? p.1 = some p.2 := by simpa using he
    have hiff : i ∈ importersOf [(e, s)] ↔ r.source = some e := by
      rw [h.mem_importersOf_iff hlive hi]
      simp
    simp only [Option.map_some, hiff]

/-! ## An unmap on its way -/

/-- Everything but exports, imports and what hangs on them is as it was. -/
def OnlyLinks (x y : Exchange) : Prop := ∃ E I J s ds cs, y = { x with
  exports := E
  imports := I
  inertExports := J
  subscriptions := s
  events := ds
  parentChanges := cs }

theorem OnlyLinks.trans {z : Exchange} (h : x.OnlyLinks y) (h' : y.OnlyLinks z) :
    x.OnlyLinks z := by
  obtain ⟨E, I, J, s, ds, cs, rfl⟩ := h
  obtain ⟨E', I', J', s', ds', cs', rfl⟩ := h'
  exact ⟨_, _, _, _, _, _, rfl⟩

/-- The source of an import is gone. -/
def Bereft (x : Exchange) (r : Import) : Prop :=
  ∃ e, r.source = some e ∧ x.exports.find? e = none

/-- The unmap of a surface has come from one exchange to the other and has broken off the imports
of the list. -/
structure Strikes (x : Exchange) (c : SurfaceId) (y : Exchange)
    (bs : List (ExportId × ImportId × ClientId)) : Prop where
  rest : x.OnlyLinks y
  exported : ∀ {e s}, y.exports.find? e = some s → x.exports.find? e = some s
  struck : ∀ {e s}, x.exports.find? e = some s → y.exports.find? e = none → s.surface = c
  inert : ∀ e d, y.inertExports.find? e = some d ↔ x.inertExports.find? e = some d ∨
    ∃ s, x.exports.find? e = some s ∧ y.exports.find? e = none ∧ s.client = d
  absent : ∀ {i}, x.imports.find? i = none → y.imports.find? i = none
  orphaned : ∀ {i r}, x.imports.find? i = some r → y.Bereft r →
    y.imports.find? i = some r.orphan
  kept : ∀ {i r}, x.imports.find? i = some r → ¬ y.Bereft r →
    y.imports.find? i = some r ∨ y.imports.find? i = some (r.disown c)
  events : y.events = x.events ++ bs.map parting
  ordered : bs.Pairwise MadeBefore
  listed : ∀ e i d, (e, i, d) ∈ bs ↔ ∃ s r, x.exports.find? e = some s ∧
    y.exports.find? e = none ∧ x.imports.find? i = some r ∧ r.source = some e ∧ r.client = d
  /-- What is struck was made before what is still to be struck. -/
  earlier : ∀ {e s e' s'}, x.exports.find? e = some s → y.exports.find? e = none →
    y.exports.find? e' = some s' → s'.surface = c → e.serial < e'.serial

namespace Strikes

variable {bs : List (ExportId × ImportId × ClientId)}

theorem refl (h : x.Coherent) (c : SurfaceId) : Strikes x c x [] where
  rest := ⟨_, _, _, _, _, _, rfl⟩
  exported := id
  struck := fun he hn => by rw [he] at hn; cases hn
  inert := fun e d => (or_iff_left fun ⟨s, he, hn, _⟩ => by rw [he] at hn; cases hn).symm
  absent := id
  orphaned := by
    rintro i r hi ⟨e, hs, hn⟩
    obtain ⟨s, he, -⟩ := h.links.listed hi hs
    rw [he] at hn
    cases hn
  kept := fun hi _ => Or.inl hi
  events := (List.append_nil _).symm
  ordered := .nil
  listed := fun e i d => iff_of_false List.not_mem_nil fun ⟨s, r, he, hn, _⟩ => by
    rw [he] at hn
    cases hn
  earlier := fun he hn => by rw [he] at hn; cases hn

/-- A link on the surface is taken off, and its parent is cleared. -/
theorem unlink (h : Strikes x c y bs) (ts : List Subscription) :
    Strikes x c ((y.disown c ts).tell c none) bs where
  rest := h.rest.trans ⟨_, _, _, _, _, _, rfl⟩
  exported := h.exported
  struck := h.struck
  inert := h.inert
  absent := fun hi => (find?_imports_disown c ts _).trans (by rw [h.absent hi]; rfl)
  orphaned := fun hi hb => (find?_imports_disown c ts _).trans (by rw [h.orphaned hi hb]; rfl)
  kept := by
    intro i r hi hb
    right
    refine (find?_imports_disown c ts i).trans ?_
    rcases h.kept hi hb with hy | hy
    · rw [hy]
      rfl
    · rw [hy, Option.map_some, disown_of_unlinked fun l hl =>
        ((mem_children_disown_iff r c l).mp hl).2]
  events := h.events
  ordered := h.ordered
  listed := h.listed
  earlier := h.earlier

/-- An import that still has a source is what it was, but perhaps for its link. -/
theorem source_iff (h : Strikes x c y bs) {e : ExportId} {s : Export}
    (he : y.exports.find? e = some s) (i : ImportId) (d : ClientId) :
    (∃ r, y.imports.find? i = some r ∧ r.source = some e ∧ r.client = d) ↔
      ∃ r, x.imports.find? i = some r ∧ r.source = some e ∧ r.client = d := by
  have hlive : ∀ {r : Import}, r.source = some e → ¬ y.Bereft r := by
    rintro r hs ⟨e', hs', hn⟩
    rw [hs] at hs'
    cases hs'
    rw [he] at hn
    cases hn
  constructor
  · rintro ⟨r', hi', hs, hd⟩
    cases hi : x.imports.find? i with
    | none =>
      rw [h.absent hi] at hi'
      cases hi'
    | some r =>
      by_cases hb : y.Bereft r
      · rw [h.orphaned hi hb] at hi'
        cases hi'
        cases hs
      · refine ⟨r, rfl, ?_⟩
        rcases h.kept hi hb with hy | hy <;> rw [hy] at hi' <;> cases hi' <;> exact ⟨hs, hd⟩
  · rintro ⟨r, hi, hs, hd⟩
    rcases h.kept hi (hlive hs) with hy | hy
    · exact ⟨r, hy, hs, hd⟩
    · exact ⟨r.disown c, hy, hs, hd⟩

/-- A struck export takes the sources of its imports with it. -/
theorem bereft_strike (hy : y.Coherent) (e : ExportId) (r : Import) :
    (y.retireExport e .inert).Bereft r ↔ r.source = some e ∨ y.Bereft r := by
  simp only [Bereft, find?_exports_retireExport hy]
  constructor
  · rintro ⟨e', hs, hn⟩
    split at hn
    · next heq => exact Or.inl (heq ▸ hs)
    · exact Or.inr ⟨e', hs, hn⟩
  · rintro (hs | ⟨e', hs, hn⟩)
    · exact ⟨e, hs, if_pos rfl⟩
    · exact ⟨e', hs, by rw [hn, ite_self]⟩

theorem find?_struck_iff (hy : y.Coherent) (e e' : ExportId) :
    (y.retireExport e .inert).exports.find? e' = none ↔
      e' = e ∨ y.exports.find? e' = none := by
  rw [find?_exports_retireExport hy]
  split
  · next heq => exact iff_of_true rfl (Or.inl heq)
  · next hne => exact (or_iff_right hne).symm

theorem exported_strike (hy : y.Coherent) {e e' : ExportId} {s' : Export}
    (he' : (y.retireExport e .inert).exports.find? e' = some s') :
    e' ≠ e ∧ y.exports.find? e' = some s' := by
  rw [find?_exports_retireExport hy] at he'
  split at he'
  · cases he'
  · next hne => exact ⟨hne, he'⟩

/-- The watchers of a surface stand in the order in which its exports were made, so the one that is
struck was made before those that are left. -/
theorem serial_lt_of_first (h : Strikes x c y bs) (hx : x.Sound) (horder : x.InOrder)
    {e e' : ExportId} {s s' : Export} (he : y.exports.find? e = some s)
    (he' : y.exports.find? e' = some s') (hne : e' ≠ e)
    (hfirst : s.unmap.listener.val ≤ s'.unmap.listener.val) : e.serial < e'.serial := by
  have hxe := h.exported he
  have hxe' := h.exported he'
  have hle := mt (horder e' e s' s hxe' hxe).mp (Nat.not_lt.mpr hfirst)
  have hdiffer := mt (horder.export_unique hx.coherent hxe' hxe) hne
  omega

section

variable (h : Strikes x c y bs) (hy : y.Coherent) {e : ExportId} {s : Export}
  (he : y.exports.find? e = some s)

include h hy he

/-- The export that is struck was live, and so it was not inert before. -/
theorem inert_strike (hx : x.Registered) (e' : ExportId) (d : ClientId) :
    (y.retireExport e .inert).inertExports.find? e' = some d ↔
      x.inertExports.find? e' = some d ∨ ∃ s', x.exports.find? e' = some s' ∧
        (y.retireExport e .inert).exports.find? e' = none ∧ s'.client = d := by
  have hxe := h.exported he
  simp only [find?_struck_iff hy e]
  rw [retireExport_inert_eq hy he, Table.find?_insert]
  split
  · next heq =>
    subst heq
    have hapart : x.inertExports.find? e = none :=
      hx.apart (o := .exported e) (c := s.client) (by simp [clientOf?, hxe])
    simp [hapart, hxe]
  · next hne => simp [h.inert, Ne.symm hne]

theorem orphaned_strike {i : ImportId} {r : Import} (hi : x.imports.find? i = some r)
    (hb : (y.retireExport e .inert).Bereft r) :
    (y.retireExport e .inert).imports.find? i = some r.orphan := by
  rw [find?_imports_retireExport_inert hy he]
  by_cases hb' : y.Bereft r
  · have horphan : r.orphan.source ≠ some e := fun hs => by cases hs
    rw [h.orphaned hi hb', Option.map_some, if_neg horphan]
  · have hse := ((bereft_strike hy e r).mp hb).resolve_right hb'
    rcases h.kept hi hb' with hyi | hyi <;> rw [hyi, Option.map_some]
    · rw [if_pos hse]
    · rw [if_pos (show (r.disown c).source = some e from hse)]
      rfl

theorem kept_strike {i : ImportId} {r : Import} (hi : x.imports.find? i = some r)
    (hb : ¬ (y.retireExport e .inert).Bereft r) :
    (y.retireExport e .inert).imports.find? i = some r ∨
      (y.retireExport e .inert).imports.find? i = some (r.disown c) := by
  have hne : r.source ≠ some e := fun hse => hb ((bereft_strike hy e r).mpr (Or.inl hse))
  have hb' : ¬ y.Bereft r := fun hb' => hb ((bereft_strike hy e r).mpr (Or.inr hb'))
  rw [find?_imports_retireExport_inert hy he]
  refine (h.kept hi hb').imp (fun hyi => ?_) (fun hyi => ?_)
  · rw [hyi, Option.map_some, if_neg hne]
  · rw [hyi, Option.map_some, if_neg (show (r.disown c).source ≠ some e from hne)]

theorem listed_strike (e' : ExportId) (i : ImportId) (d : ClientId) :
    (e', i, d) ∈ bs ++ y.importersWithClients e s ↔ ∃ s' r, x.exports.find? e' = some s' ∧
      (y.retireExport e .inert).exports.find? e' = none ∧ x.imports.find? i = some r ∧
        r.source = some e' ∧ r.client = d := by
  rw [List.mem_append, h.listed, mem_importersWithClients_iff hy he, h.source_iff he]
  simp only [find?_struck_iff hy e]
  constructor
  · rintro (⟨s', r, he', hn, hi, hse, hd⟩ | ⟨rfl, r, hi, hse, hd⟩)
    · exact ⟨s', r, he', Or.inr hn, hi, hse, hd⟩
    · exact ⟨s, r, h.exported he, Or.inl rfl, hi, hse, hd⟩
  · rintro ⟨s', r, he', rfl | hn, hi, hse, hd⟩
    · exact Or.inr ⟨rfl, r, hi, hse, hd⟩
    · exact Or.inl ⟨s', r, he', hn, hi, hse, hd⟩

/-- What was struck before was made before this export, whose own imports come in order. -/
theorem ordered_strike (hs : s.surface = c) :
    (bs ++ y.importersWithClients e s).Pairwise MadeBefore := by
  refine List.pairwise_append.mpr
    ⟨h.ordered, (importersWithClients_ordered hy he).imp Or.inr, ?_⟩
  rintro ⟨e₁, i₁, d₁⟩ ha ⟨e₂, i₂, d₂⟩ hb
  obtain ⟨s₁, -, he₁, hn₁, -⟩ := (h.listed _ _ _).mp ha
  obtain ⟨rfl, -⟩ := (mem_importersWithClients_iff hy he _ _ _).mp hb
  exact Or.inl (h.earlier he₁ hn₁ he hs)

/-- The first export that is left on the surface is struck. -/
theorem strike (hx : x.Sound) (horder : x.InOrder) (hs : s.surface = c)
    (hfirst : ∀ {e' s'}, y.exports.find? e' = some s' → s'.surface = c →
      s.unmap.listener.val ≤ s'.unmap.listener.val) :
    Strikes x c (y.retireExport e .inert) (bs ++ y.importersWithClients e s) where
  rest := by
    rw [retireExport_inert_eq hy he]
    exact h.rest.trans ⟨_, _, _, _, _, _, rfl⟩
  exported := fun he' => h.exported (exported_strike hy he').2
  struck := by
    intro e' s' he' hn
    rcases (find?_struck_iff hy e e').mp hn with rfl | hn
    · rw [h.exported he] at he'
      cases he'
      exact hs
    · exact h.struck he' hn
  inert := inert_strike h hy he hx.registered
  absent := fun hi => by
    rw [find?_imports_retireExport_inert hy he, h.absent hi]
    rfl
  orphaned := orphaned_strike h hy he
  kept := kept_strike h hy he
  events := by
    rw [events_retireExport_inert hy he, h.events, List.map_append, List.append_assoc]
  ordered := ordered_strike h hy he hs
  listed := listed_strike h hy he
  earlier := by
    intro e₁ s₁ e₂ s₂ he₁ hn₁ he₂ hs₂
    obtain ⟨hne, he₂'⟩ := exported_strike hy he₂
    rcases (find?_struck_iff hy e e₁).mp hn₁ with rfl | hn₁
    · exact h.serial_lt_of_first hx horder he he₂' hne (hfirst he₂' hs₂)
    · exact h.earlier he₁ hn₁ he₂' hs₂

end

end Strikes

/-! ## The unmap as a whole -/

/-- The surface that is exported under the source of an import. -/
def sourceSurface? (x : Exchange) (r : Import) : Option SurfaceId :=
  (r.source.bind x.exports.find?).map Export.surface

/-- A surface has one parent. -/
theorem Coherent.parent_unique (h : x.Coherent) {c p q : SurfaceId} (hp : x.IsChildOf c p)
    (hq : x.IsChildOf c q) : p = q := by
  obtain ⟨i, r, l, e, s, hi, hl, hc, hs, he, rfl⟩ := hp
  obtain ⟨j, r', m, e', s', hj, hm, hc', hs', he', rfl⟩ := hq
  obtain ⟨rfl, -⟩ := h.links.link_unique hi hj hl hm (hc.trans hc'.symm)
  rw [hi] at hj
  cases hj
  rw [hs] at hs'
  cases hs'
  rw [he] at he'
  cases he'
  rfl

/-- Where a surface is neither exported nor a child, nobody listens to it. -/
theorem Coherent.silent (h : x.Coherent)
    (hexports : ∀ e s, x.exports.find? e = some s → s.surface ≠ c) (hchild : ¬ x.IsChild c)
    {t : Subscription} (w : Watcher) (ht : t.surface = c) : ¬ x.subscriptions.Listens t w := by
  intro hw
  cases h.watched.listens_iff.mp hw with
  | exportUnmap he =>
    exact hexports _ _ he ((h.links.exportPlaced he).unmap_surface.symm.trans ht)
  | childUnmap hi hl =>
    exact hchild ⟨_, _, _, hi, hl, (h.links.linkPlaced hi hl).unmap_surface.symm.trans ht⟩
  | childSetParent hi hl =>
    exact hchild ⟨_, _, _, hi, hl, (h.links.linkPlaced hi hl).setParent_surface.symm.trans ht⟩

section Unmapped

variable (h : x.Sound) (horder : x.InOrder) (c : SurfaceId)

include h horder

theorem strikes_unmapped : ∃ bs, Strikes x c (x.unmapped c) bs := by
  refine (h.unmapped_induction_ordered c (P := fun y => ∃ bs, Strikes x c y bs)
    ⟨[], .refl h.coherent c⟩ ?_ ?_).2.1
  · rintro y e s hy ⟨bs, hbs⟩ he hs hfirst
    exact ⟨_, hbs.strike hy.coherent he h horder hs hfirst⟩
  · rintro y i r l - ⟨bs, hbs⟩ - - rfl
    exact ⟨bs, hbs.unlink l.tokens⟩

omit horder in
/-- Neither an export nor a link is left on the surface. -/
theorem cleared_unmapped : (x.unmapped c).Sound ∧
    (∀ e s, (x.unmapped c).exports.find? e = some s → s.surface ≠ c) ∧
    ¬ (x.unmapped c).IsChild c := by
  obtain ⟨hsound, -, hcleared⟩ := h.unmapped_induction c (P := fun _ => True) trivial
    (fun _ _ _ _ => trivial) (fun _ _ _ _ _ => trivial)
  exact ⟨hsound, hcleared⟩

/-- The exports of the surface are struck and no others. -/
theorem struck_iff {e : ExportId} {s : Export} (he : x.exports.find? e = some s) :
    (x.unmapped c).exports.find? e = none ↔ s.surface = c := by
  obtain ⟨bs, hbs⟩ := strikes_unmapped h horder c
  obtain ⟨-, hcleared, -⟩ := cleared_unmapped h c
  refine ⟨hbs.struck he, fun hs => ?_⟩
  cases hy : (x.unmapped c).exports.find? e with
  | none => rfl
  | some s' =>
    have hxe := hbs.exported hy
    rw [he] at hxe
    cases hxe
    exact absurd hs (hcleared e s hy)

theorem find?_exports_unmapped (e : ExportId) (s : Export) :
    (x.unmapped c).exports.find? e = some s ↔ x.exports.find? e = some s ∧ s.surface ≠ c := by
  obtain ⟨bs, hbs⟩ := strikes_unmapped h horder c
  constructor
  · intro he
    have hxe := hbs.exported he
    refine ⟨hxe, fun hs => ?_⟩
    rw [(struck_iff h horder c hxe).mpr hs] at he
    cases he
  · rintro ⟨hxe, hs⟩
    obtain ⟨s', he⟩ := Option.ne_none_iff_exists'.mp (mt (struck_iff h horder c hxe).mp hs)
    have hxe' := hbs.exported he
    rw [hxe] at hxe'
    cases hxe'
    exact he

/-- Imports lose their source and their children, or at most their link on the surface. -/
theorem find?_imports_unmapped (i : ImportId) : (x.unmapped c).imports.find? i =
    (x.imports.find? i).map
      (fun r => if x.sourceSurface? r = some c then r.orphan else r.disown c) := by
  obtain ⟨bs, hbs⟩ := strikes_unmapped h horder c
  obtain ⟨-, -, hchild⟩ := cleared_unmapped h c
  cases hi : x.imports.find? i with
  | none => exact hbs.absent hi
  | some r =>
    have hbereft : (x.unmapped c).Bereft r ↔ x.sourceSurface? r = some c := by
      constructor
      · rintro ⟨e, hs, hn⟩
        obtain ⟨s, he, -⟩ := h.coherent.links.listed hi hs
        simp [sourceSurface?, hs, he, (struck_iff h horder c he).mp hn]
      · intro hs
        obtain ⟨s, hs, hc⟩ := Option.map_eq_some_iff.mp hs
        obtain ⟨e, hs, he⟩ := Option.bind_eq_some_iff.mp hs
        exact ⟨e, hs, (struck_iff h horder c he).mpr hc⟩
    rw [Option.map_some]
    split
    · next hs => exact hbs.orphaned hi (hbereft.mpr hs)
    · next hs =>
      rcases hbs.kept hi (mt hbereft.mp hs) with hy | hy
      · rw [hy, disown_of_unlinked fun l hl hc => hchild ⟨i, r, l, hy, hl, hc⟩]
      · exact hy

/-- The children that are left are those of other surfaces, and the surface is none of them. -/
theorem isChildOf_unmapped_iff (c' p : SurfaceId) :
    (x.unmapped c).IsChildOf c' p ↔ x.IsChildOf c' p ∧ c' ≠ c ∧ p ≠ c := by
  constructor
  · rintro ⟨i, r', l, e, s, hi, hl, hc, hs, he, rfl⟩
    rw [find?_imports_unmapped h horder] at hi
    obtain ⟨r, hr, rfl⟩ := Option.map_eq_some_iff.mp hi
    obtain ⟨he, hsurface⟩ := (find?_exports_unmapped h horder c e s).mp he
    split at hl
    · cases hl
    · next hkept =>
      rw [if_neg hkept] at hs
      obtain ⟨hl, hne⟩ := (mem_children_disown_iff r c l).mp hl
      exact ⟨⟨i, r, l, e, s, hr, hl, hc, hs, he, rfl⟩, hc ▸ hne, hsurface⟩
  · rintro ⟨⟨i, r, l, e, s, hi, hl, hc, hs, he, rfl⟩, hne, hsurface⟩
    have hkept : ¬ x.sourceSurface? r = some c := by
      simpa [sourceSurface?, hs, he] using hsurface
    refine ⟨i, r.disown c, l, e, s, ?_, ?_, hc, hs,
      (find?_exports_unmapped h horder c e s).mpr ⟨he, hsurface⟩, rfl⟩
    · rw [find?_imports_unmapped h horder, hi, Option.map_some, if_neg hkept]
    · exact (mem_children_disown_iff r c l).mpr ⟨hl, hc ▸ hne⟩

/-- The shell clears the parent of the surface and of those whose parent it was. -/
theorem parentChanges_unmapped : ∃ cs, (x.unmapped c).parentChanges = x.parentChanges ++ cs ∧
    (cs.map ParentChange.surface).Nodup ∧ ∀ ch, ch ∈ cs ↔
      ch.parent = none ∧ ((ch.surface = c ∧ x.IsChild c) ∨ x.IsChildOf ch.surface c) := by
  obtain ⟨cs, hcs⟩ := h.frees_unmapped c
  refine ⟨cs, hcs.parentChanges, hcs.surfaces_nodup, fun ch => ?_⟩
  rw [hcs.cleared]
  simp only [isChildOf_unmapped_iff h horder]
  refine and_congr_right fun _ => ?_
  constructor
  · rintro ⟨⟨p, hp⟩, hn⟩
    by_cases hc : ch.surface = c
    · exact Or.inl ⟨hc, (h.coherent.isChild_iff c).mpr ⟨p, hc ▸ hp⟩⟩
    · by_cases hpc : p = c
      · exact Or.inr (hpc ▸ hp)
      · exact absurd ⟨hp, hc, hpc⟩ (hn p)
  · rintro (⟨hc, hchild⟩ | hp)
    · obtain ⟨p, hp⟩ := (h.coherent.isChild_iff c).mp hchild
      exact ⟨⟨p, hc ▸ hp⟩, fun q hq => hq.2.1 hc⟩
    · exact ⟨⟨c, hp⟩, fun q hq => hq.2.2 (h.coherent.parent_unique hq.1 hp)⟩

end Unmapped

/-- What an unmap of a surface makes of an exchange, and all that it does. -/
structure UnmapEffect (x : Exchange) (c : SurfaceId) (y : Exchange) : Prop where
  onlyLinks : x.OnlyLinks y
  exports : ∀ e s, y.exports.find? e = some s ↔ x.exports.find? e = some s ∧ s.surface ≠ c
  inertExports : ∀ e d, y.inertExports.find? e = some d ↔ x.inertExports.find? e = some d ∨
    ∃ s, x.exports.find? e = some s ∧ s.surface = c ∧ s.client = d
  /-- Whose export has become inert owns it still. -/
  owned : ∀ e s, x.exports.find? e = some s → s.surface = c →
    y.ownership.owns s.client (.exported e) = true
  unlinked : ¬ y.IsChild c
  silent : ∀ t w, t.surface = c → ¬ y.subscriptions.Listens t w
  /-- An import of an export of the surface is orphaned, any other loses its link on it. -/
  imports : ∀ i, y.imports.find? i = (x.imports.find? i).map
    (fun r => if x.sourceSurface? r = some c then r.orphan else r.disown c)
  /-- The clients of those imports are told, in the order of the exports and then the imports. -/
  events : ∃ bs : List (ExportId × ImportId × ClientId), y.events = x.events ++ bs.map parting ∧
    bs.Pairwise MadeBefore ∧ ∀ e i d, (e, i, d) ∈ bs ↔
      ∃ s r, x.exports.find? e = some s ∧ s.surface = c ∧
        x.imports.find? i = some r ∧ r.source = some e ∧ r.client = d
  /-- The parent of the surface is cleared, if it had one, and that of every child of it. -/
  parentChanges : ∃ cs, y.parentChanges = x.parentChanges ++ cs ∧
    (cs.map ParentChange.surface).Nodup ∧ ∀ ch, ch ∈ cs ↔ ch.parent = none ∧
      ((ch.surface = c ∧ x.IsChild c) ∨ x.IsChildOf ch.surface c)
  again : y.unmapped c = y

/-- An unmap makes the exports of the surface inert, ends the links on it and leaves the imports
of those exports without source and children. A second unmap does nothing. -/
theorem Reachable.unmapped_effect (h : x.Reachable) (c : SurfaceId) :
    UnmapEffect x c (x.unmapped c) := by
  have hsound := h.sound
  obtain ⟨bs, hbs⟩ := strikes_unmapped hsound h.inOrder c
  obtain ⟨hy, hexports, hchild⟩ := cleared_unmapped hsound c
  have hstruck : ∀ {e s}, x.exports.find? e = some s →
      ((x.unmapped c).exports.find? e = none ↔ s.surface = c) := struck_iff hsound h.inOrder c
  have hinert : ∀ e d, (x.unmapped c).inertExports.find? e = some d ↔
      x.inertExports.find? e = some d ∨
        ∃ s, x.exports.find? e = some s ∧ s.surface = c ∧ s.client = d := by
    intro e d
    rw [hbs.inert]
    refine or_congr_right (exists_congr fun s => and_congr_right fun he => ?_)
    rw [hstruck he]
  have hsilent : ∀ t w, t.surface = c → ¬ (x.unmapped c).subscriptions.Listens t w :=
    fun t w ht => hy.coherent.silent hexports hchild w ht
  constructor
  case onlyLinks => exact hbs.rest
  case exports => exact find?_exports_unmapped hsound h.inOrder c
  case inertExports => exact hinert
  case owned =>
    intro e s he hs
    exact hy.registered.owns_of_inert (o := .exported e)
      ((hinert e _).mpr (Or.inr ⟨s, he, hs, rfl⟩))
  case unlinked => exact hchild
  case silent => exact hsilent
  case imports => exact find?_imports_unmapped hsound h.inOrder c
  case events =>
    refine ⟨bs, hbs.events, hbs.ordered, fun e i d => ?_⟩
    rw [hbs.listed]
    refine exists_congr fun s => exists_congr fun r => and_congr_right fun he => ?_
    rw [hstruck he]
  case parentChanges => exact parentChanges_unmapped hsound h.inOrder c
  case again => exact deliver_of_silent (fun {t w} ht _ => hsilent t w ht) onUnmap

/-- Client 1 exports a surface twice. Client 2 imports both exports, makes another surface a child
of the first and the exported surface a child of itself. -/
def selfParented : List Operation :=
  [.bindExporter ⟨1⟩, .bindImporter ⟨2⟩, .exportSurface ⟨1⟩ ⟨5⟩, .exportSurface ⟨1⟩ ⟨5⟩,
    .importHandle ⟨2⟩ "first", .importHandle ⟨2⟩ "second", .setParentOf ⟨⟨2⟩, 5⟩ ⟨7⟩,
    .setParentOf ⟨⟨2⟩, 6⟩ ⟨5⟩]

theorem unmapped_effect_selfParented : (rehearse selfParented).2.Reachable ∧
    ∃ y, (rehearse selfParented).2.unmapped ⟨5⟩ = y ∧
      y.events = (rehearse selfParented).2.events ++
        [⟨⟨2⟩, .destroyed ⟨⟨2⟩, 5⟩⟩, ⟨⟨2⟩, .destroyed ⟨⟨2⟩, 6⟩⟩] ∧
      y.parentChanges = (rehearse selfParented).2.parentChanges ++ [⟨⟨7⟩, none⟩, ⟨⟨5⟩, none⟩] ∧
      ¬ y.IsChild ⟨5⟩ ∧ y.unmapped ⟨5⟩ = y := by
  have hreach := reachable_rehearse selfParented
  have heffect := hreach.unmapped_effect ⟨5⟩
  exact ⟨hreach, _, rfl, rfl, rfl, heffect.unlinked, heffect.again⟩

end SurfaceExchange.Exchange
