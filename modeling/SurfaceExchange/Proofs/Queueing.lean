import SurfaceExchange.Proofs.Endings

/-!
# What an operation queues

Of the events that an operation queues, those about an import are one notice
if it leaves the import without an export (`Transition.Deprives`) and none
otherwise; those about an export are its handle if the operation makes it.
-/

namespace SurfaceExchange

namespace Exchange

variable {x y : Exchange} {op : Operation} {a : Answer} {ds : List Delivery}

/-- The operation imports a handle that no live export has. -/
def Unmatched (x : Exchange) (op : Operation) : Prop :=
  ∃ handle, op.handle? = some handle ∧ ∀ e s, x.exports.find? e = some s → s.handle.text ≠ handle

/-- The operation queues these events. What it makes is new; from all else it may take. -/
structure Queues (x : Exchange) (op : Operation) (a : Answer) (y : Exchange)
    (ds : List Delivery) : Prop where
  events : a.taken ++ y.events = x.events ++ ds
  nextId : x.nextId ≤ y.nextId
  imported : ∀ {i r'}, a.made? ≠ some (.imported i) → y.imports.find? i = some r' →
    ∃ r, x.imports.find? i = some r ∧ r'.client = r.client ∧
      (r'.source = r.source ∨ r'.source = none)
  lost : ∀ {i r r' e}, x.imports.find? i = some r → y.imports.find? i = some r' →
    r.source = some e → r'.source = none → y.exports.find? e = none
  notices : ∀ {i}, a.made? ≠ some (.imported i) →
    ds.filter (Delivery.isNotice i) = lossOf i (x.imports.find? i) (y.imports.find? i)
  newImport : ∀ {i}, a.made? = some (.imported i) → x.nextId ≤ i.serial ∧ i.serial < y.nextId ∧
    ∃ r, y.imports.find? i = some r ∧
      (x.importers.find? i.importer).map Registry.client = some r.client ∧
      (r.source = none ↔ x.Unmatched op) ∧
      ds.filter (Delivery.isNotice i) = if r.source.isSome then [] else [⟨r.client, .destroyed i⟩]
  exported : ∀ {e s'}, a.made? ≠ some (.exported e) → y.exports.find? e = some s' →
    ∃ s, x.exports.find? e = some s ∧ s'.client = s.client ∧ s'.handle = s.handle
  handles : ∀ {e}, a.made? ≠ some (.exported e) → ds.filter (Delivery.isHandleOf e) = []
  newExport : ∀ {e}, a.made? = some (.exported e) → x.nextId ≤ e.serial ∧ e.serial < y.nextId ∧
    ∃ s, y.exports.find? e = some s ∧
      (x.exporters.find? e.exporter).map Registry.client = some s.client ∧
      a.taken = [] ∧ ds = [⟨s.client, .handle e s.handle⟩]

theorem Queues.absent_import (hq : Queues x op a y ds) {i : ImportId}
    (hold : a.made? ≠ some (.imported i)) (hi : x.imports.find? i = none) :
    y.imports.find? i = none := by
  cases hi' : y.imports.find? i with
  | none => rfl
  | some r' =>
    obtain ⟨r, hr, -⟩ := hq.imported hold hi'
    rw [hi] at hr
    cases hr

theorem Queues.absent_export (hq : Queues x op a y ds) {e : ExportId}
    (hold : a.made? ≠ some (.exported e)) (he : x.exports.find? e = none) :
    y.exports.find? e = none := by
  cases he' : y.exports.find? e with
  | none => rfl
  | some s' =>
    obtain ⟨s, hs, -⟩ := hq.exported hold he'
    rw [he] at hs
    cases hs

/-- Where nothing is made, fading is all there is. -/
theorem Queues.of_fades (hexport : ∀ e, a.made? ≠ some (.exported e))
    (himport : ∀ i, a.made? ≠ some (.imported i))
    (hf : Fades x { y with events := a.taken ++ y.events } ds) : Queues x op a y ds where
  events := hf.events
  nextId := hf.nextId
  imported := fun _ hi => hf.imported hi
  lost := hf.lost
  notices := fun _ => hf.notices _
  newImport := fun hi => absurd hi (himport _)
  exported := by
    intro e s' _ he
    obtain ⟨s, he, hc, hh, -⟩ := hf.exported he
    exact ⟨s, he, hc, hh⟩
  handles := fun _ => hf.handles _
  newExport := fun he => absurd he (hexport _)

theorem Queues.of_plain (ha : a.Plain) (hf : Fades x y ds) : Queues x op a y ds :=
  .of_fades ha.no_export ha.no_import (hf.congr rfl rfl (by rw [ha.taken]; rfl) rfl)

/-- That a client is told of its error comes before what its going brings. -/
theorem Fades.blame {handles : HandleStream} {c : ClientId} {err : ProtocolError}
    (h : Fades ({ x with handles }.send c (.error err)) y ds) :
    Fades x y (⟨c, .error err⟩ :: ds) where
  events := h.events.trans (List.append_assoc _ _ _)
  nextId := h.nextId
  exported := h.exported
  imported := h.imported
  lost := h.lost
  notices := fun i => h.notices i
  handles := fun e => h.handles e

/-! ## Objects that are made -/

theorem queues_addExport {p : ExporterId} {g : Registry} (hg : x.exporters.find? p = some g)
    (handles : HandleStream) (surface : SurfaceId) (handle : Handle) :
    Queues x op (.outcome (.ok (some (.exported ⟨p, x.nextId⟩))))
      ({ x with handles }.addExport p g surface handle).2
      [⟨g.client, .handle ⟨p, x.nextId⟩ handle⟩] where
  events := rfl
  nextId := Nat.le_succ _
  imported := fun _ hi => ⟨_, hi, rfl, Or.inl rfl⟩
  lost := by
    intro i r r' e hi hi' hs hs'
    rw [show x.imports.find? i = some r' from hi', Option.some.injEq] at hi
    rw [← hi, hs'] at hs
    cases hs
  notices := by
    intro i _
    exact ((Fades.refl x).notices i).trans rfl
  newImport := by
    intro i hi
    cases hi
  exported := by
    intro e s' hne he
    rw [addExport_eq, Table.find?_insert, if_neg fun heq => hne (by rw [← heq]; rfl)] at he
    exact ⟨s', he, rfl, rfl⟩
  handles := by
    intro e hne
    have hother : (⟨p, x.nextId⟩ : ExportId) ≠ e := fun heq => hne (by rw [← heq]; rfl)
    simp [Delivery.isHandleOf, hother]
  newExport := by
    intro e he
    cases he
    refine ⟨Nat.le_refl _, Nat.lt_succ_self _, _, Table.find?_insert_self _ _ _, ?_, rfl, rfl⟩
    rw [hg]
    rfl

theorem unmatched_iff {handle : String} (hop : op.handle? = some handle) :
    x.Unmatched op ↔ x.resolve handle = none := by
  rw [resolve_eq_none_iff]
  constructor
  · rintro ⟨handle', hop', hnone⟩
    rw [hop, Option.some.injEq] at hop'
    rwa [hop']
  · exact fun hnone => ⟨handle, hop, hnone⟩

theorem queues_addImport (h : x.Sound) {m : ImporterId} {g : Registry} {handle : String}
    (hg : x.importers.find? m = some g) (hop : op.handle? = some handle) :
    Queues x op (.outcome (.ok (some (.imported ⟨m, x.nextId⟩)))) (x.addImport m g handle).2
      (x.firstNotice m g handle) := by
  have hnew : ∀ {i}, (Answer.outcome (.ok (some (.imported ⟨m, x.nextId⟩)))).made? ≠
      some (.imported i) → (⟨m, x.nextId⟩ : ImportId) ≠ i := by
    intro i hne heq
    exact hne (by rw [← heq]; rfl)
  have hkept : ∀ {i}, (⟨m, x.nextId⟩ : ImportId) ≠ i →
      (x.addImport m g handle).2.imports.find? i = x.imports.find? i := by
    intro i hne
    rw [addImport_eq]
    exact Table.find?_insert_of_ne hne _ _
  constructor
  case events => rw [addImport_eq]; rfl
  case nextId => rw [addImport_eq]; exact Nat.le_succ _
  case imported =>
    intro i r' hne hi
    rw [hkept (hnew hne)] at hi
    exact ⟨r', hi, rfl, Or.inl rfl⟩
  case lost =>
    intro i r r' e hi hi' hs hs'
    have hne : (⟨m, x.nextId⟩ : ImportId) ≠ i := fun heq => by
      rw [← heq, h.find?_imports_next] at hi
      cases hi
    rw [hkept hne, hi, Option.some.injEq] at hi'
    rw [hi', hs'] at hs
    cases hs
  case notices =>
    intro i hne
    have hnone : (x.firstNotice m g handle).filter (Delivery.isNotice i) = [] := by
      unfold firstNotice
      split
      · rfl
      · simp [Delivery.isNotice, hnew hne]
    rw [hkept (hnew hne), hnone]
    exact (Fades.refl x).notices i
  case newImport =>
    intro i hi
    cases hi
    rw [unmatched_iff hop, addImport_eq]
    refine ⟨Nat.le_refl _, Nat.lt_succ_self _, _, Table.find?_insert_self _ _ _, ?_, Iff.rfl, ?_⟩
    · rw [hg]
      rfl
    · unfold firstNotice nextImport
      split <;> simp [Delivery.isNotice]
  case exported =>
    intro e s' _ he
    rw [addImport_eq, Table.find?_mapValues] at he
    obtain ⟨s, hs, rfl⟩ := Option.map_eq_some_iff.mp he
    exact ⟨s, hs, rfl, rfl⟩
  case handles =>
    intro e _
    unfold firstNotice
    split <;> rfl
  case newExport =>
    intro e he
    cases he

theorem Change.queues (h : x.Sound) (hxy : Change x op a y) : ∃ ds, Queues x op a y ds := by
  cases hxy with
  | ebbs hxy hplain =>
    obtain ⟨⟨ds, hfades⟩, -⟩ := Ebbs.fades h hxy
    exact ⟨ds, .of_plain hplain hfades⟩
  | takeEvents =>
    exact ⟨[], .of_fades nofun nofun ((Fades.refl x).congr rfl rfl (List.append_nil _) rfl)⟩
  | addExport handles surface hg _ _ => exact ⟨_, queues_addExport hg handles surface _⟩
  | addImport hg _ hop => exact ⟨_, queues_addImport h hg hop⟩
  | retireImport i =>
    exact ⟨[], .of_plain ⟨nofun, nofun, rfl⟩ (losesImports_retireImport h.coherent i _).fades⟩
  | retireImporter m =>
    exact ⟨[], .of_plain ⟨nofun, nofun, rfl⟩ (losesImports_retireImporter h.coherent m _).fades⟩
  | clientGone c =>
    rw [clientGone_eq h.coherent h.registered]
    exact ⟨_, .of_plain Answer.plain_silent (Fades.withoutClient h.coherent c)⟩
  | expel handles c err hplain =>
    have hblamed := h.blame handles c err
    rw [clientGone_eq hblamed.coherent hblamed.registered]
    exact ⟨_, .of_plain hplain (Fades.withoutClient hblamed.coherent c).blame⟩

end Exchange

namespace Transition

variable {L : Type} {t : Transition L} {ds : List Delivery} {i : ImportId} {r r' : Import}

/-- The operation made the import. -/
def Imports (t : Transition L) (i : ImportId) : Prop := t.answer.made? = some (.imported i)

/-- The operation made the export. -/
def Exports (t : Transition L) (e : ExportId) : Prop := t.answer.made? = some (.exported e)

/-- The operation destroyed the export that the import was resolved to, and the import is still
there. Where both go with one client, the import goes first. -/
def Breaks (t : Transition L) (i : ImportId) : Prop :=
  t.after.imports.find? i ≠ none ∧ ∃ r e s, t.before.imports.find? i = some r ∧
    r.source = some e ∧ t.before.exports.find? e = some s ∧ Ends t.operation t.answer e s

/-- The operation left the import without an export, as a new one or by destroying it. -/
def Deprives (t : Transition L) (i : ImportId) : Prop :=
  (t.Imports i ∧ t.before.Unmatched t.operation) ∨ t.Breaks i

/-- The transition's operation queued these events. -/
def Queues (t : Transition L) (ds : List Delivery) : Prop :=
  t.before.Queues t.operation t.answer t.after ds

theorem Valid.sound (h : t.before.Sound) (hv : t.Valid) : t.after.Sound := h.perform hv

theorem Valid.queues (h : t.before.Sound) (hv : t.Valid) : ∃ ds, t.Queues ds :=
  (Exchange.perform_change h hv).queues h

/-- An import that is there before and after is broken if and only if it has lost its source. -/
theorem breaks_iff (h : t.before.Sound) (hv : t.Valid) (hq : t.Queues ds)
    (hi : t.before.imports.find? i = some r) (hi' : t.after.imports.find? i = some r')
    (hs : r'.source = r.source ∨ r'.source = none) :
    t.Breaks i ↔ r.source.isSome = true ∧ r'.source = none := by
  constructor
  · rintro ⟨-, r₀, e, s, hi₀, hse, he, hends⟩
    rw [hi] at hi₀
    cases hi₀
    refine ⟨by rw [hse]; rfl, hs.resolve_left fun hsame => ?_⟩
    -- an import that kept its source would name an export that is gone
    obtain ⟨s', he', -⟩ := (hv.sound h).coherent.links.listed hi' (hsame.trans hse)
    rw [(Exchange.ends_iff h hv he).mp hends] at he'
    cases he'
  · rintro ⟨hsome, hnone⟩
    obtain ⟨e, hse⟩ := Option.isSome_iff_exists.mp hsome
    obtain ⟨s, he, -⟩ := h.coherent.links.listed hi hse
    have hends := (Exchange.ends_iff h hv he).mpr (hq.lost hi hi' hse hnone)
    exact ⟨by rw [hi']; exact Option.some_ne_none r', r, e, s, hi, hse, he, hends⟩

/-- A new import has a number that no earlier one has. -/
theorem Imports.absent (h : t.before.Sound) (hq : t.Queues ds) (hi : t.Imports i) :
    t.before.imports.find? i = none := by
  cases hb : t.before.imports.find? i with
  | none => rfl
  | some r =>
    have hlt := h.serial_lt hb
    have hle := (hq.newImport hi).1
    omega

/-- What is left without an export is told so, once. -/
theorem Deprives.told (h : t.before.Sound) (hv : t.Valid) (hq : t.Queues ds)
    (hd : t.Deprives i) : ∃ r, t.after.imports.find? i = some r ∧
      ds.filter (Delivery.isNotice i) = [⟨r.client, .destroyed i⟩] := by
  rcases hd with ⟨hi, hunmatched⟩ | hbreaks
  · obtain ⟨-, -, r, hr, -, hsource, hfilter⟩ := hq.newImport hi
    rw [hsource.mpr hunmatched] at hfilter
    exact ⟨r, hr, hfilter⟩
  · have hbroken := hbreaks
    obtain ⟨hlive, r, e, s, hi, hse, -⟩ := hbroken
    obtain ⟨r', hi'⟩ := Option.ne_none_iff_exists'.mp hlive
    have hold : ¬ t.Imports i := fun hnew => by
      rw [hnew.absent h hq] at hi
      cases hi
    obtain ⟨r₀, hi₀, hc, hs⟩ := hq.imported hold hi'
    rw [hi] at hi₀
    cases hi₀
    obtain ⟨hsome, hnone⟩ := (breaks_iff h hv hq hi hi' hs).mp hbreaks
    refine ⟨r', hi', ?_⟩
    rw [hq.notices hold, hi, hi', lossOf, if_pos ⟨hsome, hnone⟩, hc]

/-- Nothing else is told. -/
theorem silent_of_not_deprives (h : t.before.Sound) (hv : t.Valid) (hq : t.Queues ds)
    (hd : ¬ t.Deprives i) : ds.filter (Delivery.isNotice i) = [] := by
  by_cases hnew : t.Imports i
  · obtain ⟨-, -, r, -, -, hsource, hfilter⟩ := hq.newImport hnew
    cases hs : r.source with
    | none => exact absurd (Or.inl ⟨hnew, hsource.mp hs⟩) hd
    | some e => rwa [hs] at hfilter
  · rw [hq.notices hnew]
    cases hi : t.before.imports.find? i with
    | none => rfl
    | some r =>
      cases hi' : t.after.imports.find? i with
      | none => rfl
      | some r' =>
        obtain ⟨r₀, hi₀, -, hs⟩ := hq.imported hnew hi'
        rw [hi] at hi₀
        cases hi₀
        rw [lossOf, if_neg fun hlost => hd (Or.inr ((breaks_iff h hv hq hi hi' hs).mpr hlost))]

/-- A live import has no source if and only if it was left without one now or earlier. -/
theorem source_iff (h : t.before.Sound) (hv : t.Valid) (hq : t.Queues ds)
    (hi' : t.after.imports.find? i = some r') : r'.source = none ↔
      t.Deprives i ∨ ∃ r, t.before.imports.find? i = some r ∧ r.source = none := by
  by_cases hnew : t.Imports i
  · obtain ⟨-, -, r, hr, -, hsource, -⟩ := hq.newImport hnew
    rw [hi'] at hr
    cases hr
    have habsent := hnew.absent h hq
    simp [hsource, Deprives, Breaks, hnew, habsent]
  · obtain ⟨r, hi, -, hs⟩ := hq.imported hnew hi'
    have hbreaks := breaks_iff h hv hq hi hi' hs
    rw [Deprives, hbreaks]
    rcases hs with hs | hs <;> cases hsource : r.source <;> simp [hnew, hi, hs, hsource]

end Transition

end SurfaceExchange
