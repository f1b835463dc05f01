import SurfaceExchange.Proofs.Leaving

/-!
# Exports and imports that fade

`Fades x y ds` compares an exchange with one in which no export or import is
new: exports and imports may be gone, imports may have lost their source, and
`ds` are the events queued in between. For every import they are one notice if
it is still there without the source that it had, and nothing otherwise.
-/

namespace SurfaceExchange

namespace Delivery

/-- The event tells that an import has no source, or has lost it. -/
def isNotice (i : ImportId) (d : Delivery) : Bool := decide (d.event = .destroyed i)

/-- The event gives the handle of an export. -/
def isHandleOf (e : ExportId) (d : Delivery) : Bool :=
  match d.event with
  | .handle e' _ => decide (e' = e)
  | _ => false

/-- The event is an error, which is about the connection and not about one object's state. -/
def isError (d : Delivery) : Bool :=
  match d.event with
  | .error _ => true
  | _ => false

theorem not_isNotice_of_isError {d : Delivery} (h : d.isError = true) (i : ImportId) :
    d.isNotice i = false := by
  obtain ⟨c, e⟩ := d
  cases e with
  | error e => simp [isNotice]
  | _ => cases h

theorem not_isHandleOf_of_isError {d : Delivery} (h : d.isError = true) (e : ExportId) :
    d.isHandleOf e = false := by
  obtain ⟨c, e'⟩ := d
  cases e' with
  | error e' => rfl
  | _ => cases h

end Delivery

/-- What the client of an import is told if the import was one thing before and is another
now: that the source is gone, if it is gone. -/
def lossOf (i : ImportId) : Option Import → Option Import → List Delivery
  | some r, some r' =>
    if r.source.isSome ∧ r'.source = none then [⟨r.client, .destroyed i⟩] else []
  | _, _ => []

/-- A source is lost once, so one of two losses in a row is none. -/
theorem lossOf_append (i : ImportId) {r r' r'' : Import} (hc : r'.client = r.client)
    (hs : r'.source = r.source ∨ r'.source = none)
    (hs' : r''.source = r'.source ∨ r''.source = none) :
    lossOf i (some r) (some r') ++ lossOf i (some r') (some r'') =
      lossOf i (some r) (some r'') := by
  simp only [lossOf, hc]
  rcases hs with hs | hs <;> rcases hs' with hs' | hs' <;> rw [hs'] <;>
    cases hsource : r.source <;> simp_all

namespace Exchange

variable {x y z : Exchange} {ds ds' : List Delivery}

structure Fades (x y : Exchange) (ds : List Delivery) : Prop where
  events : y.events = x.events ++ ds
  nextId : x.nextId ≤ y.nextId
  exported : ∀ {e s'}, y.exports.find? e = some s' → ∃ s, x.exports.find? e = some s ∧
    s'.client = s.client ∧ s'.handle = s.handle ∧ s'.surface = s.surface
  imported : ∀ {i r'}, y.imports.find? i = some r' → ∃ r, x.imports.find? i = some r ∧
    r'.client = r.client ∧ (r'.source = r.source ∨ r'.source = none)
  /-- A source is lost to nothing but its own end. -/
  lost : ∀ {i r r' e}, x.imports.find? i = some r → y.imports.find? i = some r' →
    r.source = some e → r'.source = none → y.exports.find? e = none
  notices : ∀ i, ds.filter (Delivery.isNotice i) = lossOf i (x.imports.find? i) (y.imports.find? i)
  handles : ∀ e, ds.filter (Delivery.isHandleOf e) = []

namespace Fades

theorem refl (x : Exchange) : Fades x x [] where
  events := (List.append_nil _).symm
  nextId := Nat.le_refl _
  exported := fun he => ⟨_, he, rfl, rfl, rfl⟩
  imported := fun hi => ⟨_, hi, rfl, Or.inl rfl⟩
  lost := by
    intro i r r' e hi hi' hs hs'
    rw [hi] at hi'
    cases hi'
    rw [hs] at hs'
    cases hs'
  notices := by
    intro i
    cases x.imports.find? i with
    | none => rfl
    | some r => cases hs : r.source <;> simp [lossOf, hs]
  handles := fun _ => rfl

theorem absent_export (h : Fades x y ds) {e : ExportId} (he : x.exports.find? e = none) :
    y.exports.find? e = none := by
  cases he' : y.exports.find? e with
  | none => rfl
  | some s' =>
    obtain ⟨s, hs, -⟩ := h.exported he'
    rw [he] at hs
    cases hs

theorem absent_import (h : Fades x y ds) {i : ImportId} (hi : x.imports.find? i = none) :
    y.imports.find? i = none := by
  cases hi' : y.imports.find? i with
  | none => rfl
  | some r' =>
    obtain ⟨r, hr, -⟩ := h.imported hi'
    rw [hi] at hr
    cases hr

/-- What comes after must keep the imports: one that loses its source and goes then was told,
yet is not there in the end. -/
theorem trans (h : Fades x y ds) (h' : Fades y z ds')
    (hkeeps : ∀ i, (y.imports.find? i).isSome → (z.imports.find? i).isSome) :
    Fades x z (ds ++ ds') where
  events := by rw [h'.events, h.events, List.append_assoc]
  nextId := Nat.le_trans h.nextId h'.nextId
  exported := by
    intro e s'' he
    obtain ⟨s', he', hc', hh', hs'⟩ := h'.exported he
    obtain ⟨s, he, hc, hh, hs⟩ := h.exported he'
    exact ⟨s, he, hc'.trans hc, hh'.trans hh, hs'.trans hs⟩
  imported := by
    intro i r'' hi
    obtain ⟨r', hi', hc', hs'⟩ := h'.imported hi
    obtain ⟨r, hi, hc, hs⟩ := h.imported hi'
    refine ⟨r, hi, hc'.trans hc, ?_⟩
    rcases hs' with hs' | hs'
    · rcases hs with hs | hs
      · exact Or.inl (hs'.trans hs)
      · exact Or.inr (hs'.trans hs)
    · exact Or.inr hs'
  lost := by
    intro i r r'' e hi hi'' hs hs''
    obtain ⟨r', hi', -, -⟩ := h'.imported hi''
    obtain ⟨r₀, hi₀, -, hsource⟩ := h.imported hi'
    rw [hi] at hi₀
    cases hi₀
    rcases hsource with hsource | hsource
    · exact h'.lost hi' hi'' (hsource.trans hs) hs''
    · exact h'.absent_export (h.lost hi hi' hs hsource)
  notices := by
    intro i
    rw [List.filter_append, h.notices, h'.notices]
    cases hy : y.imports.find? i with
    | none =>
      rw [h'.absent_import hy]
      cases x.imports.find? i <;> rfl
    | some r' =>
      obtain ⟨r, hx, hc, hs⟩ := h.imported hy
      obtain ⟨r'', hz⟩ := Option.isSome_iff_exists.mp (hkeeps i (by rw [hy]; rfl))
      obtain ⟨r₀, hy', -, hs'⟩ := h'.imported hz
      rw [hy] at hy'
      cases hy'
      rw [hx, hz, lossOf_append i hc hs hs']
  handles := by
    intro e
    rw [List.filter_append, h.handles, h'.handles]
    rfl

/-- Links may come and go; what counts is whose an import is and what it is resolved to. -/
theorem of_same (hevents : y.events = x.events ++ ds) (hds : ∀ d ∈ ds, d.isError = true)
    (hnext : x.nextId ≤ y.nextId) (hexports : ∀ e, y.exports.find? e = x.exports.find? e)
    (himports : ∀ i, (y.imports.find? i).map (fun r => (r.client, r.source)) =
      (x.imports.find? i).map (fun r => (r.client, r.source))) : Fades x y ds where
  events := hevents
  nextId := hnext
  exported := fun he => ⟨_, (hexports _).symm.trans he, rfl, rfl, rfl⟩
  imported := by
    intro i r' hi
    have hsame := himports i
    rw [hi, Option.map_some, eq_comm, Option.map_eq_some_iff] at hsame
    obtain ⟨r, hr, heq⟩ := hsame
    obtain ⟨hclient, hsource⟩ := Prod.mk.inj heq
    exact ⟨r, hr, hclient.symm, Or.inl hsource.symm⟩
  lost := by
    intro i r r' e hi hi' hs hs'
    have hsame := himports i
    rw [hi, hi'] at hsame
    simp [hs, hs'] at hsame
  notices := by
    intro i
    have hnone : ds.filter (Delivery.isNotice i) = [] := by
      rw [List.filter_eq_nil_iff]
      intro d hd
      rw [Delivery.not_isNotice_of_isError (hds d hd)]
      exact Bool.false_ne_true
    have hsame := himports i
    rw [hnone]
    cases hx : x.imports.find? i with
    | none => rfl
    | some r =>
      cases hy : y.imports.find? i with
      | none => rfl
      | some r' =>
        rw [hx, hy, Option.map_some, Option.map_some, Option.some.injEq, Prod.mk.injEq] at hsame
        cases hs : r.source <;> simp [lossOf, hs, hsame.2]
  handles := by
    intro e
    rw [List.filter_eq_nil_iff]
    intro d hd
    rw [Delivery.not_isHandleOf_of_isError (hds d hd)]
    exact Bool.false_ne_true

/-- Fading is a matter of exports, imports and events. -/
theorem congr {y' : Exchange} (h : Fades x y ds) (hexports : y'.exports = y.exports)
    (himports : y'.imports = y.imports) (hevents : y'.events = y.events)
    (hnext : y'.nextId = y.nextId) : Fades x y' ds where
  events := hevents.trans h.events
  nextId := hnext ▸ h.nextId
  exported := fun he => h.exported (hexports ▸ he)
  imported := fun hi => h.imported (himports ▸ hi)
  lost := fun hi hi' hs hs' => hexports ▸ h.lost hi (himports ▸ hi') hs hs'
  notices := fun i => himports ▸ h.notices i
  handles := h.handles

end Fades

/-! ## Exports and imports that are dropped -/

/-- Whoever is told once of several imports is told once of each. -/
theorem filter_notices {is : List ImportId} (hn : is.Nodup) (i : ImportId) :
    (is.filterMap x.notice?).filter (Delivery.isNotice i) =
      if i ∈ is then (x.notice? i).toList else [] := by
  induction is with
  | nil => rfl
  | cons j is ih =>
    obtain ⟨hj, hn⟩ := List.nodup_cons.mp hn
    have hsplit : ((j :: is).filterMap x.notice?).filter (Delivery.isNotice i) =
        ((x.notice? j).toList).filter (Delivery.isNotice i) ++
          (is.filterMap x.notice?).filter (Delivery.isNotice i) := by
      cases hd : x.notice? j <;> simp [hd, List.filter_cons]
      split <;> rfl
    rw [hsplit, ih hn]
    by_cases hij : j = i
    · subst hij
      have hall : (x.notice? j).toList.filter (Delivery.isNotice j) = (x.notice? j).toList := by
        rw [List.filter_eq_self]
        intro d hd
        obtain ⟨r, hr, rfl⟩ := Option.map_eq_some_iff.mp (Option.mem_toList.mp hd)
        simp [Delivery.isNotice]
      rw [hall, if_neg hj, if_pos List.mem_cons_self, List.append_nil]
    · have hnone : (x.notice? j).toList.filter (Delivery.isNotice i) = [] := by
        rw [List.filter_eq_nil_iff]
        intro d hd
        obtain ⟨r, hr, rfl⟩ := Option.map_eq_some_iff.mp (Option.mem_toList.mp hd)
        simp [Delivery.isNotice, hij]
      rw [hnone, List.nil_append]
      by_cases hi : i ∈ is <;> simp [hi, Ne.symm hij]

/-- No import is listed twice, by one export or by two. -/
theorem Coherent.importersOf_nodup (h : x.Coherent) {ps : List (ExportId × Export)}
    (hps : ∀ p ∈ ps, x.exports.find? p.1 = some p.2) (hn : (ps.map Prod.fst).Nodup) :
    (importersOf ps).Nodup :=
  (h.severable hps hn (E := .empty) fun _ _ => rfl).nodup

theorem Fades.dropExports (h : x.Coherent) {ps : List (ExportId × Export)}
    (hps : ∀ p ∈ ps, x.exports.find? p.1 = some p.2) (hn : (ps.map Prod.fst).Nodup) :
    Fades x (x.dropExports ps) ((importersOf ps).filterMap x.notice?) where
  events := rfl
  nextId := Nat.le_refl _
  exported := by
    intro e s he
    rw [Coherent.find?_exports_dropExports] at he
    split at he
    · cases he
    · exact ⟨s, he, rfl, rfl, rfl⟩
  imported := by
    intro i r' hi
    obtain ⟨r, hf, ⟨-, rfl⟩ | ⟨-, rfl⟩⟩ := Coherent.import_of_dropExports hi
    · exact ⟨r, hf, rfl, Or.inr rfl⟩
    · exact ⟨_, hf, rfl, Or.inl rfl⟩
  lost := by
    intro i r r' e hi hi' hs hs'
    obtain ⟨r₀, hi₀, ⟨hm, -⟩ | ⟨-, rfl⟩⟩ := Coherent.import_of_dropExports hi'
    · obtain ⟨e', he', hse⟩ := (h.mem_importersOf_iff hps hi).mp hm
      rw [hs, Option.some.injEq] at hse
      rw [Coherent.find?_exports_dropExports, if_pos (hse ▸ he')]
    · rw [hi] at hi₀
      cases hi₀
      rw [hs] at hs'
      cases hs'
  notices := by
    intro i
    rw [filter_notices (h.importersOf_nodup hps hn), Coherent.find?_imports_dropExports]
    cases hi : x.imports.find? i with
    | none => simp [notice?, hi, lossOf]
    | some r =>
      by_cases hm : i ∈ importersOf ps
      · obtain ⟨e, -, hs⟩ := (h.mem_importersOf_iff hps hi).mp hm
        simp [notice?, hi, hm, lossOf, hs, Import.orphan]
      · cases hs : r.source <;> simp [hm, lossOf, hs]
  handles := by
    intro e
    rw [List.filter_eq_nil_iff]
    intro d hd
    obtain ⟨i, -, hi⟩ := List.mem_filterMap.mp hd
    obtain ⟨r, -, rfl⟩ := Option.map_eq_some_iff.mp hi
    exact Bool.false_ne_true

theorem Fades.dropImports (ps : List (ImportId × Import)) : Fades x (x.dropImports ps) [] where
  events := (List.append_nil _).symm
  nextId := Nat.le_refl _
  exported := by
    intro e s' he
    rw [Coherent.find?_exports_dropImports] at he
    obtain ⟨s, hs, rfl⟩ := Option.map_eq_some_iff.mp he
    exact ⟨s, hs, rfl, rfl, rfl⟩
  imported := fun hi => ⟨_, (Coherent.import_of_dropImports hi).2, rfl, Or.inl rfl⟩
  lost := by
    intro i r r' e hi hi' hs hs'
    rw [(Coherent.import_of_dropImports hi').2] at hi
    cases hi
    rw [hs] at hs'
    cases hs'
  notices := by
    intro i
    rw [Coherent.find?_imports_dropImports]
    cases x.imports.find? i with
    | none => rfl
    | some r =>
      by_cases hm : i ∈ ps.map Prod.fst
      · rw [if_pos hm]
        rfl
      · cases hs : r.source <;> simp [hm, lossOf, hs]
  handles := fun _ => rfl

/-! ## Objects that are retired -/

theorem find?_exports_retireExport (h : x.Coherent) (e : ExportId) (left : Remnant)
    (e' : ExportId) : (x.retireExport e left).exports.find? e' =
      if e' = e then none else x.exports.find? e' := by
  cases he : x.exports.find? e with
  | none =>
    have hsame : x.retireExport e left = x := by simp only [retireExport, he]
    rw [hsame]
    split
    · next heq => rw [heq, he]
    · rfl
  | some s =>
    obtain ⟨I, w, heq⟩ := leaveExports_eq (x := x.dropExports [(e, s)]) [(e, s)] left
    have hfind := Coherent.find?_exports_dropExports (x := x) [(e, s)] e'
    rw [retireExport_eq h he, heq, hfind]
    simp

theorem find?_exports_retireExporter (h : x.Coherent) {p : ExporterId} {g : Registry}
    (hg : x.exporters.find? p = some g) (left : Remnant) (e : ExportId) :
    (x.retireExporter p left).exports.find? e =
      if e.exporter = p then none else x.exports.find? e := by
  obtain ⟨I, w, heq⟩ := leaveExports_eq (x := x.dropExports (x.ownExports p)) (x.ownExports p) left
  rw [retireExporter_eq h hg, heq, ← Coherent.find?_exports_dropOwn]
  rfl

/-- What is inert once exports have left that much behind was inert or live before. -/
theorem leaveExports_dropExports {ps : List (ExportId × Export)}
    (hps : ∀ p ∈ ps, x.exports.find? p.1 = some p.2) (left : Remnant) : ∃ I w,
      (x.dropExports ps).leaveExports ps left =
        { x.dropExports ps with inertExports := I, ownership := w } ∧
      ∀ {e c}, I.find? e = some c →
        x.inertExports.find? e = some c ∨ x.clientOf? (.exported e) = some c := by
  cases left with
  | nothing => exact ⟨_, _, leaveExports_nothing ps, Or.inl⟩
  | inert =>
    refine ⟨_, _, leaveExports_inert ps, fun he => (of_find?_fileAll he).imp_right fun hm => ?_⟩
    obtain ⟨p, hp, hpe⟩ := List.mem_map.mp hm
    cases hpe
    rw [clientOf?, hps p hp]
    rfl

/-- What is inert once imports have left that much behind was inert or live before. -/
theorem leaveImports_dropImports {ps : List (ImportId × Import)}
    (hps : ∀ p ∈ ps, x.imports.find? p.1 = some p.2) (left : Remnant) : ∃ I w,
      (x.dropImports ps).leaveImports ps left =
        { x.dropImports ps with inertImports := I, ownership := w } ∧
      ∀ {i c}, I.find? i = some c →
        x.inertImports.find? i = some c ∨ x.clientOf? (.imported i) = some c := by
  cases left with
  | nothing => exact ⟨_, _, leaveImports_nothing ps, Or.inl⟩
  | inert =>
    refine ⟨_, _, leaveImports_inert ps, fun hi => (of_find?_fileAll hi).imp_right fun hm => ?_⟩
    obtain ⟨p, hp, hpi⟩ := List.mem_map.mp hm
    cases hpi
    rw [clientOf?, hps p hp]
    rfl

/-- Exports have gone, if anything has, and perhaps their exporter. -/
inductive RetiresExports (x : Exchange) : Exchange → Prop
  | nothing : RetiresExports x x
  | drop {ps : List (ExportId × Export)} {X : Table ExporterId Registry}
      {I : Table ExportId ClientId} (w : Ownership) :
      (∀ p ∈ ps, x.exports.find? p.1 = some p.2) → (ps.map Prod.fst).Nodup →
      (∀ {q g}, X.find? q = some g → x.exporters.find? q = some g) →
      (∀ {e c}, I.find? e = some c →
        x.inertExports.find? e = some c ∨ x.clientOf? (.exported e) = some c) →
      RetiresExports x { x.dropExports ps with exporters := X, inertExports := I, ownership := w }

/-- Imports have gone, if anything has, and perhaps their importer. -/
inductive RetiresImports (x : Exchange) : Exchange → Prop
  | nothing : RetiresImports x x
  | drop {ps : List (ImportId × Import)} {M : Table ImporterId Registry}
      {I : Table ImportId ClientId} (w : Ownership) :
      (∀ p ∈ ps, x.imports.find? p.1 = some p.2) → (ps.map Prod.fst).Nodup →
      (∀ {m g}, M.find? m = some g → x.importers.find? m = some g) →
      (∀ {i c}, I.find? i = some c →
        x.inertImports.find? i = some c ∨ x.clientOf? (.imported i) = some c) →
      RetiresImports x { x.dropImports ps with importers := M, inertImports := I, ownership := w }

theorem retiresExports_retireExport (h : x.Coherent) (e : ExportId) (left : Remnant) :
    x.RetiresExports (x.retireExport e left) := by
  cases he : x.exports.find? e with
  | none =>
    have hsame : x.retireExport e left = x := by simp only [retireExport, he]
    rw [hsame]
    exact .nothing
  | some s =>
    have hlive : ∀ p ∈ [(e, s)], x.exports.find? p.1 = some p.2 := by simpa using he
    obtain ⟨I, w, heq, hinert⟩ := leaveExports_dropExports hlive left
    rw [retireExport_eq h he, heq]
    exact .drop w hlive (List.nodup_singleton e) id hinert

theorem retiresExports_retireExporter (h : x.Coherent) (q : ExporterId) (left : Remnant) :
    x.RetiresExports (x.retireExporter q left) := by
  cases hg : x.exporters.find? q with
  | none =>
    have hsame : x.retireExporter q left = x := by simp only [retireExporter, hg]
    rw [hsame]
    exact .nothing
  | some g =>
    obtain ⟨I, w, heq, hinert⟩ := leaveExports_dropExports (ownExports_live q) left
    rw [retireExporter_eq h hg, heq]
    exact .drop _ (ownExports_live q) (Table.keys_nodup _) Table.of_find?_erase hinert

theorem retiresImports_retireImport (h : x.Coherent) (i : ImportId) (left : Remnant) :
    x.RetiresImports (x.retireImport i left) := by
  cases hi : x.imports.find? i with
  | none =>
    have hsame : x.retireImport i left = x := by simp only [retireImport, hi]
    rw [hsame]
    exact .nothing
  | some r =>
    have hlive : ∀ p ∈ [(i, r)], x.imports.find? p.1 = some p.2 := by simpa using hi
    obtain ⟨I, w, heq, hinert⟩ := leaveImports_dropImports hlive left
    rw [retireImport_eq h hi, heq]
    exact .drop w hlive (List.nodup_singleton i) id hinert

theorem retiresImports_retireImporter (h : x.Coherent) (m : ImporterId) (left : Remnant) :
    x.RetiresImports (x.retireImporter m left) := by
  cases hg : x.importers.find? m with
  | none =>
    have hsame : x.retireImporter m left = x := by simp only [retireImporter, hg]
    rw [hsame]
    exact .nothing
  | some g =>
    obtain ⟨I, w, heq, hinert⟩ := leaveImports_dropImports (ownImports_live m) left
    rw [retireImporter_eq h hg, heq]
    exact .drop _ (ownImports_live m) (Table.keys_nodup _) Table.of_find?_erase hinert

/-- Exports have gone, if anything has. Of the rest only what fades is compared. -/
def LosesExports (x y : Exchange) : Prop :=
  y = x ∨ ∃ ps : List (ExportId × Export), (∀ p ∈ ps, x.exports.find? p.1 = some p.2) ∧
    (ps.map Prod.fst).Nodup ∧ y.exports = (x.dropExports ps).exports ∧
    y.imports = (x.dropExports ps).imports ∧ y.events = (x.dropExports ps).events ∧
    y.nextId = x.nextId

/-- Imports have gone, if anything has. -/
def LosesImports (x y : Exchange) : Prop :=
  y = x ∨ ∃ ps : List (ImportId × Import), y.exports = (x.dropImports ps).exports ∧
    y.imports = (x.dropImports ps).imports ∧ y.events = x.events ∧ y.nextId = x.nextId

theorem RetiresExports.loses (hxy : x.RetiresExports y) : x.LosesExports y := by
  cases hxy with
  | nothing => exact Or.inl rfl
  | drop w hlive hn _ _ => exact Or.inr ⟨_, hlive, hn, rfl, rfl, rfl, rfl⟩

theorem RetiresImports.loses (hxy : x.RetiresImports y) : x.LosesImports y := by
  cases hxy with
  | nothing => exact Or.inl rfl
  | drop w _ _ _ _ => exact Or.inr ⟨_, rfl, rfl, rfl, rfl⟩

theorem losesExports_retireExport (h : x.Coherent) (e : ExportId) (left : Remnant) :
    x.LosesExports (x.retireExport e left) :=
  (retiresExports_retireExport h e left).loses

theorem losesExports_retireExporter (h : x.Coherent) (p : ExporterId) (left : Remnant) :
    x.LosesExports (x.retireExporter p left) :=
  (retiresExports_retireExporter h p left).loses

theorem losesImports_retireImport (h : x.Coherent) (i : ImportId) (left : Remnant) :
    x.LosesImports (x.retireImport i left) :=
  (retiresImports_retireImport h i left).loses

theorem losesImports_retireImporter (h : x.Coherent) (m : ImporterId) (left : Remnant) :
    x.LosesImports (x.retireImporter m left) :=
  (retiresImports_retireImporter h m left).loses

theorem LosesExports.fades (h : x.Coherent) (hxy : x.LosesExports y) : ∃ ds, Fades x y ds := by
  rcases hxy with rfl | ⟨ps, hlive, hn, hexports, himports, hevents, hnext⟩
  · exact ⟨[], Fades.refl _⟩
  · exact ⟨_, (Fades.dropExports h hlive hn).congr hexports himports hevents hnext⟩

theorem LosesImports.fades (hxy : x.LosesImports y) : Fades x y [] := by
  rcases hxy with rfl | ⟨ps, hexports, himports, hevents, hnext⟩
  · exact Fades.refl _
  · exact (Fades.dropImports ps).congr hexports himports hevents hnext

theorem isSome_imports_dropExports (ps : List (ExportId × Export)) (i : ImportId) :
    ((x.dropExports ps).imports.find? i).isSome = (x.imports.find? i).isSome := by
  rw [Coherent.find?_imports_dropExports, Option.isSome_map]

/-- Exports that go take no import with them. -/
theorem LosesExports.isSome_imports (hxy : x.LosesExports y) (i : ImportId) :
    (y.imports.find? i).isSome = (x.imports.find? i).isSome := by
  rcases hxy with rfl | ⟨ps, -, -, -, himports, -⟩
  · rfl
  · rw [himports, isSome_imports_dropExports]

/-- Imports that go take no export with them. -/
theorem LosesImports.isSome_exports (hxy : x.LosesImports y) (e : ExportId) :
    (y.exports.find? e).isSome = (x.exports.find? e).isSome := by
  rcases hxy with rfl | ⟨ps, hexports, -⟩
  · rfl
  · rw [hexports, Coherent.find?_exports_dropImports, Option.isSome_map]

/-- What a client that is gone does to the others' imports, in the order in which the exports
and their importers stand. -/
def partingNotices (x : Exchange) (c : ClientId) : List Delivery :=
  (importersOf ((x.withoutImports c).exportsHeld c)).filterMap (x.withoutImports c).notice?

theorem Fades.withoutClient (h : x.Coherent) (c : ClientId) :
    Fades x (x.withoutClient c) (x.partingNotices c) := by
  have hdrop := Fades.dropExports (h.withoutImports c) (exportsHeld_live c) (Table.keys_nodup _)
  have hexports : Fades (x.withoutImports c) (x.withoutClient c) (x.partingNotices c) :=
    hdrop.congr rfl rfl rfl rfl
  refine (Fades.dropImports (x.importsHeld c)).trans hexports fun i hi => ?_
  exact (isSome_imports_dropExports _ i).trans hi

end Exchange

end SurfaceExchange
