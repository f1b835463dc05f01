import SurfaceExchange.Proofs.Queueing

/-!
# The history of events

`queued` lists every event of a run, taken or not. The client of an import is
told once that its import has no export, if that ever comes to be so, and the
client of an export is given its handle once, when the export is made.
-/

namespace SurfaceExchange

namespace Exchange

variable {L : Type} {x y : Exchange} {ts us : List (Transition L)} {i : ImportId} {e : ExportId}
  {c : ClientId}

/-- Every event that was queued, taken or not. -/
def queued (ts : List (Transition L)) (x : Exchange) : List Delivery :=
  ts.flatMap (fun t => t.answer.taken) ++ x.events

theorem queued_snoc {t : Transition L} {ds : List Delivery} (hq : t.Queues ds) :
    queued (ts ++ [t]) t.after = queued ts t.before ++ ds := by
  rw [queued, queued, List.flatMap_append, List.flatMap_singleton, List.append_assoc, hq.events,
    List.append_assoc]

theorem filter_queued_snoc {t : Transition L} {ds : List Delivery} (hq : t.Queues ds)
    (p : Delivery → Bool) : (queued (ts ++ [t]) t.after).filter p =
      (queued ts t.before).filter p ++ ds.filter p := by
  rw [queued_snoc hq, List.filter_append]

/-- What is done between operations is no concern of exports, imports and events. -/
theorem Aside.same (h : Aside x y) : y.imports = x.imports ∧ y.exports = x.exports ∧
    y.events = x.events ∧ y.nextId = x.nextId := by
  cases h <;> exact ⟨rfl, rfl, rfl, rfl⟩

/-! ## Imports -/

/-- Some operation left the import without an export. -/
def Deprived (ts : List (Transition L)) (i : ImportId) : Prop := ∃ t ∈ ts, t.Deprives i

theorem deprived_snoc_iff {t : Transition L} :
    Deprived (ts ++ [t]) i ↔ Deprived ts i ∨ t.Deprives i := by
  simp [Deprived, or_and_right, exists_or]

/-- The import was not made: it is not live and was never spoken of. -/
structure Unheard (ts : List (Transition L)) (x : Exchange) (i : ImportId) : Prop where
  absent : x.imports.find? i = none
  undeprived : ¬ Deprived ts i
  silence : (queued ts x).filter (Delivery.isNotice i) = []

/-- The import was made for the client, which was told if it was left without an export. -/
structure Told (ts : List (Transition L)) (x : Exchange) (i : ImportId) (c : ClientId) :
    Prop where
  serial_lt : i.serial < x.nextId
  owned : ∀ {r}, x.imports.find? i = some r → r.client = c
  source : ∀ {r}, x.imports.find? i = some r → (r.source = none ↔ Deprived ts i)
  notice : Deprived ts i → (queued ts x).filter (Delivery.isNotice i) = [⟨c, .destroyed i⟩]
  silence : ¬ Deprived ts i → (queued ts x).filter (Delivery.isNotice i) = []

theorem Told.mem_queued_iff (ht : Told ts x i c) :
    ⟨c, .destroyed i⟩ ∈ queued ts x ↔ Deprived ts i := by
  have hnotice : (⟨c, .destroyed i⟩ : Delivery).isNotice i = true := decide_eq_true rfl
  constructor
  · intro hm
    by_contra hd
    have hfilter := ht.silence hd
    rw [List.filter_eq_nil_iff] at hfilter
    exact hfilter _ hm hnotice
  · intro hd
    refine List.mem_of_mem_filter (p := Delivery.isNotice i) ?_
    rw [ht.notice hd]
    exact List.mem_singleton_self _

section Steps

variable {t : Transition L} {ds : List Delivery} (h : t.before.Sound) (hv : t.Valid)
  (hq : t.Queues ds)

include h hv hq

theorem Unheard.step (hu : Unheard ts t.before i) (hold : ¬ t.Imports i) :
    Unheard (ts ++ [t]) t.after i := by
  have hundeprived : ¬ t.Deprives i := by
    rintro (⟨hnew, -⟩ | ⟨-, r, e, s, hi, -⟩)
    · exact hold hnew
    · rw [hu.absent] at hi
      cases hi
  refine ⟨hq.absent_import hold hu.absent, fun hd => ?_, ?_⟩
  · exact (deprived_snoc_iff.mp hd).elim hu.undeprived hundeprived
  · rw [filter_queued_snoc hq, hu.silence, Transition.silent_of_not_deprives h hv hq hundeprived]
    rfl

/-- A new import is told of at once if there is nothing to import. -/
theorem Unheard.told (hu : Unheard ts t.before i) (hnew : t.Imports i) :
    ∃ c, (t.before.importers.find? i.importer).map Registry.client = some c ∧
      Told (ts ++ [t]) t.after i c := by
  obtain ⟨-, hlt, r, hi, howner, -⟩ := hq.newImport hnew
  have hsource := Transition.source_iff h hv hq hi
  refine ⟨r.client, howner, hlt, fun hi' => ?_, fun hi' => ?_, fun hd => ?_, fun hd => ?_⟩
  · rw [hi] at hi'
    cases hi'
    rfl
  · rw [hi] at hi'
    cases hi'
    rw [hsource, deprived_snoc_iff, or_comm]
    simp [hu.absent, hu.undeprived]
  · obtain ⟨r', hi', hfilter⟩ :=
      ((deprived_snoc_iff.mp hd).resolve_left hu.undeprived).told h hv hq
    rw [hi] at hi'
    cases hi'
    rw [filter_queued_snoc hq, hu.silence, hfilter]
    rfl
  · have hundeprived : ¬ t.Deprives i := fun ht => hd (deprived_snoc_iff.mpr (Or.inr ht))
    rw [filter_queued_snoc hq, hu.silence, Transition.silent_of_not_deprives h hv hq hundeprived]
    rfl

/-- An import that had lost its export before cannot lose it again. -/
theorem Told.step (ht : Told ts t.before i c) : Told (ts ++ [t]) t.after i c := by
  have hold : ¬ t.Imports i := fun hnew => by
    have hlt := ht.serial_lt
    have hle := (hq.newImport hnew).1
    omega
  refine ⟨Nat.lt_of_lt_of_le ht.serial_lt hq.nextId, fun hi => ?_, fun hi => ?_, fun hd => ?_,
    fun hd => ?_⟩
  · obtain ⟨r, hb, hc, -⟩ := hq.imported hold hi
    exact hc.trans (ht.owned hb)
  · obtain ⟨r, hb, -⟩ := hq.imported hold hi
    rw [Transition.source_iff h hv hq hi, deprived_snoc_iff, ← ht.source hb, or_comm]
    simp [hb]
  · rw [filter_queued_snoc hq]
    by_cases hnow : t.Deprives i
    · obtain ⟨r', hi, hfilter⟩ := hnow.told h hv hq
      obtain ⟨r, hb, hc, -⟩ := hq.imported hold hi
      have hfirst : ¬ Deprived ts i := by
        rcases hnow with ⟨hnew, -⟩ | ⟨-, r₀, e, s, hb', hse, -⟩
        · exact absurd hnew hold
        · rw [hb] at hb'
          cases hb'
          rw [← ht.source hb, hse]
          exact Option.some_ne_none e
      rw [ht.silence hfirst, hfilter, hc, ht.owned hb]
      rfl
    · rw [Transition.silent_of_not_deprives h hv hq hnow, List.append_nil]
      exact ht.notice ((deprived_snoc_iff.mp hd).resolve_right hnow)
  · rw [deprived_snoc_iff, not_or] at hd
    rw [filter_queued_snoc hq, ht.silence hd.1, Transition.silent_of_not_deprives h hv hq hd.2]
    rfl

end Steps

theorem Unheard.aside (hu : Unheard ts x i) (hxy : Aside x y) : Unheard ts y i := by
  obtain ⟨himports, -, hevents, -⟩ := hxy.same
  exact ⟨himports ▸ hu.absent, hu.undeprived, by rw [queued, hevents]; exact hu.silence⟩

theorem Told.aside (ht : Told ts x i c) (hxy : Aside x y) : Told ts y i c := by
  obtain ⟨himports, -, hevents, hnext⟩ := hxy.same
  refine ⟨hnext ▸ ht.serial_lt, fun hi => ht.owned (himports ▸ hi),
    fun hi => ht.source (himports ▸ hi), fun hd => ?_, fun hd => ?_⟩
  · rw [queued, hevents]
    exact ht.notice hd
  · rw [queued, hevents]
    exact ht.silence hd

section Runs

variable {d : Display L} {config : Config} {handles : HandleStream} {l : L}

theorem Run.unheard (hrun : Run (Exchange.start d config handles l).1 ts x)
    (hold : ∀ t ∈ ts, ¬ t.Imports i) : Unheard ts x i := by
  induction hrun with
  | start => exact ⟨rfl, by simp [Deprived], rfl⟩
  | @perform ts t hrun hv ih =>
    have h := hrun.sound (sound_start d config handles l)
    obtain ⟨ds, hq⟩ := hv.queues h
    have hearlier := ih fun t' ht' => hold t' (List.mem_append_left _ ht')
    exact hearlier.step h hv hq (hold t (by simp))
  | aside _ haside ih => exact (ih hold).aside haside

theorem Run.told (hrun : Run (Exchange.start d config handles l).1 ts x) {t : Transition L}
    (ht : t ∈ ts) (hnew : t.Imports i) : ∃ c,
      (t.before.importers.find? i.importer).map Registry.client = some c ∧ Told ts x i c := by
  induction hrun generalizing t with
  | start => cases ht
  | @perform ts t' hrun hv ih =>
    have h := hrun.sound (sound_start d config handles l)
    obtain ⟨ds, hq⟩ := hv.queues h
    rcases List.mem_append.mp ht with ht | ht
    · obtain ⟨c, hc, htold⟩ := ih ht hnew
      exact ⟨c, hc, htold.step h hv hq⟩
    · cases List.mem_singleton.mp ht
      -- had the import been made before, its number would be taken
      have hold : ∀ t' ∈ ts, ¬ t'.Imports i := fun t' ht' hmade => by
        obtain ⟨c, -, htold⟩ := ih ht' hmade
        have hlt := htold.serial_lt
        have hle := (hq.newImport hnew).1
        omega
      exact (hrun.unheard hold).told h hv hq hnew
  | aside _ haside ih =>
    obtain ⟨c, hc, htold⟩ := ih ht hnew
    exact ⟨c, hc, htold.aside haside⟩

/-- An import that is gone stays gone, and is not spoken of again. -/
theorem Run.silent_of_gone (h : x.Sound) (hrun : Run x us y) (hlt : i.serial < x.nextId)
    (hgone : x.imports.find? i = none) : i.serial < y.nextId ∧ y.imports.find? i = none ∧
      (queued (ts ++ us) y).filter (Delivery.isNotice i) =
        (queued ts x).filter (Delivery.isNotice i) := by
  induction hrun with
  | start => exact ⟨hlt, hgone, by rw [List.append_nil]⟩
  | @perform us t hrun hv ih =>
    obtain ⟨hlt, hgone, hfilter⟩ := ih
    obtain ⟨ds, hq⟩ := hv.queues (hrun.sound h)
    have hold : ¬ t.Imports i := fun hnew => by
      have hle := (hq.newImport hnew).1
      omega
    have hnone := hq.absent_import hold hgone
    refine ⟨Nat.lt_of_lt_of_le hlt hq.nextId, hnone, ?_⟩
    rw [← List.append_assoc, filter_queued_snoc hq, hfilter, hq.notices hold, hgone, hnone]
    exact List.append_nil _
  | aside _ haside ih =>
    obtain ⟨himports, -, hevents, hnext⟩ := haside.same
    obtain ⟨hlt, hgone, hfilter⟩ := ih
    refine ⟨hnext ▸ hlt, himports ▸ hgone, ?_⟩
    rw [queued, hevents]
    exact hfilter

/-! ## Exports -/

theorem Run.no_handle (hrun : Run (Exchange.start d config handles l).1 ts x)
    (hold : ∀ t ∈ ts, ¬ t.Exports e) :
    x.exports.find? e = none ∧ (queued ts x).filter (Delivery.isHandleOf e) = [] := by
  induction hrun with
  | start => exact ⟨rfl, rfl⟩
  | @perform ts t hrun hv ih =>
    obtain ⟨hnone, hfilter⟩ := ih fun t' ht' => hold t' (List.mem_append_left _ ht')
    obtain ⟨ds, hq⟩ := hv.queues (hrun.sound (sound_start d config handles l))
    have hnow := hold t (by simp)
    refine ⟨hq.absent_export hnow hnone, ?_⟩
    rw [filter_queued_snoc hq, hfilter, hq.handles hnow]
    rfl
  | aside _ haside ih =>
    obtain ⟨-, hexports, hevents, -⟩ := haside.same
    rw [hexports, queued, hevents]
    exact ih hold

/-- The export was made for the client, which was given its handle. -/
structure Handed (ts : List (Transition L)) (x : Exchange) (e : ExportId) (c : ClientId)
    (handle : Handle) : Prop where
  serial_lt : e.serial < x.nextId
  same : ∀ {s}, x.exports.find? e = some s → s.client = c ∧ s.handle = handle
  handle : (queued ts x).filter (Delivery.isHandleOf e) = [⟨c, .handle e handle⟩]

theorem Run.handed (hrun : Run (Exchange.start d config handles l).1 ts x) {t : Transition L}
    (ht : t ∈ ts) (hnew : t.Exports e) : ∃ s, t.after.exports.find? e = some s ∧
      (t.before.exporters.find? e.exporter).map Registry.client = some s.client ∧
      t.after.events = t.before.events ++ [⟨s.client, .handle e s.handle⟩] ∧
      Handed ts x e s.client s.handle := by
  induction hrun generalizing t with
  | start => cases ht
  | @perform ts t' hrun hv ih =>
    obtain ⟨ds, hq⟩ := hv.queues (hrun.sound (sound_start d config handles l))
    rcases List.mem_append.mp ht with ht | ht
    · obtain ⟨s, hs, howner, hevents, hhanded⟩ := ih ht hnew
      have hold : ¬ t'.Exports e := fun hmade => by
        have hlt := hhanded.serial_lt
        have hle := (hq.newExport hmade).1
        omega
      refine ⟨s, hs, howner, hevents, Nat.lt_of_lt_of_le hhanded.serial_lt hq.nextId,
        fun he => ?_, ?_⟩
      · obtain ⟨s', hs', hc, hh⟩ := hq.exported hold he
        obtain ⟨hc', hh'⟩ := hhanded.same hs'
        exact ⟨hc.trans hc', hh.trans hh'⟩
      · rw [filter_queued_snoc hq, hhanded.handle, hq.handles hold]
        rfl
    · cases List.mem_singleton.mp ht
      have hold : ∀ t' ∈ ts, ¬ t'.Exports e := fun t' ht' hmade => by
        obtain ⟨s, -, -, -, hhanded⟩ := ih ht' hmade
        have hlt := hhanded.serial_lt
        have hle := (hq.newExport hnew).1
        omega
      obtain ⟨-, hlt, s, hs, howner, htaken, rfl⟩ := hq.newExport hnew
      have hevents := hq.events
      rw [htaken, List.nil_append] at hevents
      refine ⟨s, hs, howner, hevents, hlt, fun he => ?_, ?_⟩
      · rw [hs, Option.some.injEq] at he
        exact ⟨by rw [he], by rw [he]⟩
      · rw [filter_queued_snoc hq, (hrun.no_handle hold).2]
        simp [Delivery.isHandleOf]
  | aside _ haside ih =>
    obtain ⟨s, hs, howner, hevents, hhanded⟩ := ih ht hnew
    obtain ⟨-, hexports, hsame, hnext⟩ := haside.same
    refine ⟨s, hs, howner, hevents, hnext ▸ hhanded.serial_lt,
      fun he => hhanded.same (hexports ▸ he), ?_⟩
    rw [queued, hsame]
    exact hhanded.handle

/-! ## Both -/

/-- What is ever queued about an import that is made: one notice to its client if it was left
without an export, and none if it was not. Once the import is gone there are no more. -/
structure ImportHistory (ts : List (Transition L)) (x : Exchange) (i : ImportId) (c : ClientId) :
    Prop where
  notice : Deprived ts i → (queued ts x).filter (Delivery.isNotice i) = [⟨c, .destroyed i⟩]
  silence : ¬ Deprived ts i → (queued ts x).filter (Delivery.isNotice i) = []
  live : ∀ r, x.imports.find? i = some r →
    r.client = c ∧ (r.source = none ↔ ⟨c, .destroyed i⟩ ∈ queued ts x)
  final : x.imports.find? i = none → ∀ us y, Run x us y →
    (queued (ts ++ us) y).filter (Delivery.isNotice i) =
      (queued ts x).filter (Delivery.isNotice i)

/-- What is ever queued about an export that is made: its handle, sent to its client right then. -/
structure ExportHistory (ts : List (Transition L)) (x : Exchange) (t : Transition L)
    (e : ExportId) (s : Export) : Prop where
  made : t.after.exports.find? e = some s
  client : (t.before.exporters.find? e.exporter).map Registry.client = some s.client
  sent : t.after.events = t.before.events ++ [⟨s.client, .handle e s.handle⟩]
  handle : (queued ts x).filter (Delivery.isHandleOf e) = [⟨s.client, .handle e s.handle⟩]
  same : ∀ s', x.exports.find? e = some s' → s'.client = s.client ∧ s'.handle = s.handle

/-- What is ever queued in a run. -/
structure EventHistory (ts : List (Transition L)) (x : Exchange) : Prop where
  imported : ∀ i, ∀ t ∈ ts, t.Imports i → ∃ c,
    (t.before.importers.find? i.importer).map Registry.client = some c ∧ ImportHistory ts x i c
  neverImported : ∀ i, (∀ t ∈ ts, ¬ t.Imports i) →
    x.imports.find? i = none ∧ (queued ts x).filter (Delivery.isNotice i) = []
  exported : ∀ e, ∀ t ∈ ts, t.Exports e → ∃ s, ExportHistory ts x t e s
  neverExported : ∀ e, (∀ t ∈ ts, ¬ t.Exports e) →
    x.exports.find? e = none ∧ (queued ts x).filter (Delivery.isHandleOf e) = []

/-- Of all events that are ever queued, those about an import are one notice at most, and those
about an export are its handle. -/
theorem Run.event_history (hrun : Run (Exchange.start d config handles l).1 ts x) :
    EventHistory ts x := by
  constructor
  case imported =>
    intro i t ht hnew
    obtain ⟨c, hc, htold⟩ := hrun.told ht hnew
    refine ⟨c, hc, htold.notice, htold.silence, fun r hi => ⟨htold.owned hi, ?_⟩, ?_⟩
    · rw [htold.source hi, htold.mem_queued_iff]
    · intro hgone us y hrest
      have hsound := hrun.sound (sound_start d config handles l)
      exact (hrest.silent_of_gone hsound htold.serial_lt hgone).2.2
  case neverImported =>
    intro i hold
    have hunheard := hrun.unheard hold
    exact ⟨hunheard.absent, hunheard.silence⟩
  case exported =>
    intro e t ht hnew
    obtain ⟨s, hs, howner, hevents, hhanded⟩ := hrun.handed ht hnew
    exact ⟨s, hs, howner, hevents, hhanded.handle, fun s' he => hhanded.same he⟩
  case neverExported => exact fun e hold => hrun.no_handle hold

/-- The import of client 2 is told of when the surface that client 1 exports unmaps, and still is
after the events were taken. -/
theorem event_history_unmapped :
    Run rehearsalStart.1 (rehearse (sharing ++ [.unmapped ⟨5⟩, .takeEvents])).1
      (rehearse (sharing ++ [.unmapped ⟨5⟩, .takeEvents])).2 ∧
    (queued (rehearse (sharing ++ [.unmapped ⟨5⟩, .takeEvents])).1
      (rehearse (sharing ++ [.unmapped ⟨5⟩, .takeEvents])).2).filter
        (Delivery.isNotice ⟨⟨2⟩, 4⟩) = [⟨⟨2⟩, .destroyed ⟨⟨2⟩, 4⟩⟩] := by
  have hrun := run_rehearse (sharing ++ [.unmapped ⟨5⟩, .takeEvents])
  obtain ⟨c, hc, htold⟩ :=
    hrun.event_history.imported ⟨⟨2⟩, 4⟩ _ (List.mem_of_getElem? (i := 3) rfl) rfl
  have howner : some (⟨2⟩ : ClientId) = some c := hc
  cases howner
  exact ⟨hrun, htold.notice ⟨_, List.mem_of_getElem? (i := 6) rfl, Or.inr
    ⟨Option.isSome_iff_ne_none.mp rfl, _, _, _, rfl, rfl, rfl, .unmapped rfl⟩⟩⟩

end Runs

end Exchange

end SurfaceExchange
