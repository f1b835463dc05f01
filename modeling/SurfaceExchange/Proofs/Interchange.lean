import SurfaceExchange.Proofs.Adoption
import SurfaceExchange.Proofs.Disappearance
import SurfaceExchange.Surface.Store

/-!
# Two clients that disappear

In which order two clients go makes no difference to the others. An import of
the second client that is resolved to an export of the first loses its source
before it goes, in the other order it goes while it is still linked; what is
left is the same exchange (`withoutClient_comm`), and what the others and the
shell are told differs in its order only.
-/

namespace SurfaceExchange

namespace Subscriptions

variable {s s' : Subscriptions}

/-- The numbers that the two signals of a surface would give next. -/
def counters (s : Subscriptions) (x : SurfaceId) : Option (Nat × Nat) :=
  (s.surfaces.find? x).map (fun g => (g.unmap.nextId, g.setParent.nextId))

/-- An entry that is left when subscriptions are cancelled has the counters that it had. -/
theorem counters_cancel (t : Subscription) (x : SurfaceId) {n : Nat × Nat}
    (hn : (s.cancel t).2.counters x = some n) : s.counters x = some n := by
  unfold cancel at hn
  split at hn
  · exact hn
  · next g hg =>
    rw [counters] at hn ⊢
    simp only at hn
    split at hn
    · obtain ⟨g', hg', rfl⟩ := Option.map_eq_some_iff.mp hn
      rw [Table.of_find?_erase hg', Option.map_some]
    · rw [Table.find?_insert] at hn
      split at hn
      · next hx =>
        rw [← hx, hg, ← hn]
        cases t.event <;> rfl
      · exact hn

theorem counters_cancelAll (ts : List Subscription) (x : SurfaceId) {n : Nat × Nat}
    (hn : (s.cancelAll ts).counters x = some n) : s.counters x = some n := by
  induction ts generalizing s with
  | nil => exact hn
  | cons t ts ih => exact counters_cancel t x (ih hn)

theorem nextId_cancelAll (ts : List Subscription) : (s.cancelAll ts).nextId = s.nextId := by
  induction ts generalizing s with
  | nil => rfl
  | cons t ts ih => exact (ih (s := (s.cancel t).2)).trans (nextId_cancel s t)

/-- A register has the entries of another with the same listeners and counters. -/
theorem find?_of_listens (h : s.WellFormed) (hsignal : ∀ x e,
    (s.signal x e).listeners = (s'.signal x e).listeners) {x : SurfaceId}
    (hcounters : ∀ n n', s.counters x = some n → s'.counters x = some n' → n = n')
    {g : WatchedSurface} (hg : s.surfaces.find? x = some g) : s'.surfaces.find? x = some g := by
  have hunmap := hsignal x .unmap
  have hsetParent := hsignal x .setParent
  simp only [signal, hg, Option.getD_some, WatchedSurface.signal] at hunmap hsetParent
  cases hg' : s'.surfaces.find? x with
  | none =>
    -- an entry without listeners is not kept
    rw [hg'] at hunmap hsetParent
    have hempty : g.isEmpty = true := by
      simp [WatchedSurface.isEmpty, Signal.isEmpty, hunmap, hsetParent, Signal.empty]
    rw [h.inhabited hg] at hempty
    cases hempty
  | some g' =>
    rw [hg', Option.getD_some] at hunmap hsetParent
    have hn := hcounters _ _ (by rw [counters, hg]; rfl) (by rw [counters, hg']; rfl)
    obtain ⟨⟨ls, n⟩, ⟨ms, m⟩⟩ := g
    obtain ⟨⟨ls', n'⟩, ⟨ms', m'⟩⟩ := g'
    simp_all

/-- A register is determined by who listens and by its counters. -/
theorem eq_of_listens (h : s.WellFormed) (h' : s'.WellFormed) (hnext : s.nextId = s'.nextId)
    (hlistens : ∀ t w, s.Listens t w ↔ s'.Listens t w)
    (hcounters : ∀ x n n', s.counters x = some n → s'.counters x = some n' → n = n') : s = s' := by
  have hnodup : ∀ {es : List (ListenerId × Watcher)},
      es.Pairwise (fun a b => a.1.val < b.1.val) → es.Nodup :=
    fun hes => hes.imp fun hlt heq => by rw [heq] at hlt; exact Nat.lt_irrefl _ hlt
  have hsignal : ∀ x e, (s.signal x e).listeners = (s'.signal x e).listeners := fun x e =>
    List.Perm.eq_of_pairwise (fun a b _ _ hab hba => absurd hab (Nat.lt_asymm hba))
      (h.ascending x e) (h'.ascending x e)
      ((List.perm_ext_iff_of_nodup (hnodup (h.ascending x e)) (hnodup (h'.ascending x e))).mpr
        fun a => hlistens ⟨x, e, a.1⟩ a.2)
  have hsurfaces : s.surfaces = s'.surfaces :=
    Table.ext_find? fun x => Option.ext fun g =>
      ⟨find?_of_listens h hsignal (hcounters x),
        find?_of_listens h' (fun x e => (hsignal x e).symm)
          fun n n' hn hn' => (hcounters x n' n hn' hn).symm⟩
  cases s
  cases s'
  simp_all

end Subscriptions

namespace Exchange

variable {x : Exchange}

/-! ## What is left -/

/-- Whoever has an export resolved to still has it when another client is gone. -/
theorem exportingClient?_withoutClient (c : ClientId) (r : Import) :
    (x.withoutClient c).exportingClient? r =
      (x.exportingClient? r).filter (fun d => decide (d ≠ c)) := by
  unfold exportingClient?
  cases r.source with
  | none => rfl
  | some e =>
    rw [Option.bind_some, Option.bind_some, find?_exports_withoutClient, Option.map_map]
    cases x.exports.find? e with
    | none => rfl
    | some s =>
      by_cases hc : s.client = c <;> simp [Option.filter_some, hc, Export.withoutImporters]

theorem exportingClient?_orphan (x : Exchange) (r : Import) :
    x.exportingClient? r.orphan = none := rfl

/-- The client has an import, and it is still there when another client is gone. -/
theorem isImportOf_withoutClient (h : x.Coherent) {a b : ClientId} (hab : a ≠ b) (i : ImportId) :
    (x.withoutClient a).isImportOf b i = x.isImportOf b i := by
  have hlive := clientOf?_withoutClient h a b (.imported i)
  rw [isImportOf, isImportOf, decide_eq_decide]
  exact hlive.trans (and_iff_left (Ne.symm hab))

section Both

variable (h : x.Sound) {a b : ClientId}

include h

/-- An import of neither client is left without a source if either of the two has exported it. -/
theorem find?_imports_without_both (i : ImportId) :
    ((x.withoutClient a).withoutClient b).imports.find? i =
      ((x.imports.find? i).filter (fun r => decide (r.client ≠ a ∧ r.client ≠ b))).map (fun r =>
        if x.exportingClient? r = some a ∨ x.exportingClient? r = some b then r.orphan else r) := by
  rw [find?_imports_withoutClient (h.withoutClient a).coherent,
    find?_imports_withoutClient h.coherent]
  cases x.imports.find? i with
  | none => rfl
  | some r =>
    have horphan : r.orphan.client = r.client := rfl
    by_cases ha : r.client = a
    · simp [Option.filter_some, ha]
    · by_cases hsource : x.exportingClient? r = some a
      · by_cases hb : r.client = b <;>
          simp [Option.filter_some, ha, hb, hsource, horphan, exportingClient?_orphan]
      · have hkept : (x.withoutClient a).exportingClient? r = some b ↔
            x.exportingClient? r = some b := by
          rw [exportingClient?_withoutClient, Option.filter_eq_some_iff, decide_eq_true_eq]
          exact and_iff_left_of_imp fun hsome heq => hsource (heq ▸ hsome)
        by_cases hb : r.client = b <;> simp [Option.filter_some, ha, hb, hsource, hkept]

/-- An export of neither client has lost the importers of both. -/
theorem find?_exports_without_both (hab : a ≠ b) (e : ExportId) :
    ((x.withoutClient a).withoutClient b).exports.find? e =
      ((x.exports.find? e).filter (fun s => decide (s.client ≠ a ∧ s.client ≠ b))).map (fun s =>
        { s with importers :=
            s.importers.filter (fun i => !x.isImportOf a i && !x.isImportOf b i) }) := by
  rw [find?_exports_withoutClient, find?_exports_withoutClient]
  cases x.exports.find? e with
  | none => rfl
  | some s =>
    by_cases ha : s.client = a <;> by_cases hb : s.client = b <;>
      simp [Option.filter_some, ha, hb, withoutImporters_importsHeld,
        isImportOf_withoutClient h.coherent hab, List.filter_filter, Bool.and_comm]

theorem imports_withoutClient_comm : ((x.withoutClient a).withoutClient b).imports =
    ((x.withoutClient b).withoutClient a).imports := by
  apply Table.ext_find?
  intro i
  rw [find?_imports_without_both h, find?_imports_without_both h]
  simp only [and_comm, or_comm]

theorem exports_withoutClient_comm : ((x.withoutClient a).withoutClient b).exports =
    ((x.withoutClient b).withoutClient a).exports := by
  by_cases hab : a = b
  · rw [hab]
  · apply Table.ext_find?
    intro e
    rw [find?_exports_without_both h hab, find?_exports_without_both h (Ne.symm hab)]
    simp only [and_comm, Bool.and_comm]

/-- Subscriptions are held by exports and links, so they are the same if those are. -/
theorem subscriptions_withoutClient_comm : ((x.withoutClient a).withoutClient b).subscriptions =
    ((x.withoutClient b).withoutClient a).subscriptions := by
  have hcancelled : ∀ c d, ∃ ts,
      ((x.withoutClient c).withoutClient d).subscriptions = x.subscriptions.cancelAll ts := by
    intro c d
    have hone : ∀ (y : Exchange) c, ∃ ts,
        (y.withoutClient c).subscriptions = y.subscriptions.cancelAll ts :=
      fun y c => ⟨_ ++ _, Subscriptions.cancelAll_append _ _ |>.symm⟩
    obtain ⟨ts, hts⟩ := hone x c
    obtain ⟨us, hus⟩ := hone (x.withoutClient c) d
    exact ⟨ts ++ us, by rw [hus, hts, Subscriptions.cancelAll_append]⟩
  have hwatched := ((h.withoutClient a).withoutClient b).coherent.watched
  have hwatched' := ((h.withoutClient b).withoutClient a).coherent.watched
  obtain ⟨ts, hts⟩ := hcancelled a b
  obtain ⟨us, hus⟩ := hcancelled b a
  refine Subscriptions.eq_of_listens hwatched.wellFormed hwatched'.wellFormed ?_ (fun t w => ?_)
    fun c n n' hn hn' => ?_
  · rw [hts, hus, Subscriptions.nextId_cancelAll, Subscriptions.nextId_cancelAll]
  · rw [hwatched.listens_iff, hwatched'.listens_iff, imports_withoutClient_comm h,
      exports_withoutClient_comm h]
  · rw [hts] at hn
    rw [hus] at hn'
    have hsame := Subscriptions.counters_cancelAll us c hn'
    rw [Subscriptions.counters_cancelAll ts c hn, Option.some.injEq] at hsame
    exact hsame

omit h in
/-- What a client's going leaves alone, and what is merely sorted out by owner. -/
theorem withoutClient_eq (x : Exchange) (c : ClientId) : ∃ E I s ds cs, x.withoutClient c = { x with
    exporters := x.exporters.filter (fun _ g => decide (g.client ≠ c))
    importers := x.importers.filter (fun _ g => decide (g.client ≠ c))
    exports := E
    imports := I
    inertExports := x.inertExports.filter (fun _ owner => decide (owner ≠ c))
    inertImports := x.inertImports.filter (fun _ owner => decide (owner ≠ c))
    subscriptions := s
    ownership := ⟨x.ownership.clients.erase c⟩
    events := ds
    parentChanges := cs } :=
  ⟨_, _, _, _, _, rfl⟩

/-- But for what is queued, the order in which two clients go makes no difference. -/
theorem withoutClient_comm :
    { (x.withoutClient a).withoutClient b with
      events := ((x.withoutClient b).withoutClient a).events
      parentChanges := ((x.withoutClient b).withoutClient a).parentChanges } =
      (x.withoutClient b).withoutClient a := by
  have hexports := exports_withoutClient_comm h (a := a) (b := b)
  have himports := imports_withoutClient_comm h (a := a) (b := b)
  have hsubscriptions := subscriptions_withoutClient_comm h (a := a) (b := b)
  obtain ⟨E₁, I₁, s₁, ds₁, cs₁, ha⟩ := withoutClient_eq x a
  obtain ⟨E₂, I₂, s₂, ds₂, cs₂, hab⟩ := withoutClient_eq (x.withoutClient a) b
  obtain ⟨E₃, I₃, s₃, ds₃, cs₃, hb⟩ := withoutClient_eq x b
  obtain ⟨E₄, I₄, s₄, ds₄, cs₄, hba⟩ := withoutClient_eq (x.withoutClient b) a
  rw [hab, hba] at hexports himports hsubscriptions
  rw [hab, hba, ha, hb]
  simp only at hexports himports hsubscriptions ⊢
  rw [hexports, himports, hsubscriptions]
  simp only [Table.erase, Table.filter_filter, Bool.and_comm]

end Both

/-! ## What others are told -/

/-- The imports that lose their source when one client goes and then another. -/
def brokenOffInTurn (x : Exchange) (a b : ClientId) : List (ExportId × ImportId × ClientId) :=
  x.brokenOff a ++ (x.withoutClient a).brokenOff b

theorem events_withoutClient_both (h : x.Sound) (a b : ClientId) :
    ((x.withoutClient a).withoutClient b).events =
      x.events ++ (x.brokenOffInTurn a b).map parting := by
  rw [events_withoutClient (h.withoutClient a).coherent, events_withoutClient h.coherent,
    brokenOffInTurn, List.map_append, List.append_assoc]

/-- No two entries are about the same export and import. -/
theorem nodup_brokenOff (h : x.Coherent) (c : ClientId) : (x.brokenOff c).Nodup :=
  (brokenOff_ordered h c).imp fun {p q} hbefore heq => by
    subst heq
    rcases hbefore with hlt | ⟨-, hlt⟩
    · exact KeyOrder.irrefl _ hlt
    · exact Nat.lt_irrefl _ hlt

section Told

variable (h : x.Sound) {a b : ClientId}

include h

theorem nodup_brokenOffInTurn : (x.brokenOffInTurn a b).Nodup := by
  refine List.nodup_append.mpr ⟨nodup_brokenOff h.coherent a,
    nodup_brokenOff (h.withoutClient a).coherent b, ?_⟩
  rintro ⟨e, i, d⟩ hp q hq rfl
  obtain ⟨-, r, s, -, -, -, he, hs⟩ := (mem_brokenOff_iff h.coherent a e i d).mp hp
  obtain ⟨-, r', s', -, -, -, he', -⟩ :=
    (mem_brokenOff_iff (h.withoutClient a).coherent b e i d).mp hq
  -- an export of the first client is not there any more
  rw [find?_exports_withoutClient, he, Option.filter_some] at he'
  simp [hs] at he'

/-- For a third client it does not matter which of the two goes first. -/
theorem mem_brokenOffInTurn_iff {e : ExportId} {i : ImportId} {d : ClientId} (ha : d ≠ a)
    (hb : d ≠ b) : (e, i, d) ∈ x.brokenOffInTurn a b ↔ ∃ r s, x.imports.find? i = some r ∧
      r.client = d ∧ r.source = some e ∧ x.exports.find? e = some s ∧
      (s.client = a ∨ s.client = b) := by
  rw [brokenOffInTurn, List.mem_append, mem_brokenOff_iff h.coherent,
    mem_brokenOff_iff (h.withoutClient a).coherent]
  constructor
  · rintro (⟨-, r, s, hi, hc, hs, he, hclient⟩ | ⟨-, r', s', hi', hc, hs, he', hclient⟩)
    · exact ⟨r, s, hi, hc, hs, he, Or.inl hclient⟩
    · obtain ⟨r, hi, hr'⟩ := (import_withoutClient h.coherent (hc ▸ ha)).mp hi'
      rw [find?_exports_withoutClient] at he'
      obtain ⟨s, he, rfl⟩ := Option.map_eq_some_iff.mp he'
      split at hr'
      · rw [hr'] at hs
        cases hs
      · subst hr'
        exact ⟨r', s, hi, hc, hs, (Option.filter_eq_some_iff.mp he).1, Or.inr hclient⟩
  · rintro ⟨r, s, hi, hc, hs, he, hclient⟩
    by_cases hsa : s.client = a
    · exact Or.inl ⟨ha, r, s, hi, hc, hs, he, hsa⟩
    · have hsource : ¬ x.exportingClient? r = some a := by
        rw [exportingClient?, hs, Option.bind_some, he, Option.map_some, Option.some.injEq]
        exact hsa
      refine Or.inr ⟨hb, r, { s with
        importers := s.importers.filter (fun i => !x.isImportOf a i) }, ?_, hc, hs, ?_,
        hclient.resolve_left hsa⟩
      · exact (import_withoutClient h.coherent (hc ▸ ha)).mpr ⟨r, hi, (if_neg hsource).symm⟩
      · exact (export_withoutClient (by exact hsa)).mpr ⟨s, he, rfl⟩

/-- A third client is told of the same imports. -/
theorem brokenOffInTurn_perm {d : ClientId} (ha : d ≠ a) (hb : d ≠ b) :
    ((x.brokenOffInTurn a b).filter (fun p => decide (p.2.2 = d))).Perm
      ((x.brokenOffInTurn b a).filter (fun p => decide (p.2.2 = d))) := by
  refine (List.perm_ext_iff_of_nodup ((nodup_brokenOffInTurn h).filter _)
    ((nodup_brokenOffInTurn h).filter _)).mpr ?_
  rintro ⟨e, i, c⟩
  rw [List.mem_filter, List.mem_filter, decide_eq_true_eq]
  refine and_congr_left fun hc => ?_
  rw [show c = d from hc, mem_brokenOffInTurn_iff h ha hb, mem_brokenOffInTurn_iff h hb ha]
  simp only [or_comm]

end Told

/-! ## What the shell is told -/

/-- Children that are freed in two ways are freed alike if the same children are left. -/
theorem Frees.perm {y z : Exchange} {cs ks : List ParentChange} (hy : Frees x y cs)
    (hz : Frees x z ks) (hsame : ∀ c p, y.IsChildOf c p ↔ z.IsChildOf c p) : cs.Perm ks := by
  refine (List.perm_ext_iff_of_nodup hy.nodup hz.nodup).mpr fun ch => ?_
  rw [hy.cleared, hz.cleared]
  simp only [hsame]

end Exchange

namespace SurfaceStore

/-- Where no surface comes up twice, the order of parent changes makes no difference. -/
theorem setParents_perm (s : SurfaceStore) {cs ks : List ParentChange} (h : cs.Perm ks)
    (hn : (cs.map ParentChange.surface).Nodup) : s.setParents cs = s.setParents ks := by
  refine h.foldl_eq' (fun c hc d hd s => ?_) s
  by_cases hcd : c = d
  · rw [hcd]
  · have hne : c.surface ≠ d.surface := fun heq => hcd (List.inj_on_of_nodup_map hn hc hd heq)
    simp only [setParent, SurfaceStore.mk.injEq, and_true]
    apply Table.ext_find?
    intro k
    simp only [Table.find?_modify]
    by_cases hc : k = c.surface
    · have hd : k ≠ d.surface := hc ▸ hne
      simp [hc, hne]
    · simp [hc]

end SurfaceStore

namespace Exchange

/-- Two clients that go leave the same exchange in either order, but for what is queued. The
shell clears the same parents, each once, and so comes to the same ones. Every other client is
told of the same imports. -/
theorem Reachable.clientGone_comm {x : Exchange} (h : x.Reachable) (a b : ClientId) :
    ∃ y z, (x.clientGone a).clientGone b = y ∧ (x.clientGone b).clientGone a = z ∧
      { y with events := z.events, parentChanges := z.parentChanges } = z ∧
      (∃ cs ks, y.parentChanges = x.parentChanges ++ cs ∧
        z.parentChanges = x.parentChanges ++ ks ∧ cs.Perm ks ∧
        (cs.map ParentChange.surface).Nodup ∧ (∀ c ∈ cs, c.parent = none) ∧
        ∀ s : SurfaceStore, s.setParents cs = s.setParents ks) ∧
      ∃ ds es, y.events = x.events ++ ds ∧ z.events = x.events ++ es ∧
        (∀ m ∈ ds ++ es, ∃ i, m.event = .destroyed i) ∧
        ∀ d, d ≠ a → d ≠ b → (ds.filter (fun m => decide (m.client = d))).Perm
          (es.filter (fun m => decide (m.client = d))) := by
  have hsound := h.sound
  have hgone : ∀ c d, (x.clientGone c).clientGone d = (x.withoutClient c).withoutClient d := by
    intro c d
    have hleft := hsound.withoutClient c
    rw [clientGone_eq hsound.coherent hsound.registered, clientGone_eq hleft.coherent
      hleft.registered]
  rw [hgone, hgone]
  refine ⟨_, _, rfl, rfl, withoutClient_comm hsound, ?_, _, _,
    events_withoutClient_both hsound a b, events_withoutClient_both hsound b a, ?_, ?_⟩
  · have hfrees : ∀ c d, ∃ cs, Frees x ((x.withoutClient c).withoutClient d) cs := by
      intro c d
      obtain ⟨cs, hcs⟩ := hsound.coherent.frees_withoutClient c
      obtain ⟨ks, hks⟩ := (hsound.withoutClient c).coherent.frees_withoutClient d
      exact ⟨_, hcs.trans hks⟩
    obtain ⟨cs, hcs⟩ := hfrees a b
    obtain ⟨ks, hks⟩ := hfrees b a
    have hperm := hcs.perm hks fun c p =>
      isChildOf_congr (imports_withoutClient_comm hsound) (exports_withoutClient_comm hsound) c p
    exact ⟨cs, ks, hcs.parentChanges, hks.parentChanges, hperm, hcs.surfaces_nodup,
      fun c hc => ((hcs.cleared c).mp hc).1,
      fun s => s.setParents_perm hperm hcs.surfaces_nodup⟩
  · intro m hm
    rw [← List.map_append] at hm
    obtain ⟨p, -, rfl⟩ := List.mem_map.mp hm
    exact ⟨p.2.1, rfl⟩
  · intro d ha hb
    rw [List.filter_map, List.filter_map]
    exact (brokenOffInTurn_perm hsound ha hb).map parting

/-- The import of client 2 loses its source to client 1 if client 1 goes first, and its own
client is told so. In the other order it goes before. -/
theorem clientGone_comm_sharing : (rehearse sharing).2.Reachable ∧
    ∃ y z, ((rehearse sharing).2.clientGone ⟨1⟩).clientGone ⟨2⟩ = y ∧
      ((rehearse sharing).2.clientGone ⟨2⟩).clientGone ⟨1⟩ = z ∧
      { y with events := z.events, parentChanges := z.parentChanges } = z ∧
      y.events.length = 3 ∧ z.events.length = 2 := by
  have hreach := reachable_rehearse sharing
  obtain ⟨y, z, hy, hz, hsame, -⟩ := hreach.clientGone_comm ⟨1⟩ ⟨2⟩
  exact ⟨hreach, y, z, hy, hz, hsame, by rw [← hy]; rfl, by rw [← hz]; rfl⟩

end Exchange

end SurfaceExchange
