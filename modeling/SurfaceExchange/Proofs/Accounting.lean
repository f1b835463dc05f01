import Mathlib.Data.List.Perm.Subperm
import SurfaceExchange.Exchange.Audit
import SurfaceExchange.Proofs.Roll
import SurfaceExchange.Proofs.Run

/-!
# The accounts of an exchange

`heldEntries` lists the tokens that live exports and links hold, each with the
watcher that it should be registered for. On a coherent exchange this is what
is registered (`Coherent.entries_perm_heldEntries`), no token is held twice,
and an audit finds nothing (`Sound.violations_eq_nil`).

An audit is also exact on states that no run comes to (`audit_exact`). Of the
register it only asks whether held tokens are good and how many tokens there
are; that this leaves no room for a token that nothing holds is a matter of
counting (`registered_iff_held`). Exports and imports are in one table each, so
none can be with a registry that its id does not name.
-/

namespace SurfaceExchange

namespace ChildLink

/-- The tokens of a link that an import has made, with their watchers. -/
def entries (i : ImportId) (l : ChildLink) : List (Subscription × Watcher) :=
  [(l.unmap, .childUnmap i l.surface), (l.setParent, .childSetParent i l.surface)]

theorem map_fst_entries (i : ImportId) (l : ChildLink) :
    (l.entries i).map Prod.fst = l.tokens := rfl

end ChildLink

namespace Exchange

variable {x : Exchange}

/-- The token of an export with its watcher. -/
def exportEntry (p : ExportId × Export) : Subscription × Watcher := (p.2.unmap, .exportUnmap p.1)

/-- The tokens of an import's links with their watchers. -/
def linkEntries (p : ImportId × Import) : List (Subscription × Watcher) :=
  p.2.children.flatMap (ChildLink.entries p.1)

/-- The tokens that live exports and links hold, with their watchers. -/
def heldEntries (x : Exchange) : List (Subscription × Watcher) :=
  x.exports.toList.map exportEntry ++ x.imports.toList.flatMap linkEntries

theorem map_fst_heldEntries : x.heldEntries.map Prod.fst = x.heldSubscriptions := by
  have hexports : (x.exports.toList.map exportEntry).map Prod.fst =
      x.exports.values.map Export.unmap := by
    simp [Table.values, exportEntry, Function.comp_def]
  have hlinks : (x.imports.toList.flatMap linkEntries).map Prod.fst =
      x.imports.values.flatMap (fun r => r.children.flatMap (fun l => [l.unmap, l.setParent])) := by
    simp only [List.map_flatMap, linkEntries, ChildLink.map_fst_entries, Table.values,
      List.flatMap_map]
    rfl
  rw [heldEntries, List.map_append, hexports, hlinks, heldSubscriptions]

theorem mem_heldEntries_iff (t : Subscription) (w : Watcher) :
    (t, w) ∈ x.heldEntries ↔ Holds x.exports x.imports t w := by
  rw [heldEntries, List.mem_append, List.mem_map, List.mem_flatMap]
  constructor
  · rintro (⟨⟨e, s⟩, hp, heq⟩ | ⟨⟨i, r⟩, hp, hm⟩)
    · cases heq
      exact .exportUnmap ((x.exports.mem_toList_iff e s).mp hp)
    · have hi := (x.imports.mem_toList_iff i r).mp hp
      obtain ⟨l, hl, hm⟩ := List.mem_flatMap.mp hm
      simp only [ChildLink.entries, List.mem_cons, List.not_mem_nil, or_false] at hm
      rcases hm with heq | heq
      · cases heq
        exact .childUnmap hi hl
      · cases heq
        exact .childSetParent hi hl
  · intro hw
    cases hw with
    | @exportUnmap e s he => exact Or.inl ⟨(e, s), (x.exports.mem_toList_iff e s).mpr he, rfl⟩
    | @childUnmap i r l hi hl =>
      exact Or.inr ⟨(i, r), (x.imports.mem_toList_iff i r).mpr hi,
        List.mem_flatMap.mpr ⟨l, hl, List.mem_cons_self⟩⟩
    | @childSetParent i r l hi hl =>
      exact Or.inr ⟨(i, r), (x.imports.mem_toList_iff i r).mpr hi,
        List.mem_flatMap.mpr ⟨l, hl, List.mem_cons_of_mem _ List.mem_cons_self⟩⟩

/-- The watchers of an import's links name the import. -/
theorem watcher_of_linkEntries {p : ImportId × Import} {w : Watcher}
    (hw : w ∈ (linkEntries p).map Prod.snd) :
    ∃ c, w = .childUnmap p.1 c ∨ w = .childSetParent p.1 c := by
  obtain ⟨q, hq, rfl⟩ := List.mem_map.mp hw
  obtain ⟨l, -, hq⟩ := List.mem_flatMap.mp hq
  simp only [ChildLink.entries, List.mem_cons, List.not_mem_nil, or_false] at hq
  rcases hq with rfl | rfl
  · exact ⟨l.surface, Or.inl rfl⟩
  · exact ⟨l.surface, Or.inr rfl⟩

theorem linkEntries_nodup {p : ImportId × Import}
    (h : (p.2.children.map ChildLink.surface).Nodup) : ((linkEntries p).map Prod.snd).Nodup := by
  rw [linkEntries, List.map_flatMap, List.nodup_flatMap]
  refine ⟨fun l _ => by simp [ChildLink.entries], ?_⟩
  refine (List.pairwise_map.mp h).imp fun {l m} hne w hl hm => ?_
  simp only [ChildLink.entries, List.map_cons, List.map_nil, List.mem_cons, List.not_mem_nil,
    or_false] at hl hm
  rcases hl with rfl | rfl <;> rcases hm with heq | heq
  · exact hne (Watcher.childUnmap.inj heq).2
  · cases heq
  · cases heq
  · exact hne (Watcher.childSetParent.inj heq).2

/-- No two tokens are held for one reason. -/
theorem watchers_nodup (h : Links x.exports x.imports) :
    (x.heldEntries.map Prod.snd).Nodup := by
  rw [heldEntries, List.map_append, List.nodup_append]
  refine ⟨?_, ?_, ?_⟩
  · rw [List.map_map]
    exact List.pairwise_map.mpr (x.exports.ascending.imp fun {p q} hlt heq => by
      simp only [Function.comp_apply, exportEntry, Watcher.exportUnmap.injEq] at heq
      exact KeyOrder.ne_of_lt hlt heq)
  · rw [List.map_flatMap, List.nodup_flatMap]
    refine ⟨fun p hp => ?_, x.imports.ascending.imp fun {p q} hlt w hp hq => ?_⟩
    · exact linkEntries_nodup (h.surfaces_nodup ((x.imports.mem_toList_iff p.1 p.2).mp hp))
    · obtain ⟨c, rfl | rfl⟩ := watcher_of_linkEntries hp <;>
        obtain ⟨c', heq | heq⟩ := watcher_of_linkEntries hq
      · exact KeyOrder.ne_of_lt hlt (Watcher.childUnmap.inj heq).1
      · cases heq
      · cases heq
      · exact KeyOrder.ne_of_lt hlt (Watcher.childSetParent.inj heq).1
  · intro w hw w' hw' heq
    rw [List.map_map, List.mem_map] at hw
    rw [List.map_flatMap, List.mem_flatMap] at hw'
    obtain ⟨p, -, rfl⟩ := hw
    obtain ⟨q, -, hq⟩ := hw'
    obtain ⟨c, hc | hc⟩ := watcher_of_linkEntries hq <;> rw [hc] at heq <;> cases heq

/-- What is registered is what is held. -/
theorem Coherent.entries_perm_heldEntries (h : x.Coherent) :
    x.subscriptions.entries.Perm x.heldEntries := by
  have hheld : x.heldEntries.Nodup := List.Nodup.of_map Prod.snd (watchers_nodup h.links)
  refine (List.perm_ext_iff_of_nodup h.watched.wellFormed.entries_nodup hheld).mpr ?_
  rintro ⟨t, w⟩
  rw [Subscriptions.mem_entries_iff, mem_heldEntries_iff, h.watched.listens_iff]

/-- No token has two owners. -/
theorem Coherent.heldSubscriptions_nodup (h : x.Coherent) : x.heldSubscriptions.Nodup := by
  rw [← map_fst_heldEntries]
  exact (h.entries_perm_heldEntries.map Prod.fst).nodup_iff.mp
    h.watched.wellFormed.entries_tokens_nodup

/-- Live exports and links are counted by their subscriptions. -/
theorem length_heldSubscriptions : x.heldSubscriptions.length =
    x.exports.size + 2 * (x.imports.values.flatMap Import.children).length := by
  have hlinks : ∀ ls : List ChildLink,
      (ls.flatMap (fun l => [l.unmap, l.setParent])).length = 2 * ls.length := by
    intro ls
    induction ls with
    | nil => rfl
    | cons l ls ih =>
      simp only [List.flatMap_cons, List.length_append, List.length_cons, List.length_nil, ih]
      omega
  rw [heldSubscriptions, List.length_append, ← hlinks, List.flatMap_assoc, List.length_map,
    Table.values, List.length_map, Table.size]

theorem Coherent.size_subscriptions (h : x.Coherent) :
    x.subscriptions.size = x.heldSubscriptions.length := by
  rw [← Subscriptions.length_entries, h.entries_perm_heldEntries.length_eq, ← map_fst_heldEntries,
    List.length_map]

/-! ## What an audit finds -/

/-- References agree, nothing is live and inert at once, and what is registered is what is held. -/
structure Consistent (x : Exchange) : Prop where
  resolved : ∀ e s i, x.exports.find? e = some s → i ∈ s.importers →
    ∃ r, x.imports.find? i = some r ∧ r.source = some e
  listed : ∀ i r e, x.imports.find? i = some r → r.source = some e →
    ∃ s, x.exports.find? e = some s ∧ i ∈ s.importers
  exportsApart : ∀ e, ¬ (x.exports.contains e = true ∧ x.inertExports.contains e = true)
  importsApart : ∀ i, ¬ (x.imports.contains i = true ∧ x.inertImports.contains i = true)
  registered : ∀ t, (∃ w, x.subscriptions.Listens t w) ↔ ∃ w, Holds x.exports x.imports t w

theorem exportViolations_eq_nil_iff (e : ExportId) (s : Export) : x.exportViolations e s = [] ↔
    x.subscriptions.isLive s.unmap = true ∧
      ∀ i ∈ s.importers, ∃ r, x.imports.find? i = some r ∧ r.source = some e := by
  rw [exportViolations, List.append_eq_nil_iff, List.flatMap_eq_nil_iff]
  refine and_congr ?_ (forall₂_congr fun i _ => ?_)
  · split <;> simp [*]
  · split
    · next r hr =>
      simp only [hr, Option.some.injEq, exists_eq_left']
      split <;> simp [*]
    · next hr => simp [hr]

theorem importViolations_eq_nil_iff (i : ImportId) (r : Import) : x.importViolations i r = [] ↔
    (∀ e, r.source = some e → ∃ s, x.exports.find? e = some s ∧ i ∈ s.importers) ∧
      ∀ l ∈ r.children, x.subscriptions.isLive l.unmap = true ∧
        x.subscriptions.isLive l.setParent = true := by
  rw [importViolations, List.append_eq_nil_iff, List.flatMap_eq_nil_iff]
  refine and_congr ?_ (forall₂_congr fun l _ => ?_)
  · split
    · next hs => simp [hs]
    · next e hs =>
      simp only [hs, Option.some.injEq, forall_eq']
      split
      · next s he =>
        simp only [he, Option.some.injEq, exists_eq_left']
        split <;> simp [*]
      · next he => simp [he]
  · split <;> simp_all

theorem inertViolations_eq_nil_iff : x.inertViolations = [] ↔
    (∀ e, ¬ (x.exports.contains e = true ∧ x.inertExports.contains e = true)) ∧
      ∀ i, ¬ (x.imports.contains i = true ∧ x.inertImports.contains i = true) := by
  rw [inertViolations, List.append_eq_nil_iff, List.map_eq_nil_iff, List.map_eq_nil_iff,
    List.filter_eq_nil_iff, List.filter_eq_nil_iff]
  simp only [Table.contains_iff_mem_keys, not_and, imp_not_comm]

theorem mem_heldSubscriptions_iff (t : Subscription) :
    t ∈ x.heldSubscriptions ↔ ∃ w, Holds x.exports x.imports t w := by
  rw [← map_fst_heldEntries, List.mem_map]
  constructor
  · rintro ⟨⟨t, w⟩, hm, rfl⟩
    exact ⟨w, (mem_heldEntries_iff t w).mp hm⟩
  · rintro ⟨w, hw⟩
    exact ⟨(t, w), (mem_heldEntries_iff t w).mpr hw, rfl⟩

/-- Tokens that are held once each are the registered ones if and only if all of them are
registered and the numbers agree. -/
theorem registered_iff_held (h : x.subscriptions.WellFormed) (honce : x.heldSubscriptions.Nodup) :
    ((∀ t ∈ x.heldSubscriptions, x.subscriptions.isLive t = true) ∧
      x.subscriptions.size = x.heldSubscriptions.length) ↔
    ∀ t, (∃ w, x.subscriptions.Listens t w) ↔ ∃ w, Holds x.exports x.imports t w := by
  have hregistered : ∀ t, t ∈ x.subscriptions.entries.map Prod.fst ↔
      ∃ w, x.subscriptions.Listens t w := by
    intro t
    rw [List.mem_map]
    constructor
    · rintro ⟨⟨t, w⟩, hm, rfl⟩
      exact ⟨w, (Subscriptions.mem_entries_iff t w).mp hm⟩
    · rintro ⟨w, hw⟩
      exact ⟨(t, w), (Subscriptions.mem_entries_iff t w).mpr hw, rfl⟩
  have hsize : x.subscriptions.size = (x.subscriptions.entries.map Prod.fst).length := by
    rw [List.length_map, Subscriptions.length_entries]
  simp only [← mem_heldSubscriptions_iff, Subscriptions.isLive_iff, ← hregistered, hsize]
  constructor
  · rintro ⟨hlive, hlength⟩ t
    have hperm : x.heldSubscriptions.Perm (x.subscriptions.entries.map Prod.fst) :=
      (List.subperm_of_subset honce hlive).perm_of_length_le (Nat.le_of_eq hlength)
    exact hperm.mem_iff.symm
  · intro hsame
    have hperm : (x.subscriptions.entries.map Prod.fst).Perm x.heldSubscriptions :=
      (List.perm_ext_iff_of_nodup h.entries_tokens_nodup honce).mpr hsame
    exact ⟨fun t ht => (hsame t).mpr ht, hperm.length_eq⟩

/-- Whether a reference is broken shows at the object that holds it. -/
theorem violations_eq_nil_iff : x.violations = [] ↔
    (∀ e s, x.exports.find? e = some s → x.exportViolations e s = []) ∧
    (∀ i r, x.imports.find? i = some r → x.importViolations i r = []) ∧
    x.inertViolations = [] ∧ x.subscriptions.size = x.heldSubscriptions.length := by
  simp only [violations, List.append_eq_nil_iff, List.flatMap_eq_nil_iff, Prod.forall,
    Table.mem_toList_iff, ite_eq_left_iff, reduceCtorEq, imp_false, not_not, and_assoc]

theorem violations_eq_nil_iff_consistent (h : x.subscriptions.WellFormed)
    (honce : x.heldSubscriptions.Nodup) : x.violations = [] ↔ x.Consistent := by
  have hheld : (∀ t ∈ x.heldSubscriptions, x.subscriptions.isLive t = true) ↔
      (∀ e s, x.exports.find? e = some s → x.subscriptions.isLive s.unmap = true) ∧
      ∀ i r, x.imports.find? i = some r → ∀ l ∈ r.children,
        x.subscriptions.isLive l.unmap = true ∧ x.subscriptions.isLive l.setParent = true := by
    simp only [mem_heldSubscriptions_iff]
    constructor
    · intro hlive
      exact ⟨fun e s he => hlive _ ⟨_, .exportUnmap he⟩, fun i r hi l hl =>
        ⟨hlive _ ⟨_, .childUnmap hi hl⟩, hlive _ ⟨_, .childSetParent hi hl⟩⟩⟩
    · rintro ⟨hexports, himports⟩ t ⟨w, hw⟩
      cases hw with
      | exportUnmap he => exact hexports _ _ he
      | childUnmap hi hl => exact (himports _ _ hi _ hl).1
      | childSetParent hi hl => exact (himports _ _ hi _ hl).2
  simp only [violations_eq_nil_iff, exportViolations_eq_nil_iff, importViolations_eq_nil_iff,
    inertViolations_eq_nil_iff]
  constructor
  · rintro ⟨hexports, himports, ⟨hapart, hapart'⟩, hsize⟩
    refine ⟨fun e s i he hi => (hexports e s he).2 i hi,
      fun i r e hi hs => (himports i r hi).1 e hs,
      hapart, hapart', (registered_iff_held h honce).mp ⟨hheld.mpr ⟨?_, ?_⟩, hsize⟩⟩
    · exact fun e s he => (hexports e s he).1
    · exact fun i r hi => (himports i r hi).2
  · intro hc
    obtain ⟨hlive, hsize⟩ := (registered_iff_held h honce).mpr hc.registered
    obtain ⟨hexports, himports⟩ := hheld.mp hlive
    exact ⟨fun e s he => ⟨hexports e s he, fun i hi => hc.resolved e s i he hi⟩,
      fun i r hi => ⟨fun e hs => hc.listed i r e hi hs, himports i r hi⟩,
      ⟨hc.exportsApart, hc.importsApart⟩, hsize⟩

/-- Whatever state an exchange is in, with a register that was kept by subscribing and cancelling
and no token held twice, an audit finds nothing if and only if references agree, nothing is live and
inert at once, and the tokens registered are those that live exports and links hold. -/
theorem audit_exact (x : Exchange) (calls : List Subscriptions.Call)
    (hkept : x.subscriptions = (Subscriptions.keep calls).1) (honce : x.heldSubscriptions.Nodup) :
    x.violations = [] ↔ x.Consistent :=
  violations_eq_nil_iff_consistent (hkept ▸ (Subscriptions.represents_keep calls).wellFormed) honce

/-- The calls that made the register of `sharing`. -/
def sharingCalls : List Subscriptions.Call :=
  [.subscribe ⟨5⟩ .unmap (.exportUnmap ⟨⟨1⟩, 3⟩),
    .subscribe ⟨7⟩ .unmap (.childUnmap ⟨⟨2⟩, 4⟩ ⟨7⟩),
    .subscribe ⟨7⟩ .setParent (.childSetParent ⟨⟨2⟩, 4⟩ ⟨7⟩)]

/-- The exchange after `sharing`, with one more token that nothing holds. -/
def sharingOrphaned : Exchange :=
  { (rehearse sharing).2 with
    subscriptions := (Subscriptions.keep
      (sharingCalls ++ [.subscribe ⟨9⟩ .unmap (.exportUnmap ⟨⟨1⟩, 9⟩)])).1 }

theorem audit_exact_sharing : (rehearse sharing).2.Consistent ∧
    sharingOrphaned.violations = [.miscounted 4 3] ∧ ¬ sharingOrphaned.Consistent := by
  refine ⟨(audit_exact (rehearse sharing).2 sharingCalls (by decide +kernel)
    (by decide +kernel)).mp (by decide +kernel), by decide +kernel, fun hc => ?_⟩
  have hnone : sharingOrphaned.violations = [] :=
    (audit_exact sharingOrphaned _ rfl (by decide +kernel)).mpr hc
  have hfound : sharingOrphaned.violations ≠ [] := by decide +kernel
  exact hfound hnone

/-! ## Nothing to find -/

/-- An export that is live is not inert. -/
theorem Registered.inertExports_of_live (h : x.Registered) {e : ExportId}
    (he : x.exports.contains e = true) : x.inertExports.contains e = false := by
  obtain ⟨s, hs⟩ := Option.isSome_iff_exists.mp he
  have hlive : x.clientOf? (.exported e) = some s.client := by simp [clientOf?, hs]
  exact Option.isSome_eq_false_iff.mpr (Option.isNone_iff_eq_none.mpr (h.apart hlive))

/-- An import that is live is not inert. -/
theorem Registered.inertImports_of_live (h : x.Registered) {i : ImportId}
    (hi : x.imports.contains i = true) : x.inertImports.contains i = false := by
  obtain ⟨r, hr⟩ := Option.isSome_iff_exists.mp hi
  have hlive : x.clientOf? (.imported i) = some r.client := by simp [clientOf?, hr]
  exact Option.isSome_eq_false_iff.mpr (Option.isNone_iff_eq_none.mpr (h.apart hlive))

theorem Sound.consistent (h : x.Sound) : x.Consistent where
  resolved _ _ _ := h.coherent.links.resolved
  listed _ _ _ := h.coherent.links.listed
  exportsApart := by
    rintro e ⟨hlive, hinert⟩
    rw [h.registered.inertExports_of_live hlive] at hinert
    cases hinert
  importsApart := by
    rintro i ⟨hlive, hinert⟩
    rw [h.registered.inertImports_of_live hlive] at hinert
    cases hinert
  registered _ := exists_congr fun _ => h.coherent.watched.listens_iff

/-- An audit finds nothing. -/
theorem Sound.violations_eq_nil (h : x.Sound) : x.violations = [] :=
  (violations_eq_nil_iff_consistent h.coherent.watched.wellFormed
    h.coherent.heldSubscriptions_nodup).mpr h.consistent

/-! ## Over whole runs -/

/-- Exports and imports name each other, and nothing is live and inert at once. -/
structure CrossLinked (x : Exchange) : Prop where
  source_iff : ∀ i e, (∃ r, x.imports.find? i = some r ∧ r.source = some e) ↔
    ∃ s, x.exports.find? e = some s ∧ i ∈ s.importers
  importersOnce : ∀ e s, x.exports.find? e = some s → s.importers.Nodup
  exportsApart : ∀ e, ¬ (x.exports.contains e = true ∧ x.inertExports.contains e = true)
  importsApart : ∀ i, ¬ (x.imports.contains i = true ∧ x.inertImports.contains i = true)
  audited : x.violations = []

/-- In whatever order operations come, exports and imports name each other, nothing is live and
inert at once, and an audit finds nothing. -/
theorem Reachable.cross_linked (h : x.Reachable) : x.CrossLinked where
  source_iff := h.sound.coherent.links.source_iff_listed
  importersOnce _ _ he := h.sound.coherent.links.importers_nodup he
  exportsApart := by
    rintro e ⟨hlive, hinert⟩
    rw [h.sound.registered.inertExports_of_live hlive] at hinert
    cases hinert
  importsApart := by
    rintro i ⟨hlive, hinert⟩
    rw [h.sound.registered.inertImports_of_live hlive] at hinert
    cases hinert
  audited := h.sound.violations_eq_nil

theorem cross_linked_sharing : (rehearse sharing).2.Reachable ∧
    (∃ s, (rehearse sharing).2.exports.find? ⟨⟨1⟩, 3⟩ = some s ∧ ⟨⟨2⟩, 4⟩ ∈ s.importers) ∧
    (rehearse sharing).2.violations = [] :=
  ⟨reachable_rehearse sharing,
    ((reachable_rehearse sharing).cross_linked.source_iff ⟨⟨2⟩, 4⟩ ⟨⟨1⟩, 3⟩).mp ⟨_, rfl, rfl⟩,
    (reachable_rehearse sharing).cross_linked.audited⟩

/-- The subscriptions that are registered are the tokens of live exports and links. -/
structure SubscriptionsAccounted (x : Exchange) : Prop where
  held : x.subscriptions.entries.Perm x.heldEntries
  entriesOnce : x.subscriptions.entries.Nodup
  mem_snapshot_iff : ∀ c e t w, (t, w) ∈ x.subscriptions.snapshot c e ↔
    (t, w) ∈ x.heldEntries ∧ t.surface = c ∧ t.event = e
  heldOnce : x.heldSubscriptions.Nodup
  exportPlaced : ∀ e s, x.exports.find? e = some s →
    s.unmap.surface = s.surface ∧ s.unmap.event = .unmap
  linkPlaced : ∀ i r l, x.imports.find? i = some r → l ∈ r.children →
    (l.unmap.surface = l.surface ∧ l.unmap.event = .unmap) ∧
      (l.setParent.surface = l.surface ∧ l.setParent.event = .setParent)
  size_eq : x.subscriptions.size =
    x.exports.size + 2 * (x.imports.values.flatMap Import.children).length

/-- In whatever order operations come, the subscriptions that are registered are the tokens of
live exports and links: each once, on the right surface, for the right event and watcher. -/
theorem Reachable.subscriptions_accounted (h : x.Reachable) : x.SubscriptionsAccounted := by
  have hcoherent := h.sound.coherent
  constructor
  case held => exact hcoherent.entries_perm_heldEntries
  case entriesOnce => exact hcoherent.watched.wellFormed.entries_nodup
  case mem_snapshot_iff =>
    intro c e t w
    rw [Subscriptions.mem_snapshot_iff, mem_heldEntries_iff, hcoherent.watched.listens_iff]
    constructor
    · rintro ⟨hs, he, hw⟩
      exact ⟨hw, hs, he⟩
    · rintro ⟨hw, hs, he⟩
      exact ⟨hs, he, hw⟩
  case heldOnce => exact hcoherent.heldSubscriptions_nodup
  case exportPlaced =>
    intro e s he
    exact ⟨(hcoherent.links.exportPlaced he).unmap_surface,
      (hcoherent.links.exportPlaced he).unmap_event⟩
  case linkPlaced =>
    intro i r l hi hl
    have hplaced := hcoherent.links.linkPlaced hi hl
    exact ⟨⟨hplaced.unmap_surface, hplaced.unmap_event⟩,
      ⟨hplaced.setParent_surface, hplaced.setParent_event⟩⟩
  case size_eq => rw [hcoherent.size_subscriptions, length_heldSubscriptions]

theorem subscriptions_accounted_sharing : (rehearse sharing).2.Reachable ∧
    (rehearse sharing).2.subscriptions.entries.Perm (rehearse sharing).2.heldEntries ∧
    (rehearse sharing).2.heldEntries.length = 3 :=
  ⟨reachable_rehearse sharing, (reachable_rehearse sharing).subscriptions_accounted.held, rfl⟩

end Exchange

end SurfaceExchange
