import SurfaceExchange.Exchange.Child
import SurfaceExchange.Proofs.Registration

/-!
# How exports, imports and subscriptions hang together

`Links` says that an export and its imports name each other and that no
surface has two foreign parents. `Watched` says that the registered
subscriptions are the tokens that live exports and links hold (`Holds`), each
under the watcher that takes its owner down. Together they are `Coherent`,
which every operation keeps.
-/

namespace SurfaceExchange

namespace ChildLink

/-- Both tokens of a link. -/
def tokens (l : ChildLink) : List Subscription := [l.unmap, l.setParent]

/-- What the shell is told when a link is dropped. -/
def parting (l : ChildLink) : ParentChange := ⟨l.surface, none⟩

/-- The tokens of a link are subscriptions to its own surface. -/
structure Placed (l : ChildLink) : Prop where
  unmap_surface : l.unmap.surface = l.surface
  unmap_event : l.unmap.event = .unmap
  setParent_surface : l.setParent.surface = l.surface
  setParent_event : l.setParent.event = .setParent

end ChildLink

/-- An import that has lost its source. -/
def Import.orphan (r : Import) : Import := { r with source := none, children := [] }

/-- An export's token is a subscription to its own surface. -/
structure Export.Placed (r : Export) : Prop where
  unmap_surface : r.unmap.surface = r.surface
  unmap_event : r.unmap.event = .unmap

/-- Exports and imports name each other, and links are where they should be. -/
structure Links (E : Table ExportId Export) (I : Table ImportId Import) : Prop where
  listed : ∀ {i r e}, I.find? i = some r → r.source = some e →
    ∃ s, E.find? e = some s ∧ i ∈ s.importers
  resolved : ∀ {e s i}, E.find? e = some s → i ∈ s.importers →
    ∃ r, I.find? i = some r ∧ r.source = some e
  /-- Importers are listed in the order in which they were made. -/
  ordered : ∀ {e s}, E.find? e = some s → s.importers.Pairwise (fun i j => i.serial < j.serial)
  childless : ∀ {i r}, I.find? i = some r → r.source = none → r.children = []
  exportPlaced : ∀ {e s}, E.find? e = some s → s.Placed
  linkPlaced : ∀ {i r l}, I.find? i = some r → l ∈ r.children → l.Placed
  surfaces_nodup : ∀ {i r}, I.find? i = some r → (r.children.map ChildLink.surface).Nodup
  oneParent : ∀ {i j r s l m}, I.find? i = some r → I.find? j = some s →
    l ∈ r.children → m ∈ s.children → l.surface = m.surface → i = j

/-- A live export or link holds the token, and this watcher takes it down. -/
inductive Holds (E : Table ExportId Export) (I : Table ImportId Import) :
    Subscription → Watcher → Prop
  | exportUnmap {e r} : E.find? e = some r → Holds E I r.unmap (.exportUnmap e)
  | childUnmap {i r l} : I.find? i = some r → l ∈ r.children →
      Holds E I l.unmap (.childUnmap i l.surface)
  | childSetParent {i r l} : I.find? i = some r → l ∈ r.children →
      Holds E I l.setParent (.childSetParent i l.surface)

/-- The tokens held are the subscriptions registered. -/
structure Watched (E : Table ExportId Export) (I : Table ImportId Import)
    (s : Subscriptions) : Prop where
  wellFormed : s.WellFormed
  listens_iff : ∀ {t w}, s.Listens t w ↔ Holds E I t w

/-- No exports refer to imports that are not there, nor the other way round, and nothing is
registered that nobody holds. -/
structure Exchange.Coherent (x : Exchange) : Prop where
  links : Links x.exports x.imports
  watched : Watched x.exports x.imports x.subscriptions

variable {E : Table ExportId Export} {I : Table ImportId Import} {s : Subscriptions}

namespace Links

theorem importers_nodup (h : Links E I) {e : ExportId} {r : Export} (he : E.find? e = some r) :
    r.importers.Nodup :=
  (h.ordered he).imp fun hlt heq => by rw [heq] at hlt; exact Nat.lt_irrefl _ hlt

/-- An import is resolved to a live export if and only if that export lists it. -/
theorem source_iff_listed (h : Links E I) (i : ImportId) (e : ExportId) :
    (∃ r, I.find? i = some r ∧ r.source = some e) ↔
      ∃ s, E.find? e = some s ∧ i ∈ s.importers := by
  constructor
  · rintro ⟨r, hi, hs⟩
    exact h.listed hi hs
  · rintro ⟨s, he, hm⟩
    exact h.resolved he hm

/-- Only its own source lists an import. -/
theorem source_of_listed (h : Links E I) {i : ImportId} {r : Import} {e : ExportId} {s : Export}
    (hi : I.find? i = some r) (he : E.find? e = some s) (hm : i ∈ s.importers) :
    r.source = some e := by
  obtain ⟨r', hi', hs⟩ := h.resolved he hm
  rw [hi] at hi'
  cases hi'
  exact hs

/-- Over all imports there is at most one link on a surface. -/
theorem link_unique (h : Links E I) {i j : ImportId} {r s : Import} {l m : ChildLink}
    (hi : I.find? i = some r) (hj : I.find? j = some s) (hl : l ∈ r.children)
    (hm : m ∈ s.children) (hs : l.surface = m.surface) : i = j ∧ l = m := by
  have hij := h.oneParent hi hj hl hm hs
  subst hij
  rw [hi] at hj
  cases hj
  exact ⟨rfl, List.inj_on_of_nodup_map (h.surfaces_nodup hi) hl hm hs⟩

end Links

namespace Watched

/-- A token is held in one way. -/
theorem holder_unique (h : Watched E I s) {t : Subscription} {w w' : Watcher}
    (hw : Holds E I t w) (hw' : Holds E I t w') : w = w' :=
  h.wellFormed.listener_unique (h.listens_iff.mpr hw) (h.listens_iff.mpr hw')

/-- What is taken off exports and imports has its tokens cancelled, and those only. -/
theorem remove (h : Watched E I s) {E' : Table ExportId Export} {I' : Table ImportId Import}
    {ts : List Subscription} (gone : Watcher → Prop)
    (hts : ∀ t, t ∈ ts ↔ ∃ w, Holds E I t w ∧ gone w)
    (hold : ∀ t w, Holds E' I' t w ↔ Holds E I t w ∧ ¬ gone w) :
    Watched E' I' (s.cancelAll ts) where
  wellFormed := h.wellFormed.cancelAll ts
  listens_iff := by
    intro t w
    rw [Subscriptions.listens_cancelAll h.wellFormed, hts, hold, h.listens_iff]
    constructor
    · rintro ⟨hn, hw⟩
      exact ⟨hw, fun hg => hn ⟨w, hw, hg⟩⟩
    · rintro ⟨hw, hn⟩
      refine ⟨?_, hw⟩
      rintro ⟨w', hw', hg⟩
      exact hn (h.holder_unique hw' hw ▸ hg)

/-- A new subscription is held by what was just made. -/
theorem subscribe (h : Watched E I s) {E' : Table ExportId Export} {I' : Table ImportId Import}
    (x : SurfaceId) (e : SurfaceEvent) (l : Watcher)
    (hold : ∀ t w, Holds E' I' t w ↔ (t = (s.subscribe x e l).1 ∧ w = l) ∨ Holds E I t w) :
    Watched E' I' (s.subscribe x e l).2 where
  wellFormed := h.wellFormed.subscribe x e l
  listens_iff := by
    intro t w
    rw [Subscriptions.listens_subscribe, hold, h.listens_iff]

end Watched

/-- No listener but the link's own hears of a new parent of its surface. -/
def Subscriptions.OnlyHears (s : Subscriptions) (l : ChildLink) : Prop :=
  ∀ t w, s.Listens t w → t.surface = l.surface → t.event = .setParent → t = l.setParent

theorem Subscriptions.OnlyHears.mono {s s' : Subscriptions} {l : ChildLink} (h : s.OnlyHears l)
    (hsub : ∀ t w, s'.Listens t w → s.Listens t w) : s'.OnlyHears l :=
  fun t w ht => h t w (hsub t w ht)

namespace Exchange.Coherent

variable {x : Exchange}

/-- Whoever listens to a surface's new parents is a link on that surface. -/
theorem link_of_listens (h : x.Coherent) {t : Subscription} {w : Watcher}
    (hw : x.subscriptions.Listens t w) (he : t.event = .setParent) :
    ∃ i r l, x.imports.find? i = some r ∧ l ∈ r.children ∧ t = l.setParent ∧
      t.surface = l.surface ∧ w = .childSetParent i l.surface := by
  cases h.watched.listens_iff.mp hw with
  | exportUnmap hf =>
    rw [(h.links.exportPlaced hf).unmap_event] at he
    cases he
  | childUnmap hf hl =>
    rw [(h.links.linkPlaced hf hl).unmap_event] at he
    cases he
  | childSetParent hf hl =>
    exact ⟨_, _, _, hf, hl, rfl, (h.links.linkPlaced hf hl).setParent_surface, rfl⟩

theorem onlyHears (h : x.Coherent) {i : ImportId} {r : Import} {l : ChildLink}
    (hi : x.imports.find? i = some r) (hl : l ∈ r.children) : x.subscriptions.OnlyHears l := by
  intro t w hw hs he
  obtain ⟨j, s, m, hj, hm, ht, hsm, -⟩ := h.link_of_listens hw he
  have hlm := (h.links.link_unique hi hj hl hm (hs.symm.trans hsm)).2
  rw [ht, hlm]

/-- Where no import has a link on a surface, nobody hears of its new parents. -/
theorem not_listens (h : x.Coherent) {c : SurfaceId}
    (hc : ∀ {i r l}, x.imports.find? i = some r → l ∈ r.children → l.surface ≠ c)
    {t : Subscription} {w : Watcher} (hs : t.surface = c) (he : t.event = .setParent) :
    ¬ x.subscriptions.Listens t w := by
  intro hw
  obtain ⟨i, r, l, hi, hl, -, hsl, -⟩ := h.link_of_listens hw he
  exact hc hi hl (hsl.symm.trans hs)

end Exchange.Coherent

end SurfaceExchange
