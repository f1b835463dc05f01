import SurfaceExchange.Proofs.Coherence

/-!
# Links that end and links that are made

A surface has at most one link, so a change of its parent ends that one link
and does nothing else (`parentChanged_eq`, `cutLink_eq`). A new link is made
on a surface that by then has none (`Coherent.attach`).
-/

namespace SurfaceExchange

/-- An import without its link on a surface. -/
def Import.disown (r : Import) (c : SurfaceId) : Import :=
  { r with children := r.children.filter (fun l => decide (l.surface ≠ c)) }

namespace Exchange

variable {x : Exchange} {c : SurfaceId}

/-- Some import has a link on the surface. -/
def IsChild (x : Exchange) (c : SurfaceId) : Prop :=
  ∃ i r l, x.imports.find? i = some r ∧ l ∈ r.children ∧ l.surface = c

/-- No import has a link on the surface any more. The tokens are those of the link that ends. -/
def disown (x : Exchange) (c : SurfaceId) (ts : List Subscription) : Exchange :=
  { x with
    imports := x.imports.mapValues (fun _ r => r.disown c)
    subscriptions := x.subscriptions.cancelAll ts }

theorem find?_imports_disown (c : SurfaceId) (ts : List Subscription) (i : ImportId) :
    (x.disown c ts).imports.find? i = (x.imports.find? i).map (·.disown c) :=
  Table.find?_mapValues _ _ _

theorem mem_children_disown_iff (r : Import) (c : SurfaceId) (l : ChildLink) :
    l ∈ (r.disown c).children ↔ l ∈ r.children ∧ l.surface ≠ c := by
  simp [Import.disown]

theorem not_isChild_disown (c : SurfaceId) (ts : List Subscription) :
    ¬ (x.disown c ts).IsChild c := by
  rintro ⟨i, r', l, hi, hl, hc⟩
  rw [find?_imports_disown, Option.map_eq_some_iff] at hi
  obtain ⟨r, -, rfl⟩ := hi
  exact ((mem_children_disown_iff r c l).mp hl).2 hc

/-! ## The link on a surface -/

theorem link_of_link? {i : ImportId} {l : ChildLink} (h : x.link? i c = some l) :
    ∃ r, x.imports.find? i = some r ∧ l ∈ r.children ∧ l.surface = c := by
  obtain ⟨r, hi, hf⟩ := Option.bind_eq_some_iff.mp h
  exact ⟨r, hi, List.mem_of_find?_eq_some hf, by simpa using List.find?_some hf⟩

theorem link?_eq_none_iff {i : ImportId} {r : Import} (hi : x.imports.find? i = some r) :
    x.link? i c = none ↔ ∀ l ∈ r.children, l.surface ≠ c := by
  rw [link?, hi, Option.bind_some, List.find?_eq_none]
  simp

theorem Coherent.link?_eq (h : x.Coherent) {i : ImportId} {r : Import} {l : ChildLink}
    (hi : x.imports.find? i = some r) (hl : l ∈ r.children) : x.link? i l.surface = some l := by
  cases hf : x.link? i l.surface with
  | none => exact absurd rfl ((link?_eq_none_iff hi).mp hf l hl)
  | some m =>
    obtain ⟨r', hi', hm, hs⟩ := link_of_link? hf
    rw [(h.links.link_unique hi' hi hm hl hs).2]

/-- Whoever has no link on the surface stays as it is. -/
theorem disown_of_unlinked {r : Import} (h : ∀ l ∈ r.children, l.surface ≠ c) :
    r.disown c = r := by
  rw [Import.disown, List.filter_eq_self.mpr fun l hl => by simpa using h l hl]

/-- Cutting a link is ending whatever link there is on its surface. -/
theorem Coherent.cutLink_eq (h : x.Coherent) {i : ImportId} {r : Import} {l : ChildLink}
    (hi : x.imports.find? i = some r) (hl : l ∈ r.children) :
    x.cutLink i l.surface = x.disown l.surface l.tokens := by
  have himports : x.imports.modify i (fun r => { r with
      children := r.children.eraseP (fun m => decide (m.surface = l.surface)) }) =
      x.imports.mapValues (fun _ r => r.disown l.surface) := by
    apply Table.ext_find?
    intro j
    rw [Table.find?_modify, Table.find?_mapValues]
    cases hj : x.imports.find? j with
    | none => simp
    | some s =>
      by_cases hij : j = i
      · simp only [if_pos hij, Option.map_some, Import.disown,
          eraseP_eq_filter (h.links.surfaces_nodup hj)]
      · have hs : s.disown l.surface = s := disown_of_unlinked fun m hm hml =>
          hij (h.links.oneParent hj hi hm hl hml)
        rw [if_neg hij, Option.map_some, hs]
  simp only [cutLink, h.link?_eq hi hl, release_eq, himports]
  rfl

theorem Coherent.snapshot_setParent (h : x.Coherent) {i : ImportId} {r : Import} {l : ChildLink}
    (hi : x.imports.find? i = some r) (hl : l ∈ r.children) :
    x.subscriptions.snapshot l.surface .setParent =
      [(l.setParent, .childSetParent i l.surface)] := by
  have hmem : ∀ p, p ∈ x.subscriptions.snapshot l.surface .setParent ↔
      p ∈ [(l.setParent, Watcher.childSetParent i l.surface)] := by
    rintro ⟨t, w⟩
    rw [Subscriptions.mem_snapshot_iff, List.mem_singleton]
    constructor
    · rintro ⟨hs, he, hw⟩
      obtain ⟨j, s, m, hj, hm, rfl, hsm, rfl⟩ := h.link_of_listens hw he
      obtain ⟨rfl, rfl⟩ := h.links.link_unique hj hi hm hl (hsm.symm.trans hs)
      rfl
    · intro heq
      cases heq
      exact ⟨(h.links.linkPlaced hi hl).setParent_surface,
        (h.links.linkPlaced hi hl).setParent_event,
        h.watched.listens_iff.mpr (.childSetParent hi hl)⟩
  have hn : (x.subscriptions.snapshot l.surface .setParent).Nodup :=
    List.Nodup.of_map Prod.fst (h.watched.wellFormed.snapshot_tokens_nodup _ _)
  exact List.perm_singleton.mp ((List.perm_ext_iff_of_nodup hn (List.nodup_singleton _)).mpr hmem)

/-- A change of a surface's parent ends the one link on it, if there is one. -/
theorem Coherent.parentChanged_eq (h : x.Coherent) (c : SurfaceId) :
    (¬ x.IsChild c ∧ x.parentChanged c = x) ∨
      ∃ i r l, x.imports.find? i = some r ∧ l ∈ r.children ∧ l.surface = c ∧
        x.parentChanged c = x.disown c l.tokens := by
  by_cases hc : x.IsChild c
  · obtain ⟨i, r, l, hi, hl, rfl⟩ := hc
    have hlive : x.subscriptions.isLive l.setParent = true :=
      (Subscriptions.isLive_iff _).mpr ⟨_, h.watched.listens_iff.mpr (.childSetParent hi hl)⟩
    refine Or.inr ⟨i, r, l, hi, hl, rfl, ?_⟩
    rw [parentChanged, deliver, h.snapshot_setParent hi hl, List.foldl_cons, List.foldl_nil,
      if_pos hlive, onSetParent, h.cutLink_eq hi hl]
  · refine Or.inl ⟨hc, deliver_of_silent (fun {t w} hs he hw => ?_) _⟩
    exact h.not_listens (fun {i r l} hi hl hlc => hc ⟨i, r, l, hi, hl, hlc⟩) hs he hw

/-! ## Coherence -/

theorem import_of_disown {ts : List Subscription} {j : ImportId} {s' : Import}
    (hj : (x.disown c ts).imports.find? j = some s') :
    ∃ s, x.imports.find? j = some s ∧ s.disown c = s' := by
  rwa [find?_imports_disown, Option.map_eq_some_iff] at hj

theorem Coherent.disown_links (h : x.Coherent) (c : SurfaceId) (ts : List Subscription) :
    Links (x.disown c ts).exports (x.disown c ts).imports where
  listed := by
    intro j s' e hj hs
    obtain ⟨s, hj', rfl⟩ := import_of_disown hj
    exact h.links.listed hj' hs
  resolved := by
    intro e s j he hm
    obtain ⟨r, hj, hs⟩ := h.links.resolved he hm
    exact ⟨r.disown c, by rw [find?_imports_disown, hj]; rfl, hs⟩
  ordered := h.links.ordered
  childless := by
    intro j s' hj hs
    obtain ⟨s, hj', rfl⟩ := import_of_disown hj
    rw [Import.disown, h.links.childless hj' hs]
    rfl
  exportPlaced := h.links.exportPlaced
  linkPlaced := by
    intro j s' m hj hm
    obtain ⟨s, hj', rfl⟩ := import_of_disown hj
    exact h.links.linkPlaced hj' ((mem_children_disown_iff s _ m).mp hm).1
  surfaces_nodup := by
    intro j s' hj
    obtain ⟨s, hj', rfl⟩ := import_of_disown hj
    exact (h.links.surfaces_nodup hj').sublist (List.filter_sublist.map _)
  oneParent := by
    intro j k s' u' m n hj hk hm hn
    obtain ⟨s, hj', rfl⟩ := import_of_disown hj
    obtain ⟨u, hk', rfl⟩ := import_of_disown hk
    exact h.links.oneParent hj' hk' ((mem_children_disown_iff s _ m).mp hm).1
      ((mem_children_disown_iff u _ n).mp hn).1

/-- The watchers that a link registers. -/
def IsWatcherOf (i : ImportId) (l : ChildLink) (w : Watcher) : Prop :=
  w = .childUnmap i l.surface ∨ w = .childSetParent i l.surface

section Disown

variable {i : ImportId} {r : Import} {l : ChildLink} (h : x.Coherent)
  (hi : x.imports.find? i = some r) (hl : l ∈ r.children)

include h hi hl

theorem mem_tokens_iff (t : Subscription) :
    t ∈ l.tokens ↔ ∃ w, Holds x.exports x.imports t w ∧ IsWatcherOf i l w := by
  simp only [ChildLink.tokens, List.mem_cons, List.not_mem_nil, or_false]
  constructor
  · rintro (rfl | rfl)
    · exact ⟨_, .childUnmap hi hl, Or.inl rfl⟩
    · exact ⟨_, .childSetParent hi hl, Or.inr rfl⟩
  · -- no other link of the import is on this surface
    rintro ⟨w, hw, rfl | rfl⟩
    · generalize hsurface : l.surface = c' at hw
      cases hw with
      | childUnmap hj hm =>
        exact Or.inl (by rw [(h.links.link_unique hj hi hm hl hsurface.symm).2])
    · generalize hsurface : l.surface = c' at hw
      cases hw with
      | childSetParent hj hm =>
        exact Or.inr (by rw [(h.links.link_unique hj hi hm hl hsurface.symm).2])

theorem holds_disown_iff (ts : List Subscription) (t : Subscription) (w : Watcher) :
    Holds (x.disown l.surface ts).exports (x.disown l.surface ts).imports t w ↔
      Holds x.exports x.imports t w ∧ ¬ IsWatcherOf i l w := by
  constructor
  · intro hw
    cases hw with
    | exportUnmap he => exact ⟨.exportUnmap he, by simp [IsWatcherOf]⟩
    | @childUnmap j s' m hj hm =>
      obtain ⟨s, hj', rfl⟩ := import_of_disown hj
      obtain ⟨hm, hne⟩ := (mem_children_disown_iff s _ m).mp hm
      exact ⟨.childUnmap hj' hm, by simp [IsWatcherOf, hne]⟩
    | @childSetParent j s' m hj hm =>
      obtain ⟨s, hj', rfl⟩ := import_of_disown hj
      obtain ⟨hm, hne⟩ := (mem_children_disown_iff s _ m).mp hm
      exact ⟨.childSetParent hj' hm, by simp [IsWatcherOf, hne]⟩
  · rintro ⟨hw, hn⟩
    have hkeep : ∀ {j s m}, x.imports.find? j = some s → m ∈ s.children →
        (j = i → m.surface ≠ l.surface) → m ∈ (s.disown l.surface).children := by
      intro j s m hj hm hne
      refine (mem_children_disown_iff s _ m).mpr ⟨hm, fun heq => ?_⟩
      exact hne (h.links.link_unique hj hi hm hl heq).1 heq
    cases hw with
    | exportUnmap he => exact .exportUnmap he
    | childUnmap hj hm =>
      refine .childUnmap (by rw [find?_imports_disown, hj]; rfl) (hkeep hj hm ?_)
      exact fun hji heq => hn (Or.inl (by rw [hji, heq]))
    | childSetParent hj hm =>
      refine .childSetParent (by rw [find?_imports_disown, hj]; rfl) (hkeep hj hm ?_)
      exact fun hji heq => hn (Or.inr (by rw [hji, heq]))

theorem Coherent.disown : (x.disown l.surface l.tokens).Coherent where
  links := h.disown_links _ _
  watched := h.watched.remove (IsWatcherOf i l) (mem_tokens_iff h hi hl)
    (holds_disown_iff h hi hl l.tokens)

end Disown

theorem Coherent.tell (h : x.Coherent) (s : SurfaceId) (p : Option SurfaceId) :
    (x.tell s p).Coherent :=
  ⟨h.links, h.watched⟩

theorem Coherent.parentChanged (h : x.Coherent) (c : SurfaceId) :
    (x.parentChanged c).Coherent := by
  rcases h.parentChanged_eq c with ⟨-, heq⟩ | ⟨i, r, l, hi, hl, rfl, heq⟩
  · rw [heq]
    exact h
  · rw [heq]
    exact h.disown hi hl

theorem Coherent.not_isChild_parentChanged (h : x.Coherent) (c : SurfaceId) :
    ¬ (x.parentChanged c).IsChild c := by
  rcases h.parentChanged_eq c with ⟨hc, heq⟩ | ⟨i, r, l, hi, hl, rfl, heq⟩
  · rw [heq]
    exact hc
  · rw [heq]
    exact not_isChild_disown _ _

/-! ## A new link -/

/-- Makes a link on a surface that has none. -/
def attach (x : Exchange) (i : ImportId) (c : SurfaceId) : Exchange :=
  let (unmap, x) := x.subscribe c .unmap (.childUnmap i c)
  let (setParent, x) := x.subscribe c .setParent (.childSetParent i c)
  { x with imports := x.imports.modify i (fun r =>
      { r with children := r.children ++ [⟨c, unmap, setParent⟩] }) }

theorem addLink_eq (i : ImportId) (p c : SurfaceId) :
    x.addLink i p c = (x.setParent c (some p)).attach i c := rfl

/-- The link that is made next. -/
def nextLink (x : Exchange) (c : SurfaceId) : ChildLink :=
  ⟨c, ⟨c, .unmap, ⟨x.subscriptions.nextId⟩⟩, ⟨c, .setParent, ⟨x.subscriptions.nextId + 1⟩⟩⟩

theorem find?_imports_attach (i j : ImportId) (c : SurfaceId) :
    (x.attach i c).imports.find? j = if j = i then
      (x.imports.find? j).map (fun r => { r with children := r.children ++ [x.nextLink c] })
    else x.imports.find? j :=
  Table.find?_modify _ _ _ _

theorem listens_attach_iff (i : ImportId) (c : SurfaceId) (t : Subscription) (w : Watcher) :
    (x.attach i c).subscriptions.Listens t w ↔
      (t = (x.nextLink c).setParent ∧ w = .childSetParent i c) ∨
        (t = (x.nextLink c).unmap ∧ w = .childUnmap i c) ∨ x.subscriptions.Listens t w := by
  have h1 := Subscriptions.listens_subscribe (s := x.subscriptions) c .unmap (.childUnmap i c) t w
  have h2 := Subscriptions.listens_subscribe
    (s := (x.subscriptions.subscribe c .unmap (.childUnmap i c)).2) c .setParent
    (.childSetParent i c) t w
  rw [h1] at h2
  exact h2

/-- A link of an exchange with a new link is the new one or one from before. -/
theorem link_of_attach {i j : ImportId} {s' : Import} {m : ChildLink}
    (hj : (x.attach i c).imports.find? j = some s') (hm : m ∈ s'.children) :
    (∃ s, x.imports.find? j = some s ∧ m ∈ s.children) ∨ (j = i ∧ m = x.nextLink c) := by
  rw [find?_imports_attach] at hj
  split at hj
  · next hji =>
    obtain ⟨s, hj', rfl⟩ := Option.map_eq_some_iff.mp hj
    rcases List.mem_append.mp hm with hm | hm
    · exact Or.inl ⟨s, hj', hm⟩
    · exact Or.inr ⟨hji, List.mem_singleton.mp hm⟩
  · exact Or.inl ⟨s', hj, hm⟩

theorem Coherent.attach_links (h : x.Coherent) {i : ImportId} {r : Import}
    (hi : x.imports.find? i = some r) (hs : r.source ≠ none) (hc : ¬ x.IsChild c) :
    Links (x.attach i c).exports (x.attach i c).imports := by
  have himport : ∀ {j s'}, (x.attach i c).imports.find? j = some s' →
      ∃ s, x.imports.find? j = some s ∧ s'.source = s.source ∧
        (s'.children = s.children ∨ (j = i ∧ s'.children = s.children ++ [x.nextLink c])) := by
    intro j s' hj
    rw [find?_imports_attach] at hj
    split at hj
    · next hji =>
      obtain ⟨s, hj', rfl⟩ := Option.map_eq_some_iff.mp hj
      exact ⟨s, hj', rfl, Or.inr ⟨hji, rfl⟩⟩
    · exact ⟨s', hj, rfl, Or.inl rfl⟩
  refine ⟨?_, ?_, h.links.ordered, ?_, h.links.exportPlaced, ?_, ?_, ?_⟩
  · intro j s' e hj hse
    obtain ⟨s, hj', hsource, -⟩ := himport hj
    exact h.links.listed hj' (hsource ▸ hse)
  · intro e s j he hm
    obtain ⟨s, hj, hse⟩ := h.links.resolved he hm
    rw [find?_imports_attach]
    split
    · exact ⟨{ s with children := s.children ++ [x.nextLink c] }, by rw [hj]; rfl, hse⟩
    · exact ⟨s, hj, hse⟩
  · intro j s' hj hsn
    obtain ⟨s, hj', hsource, hch | ⟨rfl, -⟩⟩ := himport hj
    · rw [hch, h.links.childless hj' (hsource ▸ hsn)]
    · rw [hi] at hj'
      cases hj'
      exact absurd (hsource ▸ hsn) hs
  · intro j s' m hj hm
    rcases link_of_attach hj hm with ⟨s, hj', hm'⟩ | ⟨-, rfl⟩
    · exact h.links.linkPlaced hj' hm'
    · exact ⟨rfl, rfl, rfl, rfl⟩
  · intro j s' hj
    obtain ⟨s, hj', -, hch | ⟨-, hch⟩⟩ := himport hj
    · rw [hch]
      exact h.links.surfaces_nodup hj'
    · rw [hch, List.map_append, List.nodup_append]
      refine ⟨h.links.surfaces_nodup hj', List.nodup_singleton _, fun a ha b hb hab => ?_⟩
      obtain ⟨l, hl, rfl⟩ := List.mem_map.mp ha
      rw [List.map_singleton, List.mem_singleton] at hb
      exact hc ⟨j, s, l, hj', hl, hab.trans hb⟩
  · intro j k s' u' m n hj hk hm hn hmn
    rcases link_of_attach hj hm with ⟨s, hj', hm'⟩ | ⟨rfl, rfl⟩ <;>
      rcases link_of_attach hk hn with ⟨u, hk', hn'⟩ | ⟨rfl, rfl⟩
    · exact h.links.oneParent hj' hk' hm' hn' hmn
    · exact absurd ⟨j, s, m, hj', hm', hmn⟩ hc
    · exact absurd ⟨k, u, n, hk', hn', hmn.symm⟩ hc
    · rfl

theorem Coherent.attach_watched (h : x.Coherent) {i : ImportId} {r : Import}
    (hi : x.imports.find? i = some r) :
    Watched (x.attach i c).exports (x.attach i c).imports (x.attach i c).subscriptions := by
  refine ⟨(h.watched.wellFormed.subscribe _ _ _).subscribe _ _ _, fun {t w} => ?_⟩
  rw [listens_attach_iff, h.watched.listens_iff]
  have hnew : (x.attach i c).imports.find? i =
      some { r with children := r.children ++ [x.nextLink c] } := by
    rw [find?_imports_attach, if_pos rfl, hi]
    rfl
  have hlast : x.nextLink c ∈ r.children ++ [x.nextLink c] := by simp
  have hkeep : ∀ {j s m}, x.imports.find? j = some s → m ∈ s.children →
      ∃ s', (x.attach i c).imports.find? j = some s' ∧ m ∈ s'.children := by
    intro j s m hj hm
    rw [find?_imports_attach]
    split
    · exact ⟨_, by rw [hj]; rfl, List.mem_append_left _ hm⟩
    · exact ⟨s, hj, hm⟩
  constructor
  · rintro (⟨rfl, rfl⟩ | ⟨rfl, rfl⟩ | hw)
    · exact .childSetParent hnew hlast
    · exact .childUnmap hnew hlast
    · cases hw with
      | exportUnmap he => exact .exportUnmap he
      | childUnmap hj hm =>
        obtain ⟨s', hj', hm'⟩ := hkeep hj hm
        exact .childUnmap hj' hm'
      | childSetParent hj hm =>
        obtain ⟨s', hj', hm'⟩ := hkeep hj hm
        exact .childSetParent hj' hm'
  · intro hw
    cases hw with
    | exportUnmap he => exact Or.inr (Or.inr (.exportUnmap he))
    | childUnmap hj hm =>
      rcases link_of_attach hj hm with ⟨s, hj', hm'⟩ | ⟨rfl, rfl⟩
      · exact Or.inr (Or.inr (.childUnmap hj' hm'))
      · exact Or.inr (Or.inl ⟨rfl, rfl⟩)
    | childSetParent hj hm =>
      rcases link_of_attach hj hm with ⟨s, hj', hm'⟩ | ⟨rfl, rfl⟩
      · exact Or.inr (Or.inr (.childSetParent hj' hm'))
      · exact Or.inl ⟨rfl, rfl⟩

theorem Coherent.attach (h : x.Coherent) {i : ImportId} {r : Import}
    (hi : x.imports.find? i = some r) (hs : r.source ≠ none) (hc : ¬ x.IsChild c) :
    (x.attach i c).Coherent :=
  ⟨h.attach_links hi hs hc, h.attach_watched hi⟩

end Exchange

end SurfaceExchange
