import SurfaceExchange.Proofs.Endings
import SurfaceExchange.Proofs.OneParent

/-!
# Children that are declared and children that are freed

`IsChildOf` reads the links as a relation between surfaces. An operation frees
children (`Frees`): whoever has a parent no longer has it cleared by the shell,
once, and the shell is told of nothing else. Or it declares one child
(`Adopts`), and the shell is told of that one parent. That every operation but
the report of a new parent does one of the two is `perform_reparents`.
-/

namespace SurfaceExchange.Exchange

variable {L : Type} {x y z : Exchange} {cs cs' : List ParentChange} {c p : SurfaceId}

/-- A surface has a link that was made through an import of the other. -/
def IsChildOf (x : Exchange) (c p : SurfaceId) : Prop :=
  ∃ i r l e s, x.imports.find? i = some r ∧ l ∈ r.children ∧ l.surface = c ∧
    r.source = some e ∧ x.exports.find? e = some s ∧ s.surface = p

theorem isChildOf_congr (himports : y.imports = x.imports) (hexports : y.exports = x.exports)
    (c p : SurfaceId) : y.IsChildOf c p ↔ x.IsChildOf c p := by
  rw [IsChildOf, IsChildOf, himports, hexports]

namespace Coherent

/-- A link has a parent, for an import without a source has no links. -/
theorem isChildOf_of_link (h : x.Coherent) {i : ImportId} {r : Import} {l : ChildLink}
    (hi : x.imports.find? i = some r) (hl : l ∈ r.children) :
    ∃ e s, r.source = some e ∧ x.exports.find? e = some s ∧ x.IsChildOf l.surface s.surface := by
  cases hs : r.source with
  | none =>
    rw [h.links.childless hi hs] at hl
    cases hl
  | some e =>
    obtain ⟨s, he, -⟩ := h.links.listed hi hs
    exact ⟨e, s, rfl, he, i, r, l, e, s, hi, hl, rfl, hs, he, rfl⟩

theorem isChild_iff (h : x.Coherent) (c : SurfaceId) : x.IsChild c ↔ ∃ p, x.IsChildOf c p := by
  constructor
  · rintro ⟨i, r, l, hi, hl, rfl⟩
    obtain ⟨e, s, -, -, hc⟩ := h.isChildOf_of_link hi hl
    exact ⟨s.surface, hc⟩
  · rintro ⟨p, i, r, l, -, -, hi, hl, hc, -⟩
    exact ⟨i, r, l, hi, hl, hc⟩

end Coherent

/-! ## Children that are freed -/

/-- No export is new and no child; whoever was a child and is none any more has its parent
cleared, once. -/
structure Frees (x y : Exchange) (cs : List ParentChange) : Prop where
  parentChanges : y.parentChanges = x.parentChanges ++ cs
  exported : ∀ {e s'}, y.exports.find? e = some s' →
    ∃ s, x.exports.find? e = some s ∧ s'.surface = s.surface
  kept : ∀ {c p}, y.IsChildOf c p → x.IsChildOf c p
  cleared : ∀ ch, ch ∈ cs ↔
    ch.parent = none ∧ (∃ p, x.IsChildOf ch.surface p) ∧ ∀ p, ¬ y.IsChildOf ch.surface p
  nodup : cs.Nodup

namespace Frees

/-- Nothing happens to children. -/
theorem of_same (hparents : y.parentChanges = x.parentChanges)
    (hexports : ∀ {e s'}, y.exports.find? e = some s' →
      ∃ s, x.exports.find? e = some s ∧ s'.surface = s.surface)
    (hsame : ∀ c p, y.IsChildOf c p ↔ x.IsChildOf c p) : Frees x y [] where
  parentChanges := by rw [hparents, List.append_nil]
  exported := hexports
  kept := (hsame _ _).mp
  cleared := by
    intro ch
    refine iff_of_false (List.not_mem_nil) ?_
    rintro ⟨-, ⟨p, hp⟩, hn⟩
    exact hn p ((hsame _ p).mpr hp)
  nodup := List.nodup_nil

theorem of_eq (hparents : y.parentChanges = x.parentChanges) (himports : y.imports = x.imports)
    (hexports : y.exports = x.exports) : Frees x y [] :=
  of_same hparents (fun he => ⟨_, hexports ▸ he, rfl⟩) (isChildOf_congr himports hexports)

theorem refl (x : Exchange) : Frees x x [] := of_eq rfl rfl rfl

theorem trans (h : Frees x y cs) (h' : Frees y z cs') : Frees x z (cs ++ cs') where
  parentChanges := by rw [h'.parentChanges, h.parentChanges, List.append_assoc]
  exported := by
    intro e s'' he
    obtain ⟨s', he', hs'⟩ := h'.exported he
    obtain ⟨s, he, hs⟩ := h.exported he'
    exact ⟨s, he, hs'.trans hs⟩
  kept := fun hz => h.kept (h'.kept hz)
  cleared := by
    intro ch
    rw [List.mem_append, h.cleared, h'.cleared]
    constructor
    · rintro (⟨hp, hx, hy⟩ | ⟨hp, ⟨p, hy⟩, hz⟩)
      · exact ⟨hp, hx, fun p hz => hy p (h'.kept hz)⟩
      · exact ⟨hp, ⟨p, h.kept hy⟩, hz⟩
    · rintro ⟨hp, hx, hz⟩
      by_cases hy : ∃ p, y.IsChildOf ch.surface p
      · exact Or.inr ⟨hp, hy, hz⟩
      · exact Or.inl ⟨hp, hx, fun p hc => hy ⟨p, hc⟩⟩
  nodup := by
    refine List.nodup_append.mpr ⟨h.nodup, h'.nodup, fun a ha b hb hab => ?_⟩
    -- who is freed first is no child afterwards, and so is not freed again
    obtain ⟨-, -, hn⟩ := (h.cleared a).mp ha
    obtain ⟨-, ⟨p, hp⟩, -⟩ := (h'.cleared b).mp hb
    exact hn p (hab ▸ hp)

/-- No surface is freed twice. -/
theorem surfaces_nodup (h : Frees x y cs) : (cs.map ParentChange.surface).Nodup := by
  refine List.Nodup.map_on (fun c hc d hd heq => ?_) h.nodup
  obtain ⟨surface, parent⟩ := c
  obtain ⟨surface', parent'⟩ := d
  have hparent := ((h.cleared _).mp hc).1
  have hparent' := ((h.cleared _).mp hd).1
  simp_all

/-- Children are a matter of exports and imports. -/
theorem congr {y' : Exchange} (h : Frees x y cs) (hparents : y'.parentChanges = y.parentChanges)
    (himports : y'.imports = y.imports) (hexports : y'.exports = y.exports) : Frees x y' cs := by
  have hsame := h.trans (of_eq hparents himports hexports)
  rwa [List.append_nil] at hsame

/-- Links that go free the children that they were on, whatever becomes of the imports that
made them. -/
theorem of_gone (h : x.Coherent) (gone : ImportId → ChildLink → Prop) {ls : List ChildLink}
    (hparents : y.parentChanges = x.parentChanges ++ ls.map ChildLink.parting)
    (hexported : ∀ {e s'}, y.exports.find? e = some s' →
      ∃ s, x.exports.find? e = some s ∧ s'.surface = s.surface)
    (hls : ∀ l, l ∈ ls ↔ ∃ i r, x.imports.find? i = some r ∧ l ∈ r.children ∧ gone i l)
    (hn : ls.Nodup)
    (hleft : ∀ c p, y.IsChildOf c p ↔ ∃ i r l e s, x.imports.find? i = some r ∧ l ∈ r.children ∧
      l.surface = c ∧ r.source = some e ∧ x.exports.find? e = some s ∧ s.surface = p ∧
      ¬ gone i l) : Frees x y (ls.map ChildLink.parting) where
  parentChanges := hparents
  exported := hexported
  kept := by
    intro c p hy
    obtain ⟨i, r, l, e, s, hi, hl, hc, hs, he, hp, -⟩ := (hleft c p).mp hy
    exact ⟨i, r, l, e, s, hi, hl, hc, hs, he, hp⟩
  cleared := by
    intro ch
    rw [List.mem_map]
    constructor
    · rintro ⟨l, hl, rfl⟩
      obtain ⟨i, r, hi, hm, hgone⟩ := (hls l).mp hl
      obtain ⟨e, s, -, -, hc⟩ := h.isChildOf_of_link hi hm
      refine ⟨rfl, ⟨s.surface, hc⟩, fun p hy => ?_⟩
      -- the link on the surface is the one that goes
      obtain ⟨j, r', m, -, -, hj, hm', hs, -, -, -, hkept⟩ := (hleft _ p).mp hy
      obtain ⟨rfl, rfl⟩ := h.links.link_unique hj hi hm' hm hs
      exact hkept hgone
    · rintro ⟨hnone, ⟨p, i, r, l, e, s, hi, hl, hc, hs, he, hp⟩, hno⟩
      have hgone : gone i l := by
        by_contra hkept
        exact hno p ((hleft _ p).mpr ⟨i, r, l, e, s, hi, hl, hc, hs, he, hp, hkept⟩)
      refine ⟨l, (hls l).mpr ⟨i, r, hi, hl, hgone⟩, ?_⟩
      obtain ⟨c, parent⟩ := ch
      simp only at hnone hc
      rw [ChildLink.parting, hc, hnone]
  nodup := by
    refine List.Nodup.map_on (fun l hl m hm heq => ?_) hn
    obtain ⟨i, r, hi, hl, -⟩ := (hls l).mp hl
    obtain ⟨j, s, hj, hm, -⟩ := (hls m).mp hm
    exact (h.links.link_unique hi hj hl hm (ParentChange.mk.inj heq).1).2

end Frees

namespace Coherent

variable (h : x.Coherent)

include h

/-- No link is listed twice, under one import or under two. -/
theorem linksOf_nodup {is : List ImportId} (hn : is.Nodup) : (x.linksOf is).Nodup := by
  rw [linksOf, List.nodup_flatMap]
  refine ⟨fun i _ => ?_, hn.imp fun {i j} hne l hl hm => ?_⟩
  · cases hi : x.imports.find? i with
    | none => exact List.nodup_nil
    | some r => exact List.Nodup.of_map _ (h.links.surfaces_nodup hi)
  · obtain ⟨i', hi', r, hi, hl⟩ := (mem_linksOf_iff [i] l).mp (by simpa [linksOf] using hl)
    obtain ⟨j', hj', s, hj, hm⟩ := (mem_linksOf_iff [j] l).mp (by simpa [linksOf] using hm)
    rw [List.mem_singleton.mp hi'] at hi
    rw [List.mem_singleton.mp hj'] at hj
    exact hne (h.links.oneParent hi hj hl hm rfl)

theorem frees_dropExports {ps : List (ExportId × Export)}
    (hps : ∀ p ∈ ps, x.exports.find? p.1 = some p.2) (hn : (ps.map Prod.fst).Nodup) :
    Frees x (x.dropExports ps) ((x.linksOf (importersOf ps)).map ChildLink.parting) := by
  refine .of_gone h (fun i _ => i ∈ importersOf ps) rfl (fun {e s'} he => ?_) (fun l => ?_)
    (h.linksOf_nodup (h.importersOf_nodup hps hn)) (fun c p => ?_)
  · rw [find?_exports_dropExports] at he
    split at he
    · cases he
    · exact ⟨s', he, rfl⟩
  · rw [mem_linksOf_iff]
    constructor
    · rintro ⟨i, hi, r, hr, hl⟩
      exact ⟨i, r, hr, hl, hi⟩
    · rintro ⟨i, r, hr, hl, hi⟩
      exact ⟨i, hi, r, hr, hl⟩
  · constructor
    · rintro ⟨i, r', l, e, s, hi, hl, hc, hs, he, hp⟩
      obtain ⟨r, hr, ⟨-, rfl⟩ | ⟨hkept, rfl⟩⟩ := import_of_dropExports hi
      · cases hl
      · rw [find?_exports_dropExports] at he
        split at he
        · cases he
        · exact ⟨i, r', l, e, s, hr, hl, hc, hs, he, hp, hkept⟩
    · rintro ⟨i, r, l, e, s, hi, hl, hc, hs, he, hp, hkept⟩
      have hlive : e ∉ ps.map Prod.fst := fun hm =>
        hkept ((h.mem_importersOf_iff hps hi).mpr ⟨e, hm, hs⟩)
      refine ⟨i, r, l, e, s, ?_, hl, hc, hs, ?_, hp⟩
      · rw [find?_imports_dropExports, hi, Option.map_some, if_neg hkept]
      · rw [find?_exports_dropExports, if_neg hlive, he]

theorem frees_dropImports {ps : List (ImportId × Import)}
    (hps : ∀ p ∈ ps, x.imports.find? p.1 = some p.2) (hn : (ps.map Prod.fst).Nodup) :
    Frees x (x.dropImports ps) ((ps.flatMap (fun p => p.2.children)).map ChildLink.parting) := by
  have hlinks : ps.flatMap (fun p => p.2.children) = x.linksOf (ps.map Prod.fst) := by
    rw [linksOf, List.flatMap_map]
    exact List.flatMap_congr fun p hp => by rw [hps p hp]; rfl
  have hexported : ∀ {e s'}, (x.dropImports ps).exports.find? e = some s' →
      ∃ s, x.exports.find? e = some s ∧ s'.surface = s.surface := by
    intro e s' he
    rw [find?_exports_dropImports] at he
    obtain ⟨s, hs, rfl⟩ := Option.map_eq_some_iff.mp he
    exact ⟨s, hs, rfl⟩
  refine .of_gone h (fun i _ => i ∈ ps.map Prod.fst) rfl hexported (fun l => ?_)
    (hlinks ▸ h.linksOf_nodup hn) (fun c p => ?_)
  · rw [hlinks, mem_linksOf_iff]
    constructor
    · rintro ⟨i, hi, r, hr, hl⟩
      exact ⟨i, r, hr, hl, hi⟩
    · rintro ⟨i, r, hr, hl, hi⟩
      exact ⟨i, hi, r, hr, hl⟩
  · constructor
    · rintro ⟨i, r, l, e, s', hi, hl, hc, hs, he, hp⟩
      obtain ⟨hkept, hr⟩ := import_of_dropImports hi
      obtain ⟨s, he, hsurface⟩ := hexported he
      exact ⟨i, r, l, e, s, hr, hl, hc, hs, he, hsurface ▸ hp, hkept⟩
    · rintro ⟨i, r, l, e, s, hi, hl, hc, hs, he, hp, hkept⟩
      refine ⟨i, r, l, e, s.withoutImporters (ps.map Prod.fst), ?_, hl, hc, hs, ?_, hp⟩
      · rw [find?_imports_dropImports, if_neg hkept, hi]
      · rw [find?_exports_dropImports, he, Option.map_some]
        rfl

theorem frees_withoutClient (c : ClientId) : ∃ cs, Frees x (x.withoutClient c) cs := by
  have himports := h.frees_dropImports (importsHeld_live c) (Table.keys_nodup _)
  have hexports := (h.withoutImports c).frees_dropExports (exportsHeld_live c) (Table.keys_nodup _)
  exact ⟨_, (himports.trans hexports).congr rfl rfl rfl⟩

end Coherent

/-! Objects that are retired free the children that were declared through them. -/

theorem RetiresExports.frees (h : x.Coherent) (hxy : x.RetiresExports y) : ∃ cs, Frees x y cs := by
  cases hxy with
  | nothing => exact ⟨[], .refl x⟩
  | drop w hlive hn _ _ => exact ⟨_, (h.frees_dropExports hlive hn).congr rfl rfl rfl⟩

theorem RetiresImports.frees (h : x.Coherent) (hxy : x.RetiresImports y) : ∃ cs, Frees x y cs := by
  cases hxy with
  | nothing => exact ⟨[], .refl x⟩
  | drop w hlive hn _ _ => exact ⟨_, (h.frees_dropImports hlive hn).congr rfl rfl rfl⟩

/-! ## Surfaces that unmap or get another parent -/

/-- No child is left on a surface whose links end. -/
theorem isChildOf_disown_iff (ts : List Subscription) (c c' p : SurfaceId) :
    (x.disown c ts).IsChildOf c' p ↔ c' ≠ c ∧ x.IsChildOf c' p := by
  constructor
  · rintro ⟨i, r', l, e, s, hi, hl, hc, hs, he, hp⟩
    obtain ⟨r, hr, rfl⟩ := import_of_disown hi
    obtain ⟨hl, hne⟩ := (mem_children_disown_iff r c l).mp hl
    exact ⟨hc ▸ hne, i, r, l, e, s, hr, hl, hc, hs, he, hp⟩
  · rintro ⟨hne, i, r, l, e, s, hi, hl, hc, hs, he, hp⟩
    refine ⟨i, r.disown c, l, e, s, by rw [find?_imports_disown, hi]; rfl, ?_, hc, hs, he, hp⟩
    exact (mem_children_disown_iff r c l).mpr ⟨hl, hc ▸ hne⟩

/-- A change of a surface's parent ends the link on it. The shell is told of nothing. -/
theorem Coherent.isChildOf_parentChanged_iff (h : x.Coherent) (c c' p : SurfaceId) :
    (x.parentChanged c).IsChildOf c' p ↔ c' ≠ c ∧ x.IsChildOf c' p := by
  rcases h.parentChanged_eq c with ⟨hc, heq⟩ | ⟨i, r, l, -, -, rfl, heq⟩
  · rw [heq]
    refine ⟨fun hx => ⟨?_, hx⟩, And.right⟩
    rintro rfl
    exact hc ((h.isChild_iff c').mpr ⟨p, hx⟩)
  · rw [heq, isChildOf_disown_iff]

theorem Coherent.parentChanges_parentChanged (h : x.Coherent) (c : SurfaceId) :
    (x.parentChanged c).parentChanges = x.parentChanges := by
  rcases h.parentChanged_eq c with ⟨-, heq⟩ | ⟨i, r, l, -, -, -, heq⟩ <;> rw [heq]
  rfl

/-- A link on a surface that unmaps goes, and the surface's parent is cleared. -/
theorem Coherent.frees_disown (h : x.Coherent) {i : ImportId} {r : Import} {l : ChildLink}
    (hi : x.imports.find? i = some r) (hl : l ∈ r.children) (ts : List Subscription) :
    Frees x ((x.disown l.surface ts).tell l.surface none) [l.parting] := by
  show Frees x _ ([l].map ChildLink.parting)
  refine .of_gone h (fun _ m => m.surface = l.surface) rfl
    (fun {e s'} he => ⟨s', he, rfl⟩) (fun m => ?_) (List.nodup_singleton l) (fun c p => ?_)
  · rw [List.mem_singleton]
    constructor
    · rintro rfl
      exact ⟨i, r, hi, hl, rfl⟩
    · rintro ⟨j, s, hj, hm, hs⟩
      exact (h.links.link_unique hj hi hm hl hs).2
  · rw [show ((x.disown l.surface ts).tell l.surface none).IsChildOf c p ↔ _ from
      isChildOf_disown_iff ts l.surface c p]
    constructor
    · rintro ⟨hne, j, s, m, e, t, hj, hm, hc, hs, he, hp⟩
      exact ⟨j, s, m, e, t, hj, hm, hc, hs, he, hp, hc ▸ hne⟩
    · rintro ⟨j, s, m, e, t, hj, hm, hc, hs, he, hp, hne⟩
      exact ⟨hc ▸ hne, j, s, m, e, t, hj, hm, hc, hs, he, hp⟩

/-- An unmap frees the surface itself and the children of its exports. -/
theorem Sound.frees_unmapped (h : x.Sound) (c : SurfaceId) : ∃ cs, Frees x (x.unmapped c) cs := by
  refine (h.unmapped_induction c (P := fun y => ∃ cs, Frees x y cs) ⟨[], .refl x⟩ ?_ ?_).2.1
  · rintro y e s hy ⟨cs, hfrees⟩ - -
    obtain ⟨cs', hfrees'⟩ := (retiresExports_retireExport hy.coherent e .inert).frees hy.coherent
    exact ⟨_, hfrees.trans hfrees'⟩
  · rintro y i r l hy ⟨cs, hfrees⟩ hi hl -
    exact ⟨_, hfrees.trans (hy.coherent.frees_disown hi hl _)⟩

/-! ## Children that are declared -/

/-- A surface becomes the child of an exported one, and of that one only. The shell is told of
the new parent and of nothing else. -/
structure Adopts (x y : Exchange) (c p : SurfaceId) : Prop where
  parentChanges : y.parentChanges = x.parentChanges ++ [⟨c, some p⟩]
  exports : y.exports = x.exports
  children : ∀ c' p', y.IsChildOf c' p' ↔ (c' = c ∧ p' = p) ∨ (c' ≠ c ∧ x.IsChildOf c' p')

/-- A new link makes a surface a child and leaves the other children alone. -/
theorem isChildOf_attach_iff {i : ImportId} {r : Import} {e : ExportId} {s : Export}
    (hi : x.imports.find? i = some r) (hs : r.source = some e) (he : x.exports.find? e = some s)
    (c c' p : SurfaceId) :
    (x.attach i c).IsChildOf c' p ↔ (c' = c ∧ p = s.surface) ∨ x.IsChildOf c' p := by
  have hkept : ∀ j, ∃ ls, (x.attach i c).imports.find? j =
      (x.imports.find? j).map (fun r => { r with children := r.children ++ ls }) ∧
        (j = i → ls = [x.nextLink c]) := by
    intro j
    rw [find?_imports_attach]
    by_cases hji : j = i
    · exact ⟨[x.nextLink c], if_pos hji, fun _ => rfl⟩
    · refine ⟨[], ?_, fun heq => absurd heq hji⟩
      rw [if_neg hji]
      simp
  constructor
  · rintro ⟨j, r', l, e', t, hj, hl, hc, hs', he', hp⟩
    obtain ⟨ls, hfind, -⟩ := hkept j
    rcases link_of_attach hj hl with ⟨r₀, hj₀, hl₀⟩ | ⟨rfl, rfl⟩
    · rw [hfind, hj₀] at hj
      cases hj
      exact Or.inr ⟨j, r₀, l, e', t, hj₀, hl₀, hc, hs', he', hp⟩
    · rw [hfind, hi] at hj
      cases hj
      obtain rfl : e = e' := Option.some.inj (hs.symm.trans hs')
      obtain rfl : s = t := Option.some.inj (he.symm.trans he')
      exact Or.inl ⟨hc.symm, hp.symm⟩
  · rintro (⟨rfl, rfl⟩ | ⟨j, r', l, e', t, hj, hl, hc, hs', he', hp⟩)
    · obtain ⟨ls, hfind, hnew⟩ := hkept i
      rw [hi, hnew rfl] at hfind
      exact ⟨i, _, x.nextLink c', e, s, hfind, List.mem_append_right _ List.mem_cons_self, rfl, hs,
        he, rfl⟩
    · obtain ⟨ls, hfind, -⟩ := hkept j
      rw [hj] at hfind
      exact ⟨j, _, l, e', t, hfind, List.mem_append_left _ hl, hc, hs', he', hp⟩

theorem Coherent.adopts_addLink (h : x.Coherent) {i : ImportId} {r : Import} {e : ExportId}
    {s : Export} (hi : x.imports.find? i = some r) (hs : r.source = some e)
    (he : x.exports.find? e = some s) (c : SurfaceId) :
    Adopts x (x.addLink i s.surface c) c s.surface := by
  have htold : (x.tell c (some s.surface)).Coherent := h.tell c (some s.surface)
  have hexports : (x.setParent c (some s.surface)).exports = x.exports :=
    exports_parentChanged htold c
  have hfind : (x.setParent c (some s.surface)).imports.find? i = some (r.disown c) := by
    have hcleared := htold.find?_imports_parentChanged c i
    rw [show (x.tell c (some s.surface)).imports.find? i = some r from hi] at hcleared
    exact hcleared
  refine ⟨htold.parentChanges_parentChanged c, hexports, fun c' p' => ?_⟩
  rw [addLink_eq, isChildOf_attach_iff hfind hs (by rw [hexports, he])]
  exact or_congr_right (htold.isChildOf_parentChanged_iff c c' p')

/-! ## Objects that are made -/

/-- A new export has no children yet. -/
theorem Sound.isChildOf_addExport_iff (h : x.Sound) (q : ExporterId) (g : Registry)
    (surface : SurfaceId) (handle : Handle) (c p : SurfaceId) :
    (x.addExport q g surface handle).2.IsChildOf c p ↔ x.IsChildOf c p := by
  have hfree := h.find?_exports_next q
  constructor
  · rintro ⟨i, r, l, e, s, hi, hl, hc, hs, he, hp⟩
    refine ⟨i, r, l, e, s, hi, hl, hc, hs, ?_, hp⟩
    obtain ⟨s', he', -⟩ := h.coherent.links.listed hi hs
    rcases Table.of_find?_insert he with ⟨rfl, -⟩ | hold
    · rw [hfree] at he'
      cases he'
    · exact hold
  · rintro ⟨i, r, l, e, s, hi, hl, hc, hs, he, hp⟩
    exact ⟨i, r, l, e, s, hi, hl, hc, hs, Table.find?_insert_of_free hfree he, hp⟩

/-- A new import has no links yet. -/
theorem Sound.isChildOf_addImport_iff (h : x.Sound) (m : ImporterId) (g : Registry)
    (handle : String) (c p : SurfaceId) :
    (x.addImport m g handle).2.IsChildOf c p ↔ x.IsChildOf c p := by
  have hfree := h.find?_imports_next m
  rw [addImport_eq]
  constructor
  · rintro ⟨i, r, l, e, s', hi, hl, hc, hs, he, hp⟩
    rw [Table.find?_mapValues] at he
    obtain ⟨s, hold, rfl⟩ := Option.map_eq_some_iff.mp he
    exact ⟨i, r, l, e, s, of_find?_insert_childless rfl hi hl, hl, hc, hs, hold, hp⟩
  · rintro ⟨i, r, l, e, s, hi, hl, hc, hs, he, hp⟩
    have hlisted := Table.find?_mapValues (fun e (s : Export) => { s with
      importers := if x.resolve handle = some e then s.importers ++ [(⟨m, x.nextId⟩ : ImportId)]
        else s.importers }) x.exports e
    rw [he] at hlisted
    exact ⟨i, r, l, e, _, Table.find?_insert_of_free hfree hi, hl, hc, hs, hlisted, hp⟩

theorem Sound.frees_addImport (h : x.Sound) (m : ImporterId) (g : Registry) (handle : String) :
    Frees x (x.addImport m g handle).2 [] := by
  refine .of_same (by rw [addImport_eq]) (fun {e s'} he => ?_)
    (h.isChildOf_addImport_iff m g handle)
  rw [addImport_eq, Table.find?_mapValues] at he
  obtain ⟨s, hs, rfl⟩ := Option.map_eq_some_iff.mp he
  exact ⟨s, hs, rfl⟩

theorem Sound.frees_clientGone (h : x.Sound) (c : ClientId) :
    ∃ cs, Frees x (x.clientGone c) cs := by
  rw [clientGone_eq h.coherent h.registered]
  exact h.coherent.frees_withoutClient c

/-- An expelled client goes like any other. -/
theorem Sound.frees_expelled (h : x.Sound) (handles : HandleStream) (c : ClientId)
    (err : ProtocolError) :
    ∃ cs, Frees x (({ x with handles }.send c (.error err)).clientGone c) cs := by
  obtain ⟨cs, hfrees⟩ := (h.blame handles c err).frees_clientGone c
  have hblamed : Frees x ({ x with handles }.send c (.error err)) [] := .of_eq rfl rfl rfl
  exact ⟨_, hblamed.trans hfrees⟩

/-! ## Any operation -/

/-- What an operation does to parents and children. -/
inductive Reparents (view : ShellView) (x y : Exchange) : Prop
  | frees {cs : List ParentChange} : Frees x y cs → Reparents view x y
  | adopts {c p : SurfaceId} : view.role c = some .toplevel → Adopts x y c p → Reparents view x y
  /-- A toplevel may be exported. -/
  | exports : y.parentChanges = x.parentChanges →
      (∀ {e s'}, y.exports.find? e = some s' →
        (∃ s, x.exports.find? e = some s ∧ s'.surface = s.surface) ∨
          view.role s'.surface = some .toplevel) →
      (∀ c p, y.IsChildOf c p ↔ x.IsChildOf c p) → Reparents view x y

variable {view : ShellView} {patience : Nat} {d d' : Display L}

theorem Reparents.of_frees (h : ∃ cs, Frees x y cs) : Reparents view x y :=
  let ⟨_, hfrees⟩ := h
  .frees hfrees

theorem bindExporter_frees (c : ClientId) : Frees x (x.bindExporter d c).2 [] := by
  unfold bindExporter
  split <;> exact .of_eq rfl rfl rfl

theorem bindImporter_frees (c : ClientId) : Frees x (x.bindImporter d c).2 [] := by
  unfold bindImporter
  split <;> exact .of_eq rfl rfl rfl

theorem importHandle_frees (h : x.Sound) (m : ImporterId) (handle : String) :
    Frees x (x.importHandle m handle).2 [] := by
  rcases importHandle_cases (x := x) m handle with ⟨err, heq⟩ | ⟨g, -, -, heq⟩ <;> rw [heq]
  · exact .refl x
  · exact h.frees_addImport m g handle

theorem destroyExport_frees (h : x.Sound) (e : ExportId) :
    ∃ cs, Frees x (x.destroyExport e).2 cs := by
  unfold destroyExport
  split
  · exact (retiresExports_retireExport h.coherent e .nothing).frees h.coherent
  · split <;> exact ⟨[], .of_eq rfl rfl rfl⟩

theorem destroyImport_frees (h : x.Sound) (i : ImportId) :
    ∃ cs, Frees x (x.destroyImport i).2 cs := by
  unfold destroyImport
  split
  · exact (retiresImports_retireImport h.coherent i .nothing).frees h.coherent
  · split <;> exact ⟨[], .of_eq rfl rfl rfl⟩

theorem destroyExporter_frees (h : x.Sound) (q : ExporterId) :
    ∃ cs, Frees x (x.destroyExporter q).2 cs := by
  unfold destroyExporter
  split
  · exact (retiresExports_retireExporter h.coherent q .inert).frees h.coherent
  · exact ⟨[], .refl x⟩

theorem destroyImporter_frees (h : x.Sound) (m : ImporterId) :
    ∃ cs, Frees x (x.destroyImporter m).2 cs := by
  unfold destroyImporter
  split
  · exact (retiresImports_retireImporter h.coherent m .inert).frees h.coherent
  · exact ⟨[], .refl x⟩

/-- An export makes nobody a child, and what is new is a toplevel. -/
theorem exportSurface_children (h : x.Sound) {q : ExporterId} {c : SurfaceId}
    {res : Except RequestError ExportId}
    (hp : x.exportSurface view patience q c = some (res, y)) :
    y.parentChanges = x.parentChanges ∧
    (∀ {e s'}, y.exports.find? e = some s' →
      (∃ s, x.exports.find? e = some s ∧ s'.surface = s.surface) ∨
        view.role s'.surface = some .toplevel) ∧
    ∀ c p, y.IsChildOf c p ↔ x.IsChildOf c p := by
  cases exporting_of_exportSurface hp with
  | failed err handles => exact ⟨rfl, fun he => Or.inl ⟨_, he, rfl⟩, isChildOf_congr rfl rfl⟩
  | @made g handle handles _ hrole =>
    have hdrawn : { x with handles : Exchange }.Sound :=
      h.congr rfl rfl rfl rfl rfl rfl rfl rfl rfl
    refine ⟨rfl, fun {e s'} he => ?_, hdrawn.isChildOf_addExport_iff q g c handle⟩
    rcases Table.of_find?_insert he with ⟨-, rfl⟩ | hold
    · exact Or.inr hrole
    · exact Or.inl ⟨s', hold, rfl⟩

theorem setParentOf_reparents (h : x.Sound) (i : ImportId) (c : SurfaceId) :
    Reparents view x (x.setParentOf view i c).2 := by
  rcases setParentOf_cases (x := x) view i c with heq | ⟨r, e, s, hi, hs, he, hrole, -, heq⟩ <;>
    rw [heq]
  · exact .frees (.refl x)
  · exact .adopts hrole (h.coherent.adopts_addLink hi hs he c)

/-- An operation that neither declares a child nor exports a surface frees children at most, unless
it is a report of the shell's. -/
theorem frees_of_direct (h : x.Sound) {op : Operation} {a : Answer}
    (hdirect : ∀ c r, op ≠ .dispatch c r) (hop : ∀ c, op ≠ .parentChanged c)
    (hdeclares : ∀ i c, op ≠ .setParentOf i c) (hexports : ∀ q c, op ≠ .exportSurface q c)
    (hp : x.perform view patience d op = some (a, y, d')) : ∃ cs, Frees x y cs := by
  cases op with
  | bindExporter c =>
    cases hp
    exact ⟨[], bindExporter_frees c⟩
  | bindImporter c =>
    cases hp
    exact ⟨[], bindImporter_frees c⟩
  | exportSurface q c => exact absurd rfl (hexports q c)
  | importHandle m handle =>
    cases hp
    exact ⟨[], importHandle_frees h m handle⟩
  | setParentOf i c => exact absurd rfl (hdeclares i c)
  | destroyExport e =>
    cases hp
    exact destroyExport_frees h e
  | destroyImport i =>
    cases hp
    exact destroyImport_frees h i
  | destroyExporter q =>
    cases hp
    exact destroyExporter_frees h q
  | destroyImporter m =>
    cases hp
    exact destroyImporter_frees h m
  | unmapped c =>
    cases hp
    exact h.frees_unmapped c
  | parentChanged c => exact absurd rfl (hop c)
  | clientGone c =>
    cases hp
    exact h.frees_clientGone c
  | expel c err =>
    cases hp
    exact h.frees_expelled x.handles c err
  | dispatch c r => exact absurd rfl (hdirect c r)
  | takeEvents =>
    cases hp
    exact ⟨[], .of_eq rfl rfl rfl⟩

theorem reparents_of_direct (h : x.Sound) {op : Operation} {a : Answer}
    (hdirect : ∀ c r, op ≠ .dispatch c r) (hop : ∀ c, op ≠ .parentChanged c)
    (hp : x.perform view patience d op = some (a, y, d')) : Reparents view x y := by
  cases op with
  | exportSurface q c =>
    obtain ⟨⟨res, z⟩, hexport, heq⟩ := Option.bind_eq_some_iff.mp hp
    cases heq
    obtain ⟨hparents, hexports, hsame⟩ := exportSurface_children h hexport
    exact .exports hparents hexports hsame
  | setParentOf i c =>
    cases hp
    exact setParentOf_reparents h i c
  | _ =>
    exact .of_frees (frees_of_direct h hdirect hop (fun _ _ heq => by cases heq)
      (fun _ _ heq => by cases heq) hp)

/-- An operation frees children, declares one or exports a toplevel, unless it is the shell's
report that it has set a parent itself. -/
theorem perform_reparents (h : x.Sound) {op : Operation} {a : Answer}
    (hop : ∀ c, op ≠ .parentChanged c)
    (hp : x.perform view patience d op = some (a, y, d')) : Reparents view x y := by
  cases op with
  | dispatch c r =>
    obtain ⟨⟨res, z, d₁⟩, hdispatch, heq⟩ := Option.map_eq_some_iff.mp hp
    cases heq
    rcases dispatch_cases hdispatch with ⟨-, rfl, -⟩ | ⟨err, handles, -, rfl, -⟩ | ⟨-, hserve⟩
    · exact .frees (.refl _)
    · exact .of_frees (h.frees_expelled handles c err)
    · exact reparents_of_direct h (operation_ne_dispatch r) (operation_ne_parentChanged r) hserve
  | _ => exact reparents_of_direct h (fun _ _ heq => by cases heq) hop hp

end SurfaceExchange.Exchange
