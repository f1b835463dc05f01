import SurfaceExchange.Proofs.Accounting

/-!
# One foreign parent for a surface

`linksOn` lists the links that there are on a surface, over all imports. That
there is one at most is not checked anywhere: a new link is made after the
surface's new parent has been announced, and by then whoever had a link on it
has given it up (`Coherent.find?_imports_addLink`).
-/

namespace SurfaceExchange.Exchange

variable {x : Exchange} {c : SurfaceId}

/-- The links on a surface, each with the import that made it. -/
def linksOn (x : Exchange) (c : SurfaceId) : List (ImportId × ChildLink) :=
  x.imports.toList.flatMap (fun p =>
    (p.2.children.filter (fun l => decide (l.surface = c))).map (fun l => (p.1, l)))

theorem mem_linksOn_iff (c : SurfaceId) (i : ImportId) (l : ChildLink) :
    (i, l) ∈ x.linksOn c ↔ ∃ r, x.imports.find? i = some r ∧ l ∈ r.children ∧ l.surface = c := by
  rw [linksOn, List.mem_flatMap]
  constructor
  · rintro ⟨p, hp, hm⟩
    obtain ⟨l', hl, heq⟩ := List.mem_map.mp hm
    cases heq
    obtain ⟨hl, hs⟩ := List.mem_filter.mp hl
    exact ⟨p.2, (x.imports.mem_toList_iff p.1 p.2).mp hp, hl, of_decide_eq_true hs⟩
  · rintro ⟨r, hi, hl, hs⟩
    exact ⟨(i, r), (x.imports.mem_toList_iff i r).mpr hi,
      List.mem_map.mpr ⟨l, List.mem_filter.mpr ⟨hl, decide_eq_true hs⟩, rfl⟩⟩

theorem not_isChild_of_linksOn_eq_nil (h : x.linksOn c = []) : ¬ x.IsChild c := by
  rintro ⟨i, r, l, hi, hl, hc⟩
  have hm := (mem_linksOn_iff c i l).mpr ⟨r, hi, hl, hc⟩
  rw [h] at hm
  cases hm

namespace Coherent

variable (h : x.Coherent)

include h

theorem linksOn_nodup (c : SurfaceId) : (x.linksOn c).Nodup := by
  rw [linksOn, List.nodup_flatMap]
  refine ⟨fun p hp => ?_, x.imports.ascending.imp fun {p q} hlt a hp hq => ?_⟩
  · have hi := (x.imports.mem_toList_iff p.1 p.2).mp hp
    have hn : p.2.children.Nodup := List.Nodup.of_map _ (h.links.surfaces_nodup hi)
    exact (hn.filter _).map fun l m heq => (Prod.mk.inj heq).2
  · obtain ⟨l, -, rfl⟩ := List.mem_map.mp hp
    obtain ⟨m, -, heq⟩ := List.mem_map.mp hq
    exact KeyOrder.ne_of_lt hlt (Prod.mk.inj heq).1.symm

theorem linksOn_unique {a b : ImportId × ChildLink} (ha : a ∈ x.linksOn c)
    (hb : b ∈ x.linksOn c) : a = b := by
  obtain ⟨r, hi, hl, hs⟩ := (mem_linksOn_iff c a.1 a.2).mp ha
  obtain ⟨s, hj, hm, hs'⟩ := (mem_linksOn_iff c b.1 b.2).mp hb
  obtain ⟨hij, hlm⟩ := h.links.link_unique hi hj hl hm (hs.trans hs'.symm)
  exact Prod.ext hij hlm

theorem length_linksOn_le (c : SurfaceId) : (x.linksOn c).length ≤ 1 := by
  have hn := h.linksOn_nodup c
  have hunique : ∀ a ∈ x.linksOn c, ∀ b ∈ x.linksOn c, a = b := fun a ha b hb =>
    h.linksOn_unique ha hb
  generalize x.linksOn c = ls at hn hunique
  match ls with
  | [] => exact Nat.zero_le 1
  | [_] => exact Nat.le_refl 1
  | a :: b :: _ =>
    have hab : a = b := hunique a (by simp) b (by simp)
    simp [hab] at hn

/-- Where there is a link, it is the whole list. -/
theorem linksOn_eq_singleton {i : ImportId} {r : Import} {l : ChildLink}
    (hi : x.imports.find? i = some r) (hl : l ∈ r.children) (hs : l.surface = c) :
    x.linksOn c = [(i, l)] := by
  have hm : (i, l) ∈ x.linksOn c := (mem_linksOn_iff c i l).mpr ⟨r, hi, hl, hs⟩
  obtain ⟨a, ha⟩ := List.length_eq_one_iff.mp
    (Nat.le_antisymm (h.length_linksOn_le c) (List.length_pos_of_mem hm))
  rw [ha, List.mem_singleton] at hm
  rw [ha, hm]

/-! ## Declaring a child -/

/-- Whoever has a link on a surface loses it when the surface gets another parent. -/
theorem find?_imports_parentChanged (c : SurfaceId) (i : ImportId) :
    (x.parentChanged c).imports.find? i = (x.imports.find? i).map (·.disown c) := by
  rcases h.parentChanged_eq c with ⟨hc, heq⟩ | ⟨j, s, l, hj, hl, rfl, heq⟩
  · rw [heq]
    cases hi : x.imports.find? i with
    | none => rfl
    | some r =>
      rw [Option.map_some, disown_of_unlinked fun l hl hs => hc ⟨i, r, l, hi, hl, hs⟩]
  · rw [heq, find?_imports_disown]

/-- The new link goes behind the import's others, and no other import keeps one on the surface. -/
theorem find?_imports_addLink (i : ImportId) (p c : SurfaceId) (j : ImportId) :
    (x.addLink i p c).imports.find? j = (x.imports.find? j).map (fun r =>
      if j = i then
        { r with children := (r.disown c).children ++ [(x.setParent c (some p)).nextLink c] }
      else r.disown c) := by
  have hcleared : (x.setParent c (some p)).imports.find? j =
      (x.imports.find? j).map (·.disown c) := (h.tell c (some p)).find?_imports_parentChanged c j
  rw [addLink_eq, find?_imports_attach, hcleared]
  split
  · rw [Option.map_map]
    rfl
  · rfl

end Coherent

/-- After a child is declared on an import that has a source, the import has a link on it, be it
a new one or one from before. -/
theorem Sound.link_of_setParentOf (h : x.Sound) {view : ShellView} {i : ImportId} {r : Import}
    (hi : x.imports.find? i = some r) (hs : r.source ≠ none)
    (hok : (x.setParentOf view i c).1 = .ok ()) :
    ∃ r' l, (x.setParentOf view i c).2.imports.find? i = some r' ∧ l ∈ r'.children ∧
      l.surface = c := by
  obtain ⟨e, he⟩ := Option.ne_none_iff_exists'.mp hs
  obtain ⟨s, hexport, -⟩ := h.coherent.links.listed hi he
  have hlive : x.imports.contains i = true := Option.isSome_of_eq_some hi
  have hinert := h.registered.inertImports_of_live hlive
  have hsource : r.source.bind x.exports.find? = some s := by rw [he, Option.bind_some, hexport]
  simp only [setParentOf, hinert, hi, hsource, Bool.false_eq_true, if_false] at hok ⊢
  split at hok
  · cases hok
  split at hok
  · cases hok
  next hrole hsame =>
  rw [if_neg hsame]
  split
  · next hlinked =>
    obtain ⟨l, hl⟩ := Option.isSome_iff_exists.mp hlinked
    obtain ⟨r', hi', hl', hls⟩ := link_of_link? hl
    exact ⟨r', l, hi', hl', hls⟩
  · have hafter := h.coherent.find?_imports_addLink i s.surface c i
    rw [hi, Option.map_some, if_pos rfl] at hafter
    exact ⟨_, _, hafter, List.mem_append_right _ List.mem_cons_self, rfl⟩

/-- Over all imports of all clients there is one link on a surface at most, and an import without
a source has none at all. A child that is declared on one import is taken over from any other. -/
theorem Reachable.one_parent (h : x.Reachable) :
    (∀ c, (x.linksOn c).length ≤ 1) ∧
    (∀ i r, x.imports.find? i = some r → r.source = none → r.children = []) ∧
    ∀ view i r c, x.imports.find? i = some r → r.source ≠ none →
      (x.setParentOf view i c).1 = .ok () →
      (∃ l, (x.setParentOf view i c).2.linksOn c = [(i, l)]) ∧
      ∀ j s, j ≠ i → x.imports.find? j = some s →
        (x.setParentOf view i c).2.imports.find? j =
          some { s with children := s.children.filter (fun l => decide (l.surface ≠ c)) } := by
  have hsound := h.sound
  refine ⟨hsound.coherent.length_linksOn_le, fun i r => hsound.coherent.links.childless, ?_⟩
  intro view i r c hi hs hok
  obtain ⟨r', l, hi', hl, hlc⟩ := hsound.link_of_setParentOf hi hs hok
  have hafter : (x.setParentOf view i c).2.Sound :=
    (setParentOf_change hsound view i c (.setParentOf i c)).sound hsound
  refine ⟨⟨l, hafter.coherent.linksOn_eq_singleton hi' hl hlc⟩, fun j s hji hj => ?_⟩
  rcases setParentOf_cases (x := x) view i c with heq | ⟨r₀, e, s₀, -, -, -, -, -, heq⟩
  · -- the import has the link already, so the other has none to lose
    rw [heq] at hi' ⊢
    have hunlinked : s.disown c = s := disown_of_unlinked fun m hm hmc =>
      hji (hsound.coherent.links.oneParent hj hi' hm hl (hmc.trans hlc.symm))
    rw [hj, ← hunlinked]
    simp [Import.disown]
  · rw [heq, hsound.coherent.find?_imports_addLink, hj, Option.map_some, if_neg hji]
    rfl

/-- Client 2 imports the same handle once more and declares its child on the second import. -/
def takingOver : List Operation := sharing ++ [.importHandle ⟨2⟩ "first"]

theorem one_parent_takingOver : (rehearse takingOver).2.Reachable ∧
    ((rehearse takingOver).2.linksOn ⟨7⟩).map Prod.fst = [⟨⟨2⟩, 4⟩] ∧
    ∃ l, ((rehearse takingOver).2.setParentOf { role := fun _ => some .toplevel }
      ⟨⟨2⟩, 6⟩ ⟨7⟩).2.linksOn ⟨7⟩ = [(⟨⟨2⟩, 6⟩, l)] := by
  refine ⟨reachable_rehearse takingOver, rfl, ?_⟩
  exact ((reachable_rehearse takingOver).one_parent.2.2 _ ⟨⟨2⟩, 6⟩ _ ⟨7⟩ rfl (by decide) rfl).1

end SurfaceExchange.Exchange
