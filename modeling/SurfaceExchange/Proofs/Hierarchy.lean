import Mathlib.Data.Set.Finite.Basic
import Mathlib.Logic.Relation
import SurfaceExchange.Proofs.Parentage
import SurfaceExchange.Proofs.Reparenting
import SurfaceExchange.Proofs.Session

/-!
# Parents and ancestors

The parents of surfaces form a hierarchy if no surface is met again on the way
up from it, which is to say that every way up ends (`hierarchical_iff_ends`).
Setting a parent keeps it one if and only if the surface is neither the new
parent nor an ancestor of it (`hierarchical_setParent_iff`), and nothing else
puts it at risk. An exchange does not look at ancestors: whoever imports its own
surface may declare it a child of itself (`Session.not_hierarchical`). So the
parents form a hierarchy as long as neither the shell nor a declaration of a
child ties such a knot, and an operation ends it exactly if it ties one
(`Orderly.hierarchy_kept`).
-/

namespace SurfaceExchange

namespace SurfaceStore

variable {s t : SurfaceStore} {c p a b : SurfaceId}

/-- The other surface is met on the way from a surface to its parent, to the parent of that, and
so on. -/
def Ancestor (s : SurfaceStore) (c a : SurfaceId) : Prop :=
  Relation.TransGen (fun c p => s.parent? c = some p) c a

/-- The same way, which may also end where it starts. -/
def Upward (s : SurfaceStore) (c a : SurfaceId) : Prop :=
  Relation.ReflTransGen (fun c p => s.parent? c = some p) c a

/-- No surface is its own ancestor. -/
def Hierarchical (s : SurfaceStore) : Prop := ∀ c, ¬ s.Ancestor c c

/-- The new parent is the surface itself or has it for an ancestor. (A surface that does not exist
gets no parent.) -/
def Closes (s : SurfaceStore) (change : ParentChange) : Prop :=
  s.contains change.surface = true ∧
    ∃ p, change.parent = some p ∧ (p = change.surface ∨ s.Ancestor p change.surface)

theorem upward_iff : s.Upward c a ↔ a = c ∨ s.Ancestor c a :=
  Relation.reflTransGen_iff_eq_or_transGen

theorem Ancestor.mono (hparents : ∀ c p, t.parent? c = some p → s.parent? c = some p)
    (h : t.Ancestor c a) : s.Ancestor c a :=
  Relation.TransGen.mono hparents _ _ h

/-- Parents that are dropped tie no knot. -/
theorem Hierarchical.mono (h : s.Hierarchical)
    (hparents : ∀ c p, t.parent? c = some p → s.parent? c = some p) : t.Hierarchical :=
  fun c hc => h c (hc.mono hparents)

/-- Only a parent that is set can. -/
theorem Hierarchical.act (h : s.Hierarchical) (deed : Deed)
    (hdeed : ∀ c p, .setParent ⟨c, some p⟩ ≠ deed) : (s.act deed).Hierarchical :=
  h.mono fun c p hc => (parent?_of_act hc).resolve_right (hdeed c p)

theorem Hierarchical.clear (h : s.Hierarchical) (c : SurfaceId) :
    (s.setParent ⟨c, none⟩).Hierarchical :=
  h.act (.setParent ⟨c, none⟩) fun _ _ heq => by cases heq

theorem Hierarchical.clears (h : s.Hierarchical) {changes : List ParentChange}
    (hnone : ∀ ch ∈ changes, ch.parent = none) : (s.setParents changes).Hierarchical := by
  induction changes generalizing s with
  | nil => exact h
  | cons ch changes ih =>
    obtain ⟨c, parent⟩ := ch
    obtain rfl : parent = none := hnone _ List.mem_cons_self
    exact ih (h.clear c) fun ch hch => hnone ch (List.mem_cons_of_mem _ hch)

/-! ## The way up -/

theorem parent?_of_not_mem_keys (h : c ∉ s.surfaces.keys) : s.parent? c = none := by
  have hout : s.surfaces.find? c = none := by
    rwa [← Option.not_isSome_iff_eq_none, ← Table.contains, Table.contains_iff_mem_keys]
  rw [parent?, hout]
  rfl

/-- Where parents form a hierarchy, and only there, every way up ends at a surface without a
parent. -/
theorem hierarchical_iff_ends : s.Hierarchical ↔ ∀ c, ∃ a, s.Upward c a ∧ s.parent? a = none := by
  constructor
  · intro h c
    -- there are finitely many surfaces, so ancestors are well-founded
    have hfinite : Finite {c // c ∈ s.surfaces.keys} := (List.finite_toSet _).to_subtype
    let above (a c : {c // c ∈ s.surfaces.keys}) : Prop := s.Ancestor c.1 a.1
    have htrans : IsTrans _ above := ⟨fun _ _ _ hab hbc => hbc.trans hab⟩
    have hirrefl : Std.Irrefl above := ⟨fun a => h a.1⟩
    have hwellFounded : WellFounded above := Finite.wellFounded_of_trans_of_irrefl above
    have hkept : ∀ c : {c // c ∈ s.surfaces.keys}, ∃ a, s.Upward c.1 a ∧ s.parent? a = none := by
      intro c
      induction c using hwellFounded.induction with
      | _ c ih =>
        cases hp : s.parent? c.1 with
        | none => exact ⟨c.1, .refl, hp⟩
        | some p =>
          by_cases hm : p ∈ s.surfaces.keys
          · obtain ⟨a, hway, ha⟩ := ih ⟨p, hm⟩ (.single hp)
            exact ⟨a, .head hp hway, ha⟩
          · exact ⟨p, .single hp, parent?_of_not_mem_keys hm⟩
    by_cases hm : c ∈ s.surfaces.keys
    · exact hkept ⟨c, hm⟩
    · exact ⟨c, .refl, parent?_of_not_mem_keys hm⟩
  · intro h c hc
    obtain ⟨a, hway, ha⟩ := h c
    induction hway using Relation.ReflTransGen.head_induction_on with
    | refl =>
      obtain ⟨p, hp, -⟩ := Relation.TransGen.head'_iff.mp hc
      rw [ha] at hp
      cases hp
    | @head y z hyz _ ih =>
      -- the knot goes on through the one parent
      obtain ⟨p, hp, hrest⟩ := Relation.TransGen.head'_iff.mp hc
      obtain rfl : z = p := Option.some.inj (hyz.symm.trans hp)
      exact ih (.tail' hrest hyz)

/-! ## A parent that is set -/

/-- A way in the new store is a way in the old one, or it comes to the surface and goes on from
its new parent. -/
theorem ancestor_of_setParent (h : (s.setParent ⟨c, some p⟩).Ancestor a b) :
    s.Ancestor a b ∨ (s.Upward a c ∧ s.Upward p b) := by
  have hstep : ∀ {y z}, (s.setParent ⟨c, some p⟩).parent? y = some z →
      (y = c ∧ z = p) ∨ s.parent? y = some z := by
    intro y z hyz
    rw [parent?_setParent] at hyz
    split at hyz
    · next hy => exact Or.inl ⟨hy.1, (Option.some.inj hyz).symm⟩
    · exact Or.inr hyz
  induction h with
  | single hab =>
    rcases hstep hab with ⟨rfl, rfl⟩ | hold
    · exact Or.inr ⟨.refl, .refl⟩
    · exact Or.inl (.single hold)
  | tail _ hyz ih =>
    rcases hstep hyz with ⟨rfl, rfl⟩ | hold
    · refine Or.inr ⟨?_, .refl⟩
      rcases ih with hway | ⟨hway, -⟩
      · exact hway.to_reflTransGen
      · exact hway
    · rcases ih with hway | ⟨hbefore, hafter⟩
      · exact Or.inl (hway.tail hold)
      · exact Or.inr ⟨hbefore, hafter.tail hold⟩

/-- The way to a surface, up to where it is first met, does not use its parent. -/
theorem Upward.setParent (change : ParentChange) (h : s.Upward a change.surface) :
    (s.setParent change).Upward a change.surface := by
  induction h using Relation.ReflTransGen.head_induction_on with
  | refl => exact .refl
  | @head y z hyz _ ih =>
    by_cases hy : y = change.surface
    · rw [hy]
      exact .refl
    · refine .head ?_ ih
      rw [parent?_setParent, if_neg fun heq => hy heq.1]
      exact hyz

/-- A surface without a parent may become the parent of any other. -/
theorem not_closes_of_root (hroot : s.parent? p = none) (hne : p ≠ c) :
    ¬ s.Closes ⟨c, some p⟩ := by
  rintro ⟨-, q, hq, hway⟩
  cases hq
  rcases hway with heq | hway
  · exact hne heq
  · obtain ⟨q, hq, -⟩ := Relation.TransGen.head'_iff.mp hway
    rw [hroot] at hq
    cases hq

/-- A parent that is set ties a knot exactly if it is the surface itself or below it. -/
theorem hierarchical_setParent_iff (h : s.Hierarchical) (change : ParentChange) :
    (s.setParent change).Hierarchical ↔ ¬ s.Closes change := by
  obtain ⟨c, parent⟩ := change
  constructor
  · rintro hafter ⟨hthere, p, hparent, hp⟩
    obtain rfl : parent = some p := hparent
    have hset : (s.setParent ⟨c, some p⟩).parent? c = some p := by
      rw [parent?_setParent, if_pos ⟨rfl, hthere⟩]
    have hway : s.Upward p c := upward_iff.mpr (hp.imp_left Eq.symm)
    exact hafter c (.head' hset (hway.setParent ⟨c, some p⟩))
  · intro hopen a ha
    cases parent with
    | none => exact h.clear c a ha
    | some p =>
      by_cases hthere : s.contains c = true
      · rcases ancestor_of_setParent ha with hway | ⟨hbefore, hafter⟩
        · exact h a hway
        · have hway : s.Upward p c := hafter.trans hbefore
          exact hopen ⟨hthere, p, rfl, (upward_iff.mp hway).imp_left Eq.symm⟩
      · refine h.mono (fun y z hyz => ?_) a ha
        rwa [parent?_setParent, if_neg] at hyz
        rintro ⟨rfl, hc⟩
        exact hthere hc

end SurfaceStore

namespace Exchange

variable {L : Type} {x y : Exchange} {op : Operation} {cs : List ParentChange}
  {view : ShellView} {patience : Nat} {d d' : Display L} {a : Answer}

/-- The shell is told to set the parents of new links, and no others. -/
theorem Tells.mem_iff_makesLink (h : Tells op x y cs) (c p : SurfaceId) :
    ⟨c, some p⟩ ∈ cs ↔ MakesLink op x y c p := by
  rw [h.told]
  constructor
  · rintro (⟨p', hp, hmakes⟩ | ⟨hnone, -⟩)
    · cases hp
      exact hmakes
    · cases hnone
  · intro hmakes
    exact Or.inl ⟨p, rfl, hmakes⟩

/-- An operation has parents cleared, or it has one set. -/
theorem parents_perform (h : x.Sound) (hp : x.perform view patience d op = some (a, y, d')) :
    ∃ cs, Tells op x y cs ∧ ((∀ ch ∈ cs, ch.parent = none) ∨ ∃ c p, cs = [⟨c, some p⟩]) := by
  by_cases hreport : ∃ c, op = .parentChanged c
  · obtain ⟨c, rfl⟩ := hreport
    cases hp
    exact ⟨[], h.coherent.tells_parentChanged c, Or.inl nofun⟩
  · obtain ⟨cs, htells⟩ := tells_perform h hp
    have hsame : ∀ {cs'}, y.parentChanges = x.parentChanges ++ cs' → cs = cs' := fun heq =>
      List.append_cancel_left (htells.parentChanges.symm.trans heq)
    refine ⟨cs, htells, ?_⟩
    cases perform_reparents h (fun c heq => hreport ⟨c, heq⟩) hp with
    | frees hfrees =>
      obtain rfl := hsame hfrees.parentChanges
      exact Or.inl fun ch hch => ((hfrees.cleared ch).mp hch).1
    | adopts _ hadopts => exact Or.inr ⟨_, _, hsame hadopts.parentChanges⟩
    | exports hparents =>
      obtain rfl := hsame (hparents.trans (List.append_nil _).symm)
      exact Or.inl nofun

end Exchange

/-- The operation makes a link by which a surface becomes its own ancestor. -/
def Shell.Knots (s : Shell) (op : Operation) (t : Shell) : Prop :=
  ∃ c p, Exchange.MakesLink op s.exchange t.exchange c p ∧ s.surfaces.Closes ⟨c, some p⟩

/-- Only a declaration of a child can. -/
theorem Shell.not_knots_of_direct {s t : Shell} {op : Operation}
    (hdeclares : ∀ i c, op.direct ≠ .setParentOf i c) : ¬ s.Knots op t := by
  rintro ⟨c, p, hmakes, -⟩
  exact Exchange.not_makesLink_of_direct hdeclares c p hmakes

/-- A shell can come to this without a knot being tied: it sets no parent by which a surface
becomes its own ancestor, and neither does a declaration of a child. What the shell does of its
own accord it may report at once, later or never. -/
inductive Orderly : Shell → Prop
  | start {L : Type} (d : Display L) (config : Config) (handles : HandleStream) (l : L)
      (horizon : Nat) : Orderly { exchange := (Exchange.start d config handles l).1, horizon }
  | create {s} (role : Option Role) : Orderly s →
      Orderly { s with surfaces := (s.surfaces.create role).2 }
  | unmap {s} (c : SurfaceId) : Orderly s → Orderly { s with surfaces := s.surfaces.unmap c }
  | destroy {s} (c : SurfaceId) : Orderly s → Orderly { s with surfaces := s.surfaces.destroy c }
  | setParent {s} (change : ParentChange) : Orderly s → ¬ s.surfaces.Closes change →
      Orderly { s with surfaces := s.surfaces.setParent change }
  | operate {s t changes} (op : Operation) : Orderly s → s.Carries op changes t →
      ¬ s.Knots op t → Orderly t
  | aside {s y} : Orderly s → s.exchange.Aside y → Orderly { s with exchange := y }

/-- An exchange between two operations, and the parents in a hierarchy. -/
structure Shell.Steady (s : Shell) : Prop where
  sound : s.exchange.Sound
  settled : s.exchange.parentChanges = []
  hierarchical : s.surfaces.Hierarchical

namespace Shell.Steady

open Exchange

variable {s t : Shell} {op : Operation} {cs : List ParentChange}

/-- The shell clears parents, or it sets that of the one surface that has become a child. -/
theorem parents_carries (h : s.Steady) (hc : s.Carries op cs t) :
    (t.surfaces = s.surfaces.setParents cs ∧ (∀ ch ∈ cs, ch.parent = none) ∧
      ∀ c p, ¬ MakesLink op s.exchange t.exchange c p) ∨
    ∃ c p, t.surfaces = s.surfaces.setParent ⟨c, some p⟩ ∧
      ∀ c' p', MakesLink op s.exchange t.exchange c' p' ↔ c' = c ∧ p' = p := by
  obtain ⟨L, patience, d, d', a, y, hp, hsettle⟩ := hc
  cases hsettle
  obtain ⟨cs, htells, hparents⟩ := parents_perform h.sound hp
  have hall : y.parentChanges = cs := by
    rw [htells.parentChanges, h.settled, List.nil_append]
  have hmakes : ∀ c p, MakesLink op s.exchange { y with parentChanges := [] } c p ↔
      ⟨c, some p⟩ ∈ cs := fun c p => (htells.mem_iff_makesLink c p).symm
  rcases hparents with hnone | ⟨c, p, rfl⟩
  · refine Or.inl ⟨rfl, hall ▸ hnone, fun c p hm => ?_⟩
    cases hnone _ ((hmakes c p).mp hm)
  · refine Or.inr ⟨c, p, congrArg s.surfaces.setParents hall, fun c' p' => ?_⟩
    rw [hmakes, List.mem_singleton, ParentChange.mk.injEq, Option.some.injEq]

/-- An operation ties a knot exactly if it makes a link that does. -/
theorem hierarchical_iff (h : s.Steady) (hc : s.Carries op cs t) :
    t.surfaces.Hierarchical ↔ ¬ s.Knots op t := by
  rcases h.parents_carries hc with ⟨hset, hnone, hmakes⟩ | ⟨c, p, hset, hmakes⟩
  · rw [hset]
    refine iff_of_true (h.hierarchical.clears hnone) ?_
    rintro ⟨c, p, hm, -⟩
    exact hmakes c p hm
  · rw [hset, SurfaceStore.hierarchical_setParent_iff h.hierarchical]
    refine not_congr ⟨fun hcloses => ⟨c, p, (hmakes c p).mpr ⟨rfl, rfl⟩, hcloses⟩, ?_⟩
    rintro ⟨c', p', hm, hcloses⟩
    obtain ⟨rfl, rfl⟩ := (hmakes c' p').mp hm
    exact hcloses

theorem carries (h : s.Steady) (hc : s.Carries op cs t) (hknots : ¬ s.Knots op t) : t.Steady := by
  have hafter := (h.hierarchical_iff hc).mpr hknots
  obtain ⟨L, patience, d, d', a, y, hp, hsettle⟩ := hc
  cases hsettle
  have hy : y.Sound := h.sound.perform hp
  exact ⟨hy.congr rfl rfl rfl rfl rfl rfl rfl rfl rfl, rfl, hafter⟩

theorem aside {y : Exchange} (h : s.Steady) (hxy : s.exchange.Aside y) :
    Steady { s with exchange := y } where
  sound := hxy.sound h.sound
  settled := by cases hxy <;> first | rfl | exact h.settled
  hierarchical := h.hierarchical

end Shell.Steady

namespace Orderly

variable {s t : Shell}

/-- Whatever declares no child is in order. -/
theorem operate_of_direct {changes : List ParentChange} (op : Operation) (h : Orderly s)
    (hdeclares : ∀ i c, op.direct ≠ .setParentOf i c) (hc : s.Carries op changes t) : Orderly t :=
  h.operate op hc (Shell.not_knots_of_direct hdeclares)

theorem steady (h : Orderly s) : s.Steady := by
  induction h with
  | start d config handles l horizon =>
    refine ⟨Exchange.sound_start d config handles l, rfl, fun c hc => ?_⟩
    obtain ⟨p, hp, -⟩ := Relation.TransGen.head'_iff.mp hc
    cases hp
  | create role _ ih =>
    exact { ih with hierarchical := ih.hierarchical.act (.create role) fun _ _ => nofun }
  | unmap c _ ih =>
    exact { ih with hierarchical := ih.hierarchical.act (.unmap c) fun _ _ => nofun }
  | destroy c _ ih =>
    exact { ih with hierarchical := ih.hierarchical.act (.destroy c) fun _ _ => nofun }
  | setParent change _ hopen ih =>
    exact { ih with
      hierarchical := (SurfaceStore.hierarchical_setParent_iff ih.hierarchical change).mpr hopen }
  | operate op _ hc hknots ih => exact ih.carries hc hknots
  | aside _ hxy ih => exact ih.aside hxy

/-- As long as neither the shell nor a declaration of a child makes a surface its own ancestor,
no surface is. The next operation, whatever it is, ends this exactly if it makes a link on a
surface that is the new parent itself or an ancestor of it. -/
theorem hierarchy_kept (h : Orderly s) : s.surfaces.Hierarchical ∧
    ∀ op changes t, s.Carries op changes t → (t.surfaces.Hierarchical ↔ ¬ s.Knots op t) :=
  ⟨h.steady.hierarchical, fun _ _ _ => h.steady.hierarchical_iff⟩

/-- Client 1 exports surface 1 and client 2 declares surface 2 its child. Then client 2 exports
surface 2, and client 1 declares surface 1 the child of that. -/
theorem hierarchy_kept_crosswise : ∃ s, Orderly s ∧ s.surfaces.parent? ⟨2⟩ = some ⟨1⟩ ∧
    s.surfaces.Hierarchical ∧ ∃ op changes t, s.Carries op changes t ∧
      ¬ t.surfaces.Hierarchical := by
  have hhousehold : Orderly Session.household :=
    (((Orderly.start (Display.empty.connect.2.connect.2) {}
      (.scripted [some ⟨"first"⟩, some ⟨"second"⟩, some ⟨"third"⟩] true) () 3).create
        (some .toplevel)).create (some .toplevel)).create (some .toplevel)
  have hbound := hhousehold.operate_of_direct (.bindExporter ⟨1⟩) nofun
    ⟨_, 1, Exchange.rehearsalStart.2, _, _, _, rfl, rfl⟩
  have hboth := hbound.operate_of_direct (.bindImporter ⟨2⟩) nofun
    ⟨_, 1, Exchange.rehearsalStart.2, _, _, _, rfl, rfl⟩
  have hexported := hboth.operate_of_direct (.exportSurface ⟨1⟩ ⟨1⟩) nofun
    ⟨_, 1, Exchange.rehearsalStart.2, _, _, _, rfl, rfl⟩
  have himported := hexported.operate_of_direct (.importHandle ⟨2⟩ "first") nofun
    ⟨_, 1, Exchange.rehearsalStart.2, _, _, _, rfl, rfl⟩
  have hdeclared := himported.operate (.setParentOf ⟨⟨2⟩, 4⟩ ⟨2⟩)
    ⟨_, 1, Exchange.rehearsalStart.2, _, _, _, rfl, rfl⟩ (by
      rintro ⟨c, p, ⟨i, hdirect, -, r, l, e, x, hi, -, -, hs, he, hp⟩, hcloses⟩
      cases hdirect
      cases hi
      cases hs
      cases he
      cases hp
      exact SurfaceStore.not_closes_of_root rfl (by decide) hcloses)
  have hbound' := hdeclared.operate_of_direct (.bindExporter ⟨2⟩) nofun
    ⟨_, 1, Exchange.rehearsalStart.2, _, _, _, rfl, rfl⟩
  have hboth' := hbound'.operate_of_direct (.bindImporter ⟨1⟩) nofun
    ⟨_, 1, Exchange.rehearsalStart.2, _, _, _, rfl, rfl⟩
  have hexported' := hboth'.operate_of_direct (.exportSurface ⟨5⟩ ⟨2⟩) nofun
    ⟨_, 1, Exchange.rehearsalStart.2, _, _, _, rfl, rfl⟩
  have himported' := hexported'.operate_of_direct (.importHandle ⟨6⟩ "second") nofun
    ⟨_, 1, Exchange.rehearsalStart.2, _, _, _, rfl, rfl⟩
  refine ⟨_, himported', rfl, himported'.hierarchy_kept.1, .setParentOf ⟨⟨6⟩, 8⟩ ⟨1⟩, _, _,
    ⟨_, 1, Exchange.rehearsalStart.2, _, _, _, rfl, rfl⟩, ?_⟩
  rw [himported'.hierarchy_kept.2 (.setParentOf ⟨⟨6⟩, 8⟩ ⟨1⟩) _ _
    ⟨_, 1, Exchange.rehearsalStart.2, _, _, _, rfl, rfl⟩, not_not]
  exact ⟨⟨1⟩, ⟨2⟩, ⟨⟨⟨6⟩, 8⟩, rfl, rfl, _, _, _, _, rfl, List.mem_cons_self, rfl, rfl, rfl, rfl⟩,
    rfl, ⟨2⟩, rfl, Or.inr (.single rfl)⟩

end Orderly

/-- The shell may keep to the rule, report whatever it does and never set a parent of its own
accord: a client that imports its own surface can still declare it a child of itself. -/
theorem Session.not_hierarchical : ¬ ∀ s ks, Session s ks → (∀ k ∈ ks, k.setter ≠ .shell) →
    s.surfaces.Hierarchical := by
  intro hall
  have hbound := session_household.operate (.bindExporter ⟨1⟩) (fun _ => nofun)
    ⟨_, 1, Exchange.rehearsalStart.2, _, _, _, rfl, rfl⟩
  have hboth := hbound.operate (.bindImporter ⟨1⟩) (fun _ => nofun)
    ⟨_, 1, Exchange.rehearsalStart.2, _, _, _, rfl, rfl⟩
  have hexported := hboth.operate (.exportSurface ⟨1⟩ ⟨1⟩) (fun _ => nofun)
    ⟨_, 1, Exchange.rehearsalStart.2, _, _, _, rfl, rfl⟩
  have himported := hexported.operate (.importHandle ⟨2⟩ "first") (fun _ => nofun)
    ⟨_, 1, Exchange.rehearsalStart.2, _, _, _, rfl, rfl⟩
  have hdeclared := himported.operate (.setParentOf ⟨⟨2⟩, 4⟩ ⟨1⟩) (fun _ => nofun)
    ⟨_, 1, Exchange.rehearsalStart.2, _, _, _, rfl, rfl⟩
  exact hall _ _ hdeclared (by decide) ⟨1⟩ (.single rfl)

end SurfaceExchange
