import SurfaceExchange.Proofs.Adoption

/-!
# A child that is declared

When nothing stands against it (`Declarable`), declaring a child either finds
the link there already or makes it, and making it touches nothing but links:
the import gets one more, behind the others, and whichever import had one on
the child gives it up. On an import that is inert or has no source nothing is
looked at and nothing is done (`Reachable.child_declared`).
-/

namespace SurfaceExchange.Exchange

variable {x : Exchange} {view : ShellView} {i : ImportId} {c p : SurfaceId}

/-- Nothing stands against making a surface a child of the other, which is what the import is
resolved to. -/
structure Declarable (x : Exchange) (view : ShellView) (i : ImportId) (c p : SurfaceId) :
    Prop where
  resolved : ∃ r e s, x.imports.find? i = some r ∧ r.source = some e ∧
    x.exports.find? e = some s ∧ s.surface = p
  toplevel : view.role c = some .toplevel
  alike : view.inShell p = view.inShell c

theorem requireToplevel_of_role {o : ObjectId} (h : view.role c = some .toplevel) :
    requireToplevel view o c = .ok () := by
  rw [requireToplevel, h]

theorem setParentOf_of_inert (view : ShellView) (c : SurfaceId)
    (hi : x.inertImports.contains i = true) : x.setParentOf view i c = (.ok (), x) := by
  rw [setParentOf, if_pos hi]

/-- An import without a source asks nothing of the surface. -/
theorem Sound.setParentOf_of_unresolved (h : x.Sound) (view : ShellView) (c : SurfaceId)
    {r : Import} (hi : x.imports.find? i = some r) (hs : r.source = none) :
    x.setParentOf view i c = (.ok (), x) := by
  have hinert := h.registered.inertImports_of_live (Option.isSome_of_eq_some hi)
  simp [setParentOf, hinert, hi, hs]

/-- With nothing against it, a declaration finds its link or makes it. -/
theorem Sound.setParentOf_of_declarable (h : x.Sound) (hd : x.Declarable view i c p) :
    x.setParentOf view i c =
      (.ok (), if (x.link? i c).isSome then x else x.addLink i p c) := by
  obtain ⟨r, e, s, hi, hs, he, rfl⟩ := hd.resolved
  have hinert := h.registered.inertImports_of_live (Option.isSome_of_eq_some hi)
  have hsource : r.source.bind x.exports.find? = some s := by rw [hs, Option.bind_some, he]
  have hrole := requireToplevel_of_role (o := .imported i) hd.toplevel
  have halike : ¬ view.inShell s.surface ≠ view.inShell c := not_not.mpr hd.alike
  simp only [setParentOf, hinert, hi, hsource, hrole, if_neg halike, Bool.false_eq_true, if_false]
  split <;> rfl

/-! ## The link that is made -/

/-- A surface that gets another parent loses a link at most. -/
theorem Coherent.parentChanged_frame (h : x.Coherent) (c : SurfaceId) :
    ∃ I S, x.parentChanged c = { x with imports := I, subscriptions := S } := by
  rcases h.parentChanged_eq c with ⟨-, heq⟩ | ⟨j, r, l, -, -, -, heq⟩
  · exact ⟨x.imports, x.subscriptions, heq⟩
  · exact ⟨_, _, heq⟩

/-- Making a link touches links and nothing else, and the shell is told of the one parent. -/
theorem Coherent.addLink_frame (h : x.Coherent) (i : ImportId) (p c : SurfaceId) :
    x.addLink i p c = { x with
      imports := (x.addLink i p c).imports
      subscriptions := (x.addLink i p c).subscriptions
      parentChanges := x.parentChanges ++ [⟨c, some p⟩] } := by
  obtain ⟨I, S, heq⟩ := (h.tell c (some p)).parentChanged_frame c
  have hset : x.setParent c (some p) =
      { x.tell c (some p) with imports := I, subscriptions := S } := heq
  rw [addLink_eq, hset]
  rfl

/-- The import has its new link behind those that it had. -/
theorem Coherent.find?_imports_addLink_self (h : x.Coherent) {r : Import}
    (hi : x.imports.find? i = some r) (hc : c ∉ r.children.map ChildLink.surface)
    (p : SurfaceId) : ∃ l : ChildLink, l.surface = c ∧ (x.addLink i p c).imports.find? i =
      some { r with children := r.children ++ [l] } := by
  have hkept : r.disown c = r := disown_of_unlinked fun l hl hs => hc (List.mem_map.mpr ⟨l, hl, hs⟩)
  refine ⟨(x.setParent c (some p)).nextLink c, rfl, ?_⟩
  rw [h.find?_imports_addLink, hi, Option.map_some, if_pos rfl, hkept]

/-- What could be declared can be declared again. -/
theorem Declarable.addLink (h : x.Coherent) (hd : x.Declarable view i c p) {r : Import}
    (hi : x.imports.find? i = some r) (hc : c ∉ r.children.map ChildLink.surface) :
    (x.addLink i p c).Declarable view i c p ∧ ((x.addLink i p c).link? i c).isSome = true := by
  obtain ⟨l, hl, hnew⟩ := h.find?_imports_addLink_self hi hc p
  obtain ⟨r₀, e, s, hi₀, hs, he, hp⟩ := hd.resolved
  rw [hi] at hi₀
  cases hi₀
  refine ⟨⟨⟨_, e, s, hnew, hs, ?_, hp⟩, hd.toplevel, hd.alike⟩, ?_⟩
  · rw [h.addLink_frame i p c, he]
  · rw [Option.isSome_iff_ne_none]
    intro hnone
    exact (link?_eq_none_iff hnew).mp hnone l (List.mem_append_right _ List.mem_cons_self) hl

theorem Declarable.congr {view' : ShellView} (hd : x.Declarable view i c p)
    (hrole : view'.role c = some .toplevel) (halike : view'.inShell p = view'.inShell c) :
    x.Declarable view' i c p := ⟨hd.resolved, hrole, halike⟩

theorem link?_isSome_iff {r : Import} (hi : x.imports.find? i = some r) :
    (x.link? i c).isSome = true ↔ c ∈ r.children.map ChildLink.surface := by
  rw [Option.isSome_iff_ne_none, Ne, link?_eq_none_iff hi]
  simp

/-- What declaring a surface a child leaves of an exchange, where the import stands for a surface
that can be its parent. -/
structure ChildDeclared (x : Exchange) (i : ImportId) (r : Import) (c p : SurfaceId)
    (y : Exchange) : Prop where
  repeated : c ∈ r.children.map ChildLink.surface → y = x
  /-- A new link is behind those that the import has, and every other link on the child is gone. -/
  linked : c ∉ r.children.map ChildLink.surface → ∃ I S, y = { x with
      imports := I
      subscriptions := S
      parentChanges := x.parentChanges ++ [⟨c, some p⟩] } ∧
    (∃ l : ChildLink, l.surface = c ∧
      I.find? i = some { r with children := r.children ++ [l] }) ∧
    ∀ j, j ≠ i → I.find? j = (x.imports.find? j).map (fun s =>
      { s with children := s.children.filter (fun l => decide (l.surface ≠ c)) })
  listens_iff : ∀ t w, y.subscriptions.Listens t w ↔ Holds y.exports y.imports t w
  again : ∀ view, view.role c = some .toplevel → view.inShell p = view.inShell c →
    y.setParentOf view i c = (.ok (), y)

/-- Declaring a child makes a link where there is none yet. It does nothing on an import that is
inert or has no source. -/
theorem Reachable.child_declared (h : x.Reachable) (view : ShellView) (i : ImportId)
    (c : SurfaceId) :
    (∀ p r, x.Declarable view i c p → x.imports.find? i = some r →
      ∃ y, x.setParentOf view i c = (.ok (), y) ∧ x.ChildDeclared i r c p y) ∧
    (x.isInert (.imported i) = true ∨ (∃ r, x.imports.find? i = some r ∧ r.source = none) →
      x.setParentOf view i c = (.ok (), x)) := by
  have hsound := h.sound
  refine ⟨fun p r hd hi => ?_, ?_⟩
  · by_cases hc : c ∈ r.children.map ChildLink.surface
    · have hlink := (link?_isSome_iff hi).mpr hc
      have hdone : ∀ {view'}, x.Declarable view' i c p → x.setParentOf view' i c = (.ok (), x) :=
        fun hd' => by rw [hsound.setParentOf_of_declarable hd', if_pos hlink]
      exact ⟨x, hdone hd, fun _ => rfl, fun hn => absurd hc hn,
        fun _ _ => hsound.coherent.watched.listens_iff,
        fun view' hrole halike => hdone (hd.congr hrole halike)⟩
    · have hlink := mt (link?_isSome_iff hi).mp hc
      have hmade : x.setParentOf view i c = (.ok (), x.addLink i p c) := by
        rw [hsound.setParentOf_of_declarable hd, if_neg hlink]
      have hafter : (x.addLink i p c).Sound := by
        have hchange := (setParentOf_change hsound view i c (.setParentOf i c)).sound hsound
        rwa [hmade] at hchange
      obtain ⟨hagain, hlinked⟩ := hd.addLink hsound.coherent hi hc
      refine ⟨_, hmade, fun hm => absurd hm hc, fun _ => ⟨_, _, hsound.coherent.addLink_frame i p c,
        hsound.coherent.find?_imports_addLink_self hi hc p, fun j hj => ?_⟩,
        fun _ _ => hafter.coherent.watched.listens_iff, fun view' hrole halike => ?_⟩
      · rw [hsound.coherent.find?_imports_addLink]
        refine congrArg (Option.map · _) (funext fun s => ?_)
        rw [if_neg hj, Import.disown]
      · rw [hafter.setParentOf_of_declarable (hagain.congr hrole halike), if_pos hlinked]
  · rintro (hinert | ⟨r, hi, hs⟩)
    · exact setParentOf_of_inert view c hinert
    · exact hsound.setParentOf_of_unresolved view c hi hs

/-- The second import of the handle takes the child over from the first. -/
theorem child_declared_takingOver : (rehearse takingOver).2.Reachable ∧
    (rehearse takingOver).2.Declarable { role := fun _ => some .toplevel } ⟨⟨2⟩, 6⟩ ⟨7⟩ ⟨5⟩ ∧
    ∃ y, (rehearse takingOver).2.setParentOf { role := fun _ => some .toplevel } ⟨⟨2⟩, 6⟩ ⟨7⟩ =
        (.ok (), y) ∧
      y.parentChanges = (rehearse takingOver).2.parentChanges ++ [⟨⟨7⟩, some ⟨5⟩⟩] ∧
      (y.imports.find? ⟨⟨2⟩, 4⟩).map Import.children = some [] ∧
      y.setParentOf { role := fun _ => some .toplevel } ⟨⟨2⟩, 6⟩ ⟨7⟩ = (.ok (), y) := by
  have hreach := reachable_rehearse takingOver
  have hd : (rehearse takingOver).2.Declarable { role := fun _ => some .toplevel }
      ⟨⟨2⟩, 6⟩ ⟨7⟩ ⟨5⟩ := ⟨⟨_, _, _, rfl, rfl, rfl, rfl⟩, rfl, rfl⟩
  obtain ⟨y, hy, hdeclared⟩ := (hreach.child_declared _ _ ⟨7⟩).1 ⟨5⟩ _ hd rfl
  have hagain := hdeclared.again { role := fun _ => some .toplevel } rfl rfl
  obtain ⟨I, S, rfl, -, hothers⟩ := hdeclared.linked (by decide)
  refine ⟨hreach, hd, _, hy, rfl, ?_, hagain⟩
  rw [hothers ⟨⟨2⟩, 4⟩ (by decide)]
  rfl

end SurfaceExchange.Exchange
