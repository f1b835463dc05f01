import SurfaceExchange.Proofs.Adoption

/-!
# What the shell is told of parents

Whatever an operation does with links, the shell is told exactly this: of the
parent, if the operation declares a child and a new link is made, and of every
surface that was a child and is none any more, unless the operation is the
shell's own report of that surface (`Tells`). Nothing is said twice, and of
other surfaces nothing is said. A parent that the shell has chosen and
reported is therefore left alone until the surface is declared a child again
(`Reachable.parents_accounted`).
-/

namespace SurfaceExchange.Exchange

variable {L : Type} {x y z : Exchange} {op : Operation} {cs cs' : List ParentChange}
  {c p : SurfaceId} {view : ShellView} {patience : Nat} {d d' : Display L} {a : Answer}

/-- The import is resolved to an export of the parent and has a link on the surface. -/
def LinksTo (x : Exchange) (i : ImportId) (c p : SurfaceId) : Prop :=
  ∃ r l e s, x.imports.find? i = some r ∧ l ∈ r.children ∧ l.surface = c ∧
    r.source = some e ∧ x.exports.find? e = some s ∧ s.surface = p

/-- The operation declares a child on an import, by itself or as a request that is dispatched, and
makes a new link by it. -/
def MakesLink (op : Operation) (x y : Exchange) (c p : SurfaceId) : Prop :=
  ∃ i, op.direct = .setParentOf i c ∧ x.link? i c = none ∧ y.LinksTo i c p

/-- What the shell is told in an operation: of a parent where a new link is made, and that there
is none where the last link on a surface has gone. -/
structure Tells (op : Operation) (x y : Exchange) (cs : List ParentChange) : Prop where
  parentChanges : y.parentChanges = x.parentChanges ++ cs
  nodup : cs.Nodup
  told : ∀ ch, ch ∈ cs ↔ (∃ p, ch.parent = some p ∧ MakesLink op x y ch.surface p) ∨
    (ch.parent = none ∧ x.IsChild ch.surface ∧ ¬ y.IsChild ch.surface ∧
      op ≠ .parentChanged ch.surface)
  /-- Nobody else becomes a child. -/
  kept : ∀ c, y.IsChild c → x.IsChild c ∨ ∃ p, MakesLink op x y c p

/-- What the shell is told where no child is declared. -/
structure Clears (x y : Exchange) (cs : List ParentChange) : Prop where
  parentChanges : y.parentChanges = x.parentChanges ++ cs
  nodup : cs.Nodup
  cleared : ∀ ch, ch ∈ cs ↔ ch.parent = none ∧ x.IsChild ch.surface ∧ ¬ y.IsChild ch.surface
  kept : ∀ c, y.IsChild c → x.IsChild c

namespace Clears

theorem of_same (hparents : y.parentChanges = x.parentChanges)
    (hsame : ∀ c, y.IsChild c ↔ x.IsChild c) : Clears x y [] where
  parentChanges := by rw [hparents, List.append_nil]
  nodup := List.nodup_nil
  cleared := fun ch => iff_of_false List.not_mem_nil fun ⟨_, hx, hy⟩ => hy ((hsame _).mpr hx)
  kept := fun c => (hsame c).mp

theorem refl (x : Exchange) : Clears x x [] := of_same rfl fun _ => Iff.rfl

theorem of_frees (hx : x.Coherent) (hy : y.Coherent) (hfrees : Frees x y cs) : Clears x y cs where
  parentChanges := hfrees.parentChanges
  nodup := hfrees.nodup
  cleared := by
    intro ch
    rw [hfrees.cleared, hx.isChild_iff, hy.isChild_iff, not_exists]
  kept := by
    intro c hc
    obtain ⟨p, hp⟩ := (hy.isChild_iff c).mp hc
    exact (hx.isChild_iff c).mpr ⟨p, hfrees.kept hp⟩

/-- An operation that makes no link tells of those that go. -/
theorem tells (h : Clears x y cs) (hop : ∀ c, op ≠ .parentChanged c)
    (hlinks : ∀ c p, ¬ MakesLink op x y c p) : Tells op x y cs where
  parentChanges := h.parentChanges
  nodup := h.nodup
  told := by
    intro ch
    rw [h.cleared]
    constructor
    · rintro ⟨hnone, hx, hy⟩
      exact Or.inr ⟨hnone, hx, hy, hop _⟩
    · rintro (⟨p, -, hmakes⟩ | ⟨hnone, hx, hy, -⟩)
      · exact absurd hmakes (hlinks _ p)
      · exact ⟨hnone, hx, hy⟩
  kept := fun c hc => Or.inl (h.kept c hc)

end Clears

theorem not_makesLink_of_direct (hdeclares : ∀ i c, op.direct ≠ .setParentOf i c)
    (c p : SurfaceId) : ¬ MakesLink op x y c p := by
  rintro ⟨i, hdirect, -⟩
  exact hdeclares i c hdirect

/-- A link that is there in the end and was there before is not new. -/
theorem not_makesLink_of_kept
    (hkept : ∀ {i r' l}, y.imports.find? i = some r' → l ∈ r'.children →
      ∃ r, x.imports.find? i = some r ∧ l ∈ r.children) (c p : SurfaceId) :
    ¬ MakesLink op x y c p := by
  rintro ⟨i, -, hnone, r', l, e, s, hi, hl, hc, -⟩
  obtain ⟨r, hr, hl⟩ := hkept hi hl
  exact (link?_eq_none_iff hr).mp hnone l hl hc

/-! ## Each operation -/

/-- The shell is told of the one parent. -/
theorem Sound.tells_addLink (h : x.Sound) (hy : y.Sound) {i : ImportId} {r : Import} {e : ExportId}
    {s : Export} (hop : op.direct = .setParentOf i c) (hi : x.imports.find? i = some r)
    (hs : r.source = some e) (he : x.exports.find? e = some s) (hnone : x.link? i c = none)
    (heq : y = x.addLink i s.surface c) : Tells op x y [⟨c, some s.surface⟩] := by
  have hadopts : Adopts x y c s.surface := heq ▸ h.coherent.adopts_addLink hi hs he c
  have hnew : y.LinksTo i c s.surface := by
    have hafter := h.coherent.find?_imports_addLink i s.surface c i
    rw [hi, Option.map_some, if_pos rfl, ← heq] at hafter
    exact ⟨_, _, e, s, hafter, List.mem_append_right _ List.mem_cons_self, rfl, hs,
      by rw [hadopts.exports, he], rfl⟩
  refine ⟨hadopts.parentChanges, List.nodup_singleton _, fun ch => ?_, fun c' hc' => ?_⟩
  rw [List.mem_singleton]
  constructor
  · rintro rfl
    exact Or.inl ⟨s.surface, rfl, i, hop, hnone, hnew⟩
  · rintro (⟨p, hp, j, hop', -, r', l, e', s', hj, hl, hc, hs', he', hp'⟩ | ⟨-, hx, hn, -⟩)
    · obtain ⟨surface, parent⟩ := ch
      simp only at hp hop' hc
      obtain ⟨-, rfl⟩ := Operation.setParentOf.inj (hop.symm.trans hop')
      have hchild : y.IsChildOf c p := ⟨j, r', l, e', s', hj, hl, hc, hs', he', hp'⟩
      rcases (hadopts.children c p).mp hchild with ⟨-, rfl⟩ | ⟨hne, -⟩
      · rw [hp]
      · exact absurd rfl hne
    · -- whoever was a child is one still, of the new parent or of the old one
      obtain ⟨p, hp⟩ := (h.coherent.isChild_iff _).mp hx
      refine absurd ((hy.coherent.isChild_iff _).mpr ?_) hn
      by_cases hc : ch.surface = c
      · exact ⟨s.surface, (hadopts.children _ _).mpr (Or.inl ⟨hc, rfl⟩)⟩
      · exact ⟨p, (hadopts.children _ p).mpr (Or.inr ⟨hc, hp⟩)⟩
  · obtain ⟨p, hp⟩ := (hy.coherent.isChild_iff c').mp hc'
    rcases (hadopts.children c' p).mp hp with ⟨rfl, rfl⟩ | ⟨-, hp⟩
    · exact Or.inr ⟨s.surface, i, hop, hnone, hnew⟩
    · exact Or.inl ((h.coherent.isChild_iff c').mpr ⟨p, hp⟩)

theorem Sound.tells_setParentOf (h : x.Sound) (view : ShellView) (i : ImportId) (c : SurfaceId) :
    ∃ cs, Tells (.setParentOf i c) x (x.setParentOf view i c).2 cs := by
  have hy : (x.setParentOf view i c).2.Sound :=
    (setParentOf_change h view i c (.setParentOf i c)).sound h
  rcases setParentOf_cases (x := x) view i c with heq | ⟨r, e, s, hi, hs, he, -, hnone, heq⟩
  · rw [heq]
    exact ⟨[], (Clears.refl x).tells nofun (not_makesLink_of_kept fun hi hl => ⟨_, hi, hl⟩)⟩
  · exact ⟨_, h.tells_addLink hy rfl hi hs he hnone heq⟩

theorem Coherent.isChild_parentChanged_iff (h : x.Coherent) (c c' : SurfaceId) :
    (x.parentChanged c).IsChild c' ↔ c' ≠ c ∧ x.IsChild c' := by
  rw [(h.parentChanged c).isChild_iff, h.isChild_iff]
  simp only [h.isChildOf_parentChanged_iff, exists_and_left]

/-- Of what the shell reports it is not told. -/
theorem Coherent.tells_parentChanged (h : x.Coherent) (c : SurfaceId) :
    Tells (.parentChanged c) x (x.parentChanged c) [] where
  parentChanges := by rw [h.parentChanges_parentChanged, List.append_nil]
  nodup := List.nodup_nil
  told := by
    intro ch
    refine iff_of_false List.not_mem_nil ?_
    rintro (⟨p, -, i, hdirect, -⟩ | ⟨-, hx, hy, hop⟩)
    · cases hdirect
    · rw [h.isChild_parentChanged_iff] at hy
      refine hy ⟨?_, hx⟩
      rintro rfl
      exact hop rfl
  kept := fun c' hc' => Or.inl ((h.isChild_parentChanged_iff c c').mp hc').2

/-- A client that goes makes no links. -/
theorem Sound.link_of_clientGone (h : x.Sound) {c : ClientId} {i : ImportId} {r' : Import}
    {l : ChildLink} (hi : (x.clientGone c).imports.find? i = some r') (hl : l ∈ r'.children) :
    ∃ r, x.imports.find? i = some r ∧ l ∈ r.children := by
  rw [clientGone_eq h.coherent h.registered, find?_imports_withoutClient h.coherent] at hi
  obtain ⟨r, hr, rfl⟩ := Option.map_eq_some_iff.mp hi
  refine ⟨r, (Option.filter_eq_some_iff.mp hr).1, ?_⟩
  split at hl
  · cases hl
  · exact hl

theorem tells_of_direct (h : x.Sound) (hdirect : ∀ c r, op ≠ .dispatch c r)
    (hp : x.perform view patience d op = some (a, y, d')) : ∃ cs, Tells op x y cs := by
  have hy : y.Sound := h.perform hp
  cases op with
  | setParentOf i c =>
    cases hp
    exact h.tells_setParentOf view i c
  | exportSurface q c =>
    obtain ⟨⟨res, z⟩, hexport, heq⟩ := Option.bind_eq_some_iff.mp hp
    cases heq
    obtain ⟨hparents, -, hsame⟩ := exportSurface_children h hexport
    refine ⟨[], (Clears.of_same hparents fun c => ?_).tells nofun
      (not_makesLink_of_direct nofun)⟩
    rw [hy.coherent.isChild_iff, h.coherent.isChild_iff]
    exact exists_congr (hsame c)
  | parentChanged c =>
    cases hp
    exact ⟨[], h.coherent.tells_parentChanged c⟩
  | dispatch c r => exact absurd rfl (hdirect c r)
  | _ =>
    obtain ⟨cs, hfrees⟩ := frees_of_direct h (fun _ _ heq => by cases heq)
      (fun _ heq => by cases heq) (fun _ _ heq => by cases heq) (fun _ _ heq => by cases heq) hp
    exact ⟨cs, (Clears.of_frees h.coherent hy.coherent hfrees).tells
      (fun _ heq => by cases heq) (not_makesLink_of_direct fun _ _ heq => by cases heq)⟩

theorem direct_operation (r : Request) : r.operation.direct = r.operation := by
  rcases r with ⟨id, _ | _⟩ | ⟨id, _⟩ | ⟨id, _ | _⟩ | ⟨id, _ | _⟩ <;> rfl

/-- A request that is dispatched does what the operation does that it asks for. -/
theorem Tells.dispatch {r : Request} (htells : Tells r.operation x y cs) (c : ClientId) :
    Tells (.dispatch c r) x y cs := by
  have hdirect : (Operation.dispatch c r).direct = r.operation := rfl
  have hsame : ∀ c' p, MakesLink (.dispatch c r) x y c' p ↔ MakesLink r.operation x y c' p := by
    intro c' p
    simp only [MakesLink, hdirect, direct_operation]
  refine ⟨htells.parentChanges, htells.nodup, fun ch => ?_, fun c' hc' => ?_⟩
  · rw [htells.told]
    simp only [hsame, ne_eq, operation_ne_parentChanged, reduceCtorEq, not_false_eq_true]
  · simp only [hsame]
    exact htells.kept c' hc'

/-- To dispatch a request tells the shell of what the request does, or of what the client takes
with it that is expelled. -/
theorem tells_perform (h : x.Sound) (hp : x.perform view patience d op = some (a, y, d')) :
    ∃ cs, Tells op x y cs := by
  have hy : y.Sound := h.perform hp
  cases op with
  | dispatch c r =>
    obtain ⟨⟨res, z, d₁⟩, hdispatch, heq⟩ := Option.map_eq_some_iff.mp hp
    cases heq
    rcases dispatch_cases hdispatch with ⟨-, rfl, -⟩ | ⟨err, handles, -, rfl, -⟩ | ⟨-, hserve⟩
    · exact ⟨[], (Clears.refl _).tells nofun (not_makesLink_of_kept fun hi hl => ⟨_, hi, hl⟩)⟩
    · obtain ⟨cs, hfrees⟩ := h.frees_expelled handles c err
      exact ⟨cs, (Clears.of_frees h.coherent hy.coherent hfrees).tells nofun
        (not_makesLink_of_kept (h.blame handles c err).link_of_clientGone)⟩
    · obtain ⟨cs, htells⟩ := tells_of_direct h (operation_ne_dispatch r) hserve
      exact ⟨cs, htells.dispatch c⟩
  | _ => exact tells_of_direct h (fun _ _ heq => by cases heq) hp

/-! ## The end of the exchange -/

/-- Several retirements, one after the other. -/
theorem Sound.frees_foldl {κ : Type} (h : x.Sound) (retire : Exchange → κ → Exchange)
    (hretire : ∀ {y k}, y.Sound → (retire y k).Sound ∧ ∃ cs, Frees y (retire y k) cs)
    (ks : List κ) : (ks.foldl retire x).Sound ∧ ∃ cs, Frees x (ks.foldl retire x) cs := by
  induction ks generalizing x with
  | nil => exact ⟨h, [], .refl x⟩
  | cons k ks ih =>
    obtain ⟨hsound, cs, hfrees⟩ := hretire (k := k) h
    obtain ⟨hsound', cs', hfrees'⟩ := ih hsound
    exact ⟨hsound', _, hfrees.trans hfrees'⟩

/-- The exchange when its importers are gone and its exporters are still there. -/
def disband (x : Exchange) : Exchange :=
  x.importers.keys.foldl (retireImporter · · .nothing) x

theorem Sound.frees_disband (h : x.Sound) : x.disband.Sound ∧ ∃ cs, Frees x x.disband cs :=
  h.frees_foldl (Exchange.retireImporter · · .nothing)
    (fun {_ m} hy => ⟨hy.retireImporter m .nothing,
      (retiresImports_retireImporter hy.coherent m .nothing).frees hy.coherent⟩) x.importers.keys

theorem Sound.frees_teardown (h : x.Sound) :
    x.teardown.2.Sound ∧ ∃ cs, Frees x x.teardown.2 cs := by
  obtain ⟨himporters, cs, hfrees⟩ := h.frees_disband
  obtain ⟨hexporters, cs', hfrees'⟩ := himporters.frees_foldl (Exchange.retireExporter · · .nothing)
    (fun {y q} hy => ⟨hy.retireExporter q .nothing,
      (retiresExports_retireExporter hy.coherent q .nothing).frees hy.coherent⟩)
    x.disband.exporters.keys
  exact ⟨hexporters.congr rfl rfl rfl rfl rfl rfl rfl rfl rfl, _,
    (hfrees.trans hfrees').congr rfl rfl rfl⟩

/-- Without imports there are no children, and of all that there were the shell is told. -/
theorem Sound.clears_teardown (h : x.Sound) : ∃ cs, Clears x x.teardown.2 cs := by
  obtain ⟨hdrained, cs, hfrees⟩ := h.frees_teardown
  exact ⟨cs, .of_frees h.coherent hdrained.coherent hfrees⟩

/-! ## A parent that the shell has chosen -/

/-- Of a surface that is no child and is not declared one the shell is told nothing. -/
theorem Tells.surface_ne (h : Tells op x y cs) (hn : ¬ x.IsChild c)
    (hop : ∀ i, op.direct ≠ .setParentOf i c) : ∀ ch ∈ cs, ch.surface ≠ c := by
  rintro ch hch rfl
  rcases (h.told ch).mp hch with ⟨p, -, i, hdirect, -⟩ | ⟨-, hx, -⟩
  · exact hop i hdirect
  · exact hn hx

theorem Tells.not_isChild (h : Tells op x y cs) (hn : ¬ x.IsChild c)
    (hop : ∀ i, op.direct ≠ .setParentOf i c) : ¬ y.IsChild c := by
  intro hy
  rcases h.kept c hy with hx | ⟨p, i, hdirect, -⟩
  · exact hn hx
  · exact hop i hdirect

/-- Of a surface that is no child the shell is told nothing until it is declared one. -/
theorem Run.leaves_alone {ts : List (Transition L)} (hrun : Run x ts z) (h : x.Sound)
    (hn : ¬ x.IsChild c) (hops : ∀ t ∈ ts, ∀ i, t.operation.direct ≠ .setParentOf i c) :
    ¬ z.IsChild c ∧ ∀ t ∈ ts, ∃ cs,
      t.after.parentChanges = t.before.parentChanges ++ cs ∧ ∀ ch ∈ cs, ch.surface ≠ c := by
  induction hrun with
  | start => exact ⟨hn, fun t ht => absurd ht List.not_mem_nil⟩
  | perform t hrun hvalid ih =>
    obtain ⟨hbefore, hts⟩ := ih fun t' ht' => hops t' (List.mem_append_left _ ht')
    have hop := hops t (List.mem_append_right _ List.mem_cons_self)
    obtain ⟨cs, htells⟩ := tells_perform (hrun.sound h) hvalid
    refine ⟨htells.not_isChild hbefore hop, fun t' ht' => ?_⟩
    rcases List.mem_append.mp ht' with hold | hlast
    · exact hts t' hold
    · rw [List.mem_singleton.mp hlast]
      exact ⟨cs, htells.parentChanges, htells.surface_ne hbefore hop⟩
  | aside _ haside ih =>
    obtain ⟨hbefore, hts⟩ := ih hops
    exact ⟨by cases haside <;> exact hbefore, hts⟩

/-- What the shell is told of parents, in operations, at the end, and after it has reported a
parent itself. -/
structure ParentsAccounted (x : Exchange) : Prop where
  perform : ∀ {L : Type} view patience (d d' : Display L) op a y,
    x.perform view patience d op = some (a, y, d') → ∃ cs, Tells op x y cs
  teardown : ∃ cs, Clears x x.teardown.2 cs ∧
    ∀ {L : Type} (d : Display L), Clears x (x.destroy d).2.1 cs
  addFarewell : ∀ name, Clears x (x.addFarewell name).2 []
  removeFarewell : ∀ id, Clears x (x.removeFarewell id).2 []
  reported : ∀ {L : Type} c (ts : List (Transition L)) z, Run (x.parentChanged c) ts z →
    (∀ t ∈ ts, ∀ i, t.operation.direct ≠ .setParentOf i c) →
    (∀ t ∈ ts, ∃ cs,
      t.after.parentChanges = t.before.parentChanges ++ cs ∧ ∀ ch ∈ cs, ch.surface ≠ c) ∧
    ∃ cs, z.teardown.2.parentChanges = z.parentChanges ++ cs ∧ ∀ ch ∈ cs, ch.surface ≠ c

/-- The shell is told of the parents of those who become children by a new link, and of those who
are children no longer, each once. A parent that it has reported itself is left alone until the
surface is declared a child. -/
theorem Reachable.parents_accounted (h : x.Reachable) : x.ParentsAccounted := by
  have hsound := h.sound
  obtain ⟨cs, hclears⟩ := hsound.clears_teardown
  refine ⟨fun view patience d d' op a y hp => tells_perform hsound hp,
    ⟨cs, hclears, fun d => hclears⟩, fun name => .of_same rfl fun _ => Iff.rfl,
    fun id => .of_same rfl fun _ => Iff.rfl, fun c ts z hrun hops => ?_⟩
  have hreported : (x.parentChanged c).Sound := (parentChanged_ebbs hsound.coherent c).sound hsound
  obtain ⟨hn, hts⟩ :=
    hrun.leaves_alone hreported (hsound.coherent.not_isChild_parentChanged c) hops
  obtain ⟨cs', hclears'⟩ := (hrun.sound hreported).clears_teardown
  refine ⟨hts, cs', hclears'.parentChanges, ?_⟩
  rintro ch hch rfl
  exact hn ((hclears'.cleared ch).mp hch).2.1

/-- With its import the child of client 2 loses its parent, of which the shell is told. If it has
reported another parent before, it is told of nothing. -/
theorem parents_accounted_sharing : (rehearse sharing).2.Reachable ∧
    (∃ a y cs, (rehearse sharing).2.perform { role := fun _ => some .toplevel } 1 rehearsalStart.2
        (.destroyImport ⟨⟨2⟩, 4⟩) = some (a, y, rehearsalStart.2) ∧
      y.parentChanges = (rehearse sharing).2.parentChanges ++ cs ∧ ⟨⟨7⟩, none⟩ ∈ cs) ∧
    ∃ t : Transition Unit, t.before = (rehearse sharing).2.parentChanged ⟨7⟩ ∧
      t.operation = .destroyImport ⟨⟨2⟩, 4⟩ ∧ t.Valid ∧
      ∃ cs, t.after.parentChanges = t.before.parentChanges ++ cs ∧ ∀ ch ∈ cs, ch.surface ≠ ⟨7⟩ := by
  have hreach := reachable_rehearse sharing
  have haccounted := hreach.parents_accounted
  refine ⟨hreach, ?_, ?_⟩
  · obtain ⟨a, y, hp⟩ : ∃ a y, (rehearse sharing).2.perform { role := fun _ => some .toplevel } 1
        rehearsalStart.2 (.destroyImport ⟨⟨2⟩, 4⟩) = some (a, y, rehearsalStart.2) := ⟨_, _, rfl⟩
    obtain ⟨cs, htells⟩ := haccounted.perform _ _ _ _ _ _ _ hp
    refine ⟨a, y, cs, hp, htells.parentChanges, (htells.told _).mpr (Or.inr ⟨rfl, ?_, ?_, nofun⟩)⟩
    · exact ⟨⟨⟨2⟩, 4⟩, _, _, rfl, List.mem_cons_self, rfl⟩
    · cases hp
      exact not_isChild_of_linksOn_eq_nil rfl
  · obtain ⟨a, y, hp⟩ : ∃ a y, ((rehearse sharing).2.parentChanged ⟨7⟩).perform
        { role := fun _ => some .toplevel } 1 rehearsalStart.2 (.destroyImport ⟨⟨2⟩, 4⟩) =
          some (a, y, rehearsalStart.2) := ⟨_, _, rfl⟩
    obtain ⟨t, hbefore, hop, hvalid⟩ : ∃ t : Transition Unit,
        t.before = (rehearse sharing).2.parentChanged ⟨7⟩ ∧
          t.operation = .destroyImport ⟨⟨2⟩, 4⟩ ∧ t.Valid :=
      ⟨⟨(rehearse sharing).2.parentChanged ⟨7⟩, { role := fun _ => some .toplevel }, 1,
        rehearsalStart.2, .destroyImport ⟨⟨2⟩, 4⟩, a, y, rehearsalStart.2⟩, rfl, rfl, hp⟩
    have hstart : Run (L := Unit) ((rehearse sharing).2.parentChanged ⟨7⟩) [] t.before := by
      rw [hbefore]
      exact .start
    have hrun : Run ((rehearse sharing).2.parentChanged ⟨7⟩) [t] t.after :=
      .perform t hstart hvalid
    refine ⟨t, hbefore, hop, hvalid,
      (haccounted.reported ⟨7⟩ [t] t.after hrun fun u hu i => ?_).1 t List.mem_cons_self⟩
    rw [List.mem_singleton.mp hu, hop]
    exact nofun

end SurfaceExchange.Exchange
