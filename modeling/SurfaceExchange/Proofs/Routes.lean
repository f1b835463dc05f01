import SurfaceExchange.Proofs.Alike
import SurfaceExchange.Proofs.Serving

/-!
# Ways to take a client down

A client goes when it disconnects. Its objects can also be destroyed one after
the other, in one of two orders: `piecemeal`, what was made through a registry
before the registry, or `wholesale`, the registries alone, and in either case
whatever is inert then at the end. It makes no difference
(`Reachable.routes_agree`): the live objects come to the same step by step
(`Alike`), the tracker because all that a client destroys is taken from it
(`Holds.owns_foldl_iff`), and inert is what is tracked but not live
(`Registered.inertClient?_iff`).
-/

namespace SurfaceExchange

/-- The operation that destroys an object. -/
def ObjectId.destruction (o : ObjectId) : Operation := (Request.destroy o).operation

namespace Exchange

variable {L : Type} {x y : Exchange} {c : ClientId} {o : ObjectId} {os : List ObjectId}

/-! ## Destroying what is a client's own -/

section Destroyed

variable (h : x.Sound)

include h

/-- The request to destroy an object of one's own is served, and only ownership of that object
is given up. -/
theorem serve_destroy (ho : x.ownership.owns c o = true) (view : ShellView) (patience : Nat) :
    x.serve view patience (.destroy o) = some (.ok none, x.destroyed o) ∧
      (x.destroyed o).ownership = x.ownership.untrack c o := by
  obtain ⟨z, hz⟩ : ∃ z, x.destroyed o = z := ⟨_, rfl⟩
  obtain ⟨res, hserve⟩ : ∃ res, x.serve view patience (.destroy o) = some (res, z) := by
    rw [← hz]
    cases o <;> exact ⟨_, rfl⟩
  have hserved := serve_served h ((Request.object_destroy o).symm ▸ ho) hserve
  rw [hserve, hz]
  cases hserved with
  | made hmakes _ _ _ _ => simp at hmakes
  | destroyed _ hw _ =>
    rw [Request.object_destroy] at hw
    exact ⟨rfl, hw⟩
  | linked hlinks _ _ => exact absurd hlinks.symm (Request.setParentOf_ne_destroy _ _ o)
  | refused _ hnot _ _ => exact absurd rfl (hnot o)

theorem perform_destruction (ho : x.ownership.owns c o = true) (view : ShellView)
    (patience : Nat) (d : Display L) :
    x.perform view patience d o.destruction = some (.outcome (.ok none), x.destroyed o, d) := by
  rw [ObjectId.destruction, ← serve_eq_perform, (serve_destroy h ho view patience).1]
  rfl

theorem owns_destroyed (ho : x.ownership.owns c o = true) (e : ClientId) (o' : ObjectId) :
    (x.destroyed o).ownership.owns e o' =
      (decide (¬ (e = c ∧ o' = o)) && x.ownership.owns e o') := by
  rw [(serve_destroy h ho { role := fun _ => none } 0).2, Ownership.owns_untrack]

theorem sound_destroyed (ho : x.ownership.owns c o = true) : (x.destroyed o).Sound :=
  h.perform (perform_destruction h ho { role := fun _ => none } 0 (.empty : Display Unit))

end Destroyed

/-- Distinct objects of one client. -/
structure Holds (x : Exchange) (c : ClientId) (os : List ObjectId) : Prop where
  nodup : os.Nodup
  owned : ∀ o ∈ os, x.ownership.owns c o = true

namespace Holds

theorem destroyed (hos : x.Holds c (o :: os)) (h : x.Sound) : (x.destroyed o).Holds c os := by
  obtain ⟨ho, hn⟩ := List.nodup_cons.mp hos.nodup
  refine ⟨hn, fun o' ho' => ?_⟩
  have hne : o' ≠ o := fun heq => ho (heq ▸ ho')
  rw [owns_destroyed h (hos.owned o List.mem_cons_self),
    hos.owned o' (List.mem_cons_of_mem _ ho')]
  simp [hne]

variable (h : x.Sound) (hos : x.Holds c os)

include h hos

theorem sound_foldl : (os.foldl Exchange.destroyed x).Sound := by
  induction os generalizing x with
  | nil => exact h
  | cons o os ih =>
    exact ih (sound_destroyed h (hos.owned o List.mem_cons_self)) (hos.destroyed h)

/-- All of them can be destroyed, one after the other, and none of it fails. -/
theorem follow_destructions (view : ShellView) (patience : Nat) (d : Display L) :
    ∃ ts, follow view patience (os.map ObjectId.destruction) x d =
      some (ts, os.foldl Exchange.destroyed x, d) ∧
        ∀ t ∈ ts, t.answer = .outcome (.ok none) := by
  induction os generalizing x with
  | nil => exact ⟨[], rfl, fun t ht => absurd ht (List.not_mem_nil)⟩
  | cons o os ih =>
    have ho := hos.owned o List.mem_cons_self
    obtain ⟨ts, hf, hts⟩ := ih (sound_destroyed h ho) (hos.destroyed h)
    refine ⟨⟨x, view, patience, d, o.destruction, .outcome (.ok none), x.destroyed o, d⟩ :: ts, ?_,
      List.forall_mem_cons.mpr ⟨rfl, hts⟩⟩
    rw [List.map_cons, follow, perform_destruction h ho view patience d, Option.bind_some]
    simp only [hf, Option.map_some, List.foldl_cons]

/-- The client gives them up and nobody gives up anything else. -/
theorem owns_foldl_iff (e : ClientId) (o' : ObjectId) :
    (os.foldl Exchange.destroyed x).ownership.owns e o' = true ↔
      x.ownership.owns e o' = true ∧ ¬ (e = c ∧ o' ∈ os) := by
  induction os generalizing x with
  | nil => simp
  | cons o os ih =>
    have ho := hos.owned o List.mem_cons_self
    rw [List.foldl_cons, ih (sound_destroyed h ho) (hos.destroyed h), owns_destroyed h ho,
      Bool.and_eq_true, decide_eq_true_eq, List.mem_cons]
    by_cases he : e = c <;> by_cases hoo : o' = o <;> simp [he, hoo]

end Holds

/-! ## Inert objects -/

/-- Inert is what is tracked but not live. -/
theorem Registered.inertClient?_iff (h : x.Registered) (c : ClientId) (o : ObjectId) :
    x.inertClient? o = some c ↔ x.ownership.owns c o = true ∧ x.clientOf? o ≠ some c := by
  constructor
  · intro ho
    refine ⟨h.owns_of_inert ho, fun hlive => ?_⟩
    rw [h.apart hlive] at ho
    cases ho
  · rintro ⟨howned, hdead⟩
    exact ((h.owns_iff c o).mp howned).resolve_left hdead

/-- The inert objects of a client, in the order in which they were made. -/
def inertHeld (x : Exchange) (c : ClientId) : List ObjectId :=
  x.inertObjects.filter (fun o => decide (x.inertClient? o = some c))

theorem mem_inertObjects_iff : o ∈ x.inertObjects ↔ (x.inertClient? o).isSome := by
  rw [inertObjects, List.mem_map]
  simp only [List.mem_mergeSort, List.mem_append, List.mem_map, Table.mem_keys_iff]
  cases o with
  | exported e => simp [inertClient?]
  | imported i => simp [inertClient?]
  | _ => simp [inertClient?]

theorem inertObjects_nodup : x.inertObjects.Nodup := by
  rw [inertObjects, ((List.mergeSort_perm _ _).map Prod.snd).nodup_iff, List.map_append,
    List.map_map, List.map_map]
  refine List.nodup_append.mpr ⟨?_, ?_, ?_⟩
  · exact (Table.keys_nodup _).map fun _ _ heq => ObjectId.exported.inj heq
  · exact (Table.keys_nodup _).map fun _ _ heq => ObjectId.imported.inj heq
  · intro o ho o' ho' heq
    obtain ⟨e, -, rfl⟩ := List.mem_map.mp ho
    obtain ⟨i, -, rfl⟩ := List.mem_map.mp ho'
    cases heq

theorem mem_inertHeld_iff : o ∈ x.inertHeld c ↔ x.inertClient? o = some c := by
  rw [inertHeld, List.mem_filter, decide_eq_true_eq, mem_inertObjects_iff]
  exact and_iff_right_of_imp fun ho => Option.isSome_of_eq_some ho

theorem alike_destroyInert (h : x.Registered) (ho : x.inertClient? o = some c) :
    Alike x (x.destroyed o) := by
  have hdead : x.clientOf? o = none := by
    cases hlive : x.clientOf? o with
    | none => rfl
    | some d =>
      rw [h.apart hlive] at ho
      cases ho
  cases o with
  | exported e =>
    have he : x.exports.find? e = none := Option.map_eq_none_iff.mp hdead
    have hinert : x.inertExports.find? e = some c := ho
    rw [destroyed, destroyExport, if_neg (by simp [Table.contains, he]), hinert]
    exact ⟨_, _, _, rfl⟩
  | imported i =>
    have hi : x.imports.find? i = none := Option.map_eq_none_iff.mp hdead
    have hinert : x.inertImports.find? i = some c := ho
    rw [destroyed, destroyImport, if_neg (by simp [Table.contains, hi]), hinert]
    exact ⟨_, _, _, rfl⟩
  | exporter q => cases ho
  | importer m => cases ho

/-- Giving up inert objects does nothing to live ones. -/
theorem alike_destroyInerts (h : x.Sound) (hos : x.Holds c os)
    (hdead : ∀ o ∈ os, x.clientOf? o ≠ some c) : Alike x (os.foldl destroyed x) := by
  induction os generalizing x with
  | nil => exact .refl x
  | cons o os ih =>
    have ho := hos.owned o List.mem_cons_self
    have hinert := (h.registered.inertClient?_iff c o).mpr ⟨ho, hdead o List.mem_cons_self⟩
    have hfirst := alike_destroyInert h.registered hinert
    refine hfirst.trans (ih (sound_destroyed h ho) (hos.destroyed h) fun o' ho' => ?_)
    rw [hfirst.clientOf?_eq]
    exact hdead o' (List.mem_cons_of_mem _ ho')

/-! ## The routes -/

/-- The registries of a client: its importers in ascending order, and then its exporters. -/
def registriesOf (x : Exchange) (c : ClientId) : List RegistryId :=
  (x.importers.filter (fun _ g => decide (g.client = c))).keys.map .importer ++
    (x.exporters.filter (fun _ g => decide (g.client = c))).keys.map .exporter

/-- Registry by registry, what was made through it in ascending order and then itself. -/
def piecemeal (x : Exchange) (c : ClientId) : List ObjectId :=
  (x.registriesOf c).flatMap (fun r => x.contentsOf r ++ [r.object])

/-- The registries alone. -/
def wholesale (x : Exchange) (c : ClientId) : List ObjectId :=
  (x.registriesOf c).map RegistryId.object

theorem mem_registriesOf_iff (c : ClientId) (r : RegistryId) :
    r ∈ x.registriesOf c ↔ x.clientOf? r.object = some c := by
  rw [registriesOf, List.mem_append, List.mem_map, List.mem_map]
  cases r with
  | importer id =>
    simpa [RegistryId.object, clientOf?] using x.importers.mem_keys_filter_iff Registry.client c id
  | exporter id =>
    simpa [RegistryId.object, clientOf?] using x.exporters.mem_keys_filter_iff Registry.client c id

theorem registriesOf_nodup (c : ClientId) : (x.registriesOf c).Nodup := by
  refine List.nodup_append.mpr ⟨?_, ?_, ?_⟩
  · exact (Table.keys_nodup _).map fun _ _ heq => RegistryId.importer.inj heq
  · exact (Table.keys_nodup _).map fun _ _ heq => RegistryId.exporter.inj heq
  · intro r hr r' hr' heq
    obtain ⟨m, -, rfl⟩ := List.mem_map.mp hr
    obtain ⟨q, -, rfl⟩ := List.mem_map.mp hr'
    cases heq

/-- The tracker has the same registries in the same order. -/
theorem Registered.registries_eq (h : x.Registered) (c : ClientId) :
    (x.ownership.holdings c).registries = x.registriesOf c := by
  rw [Holdings.registries, registriesOf, h.importers_keys, h.exporters_keys]

/-- What is listed as made through a registry was made through it, and is live. -/
theorem mem_contentsOf {r : RegistryId} (ho : o ∈ x.contentsOf r) :
    o.registry? = some r.object ∧ ∃ d, x.clientOf? o = some d := by
  cases r with
  | importer id =>
    rw [contentsOf_importer] at ho
    obtain ⟨p, hp, rfl⟩ := List.mem_map.mp ho
    obtain ⟨hf, rfl⟩ := (mem_ownImports_iff id p).mp hp
    exact ⟨rfl, p.2.client, by rw [clientOf?, hf]; rfl⟩
  | exporter id =>
    rw [contentsOf_exporter] at ho
    obtain ⟨p, hp, rfl⟩ := List.mem_map.mp ho
    obtain ⟨hf, rfl⟩ := (mem_ownExports_iff id p).mp hp
    exact ⟨rfl, p.2.client, by rw [clientOf?, hf]; rfl⟩

theorem contentsOf_nodup (r : RegistryId) : (x.contentsOf r).Nodup := by
  cases r with
  | importer id =>
    have hn : (x.importsOf id).Nodup := (Table.keys_nodup _).filter _
    exact hn.map fun _ _ heq => ObjectId.imported.inj heq
  | exporter id =>
    have hn : (x.exportsOf id).Nodup := (Table.keys_nodup _).filter _
    exact hn.map fun _ _ heq => ObjectId.exported.inj heq

theorem registry?_object (r : RegistryId) : r.object.registry? = none := by
  cases r <;> rfl

theorem object_inj {r r' : RegistryId} (h : r.object = r'.object) : r = r' := by
  cases r <;> cases r' <;> cases h <;> rfl

theorem holds_wholesale (h : x.Registered) (c : ClientId) : x.Holds c (x.wholesale c) where
  nodup := (registriesOf_nodup c).map fun _ _ heq => object_inj heq
  owned := by
    intro o ho
    obtain ⟨r, hr, rfl⟩ := List.mem_map.mp ho
    exact h.owns_of_live ((mem_registriesOf_iff c r).mp hr)

/-- Every object is listed with the registry that it is or was made through. -/
theorem home_of_mem {r : RegistryId} (ho : o ∈ x.contentsOf r ++ [r.object]) :
    o.registry?.getD o = r.object := by
  rcases List.mem_append.mp ho with ho | ho
  · rw [(mem_contentsOf ho).1]
    rfl
  · rw [List.mem_singleton.mp ho, registry?_object]
    rfl

theorem contentsOf_append_nodup (r : RegistryId) : (x.contentsOf r ++ [r.object]).Nodup := by
  refine List.nodup_append.mpr ⟨contentsOf_nodup r, List.nodup_singleton _, ?_⟩
  rintro o ho o' ho' rfl
  have hregistry := (mem_contentsOf ho).1
  rw [List.mem_singleton.mp ho', registry?_object] at hregistry
  cases hregistry

theorem holds_piecemeal (h : x.Registered) (c : ClientId) : x.Holds c (x.piecemeal c) where
  nodup := by
    refine List.nodup_flatMap.mpr ⟨fun r _ => contentsOf_append_nodup r,
      (registriesOf_nodup c).imp fun {r r'} hne o ho ho' => hne (object_inj ?_)⟩
    exact (home_of_mem ho).symm.trans (home_of_mem ho')
  owned := by
    intro o ho
    obtain ⟨r, hr, ho⟩ := List.mem_flatMap.mp ho
    have hclient := (mem_registriesOf_iff c r).mp hr
    rcases List.mem_append.mp ho with ho | ho
    · obtain ⟨hregistry, d, hd⟩ := mem_contentsOf ho
      have hsame := (h.registry hd hregistry).symm.trans hclient
      exact h.owns_of_live (hsame ▸ hd)
    · rw [List.mem_singleton.mp ho]
      exact h.owns_of_live hclient

/-- Either way the live objects come to what they come to when the client is gone. -/
theorem Sound.alike_piecemeal (h : x.Sound) (c : ClientId) :
    Alike (x.clientGone c) ((x.piecemeal c).foldl destroyed x) := by
  have hgone := alike_clientGone h.coherent c
  rw [h.registered.registries_eq] at hgone
  exact hgone.symm.trans ((Alike.refl x).foldl_destroyContents h.coherent (registriesOf_nodup c)
    fun r hr => ⟨c, (mem_registriesOf_iff c r).mp hr⟩)

theorem Sound.alike_wholesale (h : x.Sound) (c : ClientId) :
    Alike (x.clientGone c) ((x.wholesale c).foldl destroyed x) := by
  have hgone := alike_clientGone h.coherent c
  rw [h.registered.registries_eq] at hgone
  exact hgone.symm.trans ((Alike.refl x).foldl_destroyObjects h.coherent (x.registriesOf c))

/-! ## The end of every route -/

/-- The two have the same objects, subscriptions, events and parents set, and their trackers tell
the same of every client. -/
structure Agrees (x y : Exchange) : Prop where
  exporters : y.exporters = x.exporters
  importers : y.importers = x.importers
  exports : y.exports = x.exports
  imports : y.imports = x.imports
  inertExports : y.inertExports = x.inertExports
  inertImports : y.inertImports = x.inertImports
  subscriptions : y.subscriptions = x.subscriptions
  events : y.events = x.events
  parentChanges : y.parentChanges = x.parentChanges
  owns : ∀ c o, y.ownership.owns c o = x.ownership.owns c o
  counts : ∀ c, y.ownership.counts c = x.ownership.counts c

/-- Alike exchanges in which the same objects are tracked agree. -/
theorem Alike.agrees (ha : Alike x y) (hx : x.Sound) (hy : y.Sound)
    (howns : ∀ c o, y.ownership.owns c o = x.ownership.owns c o) : Agrees x y := by
  have hinert : ∀ o, y.inertClient? o = x.inertClient? o := by
    intro o
    refine Option.ext fun c => ?_
    rw [hy.registered.inertClient?_iff, hx.registered.inertClient?_iff, howns, ha.clientOf?_eq]
  have hexports : y.inertExports = x.inertExports :=
    Table.ext_find? fun e => hinert (.exported e)
  have himports : y.inertImports = x.inertImports :=
    Table.ext_find? fun i => hinert (.imported i)
  have hcounts : ∀ c, y.ownership.counts c = x.ownership.counts c := fun c =>
    congrArg Holdings.counts (Holdings.ext_has fun o => howns c o)
  obtain ⟨I, J, w, rfl⟩ := ha
  exact ⟨rfl, rfl, rfl, rfl, hexports, himports, rfl, rfl, rfl, howns, hcounts⟩

/-- When a client's objects were destroyed along a route, and then those that are inert, nothing
of the client is left, as if it had gone. -/
theorem Sound.agrees_of_route (h : x.Sound) {os os' : List ObjectId} (hos : x.Holds c os)
    (ha : Alike (x.clientGone c) (os.foldl destroyed x)) (hn : os'.Nodup)
    (hinert : ∀ o, o ∈ os' ↔ (os.foldl destroyed x).inertClient? o = some c) :
    (os.foldl destroyed x).Holds c os' ∧
      Agrees (x.clientGone c) (os'.foldl destroyed (os.foldl destroyed x)) := by
  obtain ⟨y, hy⟩ : ∃ y, os.foldl destroyed x = y := ⟨_, rfl⟩
  have howns := hos.owns_foldl_iff h
  have hsound := hos.sound_foldl h
  rw [hy] at ha hinert howns hsound ⊢
  have hgone : ∀ d o, (x.clientGone c).ownership.owns d o = true ↔
      x.ownership.owns d o = true ∧ d ≠ c := by
    rw [clientGone_eq h.coherent h.registered]
    exact owns_withoutClient c
  have hdead : ∀ o, y.clientOf? o ≠ some c := by
    intro o ho
    rw [ha.clientOf?_eq, clientGone_eq h.coherent h.registered] at ho
    exact ((clientOf?_withoutClient h.coherent c c o).mp ho).2 rfl
  have hleft : y.Holds c os' :=
    ⟨hn, fun o ho => hsound.registered.owns_of_inert ((hinert o).mp ho)⟩
  refine ⟨hleft, (ha.trans (alike_destroyInerts hsound hleft fun o _ => hdead o)).agrees
    (h.clientGone c) (hleft.sound_foldl hsound) fun d o => ?_⟩
  rw [Bool.eq_iff_iff, hleft.owns_foldl_iff hsound, hgone, howns]
  constructor
  · rintro ⟨⟨hx, hnot⟩, hnot'⟩
    refine ⟨hx, ?_⟩
    rintro rfl
    -- what is still the client's is inert, and so was given up
    have hy' := (howns d o).mpr ⟨hx, hnot⟩
    exact hnot' ⟨rfl, (hinert o).mpr ((hsound.registered.inertClient?_iff d o).mpr ⟨hy', hdead o⟩)⟩
  · rintro ⟨hx, hne⟩
    exact ⟨⟨hx, fun hd => hne hd.1⟩, fun hd => hne hd.1⟩

/-- A client's objects can all be destroyed, each on its own or registry by registry, and then in
any order what is inert. None of it fails, and it ends in what the client's going brings about. -/
theorem Reachable.routes_agree (h : x.Reachable) (c : ClientId) (view : ShellView)
    (patience : Nat) (d : Display L) : ∀ os ∈ [x.piecemeal c, x.wholesale c], ∃ ts y,
      follow view patience (os.map ObjectId.destruction) x d = some (ts, y, d) ∧
      (∀ t ∈ ts, t.answer = .outcome (.ok none)) ∧
      ∀ os' : List ObjectId, os'.Nodup → (∀ o, o ∈ os' ↔ y.inertClient? o = some c) → ∃ us z,
        follow view patience (os'.map ObjectId.destruction) y d = some (us, z, d) ∧
        (∀ u ∈ us, u.answer = .outcome (.ok none)) ∧ Agrees (x.clientGone c) z := by
  have hsound := h.sound
  intro os hroute
  obtain ⟨hos, ha⟩ : x.Holds c os ∧ Alike (x.clientGone c) (os.foldl destroyed x) := by
    rcases List.mem_pair.mp hroute with rfl | rfl
    · exact ⟨holds_piecemeal hsound.registered c, hsound.alike_piecemeal c⟩
    · exact ⟨holds_wholesale hsound.registered c, hsound.alike_wholesale c⟩
  obtain ⟨ts, hts, hanswers⟩ := hos.follow_destructions hsound view patience d
  refine ⟨ts, _, hts, hanswers, fun os' hn hinert => ?_⟩
  obtain ⟨hleft, hagrees⟩ := hsound.agrees_of_route hos ha hn hinert
  obtain ⟨us, hus, hanswers'⟩ :=
    hleft.follow_destructions (hos.sound_foldl hsound) view patience d
  exact ⟨us, _, hus, hanswers', hagrees⟩

/-- Client 1 exports two surfaces and imports the first itself, as does client 2. The second
surface unmaps. -/
def entwined : List Operation :=
  [.bindExporter ⟨1⟩, .bindImporter ⟨1⟩, .bindImporter ⟨2⟩, .exportSurface ⟨1⟩ ⟨5⟩,
    .importHandle ⟨2⟩ "first", .importHandle ⟨3⟩ "first", .setParentOf ⟨⟨2⟩, 5⟩ ⟨7⟩,
    .exportSurface ⟨1⟩ ⟨6⟩, .unmapped ⟨6⟩]

theorem routes_agree_entwined : (rehearse entwined).2.Reachable ∧
    (rehearse entwined).2.piecemeal ⟨1⟩ =
      [.imported ⟨⟨2⟩, 5⟩, .importer ⟨2⟩, .exported ⟨⟨1⟩, 4⟩, .exporter ⟨1⟩] ∧
    (rehearse entwined).2.wholesale ⟨1⟩ = [.importer ⟨2⟩, .exporter ⟨1⟩] ∧
    ∃ ts y us z, follow { role := fun _ => none } 1 [.destroyImporter ⟨2⟩, .destroyExporter ⟨1⟩]
        (rehearse entwined).2 rehearsalStart.2 = some (ts, y, rehearsalStart.2) ∧
      follow { role := fun _ => none } 1 ((y.inertHeld ⟨1⟩).map ObjectId.destruction) y
        rehearsalStart.2 = some (us, z, rehearsalStart.2) ∧
      Agrees ((rehearse entwined).2.clientGone ⟨1⟩) z := by
  have hreach := reachable_rehearse entwined
  obtain ⟨ts, y, hts, -, hrest⟩ := hreach.routes_agree ⟨1⟩ { role := fun _ => none } 1
    rehearsalStart.2 ((rehearse entwined).2.wholesale ⟨1⟩)
    (List.mem_cons_of_mem _ List.mem_cons_self)
  obtain ⟨us, z, hus, -, hagrees⟩ :=
    hrest (y.inertHeld ⟨1⟩) (inertObjects_nodup.filter _) fun o => mem_inertHeld_iff
  exact ⟨hreach, rfl, rfl, ts, y, us, z, hts, hus, hagrees⟩

end Exchange

end SurfaceExchange
