import SurfaceExchange.Proofs.Changes
import SurfaceExchange.Proofs.Drawing

/-!
# Every operation is a change

What each operation comes to, and from it `perform_change`: on a sound
exchange an operation makes one of the changes that there are. That an unmap
strikes the exports of its surface and no others is `unmapped_spec`.
-/

namespace SurfaceExchange.Exchange

variable {L : Type} {x y : Exchange}

/-! ## Delivery -/

/-- Those who listen when delivery starts act one after the other, in the order in which they
subscribed. Each gives its subscription up, and nobody subscribes in between, so whoever acts is
the first of those who still listen, and in the end nobody listens. -/
theorem deliver_induction (c : SurfaceId) (e : SurfaceEvent)
    (act : Exchange → Watcher → Exchange) {P : Exchange → Prop} (wf : x.subscriptions.WellFormed)
    (hx : P x)
    (hact : ∀ y t w, P y → y.subscriptions.Listens t w → t.surface = c → t.event = e →
      (∀ t' w', y.subscriptions.Listens t' w' → t'.surface = c → t'.event = e →
        t.listener.val ≤ t'.listener.val) →
      P (act y w) ∧ ∀ t' w', (act y w).subscriptions.Listens t' w' →
        t' ≠ t ∧ y.subscriptions.Listens t' w') :
    P (x.deliver c e act) ∧ ∀ t w, t.surface = c → t.event = e →
      ¬ (x.deliver c e act).subscriptions.Listens t w := by
  have hfold : ∀ (es : List (Subscription × Watcher)) (y : Exchange), P y →
      es.Pairwise (fun p q => p.1.listener.val < q.1.listener.val) →
      (∀ t w, (t, w) ∈ es → t.surface = c ∧ t.event = e ∧ x.subscriptions.Listens t w) →
      (∀ t w, y.subscriptions.Listens t w → x.subscriptions.Listens t w) →
      (∀ t w, t.surface = c → t.event = e → y.subscriptions.Listens t w → (t, w) ∈ es) →
      P (es.foldl (fun x e => if x.subscriptions.isLive e.1 then act x e.2 else x) y) ∧
        ∀ t w, t.surface = c → t.event = e → ¬ (es.foldl (fun x e =>
          if x.subscriptions.isLive e.1 then act x e.2 else x) y).subscriptions.Listens t w := by
    intro es
    induction es with
    | nil => exact fun y hy _ _ _ hleft => ⟨hy, fun t w hs he hw => by cases hleft t w hs he hw⟩
    | cons p es ih =>
      obtain ⟨t, w⟩ := p
      intro y hy hordered hes hsub hleft
      obtain ⟨hfirst, hrest⟩ := List.pairwise_cons.mp hordered
      obtain ⟨hs, he, hw⟩ := hes t w List.mem_cons_self
      have hes' := fun t' w' hm => hes t' w' (List.mem_cons_of_mem _ hm)
      rw [List.foldl_cons]
      by_cases hlive : y.subscriptions.isLive t = true
      · -- a token never changes hands, so whoever listens now listened at the start
        obtain ⟨w', hw'⟩ := (Subscriptions.isLive_iff t).mp hlive
        have hww : w' = w := wf.listener_unique (hsub t w' hw') hw
        subst hww
        obtain ⟨hy', hshrink⟩ := hact y t w' hy hw' hs he fun t' u hu hs' he' => by
          rcases List.mem_cons.mp (hleft t' u hs' he' hu) with heq | hm
          · exact Nat.le_of_eq (congrArg (fun p => p.1.listener.val) heq).symm
          · exact Nat.le_of_lt (hfirst (t', u) hm)
        rw [if_pos hlive]
        refine ih _ hy' hrest hes' (fun t' u hu => hsub t' u (hshrink t' u hu).2) ?_
        intro t' u hs' he' hu
        obtain ⟨hne, hu⟩ := hshrink t' u hu
        rcases List.mem_cons.mp (hleft t' u hs' he' hu) with heq | hm
        · exact absurd (Prod.mk.inj heq).1 hne
        · exact hm
      · rw [if_neg hlive]
        refine ih y hy hrest hes' hsub fun t' u hs' he' hu => ?_
        rcases List.mem_cons.mp (hleft t' u hs' he' hu) with heq | hm
        · rw [(Prod.mk.inj heq).1] at hu
          exact absurd ((Subscriptions.isLive_iff t).mpr ⟨u, hu⟩) hlive
        · exact hm
  exact hfold _ x hx (List.pairwise_map.mpr (wf.ascending c e))
    (fun t w hm => (Subscriptions.mem_snapshot_iff c e t w).mp hm)
    (fun _ _ => id) fun t w hs he hw => (Subscriptions.mem_snapshot_iff c e t w).mpr ⟨hs, he, hw⟩

/-! ## Surfaces that unmap -/

/-- A retired export takes its own subscription with it and makes no new one. -/
theorem listens_retireExport (h : x.Coherent) {e : ExportId} {s : Export}
    (he : x.exports.find? e = some s) (left : Remnant) {t : Subscription} {w : Watcher}
    (ht : (x.retireExport e left).subscriptions.Listens t w) :
    t ≠ s.unmap ∧ x.subscriptions.Listens t w := by
  obtain ⟨I, o, heq⟩ := leaveExports_eq (x := x.dropExports [(e, s)]) [(e, s)] left
  rw [retireExport_eq h he, heq] at ht
  obtain ⟨hn, ht⟩ := (Subscriptions.listens_cancelAll h.watched.wellFormed _ t w).mp ht
  refine ⟨?_, ht⟩
  rintro rfl
  exact hn (by simp [tokensOf])

/-- An unmap retires exports of the surface and takes links off it, one at a time. An export that
is retired is the first of those that are left. What every such step keeps is kept, and in the end
neither an export nor a link is left on the surface. -/
theorem Sound.unmapped_induction_ordered (h : x.Sound) (c : SurfaceId) {P : Exchange → Prop}
    (hx : P x)
    (hexport : ∀ {y e s}, y.Sound → P y → y.exports.find? e = some s → s.surface = c →
      (∀ {e' s'}, y.exports.find? e' = some s' → s'.surface = c →
        s.unmap.listener.val ≤ s'.unmap.listener.val) →
      P (y.retireExport e .inert))
    (hlink : ∀ {y i r l}, y.Sound → P y → y.imports.find? i = some r → l ∈ r.children →
      l.surface = c → P ((y.disown l.surface l.tokens).tell l.surface none)) :
    (x.unmapped c).Sound ∧ P (x.unmapped c) ∧
      (∀ e s, (x.unmapped c).exports.find? e = some s → s.surface ≠ c) ∧
      ¬ (x.unmapped c).IsChild c := by
  have hdeliver := deliver_induction c .unmap onUnmap (P := fun y => y.Sound ∧ P y)
    h.coherent.watched.wellFormed ⟨h, hx⟩ ?_
  · obtain ⟨⟨hsound, hP⟩, hsilent⟩ := hdeliver
    refine ⟨hsound, hP, fun e s he hs => ?_, ?_⟩
    · -- an export left on the surface would still listen
      have hplaced := hsound.coherent.links.exportPlaced he
      exact hsilent _ _ (hplaced.unmap_surface.trans hs) hplaced.unmap_event
        (hsound.coherent.watched.listens_iff.mpr (.exportUnmap he))
    · -- and so would a link
      rintro ⟨i, r, l, hi, hl, hc⟩
      have hplaced := hsound.coherent.links.linkPlaced hi hl
      exact hsilent _ _ (hplaced.unmap_surface.trans hc) hplaced.unmap_event
        (hsound.coherent.watched.listens_iff.mpr (.childUnmap hi hl))
  · rintro y t w ⟨hsound, hP⟩ hw hs he hfirst
    cases hsound.coherent.watched.listens_iff.mp hw with
    | @exportUnmap e r hf =>
      have hsurface : r.surface = c :=
        (hsound.coherent.links.exportPlaced hf).unmap_surface.symm.trans hs
      refine ⟨⟨hsound.retireExport e .inert, hexport hsound hP hf hsurface ?_⟩,
        fun t' w' ht' => listens_retireExport hsound.coherent hf .inert ht'⟩
      intro e' s' he' hs'
      have hplaced := hsound.coherent.links.exportPlaced he'
      exact hfirst _ _ (hsound.coherent.watched.listens_iff.mpr (.exportUnmap he'))
        (hplaced.unmap_surface.trans hs') hplaced.unmap_event
    | @childUnmap i r l hi hl =>
      have hsurface : l.surface = c :=
        (hsound.coherent.links.linkPlaced hi hl).unmap_surface.symm.trans hs
      have hlink? : (y.link? i l.surface).isSome = true := by
        rw [hsound.coherent.link?_eq hi hl]
        rfl
      have hcut : onUnmap y (.childUnmap i l.surface) =
          (y.disown l.surface l.tokens).tell l.surface none := by
        rw [onUnmap, if_pos hlink?, hsound.coherent.cutLink_eq hi hl]
      have hebb : Ebbs y ((y.disown l.surface l.tokens).tell l.surface none) :=
        (Relation.ReflTransGen.single (.disown hi hl)).tail (.tell _ _)
      rw [hcut]
      refine ⟨⟨Ebbs.sound hsound hebb, hlink hsound hP hi hl hsurface⟩, fun t' w' ht' => ?_⟩
      obtain ⟨hn, ht'⟩ :=
        (Subscriptions.listens_cancelAll hsound.coherent.watched.wellFormed _ t' w').mp ht'
      exact ⟨fun heq => hn (by simp [ChildLink.tokens, heq]), ht'⟩
    | childSetParent hi hl =>
      rw [(hsound.coherent.links.linkPlaced hi hl).setParent_event] at he
      cases he

/-- The same, whatever the order. -/
theorem Sound.unmapped_induction (h : x.Sound) (c : SurfaceId) {P : Exchange → Prop} (hx : P x)
    (hexport : ∀ {y e s}, y.Sound → P y → y.exports.find? e = some s → s.surface = c →
      P (y.retireExport e .inert))
    (hlink : ∀ {y i r l}, y.Sound → P y → y.imports.find? i = some r → l ∈ r.children →
      l.surface = c → P ((y.disown l.surface l.tokens).tell l.surface none)) :
    (x.unmapped c).Sound ∧ P (x.unmapped c) ∧
      (∀ e s, (x.unmapped c).exports.find? e = some s → s.surface ≠ c) ∧
      ¬ (x.unmapped c).IsChild c :=
  h.unmapped_induction_ordered c hx (fun hy hP he hs _ => hexport hy hP he hs) hlink

/-- An unmap strikes the exports of the surface and no others, and takes nothing from the
clients. -/
theorem unmapped_spec (h : x.Sound) (c : SurfaceId) :
    Ebbs x (x.unmapped c) ∧ (x.unmapped c).ownership = x.ownership ∧
      ∀ e s, x.exports.find? e = some s →
        ((x.unmapped c).exports.find? e = none ↔ s.surface = c) := by
  have hunmapped := h.unmapped_induction c
    (P := fun y => Ebbs x y ∧ y.ownership = x.ownership ∧
      ∀ e s, x.exports.find? e = some s → y.exports.find? e = none → s.surface = c)
    ⟨.refl, rfl, fun e s he hn => by rw [he] at hn; cases hn⟩ ?_ ?_
  · obtain ⟨-, ⟨hebbs, howned, hgone⟩, hexports, -⟩ := hunmapped
    refine ⟨hebbs, howned, fun e s he => ⟨hgone e s he, fun hs => ?_⟩⟩
    cases hz : (x.unmapped c).exports.find? e with
    | none => rfl
    | some s' =>
      obtain ⟨⟨ds, hfades⟩, -⟩ := Ebbs.fades h hebbs
      obtain ⟨s₀, he₀, -, -, hsurface⟩ := hfades.exported hz
      rw [he] at he₀
      cases he₀
      exact absurd (hsurface.trans hs) (hexports e s' hz)
  · rintro y e r hsound ⟨hebbs, howned, hgone⟩ hf hs
    refine ⟨hebbs.tail (.retireExport e .inert),
      (ownership_retireExport_inert hsound.coherent e).trans howned, fun e' s he' hn => ?_⟩
    rw [find?_exports_retireExport hsound.coherent e .inert e'] at hn
    split at hn
    · next heq =>
      obtain ⟨⟨ds, hfades⟩, -⟩ := Ebbs.fades h hebbs
      obtain ⟨s₀, he₀, -, -, hsurface⟩ := hfades.exported hf
      rw [← heq, he'] at he₀
      cases he₀
      exact hsurface.symm.trans hs
    · exact hgone e' s he' hn
  · rintro y i r l - ⟨hebbs, howned, hgone⟩ hi hl -
    exact ⟨(hebbs.tail (.disown hi hl)).tail (.tell _ _), howned, hgone⟩

/-! ## Surfaces that get a parent -/

theorem parentChanged_ebbs (h : x.Coherent) (c : SurfaceId) : Ebbs x (x.parentChanged c) := by
  rcases h.parentChanged_eq c with ⟨-, heq⟩ | ⟨i, r, l, hi, hl, rfl, heq⟩
  · rw [heq]
  · rw [heq]
    exact .single (.disown hi hl)

/-- An import keeps its source when a surface gets another parent. -/
theorem source_of_parentChanged (h : x.Coherent) (c : SurfaceId) {i : ImportId} {r : Import}
    (hi : x.imports.find? i = some r) :
    ∃ r', (x.parentChanged c).imports.find? i = some r' ∧ r'.source = r.source := by
  rcases h.parentChanged_eq c with ⟨-, heq⟩ | ⟨j, s, l, hj, hl, rfl, heq⟩
  · exact ⟨r, by rw [heq, hi], rfl⟩
  · refine ⟨r.disown l.surface, ?_, rfl⟩
    rw [heq, find?_imports_disown, hi, Option.map_some]

theorem addLink_ebbs (h : x.Coherent) {i : ImportId} {r : Import} (hi : x.imports.find? i = some r)
    (hs : r.source ≠ none) (parent child : SurfaceId) : Ebbs x (x.addLink i parent child) := by
  have htold : (x.tell child (some parent)).Coherent := h.tell child (some parent)
  obtain ⟨r', hi', hs'⟩ := source_of_parentChanged htold child hi
  rw [addLink_eq]
  refine .tail (.trans (.single (.tell child (some parent))) (parentChanged_ebbs htold child)) ?_
  exact .attach hi' (hs' ▸ hs) (htold.not_isChild_parentChanged child)

/-! ## What exporting and declaring come to -/

/-- A handle that a search ends with is not taken. -/
theorem not_taken_of_search {s s' : HandleStream} {taken : Handle → Bool} {limit patience : Nat}
    {handle : Handle} (hs : s.search taken limit patience = some (.ok handle, s')) :
    taken handle = false := by
  obtain ⟨n, hends, -⟩ := HandleStream.search_eq_some_iff.mp ⟨patience, hs⟩
  cases hends with
  | concluded _ _ _ hfree => exact hfree

/-- Only toplevels pass. -/
theorem role_of_requireToplevel {view : ShellView} {o : ObjectId} {c : SurfaceId}
    (h : requireToplevel view o c = .ok ()) : view.role c = some .toplevel := by
  unfold requireToplevel at h
  split at h
  · next hr => exact hr
  · cases h
  · cases h

/-- What becomes of an exchange that is asked for an export. -/
inductive Exporting (x : Exchange) (view : ShellView) (p : ExporterId) (c : SurfaceId) :
    Except RequestError ExportId → Exchange → Prop
  /-- It may have drawn handles in vain. -/
  | failed (err : RequestError) (handles : HandleStream) :
      Exporting x view p c (.error err) { x with handles }
  | made {g : Registry} {handle : Handle} (handles : HandleStream) :
      x.exporters.find? p = some g → view.role c = some .toplevel →
      Config.reached x.config.maxExports (x.ownership.counts g.client).exports = false →
      x.isTaken handle = false →
      Exporting x view p c (.ok ⟨p, x.nextId⟩) ({ x with handles }.addExport p g c handle).2

theorem exporting_of_exportSurface {view : ShellView} {patience : Nat} {p : ExporterId}
    {c : SurfaceId} {res : Except RequestError ExportId}
    (hp : x.exportSurface view patience p c = some (res, y)) : Exporting x view p c res y := by
  unfold exportSurface at hp
  split at hp
  · cases hp
    exact .failed _ x.handles
  next g hg =>
  split at hp
  · cases hp
    exact .failed _ x.handles
  next hrole =>
  split at hp
  · cases hp
    exact .failed _ x.handles
  next hroom =>
  obtain ⟨⟨found, handles⟩, hsearch, heq⟩ := Option.map_eq_some_iff.mp hp
  cases found with
  | error e =>
    cases heq
    exact .failed _ handles
  | ok handle =>
    cases heq
    exact .made handles hg (role_of_requireToplevel hrole) (Bool.eq_false_iff.mpr hroom)
      (not_taken_of_search hsearch)

/-- Only an importer whose client has room for it makes an import. -/
theorem importHandle_cases (m : ImporterId) (handle : String) :
    (∃ err, x.importHandle m handle = (.error err, x)) ∨ ∃ g, x.importers.find? m = some g ∧
      Config.reached x.config.maxImports (x.ownership.counts g.client).imports = false ∧
      x.importHandle m handle = (.ok ⟨m, x.nextId⟩, (x.addImport m g handle).2) := by
  unfold importHandle
  split
  · exact Or.inl ⟨_, rfl⟩
  next g hg =>
  split
  · exact Or.inl ⟨_, rfl⟩
  next hroom =>
  refine Or.inr ⟨g, hg, Bool.eq_false_iff.mpr hroom, ?_⟩
  rw [addImport_eq]

/-- A child is declared on a live import that has a source and no link on it, or nothing is
done. -/
theorem setParentOf_cases (view : ShellView) (i : ImportId) (c : SurfaceId) :
    (x.setParentOf view i c).2 = x ∨ ∃ r e s, x.imports.find? i = some r ∧ r.source = some e ∧
      x.exports.find? e = some s ∧ view.role c = some .toplevel ∧ x.link? i c = none ∧
      (x.setParentOf view i c).2 = x.addLink i s.surface c := by
  unfold setParentOf
  split
  · exact Or.inl rfl
  split
  · exact Or.inl rfl
  next r hi =>
  split
  · exact Or.inl rfl
  next s hs =>
  obtain ⟨e, he, hs⟩ := Option.bind_eq_some_iff.mp hs
  split
  · exact Or.inl rfl
  next hrole =>
  split
  · exact Or.inl rfl
  split
  · exact Or.inl rfl
  next hlink =>
  exact Or.inr ⟨r, e, s, hi, he, hs, role_of_requireToplevel hrole,
    Option.not_isSome_iff_eq_none.mp hlink, rfl⟩

/-! ## The operations one by one -/

theorem bindExporter_change (d : Display L) (c : ClientId) (op : Operation) :
    Change x op (.outcome ((x.bindExporter d c).1.map (fun id => some (.exporter id))))
      (x.bindExporter d c).2 := by
  unfold bindExporter
  split
  · exact .ebbs (.single (.addExporter ⟨c, x.config.offeredVersion⟩)) (Answer.plain_exporter _)
  · exact .ebbs .refl (Answer.plain_error _)

theorem bindImporter_change (d : Display L) (c : ClientId) (op : Operation) :
    Change x op (.outcome ((x.bindImporter d c).1.map (fun id => some (.importer id))))
      (x.bindImporter d c).2 := by
  unfold bindImporter
  split
  · exact .ebbs (.single (.addImporter ⟨c, x.config.offeredVersion⟩)) (Answer.plain_importer _)
  · exact .ebbs .refl (Answer.plain_error _)

theorem exportSurface_change {view : ShellView} {patience : Nat} {p : ExporterId} {c : SurfaceId}
    {res : Except RequestError ExportId}
    (hp : x.exportSurface view patience p c = some (res, y)) (op : Operation) :
    Change x op (.outcome (res.map (fun id => some (.exported id)))) y := by
  cases exporting_of_exportSurface hp with
  | failed err handles => exact .ebbs (.single (.draw handles)) (Answer.plain_error _)
  | made handles hg _ hroom hfree => exact .addExport handles c hg hroom hfree

theorem importHandle_change (m : ImporterId) (handle : String) {op : Operation}
    (hop : op.handle? = some handle) :
    Change x op (.outcome ((x.importHandle m handle).1.map (fun id => some (.imported id))))
      (x.importHandle m handle).2 := by
  rcases importHandle_cases (x := x) m handle with ⟨err, heq⟩ | ⟨g, hg, hroom, heq⟩ <;> rw [heq]
  · exact .ebbs .refl (Answer.plain_error _)
  · exact .addImport hg hroom hop

theorem setParentOf_change (h : x.Sound) (view : ShellView) (i : ImportId) (c : SurfaceId)
    (op : Operation) :
    Change x op (.outcome ((x.setParentOf view i c).1.map (fun _ => none)))
      (x.setParentOf view i c).2 := by
  refine .ebbs ?_ (Answer.plain_withoutObject _)
  rcases setParentOf_cases (x := x) view i c with heq | ⟨r, e, s, hi, hs, -, -, -, heq⟩
  · rw [heq]
  · rw [heq]
    refine addLink_ebbs h.coherent hi ?_ s.surface c
    rw [hs]
    exact Option.some_ne_none e

theorem destroyExport_change (e : ExportId) (op : Operation) :
    Change x op (.outcome ((x.destroyExport e).1.map (fun _ => none))) (x.destroyExport e).2 := by
  refine .ebbs ?_ (Answer.plain_withoutObject _)
  unfold destroyExport
  split
  · exact .single (.retireExport e .nothing)
  · split
    · next c hc => exact .single (.releaseExport hc)
    · exact .refl

theorem destroyExporter_change (p : ExporterId) (op : Operation) :
    Change x op (.outcome ((x.destroyExporter p).1.map (fun _ => none)))
      (x.destroyExporter p).2 := by
  refine .ebbs ?_ (Answer.plain_withoutObject _)
  unfold destroyExporter
  split
  · exact .single (.retireExporter p)
  · exact .refl

theorem destroyImport_change (i : ImportId) (op : Operation) :
    Change x op (.outcome ((x.destroyImport i).1.map (fun _ => none))) (x.destroyImport i).2 := by
  unfold destroyImport
  split
  · exact .retireImport i
  · split
    · next c hc =>
      exact .ebbs (.single (.releaseImport hc)) (Answer.plain_withoutObject (.ok ()))
    · exact .ebbs .refl (Answer.plain_error _)

theorem destroyImporter_change (m : ImporterId) (op : Operation) :
    Change x op (.outcome ((x.destroyImporter m).1.map (fun _ => none)))
      (x.destroyImporter m).2 := by
  unfold destroyImporter
  split
  · exact .retireImporter m
  · exact .ebbs .refl (Answer.plain_error _)

/-! ## Requests -/

/-- To serve a request is to carry out the operation that it asks for. -/
theorem serve_eq_perform (view : ShellView) (patience : Nat) (d : Display L) (r : Request) :
    (x.serve view patience r).map (fun p => (Answer.outcome p.1, p.2, d)) =
      x.perform view patience d r.operation := by
  cases r with
  | exporter id request =>
    cases request with
    | destroy => rfl
    | exportSurface s =>
      simp only [serve, Request.operation, perform]
      cases x.exportSurface view patience id s <;> rfl
  | exported id request =>
    cases request with
    | destroy => rfl
  | importer id request => cases request <;> rfl
  | imported id request => cases request <;> rfl

theorem withObject_failed {α : Type} {object : α → ObjectId} {e : RequestError}
    {p : Except RequestError α × Exchange} (hp : withObject object p = (.error e, y)) :
    p = (.error e, y) := by
  obtain ⟨res, z⟩ := p
  cases res <;> cases hp
  rfl

theorem withoutObject_failed {e : RequestError} {p : Except RequestError Unit × Exchange}
    (hp : withoutObject p = (.error e, y)) : p = (.error e, y) := by
  obtain ⟨res, z⟩ := p
  cases res <;> cases hp
  rfl

theorem exportSurface_failed {view : ShellView} {patience : Nat} {p : ExporterId} {c : SurfaceId}
    {e : RequestError} (hp : x.exportSurface view patience p c = some (.error e, y)) :
    ∃ handles, y = { x with handles } := by
  cases exporting_of_exportSurface hp with
  | failed _ handles => exact ⟨handles, rfl⟩

theorem importHandle_failed {m : ImporterId} {handle : String} {e : RequestError}
    (hp : x.importHandle m handle = (.error e, y)) : y = x := by
  rcases importHandle_cases (x := x) m handle with ⟨err, heq⟩ | ⟨g, -, -, heq⟩ <;>
    cases heq.symm.trans hp
  rfl

theorem setParentOf_failed {view : ShellView} {i : ImportId} {c : SurfaceId} {e : RequestError}
    (hp : x.setParentOf view i c = (.error e, y)) : y = x := by
  unfold setParentOf at hp
  repeat' split at hp
  all_goals cases hp
  all_goals rfl

theorem destroyExport_failed {id : ExportId} {e : RequestError}
    (hp : x.destroyExport id = (.error e, y)) : y = x := by
  unfold destroyExport at hp
  split at hp
  · cases hp
  · split at hp <;> cases hp
    rfl

theorem destroyImport_failed {id : ImportId} {e : RequestError}
    (hp : x.destroyImport id = (.error e, y)) : y = x := by
  unfold destroyImport at hp
  split at hp
  · cases hp
  · split at hp <;> cases hp
    rfl

theorem destroyExporter_failed {id : ExporterId} {e : RequestError}
    (hp : x.destroyExporter id = (.error e, y)) : y = x := by
  unfold destroyExporter at hp
  split at hp <;> cases hp
  rfl

theorem destroyImporter_failed {id : ImporterId} {e : RequestError}
    (hp : x.destroyImporter id = (.error e, y)) : y = x := by
  unfold destroyImporter at hp
  split at hp <;> cases hp
  rfl

/-- A request that fails has at most drawn handles. -/
theorem serve_failed {view : ShellView} {patience : Nat} {r : Request} {e : RequestError}
    (hs : x.serve view patience r = some (.error e, y)) : ∃ handles, y = { x with handles } := by
  have hsame : y = x → ∃ handles, y = { x with handles } := fun h => ⟨x.handles, h⟩
  cases r with
  | exporter id request =>
    cases request with
    | destroy => exact hsame (destroyExporter_failed (withoutObject_failed (Option.some.inj hs)))
    | exportSurface s =>
      obtain ⟨p, hp, heq⟩ := Option.map_eq_some_iff.mp hs
      rw [withObject_failed heq] at hp
      exact exportSurface_failed hp
  | exported id request =>
    cases request with
    | destroy => exact hsame (destroyExport_failed (withoutObject_failed (Option.some.inj hs)))
  | importer id request =>
    cases request with
    | destroy => exact hsame (destroyImporter_failed (withoutObject_failed (Option.some.inj hs)))
    | importHandle handle =>
      exact hsame (importHandle_failed (withObject_failed (Option.some.inj hs)))
  | imported id request =>
    cases request with
    | destroy => exact hsame (destroyImport_failed (withoutObject_failed (Option.some.inj hs)))
    | setParentOf s =>
      exact hsame (setParentOf_failed (withoutObject_failed (Option.some.inj hs)))

/-- What becomes of a dispatched request. -/
theorem dispatch_cases {view : ShellView} {patience : Nat} {d d' : Display L} {c : ClientId}
    {r : Request} {res : Except RequestError (Option ObjectId)}
    (hp : x.dispatch view patience d c r = some (res, y, d')) :
    (res = .error (.notConnected c) ∧ y = x ∧ d' = d) ∨
    (∃ e handles, res = .error (.protocol e) ∧
      y = ({ x with handles }.send c (.error e)).clientGone c ∧ d' = (d.disconnect c).2) ∨
    ((∀ e, res ≠ .error (.protocol e)) ∧
      x.perform view patience d r.operation = some (.outcome res, y, d')) := by
  unfold dispatch at hp
  split at hp
  · cases hp
    exact Or.inl ⟨rfl, rfl, rfl⟩
  · split at hp
    · cases hp
      exact Or.inr (Or.inl ⟨_, x.handles, rfl, rfl, rfl⟩)
    · obtain ⟨⟨res', y'⟩, hs, heq⟩ := Option.map_eq_some_iff.mp hp
      split at heq
      · next e y₁ hpair =>
        cases heq
        cases hpair
        obtain ⟨handles, rfl⟩ := serve_failed hs
        exact Or.inr (Or.inl ⟨e, handles, rfl, rfl, rfl⟩)
      · next hfatal hpair =>
        cases heq
        cases hpair
        refine Or.inr (Or.inr ⟨hfatal, ?_⟩)
        rw [← serve_eq_perform, hs]
        rfl

/-! ## Any operation -/

theorem handle?_operation (r : Request) (c : ClientId) :
    (Operation.dispatch c r).handle? = r.operation.handle? := by
  rcases r with ⟨id, _ | _⟩ | ⟨id, _⟩ | ⟨id, _ | _⟩ | ⟨id, _ | _⟩ <;> rfl

/-- A request asks for none that is dispatched in turn. -/
theorem operation_ne_dispatch (r : Request) (c : ClientId) (r' : Request) :
    r.operation ≠ .dispatch c r' := by
  rcases r with ⟨id, _ | _⟩ | ⟨id, _⟩ | ⟨id, _ | _⟩ | ⟨id, _ | _⟩ <;> exact nofun

/-- Only the shell reports a new parent. -/
theorem operation_ne_parentChanged (r : Request) (c : SurfaceId) :
    r.operation ≠ .parentChanged c := by
  rcases r with ⟨id, _ | _⟩ | ⟨id, _⟩ | ⟨id, _ | _⟩ | ⟨id, _ | _⟩ <;> exact nofun

/-- The operations other than dispatching. -/
theorem perform_direct_change (h : x.Sound) {view : ShellView} {patience : Nat} {d d' : Display L}
    {op op' : Operation} {a : Answer} (hdirect : ∀ c r, op ≠ .dispatch c r)
    (hop : op'.handle? = op.handle?) (hp : x.perform view patience d op = some (a, y, d')) :
    Change x op' a y := by
  cases op with
  | bindExporter c =>
    cases hp
    exact bindExporter_change d c op'
  | bindImporter c =>
    cases hp
    exact bindImporter_change d c op'
  | exportSurface p s =>
    obtain ⟨⟨res, z⟩, hexport, heq⟩ := Option.bind_eq_some_iff.mp hp
    cases heq
    exact exportSurface_change hexport op'
  | importHandle m handle =>
    cases hp
    exact importHandle_change m handle hop
  | setParentOf i s =>
    cases hp
    exact setParentOf_change h view i s op'
  | destroyExport e =>
    cases hp
    exact destroyExport_change e op'
  | destroyImport i =>
    cases hp
    exact destroyImport_change i op'
  | destroyExporter p =>
    cases hp
    exact destroyExporter_change p op'
  | destroyImporter m =>
    cases hp
    exact destroyImporter_change m op'
  | unmapped s =>
    cases hp
    exact .ebbs (unmapped_spec h s).1 Answer.plain_silent
  | parentChanged s =>
    cases hp
    exact .ebbs (parentChanged_ebbs h.coherent s) Answer.plain_silent
  | clientGone c =>
    cases hp
    exact .clientGone c
  | expel c e =>
    cases hp
    exact .expel x.handles c e Answer.plain_silent
  | dispatch c r => exact absurd rfl (hdirect c r)
  | takeEvents =>
    cases hp
    exact .takeEvents

/-- On a sound exchange every operation makes one of the changes that there are. -/
theorem perform_change (h : x.Sound) {view : ShellView} {patience : Nat} {d d' : Display L}
    {op : Operation} {a : Answer} (hp : x.perform view patience d op = some (a, y, d')) :
    Change x op a y := by
  cases op with
  | dispatch c r =>
    obtain ⟨⟨res, z, d₁⟩, hdispatch, heq⟩ := Option.map_eq_some_iff.mp hp
    cases heq
    rcases dispatch_cases hdispatch with ⟨rfl, rfl, -⟩ | ⟨e, handles, rfl, rfl, -⟩ | ⟨-, hserve⟩
    · exact .ebbs .refl (Answer.plain_error _)
    · exact .expel handles c e (Answer.plain_error _)
    · exact perform_direct_change h (operation_ne_dispatch r) (handle?_operation r c) hserve
  | _ => exact perform_direct_change h (fun _ _ heq => by cases heq) rfl hp

theorem Sound.perform (h : x.Sound) {view : ShellView} {patience : Nat} {d d' : Display L}
    {op : Operation} {a : Answer} (hp : x.perform view patience d op = some (a, y, d')) :
    y.Sound :=
  (perform_change h hp).sound h

end SurfaceExchange.Exchange
