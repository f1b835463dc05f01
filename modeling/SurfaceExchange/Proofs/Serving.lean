import SurfaceExchange.Proofs.Belonging

/-!
# What serving a request comes to

A request on an object of the client's own is `Served` in one of four ways
(`serve_served`): it makes an object for the client, takes the object away, or
declares a child, and no client is told of an error; or it is refused with a
protocol error other than that for a foreign object, and nothing happens but
that handles were drawn. Destroying is never refused, and only a search for a
handle can fail to end (`serve_eq_none`).
-/

namespace SurfaceExchange

namespace HandleStream

variable {s s' : HandleStream} {taken : Handle → Bool} {limit fuel attempts patience : Nat}

/-- The same stream, with no fewer answers drawn. -/
structure Advances (s s' : HandleStream) : Prop where
  answer : s'.answer = s.answer
  drawn : s.drawn ≤ s'.drawn

theorem Advances.refl (s : HandleStream) : s.Advances s := ⟨rfl, Nat.le_refl _⟩

theorem advances_of_search {r : Except HandleFailure Handle}
    (hs : s.search taken limit patience = some (r, s')) : s.Advances s' := by
  obtain ⟨n, -, rfl⟩ := search_eq_some_iff.mp ⟨patience, hs⟩
  exact ⟨rfl, Nat.le_add_right s.drawn n⟩

/-- A search is still going on only if it has drawn taken handles and nothing else. -/
theorem taken_of_searchFrom_eq_none (hs : searchFrom taken limit fuel attempts s = none) {k : Nat}
    (hk : k < fuel) : ∃ h, s.answer (s.drawn + k) = .ok h ∧ taken h = true := by
  induction fuel generalizing attempts s k with
  | zero => cases hk
  | succ fuel ih =>
    unfold searchFrom at hs
    split at hs
    · cases hs
    · next h s₁ hd =>
      obtain ⟨hanswer, rfl⟩ := Prod.mk.inj hd
      split at hs
      · cases hs
      · next htaken =>
        split at hs
        · cases hs
        · cases k with
          | zero => exact ⟨h, hanswer, by simpa using htaken⟩
          | succ k =>
            obtain ⟨h', hanswer', htaken'⟩ := ih hs (Nat.lt_of_succ_lt_succ hk)
            exact ⟨h', by rw [← hanswer', Nat.add_comm k 1, ← Nat.add_assoc], htaken'⟩

theorem search_eq_none (hs : s.search taken limit patience = none) : limit = 0 ∧
    ∀ k < patience, ∃ h, s.answer (s.drawn + k) = .ok h ∧ taken h = true := by
  have hlimit : limit = 0 := by
    by_contra hne
    have hends := search_isSome s taken hne patience
    rw [hs] at hends
    cases hends
  rw [search, if_pos hlimit] at hs
  exact ⟨hlimit, fun k hk => taken_of_searchFrom_eq_none hs hk⟩

end HandleStream

namespace Request

/-- The request that destroys an object. -/
def destroy : ObjectId → Request
  | .exporter id => .exporter id .destroy
  | .exported id => .exported id .destroy
  | .importer id => .importer id .destroy
  | .imported id => .imported id .destroy

/-- The request makes an object: it exports a surface or imports a handle. -/
def makes : Request → Bool
  | .exporter _ (.exportSurface _) => true
  | .importer _ (.importHandle _) => true
  | _ => false

@[simp] theorem makes_destroy (o : ObjectId) : (destroy o).makes = false := by
  cases o <;> rfl

@[simp] theorem object_destroy (o : ObjectId) : (destroy o).object = o := by
  cases o <;> rfl

theorem ne_destroy_of_makes {r : Request} (hr : r.makes = true) (o : ObjectId) :
    r ≠ destroy o := by
  rintro rfl
  simp at hr

theorem setParentOf_ne_destroy (i : ImportId) (s : SurfaceId) (o : ObjectId) :
    imported i (.setParentOf s) ≠ destroy o := by
  cases o <;> simp [destroy]

end Request

namespace Exchange

variable {x y : Exchange} {c : ClientId}

/-! ## Events without an error -/

/-- Events may have been queued, but none that tells a client of an error. -/
def Blameless (x y : Exchange) : Prop :=
  ∃ ds, y.events = x.events ++ ds ∧ ∀ d ∈ ds, d.isError = false

theorem Blameless.of_same (h : y.events = x.events) : x.Blameless y :=
  ⟨[], by rw [h, List.append_nil], nofun⟩

theorem LosesExports.blameless (h : x.LosesExports y) : x.Blameless y := by
  rcases h with rfl | ⟨ps, -, -, -, -, hevents, -⟩
  · exact .of_same rfl
  · refine ⟨_, hevents, fun d hd => ?_⟩
    obtain ⟨i, -, hi⟩ := List.mem_filterMap.mp hd
    obtain ⟨r, -, rfl⟩ := Option.map_eq_some_iff.mp hi
    rfl

theorem LosesImports.blameless (h : x.LosesImports y) : x.Blameless y := by
  rcases h with rfl | ⟨ps, -, -, hevents, -⟩
  · exact .of_same rfl
  · exact .of_same hevents

theorem blameless_addImport (m : ImporterId) (g : Registry) (handle : String) :
    x.Blameless (x.addImport m g handle).2 := by
  refine ⟨x.firstNotice m g handle, by rw [addImport_eq], fun d hd => ?_⟩
  unfold firstNotice at hd
  split at hd
  · cases hd
  · cases List.mem_singleton.mp hd
    rfl

/-! Parents and children are no matter of ownership, and no client is told of them. -/

theorem parentChanged_quiet (h : x.Coherent) (child : SurfaceId) :
    (x.parentChanged child).ownership = x.ownership ∧
      (x.parentChanged child).events = x.events := by
  rcases h.parentChanged_eq child with ⟨-, heq⟩ | ⟨i, r, l, -, -, -, heq⟩ <;> rw [heq] <;>
    exact ⟨rfl, rfl⟩

theorem addLink_quiet (h : x.Coherent) (i : ImportId) (parent child : SurfaceId) :
    (x.addLink i parent child).ownership = x.ownership ∧
      (x.addLink i parent child).events = x.events := by
  rw [addLink_eq]
  exact parentChanged_quiet (h.tell child (some parent)) child

theorem setParentOf_quiet (h : x.Coherent) (view : ShellView) (i : ImportId) (child : SurfaceId) :
    (x.setParentOf view i child).2.ownership = x.ownership ∧
      (x.setParentOf view i child).2.events = x.events := by
  rcases setParentOf_cases (x := x) view i child with heq | ⟨r, e, s, -, -, -, -, -, heq⟩ <;>
    rw [heq]
  · exact ⟨rfl, rfl⟩
  · exact addLink_quiet h i s.surface child

/-! ## The requests one by one -/

/-- What becomes of a client's request on an object of its own. -/
inductive Served (x : Exchange) (c : ClientId) (r : Request) :
    Except RequestError (Option ObjectId) → Exchange → Prop
  | made {o : ObjectId} {z : Exchange} : r.makes = true → o.number = x.nextId →
      z.clientOf? o = some c → z.ownership = x.ownership.track c o → x.Blameless z →
      Served x c r (.ok (some o)) z
  | destroyed {z : Exchange} : r = .destroy r.object →
      z.ownership = x.ownership.untrack c r.object → x.Blameless z → Served x c r (.ok none) z
  | linked {i : ImportId} {s : SurfaceId} {z : Exchange} : r = .imported i (.setParentOf s) →
      z.ownership = x.ownership → x.Blameless z → Served x c r (.ok none) z
  | refused {e : ProtocolError} (handles : HandleStream) : (∀ o, r ≠ .destroy o) →
      e.code ≠ .invalidObject → x.handles.Advances handles →
      Served x c r (.error (.protocol e)) { x with handles }

/-! None of the errors that an operation raises is the one for a foreign object. -/

theorem code_noMemory (o : ObjectId) : (ProtocolError.noMemory o).code ≠ .invalidObject := by
  simp [ProtocolError.noMemory]

theorem code_roleMismatch (o : ObjectId) :
    (ProtocolError.roleMismatch o).code ≠ .invalidObject := by
  simp [ProtocolError.roleMismatch]

theorem code_of_requireToplevel {view : ShellView} {o : ObjectId} {s : SurfaceId}
    {e : ProtocolError} (he : requireToplevel view o s = .error e) : e.code ≠ .invalidObject := by
  unfold requireToplevel at he
  split at he <;> cases he
  · simp [ProtocolError.notToplevel]
  · simp [ProtocolError.notShellSurface]

section Requests

variable (h : x.Sound)

include h

theorem exportSurface_served {view : ShellView} {patience : Nat} {p : ExporterId} {s : SurfaceId}
    {res : Except RequestError ExportId} (hown : x.ownership.owns c (.exporter p) = true)
    (hp : x.exportSurface view patience p s = some (res, y)) :
    Served x c (.exporter p (.exportSurface s)) (res.map (fun e => some (.exported e))) y := by
  have hnot := Request.ne_destroy_of_makes (r := .exporter p (.exportSurface s)) rfl
  cases (h.registered.owns_iff_belongs c _).mp hown with
  | @exporter _ g hg hc =>
    unfold exportSurface at hp
    split at hp
    · next hn =>
      rw [hg] at hn
      cases hn
    · next g' hg' =>
      rw [hg] at hg'
      cases hg'
      split at hp
      · next e he =>
        cases hp
        exact .refused x.handles hnot (code_of_requireToplevel he) (.refl _)
      · split at hp
        · cases hp
          exact .refused x.handles hnot (code_noMemory _) (.refl _)
        · obtain ⟨⟨found, handles⟩, hsearch, heq⟩ := Option.map_eq_some_iff.mp hp
          cases found with
          | error e =>
            cases heq
            exact .refused handles hnot (code_noMemory _)
              (HandleStream.advances_of_search hsearch)
          | ok handle =>
            cases heq
            refine .made rfl rfl ?_ (by rw [← hc]; rfl) ⟨_, rfl, by simp [Delivery.isError]⟩
            have hmade := Table.find?_insert_self (⟨p, x.nextId⟩ : ExportId)
              (({ x with handles } : Exchange).nextExport g s handle) x.exports
            exact (congrArg (Option.map Export.client) hmade).trans (congrArg some hc)

theorem importHandle_served {m : ImporterId} (hown : x.ownership.owns c (.importer m) = true)
    (handle : String) : Served x c (.importer m (.importHandle handle))
      ((x.importHandle m handle).1.map (fun i => some (.imported i)))
      (x.importHandle m handle).2 := by
  have hnot := Request.ne_destroy_of_makes (r := .importer m (.importHandle handle)) rfl
  cases (h.registered.owns_iff_belongs c _).mp hown with
  | @importer _ g hg hc =>
    unfold importHandle
    split
    · next hn =>
      rw [hg] at hn
      cases hn
    · next g' hg' =>
      rw [hg] at hg'
      cases hg'
      split
      · exact .refused x.handles hnot (code_noMemory _) (.refl _)
      · have hquiet := blameless_addImport (x := x) m g handle
        rw [addImport_eq] at hquiet ⊢
        refine .made rfl rfl ?_ (by rw [← hc]) hquiet
        have hmade := Table.find?_insert_self (⟨m, x.nextId⟩ : ImportId) (x.nextImport g handle)
          x.imports
        exact (congrArg (Option.map Import.client) hmade).trans (congrArg some hc)

theorem setParentOf_served {i : ImportId} (hown : x.ownership.owns c (.imported i) = true)
    (view : ShellView) (s : SurfaceId) : Served x c (.imported i (.setParentOf s))
      ((x.setParentOf view i s).1.map (fun _ => none)) (x.setParentOf view i s).2 := by
  have hnot := Request.setParentOf_ne_destroy i s
  unfold setParentOf
  split
  · exact .linked rfl rfl (.of_same rfl)
  · next hinert =>
    split
    · next hdead =>
      cases (h.registered.owns_iff_belongs c _).mp hown with
      | liveImport hi _ =>
        rw [hdead] at hi
        cases hi
      | inertImport hi => exact absurd (Option.isSome_of_eq_some hi) hinert
    · split
      · exact .linked rfl rfl (.of_same rfl)
      · split
        · next e he =>
          exact .refused x.handles hnot (code_of_requireToplevel he) (.refl _)
        · split
          · exact .refused x.handles hnot (code_roleMismatch _) (.refl _)
          · split
            · exact .linked rfl rfl (.of_same rfl)
            · obtain ⟨howned, hevents⟩ := addLink_quiet h.coherent i _ s
              exact .linked rfl howned (.of_same hevents)

theorem destroyExporter_served {p : ExporterId} (hown : x.ownership.owns c (.exporter p) = true) :
    Served x c (.exporter p .destroy) ((x.destroyExporter p).1.map (fun _ => none))
      (x.destroyExporter p).2 := by
  cases (h.registered.owns_iff_belongs c _).mp hown with
  | exporter hg hc =>
    rw [destroyExporter, if_pos (show x.exporters.contains p = true from
      Option.isSome_of_eq_some hg)]
    refine .destroyed rfl ?_ (losesExports_retireExporter h.coherent p _).blameless
    rw [ownership_retireExporter_inert h.coherent hg, hc]
    rfl

theorem destroyImporter_served {m : ImporterId} (hown : x.ownership.owns c (.importer m) = true) :
    Served x c (.importer m .destroy) ((x.destroyImporter m).1.map (fun _ => none))
      (x.destroyImporter m).2 := by
  cases (h.registered.owns_iff_belongs c _).mp hown with
  | importer hg hc =>
    rw [destroyImporter, if_pos (show x.importers.contains m = true from
      Option.isSome_of_eq_some hg)]
    refine .destroyed rfl ?_ (losesImports_retireImporter h.coherent m _).blameless
    rw [ownership_retireImporter_inert h.coherent hg, hc]
    rfl

/-- A live export goes; of an inert one the identifier is given up. Both are the client's, for
nothing has two owners. -/
theorem destroyExport_served {e : ExportId} (hown : x.ownership.owns c (.exported e) = true) :
    Served x c (.exported e .destroy) ((x.destroyExport e).1.map (fun _ => none))
      (x.destroyExport e).2 := by
  unfold destroyExport
  split
  · next hlive =>
    obtain ⟨s, he⟩ := Option.isSome_iff_exists.mp hlive
    have hs : s.client = c := h.registered.owner_unique (o := .exported e)
      (h.registered.owns_of_live (by simp [clientOf?, he])) hown
    refine .destroyed rfl ?_ (losesExports_retireExport h.coherent e _).blameless
    rw [ownership_retireExport_nothing h.coherent he, hs]
    rfl
  · next hdead =>
    split
    · next d hd =>
      cases h.registered.owner_unique (h.registered.owns_of_inert (o := .exported e) hd) hown
      exact .destroyed rfl rfl (.of_same rfl)
    · next hnone =>
      cases (h.registered.owns_iff_belongs c _).mp hown with
      | liveExport he _ => exact absurd (Option.isSome_of_eq_some he) hdead
      | inertExport he =>
        rw [hnone] at he
        cases he

/-- A live import goes; of an inert one the identifier is given up. -/
theorem destroyImport_served {i : ImportId} (hown : x.ownership.owns c (.imported i) = true) :
    Served x c (.imported i .destroy) ((x.destroyImport i).1.map (fun _ => none))
      (x.destroyImport i).2 := by
  unfold destroyImport
  split
  · next hlive =>
    obtain ⟨r, hi⟩ := Option.isSome_iff_exists.mp hlive
    have hr : r.client = c := h.registered.owner_unique (o := .imported i)
      (h.registered.owns_of_live (by simp [clientOf?, hi])) hown
    refine .destroyed rfl ?_ (losesImports_retireImport h.coherent i _).blameless
    rw [ownership_retireImport_nothing h.coherent hi, hr]
    rfl
  · next hdead =>
    split
    · next d hd =>
      cases h.registered.owner_unique (h.registered.owns_of_inert (o := .imported i) hd) hown
      exact .destroyed rfl rfl (.of_same rfl)
    · next hnone =>
      cases (h.registered.owns_iff_belongs c _).mp hown with
      | liveImport hi _ => exact absurd (Option.isSome_of_eq_some hi) hdead
      | inertImport hi =>
        rw [hnone] at hi
        cases hi

/-- Requests on an object of the client's own are served. -/
theorem serve_served {view : ShellView} {patience : Nat} {r : Request}
    {res : Except RequestError (Option ObjectId)} (hown : x.ownership.owns c r.object = true)
    (hs : x.serve view patience r = some (res, y)) : Served x c r res y := by
  cases r with
  | exporter p request =>
    cases request with
    | destroy =>
      cases hs
      exact destroyExporter_served h hown
    | exportSurface s =>
      obtain ⟨⟨found, z⟩, hp, heq⟩ := Option.map_eq_some_iff.mp hs
      cases heq
      exact exportSurface_served h hown hp
  | exported e request =>
    cases request with
    | destroy =>
      cases hs
      exact destroyExport_served h hown
  | importer m request =>
    cases request with
    | destroy =>
      cases hs
      exact destroyImporter_served h hown
    | importHandle handle =>
      cases hs
      exact importHandle_served h hown handle
  | imported i request =>
    cases request with
    | destroy =>
      cases hs
      exact destroyImport_served h hown
    | setParentOf s =>
      cases hs
      exact setParentOf_served h hown view s

end Requests

/-- A request is served for ever only if it exports, without a limit to the attempts, and every
handle drawn is taken. -/
theorem serve_eq_none {view : ShellView} {patience : Nat} {r : Request}
    (hs : x.serve view patience r = none) : x.config.maxHandleAttempts = 0 ∧
      (∃ p s, r = .exporter p (.exportSurface s)) ∧
      ∀ k < patience, ∃ h, x.handles.answer (x.handles.drawn + k) = .ok h ∧
        x.isTaken h = true := by
  rcases r with ⟨p, _ | s⟩ | ⟨e, _⟩ | ⟨m, _ | handle⟩ | ⟨i, _ | s⟩ <;> try cases hs
  have hp := Option.map_eq_none_iff.mp hs
  unfold exportSurface at hp
  split at hp
  · cases hp
  · split at hp
    · cases hp
    · split at hp
      · cases hp
      · obtain ⟨hlimit, htaken⟩ := HandleStream.search_eq_none (Option.map_eq_none_iff.mp hp)
        exact ⟨hlimit, ⟨p, s, rfl⟩, htaken⟩

end Exchange

end SurfaceExchange
