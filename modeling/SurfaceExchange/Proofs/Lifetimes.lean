import SurfaceExchange.Proofs.OneParent

/-!
# Lives of objects

An object is live, may then be inert, and is gone in the end. `Ages` compares
an exchange with a later one: objects made in between carry the numbers that
came next, one each, and every other object is as far in its life as it was or
further on. An operation ages an exchange by the object that it answers with
(`perform_begets`), a run by all that its operations made (`Run.ages`).
-/

namespace SurfaceExchange

/-- Where an object is in its life. -/
inductive Stage where
  | live
  | inert
  | gone
  deriving DecidableEq, Repr

namespace Stage

/-- How far in life a stage is. -/
def rank : Stage → Nat
  | live => 0
  | inert => 1
  | gone => 2

instance : LE Stage := ⟨fun a b => a.rank ≤ b.rank⟩

instance (a b : Stage) : Decidable (a ≤ b) := inferInstanceAs (Decidable (a.rank ≤ b.rank))

theorem live_le (a : Stage) : live ≤ a := Nat.zero_le a.rank

theorem le_gone (a : Stage) : a ≤ gone := by cases a <;> decide

end Stage

/-- What an export is for as long as it lives. -/
def Export.particulars (s : Export) : ClientId × Nat × Handle × SurfaceId :=
  (s.client, s.version, s.handle, s.surface)

/-- What an import is for as long as it lives. -/
def Import.particulars (r : Import) : ClientId × Nat := (r.client, r.version)

namespace Exchange

variable {L : Type} {x y z : Exchange} {os os' : List ObjectId} {o : ObjectId}

def stage (x : Exchange) (o : ObjectId) : Stage :=
  if (x.clientOf? o).isSome then .live else if (x.inertClient? o).isSome then .inert else .gone

theorem stage_of_live {c : ClientId} (h : x.clientOf? o = some c) : x.stage o = .live := by
  rw [stage, h]
  rfl

/-- An exporter or importer is never inert. Only what was made through one can be. -/
theorem stage_ne_inert_of_registry (h : o.registry? = none) : x.stage o ≠ .inert := by
  cases o with
  | exported e => cases h
  | imported i => cases h
  | _ =>
    unfold stage
    split <;> simp [inertClient?]

theorem exists_owner_of_stage (h : x.stage o ≠ .gone) :
    ∃ c, x.clientOf? o = some c ∨ x.inertClient? o = some c := by
  unfold stage at h
  split at h
  · next hlive =>
    obtain ⟨c, hc⟩ := Option.isSome_iff_exists.mp hlive
    exact ⟨c, Or.inl hc⟩
  · split at h
    · next hinert =>
      obtain ⟨c, hc⟩ := Option.isSome_iff_exists.mp hinert
      exact ⟨c, Or.inr hc⟩
    · exact absurd rfl h

/-! ## One exchange and a later one -/

/-- Objects made in between have the numbers that came next. What is left of all others is what
it was, but that an import may have lost its source, and what is inert was live or inert. -/
structure Ages (x y : Exchange) (os : List ObjectId) : Prop where
  numbers : os.map ObjectId.number = List.range' x.nextId os.length
  nextId : y.nextId = x.nextId + os.length
  exporter : ∀ {q g}, y.exporters.find? q = some g →
    .exporter q ∈ os ∨ x.exporters.find? q = some g
  importer : ∀ {m g}, y.importers.find? m = some g →
    .importer m ∈ os ∨ x.importers.find? m = some g
  exported : ∀ {e s'}, y.exports.find? e = some s' → .exported e ∈ os ∨
    ∃ s, x.exports.find? e = some s ∧ s'.particulars = s.particulars
  imported : ∀ {i r'}, y.imports.find? i = some r' → .imported i ∈ os ∨
    ∃ r, x.imports.find? i = some r ∧ r'.particulars = r.particulars ∧
      (r'.source = r.source ∨ r'.source = none)
  inert : ∀ {o c}, y.inertClient? o = some c →
    o ∈ os ∨ x.inertClient? o = some c ∨ x.clientOf? o = some c

namespace Ages

/-- Nothing is made. -/
theorem of_none (hnext : y.nextId = x.nextId)
    (hexporters : ∀ {q g}, y.exporters.find? q = some g → x.exporters.find? q = some g)
    (himporters : ∀ {m g}, y.importers.find? m = some g → x.importers.find? m = some g)
    (hexports : ∀ {e s'}, y.exports.find? e = some s' →
      ∃ s, x.exports.find? e = some s ∧ s'.particulars = s.particulars)
    (himports : ∀ {i r'}, y.imports.find? i = some r' → ∃ r, x.imports.find? i = some r ∧
      r'.particulars = r.particulars ∧ (r'.source = r.source ∨ r'.source = none))
    (hinert : ∀ {o c}, y.inertClient? o = some c →
      x.inertClient? o = some c ∨ x.clientOf? o = some c) : Ages x y [] where
  numbers := rfl
  nextId := hnext
  exporter := fun hq => Or.inr (hexporters hq)
  importer := fun hm => Or.inr (himporters hm)
  exported := fun he => Or.inr (hexports he)
  imported := fun hi => Or.inr (himports hi)
  inert := fun ho => Or.inr (hinert ho)

/-- No object is touched. -/
theorem of_same (hnext : y.nextId = x.nextId) (hexporters : y.exporters = x.exporters)
    (himporters : y.importers = x.importers) (hexports : y.exports = x.exports)
    (himports : y.imports = x.imports) (hinertExports : y.inertExports = x.inertExports)
    (hinertImports : y.inertImports = x.inertImports) : Ages x y [] := by
  refine .of_none hnext (by rw [hexporters]; exact id) (by rw [himporters]; exact id)
    (fun {e s'} he => ⟨s', hexports ▸ he, rfl⟩)
    (fun {i r'} hi => ⟨r', himports ▸ hi, rfl, Or.inl rfl⟩) (fun {o c} ho => ?_)
  cases o with
  | exported e =>
    rw [inertClient?, hinertExports] at ho
    exact Or.inl ho
  | imported i =>
    rw [inertClient?, hinertImports] at ho
    exact Or.inl ho
  | _ => cases ho

theorem refl (x : Exchange) : Ages x x [] := of_same rfl rfl rfl rfl rfl rfl rfl

/-- What is live was made in between or live before. -/
theorem clientOf? (h : Ages x y os) {c : ClientId} (hc : y.clientOf? o = some c) :
    o ∈ os ∨ x.clientOf? o = some c := by
  cases o with
  | exporter q =>
    obtain ⟨g, hg, rfl⟩ := Option.map_eq_some_iff.mp hc
    exact (h.exporter hg).imp_right fun hg => by rw [Exchange.clientOf?, hg]; rfl
  | importer m =>
    obtain ⟨g, hg, rfl⟩ := Option.map_eq_some_iff.mp hc
    exact (h.importer hg).imp_right fun hg => by rw [Exchange.clientOf?, hg]; rfl
  | exported e =>
    obtain ⟨s', hs', rfl⟩ := Option.map_eq_some_iff.mp hc
    rcases h.exported hs' with hnew | ⟨s, hs, heq⟩
    · exact Or.inl hnew
    · right
      rw [Exchange.clientOf?, hs, Option.map_some, (Prod.mk.inj heq).1]
  | imported i =>
    obtain ⟨r', hr', rfl⟩ := Option.map_eq_some_iff.mp hc
    rcases h.imported hr' with hnew | ⟨r, hr, heq, -⟩
    · exact Or.inl hnew
    · right
      rw [Exchange.clientOf?, hr, Option.map_some, (Prod.mk.inj heq).1]

theorem trans (h : Ages x y os) (h' : Ages y z os') : Ages x z (os ++ os') where
  numbers := by
    rw [List.map_append, h.numbers, h'.numbers, h.nextId, List.range'_append_1,
      List.length_append]
  nextId := by rw [h'.nextId, h.nextId, List.length_append, Nat.add_assoc]
  exporter := by
    intro q g hg
    rw [List.mem_append]
    rcases h'.exporter hg with hm | hg
    · exact Or.inl (Or.inr hm)
    · exact (h.exporter hg).imp_left Or.inl
  importer := by
    intro m g hg
    rw [List.mem_append]
    rcases h'.importer hg with hm | hg
    · exact Or.inl (Or.inr hm)
    · exact (h.importer hg).imp_left Or.inl
  exported := by
    intro e s'' he
    rw [List.mem_append]
    rcases h'.exported he with hm | ⟨s', he', hs'⟩
    · exact Or.inl (Or.inr hm)
    · exact (h.exported he').imp Or.inl fun ⟨s, he, hs⟩ => ⟨s, he, hs'.trans hs⟩
  imported := by
    intro i r'' hi
    rw [List.mem_append]
    rcases h'.imported hi with hm | ⟨r', hi', hr', hsource'⟩
    · exact Or.inl (Or.inr hm)
    · refine (h.imported hi').imp Or.inl fun ⟨r, hi, hr, hsource⟩ => ⟨r, hi, hr'.trans hr, ?_⟩
      -- a source that is lost stays lost
      rcases hsource' with hsource' | hsource'
      · exact hsource.imp hsource'.trans hsource'.trans
      · exact Or.inr hsource'
  inert := by
    intro o c ho
    rw [List.mem_append]
    rcases h'.inert ho with hm | ho | ho
    · exact Or.inl (Or.inr hm)
    · exact (h.inert ho).imp_left Or.inl
    · exact (h.clientOf? ho).imp Or.inl Or.inr

/-- What has a number from before was not made in between. -/
theorem not_mem_of_lt (h : Ages x y os) (hlt : o.number < x.nextId) : o ∉ os := by
  intro hm
  have hnumber : o.number ∈ os.map ObjectId.number := List.mem_map_of_mem hm
  rw [h.numbers, List.mem_range'_1] at hnumber
  omega

theorem stage_le (h : Ages x y os) (hlt : o.number < x.nextId) : x.stage o ≤ y.stage o := by
  have hold := h.not_mem_of_lt hlt
  cases hlive : y.clientOf? o with
  | some c =>
    rw [stage_of_live ((h.clientOf? hlive).resolve_left hold)]
    exact Stage.live_le _
  | none =>
    cases hinert : y.inertClient? o with
    | none =>
      have hgone : y.stage o = .gone := by simp [stage, hlive, hinert]
      rw [hgone]
      exact Stage.le_gone _
    | some c =>
      have hstage : y.stage o = .inert := by simp [stage, hlive, hinert]
      rw [hstage]
      rcases (h.inert hinert).resolve_left hold with ho | ho
      · cases hx : x.clientOf? o <;> simp [stage, hx, ho] <;> decide
      · rw [stage_of_live ho]
        exact Stage.live_le _

/-- What is live or inert was made in between or live or inert before. -/
theorem stage_ne_gone (h : Ages x y os) (ho : y.stage o ≠ .gone) : o ∈ os ∨ x.stage o ≠ .gone := by
  by_cases hm : o ∈ os
  · exact Or.inl hm
  · right
    obtain ⟨c, hc | hc⟩ := exists_owner_of_stage ho
    · rw [stage_of_live ((h.clientOf? hc).resolve_left hm)]
      decide
    · rcases (h.inert hc).resolve_left hm with ho | ho
      · unfold stage
        rw [ho]
        split <;> simp
      · rw [stage_of_live ho]
        decide

end Ages

/-! ## Objects that go -/

theorem RetiresExports.ages (hxy : x.RetiresExports y) : Ages x y [] := by
  cases hxy with
  | nothing => exact .refl x
  | drop w _ _ hregistries hinert =>
    refine .of_none rfl hregistries id (fun {e s} he => ?_) (fun {i r'} hi => ?_)
      (fun {o c} ho => ?_)
    · rw [Coherent.find?_exports_dropExports] at he
      split at he
      · cases he
      · exact ⟨s, he, rfl⟩
    · obtain ⟨r, hr, ⟨-, rfl⟩ | ⟨-, rfl⟩⟩ := Coherent.import_of_dropExports hi
      · exact ⟨r, hr, rfl, Or.inr rfl⟩
      · exact ⟨r', hr, rfl, Or.inl rfl⟩
    · cases o with
      | exported e => exact hinert ho
      | _ => exact Or.inl ho

theorem RetiresImports.ages (hxy : x.RetiresImports y) : Ages x y [] := by
  cases hxy with
  | nothing => exact .refl x
  | drop w _ _ hregistries hinert =>
    refine .of_none rfl id hregistries (fun {e s'} he => ?_) (fun {i r} hi => ?_)
      (fun {o c} ho => ?_)
    · rw [Coherent.find?_exports_dropImports] at he
      obtain ⟨s, hs, rfl⟩ := Option.map_eq_some_iff.mp he
      exact ⟨s, hs, rfl⟩
    · exact ⟨r, (Coherent.import_of_dropImports hi).2, rfl, Or.inl rfl⟩
    · cases o with
      | imported i => exact hinert ho
      | _ => exact Or.inl ho

theorem Coherent.ages_withoutClient (h : x.Coherent) (c : ClientId) :
    Ages x (x.withoutClient c) [] := by
  have hnext : (x.withoutClient c).nextId = x.nextId := by
    show (x.withoutImports c).nextId = x.nextId
    rfl
  refine .of_none hnext Table.of_find?_filter Table.of_find?_filter (fun {e s'} he => ?_)
    (fun {i r'} hi => ?_) (fun {o d} ho => Or.inl ((inertClient?_withoutClient c d o).mp ho).1)
  · rw [find?_exports_withoutClient] at he
    obtain ⟨s, hs, rfl⟩ := Option.map_eq_some_iff.mp he
    exact ⟨s, (Option.filter_eq_some_iff.mp hs).1, rfl⟩
  · rw [find?_imports_withoutClient h] at hi
    obtain ⟨r, hr, rfl⟩ := Option.map_eq_some_iff.mp hi
    refine ⟨r, (Option.filter_eq_some_iff.mp hr).1, ?_⟩
    split
    · exact ⟨rfl, Or.inr rfl⟩
    · exact ⟨rfl, Or.inl rfl⟩

theorem Sound.ages_clientGone (h : x.Sound) (c : ClientId) : Ages x (x.clientGone c) [] := by
  rw [clientGone_eq h.coherent h.registered]
  exact h.coherent.ages_withoutClient c

/-- Drawing handles and queueing events touches no object. -/
theorem Sound.ages_expelled (h : x.Sound) (handles : HandleStream) (c : ClientId)
    (err : ProtocolError) : Ages x (({ x with handles }.send c (.error err)).clientGone c) [] := by
  have hblamed : Ages x ({ x with handles }.send c (.error err)) [] :=
    .of_same rfl rfl rfl rfl rfl rfl rfl
  exact hblamed.trans ((h.blame handles c err).ages_clientGone c)

/-! ## Links that come and go -/

theorem ages_tell (c : SurfaceId) (p : Option SurfaceId) : Ages x (x.tell c p) [] :=
  .of_same rfl rfl rfl rfl rfl rfl rfl

theorem ages_disown (c : SurfaceId) (ts : List Subscription) : Ages x (x.disown c ts) [] := by
  refine .of_none rfl id id (fun he => ⟨_, he, rfl⟩) (fun {i r'} hi => ?_)
    (fun {o d} ho => by cases o <;> exact Or.inl ho)
  obtain ⟨r, hr, rfl⟩ := import_of_disown hi
  exact ⟨r, hr, rfl, Or.inl rfl⟩

theorem ages_attach (i : ImportId) (c : SurfaceId) : Ages x (x.attach i c) [] := by
  refine .of_none rfl id id (fun he => ⟨_, he, rfl⟩) (fun {j r'} hj => ?_)
    (fun {o d} ho => by cases o <;> exact Or.inl ho)
  rw [find?_imports_attach] at hj
  split at hj
  · obtain ⟨r, hr, rfl⟩ := Option.map_eq_some_iff.mp hj
    exact ⟨r, hr, rfl, Or.inl rfl⟩
  · exact ⟨r', hj, rfl, Or.inl rfl⟩

theorem Coherent.ages_parentChanged (h : x.Coherent) (c : SurfaceId) :
    Ages x (x.parentChanged c) [] := by
  rcases h.parentChanged_eq c with ⟨-, heq⟩ | ⟨i, r, l, -, -, -, heq⟩ <;> rw [heq]
  · exact .refl x
  · exact ages_disown c _

theorem Coherent.ages_addLink (h : x.Coherent) (i : ImportId) (p c : SurfaceId) :
    Ages x (x.addLink i p c) [] := by
  have htold := (h.tell c (some p)).ages_parentChanged c
  rw [addLink_eq]
  exact ((ages_tell c (some p)).trans htold).trans (ages_attach i c)

theorem Sound.ages_unmapped (h : x.Sound) (c : SurfaceId) : Ages x (x.unmapped c) [] := by
  refine (h.unmapped_induction c (P := fun y => Ages x y []) (.refl x) ?_ ?_).2.1
  · exact fun hy hages _ _ => hages.trans (retiresExports_retireExport hy.coherent _ _).ages
  · exact fun _ hages _ _ _ => hages.trans ((ages_disown _ _).trans (ages_tell _ _))

/-! ## Objects that are made -/

theorem ages_addExporter (g : Registry) : Ages x { x with
    nextId := x.nextId + 1
    exporters := x.exporters.insert ⟨x.nextId⟩ g
    ownership := x.ownership.track g.client (.exporter ⟨x.nextId⟩) }
    [.exporter ⟨x.nextId⟩] where
  numbers := rfl
  nextId := rfl
  exporter := by
    intro q g' hq
    rcases Table.of_find?_insert hq with ⟨rfl, -⟩ | hq
    · exact Or.inl List.mem_cons_self
    · exact Or.inr hq
  importer := Or.inr
  exported := fun he => Or.inr ⟨_, he, rfl⟩
  imported := fun hi => Or.inr ⟨_, hi, rfl, Or.inl rfl⟩
  inert := fun {o c} ho => Or.inr (by cases o <;> exact Or.inl ho)

theorem ages_addImporter (g : Registry) : Ages x { x with
    nextId := x.nextId + 1
    importers := x.importers.insert ⟨x.nextId⟩ g
    ownership := x.ownership.track g.client (.importer ⟨x.nextId⟩) }
    [.importer ⟨x.nextId⟩] where
  numbers := rfl
  nextId := rfl
  exporter := Or.inr
  importer := by
    intro m g' hm
    rcases Table.of_find?_insert hm with ⟨rfl, -⟩ | hm
    · exact Or.inl List.mem_cons_self
    · exact Or.inr hm
  exported := fun he => Or.inr ⟨_, he, rfl⟩
  imported := fun hi => Or.inr ⟨_, hi, rfl, Or.inl rfl⟩
  inert := fun {o c} ho => Or.inr (by cases o <;> exact Or.inl ho)

theorem ages_addExport (q : ExporterId) (g : Registry) (surface : SurfaceId) (handle : Handle) :
    Ages x (x.addExport q g surface handle).2 [.exported ⟨q, x.nextId⟩] where
  numbers := rfl
  nextId := rfl
  exporter := Or.inr
  importer := Or.inr
  exported := by
    intro e s he
    rcases Table.of_find?_insert he with ⟨rfl, -⟩ | he
    · exact Or.inl List.mem_cons_self
    · exact Or.inr ⟨s, he, rfl⟩
  imported := fun hi => Or.inr ⟨_, hi, rfl, Or.inl rfl⟩
  inert := fun {o c} ho => Or.inr (by cases o <;> exact Or.inl ho)

theorem ages_addImport (m : ImporterId) (g : Registry) (handle : String) :
    Ages x (x.addImport m g handle).2 [.imported ⟨m, x.nextId⟩] := by
  rw [addImport_eq]
  refine ⟨rfl, rfl, Or.inr, Or.inr, fun {e s'} he => Or.inr ?_, fun {i r} hi => ?_,
    fun {o c} ho => Or.inr (by cases o <;> exact Or.inl ho)⟩
  · rw [Table.find?_mapValues] at he
    obtain ⟨s, hs, rfl⟩ := Option.map_eq_some_iff.mp he
    exact ⟨s, hs, rfl⟩
  · rcases Table.of_find?_insert hi with ⟨rfl, -⟩ | hi
    · exact Or.inl List.mem_cons_self
    · exact Or.inr ⟨r, hi, rfl, Or.inl rfl⟩

/-! ## Any operation -/

/-- The object that an operation answers with is the one object that it made, and is live. -/
structure Begets (x : Exchange) (a : Answer) (y : Exchange) : Prop where
  ages : Ages x y a.made?.toList
  live : ∀ {o}, a.made? = some o → y.stage o = .live

/-- An operation that makes nothing only ages the exchange. -/
theorem Begets.of_ages {a : Answer} (ha : a.made? = none) (h : Ages x y []) : Begets x a y where
  ages := by
    rw [ha]
    exact h
  live := by
    intro o ho
    rw [ha] at ho
    cases ho

variable {view : ShellView} {patience : Nat} {d d' : Display L}

theorem bindExporter_begets (c : ClientId) :
    Begets x (.outcome ((x.bindExporter d c).1.map (fun q => some (.exporter q))))
      (x.bindExporter d c).2 := by
  unfold bindExporter
  split
  · refine ⟨ages_addExporter ⟨c, x.config.offeredVersion⟩, fun {o} ho => ?_⟩
    cases ho
    refine stage_of_live (c := c) ?_
    rw [clientOf?]
    exact congrArg _ (Table.find?_insert_self _ _ _)
  · exact .of_ages rfl (.refl x)

theorem bindImporter_begets (c : ClientId) :
    Begets x (.outcome ((x.bindImporter d c).1.map (fun m => some (.importer m))))
      (x.bindImporter d c).2 := by
  unfold bindImporter
  split
  · refine ⟨ages_addImporter ⟨c, x.config.offeredVersion⟩, fun {o} ho => ?_⟩
    cases ho
    refine stage_of_live (c := c) ?_
    rw [clientOf?]
    exact congrArg _ (Table.find?_insert_self _ _ _)
  · exact .of_ages rfl (.refl x)

theorem exportSurface_begets {q : ExporterId} {c : SurfaceId} {res : Except RequestError ExportId}
    (hp : x.exportSurface view patience q c = some (res, y)) :
    Begets x (.outcome (res.map (fun e => some (.exported e)))) y := by
  cases exporting_of_exportSurface hp with
  | failed err handles => exact .of_ages rfl (.of_same rfl rfl rfl rfl rfl rfl rfl)
  | @made g handle handles =>
    have hdrawn : Ages x { x with handles } [] :=
      .of_same rfl rfl rfl rfl rfl rfl rfl
    refine ⟨hdrawn.trans (ages_addExport q g c handle), fun {o} ho => ?_⟩
    cases ho
    refine stage_of_live (c := g.client) ?_
    rw [clientOf?]
    exact congrArg _ (Table.find?_insert_self _ _ _)

theorem importHandle_begets (m : ImporterId) (handle : String) :
    Begets x (.outcome ((x.importHandle m handle).1.map (fun i => some (.imported i))))
      (x.importHandle m handle).2 := by
  rcases importHandle_cases (x := x) m handle with ⟨err, heq⟩ | ⟨g, -, -, heq⟩ <;> rw [heq]
  · exact .of_ages rfl (.refl x)
  · refine ⟨ages_addImport m g handle, fun {o} ho => ?_⟩
    obtain rfl : .imported ⟨m, x.nextId⟩ = o := Option.some.inj ho
    refine stage_of_live (c := g.client) ?_
    rw [addImport_eq, clientOf?]
    exact congrArg _ (Table.find?_insert_self _ _ _)

theorem ages_setParentOf (h : x.Coherent) (i : ImportId) (c : SurfaceId) :
    Ages x (x.setParentOf view i c).2 [] := by
  rcases setParentOf_cases (x := x) view i c with heq | ⟨r, e, s, -, -, -, -, -, heq⟩ <;> rw [heq]
  · exact .refl x
  · exact h.ages_addLink i s.surface c

theorem ages_destroyExport (h : x.Coherent) (e : ExportId) :
    Ages x (x.destroyExport e).2 [] := by
  unfold destroyExport
  split
  · exact (retiresExports_retireExport h e .nothing).ages
  · split
    · refine .of_none rfl id id (fun he => ⟨_, he, rfl⟩) (fun hi => ⟨_, hi, rfl, Or.inl rfl⟩)
        (fun {o c} ho => Or.inl ?_)
      cases o with
      | exported e' => exact Table.of_find?_erase ho
      | _ => exact ho
    · exact .refl x

theorem ages_destroyImport (h : x.Coherent) (i : ImportId) :
    Ages x (x.destroyImport i).2 [] := by
  unfold destroyImport
  split
  · exact (retiresImports_retireImport h i .nothing).ages
  · split
    · refine .of_none rfl id id (fun he => ⟨_, he, rfl⟩) (fun hi => ⟨_, hi, rfl, Or.inl rfl⟩)
        (fun {o c} ho => Or.inl ?_)
      cases o with
      | imported i' => exact Table.of_find?_erase ho
      | _ => exact ho
    · exact .refl x

theorem ages_destroyExporter (h : x.Coherent) (q : ExporterId) :
    Ages x (x.destroyExporter q).2 [] := by
  unfold destroyExporter
  split
  · exact (retiresExports_retireExporter h q .inert).ages
  · exact .refl x

theorem ages_destroyImporter (h : x.Coherent) (m : ImporterId) :
    Ages x (x.destroyImporter m).2 [] := by
  unfold destroyImporter
  split
  · exact (retiresImports_retireImporter h m .inert).ages
  · exact .refl x

theorem begets_of_direct (h : x.Sound) {op : Operation} {a : Answer}
    (hdirect : ∀ c r, op ≠ .dispatch c r)
    (hp : x.perform view patience d op = some (a, y, d')) : Begets x a y := by
  cases op with
  | bindExporter c =>
    cases hp
    exact bindExporter_begets c
  | bindImporter c =>
    cases hp
    exact bindImporter_begets c
  | exportSurface q c =>
    obtain ⟨⟨res, z⟩, hexport, heq⟩ := Option.bind_eq_some_iff.mp hp
    cases heq
    exact exportSurface_begets hexport
  | importHandle m handle =>
    cases hp
    exact importHandle_begets m handle
  | setParentOf i c =>
    cases hp
    exact .of_ages (Answer.made?_withoutObject _) (ages_setParentOf h.coherent i c)
  | destroyExport e =>
    cases hp
    exact .of_ages (Answer.made?_withoutObject _) (ages_destroyExport h.coherent e)
  | destroyImport i =>
    cases hp
    exact .of_ages (Answer.made?_withoutObject _) (ages_destroyImport h.coherent i)
  | destroyExporter q =>
    cases hp
    exact .of_ages (Answer.made?_withoutObject _) (ages_destroyExporter h.coherent q)
  | destroyImporter m =>
    cases hp
    exact .of_ages (Answer.made?_withoutObject _) (ages_destroyImporter h.coherent m)
  | unmapped c =>
    cases hp
    exact .of_ages rfl (h.ages_unmapped c)
  | parentChanged c =>
    cases hp
    exact .of_ages rfl (h.coherent.ages_parentChanged c)
  | clientGone c =>
    cases hp
    exact .of_ages rfl (h.ages_clientGone c)
  | expel c err =>
    cases hp
    exact .of_ages rfl (h.ages_expelled x.handles c err)
  | dispatch c r => exact absurd rfl (hdirect c r)
  | takeEvents =>
    cases hp
    exact .of_ages rfl (.of_same rfl rfl rfl rfl rfl rfl rfl)

theorem perform_begets (h : x.Sound) {op : Operation} {a : Answer}
    (hp : x.perform view patience d op = some (a, y, d')) : Begets x a y := by
  cases op with
  | dispatch c r =>
    obtain ⟨⟨res, z, d₁⟩, hdispatch, heq⟩ := Option.map_eq_some_iff.mp hp
    cases heq
    rcases dispatch_cases hdispatch with ⟨rfl, rfl, -⟩ | ⟨err, handles, rfl, rfl, -⟩ | ⟨-, hserve⟩
    · exact .of_ages rfl (.refl _)
    · exact .of_ages rfl (h.ages_expelled handles c err)
    · exact begets_of_direct h (operation_ne_dispatch r) hserve
  | _ => exact begets_of_direct h (fun _ _ heq => by cases heq) hp

/-! ## Runs -/

variable {ts us : List (Transition L)}

/-- The objects that the operations of a run made and handed out, in order. -/
def made (ts : List (Transition L)) : List ObjectId := ts.filterMap (·.answer.made?)

theorem made_snoc (ts : List (Transition L)) (t : Transition L) :
    made (ts ++ [t]) = made ts ++ t.answer.made?.toList := by
  rw [made, made, List.filterMap_append]
  cases hm : t.answer.made? <;> simp [hm]

theorem Aside.ages (h : Aside x y) : Ages x y [] := by
  cases h <;> exact .of_same rfl rfl rfl rfl rfl rfl rfl

theorem Run.ages (h : x.Sound) (hrun : Run x ts y) : Ages x y (made ts) := by
  induction hrun with
  | start => exact .refl x
  | perform t hrun hvalid ih =>
    rw [made_snoc]
    exact ih.trans (perform_begets (hrun.sound h) hvalid).ages
  | aside hrun haside ih =>
    have hages := ih.trans haside.ages
    rwa [List.append_nil] at hages

/-- What an operation of a run makes is live right after it. -/
theorem Run.born (h : x.Sound) (hrun : Run x ts y) {t : Transition L} (ht : t ∈ ts)
    (ho : t.answer.made? = some o) : t.after.stage o = .live := by
  induction hrun with
  | start => cases ht
  | perform t' hrun hvalid ih =>
    rcases List.mem_append.mp ht with ht | ht
    · exact ih ht
    · obtain rfl := List.mem_singleton.mp ht
      exact (perform_begets (hrun.sound h) hvalid).live ho
  | aside _ _ ih => exact ih ht

theorem stage_start (d : Display L) (config : Config) (handles : HandleStream) (l : L)
    (o : ObjectId) : (Exchange.start d config handles l).1.stage o = .gone := by
  cases o <;> rfl

/-- What objects live through in a run that comes to one exchange first and to another later. -/
structure OneLife (ts us : List (Transition L)) (x y : Exchange) : Prop where
  distinct : ((made (ts ++ us)).map ObjectId.number).Nodup
  below : ∀ o ∈ made (ts ++ us), o.number < y.nextId
  born : ∀ t ∈ ts ++ us, ∀ o, t.answer.made? = some o → t.after.stage o = .live
  known : ∀ o, y.stage o ≠ .gone → o ∈ made (ts ++ us)
  forward : ∀ o ∈ made ts, x.stage o ≤ y.stage o
  exporterNotInert : ∀ q, y.stage (.exporter q) ≠ .inert
  importerNotInert : ∀ m, y.stage (.importer m) ≠ .inert
  exported : ∀ e s s', x.exports.find? e = some s → y.exports.find? e = some s' →
    s'.client = s.client ∧ s'.version = s.version ∧ s'.handle = s.handle ∧
      s'.surface = s.surface
  /-- An import may lose its source, and then it has none for good. -/
  imported : ∀ i r r', x.imports.find? i = some r → y.imports.find? i = some r' →
    r'.client = r.client ∧ r'.version = r.version ∧ (r'.source = r.source ∨ r'.source = none)

/-- Of all that is handed out, no two have the same number, and the next number is beyond them
all. Whatever is handed out is live at first, and from there it goes forward only. -/
theorem Run.one_life {config : Config} {handles : HandleStream} {l : L}
    (hrun : Run (Exchange.start d config handles l).1 ts x) (hlater : Run x us y) :
    OneLife ts us x y := by
  have hstart := sound_start d config handles l
  have hsound := hrun.sound hstart
  have hwhole := hrun.append hlater
  have hages := hwhole.ages hstart
  have hlaterAges := hlater.ages hsound
  have hnumbers : ∀ {z : Exchange} {vs : List (Transition L)},
      Ages (Exchange.start d config handles l).1 z (made vs) →
        ∀ o ∈ made vs, o.number < z.nextId := by
    intro z vs hz o ho
    have hnumber : o.number ∈ (made vs).map ObjectId.number := List.mem_map_of_mem ho
    rw [hz.numbers, List.mem_range'_1] at hnumber
    rw [hz.nextId]
    exact hnumber.2
  have hold : ∀ {c o}, x.clientOf? o = some c → o ∉ made us := fun ho =>
    hlaterAges.not_mem_of_lt (hsound.registered.fresh (hsound.registered.owns_of_live ho))
  constructor
  case distinct =>
    rw [hages.numbers]
    exact List.nodup_range'
  case below => exact hnumbers hages
  case born => exact fun t ht o ho => hwhole.born hstart ht ho
  case known =>
    intro o ho
    exact (hages.stage_ne_gone ho).resolve_right fun hx => hx (stage_start d config handles l o)
  case forward => exact fun o ho => hlaterAges.stage_le (hnumbers (hrun.ages hstart) o ho)
  case exporterNotInert => exact fun q => stage_ne_inert_of_registry rfl
  case importerNotInert => exact fun m => stage_ne_inert_of_registry rfl
  case exported =>
    intro e s s' he he'
    have hlive : x.clientOf? (.exported e) = some s.client := by rw [clientOf?, he]; rfl
    obtain ⟨s₀, hs₀, heq⟩ := (hlaterAges.exported he').resolve_left (hold hlive)
    rw [he] at hs₀
    cases hs₀
    simpa [Export.particulars] using heq
  case imported =>
    intro i r r' hi hi'
    have hlive : x.clientOf? (.imported i) = some r.client := by rw [clientOf?, hi]; rfl
    obtain ⟨r₀, hr₀, heq, hsource⟩ := (hlaterAges.imported hi').resolve_left (hold hlive)
    rw [hi] at hr₀
    cases hr₀
    obtain ⟨hclient, hversion⟩ := Prod.mk.inj heq
    exact ⟨hclient, hversion, hsource⟩

/-- After `sharing` surface 5 unmaps: its export becomes inert, and the import that was resolved
to it has no source from then on. -/
theorem one_life_sharing : ∃ us : List (Transition Unit),
    Run rehearsalStart.1 (rehearse sharing).1 (rehearse sharing).2 ∧
    Run (rehearse sharing).2 us ((rehearse sharing).2.unmapped ⟨5⟩) ∧
    ((made ((rehearse sharing).1 ++ us)).map ObjectId.number).Nodup ∧
    made (rehearse sharing).1 = [.exporter ⟨1⟩, .importer ⟨2⟩, .exported ⟨⟨1⟩, 3⟩,
      .imported ⟨⟨2⟩, 4⟩, .imported ⟨⟨2⟩, 5⟩] ∧
    (rehearse sharing).2.stage (.exported ⟨⟨1⟩, 3⟩) = .live ∧
    ((rehearse sharing).2.unmapped ⟨5⟩).stage (.exported ⟨⟨1⟩, 3⟩) = .inert ∧
    ∀ r r', (rehearse sharing).2.imports.find? ⟨⟨2⟩, 4⟩ = some r →
      ((rehearse sharing).2.unmapped ⟨5⟩).imports.find? ⟨⟨2⟩, 4⟩ = some r' →
        r'.source = r.source ∨ r'.source = none := by
  have hrun := run_rehearse sharing
  have hlater : Run (rehearse sharing).2 ([] ++ [⟨(rehearse sharing).2,
      { role := fun _ => none }, 1, rehearsalStart.2, .unmapped ⟨5⟩, .silent,
      (rehearse sharing).2.unmapped ⟨5⟩, rehearsalStart.2⟩])
      ((rehearse sharing).2.unmapped ⟨5⟩) := .perform _ .start rfl
  have hlife := Run.one_life hrun hlater
  exact ⟨_, hrun, hlater, hlife.distinct, rfl, rfl, rfl,
    fun r r' hi hi' => (hlife.imported _ r r' hi hi').2.2⟩

end Exchange

end SurfaceExchange
