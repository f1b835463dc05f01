import SurfaceExchange.Proofs.Disappearance
import SurfaceExchange.Proofs.Dispatching
import SurfaceExchange.Proofs.History
import SurfaceExchange.Proofs.Lifetimes

/-!
# The last word

A client that is told of an error is told of nothing afterwards. Whoever is
told of anything else holds a live object at that time (`Queues.addressee`),
and whoever was told of an error is `Barred`: off the display for good, and
without live objects. Only a connected client can bind a registry, and
everything else is made through one, so nothing brings it back
(`Barred.perform`). The error itself comes first in its own step, and what
follows there is addressed to others (`Judged`).
-/

namespace SurfaceExchange

/-! ## The display of a run -/

namespace Display

variable {L : Type} {d d' : Display L} {c : ClientId}

/-- What may be done to a display, whoever does it. -/
inductive Move (d : Display L) : Display L → Prop
  | connect : Move d d.connect.2
  | disconnect (c : ClientId) : Move d (d.disconnect c).2
  | advertise (interface : String) (version : Nat) : Move d (d.advertise interface version).2
  | withdraw (id : GlobalId) : Move d (d.withdraw id).2
  | addListener (l : L) : Move d (d.addListener l).2
  | removeListener (id : ListenerId) : Move d (d.removeListener id).2
  | terminate {σ : Type} (run : σ → L → σ) (s : σ) : Move d (d.terminate run s).2

/-- Whoever is connected has been given a number. -/
def Numbered (d : Display L) : Prop := ∀ c, d.isConnected c = true → c.val < d.nextClient

/-- The client had a number and is not connected any more. -/
structure Parted (d : Display L) (c : ClientId) : Prop where
  number : c.val < d.nextClient
  absent : d.isConnected c = false

theorem isConnected_connect (d : Display L) (c : ClientId) :
    d.connect.2.isConnected c = (decide (c.val = d.nextClient) || d.isConnected c) := by
  obtain ⟨n⟩ := c
  simp only [isConnected, connect, Table.contains, KeySet.add, Table.find?_insert]
  by_cases hn : d.nextClient = n
  · simp [hn]
  · simp [hn, Ne.symm hn]

theorem isConnected_disconnect (d : Display L) (c c' : ClientId) :
    (d.disconnect c').2.isConnected c = (decide (c ≠ c') && d.isConnected c) := by
  simp only [isConnected, disconnect, Table.contains, Table.find?_erase]
  by_cases hc : c = c' <;> simp [hc]

/-- A move gives at most the next number away, and connects nobody else. -/
theorem Move.connects (h : d.Move d') : d.nextClient ≤ d'.nextClient ∧
    ∀ c, d'.isConnected c = true → d.isConnected c = true ∨
      (d.nextClient ≤ c.val ∧ c.val < d'.nextClient) := by
  cases h with
  | connect =>
    refine ⟨Nat.le_succ _, fun c hc => ?_⟩
    rw [isConnected_connect, Bool.or_eq_true, decide_eq_true_eq] at hc
    refine hc.symm.imp_right fun hc => ?_
    rw [hc]
    exact ⟨Nat.le_refl _, Nat.lt_succ_self _⟩
  | disconnect c' =>
    refine ⟨Nat.le_refl _, fun c hc => ?_⟩
    rw [isConnected_disconnect, Bool.and_eq_true] at hc
    exact Or.inl hc.2
  | terminate run s =>
    unfold Display.terminate
    split
    · exact ⟨Nat.le_refl _, fun c hc => Or.inl hc⟩
    · exact ⟨Nat.le_refl _, fun c hc => by cases hc⟩
  | _ => exact ⟨Nat.le_refl _, fun c hc => Or.inl hc⟩

theorem Move.numbered (h : d.Move d') (hd : d.Numbered) : d'.Numbered := by
  obtain ⟨hle, hconnects⟩ := h.connects
  intro c hc
  rcases hconnects c hc with hc | ⟨-, hlt⟩
  · exact Nat.lt_of_lt_of_le (hd c hc) hle
  · exact hlt

/-- Numbers are not given twice, so whoever has parted does not come back. -/
theorem Move.parted (h : d.Move d') (hc : d.Parted c) : d'.Parted c := by
  obtain ⟨hle, hconnects⟩ := h.connects
  refine ⟨Nat.lt_of_lt_of_le hc.number hle, Bool.eq_false_iff.mpr fun hconnected => ?_⟩
  rcases hconnects c hconnected with hbefore | ⟨hnew, -⟩
  · rw [hc.absent] at hbefore
    cases hbefore
  · exact absurd hc.number (Nat.not_lt.mpr hnew)

theorem numbered_empty : (empty : Display L).Numbered := fun c hc => by cases hc

/-- Everything that happens to a display is a move. -/
abbrev Moves : Display L → Display L → Prop := Relation.ReflTransGen Move

theorem Moves.numbered (h : d.Moves d') (hd : d.Numbered) : d'.Numbered := by
  induction h with
  | refl => exact hd
  | tail _ hmove ih => exact hmove.numbered ih

end Display

namespace Exchange

variable {L : Type} {x y : Exchange} {d d' : Display L} {op : Operation} {a : Answer}
  {ds : List Delivery} {c : ClientId}

/-- A new exchange puts two globals and a listener on its display. -/
theorem moves_start (d : Display L) (config : Config) (handles : HandleStream) (l : L) :
    d.Moves (start d config handles l).2 :=
  ((Relation.ReflTransGen.single (.advertise _ _)).tail (.advertise _ _)).tail (.addListener l)

/-- A run on one display. What the operations do to it is carried on, and so is what others do in
between. The shell raises errors against connected clients only. -/
inductive Course : List (Transition L) → Exchange → Display L → Prop
  | start {d : Display L} (config : Config) (handles : HandleStream) (l : L) :
      Display.empty.Moves d → Course [] (start d config handles l).1 (start d config handles l).2
  | perform {ts} (t : Transition L) : Course ts t.before t.display → t.Valid →
      (∀ c e, t.operation = .expel c e → t.display.isConnected c = true) →
      Course (ts ++ [t]) t.after t.displayAfter
  | aside {ts x y d} : Course ts x d → Aside x y → Course ts y d
  | move {ts x d d'} : Course ts x d → d.Move d' → Course ts x d'

theorem Course.sound {ts : List (Transition L)} (h : Course ts x d) : x.Sound := by
  induction h with
  | @start d config handles l _ => exact sound_start d config handles l
  | perform t _ hvalid _ ih => exact ih.perform hvalid
  | aside _ haside ih => exact haside.sound ih
  | move _ _ ih => exact ih

/-! ## Who is told -/

/-- Of anything but an error only those are told who hold a live object. -/
theorem Queues.addressee (hq : Queues x op a y ds) {m : Delivery} (hm : m ∈ ds)
    (he : m.isError = false) : ∃ o, x.clientOf? o = some m.client := by
  obtain ⟨c, event⟩ := m
  cases event with
  | handle e handle =>
    have hfilter : ⟨c, .handle e handle⟩ ∈ ds.filter (Delivery.isHandleOf e) :=
      List.mem_filter.mpr ⟨hm, by simp [Delivery.isHandleOf]⟩
    by_cases hnew : a.made? = some (.exported e)
    · obtain ⟨-, -, s, -, howner, -, hds⟩ := hq.newExport hnew
      rw [hds, List.mem_singleton] at hm
      cases hm
      exact ⟨.exporter e.exporter, howner⟩
    · rw [hq.handles hnew] at hfilter
      cases hfilter
  | destroyed i =>
    have hfilter : ⟨c, .destroyed i⟩ ∈ ds.filter (Delivery.isNotice i) :=
      List.mem_filter.mpr ⟨hm, by simp [Delivery.isNotice]⟩
    by_cases hnew : a.made? = some (.imported i)
    · obtain ⟨-, -, r, -, howner, -, hds⟩ := hq.newImport hnew
      rw [hds] at hfilter
      split at hfilter
      · cases hfilter
      · cases List.mem_singleton.mp hfilter
        exact ⟨.importer i.importer, howner⟩
    · rw [hq.notices hnew] at hfilter
      unfold lossOf at hfilter
      split at hfilter
      · next r r' hi _ =>
        split at hfilter
        · cases List.mem_singleton.mp hfilter
          exact ⟨.imported i, by rw [clientOf?, hi]; rfl⟩
        · cases hfilter
      · cases hfilter
  | error e => cases he

/-! ## What one operation says -/

/-- What an operation makes that needs no registry, it makes for a connected client. -/
def BindsConnected (d : Display L) (a : Answer) (y : Exchange) : Prop :=
  ∀ o, a.made? = some o → o.registry? = none →
    ∃ c, d.isConnected c = true ∧ y.clientOf? o = some c

/-- An operation tells nobody of an error and leaves the display alone, or it is the end of one
client, which is told of its error first. -/
inductive Judged (x : Exchange) (d : Display L) (op : Operation) :
    Answer → Exchange → Display L → Prop
  | spared {a : Answer} {y : Exchange} : BindsConnected d a y →
      (∃ ds, a.taken ++ y.events = x.events ++ ds ∧ ∀ m ∈ ds, m.isError = false) →
      Judged x d op a y d
  | expelled {a : Answer} (handles : HandleStream) (c : ClientId) (e : ProtocolError) :
      a.made? = none → a.taken = [] → op = .expel c e ∨ d.isConnected c = true →
      Judged x d op a (({ x with handles }.send c (.error e)).clientGone c) (d.disconnect c).2

theorem bindsConnected_of_none (ha : a.made? = none) : BindsConnected d a y := by
  intro o ho
  rw [ha] at ho
  cases ho

/-- Nothing is made and nothing taken. -/
theorem Judged.of_blameless (ha : a.made? = none) (htaken : a.taken = []) (h : x.Blameless y) :
    Judged x d op a y d := by
  obtain ⟨ds, hevents, hds⟩ := h
  exact .spared (bindsConnected_of_none ha) ⟨ds, by rw [htaken, hevents]; rfl, hds⟩

theorem Judged.withoutObject {res : Except RequestError Unit} (h : x.Blameless y) :
    Judged x d op (.outcome (res.map (fun _ => none))) y d :=
  .of_blameless (Answer.made?_withoutObject res) (Answer.plain_withoutObject res).taken h

theorem Blameless.trans {z : Exchange} (h : x.Blameless y) (h' : y.Blameless z) :
    x.Blameless z := by
  obtain ⟨ds, hy, hds⟩ := h
  obtain ⟨es, hz, hes⟩ := h'
  refine ⟨ds ++ es, by rw [hz, hy, List.append_assoc], fun m hm => ?_⟩
  exact (List.mem_append.mp hm).elim (hds m) (hes m)

theorem blameless_unmapped (h : x.Sound) (s : SurfaceId) : x.Blameless (x.unmapped s) := by
  refine (h.unmapped_induction s (P := fun y => x.Blameless y) (.of_same rfl) ?_ ?_).2.1
  · exact fun hy hblameless _ _ =>
      hblameless.trans (losesExports_retireExport hy.coherent _ _).blameless
  · exact fun _ hblameless _ _ _ => hblameless.trans (.of_same rfl)

/-- What others are told when a client goes is no error, and none of it is for the client. -/
theorem of_mem_map_parting (h : x.Coherent) {m : Delivery}
    (hm : m ∈ (x.brokenOff c).map parting) : m.isError = false ∧ m.client ≠ c := by
  obtain ⟨⟨e, i, d⟩, hb, rfl⟩ := List.mem_map.mp hm
  exact ⟨rfl, ((mem_brokenOff_iff h c e i d).mp hb).1⟩

theorem blameless_clientGone (h : x.Sound) (c : ClientId) : x.Blameless (x.clientGone c) := by
  rw [clientGone_eq h.coherent h.registered]
  exact ⟨_, events_withoutClient h.coherent c, fun m hm => (of_mem_map_parting h.coherent hm).1⟩

section Operations

variable {view : ShellView} {patience : Nat}

theorem judged_bindExporter (c : ClientId) : Judged x d op
    (.outcome ((x.bindExporter d c).1.map (fun p => some (.exporter p))))
    (x.bindExporter d c).2 d := by
  unfold bindExporter
  split
  · next hconnected =>
    refine .spared (fun o ho _ => ⟨c, hconnected, ?_⟩) ⟨[], (List.append_nil _).symm, nofun⟩
    cases ho
    rw [clientOf?]
    exact congrArg _ (Table.find?_insert_self _ _ _)
  · exact .of_blameless rfl rfl (.of_same rfl)

theorem judged_bindImporter (c : ClientId) : Judged x d op
    (.outcome ((x.bindImporter d c).1.map (fun m => some (.importer m))))
    (x.bindImporter d c).2 d := by
  unfold bindImporter
  split
  · next hconnected =>
    refine .spared (fun o ho _ => ⟨c, hconnected, ?_⟩) ⟨[], (List.append_nil _).symm, nofun⟩
    cases ho
    rw [clientOf?]
    exact congrArg _ (Table.find?_insert_self _ _ _)
  · exact .of_blameless rfl rfl (.of_same rfl)

theorem judged_exportSurface {p : ExporterId} {s : SurfaceId} {res : Except RequestError ExportId}
    (hp : x.exportSurface view patience p s = some (res, y)) :
    Judged x d op (.outcome (res.map (fun e => some (.exported e)))) y d := by
  cases exporting_of_exportSurface hp with
  | failed err handles => exact .of_blameless rfl rfl (.of_same rfl)
  | made handles =>
    refine .spared (fun o ho hregistry => ?_) ⟨_, rfl, by simp [Delivery.isError]⟩
    cases ho
    cases hregistry

theorem judged_importHandle (m : ImporterId) (handle : String) : Judged x d op
    (.outcome ((x.importHandle m handle).1.map (fun i => some (.imported i))))
    (x.importHandle m handle).2 d := by
  rcases importHandle_cases (x := x) m handle with ⟨err, heq⟩ | ⟨g, -, -, heq⟩ <;> rw [heq]
  · exact .of_blameless rfl rfl (.of_same rfl)
  · refine .spared (fun o ho hregistry => ?_) (blameless_addImport m g handle)
    cases ho
    cases hregistry

theorem blameless_destroyExport (h : x.Coherent) (e : ExportId) :
    x.Blameless (x.destroyExport e).2 := by
  unfold destroyExport
  split
  · exact (losesExports_retireExport h e _).blameless
  · split <;> exact .of_same rfl

theorem blameless_destroyImport (h : x.Coherent) (i : ImportId) :
    x.Blameless (x.destroyImport i).2 := by
  unfold destroyImport
  split
  · exact (losesImports_retireImport h i _).blameless
  · split <;> exact .of_same rfl

theorem blameless_destroyExporter (h : x.Coherent) (p : ExporterId) :
    x.Blameless (x.destroyExporter p).2 := by
  unfold destroyExporter
  split
  · exact (losesExports_retireExporter h p _).blameless
  · exact .of_same rfl

theorem blameless_destroyImporter (h : x.Coherent) (m : ImporterId) :
    x.Blameless (x.destroyImporter m).2 := by
  unfold destroyImporter
  split
  · exact (losesImports_retireImporter h m _).blameless
  · exact .of_same rfl

theorem judged_dispatch (h : x.Sound) {r : Request} {res : Except RequestError (Option ObjectId)}
    (hp : x.dispatch view patience d c r = some (res, y, d')) :
    Judged x d op (.outcome res) y d' := by
  cases h.dispatched hp with
  | absent _ => exact .of_blameless rfl rfl (.of_same rfl)
  | foreign hconnected _ =>
    exact .expelled x.handles c _ rfl rfl (Or.inr hconnected)
  | @refused e handles hconnected _ _ _ _ =>
    have hdrawn := congrArg Prod.fst (expel_draw h handles d c e)
    have hexpelled : Judged x d op (.outcome (.error (.protocol e)))
        ({ x with handles }.expel d c e).1 (d.disconnect c).2 :=
      .expelled handles c e rfl rfl (Or.inr hconnected)
    rw [hdrawn] at hexpelled
    exact hexpelled
  | @served a z hconnected _ hserved =>
    obtain ⟨-, hevents, hobject⟩ := hserved.object
    exact .spared (fun o ho _ => ⟨c, hconnected, (hobject o ho).1⟩) hevents

theorem perform_judged (h : x.Sound) (hp : x.perform view patience d op = some (a, y, d')) :
    Judged x d op a y d' := by
  cases op with
  | bindExporter c =>
    cases hp
    exact judged_bindExporter c
  | bindImporter c =>
    cases hp
    exact judged_bindImporter c
  | exportSurface p s =>
    obtain ⟨⟨res, z⟩, hexport, heq⟩ := Option.bind_eq_some_iff.mp hp
    cases heq
    exact judged_exportSurface hexport
  | importHandle m handle =>
    cases hp
    exact judged_importHandle m handle
  | setParentOf i s =>
    cases hp
    exact .withoutObject (.of_same (setParentOf_quiet h.coherent view i s).2)
  | destroyExport e =>
    cases hp
    exact .withoutObject (blameless_destroyExport h.coherent e)
  | destroyImport i =>
    cases hp
    exact .withoutObject (blameless_destroyImport h.coherent i)
  | destroyExporter p =>
    cases hp
    exact .withoutObject (blameless_destroyExporter h.coherent p)
  | destroyImporter m =>
    cases hp
    exact .withoutObject (blameless_destroyImporter h.coherent m)
  | unmapped s =>
    cases hp
    exact .of_blameless rfl rfl (blameless_unmapped h s)
  | parentChanged s =>
    cases hp
    exact .of_blameless rfl rfl (.of_same (parentChanged_quiet h.coherent s).2)
  | clientGone c =>
    cases hp
    exact .of_blameless rfl rfl (blameless_clientGone h c)
  | expel c e =>
    cases hp
    exact .expelled x.handles c e rfl rfl (Or.inl rfl)
  | dispatch c r =>
    obtain ⟨⟨res, z, d₁⟩, hdispatch, heq⟩ := Option.map_eq_some_iff.mp hp
    cases heq
    exact judged_dispatch h hdispatch
  | takeEvents =>
    cases hp
    exact .spared (bindsConnected_of_none rfl) ⟨[], by simp [Answer.taken, takeEvents], nofun⟩

end Operations

/-! ## Clients that are off for good -/

/-- The client is off the display and holds nothing live. -/
structure Barred (x : Exchange) (d : Display L) (c : ClientId) : Prop where
  parted : d.Parted c
  bereft : ∀ o, x.clientOf? o ≠ some c

/-- Nothing is made for a client that is off: it can bind no registry, and has none to make
anything through. -/
theorem Barred.bereft_perform (h : x.Sound) {view : ShellView} {patience : Nat}
    (hp : x.perform view patience d op = some (a, y, d')) (hbinds : BindsConnected d a y)
    (hc : Barred x d c) (o : ObjectId) : y.clientOf? o ≠ some c := by
  have hages := (perform_begets h hp).ages
  have hnew : ∀ {q}, y.clientOf? q = some c → a.made? = some q := fun {q} hq => by
    have hmade := (hages.clientOf? hq).resolve_right (hc.bereft q)
    exact Option.mem_toList.mp hmade
  intro ho
  cases hregistry : o.registry? with
  | none =>
    obtain ⟨c', hconnected, ho'⟩ := hbinds o (hnew ho) hregistry
    rw [ho, Option.some.injEq] at ho'
    rw [← ho', hc.parted.absent] at hconnected
    cases hconnected
  | some q =>
    -- its registry would be live, and just as new
    have hq := (h.perform hp).registered.registry ho hregistry
    have heq : q = o := Option.some.inj ((hnew hq).symm.trans (hnew ho))
    subst heq
    cases q <;> cases hregistry

theorem Barred.perform (h : x.Sound) {view : ShellView} {patience : Nat}
    (hp : x.perform view patience d op = some (a, y, d')) (hc : Barred x d c) :
    Barred y d' c := by
  have hjudged := perform_judged h hp
  cases hjudged with
  | spared hbinds _ => exact ⟨hc.parted, hc.bereft_perform h hp hbinds⟩
  | expelled handles c' e hmade _ _ =>
    exact ⟨(Display.Move.disconnect c').parted hc.parted,
      hc.bereft_perform h hp (bindsConnected_of_none hmade)⟩

theorem Barred.aside (haside : Aside x y) (hc : Barred x d c) : Barred y d c := by
  refine ⟨hc.parted, fun o ho => hc.bereft o ?_⟩
  cases haside <;> cases o <;> exact ho

/-- A client that was told of an error is off from then on. -/
theorem barred_expelled (h : x.Sound) (hd : d.Numbered) (handles : HandleStream)
    (e : ProtocolError) (hc : d.isConnected c = true) :
    Barred (({ x with handles }.send c (.error e)).clientGone c) (d.disconnect c).2 c := by
  have hblamed := h.blame handles c e
  rw [clientGone_eq hblamed.coherent hblamed.registered]
  refine ⟨⟨hd c hc, ?_⟩, fun o ho => ?_⟩
  · simp [Display.isConnected_disconnect]
  · exact ((clientOf?_withoutClient hblamed.coherent c c o).mp ho).2 rfl

/-! ## Nothing follows an error -/

/-- An error is the last that its client is told of. -/
def ErrorsLast (ds : List Delivery) : Prop :=
  ds.Pairwise (fun m n => m.isError = true → n.client ≠ m.client)

theorem errorsLast_of_blameless (h : ∀ m ∈ ds, m.isError = false) : ErrorsLast ds :=
  List.pairwise_of_forall_mem_list fun m hm n _ he => by
    rw [h m hm] at he
    cases he

/-- What an operation queues: at most one error, to begin with, and nothing to clients that are
off or that are told of the error. -/
theorem queues_perform (h : x.Sound) (hd : d.Numbered) {view : ShellView} {patience : Nat}
    (hp : x.perform view patience d op = some (a, y, d'))
    (hfair : ∀ c e, op = .expel c e → d.isConnected c = true) :
    ∃ ds, Queues x op a y ds ∧ ErrorsLast ds ∧
      (∀ m ∈ ds, ∀ c, Barred x d c → m.client ≠ c) ∧
      ∀ m ∈ ds, m.isError = true → Barred y d' m.client := by
  obtain ⟨ds, hq⟩ := (perform_change h hp).queues h
  have hto : ∀ m ∈ ds, m.isError = false → ∀ c, Barred x d c → m.client ≠ c := by
    intro m hm he c hc heq
    obtain ⟨o, ho⟩ := hq.addressee hm he
    exact hc.bereft o (heq ▸ ho)
  refine ⟨ds, hq, ?_⟩
  cases perform_judged h hp with
  | spared _ hevents =>
    obtain ⟨ds', heq, hds'⟩ := hevents
    have hsame : ds = ds' := List.append_cancel_left (hq.events.symm.trans heq)
    subst hsame
    refine ⟨errorsLast_of_blameless hds', fun m hm => hto m hm (hds' m hm), fun m hm he => ?_⟩
    rw [hds' m hm] at he
    cases he
  | expelled handles c e _ htaken hconnected =>
    have hc : d.isConnected c = true := hconnected.elim (hfair c e) id
    have hbarred := barred_expelled h hd handles e hc
    have hblamed := h.blame handles c e
    have hevents := hq.events
    rw [htaken, clientGone_eq hblamed.coherent hblamed.registered,
      events_withoutClient hblamed.coherent] at hevents
    have hds : ds = ⟨c, .error e⟩ ::
        (({ x with handles }.send c (.error e)).brokenOff c).map parting := by
      refine (List.append_cancel_left (hevents.symm.trans ?_))
      exact List.append_assoc _ _ _
    have hrest : ∀ m ∈ (({ x with handles }.send c (.error e)).brokenOff c).map parting,
        m.isError = false ∧ m.client ≠ c := fun m hm => of_mem_map_parting hblamed.coherent hm
    rw [hds] at hto ⊢
    refine ⟨List.pairwise_cons.mpr ⟨fun n hn _ => (hrest n hn).2,
      errorsLast_of_blameless fun m hm => (hrest m hm).1⟩, fun m hm => ?_, fun m hm he => ?_⟩
    · rcases List.mem_cons.mp hm with rfl | hrm
      · rintro c' hc' rfl
        have habsent := hc'.parted.absent
        rw [hc] at habsent
        cases habsent
      · exact hto m hm (hrest m hrm).1
    · rcases List.mem_cons.mp hm with rfl | hm
      · exact hbarred
      · rw [(hrest m hm).1] at he
        cases he

section Courses

variable {ts us : List (Transition L)}

theorem perform_moves (h : x.Sound) {view : ShellView} {patience : Nat}
    (hp : x.perform view patience d op = some (a, y, d')) : d.Moves d' := by
  cases perform_judged h hp with
  | spared _ _ => exact .refl
  | expelled handles c e _ _ _ => exact .single (.disconnect c)

theorem Course.numbered (h : Course ts x d) : d.Numbered := by
  induction h with
  | start config handles l hmoves =>
    exact Display.Moves.numbered (hmoves.trans (moves_start _ config handles l))
      Display.numbered_empty
  | perform t hcourse hvalid _ ih =>
    exact Display.Moves.numbered (perform_moves hcourse.sound hvalid) ih
  | aside _ _ ih => exact ih
  | move _ hmove ih => exact hmove.numbered ih

/-- Errors are the last that was said, and whoever was told of one is off. -/
theorem Course.errors (h : Course ts x d) : ErrorsLast (queued ts x) ∧
    ∀ m ∈ queued ts x, m.isError = true → Barred x d m.client := by
  induction h with
  | start config handles l _ => exact ⟨.nil, nofun⟩
  | perform t hcourse hvalid hfair ih =>
    obtain ⟨hlast, hbarred⟩ := ih
    obtain ⟨ds, hq, hds, hnot, hnew⟩ :=
      queues_perform hcourse.sound hcourse.numbered hvalid hfair
    rw [queued_snoc hq]
    refine ⟨List.pairwise_append.mpr ⟨hlast, hds, fun m hm n hn he => ?_⟩, fun m hm he => ?_⟩
    · exact hnot n hn m.client (hbarred m hm he)
    · rcases List.mem_append.mp hm with hm | hm
      · exact (hbarred m hm he).perform hcourse.sound hvalid
      · exact hnew m hm he
  | @aside ts x y d _ haside ih =>
    obtain ⟨hlast, hbarred⟩ := ih
    have hsame : queued ts y = queued ts x := by rw [queued, queued, haside.same.2.2.1]
    rw [hsame]
    exact ⟨hlast, fun m hm he => (hbarred m hm he).aside haside⟩
  | move _ hmove ih =>
    obtain ⟨hlast, hbarred⟩ := ih
    exact ⟨hlast, fun m hm he =>
      ⟨hmove.parted (hbarred m hm he).parted, (hbarred m hm he).bereft⟩⟩

/-- What one client is told, in order. -/
def toldTo (c : ClientId) (ds : List Delivery) : List Delivery :=
  ds.filter (fun m => decide (m.client = c))

/-- Of what one client is told only the last can be an error. -/
theorem ErrorsLast.dropLast (h : ErrorsLast ds) (c : ClientId) {m : Delivery}
    (hm : m ∈ (toldTo c ds).dropLast) : m.isError = false := by
  have hne : toldTo c ds ≠ [] := by
    rintro hnil
    rw [hnil] at hm
    cases hm
  have hto : ∀ m ∈ toldTo c ds, m.client = c := fun m hm =>
    of_decide_eq_true (List.mem_filter.mp hm).2
  have hpairs := h.filter (fun m => decide (m.client = c))
  rw [show ds.filter _ = toldTo c ds from rfl, ← List.dropLast_append_getLast hne] at hpairs
  have hlast := (List.pairwise_append.mp hpairs).2.2 m hm _ (List.mem_singleton_self _)
  refine Bool.eq_false_iff.mpr fun he => hlast he ?_
  rw [hto _ (List.getLast_mem hne), hto m (List.dropLast_subset _ hm)]

theorem ErrorsLast.length_le_one (h : ErrorsLast ds) (c : ClientId) :
    ((toldTo c ds).filter Delivery.isError).length ≤ 1 := by
  have hpairs := (h.filter (fun m => decide (m.client = c))).filter Delivery.isError
  match hs : (toldTo c ds).filter Delivery.isError with
  | [] => exact Nat.zero_le 1
  | [_] => exact Nat.le_refl 1
  | m :: n :: rest =>
    have hmem : ∀ k ∈ m :: n :: rest, k.client = c ∧ k.isError = true := by
      intro k hk
      rw [← hs] at hk
      obtain ⟨hk, he⟩ := List.mem_filter.mp hk
      exact ⟨of_decide_eq_true (List.mem_filter.mp hk).2, he⟩
    rw [show (ds.filter _).filter _ = _ from hs] at hpairs
    have hfirst := (List.pairwise_cons.mp hpairs).1 n (by simp) (hmem m (by simp)).2
    rw [(hmem m (by simp)).1, (hmem n (by simp)).1] at hfirst
    exact absurd rfl hfirst

/-- Nothing follows an error: whatever is queued after it, in the same operation or later, is for
other clients. So a client is told of one error at most, and it is the last that it is told. -/
theorem Course.error_is_last (h : Course ts x d) :
    (queued ts x).Pairwise (fun m n => m.isError = true → n.client ≠ m.client) ∧
    ∀ c, (∀ m ∈ (toldTo c (queued ts x)).dropLast, m.isError = false) ∧
      ((toldTo c (queued ts x)).filter Delivery.isError).length ≤ 1 := by
  have hlast := h.errors.1
  exact ⟨hlast, fun c => ⟨fun m hm => hlast.dropLast c hm, hlast.length_le_one c⟩⟩

/-! A course that is computed. -/

theorem Course.follow (h : Course ts x d) {view : ShellView} {patience : Nat}
    {ops : List Operation} (hops : ∀ c e, .expel c e ∉ ops)
    (hf : follow view patience ops x d = some (us, y, d')) : Course (ts ++ us) y d' := by
  induction ops generalizing ts x d us with
  | nil =>
    cases hf
    rwa [List.append_nil]
  | cons op ops ih =>
    obtain ⟨⟨a, z, d₁⟩, hp, hf⟩ := Option.bind_eq_some_iff.mp hf
    obtain ⟨⟨us, w⟩, hrest, heq⟩ := Option.map_eq_some_iff.mp hf
    cases heq
    have hfirst : Course (ts ++ [⟨x, view, patience, d, op, a, z, d₁⟩]) z d₁ :=
      .perform ⟨x, view, patience, d, op, a, z, d₁⟩ h hp fun c e hop =>
        absurd (hop ▸ List.mem_cons_self) (hops c e)
    have hall := ih hfirst (fun c e hm => hops c e (List.mem_cons_of_mem _ hm)) hrest
    rwa [List.append_assoc] at hall

end Courses

/-- Client 2 addresses an exporter that is client 1's, and the surface that it had imported
unmaps. -/
def refusing : List Operation :=
  sharing ++ [.dispatch ⟨2⟩ (.exporter ⟨1⟩ .destroy), .unmapped ⟨5⟩]

theorem course_rehearse (ops : List Operation) (hops : ∀ c e, .expel c e ∉ ops) :
    ∃ d, Course (rehearse ops).1 (rehearse ops).2 d := by
  have hmoves : Display.empty.Moves (Display.empty.connect.2.connect.2 : Display Unit) :=
    (Relation.ReflTransGen.single .connect).tail .connect
  have hstart : Course [] rehearsalStart.1 rehearsalStart.2 := .start _ _ _ hmoves
  unfold rehearse
  split
  · next hf => exact ⟨_, hstart.follow hops hf⟩
  · exact ⟨_, hstart⟩

theorem error_is_last_refusing : (∃ d, Course (rehearse refusing).1 (rehearse refusing).2 d) ∧
    toldTo ⟨2⟩ (queued (rehearse refusing).1 (rehearse refusing).2) =
      [⟨⟨2⟩, .destroyed ⟨⟨2⟩, 5⟩⟩, ⟨⟨2⟩, .error (.invalidObject (.exporter ⟨1⟩))⟩] ∧
    ((toldTo ⟨2⟩ (queued (rehearse refusing).1 (rehearse refusing).2)).filter
      Delivery.isError).length ≤ 1 := by
  obtain ⟨d, hcourse⟩ := course_rehearse refusing (by simp [refusing, sharing])
  exact ⟨⟨d, hcourse⟩, rfl, (hcourse.error_is_last.2 ⟨2⟩).2⟩

end Exchange

end SurfaceExchange
