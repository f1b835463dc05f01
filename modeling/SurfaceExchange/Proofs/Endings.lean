import Mathlib.Tactic.MkIffOfInductiveProp
import SurfaceExchange.Proofs.Run

/-!
# How exports end

`Ends` lists the ways in which an operation destroys an export: it is asked
to, its exporter is, its surface unmaps, or its client goes. `ends_iff` says
that there are no others, and that each of them works.
-/

namespace SurfaceExchange

/-- The operation, answered this way, destroys an export of this description. A dispatched
request does what it asks for if it succeeds, and ends its client's connection if it raises a
protocol error. -/
@[mk_iff ends_iff_route]
inductive Ends (op : Operation) (a : Answer) (e : ExportId) (s : Export) : Prop
  | destroyExport : op.direct = .destroyExport e → a = .outcome (.ok none) → Ends op a e s
  | destroyExporter : op.direct = .destroyExporter e.exporter → a = .outcome (.ok none) →
      Ends op a e s
  | unmapped : op = .unmapped s.surface → Ends op a e s
  | clientGone : op = .clientGone s.client → Ends op a e s
  | expelled (err : ProtocolError) : op = .expel s.client err → Ends op a e s
  | terminated (r : Request) (err : ProtocolError) : op = .dispatch s.client r →
      a = .outcome (.error (.protocol err)) → Ends op a e s

namespace Exchange

variable {L : Type} {x y : Exchange} {e : ExportId} {s : Export}

/-! ## Operations that end no export -/

theorem exports_ne_none_of_isSome (he : x.exports.find? e = some s)
    (hsame : (y.exports.find? e).isSome = (x.exports.find? e).isSome) :
    y.exports.find? e ≠ none := by
  rw [← Option.isSome_iff_ne_none, hsame, he]
  rfl

theorem exports_ne_none_of_eq (he : x.exports.find? e = some s) (hsame : y.exports = x.exports) :
    y.exports.find? e ≠ none :=
  exports_ne_none_of_isSome he (by rw [hsame])

theorem exports_parentChanged (h : x.Coherent) (c : SurfaceId) :
    (x.parentChanged c).exports = x.exports := by
  rcases h.parentChanged_eq c with ⟨-, heq⟩ | ⟨i, r, l, hi, hl, rfl, heq⟩ <;> rw [heq]
  rfl

theorem exports_setParentOf (h : x.Coherent) (view : ShellView) (i : ImportId) (c : SurfaceId) :
    (x.setParentOf view i c).2.exports = x.exports := by
  unfold setParentOf
  repeat' split
  all_goals first | rfl | exact exports_parentChanged (h.tell c _) c

theorem exports_addImport_ne_none (he : x.exports.find? e = some s) (m : ImporterId) (g : Registry)
    (handle : String) : (x.addImport m g handle).2.exports.find? e ≠ none := by
  rw [addImport_eq, Table.find?_mapValues, he]
  exact Option.some_ne_none _

theorem exports_addExport_ne_none (he : x.exports.find? e = some s) (p : ExporterId) (g : Registry)
    (surface : SurfaceId) (handle : Handle) :
    (x.addExport p g surface handle).2.exports.find? e ≠ none := by
  rw [addExport_eq, Table.find?_insert]
  split
  · exact Option.some_ne_none _
  · rw [he]
    exact Option.some_ne_none s

theorem exports_bindExporter (d : Display L) (c : ClientId) :
    (x.bindExporter d c).2.exports = x.exports := by
  unfold bindExporter
  split <;> rfl

theorem exports_bindImporter (d : Display L) (c : ClientId) :
    (x.bindImporter d c).2.exports = x.exports := by
  unfold bindImporter
  split <;> rfl

theorem exports_exportSurface_ne_none (he : x.exports.find? e = some s) {view : ShellView}
    {patience : Nat} {p : ExporterId} {c : SurfaceId} {res : Except RequestError ExportId}
    (hp : x.exportSurface view patience p c = some (res, y)) : y.exports.find? e ≠ none := by
  cases exporting_of_exportSurface hp with
  | failed err handles => exact exports_ne_none_of_eq he rfl
  | made handles => exact exports_addExport_ne_none (x := { x with handles }) he p _ c _

theorem exports_importHandle_ne_none (he : x.exports.find? e = some s) (m : ImporterId)
    (handle : String) : (x.importHandle m handle).2.exports.find? e ≠ none := by
  rcases importHandle_cases (x := x) m handle with ⟨err, heq⟩ | ⟨g, -, -, heq⟩ <;> rw [heq]
  · exact exports_ne_none_of_eq he rfl
  · exact exports_addImport_ne_none he m g handle

theorem exports_destroyImport_ne_none (h : x.Coherent) (he : x.exports.find? e = some s)
    (i : ImportId) : (x.destroyImport i).2.exports.find? e ≠ none := by
  unfold destroyImport
  split
  · exact exports_ne_none_of_isSome he ((losesImports_retireImport h i _).isSome_exports e)
  · split <;> exact exports_ne_none_of_eq he rfl

theorem exports_destroyImporter_ne_none (h : x.Coherent) (he : x.exports.find? e = some s)
    (m : ImporterId) : (x.destroyImporter m).2.exports.find? e ≠ none := by
  unfold destroyImporter
  split
  · exact exports_ne_none_of_isSome he ((losesImports_retireImporter h m _).isSome_exports e)
  · exact exports_ne_none_of_eq he rfl

/-- A client that goes takes its own exports with it and those only. -/
theorem exports_clientGone_eq_none_iff (h : x.Sound) (he : x.exports.find? e = some s)
    (c : ClientId) : (x.clientGone c).exports.find? e = none ↔ c = s.client := by
  rw [clientGone_eq h.coherent h.registered, find?_exports_withoutClient, he]
  by_cases hc : s.client = c
  · simp [Option.filter_some, hc]
  · simp [Option.filter_some, hc, Ne.symm hc]

/-! ## Every operation -/

theorem ends_destroyExport_iff (h : x.Coherent) (he : x.exports.find? e = some s) (e' : ExportId) :
    Ends (.destroyExport e') (.outcome ((x.destroyExport e').1.map (fun _ => none))) e s ↔
      (x.destroyExport e').2.exports.find? e = none := by
  by_cases hee : e = e'
  · subst hee
    have hlive : x.exports.contains e = true := Option.isSome_of_eq_some he
    rw [destroyExport, if_pos hlive, find?_exports_retireExport h, if_pos rfl]
    exact iff_of_true (.destroyExport rfl rfl) rfl
  · refine iff_of_false (by simp [ends_iff_route, Operation.direct, Ne.symm hee]) ?_
    unfold destroyExport
    split
    · rw [find?_exports_retireExport h, if_neg hee, he]
      exact Option.some_ne_none s
    · split <;> exact exports_ne_none_of_eq he rfl

theorem ends_destroyExporter_iff (h : x.Sound) (he : x.exports.find? e = some s)
    (p : ExporterId) :
    Ends (.destroyExporter p) (.outcome ((x.destroyExporter p).1.map (fun _ => none))) e s ↔
      (x.destroyExporter p).2.exports.find? e = none := by
  by_cases hep : e.exporter = p
  · subst hep
    -- the exporter of a live export is live
    obtain ⟨g, hg, -⟩ := Option.map_eq_some_iff.mp
      ((h.registered.client_export_iff he s.client).mp rfl)
    have hlive : x.exporters.contains e.exporter = true := Option.isSome_of_eq_some hg
    rw [destroyExporter, if_pos hlive, find?_exports_retireExporter h.coherent hg, if_pos rfl]
    exact iff_of_true (.destroyExporter rfl rfl) rfl
  · refine iff_of_false (by simp [ends_iff_route, Operation.direct, Ne.symm hep]) ?_
    unfold destroyExporter
    split
    · next hlive =>
      obtain ⟨g, hg⟩ := Option.isSome_iff_exists.mp hlive
      rw [find?_exports_retireExporter h.coherent hg, if_neg hep, he]
      exact Option.some_ne_none s
    · exact exports_ne_none_of_eq he rfl

theorem ends_unmapped_iff (h : x.Sound) (he : x.exports.find? e = some s) (c : SurfaceId)
    (a : Answer) : Ends (.unmapped c) a e s ↔ (x.unmapped c).exports.find? e = none := by
  rw [(unmapped_spec h c).2.2 e s he]
  simp [ends_iff_route, Operation.direct, eq_comm]

theorem ends_clientGone_iff (h : x.Sound) (he : x.exports.find? e = some s) (c : ClientId)
    (a : Answer) : Ends (.clientGone c) a e s ↔ (x.clientGone c).exports.find? e = none := by
  rw [exports_clientGone_eq_none_iff h he]
  simp [ends_iff_route, Operation.direct]

/-- An expelled client goes like any other; that handles were drawn and that the client is told
of its error makes no difference. -/
theorem exports_expel_eq_none_iff (h : x.Sound) (he : x.exports.find? e = some s)
    (handles : HandleStream) (c : ClientId) (err : ProtocolError) :
    (({ x with handles }.send c (.error err)).clientGone c).exports.find? e = none ↔
      c = s.client :=
  exports_clientGone_eq_none_iff (h.blame handles c err) he c

theorem ends_expel_iff (h : x.Sound) (he : x.exports.find? e = some s) (c : ClientId)
    (err : ProtocolError) (a : Answer) : Ends (.expel c err) a e s ↔
      ((x.send c (.error err)).clientGone c).exports.find? e = none := by
  rw [exports_expel_eq_none_iff h he x.handles]
  simp [ends_iff_route, Operation.direct]

theorem ends_iff_of_direct (h : x.Sound) {view : ShellView} {patience : Nat} {d d' : Display L}
    {op : Operation} {a : Answer} (hdirect : ∀ c r, op ≠ .dispatch c r)
    (hp : x.perform view patience d op = some (a, y, d')) (he : x.exports.find? e = some s) :
    Ends op a e s ↔ y.exports.find? e = none := by
  cases op with
  | bindExporter c =>
    cases hp
    exact iff_of_false (by simp [ends_iff_route, Operation.direct])
      (exports_ne_none_of_eq he (exports_bindExporter d c))
  | bindImporter c =>
    cases hp
    exact iff_of_false (by simp [ends_iff_route, Operation.direct])
      (exports_ne_none_of_eq he (exports_bindImporter d c))
  | exportSurface p c =>
    obtain ⟨⟨res, z⟩, hexport, heq⟩ := Option.bind_eq_some_iff.mp hp
    cases heq
    exact iff_of_false (by simp [ends_iff_route, Operation.direct])
      (exports_exportSurface_ne_none he hexport)
  | importHandle m handle =>
    cases hp
    exact iff_of_false (by simp [ends_iff_route, Operation.direct])
      (exports_importHandle_ne_none he m handle)
  | setParentOf i c =>
    cases hp
    exact iff_of_false (by simp [ends_iff_route, Operation.direct])
      (exports_ne_none_of_eq he (exports_setParentOf h.coherent view i c))
  | destroyExport e' =>
    cases hp
    exact ends_destroyExport_iff h.coherent he e'
  | destroyImport i =>
    cases hp
    exact iff_of_false (by simp [ends_iff_route, Operation.direct])
      (exports_destroyImport_ne_none h.coherent he i)
  | destroyExporter p =>
    cases hp
    exact ends_destroyExporter_iff h he p
  | destroyImporter m =>
    cases hp
    exact iff_of_false (by simp [ends_iff_route, Operation.direct])
      (exports_destroyImporter_ne_none h.coherent he m)
  | unmapped c =>
    cases hp
    exact ends_unmapped_iff h he c _
  | parentChanged c =>
    cases hp
    exact iff_of_false (by simp [ends_iff_route, Operation.direct])
      (exports_ne_none_of_eq he (exports_parentChanged h.coherent c))
  | clientGone c =>
    cases hp
    exact ends_clientGone_iff h he c _
  | expel c err =>
    cases hp
    exact ends_expel_iff h he c err _
  | dispatch c r => exact absurd rfl (hdirect c r)
  | takeEvents =>
    cases hp
    exact iff_of_false (by simp [ends_iff_route, Operation.direct])
      (exports_ne_none_of_eq he rfl)

/-- A request asks for none of the things that only the shell reports. -/
theorem ends_dispatch_iff {c : ClientId} {r : Request} {res : Except RequestError (Option ObjectId)}
    (hres : ∀ err, res ≠ .error (.protocol err)) :
    Ends (.dispatch c r) (.outcome res) e s ↔ Ends r.operation (.outcome res) e s := by
  rcases r with ⟨id, _ | _⟩ | ⟨id, _⟩ | ⟨id, _ | _⟩ | ⟨id, _ | _⟩ <;>
    simp [ends_iff_route, Operation.direct, Request.operation, hres]

/-- A live export ends in an operation in one of these ways and in no other. -/
theorem ends_iff (h : x.Sound) {view : ShellView} {patience : Nat} {d d' : Display L}
    {op : Operation} {a : Answer} (hp : x.perform view patience d op = some (a, y, d'))
    (he : x.exports.find? e = some s) : Ends op a e s ↔ y.exports.find? e = none := by
  cases op with
  | dispatch c r =>
    obtain ⟨⟨res, z, d₁⟩, hdispatch, heq⟩ := Option.map_eq_some_iff.mp hp
    cases heq
    rcases dispatch_cases hdispatch with
      ⟨rfl, rfl, -⟩ | ⟨err, handles, rfl, rfl, -⟩ | ⟨hres, hserve⟩
    · exact iff_of_false (by simp [ends_iff_route]) (exports_ne_none_of_eq he rfl)
    · rw [exports_expel_eq_none_iff h he]
      simp [ends_iff_route]
    · rw [ends_dispatch_iff hres]
      exact ends_iff_of_direct h (operation_ne_dispatch r) hserve he
  | _ => exact ends_iff_of_direct h (fun _ _ heq => by cases heq) hp he

end Exchange

end SurfaceExchange
