import SurfaceExchange.Proofs.Queueing

/-!
# Handles name live exports

A handle is checked against the live exports only when an export is made, and
exports come and go after that. That no two of them ever have one handle
(`Distinct`) is what makes the first match of a search the only one, and
`resolve` the inverse of the exports' handles.
-/

namespace SurfaceExchange

namespace Exchange

variable {L : Type} {x y : Exchange} {op : Operation} {a : Answer}

/-- No two live exports have one handle. -/
def Distinct (x : Exchange) : Prop :=
  ∀ e e' s s', x.exports.find? e = some s → x.exports.find? e' = some s' →
    s.handle = s'.handle → e = e'

/-- Exports that go and exports that stay as they are leave the handles distinct. -/
theorem Distinct.of_older (h : x.Distinct) (hold : ∀ {e s'}, y.exports.find? e = some s' →
    ∃ s, x.exports.find? e = some s ∧ s'.client = s.client ∧ s'.handle = s.handle) :
    y.Distinct := by
  intro e e' s s' he he' hs
  obtain ⟨r, hr, -, hh⟩ := hold he
  obtain ⟨r', hr', -, hh'⟩ := hold he'
  exact h e e' r r' hr hr' (hh.symm.trans (hs.trans hh'))

/-- A handle that is free is no live export's. -/
theorem handle_ne_of_free {handle : Handle} (hfree : x.isTaken handle = false) {e : ExportId}
    {s : Export} (he : x.exports.find? e = some s) : s.handle ≠ handle := by
  have hnone : x.resolve handle.text = none :=
    Option.isNone_iff_eq_none.mp (Option.isSome_eq_false_iff.mp hfree)
  intro hs
  exact (resolve_eq_none_iff handle.text).mp hnone e s he (by rw [hs])

theorem Distinct.addExport (h : x.Distinct) (p : ExporterId) (g : Registry) (surface : SurfaceId)
    {handle : Handle} (hfree : x.isTaken handle = false) :
    (x.addExport p g surface handle).2.Distinct := by
  intro e e' s s' he he' hs
  rw [addExport_eq] at he he'
  rcases Table.of_find?_insert he with ⟨rfl, rfl⟩ | he <;>
    rcases Table.of_find?_insert he' with ⟨rfl, rfl⟩ | he'
  · rfl
  · exact absurd hs.symm (handle_ne_of_free hfree he')
  · exact absurd hs (handle_ne_of_free hfree he)
  · exact h e e' s s' he he' hs

theorem Change.distinct (h : x.Sound) (hd : x.Distinct) (hxy : Change x op a y) :
    y.Distinct := by
  have hfades : (∀ e, a.made? ≠ some (.exported e)) → y.Distinct := by
    obtain ⟨ds, hq⟩ := hxy.queues h
    exact fun hnone => hd.of_older fun he => hq.exported (hnone _) he
  cases hxy with
  | ebbs _ hplain => exact hfades hplain.no_export
  | takeEvents => exact hfades nofun
  | addExport handles surface _ _ hfree =>
    have hdrawn : { x with handles : Exchange }.Distinct := hd
    exact hdrawn.addExport _ _ surface hfree
  | addImport _ _ _ => exact hfades nofun
  | retireImport i => exact hfades nofun
  | retireImporter m => exact hfades nofun
  | clientGone c => exact hfades nofun
  | expel handles c e hplain => exact hfades hplain.no_export

theorem Run.distinct {ts : List (Transition L)} (h : x.Sound) (hd : x.Distinct)
    (hrun : Run x ts y) : y.Distinct := by
  induction hrun with
  | start => exact hd
  | perform t hrun hvalid ih =>
    have hbefore := hrun.sound h
    exact (perform_change hbefore hvalid).distinct hbefore ih
  | aside _ haside ih => cases haside <;> exact ih

theorem Reachable.distinct (h : x.Reachable) : x.Distinct := by
  obtain ⟨L, d, config, handles, l, ts, hrun⟩ := h
  exact hrun.distinct (sound_start d config handles l) nofun

/-- With distinct handles the first export that has a handle is the only one. -/
theorem Distinct.resolve_eq_some_iff (h : x.Distinct) (handle : String) (e : ExportId) :
    x.resolve handle = some e ↔ ∃ s, x.exports.find? e = some s ∧ s.handle.text = handle := by
  constructor
  · exact export_of_resolve
  · rintro ⟨s, he, hs⟩
    cases hr : x.resolve handle with
    | none => exact absurd hs ((resolve_eq_none_iff handle).mp hr e s he)
    | some e' =>
      obtain ⟨s', he', hs'⟩ := export_of_resolve hr
      have hsame : s'.handle = s.handle := by
        cases hh : s'.handle
        cases hh' : s.handle
        simp_all
      rw [h e' e s' s he' he hsame]

theorem Distinct.liveHandles_nodup (h : x.Distinct) : x.liveHandles.Nodup := by
  rw [liveHandles, Table.values, List.map_map, List.Nodup, List.pairwise_map]
  refine x.exports.ascending.imp_of_mem fun {p q} hp hq hlt heq => ?_
  have he := (x.exports.mem_toList_iff p.1 p.2).mp hp
  have he' := (x.exports.mem_toList_iff q.1 q.2).mp hq
  exact KeyOrder.ne_of_lt hlt (h _ _ _ _ he he' heq)

/-- Every handle names one live export at most, and resolves to it. -/
structure HandlesExact (x : Exchange) : Prop where
  nodup : x.liveHandles.Nodup
  unique : ∀ e e' s s', x.exports.find? e = some s → x.exports.find? e' = some s' →
    s.handle = s'.handle → e = e'
  resolve_iff : ∀ handle e, x.resolve handle = some e ↔
    ∃ s, x.exports.find? e = some s ∧ s.handle.text = handle
  resolve_none_iff : ∀ handle, x.resolve handle = none ↔
    ∀ e s, x.exports.find? e = some s → s.handle.text ≠ handle
  inert : ∀ handle e, x.inertExports.contains e = true → x.resolve handle ≠ some e

/-- Whatever stream the handles come from, live exports have different handles. A handle resolves
to the live export that has it, to the letter, and to nothing if there is none; inert exports
are not resolved to. -/
theorem Reachable.handles_exact (h : x.Reachable) : x.HandlesExact := by
  refine ⟨h.distinct.liveHandles_nodup, h.distinct,
    h.distinct.resolve_eq_some_iff, resolve_eq_none_iff, fun handle e hinert hr => ?_⟩
  obtain ⟨s, he, -⟩ := export_of_resolve hr
  obtain ⟨c, hc⟩ := Option.isSome_iff_exists.mp hinert
  have hlive : x.clientOf? (.exported e) = some s.client := by simp [clientOf?, he]
  have hn := h.sound.registered.apart hlive
  rw [inertClient?, hc] at hn
  cases hn

/-- Two surfaces are exported with handles of a stream that repeats its first. -/
def repeating : Option (List (Transition Unit) × Exchange × Display Unit) :=
  let started := start Display.empty.connect.2 {}
    (.scripted [some ⟨"first"⟩, some ⟨"first"⟩, some ⟨"second"⟩] true) ()
  follow { role := fun _ => some .toplevel } 1
    [.bindExporter ⟨1⟩, .exportSurface ⟨1⟩ ⟨5⟩, .exportSurface ⟨1⟩ ⟨6⟩] started.1 started.2

theorem handles_exact_repeating : ∃ ts x d, repeating = some (ts, x, d) ∧ x.Reachable ∧
    x.liveHandles = [⟨"first"⟩, ⟨"second"⟩] ∧ x.resolve "second" = some ⟨⟨1⟩, 3⟩ := by
  obtain ⟨⟨ts, x, d⟩, hf⟩ : ∃ p, repeating = some p := ⟨_, rfl⟩
  have hreach : x.Reachable := ⟨Unit, _, _, _, _, ts, run_follow hf⟩
  cases hf
  exact ⟨_, _, _, rfl, hreach, rfl, (hreach.handles_exact.resolve_iff _ _).mpr ⟨_, rfl, rfl⟩⟩

end Exchange

end SurfaceExchange
