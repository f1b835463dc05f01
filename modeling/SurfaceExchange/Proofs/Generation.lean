import Mathlib.Data.Nat.Find
import SurfaceExchange.Proofs.Naming
import SurfaceExchange.Proofs.Refusals

/-!
# Where a search for a handle ends

A search reads its stream up to the first answer that is an error or a handle
no live export has (`SettledAfter`), and ends there, unless its limit comes
first. A stream that never repeats itself gives such an answer within one draw
more than there are live exports, for each of these has one handle
(`exists_settledAfter_of_neverRepeats`). So even a search without a limit ends
then, and a limit above the number of live exports is never reached.
-/

namespace SurfaceExchange

namespace HandleStream

/-- The answer that comes after `k` others. -/
def upcoming (s : HandleStream) (k : Nat) : Except HandleFailure Handle := s.answer (s.drawn + k)

/-- No handle comes twice. -/
def NeverRepeats (s : HandleStream) : Prop :=
  ∀ j k h, s.upcoming j = .ok h → s.upcoming k = .ok h → j = k

end HandleStream

namespace Exchange

variable {x : Exchange} {a : Except HandleFailure Handle} {k m : Nat}

/-- An error, or a handle that no live export has. -/
def Settles (x : Exchange) : Except HandleFailure Handle → Prop
  | .error _ => True
  | .ok h => h ∉ x.liveHandles

/-- The first answer that settles a search comes after `k` others. -/
structure SettledAfter (x : Exchange) (k : Nat) : Prop where
  settles : x.Settles (x.handles.upcoming k)
  first : ∀ j < k, ¬ x.Settles (x.handles.upcoming j)

/-- The search for the handle of a new export. -/
def generateHandle (x : Exchange) (patience : Nat) :
    Option (Except HandleFailure Handle × HandleStream) :=
  x.handles.search x.isTaken x.config.maxHandleAttempts patience

/-- What exporting comes to when that search has ended. -/
def exported (x : Exchange) (p : ExporterId) (g : Registry) (surface : SurfaceId) :
    Except HandleFailure Handle × HandleStream → Except RequestError ExportId × Exchange
  | (.error _, handles) => (.error (.protocol (.noMemory (.exporter p))), { x with handles })
  | (.ok h, handles) =>
    (.ok ⟨p, x.nextId⟩, (({ x with handles } : Exchange).addExport p g surface h).2)

/-! ## Answers that settle a search -/

theorem mem_liveHandles_iff (h : Handle) :
    h ∈ x.liveHandles ↔ ∃ e s, x.exports.find? e = some s ∧ s.handle = h := by
  simp only [liveHandles, Table.values, List.map_map, List.mem_map, Function.comp_apply]
  constructor
  · rintro ⟨⟨e, s⟩, hm, rfl⟩
    exact ⟨e, s, (x.exports.mem_toList_iff e s).mp hm, rfl⟩
  · rintro ⟨e, s, he, rfl⟩
    exact ⟨(e, s), (x.exports.mem_toList_iff e s).mpr he, rfl⟩

theorem isTaken_iff (h : Handle) : x.isTaken h = true ↔ h ∈ x.liveHandles := by
  rw [mem_liveHandles_iff]
  constructor
  · intro htaken
    obtain ⟨e, hr⟩ := Option.isSome_iff_exists.mp htaken
    obtain ⟨s, he, hs⟩ := export_of_resolve hr
    exact ⟨e, s, he, by cases hh : s.handle; cases h; simp_all⟩
  · rintro ⟨e, s, he, hs⟩
    by_contra hfree
    exact handle_ne_of_free (Bool.eq_false_iff.mpr hfree) he hs

theorem conclusive_iff : HandleStream.Conclusive x.isTaken a ↔ x.Settles a := by
  cases a with
  | error f => exact Iff.rfl
  | ok h => rw [HandleStream.Conclusive, Settles, ← isTaken_iff, Bool.not_eq_true]

/-- Up to there all answers are handles of live exports. -/
theorem collides_iff : x.handles.Collides x.isTaken m ↔
    ∀ j < m, ¬ x.Settles (x.handles.upcoming j) := by
  refine forall₂_congr fun j _ => ?_
  rw [← conclusive_iff, HandleStream.upcoming]
  cases x.handles.answer (x.handles.drawn + j) with
  | error f => simp [HandleStream.Conclusive]
  | ok h => simp [HandleStream.Conclusive]

/-- Where an answer settles the search, one of those up to there is the first to do so. -/
theorem exists_settledAfter (h : x.Settles (x.handles.upcoming k)) :
    ∃ j ≤ k, x.SettledAfter j := by
  classical
  have hex : ∃ j, x.Settles (x.handles.upcoming j) := ⟨k, h⟩
  exact ⟨Nat.find hex, Nat.find_min' hex h, Nat.find_spec hex, fun j hj => Nat.find_min hex hj⟩

theorem collides_of_unsettled (h : ∀ k < m, ¬ x.SettledAfter k) :
    x.handles.Collides x.isTaken m := by
  refine collides_iff.mpr fun j hj hsettles => ?_
  obtain ⟨k, hk, hsettled⟩ := exists_settledAfter hsettles
  exact h k (Nat.lt_of_le_of_lt hk hj) hsettled

theorem length_liveHandles : x.liveHandles.length = x.exports.size := by
  simp [liveHandles, Table.values, Table.size]

/-- More different handles than there are live exports cannot all be theirs. -/
theorem exists_settledAfter_of_neverRepeats (h : x.handles.NeverRepeats) :
    ∃ k ≤ x.exports.size, x.SettledAfter k := by
  by_contra hnone
  have hcollides : x.handles.Collides x.isTaken (x.exports.size + 1) :=
    collides_of_unsettled fun k hk hsettled => hnone ⟨k, Nat.le_of_lt_succ hk, hsettled⟩
  choose handle hanswer htaken using hcollides
  let drawn : List Handle := (List.range (x.exports.size + 1)).pmap handle
    fun j hj => List.mem_range.mp hj
  have hnodup : drawn.Nodup := by
    refine List.Nodup.pmap (fun j hj k hk heq => ?_) List.nodup_range
    have hk' := hanswer k hk
    rw [← heq] at hk'
    exact h j k _ (hanswer j hj) hk'
  have hlive : drawn ⊆ x.liveHandles := by
    intro t ht
    obtain ⟨j, hj, rfl⟩ := List.mem_pmap.mp ht
    exact (isTaken_iff _).mp (htaken j (List.mem_range.mp hj))
  have hlength := hnodup.length_le_of_subset hlive
  simp only [drawn, List.length_pmap, List.length_range, length_liveHandles] at hlength
  omega

/-! ## The search and what exporting makes of it -/

theorem SettledAfter.ends (h : x.SettledAfter k) {limit : Nat} (hlimit : limit = 0 ∨ k < limit) :
    x.handles.Ends x.isTaken limit (k + 1) (x.handles.upcoming k) :=
  .concluded (collides_iff.mpr h.first) (by omega) rfl (conclusive_iff.mpr h.settles)

theorem SettledAfter.generateHandle (h : x.SettledAfter k)
    (hlimit : x.config.maxHandleAttempts = 0 ∨ k < x.config.maxHandleAttempts) {patience : Nat}
    (hpatience : x.config.maxHandleAttempts = 0 → k < patience) :
    x.generateHandle patience = some (x.handles.upcoming k, x.handles.skip (k + 1)) :=
  HandleStream.search_of_ends (h.ends hlimit) patience hpatience

/-- However much patience there is, nothing else comes of the search. -/
theorem SettledAfter.generated (h : x.SettledAfter k)
    (hlimit : x.config.maxHandleAttempts = 0 ∨ k < x.config.maxHandleAttempts) {patience : Nat}
    {s : HandleStream} (hsearch : x.generateHandle patience = some (a, s)) :
    a = x.handles.upcoming k := by
  obtain ⟨n, hends, -⟩ := HandleStream.search_eq_some_iff.mp ⟨patience, hsearch⟩
  exact (hends.unique (h.ends hlimit)).2

theorem generateHandle_of_unsettled (hlimit : x.config.maxHandleAttempts ≠ 0)
    (hnone : ∀ k < x.config.maxHandleAttempts, ¬ x.SettledAfter k) (patience : Nat) :
    x.generateHandle patience = some (.error (.tooManyCollisions x.config.maxHandleAttempts),
      x.handles.skip x.config.maxHandleAttempts) :=
  HandleStream.search_of_ends
    (.collided (collides_of_unsettled hnone) hlimit (Nat.zero_add _)) patience fun hzero =>
      absurd hzero hlimit

/-- Without a limit only an answer ends a search. -/
theorem generateHandle_eq_none (hlimit : x.config.maxHandleAttempts = 0)
    (hnone : ∀ k, ¬ x.SettledAfter k) (patience : Nat) : x.generateHandle patience = none := by
  refine Option.eq_none_iff_forall_not_mem.mpr fun ⟨a, s⟩ hsearch => ?_
  obtain ⟨n, hends, -⟩ := HandleStream.search_eq_some_iff.mp ⟨patience, hsearch⟩
  cases hends with
  | @concluded k _ hs _ hanswer hconclusive =>
    rw [← hanswer] at hconclusive
    exact hnone k ⟨conclusive_iff.mp hconclusive, collides_iff.mp hs⟩
  | collided _ hne => exact hne hlimit

variable {view : ShellView} {p : ExporterId} {g : Registry} {surface : SurfaceId}

theorem exportSurface_of_admitted (hg : x.exporters.find? p = some g)
    (hrole : view.role surface = some .toplevel)
    (hroom : Config.reached x.config.maxExports (x.ownership.counts g.client).exports = false)
    (patience : Nat) : x.exportSurface view patience p surface =
      (x.generateHandle patience).map (x.exported p g surface) := by
  simp only [exportSurface, hg, requireToplevel_eq, if_pos hrole, hroom, Bool.false_eq_true,
    if_false]
  rfl

/-- An export that is made has the handle that settled the search. -/
theorem exported_ok (h : Handle) (s : HandleStream) :
    ∃ y r, x.exported p g surface (.ok h, s) = (.ok ⟨p, x.nextId⟩, y) ∧ y.handles = s ∧
      y.exports.find? ⟨p, x.nextId⟩ = some r ∧ r.handle = h :=
  ⟨_, ({ x with handles := s } : Exchange).nextExport g surface h, rfl, rfl,
    Table.find?_insert_self _ _ _, rfl⟩

/-- What exporting a surface draws from the stream and comes to. -/
structure GenerationExact (x : Exchange) (view : ShellView) (p : ExporterId) (g : Registry)
    (surface : SurfaceId) : Prop where
  settled : ∀ k, x.SettledAfter k →
    x.config.maxHandleAttempts = 0 ∨ k < x.config.maxHandleAttempts →
    ∀ patience, (x.config.maxHandleAttempts = 0 → k < patience) →
      x.generateHandle patience = some (x.handles.upcoming k, x.handles.skip (k + 1)) ∧
      x.exportSurface view patience p surface =
        some (x.exported p g surface (x.handles.upcoming k, x.handles.skip (k + 1)))
  made : ∀ h s, ∃ y r, x.exported p g surface (.ok h, s) = (.ok ⟨p, x.nextId⟩, y) ∧
    y.handles = s ∧ y.exports.find? ⟨p, x.nextId⟩ = some r ∧ r.handle = h
  givenUp : x.config.maxHandleAttempts ≠ 0 →
    (∀ k < x.config.maxHandleAttempts, ¬ x.SettledAfter k) → ∀ patience,
      x.generateHandle patience = some (.error (.tooManyCollisions x.config.maxHandleAttempts),
        x.handles.skip x.config.maxHandleAttempts) ∧
      x.exportSurface view patience p surface =
        some (.error (.protocol (.noMemory (.exporter p))),
          { x with handles := x.handles.skip x.config.maxHandleAttempts })
  unending : x.config.maxHandleAttempts = 0 → (∀ k, ¬ x.SettledAfter k) →
    ∀ patience, x.exportSurface view patience p surface = none
  /-- A stream that does not repeat itself settles the search within one draw more than there are
  live exports. -/
  unrepeated : x.handles.NeverRepeats → ∃ k ≤ x.exports.size, x.SettledAfter k ∧
    (x.config.maxHandleAttempts = 0 ∨ x.exports.size < x.config.maxHandleAttempts →
      (∀ patience > x.exports.size,
        x.generateHandle patience = some (x.handles.upcoming k, x.handles.skip (k + 1))) ∧
      ∀ patience a s, x.generateHandle patience = some (a, s) → a = x.handles.upcoming k)

/-- Past the checks, exporting draws up to the first answer that settles the search, or as often as
the limit allows. -/
theorem generation_exact (hg : x.exporters.find? p = some g)
    (hrole : view.role surface = some .toplevel)
    (hroom : Config.reached x.config.maxExports (x.ownership.counts g.client).exports = false) :
    x.GenerationExact view p g surface := by
  constructor
  case settled =>
    intro k hk hlimit patience hpatience
    rw [exportSurface_of_admitted hg hrole hroom, hk.generateHandle hlimit hpatience]
    exact ⟨rfl, rfl⟩
  case made => exact exported_ok
  case givenUp =>
    intro hlimit hnone patience
    rw [exportSurface_of_admitted hg hrole hroom, generateHandle_of_unsettled hlimit hnone]
    exact ⟨rfl, rfl⟩
  case unending =>
    intro hlimit hnone patience
    rw [exportSurface_of_admitted hg hrole hroom, generateHandle_eq_none hlimit hnone]
    rfl
  case unrepeated =>
    intro hrepeats
    obtain ⟨k, hle, hk⟩ := exists_settledAfter_of_neverRepeats hrepeats
    refine ⟨k, hle, hk, fun hlimit => ?_⟩
    have hreach : x.config.maxHandleAttempts = 0 ∨ k < x.config.maxHandleAttempts := by omega
    exact ⟨fun patience hpatience => hk.generateHandle hreach fun _ => by omega,
      fun _ _ _ => hk.generated hreach⟩

/-- An exchange with one live export, whose handle its stream is about to give again. -/
def recurring : Exchange :=
  ((rehearsalStart.1.bindExporter rehearsalStart.2 ⟨1⟩).2.addExport ⟨1⟩ ⟨⟨1⟩, 1⟩ ⟨5⟩ ⟨"first"⟩).2

theorem neverRepeats_recurring : recurring.handles.NeverRepeats := by
  have hscript : ∀ j h, recurring.handles.upcoming j = .ok h →
      (j = 0 ∧ h = ⟨"first"⟩) ∨ (j = 1 ∧ h = ⟨"second"⟩) ∨ (j = 2 ∧ h = ⟨"third"⟩) := by
    rintro (_ | _ | _ | j) h hj
    · exact Or.inl ⟨rfl, (Except.ok.inj hj).symm⟩
    · exact Or.inr (Or.inl ⟨rfl, (Except.ok.inj hj).symm⟩)
    · exact Or.inr (Or.inr ⟨rfl, (Except.ok.inj hj).symm⟩)
    · cases hj
  intro j k h hj hk
  rcases hscript j h hj with ⟨rfl, rfl⟩ | ⟨rfl, rfl⟩ | ⟨rfl, rfl⟩ <;>
    rcases hscript k _ hk with ⟨rfl, heq⟩ | ⟨rfl, heq⟩ | ⟨rfl, heq⟩ <;>
      first | rfl | exact absurd heq (by decide)

theorem generation_exact_recurring :
    recurring.SettledAfter 1 ∧
    recurring.exportSurface { role := fun _ => some .toplevel } 1 ⟨1⟩ ⟨6⟩ =
      some (recurring.exported ⟨1⟩ ⟨⟨1⟩, 1⟩ ⟨6⟩ (.ok ⟨"second"⟩, recurring.handles.skip 2)) ∧
    ∃ k ≤ 1, recurring.SettledAfter k := by
  have hsettled : recurring.SettledAfter 1 := by
    refine ⟨show (⟨"second"⟩ : Handle) ∉ recurring.liveHandles by decide, fun j hj => ?_⟩
    obtain rfl : j = 0 := by omega
    exact fun hfree => absurd (show (⟨"first"⟩ : Handle) ∈ recurring.liveHandles by decide) hfree
  have hexact := @generation_exact recurring { role := fun _ => some .toplevel } ⟨1⟩ ⟨⟨1⟩, 1⟩ ⟨6⟩
    rfl rfl (by decide)
  obtain ⟨k, hk, hsettledAfter, -⟩ := hexact.unrepeated neverRepeats_recurring
  exact ⟨hsettled, (hexact.settled 1 hsettled (Or.inr (by decide)) 1 nofun).2, k, hk,
    hsettledAfter⟩

end Exchange

end SurfaceExchange
