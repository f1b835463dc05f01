import SurfaceExchange.Proofs.Dispatching
import SurfaceExchange.Proofs.Queueing

/-!
# What a client may address

A client knows of an object only that it got it and whether it has destroyed
it. That is enough: as long as objects are made and destroyed at their client's
request, by an unmap or with their client, the objects that are accepted from a
client are those that it was given and has not destroyed (`Run.entitlement`).
What becomes of them on the server meanwhile does not matter. In one step the
tracker changes only by what a client gets, destroys or takes with it
(`Transition.Settled`).
-/

namespace SurfaceExchange

namespace Operation

/-- The client that asks for the operation. -/
def requester? : Operation → Option ClientId
  | .bindExporter c => some c
  | .bindImporter c => some c
  | .dispatch c _ => some c
  | _ => none

/-- The operation makes and destroys no object behind its client's back. -/
def isMediated : Operation → Bool
  | .exportSurface _ _ => false
  | .importHandle _ _ => false
  | .destroyExport _ => false
  | .destroyImport _ => false
  | .destroyExporter _ => false
  | .destroyImporter _ => false
  | _ => true

end Operation

theorem Request.destroy_inj {o o' : ObjectId} (h : Request.destroy o = Request.destroy o') :
    o = o' := by
  rw [← Request.object_destroy o, h, Request.object_destroy]

namespace Transition

variable {L : Type} {t : Transition L} {c : ClientId} {o : ObjectId}

/-- The client asked for an object and got this one. -/
def Gives (t : Transition L) (c : ClientId) (o : ObjectId) : Prop :=
  t.operation.requester? = some c ∧ t.answer.made? = some o

/-- The client, while connected, asked for the object to be destroyed. -/
def Destroys (t : Transition L) (c : ClientId) (o : ObjectId) : Prop :=
  t.operation = .dispatch c (.destroy o) ∧ t.display.isConnected c = true

/-- The client that disconnected or was terminated. -/
def parted? (t : Transition L) : Option ClientId :=
  match t.operation, t.answer with
  | .clientGone c, _ => some c
  | .expel c _, _ => some c
  | .dispatch c _, .outcome (.error (.protocol _)) => some c
  | _, _ => none

/-- What an operation does to the tracker. Objects that become inert stay in it. -/
inductive Settled (t : Transition L) : Prop
  | kept : t.answer.made? = none → (∀ c o, ¬ t.Destroys c o) →
      t.after.ownership = t.before.ownership → Settled t
  | given {c : ClientId} {o : ObjectId} : t.Gives c o → (∀ c o, ¬ t.Destroys c o) →
      o.number = t.before.nextId → t.after.ownership = t.before.ownership.track c o → Settled t
  | destroyed {c : ClientId} {o : ObjectId} : t.answer.made? = none → t.Destroys c o →
      t.before.ownership.owns c o = true →
      t.after.ownership = t.before.ownership.untrack c o → Settled t
  | parted {c : ClientId} : t.parted? = some c → t.answer.made? = none →
      (∀ d o, t.Destroys d o → d = c) →
      (∀ d o, t.after.ownership.owns d o = true ↔
        t.before.ownership.owns d o = true ∧ d ≠ c) → Settled t

theorem settled_of_dispatched {x y : Exchange} (h : x.Sound) {d d' : Display L} {r : Request}
    {res : Except RequestError (Option ObjectId)} (hd : x.Dispatched d c r res y d')
    (view : ShellView) (patience : Nat) :
    Settled ⟨x, view, patience, d, .dispatch c r, .outcome res, y, d'⟩ := by
  cases hd with
  | absent habsent =>
    refine .kept rfl (fun c' o hd => ?_) rfl
    cases hd.1
    have hconnected := hd.2
    simp [habsent] at hconnected
  | foreign _ _ =>
    refine .parted rfl rfl (fun c' o hd => ?_) (Exchange.owns_expel_iff h d c _)
    cases hd.1
    rfl
  | refused handles _ _ _ _ _ =>
    refine .parted rfl rfl (fun c' o hd => ?_) (Exchange.owns_expel_iff h d c _)
    cases hd.1
    rfl
  | served hconnected howned hserved =>
    cases hserved with
    | made hmakes hnumber _ htrack _ =>
      refine .given ⟨rfl, rfl⟩ (fun c' o hd => ?_) hnumber htrack
      cases hd.1
      simp at hmakes
    | destroyed hdestroy huntrack _ =>
      exact .destroyed rfl ⟨congrArg (Operation.dispatch c) hdestroy, hconnected⟩ howned huntrack
    | linked hlinks hsame _ =>
      refine .kept rfl (fun c' o hd => ?_) hsame
      cases hd.1
      cases o <;> cases hlinks

theorem Valid.settled (h : t.before.Sound) (hv : t.Valid)
    (hmediated : t.operation.isMediated = true) : t.Settled := by
  obtain ⟨x, view, patience, d, op, a, y, d'⟩ := t
  have hsound : x.Sound := h
  have hp : x.perform view patience d op = some (a, y, d') := hv
  cases op with
  | bindExporter c =>
    rw [Exchange.perform, Exchange.bindExporter] at hp
    split at hp
    · cases hp
      exact .given ⟨rfl, rfl⟩ (fun _ _ hd => by cases hd.1) rfl rfl
    · cases hp
      exact .kept rfl (fun _ _ hd => by cases hd.1) rfl
  | bindImporter c =>
    rw [Exchange.perform, Exchange.bindImporter] at hp
    split at hp
    · cases hp
      exact .given ⟨rfl, rfl⟩ (fun _ _ hd => by cases hd.1) rfl rfl
    · cases hp
      exact .kept rfl (fun _ _ hd => by cases hd.1) rfl
  | setParentOf i s =>
    cases hp
    exact .kept (Answer.made?_withoutObject _) (fun _ _ hd => by cases hd.1)
      (Exchange.setParentOf_quiet hsound.coherent view i s).1
  | unmapped s =>
    cases hp
    exact .kept rfl (fun _ _ hd => by cases hd.1) (Exchange.unmapped_spec hsound s).2.1
  | parentChanged s =>
    cases hp
    exact .kept rfl (fun _ _ hd => by cases hd.1)
      (Exchange.parentChanged_quiet hsound.coherent s).1
  | clientGone c =>
    cases hp
    refine .parted rfl rfl (fun _ _ hd => by cases hd.1) fun d o => ?_
    rw [Exchange.clientGone_eq hsound.coherent hsound.registered]
    exact Exchange.owns_withoutClient c d o
  | expel c e =>
    cases hp
    exact .parted rfl rfl (fun _ _ hd => by cases hd.1) (Exchange.owns_expel_iff hsound d c e)
  | takeEvents =>
    cases hp
    exact .kept rfl (fun _ _ hd => by cases hd.1) rfl
  | dispatch c r =>
    obtain ⟨⟨res, z, d₁⟩, hdispatch, heq⟩ := Option.map_eq_some_iff.mp hp
    cases heq
    exact settled_of_dispatched hsound (hsound.dispatched hdispatch) view patience
  | _ => cases hmediated

/-- A client that stays keeps what it had, with what it got, but for what it destroyed. -/
theorem Settled.owns_iff (hs : t.Settled) (hstays : t.parted? ≠ some c) (o : ObjectId) :
    t.after.ownership.owns c o = true ↔
      (t.before.ownership.owns c o = true ∨ t.Gives c o) ∧ ¬ t.Destroys c o := by
  cases hs with
  | kept hmade hnone hsame => simp [hsame, Gives, hmade, hnone c o]
  | @given c' o' hgives hnone hnumber htrack =>
    have hiff : t.Gives c o ↔ c' = c ∧ o' = o := by
      simp only [Gives, hgives.1, hgives.2, Option.some.injEq]
    rw [htrack, Ownership.owns_track, Bool.or_eq_true, decide_eq_true_eq, hiff, or_comm]
    exact (and_iff_left (hnone c o)).symm
  | @destroyed c' o' hmade hdestroys howned huntrack =>
    have hiff : t.Destroys c o ↔ c = c' ∧ o = o' := by
      constructor
      · intro hd
        obtain ⟨hc, ho⟩ := Operation.dispatch.inj (hd.1.symm.trans hdestroys.1)
        exact ⟨hc, Request.destroy_inj ho⟩
      · rintro ⟨rfl, rfl⟩
        exact hdestroys
    rw [huntrack, Ownership.owns_untrack, Bool.and_eq_true, decide_eq_true_eq, hiff, and_comm]
    simp [Gives, hmade]
  | @parted c' hparted hmade hdestroys howns =>
    have hne : c ≠ c' := fun heq => hstays (heq ▸ hparted)
    have hnone : ¬ t.Destroys c o := fun hd => hne (hdestroys c o hd)
    simp [howns c o, hne, Gives, hmade, hnone]

/-- What a client gets has a number that nothing had before. -/
theorem Settled.number_of_gives (hs : t.Settled) (hgives : t.Gives c o) :
    o.number = t.before.nextId := by
  cases hs with
  | given hgives' _ hnumber _ => rwa [← Option.some.inj (hgives'.2.symm.trans hgives.2)]
  | kept hmade _ _ => cases hmade.symm.trans hgives.2
  | destroyed hmade _ _ _ => cases hmade.symm.trans hgives.2
  | parted _ hmade _ _ => cases hmade.symm.trans hgives.2

/-- What a client destroys, and stays, was its own. -/
theorem Settled.owns_of_destroys (hs : t.Settled) (hstays : t.parted? ≠ some c)
    (hd : t.Destroys c o) : t.before.ownership.owns c o = true := by
  cases hs with
  | kept _ hnone _ => exact absurd hd (hnone c o)
  | given _ hnone _ _ => exact absurd hd (hnone c o)
  | destroyed _ hdestroys howned _ =>
    obtain ⟨rfl, ho⟩ := Operation.dispatch.inj (hd.1.symm.trans hdestroys.1)
    rwa [Request.destroy_inj ho]
  | parted hparted _ hdestroys _ => exact absurd (hdestroys c o hd ▸ hparted) hstays

end Transition

namespace Exchange

variable {L : Type} {x : Exchange} {ts : List (Transition L)} {c : ClientId} {o : ObjectId}

/-- The client asked for objects, and this was one of those that it got. -/
def Granted (ts : List (Transition L)) (c : ClientId) (o : ObjectId) : Prop :=
  ∃ t ∈ ts, t.Gives c o

/-- The client has destroyed the object. -/
def Relinquished (ts : List (Transition L)) (c : ClientId) (o : ObjectId) : Prop :=
  ∃ t ∈ ts, t.Destroys c o

/-- The client was given the object and has not destroyed it. -/
def Entitled (ts : List (Transition L)) (c : ClientId) (o : ObjectId) : Prop :=
  Granted ts c o ∧ ¬ Relinquished ts c o

theorem granted_snoc_iff {t : Transition L} :
    Granted (ts ++ [t]) c o ↔ Granted ts c o ∨ t.Gives c o := by
  simp [Granted, or_and_right, exists_or]

theorem relinquished_snoc_iff {t : Transition L} :
    Relinquished (ts ++ [t]) c o ↔ Relinquished ts c o ∨ t.Destroys c o := by
  simp [Relinquished, or_and_right, exists_or]

/-- The tracker tells what the client is entitled to. Numbers of what it destroyed are used up. -/
structure Accords (ts : List (Transition L)) (x : Exchange) (c : ClientId) : Prop where
  owns_iff : ∀ o, x.ownership.owns c o = true ↔ Entitled ts c o
  spent : ∀ o, Relinquished ts c o → o.number < x.nextId

theorem Accords.snoc {t : Transition L} (ha : Accords ts t.before c) (h : t.before.Sound)
    (hv : t.Valid) (hs : t.Settled) (hstays : t.parted? ≠ some c) :
    Accords (ts ++ [t]) t.after c := by
  obtain ⟨ds, hq⟩ := hv.queues h
  constructor
  · intro o
    -- what is given now is new, and so was not destroyed before
    have hnew : t.Gives c o → ¬ Relinquished ts c o := fun hgives hgone =>
      absurd (hs.number_of_gives hgives) (Nat.ne_of_lt (ha.spent o hgone))
    rw [hs.owns_iff hstays, ha.owns_iff, Entitled, Entitled, granted_snoc_iff,
      relinquished_snoc_iff]
    constructor
    · rintro ⟨⟨hgranted, hheld⟩ | hgives, hkeeps⟩
      · exact ⟨Or.inl hgranted, not_or.mpr ⟨hheld, hkeeps⟩⟩
      · exact ⟨Or.inr hgives, not_or.mpr ⟨hnew hgives, hkeeps⟩⟩
    · rintro ⟨hgranted | hgives, hnot⟩
      · exact ⟨Or.inl ⟨hgranted, (not_or.mp hnot).1⟩, (not_or.mp hnot).2⟩
      · exact ⟨Or.inr hgives, (not_or.mp hnot).2⟩
  · intro o hgone
    refine Nat.lt_of_lt_of_le ?_ hq.nextId
    rcases relinquished_snoc_iff.mp hgone with hgone | hd
    · exact ha.spent o hgone
    · exact h.registered.fresh (hs.owns_of_destroys hstays hd)

theorem Run.accords {d : Display L} {config : Config} {handles : HandleStream} {l : L}
    (hrun : Run (Exchange.start d config handles l).1 ts x)
    (hmediated : ∀ t ∈ ts, t.operation.isMediated = true)
    (hstays : ∀ t ∈ ts, t.parted? ≠ some c) : Accords ts x c := by
  induction hrun with
  | start =>
    constructor
    · intro o
      have hn : (Exchange.start d config handles l).1.ownership.owns c o = false :=
        Ownership.owns_empty c o
      simp [hn, Entitled, Granted]
    · rintro o ⟨t, ht, -⟩
      cases ht
  | @perform ts t hrun hv ih =>
    have hbefore := hrun.sound (sound_start d config handles l)
    have hlast : t ∈ ts ++ [t] := List.mem_append_right _ (List.mem_singleton_self t)
    have haccords := ih (fun u hu => hmediated u (List.mem_append_left _ hu))
      (fun u hu => hstays u (List.mem_append_left _ hu))
    exact haccords.snoc hbefore hv (hv.settled hbefore (hmediated t hlast)) (hstays t hlast)
  | aside _ haside ih =>
    have haccords := ih hmediated hstays
    cases haside <;> exact ⟨haccords.owns_iff, haccords.spent⟩

/-- The objects that are a client's own are those that it was given and has not destroyed. It can
destroy each of them, and with a request on any other it loses its connection. -/
theorem Run.entitlement {d : Display L} {config : Config} {handles : HandleStream} {l : L}
    (hrun : Run (Exchange.start d config handles l).1 ts x)
    (hmediated : ∀ t ∈ ts, t.operation.isMediated = true)
    (hstays : ∀ t ∈ ts, t.parted? ≠ some c) :
    (∀ o, x.ownership.owns c o = true ↔ Entitled ts c o) ∧
    ∀ {K : Type} (view : ShellView) (patience : Nat) (d' : Display K) (r : Request),
      d'.isConnected c = true →
      (Entitled ts c r.object →
        (∀ e y d'', x.dispatch view patience d' c r = some (.error (.protocol e), y, d'') →
          e.code ≠ .invalidObject) ∧
        ∃ y, x.dispatch view patience d' c (.destroy r.object) = some (.ok none, y, d')) ∧
      (¬ Entitled ts c r.object → x.dispatch view patience d' c r =
        some (.error (.protocol (.invalidObject r.object)),
          x.expel d' c (.invalidObject r.object)) ∧
        (x.expel d' c (.invalidObject r.object)).2.isConnected c = false) := by
  have howns := (hrun.accords hmediated hstays).owns_iff
  have hsound := hrun.sound (sound_start d config handles l)
  refine ⟨howns, fun {K} view patience d' r hconnected => ⟨fun hentitled => ?_,
    fun hforeign => ?_⟩⟩
  · have howned := (howns r.object).mpr hentitled
    exact ⟨fun e y d'' hp => code_of_dispatch hsound howned hp,
      dispatch_destroy hsound view patience hconnected howned⟩
  · have hforeign' : x.ownership.owns c r.object = false :=
      Bool.eq_false_iff.mpr fun howned => hforeign ((howns _).mp howned)
    exact ⟨dispatch_foreign view patience hconnected hforeign', isConnected_expel x d' c _⟩

/-- Client 1 exports a surface and client 2 imports it. The surface unmaps, and client 1 destroys
its exporter. -/
def retiring : List Operation :=
  [.bindExporter ⟨1⟩, .bindImporter ⟨2⟩, .dispatch ⟨1⟩ (.exporter ⟨1⟩ (.exportSurface ⟨5⟩)),
    .dispatch ⟨2⟩ (.importer ⟨2⟩ (.importHandle "first")), .unmapped ⟨5⟩,
    .dispatch ⟨1⟩ (.exporter ⟨1⟩ .destroy)]

/-- The export, which is inert by now, is still client 1's to destroy, and the exporter is not. -/
theorem entitlement_retiring :
    Run rehearsalStart.1 (rehearse retiring).1 (rehearse retiring).2 ∧
    (∀ t ∈ (rehearse retiring).1, t.operation.isMediated = true) ∧
    (∀ t ∈ (rehearse retiring).1, t.parted? ≠ some ⟨1⟩) ∧
    (rehearse retiring).2.isInert (.exported ⟨⟨1⟩, 3⟩) = true ∧
    (∃ y, (rehearse retiring).2.dispatch { role := fun _ => none } 1 rehearsalStart.2 ⟨1⟩
      (.exported ⟨⟨1⟩, 3⟩ .destroy) = some (.ok none, y, rehearsalStart.2)) ∧
    (rehearse retiring).2.dispatch { role := fun _ => none } 1 rehearsalStart.2 ⟨1⟩
        (.exporter ⟨1⟩ .destroy) =
      some (.error (.protocol (.invalidObject (.exporter ⟨1⟩))),
        (rehearse retiring).2.expel rehearsalStart.2 ⟨1⟩ (.invalidObject (.exporter ⟨1⟩))) := by
  have hrun := run_rehearse retiring
  have hmediated : ∀ t ∈ (rehearse retiring).1, t.operation.isMediated = true :=
    List.all_eq_true.mp rfl
  have hstays : ∀ t ∈ (rehearse retiring).1, t.parted? ≠ some ⟨1⟩ := by decide
  obtain ⟨howns, haddress⟩ := hrun.entitlement hmediated hstays
  have hforeign : ¬ Entitled (rehearse retiring).1 ⟨1⟩ (.exporter ⟨1⟩) := fun hentitled =>
    Bool.false_ne_true ((howns _).mpr hentitled)
  obtain ⟨hown, -⟩ := haddress { role := fun _ => none } 1 rehearsalStart.2
    (.exported ⟨⟨1⟩, 3⟩ .destroy) rfl
  obtain ⟨-, hother⟩ := haddress { role := fun _ => none } 1 rehearsalStart.2
    (.exporter ⟨1⟩ .destroy) rfl
  exact ⟨hrun, hmediated, hstays, rfl, (hown ((howns _).mp rfl)).2, (hother hforeign).1⟩

end Exchange

end SurfaceExchange
