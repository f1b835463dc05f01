import SurfaceExchange.Proofs.Serving

/-!
# What becomes of a dispatched request

A request is turned away if its client is not connected. It costs the client
its connection if the object is not the client's own or if serving it raises a
protocol error; all that is left then is what the error alone would have left,
for a request that is refused has done nothing but draw handles. All other
requests are served. There is no fifth case (`Sound.dispatched`), and so the
caller is never told of an unknown object.
-/

namespace SurfaceExchange.Exchange

variable {L : Type} {x y : Exchange} {d d' : Display L} {c : ClientId} {r : Request}

/-! ## Clients that are expelled -/

/-- How many handles have been drawn is of no consequence to a client's going. -/
theorem expel_draw (h : x.Sound) (handles : HandleStream) (d : Display L) (c : ClientId)
    (e : ProtocolError) : { x with handles }.expel d c e =
      ({ (x.expel d c e).1 with handles }, (x.expel d c e).2) := by
  have hplain := h.blame x.handles c e
  have hdrawn := h.blame handles c e
  simp only [expel]
  rw [clientGone_eq hdrawn.coherent hdrawn.registered,
    clientGone_eq hplain.coherent hplain.registered]
  rfl

/-- Who is expelled owns nothing any more, and nobody else is affected. -/
theorem owns_expel_iff (h : x.Sound) (d : Display L) (c : ClientId) (e : ProtocolError)
    (c' : ClientId) (o : ObjectId) : (x.expel d c e).1.ownership.owns c' o = true ↔
      x.ownership.owns c' o = true ∧ c' ≠ c := by
  have hblamed := h.blame x.handles c e
  rw [expel, clientGone_eq hblamed.coherent hblamed.registered]
  exact owns_withoutClient c c' o

theorem owns_expel_self (h : x.Sound) (d : Display L) (c : ClientId) (e : ProtocolError)
    (o : ObjectId) : (x.expel d c e).1.ownership.owns c o = false :=
  Bool.eq_false_iff.mpr fun howned => ((owns_expel_iff h d c e c o).mp howned).2 rfl

theorem isConnected_expel (x : Exchange) (d : Display L) (c : ClientId) (e : ProtocolError) :
    (x.expel d c e).2.isConnected c = false := by
  simp [expel, Display.disconnect, Display.isConnected, Table.contains]

/-! ## The four ways of a request -/

/-- What dispatching a request comes to. -/
inductive Dispatched (x : Exchange) (d : Display L) (c : ClientId) (r : Request) :
    Except RequestError (Option ObjectId) → Exchange → Display L → Prop
  | absent : d.isConnected c = false → Dispatched x d c r (.error (.notConnected c)) x d
  | foreign : d.isConnected c = true → x.ownership.owns c r.object = false →
      Dispatched x d c r (.error (.protocol (.invalidObject r.object)))
        (x.expel d c (.invalidObject r.object)).1 (x.expel d c (.invalidObject r.object)).2
  | refused {e : ProtocolError} (handles : HandleStream) : d.isConnected c = true →
      x.ownership.owns c r.object = true → (∀ o, r ≠ .destroy o) → e.code ≠ .invalidObject →
      x.handles.Advances handles →
      Dispatched x d c r (.error (.protocol e)) { (x.expel d c e).1 with handles }
        (x.expel d c e).2
  | served {a : Option ObjectId} {z : Exchange} : d.isConnected c = true →
      x.ownership.owns c r.object = true → Served x c r (.ok a) z → Dispatched x d c r (.ok a) z d

theorem Sound.dispatched (h : x.Sound) {view : ShellView} {patience : Nat}
    {res : Except RequestError (Option ObjectId)}
    (hp : x.dispatch view patience d c r = some (res, y, d')) : Dispatched x d c r res y d' := by
  unfold dispatch at hp
  split at hp
  · next habsent =>
    cases hp
    exact .absent (by simpa using habsent)
  · next hthere =>
    have hconnected : d.isConnected c = true := by simpa using hthere
    split at hp
    · next hforeign =>
      cases hp
      exact .foreign hconnected (by simpa using hforeign)
    · next hown =>
      have howned : x.ownership.owns c r.object = true := by simpa using hown
      obtain ⟨⟨answer, z⟩, hs, heq⟩ := Option.map_eq_some_iff.mp hp
      -- the display is the one before, unless the request is refused
      cases serve_served h howned hs with
      | made hmakes hnumber hlive htrack hevents =>
        cases heq
        exact .served hconnected howned (.made hmakes hnumber hlive htrack hevents)
      | destroyed hdestroy huntrack hevents =>
        cases heq
        exact .served hconnected howned (.destroyed hdestroy huntrack hevents)
      | linked hlinks hsame hevents =>
        cases heq
        exact .served hconnected howned (.linked hlinks hsame hevents)
      | @refused e handles hnot hcode hadvances =>
        have hended : (.error (.protocol e), { x with handles }.expel d c e) = (res, y, d') := heq
        rw [expel_draw h] at hended
        cases hended
        exact .refused handles hconnected howned hnot hcode hadvances

/-- A client that is not connected is told so, and nothing is done. -/
theorem dispatch_absent (view : ShellView) (patience : Nat) (r : Request)
    (habsent : d.isConnected c = false) :
    x.dispatch view patience d c r = some (.error (.notConnected c), x, d) :=
  if_pos (by simp [habsent])

/-- An object that is not the client's own costs it the connection. -/
theorem dispatch_foreign (view : ShellView) (patience : Nat) (hconnected : d.isConnected c = true)
    (hforeign : x.ownership.owns c r.object = false) :
    x.dispatch view patience d c r = some (.error (.protocol (.invalidObject r.object)),
      x.expel d c (.invalidObject r.object)) := by
  rw [dispatch, if_neg (by simp [hconnected]), if_pos (by simp [hforeign])]

/-- Only a search for a handle that goes on for ever keeps a request from being answered. -/
theorem dispatch_eq_none {view : ShellView} {patience : Nat}
    (hp : x.dispatch view patience d c r = none) : x.config.maxHandleAttempts = 0 ∧
      (∃ p s, r = .exporter p (.exportSurface s)) ∧
      ∀ k < patience, ∃ h, x.handles.answer (x.handles.drawn + k) = .ok h ∧
        x.isTaken h = true := by
  unfold dispatch at hp
  split at hp
  · cases hp
  · split at hp
    · cases hp
    · exact serve_eq_none (Option.map_eq_none_iff.mp hp)

/-- An object that is the client's own is never said to be foreign. -/
theorem code_of_dispatch (h : x.Sound) {view : ShellView} {patience : Nat} {e : ProtocolError}
    (howned : x.ownership.owns c r.object = true)
    (hp : x.dispatch view patience d c r = some (.error (.protocol e), y, d')) :
    e.code ≠ .invalidObject := by
  cases h.dispatched hp with
  | foreign _ hforeign =>
    rw [howned] at hforeign
    cases hforeign
  | refused _ _ _ _ hcode _ => exact hcode

/-- A client can always destroy what is its own. -/
theorem dispatch_destroy (h : x.Sound) (view : ShellView) (patience : Nat) {o : ObjectId}
    (hconnected : d.isConnected c = true) (howned : x.ownership.owns c o = true) :
    ∃ y, x.dispatch view patience d c (.destroy o) = some (.ok none, y, d) := by
  cases hp : x.dispatch view patience d c (.destroy o) with
  | none =>
    obtain ⟨-, ⟨p, s, hexports⟩, -⟩ := dispatch_eq_none hp
    exact absurd hexports.symm (Request.ne_destroy_of_makes rfl o)
  | some answer =>
    obtain ⟨res, y, d'⟩ := answer
    cases h.dispatched hp with
    | absent habsent =>
      rw [hconnected] at habsent
      cases habsent
    | foreign _ hforeign =>
      rw [Request.object_destroy, howned] at hforeign
      cases hforeign
    | refused handles _ _ hnot _ _ => exact absurd rfl (hnot o)
    | served _ _ hserved =>
      cases hserved with
      | made hmakes _ _ _ _ => simp at hmakes
      | destroyed _ _ _ => exact ⟨y, rfl⟩
      | linked hlinks _ _ => exact absurd hlinks.symm (Request.setParentOf_ne_destroy _ _ o)

/-- A request that is served makes an object if and only if it asks for one, and what it makes
is live and its client's. -/
theorem Served.object {a : Option ObjectId} (hs : Served x c r (.ok a) y) :
    a.isSome = r.makes ∧ x.Blameless y ∧
      ∀ o, a = some o → y.clientOf? o = some c ∧ y.ownership.owns c o = true := by
  cases hs with
  | made hmakes _ hlive htrack hevents =>
    refine ⟨hmakes.symm, hevents, ?_⟩
    rintro _ ⟨rfl⟩
    exact ⟨hlive, by simp [htrack, Ownership.owns_track]⟩
  | destroyed hdestroy _ hevents => exact ⟨by rw [hdestroy]; simp, hevents, nofun⟩
  | linked hlinks _ hevents => exact ⟨by rw [hlinks]; rfl, hevents, nofun⟩

/-- What the answer to a request says of its client, of the object made and of what is left. -/
structure Answered (x : Exchange) (d : Display L) (c : ClientId) (r : Request)
    (res : Except RequestError (Option ObjectId)) (y : Exchange) (d' : Display L) : Prop where
  notConnected_iff : (∃ c', res = .error (.notConnected c')) ↔ d.isConnected c = false
  known : ∀ o, res ≠ .error (.unknownObject o)
  served : ∀ a, res = .ok a → d' = d ∧ d'.isConnected c = true ∧ a.isSome = r.makes ∧
    (∃ ds, y.events = x.events ++ ds ∧ ∀ m ∈ ds, m.isError = false) ∧
    ∀ o, a = some o → y.clientOf? o = some c ∧ y.ownership.owns c o = true
  /-- Nothing is left but what the error alone would have left, and handles drawn. -/
  refused : ∀ e, res = .error (.protocol e) →
    ∃ handles, x.handles.Advances handles ∧ y = { (x.expel d c e).1 with handles } ∧
      d' = (x.expel d c e).2
  parted : ∀ e, res = .error (.protocol e) →
    d'.isConnected c = false ∧ ∀ o, y.ownership.owns c o = false

theorem Sound.answered (h : x.Sound) {res : Except RequestError (Option ObjectId)}
    (hdispatched : Dispatched x d c r res y d') : x.Answered d c r res y d' := by
  cases hdispatched with
  | absent habsent => exact ⟨iff_of_true ⟨c, rfl⟩ habsent, nofun, nofun, nofun, nofun⟩
  | foreign hconnected hforeign =>
    refine ⟨iff_of_false nofun (by simp [hconnected]), nofun, nofun, ?_, ?_⟩
    · rintro e ⟨rfl⟩
      exact ⟨x.handles, .refl _,
        congrArg Prod.fst (expel_draw h x.handles d c (.invalidObject r.object)), rfl⟩
    · rintro e ⟨rfl⟩
      exact ⟨isConnected_expel x d c _, owns_expel_self h d c _⟩
  | @refused e handles hconnected _ _ _ hadvances =>
    refine ⟨iff_of_false nofun (by simp [hconnected]), nofun, nofun, ?_, ?_⟩
    · rintro e ⟨rfl⟩
      exact ⟨handles, hadvances, rfl, rfl⟩
    · rintro e ⟨rfl⟩
      exact ⟨isConnected_expel x d c e, owns_expel_self h d c e⟩
  | served hconnected _ hserved =>
    refine ⟨iff_of_false nofun (by simp [hconnected]), nofun, ?_, nofun, nofun⟩
    rintro a ⟨rfl⟩
    obtain ⟨hmade, hevents, hobject⟩ := hserved.object
    exact ⟨rfl, hconnected, hmade, hevents, hobject⟩

/-- What a client's request comes to. -/
structure DispatchOutcome (x : Exchange) (view : ShellView) (patience : Nat) (d : Display L)
    (c : ClientId) (r : Request) : Prop where
  absent : d.isConnected c = false →
    x.dispatch view patience d c r = some (.error (.notConnected c), x, d)
  unending : x.dispatch view patience d c r = none → x.config.maxHandleAttempts = 0 ∧
    (∃ p s, r = .exporter p (.exportSurface s)) ∧
    ∀ k < patience, ∃ h, x.handles.answer (x.handles.drawn + k) = .ok h ∧ x.isTaken h = true
  answered : ∀ res y d', x.dispatch view patience d c r = some (res, y, d') →
    x.Answered d c r res y d'

/-- A request is turned away if and only if its client is not connected. Otherwise it succeeds and
its client stays connected, or it ends in a protocol error that leaves what the error alone would
have left, but for handles drawn. -/
theorem Reachable.dispatch_outcome (h : x.Reachable) (view : ShellView) (patience : Nat)
    (d : Display L) (c : ClientId) (r : Request) : x.DispatchOutcome view patience d c r where
  absent := dispatch_absent view patience r
  unending := dispatch_eq_none
  answered _ _ _ hp := h.sound.answered (h.sound.dispatched hp)

/-- Client 2 declares a surface a child that is outside the shell, and loses all that it held. -/
theorem dispatch_outcome_sharing : (rehearse sharing).2.Reachable ∧ ∃ y d',
    (rehearse sharing).2.dispatch { role := fun _ => none } 1 rehearsalStart.2 ⟨2⟩
        (.imported ⟨⟨2⟩, 4⟩ (.setParentOf ⟨9⟩)) =
      some (.error (.protocol (.notShellSurface (.imported ⟨⟨2⟩, 4⟩))), y, d') ∧
    d'.isConnected ⟨2⟩ = false ∧ y.ownership.owns ⟨2⟩ (.importer ⟨2⟩) = false := by
  have hreach := reachable_rehearse sharing
  have houtcome := hreach.dispatch_outcome { role := fun _ => none } 1 rehearsalStart.2
    ⟨2⟩ (.imported ⟨⟨2⟩, 4⟩ (.setParentOf ⟨9⟩))
  obtain ⟨hparted, hnothing⟩ := (houtcome.answered _ _ _ rfl).parted _ rfl
  exact ⟨hreach, _, _, rfl, hparted, hnothing _⟩

end SurfaceExchange.Exchange
