import SurfaceExchange.Proofs.Listeners
import SurfaceExchange.Proofs.Mooring
import Mathlib.Data.List.Perm.Subperm

/-!
# Shutdown

Listeners to the display's shutdown, and listeners to the end of an exchange,
run once at most, and run when they are due (`Estate.FiresOnce`). What carries
it is a ledger: the display's signal keeps the listeners that are gone neither
by removal nor by having run, every exchange that is still held keeps those to
its own end, and no exchange is held twice or held after it has ended
(`Ledger`). One shutdown is then followed listener by listener.
-/

namespace SurfaceExchange

open scoped List

namespace Estate

variable {w w' : Estate} {s t : Shell} {log os : List Occurrence} {k id : ListenerId}
  {e : ListenerId × ShutdownListener} {es : List (ListenerId × ShutdownListener)}

/-- What ties the exchanges that are held to what is around them. -/
def moorings (w : Estate) : List (ListenerId × Signal String) :=
  w.held.map (fun s => s.exchange.mooring)

/-! ## What a step does -/

theorem moorings_eq (w : Estate) :
    w.moorings = w.slot.toList.map (fun s => s.exchange.mooring)
      ++ w.shelf.map (fun s => s.exchange.mooring) := List.map_append

theorem moorings_hold (w : Estate) (t : Shell) : (w.hold t).moorings =
    t.exchange.mooring :: w.shelf.map (fun s => s.exchange.mooring) := rfl

theorem moorings_of_slot (h : w.slot = some s) : w.moorings =
    s.exchange.mooring :: w.shelf.map (fun s => s.exchange.mooring) := by
  rw [moorings_eq, h]
  rfl

theorem moorings_of_empty (h : w.slot = none) :
    w.moorings = w.shelf.map (fun s => s.exchange.mooring) := by
  rw [moorings_eq, h]
  rfl

/-- Nothing that concerns a listener changes, but that exchanges may have been dropped. -/
structure Unheard (w w' : Estate) : Prop where
  moorings : w'.moorings.Subperm w.moorings
  shutdown : w'.display.shutdown = w.display.shutdown
  terminated : w'.display.terminated = w.display.terminated
  fired : w'.compositor.scene.fired = w.compositor.scene.fired

theorem subperm_moorings (h : w'.held.Subperm w.held) : w'.moorings.Subperm w.moorings := by
  obtain ⟨l, hperm, hsub⟩ := h
  exact ⟨l.map _, hperm.map _, hsub.map _⟩

theorem unheard_arrange {slot : Option Shell} {shelf : List Shell}
    (h : (slot.toList ++ shelf).Subperm w.held) : Unheard w (w.arrange slot shelf) where
  moorings := subperm_moorings h
  shutdown := rfl
  terminated := rfl
  fired := rfl

theorem terminate_of_terminated (hw : w.display.terminated = true) :
    w.compositor.terminate = w.compositor := by
  have hover : w.compositor.display.terminated = true := hw
  rw [Compositor.terminate, Display.terminate, if_pos hover]

theorem Shift.unheard (h : w.Shift w') : w.Unheard w' := by
  cases h with
  | @store l r s hshelf =>
    refine unheard_arrange (List.Perm.subperm ?_)
    rw [held, hshelf]
    calc s :: (l ++ w.slot.toList ++ r)
      _ ~ s :: (w.slot.toList ++ l ++ r) := .cons s (List.perm_append_comm.append_right r)
      _ ~ w.slot.toList ++ l ++ s :: r := List.perm_middle.symm
      _ = w.slot.toList ++ (l ++ s :: r) := List.append_assoc _ _ _
  | takeOut => exact unheard_arrange (List.Subperm.refl _)
  | dropExchange =>
    exact ⟨subperm_moorings (List.sublist_append_right _ _).subperm, rfl, rfl, rfl⟩
  | @discard l r s hshelf =>
    refine unheard_arrange (List.Sublist.subperm ?_)
    rw [held, hshelf]
    exact (List.Sublist.refl _).append
      ((List.Sublist.refl l).append (List.sublist_cons_self s r))
  | @operate op a c hop =>
    obtain ⟨s, hs, hop⟩ := Option.bind_eq_some_iff.mp hop
    obtain ⟨⟨a', x, d⟩, hp, heq⟩ := Option.map_eq_some_iff.mp hop
    cases heq
    have hmoored := Exchange.perform_moored hp
    refine ⟨?_, hmoored.shutdown, hmoored.terminated, rfl⟩
    have hsame : (w.hold { s with exchange := x }).moorings = w.moorings := by
      rw [moorings_hold, moorings_of_slot hs, hmoored.mooring]
    exact hsame ▸ List.Subperm.refl _
  | @setParent change c hc =>
    obtain ⟨s, hs, rfl⟩ := Option.map_eq_some_iff.mp hc
    refine ⟨?_, rfl, rfl, rfl⟩
    rw [moorings_of_slot hs]
    exact List.Subperm.refl _
  | @reshape s t hs ht =>
    refine ⟨?_, rfl, rfl, rfl⟩
    rw [moorings_hold, moorings_of_slot hs, ht]
  | display hshutdown hterminated => exact ⟨List.Subperm.refl _, hshutdown, hterminated, rfl⟩
  | terminate hterminated =>
    rw [terminate_of_terminated hterminated]
    exact ⟨List.Subperm.refl _, rfl, rfl, rfl⟩

/-! ## The ledger -/

/-- The log agrees with the listeners on the display and with the exchanges that are held. -/
structure Ledger (log : List Occurrence) (d : Signal ShutdownListener)
    (ms : List (ListenerId × Signal String)) : Prop where
  listeners : d.Keeps (enrolled log) (struckOff log ++ ran log)
  farewells : ∀ m ∈ ms, m.2.Keeps (farewellsAdded log m.1) (farewellsRemoved log m.1)
  /-- No exchange is held twice, ended twice, or held after it has ended. -/
  once : (ms.map Prod.fst ++ ended log).Nodup
  known : ∀ k ∈ ms.map Prod.fst ++ ended log, k ∈ enrolled log
  silent : ∀ k, k ∉ enrolled log → farewellsAdded log k = [] ∧ farewellsRemoved log k = []
  due : ∀ e ∈ endings log, (farewellsAdded log e.1).Nodup ∧
    e.2.map Prod.fst = Signal.standing (farewellsAdded log e.1) (farewellsRemoved log e.1)

variable {d : Signal ShutdownListener} {ms ms' : List (ListenerId × Signal String)}
  {f : Signal String}

theorem ledger_start : Ledger [] .empty [] where
  listeners := Signal.keeps_empty
  farewells := nofun
  once := .nil
  known := nofun
  silent _ _ := ⟨rfl, rfl⟩
  due := nofun

/-- Exchanges may be dropped. -/
theorem Ledger.subperm (h : Ledger log d ms) (hms : ms'.Subperm ms) : Ledger log d ms' := by
  obtain ⟨l, hperm, hsub⟩ := hms
  have hkeys : (l.map Prod.fst ++ ended log).Sublist (ms.map Prod.fst ++ ended log) :=
    (hsub.map _).append (List.Sublist.refl _)
  have hsame : (l.map Prod.fst ++ ended log).Perm (ms'.map Prod.fst ++ ended log) :=
    (hperm.map _).append_right _
  exact
    { listeners := h.listeners
      farewells := fun m hm => h.farewells m (hsub.subset (hperm.mem_iff.mpr hm))
      once := hsame.nodup_iff.mp (h.once.sublist hkeys)
      known := fun k hk => h.known k (hkeys.subset (hsame.mem_iff.mpr hk))
      silent := h.silent
      due := h.due }

/-- The ledger asks the log no more than this. -/
theorem Ledger.congr {log' : List Occurrence} {d' : Signal ShutdownListener} (h : Ledger log d ms)
    (hlisteners : d'.Keeps (enrolled log') (struckOff log' ++ ran log'))
    (henrolled : enrolled log' = enrolled log) (hendings : endings log' = endings log)
    (hfarewells : ∀ k, farewellsAdded log' k = farewellsAdded log k ∧
      farewellsRemoved log' k = farewellsRemoved log k) : Ledger log' d' ms where
  listeners := hlisteners
  farewells m hm := by
    rw [(hfarewells m.1).1, (hfarewells m.1).2]
    exact h.farewells m hm
  once := by
    rw [ended, hendings]
    exact h.once
  known := by
    rw [ended, hendings, henrolled]
    exact h.known
  silent k hk := by
    rw [(hfarewells k).1, (hfarewells k).2]
    exact h.silent k (henrolled ▸ hk)
  due e he := by
    rw [(hfarewells e.1).1, (hfarewells e.1).2]
    exact h.due e (hendings ▸ he)

/-- A listener comes to the display, and with it an exchange perhaps. -/
theorem Ledger.enroll (h : Ledger log d ms) (l : ShutdownListener)
    (hms : ms'.Subperm ((⟨d.nextId⟩, .empty) :: ms)) :
    Ledger (log ++ [.enrolled ⟨d.nextId⟩]) (d.add l).2 ms' := by
  have hfresh := h.listeners.fresh
  have hsilent := h.silent _ hfresh
  refine Ledger.subperm ?_ hms
  exact
    { listeners := by simpa using h.listeners.add l
      farewells := by
        intro m hm
        rcases List.mem_cons.mp hm with rfl | hm
        · simpa [hsilent.1, hsilent.2] using (Signal.keeps_empty : (Signal.empty).Keeps [] [])
        · simpa using h.farewells m hm
      once := by
        have hnot : ⟨d.nextId⟩ ∉ ms.map Prod.fst ++ ended log := fun hm => hfresh (h.known _ hm)
        simpa [ended] using List.nodup_cons.mpr ⟨hnot, h.once⟩
      known := by
        intro k hk
        have hk : k = ⟨d.nextId⟩ ∨ k ∈ ms.map Prod.fst ++ ended log := by simpa using hk
        simp only [told_append, List.mem_append]
        rcases hk with rfl | hk
        · exact Or.inr (List.mem_singleton_self _)
        · exact Or.inl (h.known k hk)
      silent := by
        intro k hk
        have hk : k ∉ enrolled log := fun hm => hk (by simp [hm])
        simpa using h.silent k hk
      due := by simpa using h.due }

/-- A listener leaves the display, by removal or because it runs. -/
theorem Ledger.leave (h : Ledger log d ms) (hid : id ∈ enrolled log) {o : Occurrence}
    (ho : o = .struckOff id ∨ ∃ l found, o = .ran id l found) :
    Ledger (log ++ [o]) (d.remove id).2 ms := by
  have hgone : ∀ i, i ∈ struckOff (log ++ [o]) ++ ran (log ++ [o]) ↔
      i ∈ struckOff log ++ ran log ++ [id] := by
    intro i
    rcases ho with rfl | ⟨l, found, rfl⟩
    · simp [or_comm]
    · simp
  have hlisteners := (h.listeners.remove hid).congr hgone
  rcases ho with rfl | ⟨l, found, rfl⟩ <;>
    exact h.congr (by simpa using hlisteners) (by simp) (by simp) (by simp)

/-- A listener is removed from the display, if it is there. -/
theorem Ledger.strikeOff (h : Ledger log d ms) (id : ListenerId) :
    Ledger (log ++ if d.contains id then [.struckOff id] else []) (d.remove id).2 ms := by
  by_cases hc : d.contains id = true
  · rw [if_pos hc]
    exact h.leave (h.listeners.contains_iff.mp hc).1 (Or.inl rfl)
  · rw [if_neg hc, List.append_nil, Signal.remove_of_not_contains (Bool.eq_false_iff.mpr hc)]
    exact h

/-- Of a mark in the log the ledger knows nothing. -/
theorem Ledger.mark (h : Ledger log d ms) {o : Occurrence}
    (ho : o = .shutDown ∨ ∃ k, o = .destroyed k) : Ledger (log ++ [o]) d ms := by
  rcases ho with rfl | ⟨k, rfl⟩ <;>
    exact h.congr (by simpa using h.listeners) (by simp) (by simp) (by simp)

/-- An exchange ends, and is held no longer. -/
theorem Ledger.bury (h : Ledger log d ((k, f) :: ms)) :
    Ledger (log ++ [.ended k f.listeners]) d ms := by
  have hperm : (k :: (ms.map Prod.fst ++ ended log)).Perm
      (ms.map Prod.fst ++ ended (log ++ [.ended k f.listeners])) := by
    rw [ended_append, ← List.append_assoc]
    exact (List.perm_append_singleton k _).symm
  exact
    { listeners := by simpa using h.listeners
      farewells := fun m hm => by simpa using h.farewells m (List.mem_cons_of_mem _ hm)
      once := hperm.nodup_iff.mp h.once
      known := fun k' hk' => by simpa using h.known k' (hperm.mem_iff.mpr hk')
      silent := fun k' hk' => by simpa using h.silent k' (by simpa using hk')
      due := by
        intro e he
        have hkeeps := h.farewells (k, f) List.mem_cons_self
        have he : e ∈ endings log ∨ e = (k, f.listeners) := by simpa using he
        rcases he with he | rfl
        · simpa using h.due e he
        · exact ⟨by simpa using hkeeps.nodup, by simpa using hkeeps.ids⟩ }

/-- The listeners to the end of an exchange that is held change. -/
theorem Ledger.farewell (h : Ledger log d ((k, f) :: ms)) {f' : Signal String} {o : Occurrence}
    (ho : ∃ id, o = .farewellAdded k id ∨ o = .farewellRemoved k id)
    (hf : f'.Keeps (farewellsAdded (log ++ [o]) k) (farewellsRemoved (log ++ [o]) k)) :
    Ledger (log ++ [o]) d ((k, f') :: ms) := by
  have hother : ∀ k', k' ≠ k → farewellsAdded (log ++ [o]) k' = farewellsAdded log k' ∧
      farewellsRemoved (log ++ [o]) k' = farewellsRemoved log k' := by
    intro k' hk'
    obtain ⟨id, rfl | rfl⟩ := ho <;> simp [Ne.symm hk']
  have hsame : enrolled (log ++ [o]) = enrolled log ∧ struckOff (log ++ [o]) = struckOff log ∧
      ran (log ++ [o]) = ran log ∧ endings (log ++ [o]) = endings log := by
    obtain ⟨id, rfl | rfl⟩ := ho <;> simp
  obtain ⟨henrolled, hstruckOff, hran, hendings⟩ := hsame
  have hended : ended (log ++ [o]) = ended log := congrArg (List.map Prod.fst) hendings
  have hnot : k ∉ ms.map Prod.fst ++ ended log := (List.nodup_cons.mp h.once).1
  have hk : k ∈ enrolled log := h.known k List.mem_cons_self
  exact
    { listeners := by rw [henrolled, hstruckOff, hran]; exact h.listeners
      farewells := by
        intro m hm
        rcases List.mem_cons.mp hm with rfl | hrest
        · exact hf
        · have hne : m.1 ≠ k := by
            rintro rfl
            exact hnot (List.mem_append_left _ (List.mem_map_of_mem hrest))
          rw [(hother _ hne).1, (hother _ hne).2]
          exact h.farewells m (List.mem_cons_of_mem _ hrest)
      once := by rw [hended]; exact h.once
      known := by rw [hended, henrolled]; exact h.known
      silent := by
        intro k' hk'
        rw [henrolled] at hk'
        have hne : k' ≠ k := fun heq => hk' (heq ▸ hk)
        rw [(hother _ hne).1, (hother _ hne).2]
        exact h.silent k' hk'
      due := by
        intro e he
        rw [hendings] at he
        have hne : e.1 ≠ k := by
          rintro rfl
          exact hnot (List.mem_append_right _ (List.mem_map_of_mem he))
        rw [(hother _ hne).1, (hother _ hne).2]
        exact h.due e he }

theorem Ledger.addFarewell (h : Ledger log d ((k, f) :: ms)) (name : String) :
    Ledger (log ++ [.farewellAdded k (f.add name).1]) d ((k, (f.add name).2) :: ms) := by
  refine h.farewell ⟨_, Or.inl rfl⟩ ?_
  have hkeeps := (h.farewells (k, f) List.mem_cons_self).add name
  simpa [Signal.add] using hkeeps

theorem Ledger.removeFarewell (h : Ledger log d ((k, f) :: ms)) (id : ListenerId) :
    Ledger (log ++ if f.contains id then [.farewellRemoved k id] else []) d
      ((k, (f.remove id).2) :: ms) := by
  have hkeeps := h.farewells (k, f) List.mem_cons_self
  by_cases hc : f.contains id = true
  · rw [if_pos hc]
    refine h.farewell ⟨id, Or.inr rfl⟩ ?_
    simpa using hkeeps.remove (hkeeps.contains_iff.mp hc).1
  · rw [if_neg hc, List.append_nil, Signal.remove_of_not_contains (Bool.eq_false_iff.mpr hc)]
    exact h

/-! ## What a shutdown does -/

theorem heard_of_slot (hs : w.slot = some s) :
    w.heard (id, .exchange) = [.ran id .exchange (some s.number), s.ending] := by
  rw [heard, hs]
  rfl

theorem heard_of_empty (hs : w.slot = none) :
    w.heard (id, .exchange) = [.ran id .exchange none] := by
  rw [heard, hs]
  rfl

theorem slot_tearDown (s : Scene) : s.tearDown.slot = none := by
  unfold Scene.tearDown
  split
  · assumption
  · rfl

/-- Who runs leaves the display, and an exchange that is torn down ends. -/
theorem Ledger.hear (h : Ledger log { d with listeners := e :: es } w.moorings) :
    Ledger (log ++ w.heard e) { d with listeners := es } (w.hear e).moorings := by
  obtain ⟨id, l⟩ := e
  have hid : id ∈ enrolled log := by
    have hstanding : id ∈ Signal.standing (enrolled log) (struckOff log ++ ran log) := by
      rw [← h.listeners.ids]
      exact List.mem_cons_self
    exact (Signal.mem_standing.mp hstanding).1
  have hremove : (Signal.remove { d with listeners := (id, l) :: es } id).2
      = { d with listeners := es } := by
    rw [Signal.remove, List.eraseP_cons_of_pos (by simp)]
  have hran := h.leave hid (Or.inr ⟨l, w.slot.map Shell.number, rfl⟩)
  rw [hremove] at hran
  cases l with
  | observer name takes =>
    refine hran.subperm (subperm_moorings ?_)
    cases takes <;> exact List.Subperm.refl _
  | exchange =>
    rw [moorings_of_empty (w := w.hear (id, .exchange)) (slot_tearDown _)]
    cases hs : w.slot with
    | none =>
      rw [moorings_of_empty hs, hs] at hran
      rwa [heard_of_empty hs]
    | some s =>
      rw [moorings_of_slot hs, hs] at hran
      have hburied := hran.bury
      rw [List.append_assoc] at hburied
      rwa [heard_of_slot hs]

theorem Ledger.tale (h : Ledger log { d with listeners := es } w.moorings) :
    Ledger (log ++ w.tale es) { d with listeners := [] } (es.foldl Estate.hear w).moorings := by
  induction es generalizing log w with
  | nil => simpa [Estate.tale] using h
  | cons e es ih =>
    have hrest := ih h.hear
    rwa [List.append_assoc] at hrest

theorem scene_foldl_hear (w : Estate) (es : List (ListenerId × ShutdownListener)) :
    (es.foldl hear w).compositor.scene =
      es.foldl (fun s e => s.run e.2) w.compositor.scene := by
  induction es generalizing w with
  | nil => rfl
  | cons e es ih => exact ih (w.hear e)

/-- The compositor has its listeners run one after the other. -/
theorem terminate_scene (hw : w.display.terminated = false) :
    w.compositor.terminate.scene =
      (w.display.shutdown.listeners.foldl hear w).compositor.scene := by
  have hnot : w.compositor.display.terminated = false := hw
  rw [scene_foldl_hear, Compositor.terminate, Display.terminate, if_neg (by simp [hnot])]
  rfl

theorem terminate_display (hw : w.display.terminated = false) :
    w.compositor.terminate.display = { w.display with
      globals := .empty
      clients := .empty
      shutdown := { w.display.shutdown with listeners := [] }
      terminated := true } := by
  have hnot : w.compositor.display.terminated = false := hw
  rw [Compositor.terminate, Display.terminate, if_neg (by simp [hnot])]
  rfl

theorem moorings_shutDown (hw : w.display.terminated = false) :
    w.shutDown.moorings = (w.display.shutdown.listeners.foldl hear w).moorings := by
  rw [moorings_eq, moorings_eq, slot, slot, ← terminate_scene hw]
  rfl

theorem shutdown_shutDown (hw : w.display.terminated = false) :
    w.shutDown.display.shutdown = { w.display.shutdown with listeners := [] } :=
  congrArg Display.shutdown (terminate_display hw)

theorem Ledger.step (h : Ledger log w.display.shutdown w.moorings) (hstep : w.Step os w') :
    Ledger (log ++ os) w'.display.shutdown w'.moorings := by
  cases hstep with
  | shift hshift =>
    have hunheard := hshift.unheard
    rw [List.append_nil, hunheard.shutdown]
    exact h.subperm hunheard.moorings
  | create config handles horizon =>
    refine h.enroll .exchange (List.Perm.subperm ?_)
    rw [moorings_eq, moorings_eq]
    exact List.perm_middle
  | openExchange config script exhausts =>
    refine h.enroll .exchange (List.Sublist.subperm ?_)
    rw [moorings_eq w]
    exact (List.sublist_append_right _ _).cons_cons _
  | addListener name takes =>
    exact h.enroll (.observer name takes) (List.Subperm.cons_right _ (List.Subperm.refl _))
  | removeListener id => exact h.strikeOff id
  | @addFarewell s name hs =>
    rw [moorings_of_slot hs] at h
    exact h.addFarewell name
  | @removeFarewell s id hs =>
    rw [moorings_of_slot hs] at h
    exact h.removeFarewell id
  | @destroy s c hs hc =>
    have hstruck := h.strikeOff s.number
    rw [moorings_of_slot hs] at hstruck
    obtain ⟨s', hs', rfl⟩ := Option.map_eq_some_iff.mp hc
    cases hs.symm.trans hs'
    have hburied := (hstruck.mark (Or.inr ⟨s.number, rfl⟩)).bury
    rw [List.append_assoc, List.append_assoc] at hburied
    exact hburied
  | terminate hw =>
    have htale := (h.mark (Or.inl rfl)).tale
    rwa [List.append_assoc, ← moorings_shutDown hw, ← shutdown_shutDown hw] at htale

theorem history_ledger (h : History log w) : Ledger log w.display.shutdown w.moorings := by
  induction h with
  | start => exact ledger_start
  | step _ hstep ih => exact ih.step hstep

/-! ## One shutdown -/

theorem tale_append (w : Estate) (es es' : List (ListenerId × ShutdownListener)) :
    w.tale (es ++ es') = w.tale es ++ (es.foldl hear w).tale es' := by
  induction es generalizing w with
  | nil => rfl
  | cons e es ih =>
    rw [List.cons_append, tale, tale, ih, List.append_assoc]
    rfl

/-- Whoever listens is heard, in order. -/
theorem ran_tale (w : Estate) (es : List (ListenerId × ShutdownListener)) :
    ran (w.tale es) = es.map Prod.fst := by
  induction es generalizing w with
  | nil => rfl
  | cons e es ih =>
    obtain ⟨id, l⟩ := e
    have hfirst : ran (w.heard (id, l)) = [id] := by
      cases l with
      | observer name takes => rfl
      | exchange =>
        cases hs : w.slot with
        | none => rw [heard_of_empty hs]; rfl
        | some s => rw [heard_of_slot hs]; rfl
    rw [tale, ran, told_append]
    exact congr (congrArg _ hfirst) (ih _)

/-- In a shutdown only listeners run and exchanges end. -/
theorem mem_tale {o : Occurrence} (ho : o ∈ w.tale es) :
    (∃ id l found, o = .ran id l found) ∨ ∃ k due, o = .ended k due := by
  induction es generalizing w with
  | nil => cases ho
  | cons e es ih =>
    obtain ⟨id, l⟩ := e
    rcases List.mem_append.mp ho with ho | ho
    · rcases List.mem_cons.mp ho with rfl | ho
      · exact Or.inl ⟨_, _, _, rfl⟩
      · cases l with
        | observer name takes => cases ho
        | exchange =>
          obtain ⟨s, -, rfl⟩ := List.mem_map.mp ho
          exact Or.inr ⟨_, _, rfl⟩
    · exact ih ho

/-- An exchange that is found in the slot by an exchange's listener ends. -/
theorem ended_of_found (ho : .ran id .exchange (some k) ∈ w.tale es) : k ∈ ended (w.tale es) := by
  induction es generalizing w with
  | nil => cases ho
  | cons e es ih =>
    rw [tale, ended_append]
    rcases List.mem_append.mp ho with ho | ho
    · refine List.mem_append_left _ ?_
      obtain ⟨id', l⟩ := e
      cases l with
      | observer name takes => cases List.mem_singleton.mp ho
      | exchange =>
        cases hs : w.slot with
        | none =>
          rw [heard_of_empty hs] at ho
          cases List.mem_singleton.mp ho
        | some s =>
          rw [heard_of_slot hs] at ho ⊢
          rcases List.mem_cons.mp ho with heq | ho
          · cases heq
            exact List.mem_singleton_self _
          · cases List.mem_singleton.mp ho
    · exact List.mem_append_right _ (ih ho)

/-- But for the one shutdown nobody runs, and the display does not shut down. -/
theorem Step.shuts (hstep : w.Step os w') :
    (w'.display.terminated = w.display.terminated ∧ .shutDown ∉ os ∧ ran os = []) ∨
      (w.display.terminated = false ∧ os = .shutDown :: w.tale w.display.shutdown.listeners ∧
        w' = w.shutDown) := by
  cases hstep with
  | shift hshift => exact Or.inl ⟨hshift.unheard.terminated, nofun, rfl⟩
  | create config handles horizon => exact Or.inl ⟨rfl, by simp, rfl⟩
  | openExchange config script exhausts => exact Or.inl ⟨rfl, by simp, rfl⟩
  | addListener name takes => exact Or.inl ⟨rfl, by simp, rfl⟩
  | removeListener id => refine Or.inl ⟨rfl, ?_, ?_⟩ <;> split <;> simp
  | addFarewell name hs => exact Or.inl ⟨rfl, by simp, rfl⟩
  | removeFarewell id hs => refine Or.inl ⟨rfl, ?_, ?_⟩ <;> split <;> simp
  | destroy hs hc =>
    obtain ⟨s', hs', rfl⟩ := Option.map_eq_some_iff.mp hc
    refine Or.inl ⟨rfl, ?_, ?_⟩ <;> split <;> simp [Shell.ending]
  | terminate hw => exact Or.inr ⟨hw, rfl, rfl⟩

/-- Before the shutdown nobody ran, and in it those ran who were on the display, in order. -/
theorem history_shutDown (h : History log w) :
    (w.display.terminated = false ∧ .shutDown ∉ log ∧ ran log = []) ∨
      (w.display.terminated = true ∧ ∃ before after, log = before ++ .shutDown :: after ∧
        .shutDown ∉ before ++ after ∧ ran before = [] ∧
        ran after = Signal.standing (enrolled before) (struckOff before)) := by
  induction h with
  | start => exact Or.inl ⟨rfl, nofun, rfl⟩
  | @step log os w w' hw hstep ih =>
    rcases hstep.shuts with ⟨hterminated, hnot, hran⟩ | ⟨hterminated, rfl, rfl⟩
    · rw [hterminated]
      rcases ih with ⟨hbefore, hnone, hnobody⟩ | ⟨hafter, before, after, rfl, hnone, hboth⟩
      · refine Or.inl ⟨hbefore, ?_, ?_⟩
        · simp [hnone, hnot]
        · simp [hnobody, hran]
      · refine Or.inr ⟨hafter, before, after ++ os, ?_, ?_, hboth.1, ?_⟩
        · simp
        · rw [← List.append_assoc]
          exact fun hm => (List.mem_append.mp hm).elim hnone hnot
        · simp [hran, hboth.2]
    · obtain ⟨-, hnone, hnobody⟩ := ih.resolve_right (by simp [hterminated])
      refine Or.inr ⟨by rw [display, shutDown, terminate_display hterminated], log, _, rfl,
        fun hm => ?_, hnobody, ?_⟩
      · rcases List.mem_append.mp hm with hm | hm
        · exact hnone hm
        · rcases mem_tale hm with ⟨_, _, _, heq⟩ | ⟨_, _, heq⟩ <;> cases heq
      · rw [ran_tale, (history_ledger hw).listeners.ids, hnobody, List.append_nil]

/-! ## What is destroyed -/

theorem Step.destroys (hstep : w.Step os w') (ho : .destroyed k ∈ os) :
    ∃ s, w.slot = some s ∧ s.number = k ∧ os =
      (if w.display.shutdown.contains k then [.struckOff k] else []) ++
        [.destroyed k, s.ending] := by
  cases hstep with
  | shift hshift => cases ho
  | create config handles horizon => simp at ho
  | openExchange config script exhausts => simp at ho
  | addListener name takes => simp at ho
  | removeListener id => split at ho <;> simp at ho
  | addFarewell name hs => simp at ho
  | removeFarewell id hs => split at ho <;> simp at ho
  | @destroy s c hs hc =>
    have hk : k = s.number := by
      split at ho <;> simpa [Shell.ending] using ho
    subst hk
    exact ⟨s, hs, rfl, rfl⟩
  | terminate hw =>
    rcases List.mem_cons.mp ho with heq | ho
    · cases heq
    · rcases mem_tale ho with ⟨_, _, _, heq⟩ | ⟨_, _, heq⟩ <;> cases heq

/-- An exchange that was destroyed has ended, and its listener is gone. -/
theorem history_destroyed (h : History log w) (ho : .destroyed k ∈ log) :
    k ∈ ended log ∧ k ∈ struckOff log ++ ran log := by
  induction h with
  | start => cases ho
  | @step log os w w' hw hstep ih =>
    rcases List.mem_append.mp ho with ho | ho
    · obtain ⟨hended, hgone⟩ := ih ho
      simp only [ended_append, told_append, List.mem_append] at hgone ⊢
      exact ⟨Or.inl hended, hgone.imp Or.inl Or.inl⟩
    · obtain ⟨s, hs, rfl, rfl⟩ := hstep.destroys ho
      have hledger := history_ledger hw
      have hknown : s.number ∈ enrolled log := by
        refine hledger.known _ (List.mem_append_left _ ?_)
        rw [moorings_of_slot hs]
        exact List.mem_cons_self
      simp only [ended_append, told_append, List.mem_append]
      refine ⟨Or.inr (Or.inr List.mem_cons_self), ?_⟩
      by_cases hc : w.display.shutdown.contains s.number = true
      · rw [if_pos hc]
        exact Or.inl (Or.inr (Or.inl List.mem_cons_self))
      · -- it was removed or ran before, for it was on the display once
        have hgone : s.number ∈ struckOff log ++ ran log := by
          by_contra hnot
          exact hc (hledger.listeners.contains_iff.mpr ⟨hknown, hnot⟩)
        exact (List.mem_append.mp hgone).imp Or.inl Or.inl

/-- The listener of an exchange that was destroyed does not run afterwards. -/
theorem history_silent (h : History log w) :
    log.Pairwise (fun o o' => ∀ k l found, o = .destroyed k → o' ≠ .ran k l found) := by
  induction h with
  | start => exact .nil
  | @step log os w w' hw hstep ih =>
    rcases hstep.shuts with ⟨-, -, hran⟩ | ⟨-, rfl, rfl⟩
    · have hnobody : ∀ o' ∈ os, ∀ k l found, o' ≠ .ran k l found := by
        rintro o' ho' k l found rfl
        have hk : k ∈ ran os := mem_told ho' rfl
        rw [hran] at hk
        cases hk
      refine List.pairwise_append.mpr ⟨ih, ?_, ?_⟩
      · exact List.pairwise_of_forall_mem_list
          fun _ _ o' ho' k l found _ => hnobody o' ho' k l found
      · exact fun _ _ o' ho' k l found _ => hnobody o' ho' k l found
    · refine List.pairwise_append.mpr ⟨ih, ?_, ?_⟩
      · refine List.pairwise_of_forall_mem_list fun o ho o' _ k l found heq => ?_
        obtain ⟨_, _, _, hos⟩ := hstep.destroys (heq ▸ ho)
        split at hos <;> cases hos
      · rintro o ho o' ho' k l found rfl rfl
        have hledger := history_ledger hw
        have hk : k ∈ ran (w.tale w.display.shutdown.listeners) := mem_told (by simpa using ho') rfl
        rw [ran_tale, hledger.listeners.ids] at hk
        exact (Signal.mem_standing.mp hk).2 (history_destroyed hw ho).2

/-- An exchange that the listener of an exchange found in the slot has ended. -/
theorem history_found (h : History log w) (ho : .ran id .exchange (some k) ∈ log) :
    k ∈ ended log := by
  induction h with
  | start => cases ho
  | @step log os w w' hw hstep ih =>
    rw [ended_append]
    rcases List.mem_append.mp ho with ho | ho
    · exact List.mem_append_left _ (ih ho)
    · refine List.mem_append_right _ ?_
      rcases hstep.shuts with ⟨-, -, hran⟩ | ⟨-, rfl, rfl⟩
      · have hid : id ∈ ran os := mem_told ho rfl
        rw [hran] at hid
        cases hid
      · exact ended_of_found (by simpa using ho)

/-! ## The slot -/

theorem slot_run_of_empty {c : Scene} (hc : c.slot = none) (l : ShutdownListener) :
    (c.run l).slot = none := by
  cases l with
  | exchange => exact slot_tearDown c
  | observer name takes => cases takes <;> simp [Scene.run, hc]

/-- Once an exchange's listener has run, the slot is empty. -/
theorem slot_foldl_run {c : Scene} (hid : (id, .exchange) ∈ es) :
    (es.foldl (fun c e => c.run e.2) c).slot = none := by
  have hempty : ∀ (es : List (ListenerId × ShutdownListener)) (c : Scene), c.slot = none →
      (es.foldl (fun c e => c.run e.2) c).slot = none := by
    intro es
    induction es with
    | nil => exact fun c hc => hc
    | cons e es ih => exact fun c hc => ih _ (slot_run_of_empty hc e.2)
  obtain ⟨before, after, rfl⟩ := List.append_of_mem hid
  rw [List.foldl_append]
  exact hempty after _ (slot_tearDown _)

/-! ## What is on record -/

theorem fired_farewell (c : Scene) (x : Exchange) (due : List String) :
    (c.farewell x due).fired.map Fired.name = c.fired.map Fired.name ++ due := by
  simp [Scene.farewell, Function.comp_def, Fired.name]

theorem fired_hear (w : Estate) (e : ListenerId × ShutdownListener) :
    (w.hear e).compositor.scene.fired.map Fired.name =
      w.compositor.scene.fired.map Fired.name ++ namesRun (w.heard e) := by
  obtain ⟨id, l⟩ := e
  cases l with
  | observer name takes => simp [hear, heard, Scene.run, namesRun, Occurrence.names, Fired.name]
  | exchange =>
    have hrun : (w.hear (id, .exchange)).compositor.scene = w.compositor.scene.tearDown := rfl
    rw [hrun, Scene.tearDown]
    cases hs : w.slot with
    | none =>
      have hslot : w.compositor.scene.slot = none := hs
      rw [heard_of_empty hs, hslot]
      exact (List.append_nil _).symm
    | some s =>
      have hslot : w.compositor.scene.slot = some s := hs
      rw [heard_of_slot hs, hslot]
      refine (fired_farewell _ s.exchange.teardown.2 s.exchange.teardown.1).trans ?_
      rw [Exchange.teardown_due]
      simp [namesRun, Occurrence.names, Shell.ending]

theorem fired_foldl_hear (w : Estate) (es : List (ListenerId × ShutdownListener)) :
    (es.foldl hear w).compositor.scene.fired.map Fired.name =
      w.compositor.scene.fired.map Fired.name ++ namesRun (w.tale es) := by
  induction es generalizing w with
  | nil => exact (List.append_nil _).symm
  | cons e es ih =>
    rw [List.foldl_cons, ih, fired_hear, tale, namesRun_append, List.append_assoc]

theorem Step.fired (hstep : w.Step os w') :
    w'.compositor.scene.fired.map Fired.name =
      w.compositor.scene.fired.map Fired.name ++ namesRun os := by
  cases hstep with
  | shift hshift => rw [hshift.unheard.fired]; exact (List.append_nil _).symm
  | removeListener id => split <;> exact (List.append_nil _).symm
  | removeFarewell id hs => split <;> exact (List.append_nil _).symm
  | @destroy s c hs hc =>
    obtain ⟨s', hs', rfl⟩ := Option.map_eq_some_iff.mp hc
    cases hs.symm.trans hs'
    refine (fired_farewell _ _ _).trans ?_
    have hdue : (s.exchange.destroy w.compositor.display).1 =
        s.exchange.farewells.listeners.map Prod.snd := Exchange.teardown_due _
    rw [hdue]
    split <;> simp [namesRun, Occurrence.names, Shell.ending]
  | terminate hw =>
    have hscene : w.shutDown.compositor.scene = _ := terminate_scene hw
    rw [hscene, fired_foldl_hear]
    rfl
  | _ => exact (List.append_nil _).symm

theorem history_fired (h : History log w) :
    namesRun log = w.compositor.scene.fired.map Fired.name := by
  induction h with
  | start => rfl
  | step _ hstep ih => rw [namesRun_append, ih, hstep.fired]

/-! ## Once -/

/-- A listener to the end of an exchange runs in that end only. -/
theorem farewellsRun_nodup (hended : (ended log).Nodup)
    (hdue : ∀ e ∈ endings log, (e.2.map Prod.fst).Nodup) : (farewellsRun log).Nodup := by
  refine List.nodup_flatMap.mpr ⟨fun e he => ?_, ?_⟩
  · have hpairs : e.2.map (fun due => (e.1, due.1)) = (e.2.map Prod.fst).map (Prod.mk e.1) := by
      rw [List.map_map]
      rfl
    rw [hpairs]
    exact (hdue e he).map fun _ _ heq => (Prod.mk.inj heq).2
  · refine (List.pairwise_map.mp hended).imp fun {e e'} hne => ?_
    rintro ⟨k, id⟩ hm hm'
    obtain ⟨_, -, heq⟩ := List.mem_map.mp hm
    obtain ⟨_, -, heq'⟩ := List.mem_map.mp hm'
    exact hne ((Prod.mk.inj heq).1.trans (Prod.mk.inj heq').1.symm)

/-- What can be told of listeners in a history, and of what it has come to. -/
structure FiresOnce (log : List Occurrence) (w : Estate) : Prop where
  /-- Listeners to the shutdown run once at most. -/
  ran_nodup : (ran log).Nodup
  /-- There is one shutdown at most and nobody runs before it. In it run those who were added
  before and not removed, in the order in which they were added. -/
  shutDown : (w.display.terminated = false ∧ .shutDown ∉ log ∧ ran log = []) ∨
    (w.display.terminated = true ∧ ∃ before after, log = before ++ .shutDown :: after ∧
      .shutDown ∉ before ++ after ∧ ran before = [] ∧
      ran after = Signal.standing (enrolled before) (struckOff before))
  /-- It leaves neither globals nor clients. -/
  emptied : w.display.terminated = false →
    w.compositor.terminate.display.globals = .empty ∧
      w.compositor.terminate.display.clients = .empty
  /-- To shut down once more does nothing. -/
  settled : w.display.terminated = true → w.compositor.terminate = w.compositor
  /-- An exchange is torn down once at most. -/
  ended_nodup : (ended log).Nodup
  /-- One that is destroyed is torn down. -/
  destroyed : ∀ k, .destroyed k ∈ log → (ended log).count k = 1
  /-- So is one that is in the slot when the listener of an exchange runs, its own or another's. -/
  found : ∀ id k, .ran id .exchange (some k) ∈ log → (ended log).count k = 1
  /-- When such a listener runs in a shutdown, it is on record what it finds in the slot. After it
  has run the slot is empty, and stays so. -/
  slot : w.display.terminated = false → ∀ before id after,
    w.display.shutdown.listeners = before ++ (id, .exchange) :: after →
      .ran id .exchange ((before.foldl hear w).slot.map Shell.number) ∈
          w.tale w.display.shutdown.listeners ∧
        (before.foldl hear w |>.hear (id, .exchange)).slot = none ∧
        w.compositor.terminate.scene.slot = none
  /-- Listeners to the end of an exchange run once at most. -/
  farewells_nodup : (farewellsRun log).Nodup
  /-- If it ends, those run who were added and not removed, in the order in which they were
  added. -/
  due : ∀ k due, .ended k due ∈ log →
    due.map Prod.fst = Signal.standing (farewellsAdded log k) (farewellsRemoved log k)
  /-- The listener of an exchange that was destroyed does not run afterwards. -/
  silent : log.Pairwise (fun o o' => ∀ k l found, o = .destroyed k → o' ≠ .ran k l found)
  /-- The compositor has on record who ran, and nobody else. -/
  record : w.compositor.scene.fired.map Fired.name = namesRun log

/-- Whatever is done with one display and the exchanges on it, listeners run once at most, and
run when they are due. -/
theorem fires_once (h : History log w) : FiresOnce log w := by
  have hledger := history_ledger h
  have hended : (ended log).Nodup := (List.nodup_append'.mp hledger.once).2.1
  have honce : ∀ {k}, k ∈ ended log → (ended log).count k = 1 := fun hk =>
    List.count_eq_one_of_mem hended hk
  exact
    { ran_nodup := by
        rcases history_shutDown h with ⟨-, -, hran⟩ | ⟨-, before, after, rfl, -, hbefore, hafter⟩
        · rw [hran]
          exact .nil
        · have hran : ran (before ++ .shutDown :: after) =
              Signal.standing (enrolled before) (struckOff before) := by simp [hbefore, hafter]
          have henrolled := hledger.listeners.nodup
          rw [enrolled, told_append] at henrolled
          rw [hran]
          exact (List.nodup_append'.mp henrolled).1.filter _
      shutDown := history_shutDown h
      emptied := fun hw => by rw [terminate_display hw]; exact ⟨rfl, rfl⟩
      settled := fun hw => terminate_of_terminated hw
      ended_nodup := hended
      destroyed := fun k ho => honce (history_destroyed h ho).1
      found := fun id k ho => honce (history_found h ho)
      slot := fun hw before id after hlisteners => by
        refine ⟨?_, slot_tearDown _, ?_⟩
        · rw [hlisteners, tale_append]
          exact List.mem_append_right _ List.mem_cons_self
        · rw [terminate_scene hw, scene_foldl_hear, hlisteners]
          exact slot_foldl_run (List.mem_append_right _ List.mem_cons_self)
      farewells_nodup := by
        refine farewellsRun_nodup hended fun e he => ?_
        rw [(hledger.due e he).2]
        exact (hledger.due e he).1.filter _
      due := fun k due ho => (hledger.due _ (mem_told ho rfl)).2
      silent := history_silent h
      record := (history_fired h).symm }

/-! A shutdown in which the listener of an exchange that was dropped is the first to run. It tears
down the exchange that is then in the slot, and that one's own listener finds nothing. -/

def overtaken : List Occurrence :=
  [.enrolled ⟨1⟩, .farewellAdded ⟨1⟩ ⟨1⟩, .enrolled ⟨2⟩, .enrolled ⟨3⟩, .farewellAdded ⟨3⟩ ⟨1⟩,
    .farewellAdded ⟨3⟩ ⟨2⟩, .farewellRemoved ⟨3⟩ ⟨1⟩, .shutDown,
    .ran ⟨1⟩ .exchange (some ⟨3⟩), .ended ⟨3⟩ [(⟨2⟩, "second")],
    .ran ⟨2⟩ (.observer "watcher" true) none, .ran ⟨3⟩ .exchange none]

theorem history_overtaken : ∃ w, History overtaken w := by
  have h₀ := History.start
  have h₁ := h₀.step (.openExchange {} [] true)
  have h₂ := h₁.step (.addFarewell "dropped" rfl)
  have h₃ := h₂.step (.addListener "watcher" true)
  have h₄ := h₃.step (.openExchange {} [] true)
  have h₅ := h₄.step (.addFarewell "first" rfl)
  have h₆ := h₅.step (.addFarewell "second" rfl)
  have h₇ := h₆.step (.removeFarewell ⟨1⟩ rfl)
  have h₈ := h₇.step (.terminate rfl)
  exact ⟨_, h₈⟩

theorem fires_once_overtaken : ∃ w, History overtaken w ∧ ran overtaken = [⟨1⟩, ⟨2⟩, ⟨3⟩] ∧
    (ran overtaken).Nodup ∧ (ended overtaken).count ⟨3⟩ = 1 ∧
    farewellsRun overtaken = [(⟨3⟩, ⟨2⟩)] ∧
    w.compositor.scene.fired.map Fired.name = ["second", "watcher"] := by
  obtain ⟨w, h⟩ := history_overtaken
  have honce := fires_once h
  refine ⟨w, h, rfl, honce.ran_nodup, honce.found ⟨1⟩ ⟨3⟩ (by simp [overtaken]), rfl, ?_⟩
  rw [honce.record]
  rfl

end Estate

end SurfaceExchange
