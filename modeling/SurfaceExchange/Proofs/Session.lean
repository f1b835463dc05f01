import SurfaceExchange.Compositor
import SurfaceExchange.Proofs.Adoption

/-!
# A shell that reports what it does

In a session the shell does at once what the exchange tells it, and what it
does of its own accord it reports at once: that it has unmapped or destroyed a
surface, or set a parent. The parents that were set are on record with who had
them set. Links and parents then agree between any two steps (`InStep`), so a
parent that no link accounts for is one that the shell has chosen itself
(`Session.declared_parents`).
-/

namespace SurfaceExchange

/-- Who has a parent set: the shell of its own accord, or the exchange. -/
inductive Setter where
  | shell
  | exchange
  deriving DecidableEq, Repr

/-- A parent that was set, and who had it set. -/
structure Setting where
  setter : Setter
  change : ParentChange
  deriving DecidableEq, Repr

/-- The parent changes of the exchange, as they go on record. -/
def ordered (changes : List ParentChange) : List Setting := changes.map (Setting.mk .exchange)

/-- Who had the parent of a surface set last. -/
def lastSetter (settings : List Setting) (c : SurfaceId) : Option Setter :=
  (settings.filter (fun k => decide (k.change.surface = c))).getLast?.map Setting.setter

theorem lastSetter_append_of_untouched (settings : List Setting) {ks : List Setting}
    {c : SurfaceId} (h : ∀ k ∈ ks, k.change.surface ≠ c) :
    lastSetter (settings ++ ks) c = lastSetter settings c := by
  have hnil : ks.filter (fun k => decide (k.change.surface = c)) = [] := by
    rw [List.filter_eq_nil_iff]
    intro k hk
    simpa using h k hk
  rw [lastSetter, List.filter_append, hnil, List.append_nil, lastSetter]

theorem lastSetter_concat (settings : List Setting) (k : Setting) :
    lastSetter (settings ++ [k]) k.change.surface = some k.setter := by
  simp [lastSetter, List.filter_append]

/-- Whoever set a parent last is on record. -/
theorem mem_of_lastSetter {settings : List Setting} {c : SurfaceId} {w : Setter}
    (h : lastSetter settings c = some w) : ∃ k ∈ settings, k.setter = w := by
  obtain ⟨k, hk, hw⟩ := Option.map_eq_some_iff.mp h
  exact ⟨k, (List.mem_filter.mp (List.mem_of_getLast? hk)).1, hw⟩

namespace Shell

/-- The exchange has carried an operation out, and the shell has done what it was told. -/
def Carries (s : Shell) (op : Operation) (changes : List ParentChange) (t : Shell) : Prop :=
  ∃ (L : Type) (patience : Nat) (d d' : Display L) (a : Answer) (y : Exchange),
    s.exchange.perform s.view patience d op = some (a, y, d') ∧
      { s with exchange := y }.settle = (changes, t)

end Shell

/-- A shell can come to this by reporting what it does, with these parents on record. -/
inductive Session : Shell → List Setting → Prop
  | start {L : Type} (d : Display L) (config : Config) (handles : HandleStream) (l : L)
      (horizon : Nat) :
      Session { exchange := (Exchange.start d config handles l).1, horizon } []
  | create {s ks} (role : Option Role) : Session s ks →
      Session { s with surfaces := (s.surfaces.create role).2 } ks
  | unmap {s t ks changes} (c : SurfaceId) : Session s ks →
      Shell.Carries { s with surfaces := s.surfaces.unmap c } (.unmapped c) changes t →
      Session t (ks ++ ordered changes)
  | destroy {s t ks changes} (c : SurfaceId) : Session s ks →
      Shell.Carries { s with surfaces := s.surfaces.destroy c } (.unmapped c) changes t →
      Session t (ks ++ ordered changes)
  | setParent {s t ks changes} (change : ParentChange) : Session s ks →
      Shell.Carries { s with surfaces := s.surfaces.setParent change }
        (.parentChanged change.surface) changes t →
      Session t (ks ++ [⟨.shell, change⟩] ++ ordered changes)
  /-- The shell reports a new parent only after it has set one. -/
  | operate {s t ks changes} (op : Operation) : Session s ks → (∀ c, op ≠ .parentChanged c) →
      s.Carries op changes t → Session t (ks ++ ordered changes)
  | aside {s ks y} : Session s ks → s.exchange.Aside y → Session { s with exchange := y } ks

/-- Links and parents agree, but for surfaces that are lost to the shell and not reported yet. -/
structure InStep (lost : SurfaceId → Prop) (s : Shell) (ks : List Setting) : Prop where
  sound : s.exchange.Sound
  settled : s.exchange.parentChanges = []
  truthful : s.overrides = .empty
  numbered : s.surfaces.Numbered
  exported : ∀ {e t}, s.exchange.exports.find? e = some t → ¬ lost t.surface →
    s.surfaces.role t.surface = some .toplevel
  declared : ∀ {c p}, s.exchange.IsChildOf c p → ¬ lost c → ¬ lost p →
    s.surfaces.role c = some .toplevel ∧ s.surfaces.parent? c = some p
  /-- A parent without a link is the shell's own choice. -/
  chosen : ∀ {c p}, s.surfaces.parent? c = some p →
    (∃ q, s.exchange.IsChildOf c q) ∨ lastSetter ks c = some .shell

namespace InStep

open Exchange

variable {lost : SurfaceId → Prop} {s t : Shell} {ks : List Setting} {x y : Exchange}
  {cs : List ParentChange}

theorem role_view (h : s.overrides = .empty) (c : SurfaceId) :
    s.view.role c = s.surfaces.role c := by
  show ((s.overrides.find? c).bind Override.role).getD _ = _
  rw [h]
  rfl

/-- Children that are freed have their parents cleared, and nobody else has. -/
theorem frees (h : InStep lost s ks) (hy : y.Sound) (hf : s.exchange.Frees y cs) :
    InStep lost { s with
      exchange := { y with parentChanges := [] }
      surfaces := s.surfaces.setParents cs } (ks ++ ordered cs) where
  sound := hy.congr rfl rfl rfl rfl rfl rfl rfl rfl rfl
  settled := rfl
  truthful := h.truthful
  numbered := h.numbered.setParents cs
  exported := by
    intro e t he hlost
    obtain ⟨t₀, he₀, hsurface⟩ := hf.exported he
    rw [SurfaceStore.role_setParents, hsurface]
    exact h.exported he₀ (hsurface ▸ hlost)
  declared := by
    intro c p hc hlost hlost'
    obtain ⟨hrole, hparent⟩ := h.declared (hf.kept hc) hlost hlost'
    have huntouched : ∀ ch ∈ cs, ch.surface ≠ c := by
      rintro ch hch rfl
      exact ((hf.cleared ch).mp hch).2.2 p hc
    rw [SurfaceStore.role_setParents, SurfaceStore.parent?_setParents_of_untouched _ huntouched]
    exact ⟨hrole, hparent⟩
  chosen := by
    intro c p hc
    by_cases hcleared : ∃ ch ∈ cs, ch.surface = c
    · have hnone := s.surfaces.parent?_setParents_of_cleared
        (fun ch hch => ((hf.cleared ch).mp hch).1) hcleared
      rw [hnone] at hc
      cases hc
    · have huntouched : ∀ ch ∈ cs, ch.surface ≠ c := fun ch hch heq => hcleared ⟨ch, hch, heq⟩
      rw [SurfaceStore.parent?_setParents_of_untouched _ huntouched] at hc
      rcases h.chosen hc with ⟨q, hq⟩ | hshell
      · left
        by_contra hnone
        -- whoever is no child any more has been cleared
        exact hcleared ⟨⟨c, none⟩, (hf.cleared _).mpr
          ⟨rfl, ⟨q, hq⟩, fun p hp => hnone ⟨p, hp⟩⟩, rfl⟩
      · right
        rw [lastSetter_append_of_untouched, hshell]
        intro k hk
        obtain ⟨ch, hch, rfl⟩ := List.mem_map.mp hk
        exact huntouched ch hch

/-- A child that is declared gets the one parent that the shell is told of. -/
theorem adopts (h : InStep lost s ks) (hy : y.Sound) {c p : SurfaceId}
    (hrole : s.surfaces.role c = some .toplevel) (ha : s.exchange.Adopts y c p) :
    InStep lost { s with
      exchange := { y with parentChanges := [] }
      surfaces := s.surfaces.setParents [⟨c, some p⟩] } (ks ++ ordered [⟨c, some p⟩]) := by
  have hset : ∀ c', (s.surfaces.setParents [⟨c, some p⟩]).parent? c' =
      if c' = c then some p else s.surfaces.parent? c' := by
    intro c'
    have hthere : s.surfaces.contains c = true := by
      obtain ⟨r, hr, -⟩ := Option.bind_eq_some_iff.mp hrole
      exact Option.isSome_of_eq_some hr
    show (s.surfaces.setParent ⟨c, some p⟩).parent? c' = _
    rw [SurfaceStore.parent?_setParent]
    exact if_congr (and_iff_left_of_imp fun heq => heq ▸ hthere) rfl rfl
  refine ⟨hy.congr rfl rfl rfl rfl rfl rfl rfl rfl rfl, rfl, h.truthful, h.numbered.setParents _,
    fun {e t} he hlost => ?_, fun {c' p'} hc hlost hlost' => ?_, fun {c' p'} hc => ?_⟩
  · rw [SurfaceStore.role_setParents]
    exact h.exported (ha.exports ▸ he) hlost
  · rw [SurfaceStore.role_setParents, hset]
    rcases (ha.children c' p').mp hc with ⟨rfl, rfl⟩ | ⟨hne, hc⟩
    · exact ⟨hrole, if_pos rfl⟩
    · rw [if_neg hne]
      exact h.declared hc hlost hlost'
  · rw [hset] at hc
    by_cases hcc : c' = c
    · exact Or.inl ⟨p, (ha.children c' p).mpr (Or.inl ⟨hcc, rfl⟩)⟩
    · rw [if_neg hcc] at hc
      refine (h.chosen hc).imp (fun ⟨q, hq⟩ => ⟨q, (ha.children c' q).mpr (Or.inr ⟨hcc, hq⟩)⟩)
        fun hshell => ?_
      rw [lastSetter_append_of_untouched ks, hshell]
      rintro k hk rfl
      obtain rfl := List.mem_singleton.mp hk
      exact hcc rfl

/-- A toplevel that is exported has no children yet. -/
theorem exports (h : InStep lost s ks) (hy : y.Sound)
    (hexports : ∀ {e t}, y.exports.find? e = some t →
      (∃ t₀, s.exchange.exports.find? e = some t₀ ∧ t.surface = t₀.surface) ∨
        s.surfaces.role t.surface = some .toplevel)
    (hsame : ∀ c p, y.IsChildOf c p ↔ s.exchange.IsChildOf c p) :
    InStep lost { s with exchange := { y with parentChanges := [] } } ks where
  sound := hy.congr rfl rfl rfl rfl rfl rfl rfl rfl rfl
  settled := rfl
  truthful := h.truthful
  numbered := h.numbered
  exported := by
    intro e t he hlost
    rcases hexports he with ⟨t₀, he₀, hsurface⟩ | hrole
    · rw [hsurface] at hlost ⊢
      exact h.exported he₀ hlost
    · exact hrole
  declared := fun hc => h.declared ((hsame _ _).mp hc)
  chosen := fun hc => (h.chosen hc).imp (fun ⟨q, hq⟩ => ⟨q, (hsame _ q).mpr hq⟩) id

/-- Whatever the exchange carries out, the shell that does what it is told stays in step. -/
theorem carries (h : InStep lost s ks) {op : Operation} (hop : ∀ c, op ≠ .parentChanged c)
    (hc : s.Carries op cs t) : InStep lost t (ks ++ ordered cs) := by
  obtain ⟨L, patience, d, d', a, y, hp, hsettle⟩ := hc
  have hy : y.Sound := h.sound.perform hp
  cases hsettle
  cases perform_reparents h.sound hop hp with
  | frees hfrees =>
    have hfreed := h.frees hy hfrees
    have hchanges := hfrees.parentChanges
    rw [h.settled, List.nil_append] at hchanges
    rwa [← hchanges] at hfreed
  | adopts hrole hadopts =>
    have hadopted := h.adopts hy (role_view h.truthful _ ▸ hrole) hadopts
    have hchanges := hadopts.parentChanges
    rw [h.settled, List.nil_append] at hchanges
    rwa [← hchanges] at hadopted
  | exports hparents hexports hsame =>
    have hexported := h.exports hy
      (fun he => (hexports he).imp_right fun hrole => role_view h.truthful _ ▸ hrole) hsame
    show InStep lost { s with
      exchange := { y with parentChanges := [] }
      surfaces := s.surfaces.setParents y.parentChanges } (ks ++ ordered y.parentChanges)
    rw [hparents, h.settled]
    simpa [ordered, SurfaceStore.setParents] using hexported

/-! ## What the shell does of its own accord -/

theorem create (h : InStep (fun _ => False) s ks) (role : Option Role) :
    InStep (fun _ => False) { s with surfaces := (s.surfaces.create role).2 } ks := by
  -- nothing that has a role has the number of the new surface
  have hnew : ∀ {c}, s.surfaces.role c = some .toplevel → (s.surfaces.create role).1 ≠ c := by
    rintro c hrole rfl
    obtain ⟨r, hr, -⟩ := Option.bind_eq_some_iff.mp hrole
    exact Nat.not_lt_of_le (Nat.le_max_left _ _) (h.numbered _ (Option.isSome_of_eq_some hr))
  refine ⟨h.sound, h.settled, h.truthful, h.numbered.create role, fun he hlost => ?_,
    fun hc hlost hlost' => ?_, fun {c p} hc => ?_⟩
  · have hrole := h.exported he hlost
    rw [SurfaceStore.role_create, if_neg (hnew hrole), hrole]
  · obtain ⟨hrole, hparent⟩ := h.declared hc hlost hlost'
    rw [SurfaceStore.role_create, SurfaceStore.parent?_create, if_neg (hnew hrole),
      if_neg (hnew hrole)]
    exact ⟨hrole, hparent⟩
  · rw [SurfaceStore.parent?_create] at hc
    split at hc
    · cases hc
    · exact h.chosen hc

theorem unmap (h : InStep lost s ks) (c : SurfaceId) :
    InStep lost { s with surfaces := s.surfaces.unmap c } ks where
  sound := h.sound
  settled := h.settled
  truthful := h.truthful
  numbered := h.numbered.unmap c
  exported := by
    intro e t he hlost
    rw [SurfaceStore.role_unmap]
    exact h.exported he hlost
  declared := by
    intro c' p hc hlost hlost'
    rw [SurfaceStore.role_unmap, SurfaceStore.parent?_unmap]
    exact h.declared hc hlost hlost'
  chosen := by
    intro c' p hc
    rw [SurfaceStore.parent?_unmap] at hc
    exact h.chosen hc

/-- A surface that is destroyed is lost until it is reported. -/
theorem destroy (h : InStep (fun _ => False) s ks) (c : SurfaceId) :
    InStep (· = c) { s with surfaces := s.surfaces.destroy c } ks where
  sound := h.sound
  settled := h.settled
  truthful := h.truthful
  numbered := h.numbered.destroy c
  exported := by
    intro e t he hlost
    rw [SurfaceStore.role_destroy, if_neg hlost]
    exact h.exported he id
  declared := by
    intro c' p hc hlost hlost'
    obtain ⟨hrole, hparent⟩ := h.declared hc id id
    have hkept : ¬ (c' = c ∨ s.surfaces.parent? c' = some c) := by
      rintro (hcc | hpc)
      · exact hlost hcc
      · exact hlost' (Option.some.inj (hparent.symm.trans hpc))
    rw [SurfaceStore.role_destroy, SurfaceStore.parent?_destroy, if_neg hlost, if_neg hkept]
    exact ⟨hrole, hparent⟩
  chosen := by
    intro c' p hc
    rw [SurfaceStore.parent?_destroy] at hc
    split at hc
    · cases hc
    · exact h.chosen hc

/-- Once a lost surface is reported, nothing refers to it. -/
theorem recover (h : InStep lost s ks)
    (hexports : ∀ {e t}, s.exchange.exports.find? e = some t → ¬ lost t.surface)
    (hchildren : ∀ {c p}, s.exchange.IsChildOf c p → ¬ lost c) :
    InStep (fun _ => False) s ks where
  sound := h.sound
  settled := h.settled
  truthful := h.truthful
  numbered := h.numbered
  exported := fun he _ => h.exported he (hexports he)
  declared := by
    rintro c p hc - -
    have hparent : ¬ lost p := by
      obtain ⟨-, -, -, e, t, -, -, -, -, he, rfl⟩ := hc
      exact hexports he
    exact h.declared hc (hchildren hc) hparent
  chosen := h.chosen

/-- A surface that is destroyed and reported leaves no export and no link behind. -/
theorem destroyed (h : InStep (fun _ => False) s ks) {c : SurfaceId}
    (hc : Shell.Carries { s with surfaces := s.surfaces.destroy c } (.unmapped c) cs t) :
    InStep (fun _ => False) t (ks ++ ordered cs) := by
  obtain ⟨hsound, -, hexports, hlinks⟩ :=
    h.sound.unmapped_induction c (P := fun _ => True) trivial (fun _ _ _ _ => trivial)
      (fun _ _ _ _ _ => trivial)
  refine ((h.destroy c).carries (fun _ heq => by cases heq) hc).recover ?_ ?_ <;>
    obtain ⟨L, patience, d, d', a, y, hp, hsettle⟩ := hc <;> cases hp <;> cases hsettle
  · exact fun {e t} he => hexports e t he
  · rintro c' p (hchild : (s.exchange.unmapped c).IsChildOf c' p) rfl
    exact hlinks ((hsound.coherent.isChild_iff c').mpr ⟨p, hchild⟩)

/-- A parent that the shell sets and reports ends the link on the surface. -/
theorem setParent (h : InStep (fun _ => False) s ks) {change : ParentChange}
    (hc : Shell.Carries { s with surfaces := s.surfaces.setParent change }
      (.parentChanged change.surface) cs t) :
    InStep (fun _ => False) t (ks ++ [⟨.shell, change⟩] ++ ordered cs) := by
  obtain ⟨L, patience, d, d', a, y, hp, hsettle⟩ := hc
  have hy : y.Sound := h.sound.perform hp
  cases hp
  cases hsettle
  have hcoherent := h.sound.coherent
  have hnothing : (s.exchange.parentChanged change.surface).parentChanges = [] :=
    (hcoherent.parentChanges_parentChanged change.surface).trans h.settled
  have hleft := hcoherent.isChildOf_parentChanged_iff change.surface
  have hset : ∀ {c}, c ≠ change.surface →
      (s.surfaces.setParent change).parent? c = s.surfaces.parent? c := fun hne => by
    rw [SurfaceStore.parent?_setParent, if_neg fun heq => hne heq.1]
  simp only [hnothing, ordered, List.map_nil, List.append_nil, SurfaceStore.setParents,
    List.foldl_nil]
  refine ⟨hy.congr rfl rfl rfl rfl rfl rfl rfl rfl rfl, rfl, h.truthful,
    h.numbered.setParent change, fun {e t} he _ => ?_, fun {c p} hc _ _ => ?_, fun {c p} hp => ?_⟩
  · rw [SurfaceStore.role_setParent]
    exact h.exported (exports_parentChanged hcoherent change.surface ▸ he) id
  · obtain ⟨hne, hc⟩ := (hleft c p).mp hc
    rw [SurfaceStore.role_setParent, hset hne]
    exact h.declared hc id id
  · by_cases hcc : c = change.surface
    · rw [hcc]
      exact Or.inr (lastSetter_concat ks ⟨.shell, change⟩)
    · rw [hset hcc] at hp
      refine (h.chosen hp).imp (Exists.imp fun q hq => (hleft c q).mpr ⟨hcc, hq⟩) fun hshell => ?_
      rw [lastSetter_append_of_untouched ks, hshell]
      rintro k hk rfl
      obtain rfl := List.mem_singleton.mp hk
      exact hcc rfl

/-- What is done to queues and listeners between two operations is no concern of surfaces. -/
theorem aside (h : InStep lost s ks) (hxy : s.exchange.Aside y) :
    InStep lost { s with exchange := y } ks := by
  have hy : y.Sound := hxy.sound h.sound
  cases hxy with
  | takeParentChanges =>
    exact ⟨hy, rfl, h.truthful, h.numbered, h.exported, h.declared, h.chosen⟩
  | addFarewell name =>
    exact ⟨hy, h.settled, h.truthful, h.numbered, h.exported, h.declared, h.chosen⟩
  | removeFarewell id =>
    exact ⟨hy, h.settled, h.truthful, h.numbered, h.exported, h.declared, h.chosen⟩

theorem start {L : Type} (d : Display L) (config : Config) (handles : HandleStream) (l : L)
    (horizon : Nat) :
    InStep lost { exchange := (Exchange.start d config handles l).1, horizon } [] where
  sound := sound_start d config handles l
  settled := rfl
  truthful := rfl
  numbered := nofun
  exported := nofun
  declared := by
    rintro c p ⟨i, r, l, e, s, hi, -⟩
    cases hi
  chosen := nofun

end InStep

namespace Session

open Exchange

variable {s : Shell} {ks : List Setting}

theorem inStep (h : Session s ks) : InStep (fun _ => False) s ks := by
  induction h with
  | start d config handles l horizon => exact .start d config handles l horizon
  | create role _ ih => exact ih.create role
  | unmap c _ hc ih => exact (ih.unmap c).carries (fun _ heq => by cases heq) hc
  | destroy c _ hc ih => exact ih.destroyed hc
  | setParent change _ hc ih => exact ih.setParent hc
  | operate op _ hop hc ih => exact ih.carries hop hc
  | aside _ hxy ih => exact ih.aside hxy

/-- A link says what the parent of a surface is, and both are toplevels. A parent that no link
accounts for was last set by the shell of its own accord, and where the shell never sets one the
links are all there is to parents. -/
theorem declared_parents (h : Session s ks) :
    (∀ i r l, s.exchange.imports.find? i = some r → l ∈ r.children →
      ∃ e t, r.source = some e ∧ s.exchange.exports.find? e = some t ∧
        s.surfaces.role l.surface = some .toplevel ∧
        s.surfaces.role t.surface = some .toplevel ∧
        s.surfaces.parent? l.surface = some t.surface) ∧
    (∀ c p, s.surfaces.parent? c = some p → ¬ s.exchange.IsChild c →
      lastSetter ks c = some .shell) ∧
    ((∀ k ∈ ks, k.setter ≠ .shell) → ∀ c p,
      s.surfaces.parent? c = some p ↔ s.exchange.IsChildOf c p) := by
  have hin := h.inStep
  have hcoherent := hin.sound.coherent
  have hchosen : ∀ c p, s.surfaces.parent? c = some p → ¬ s.exchange.IsChild c →
      lastSetter ks c = some .shell := by
    intro c p hc hn
    exact (hin.chosen hc).resolve_left fun hq => hn ((hcoherent.isChild_iff c).mpr hq)
  refine ⟨fun i r l hi hl => ?_, hchosen, fun hnever c p => ⟨fun hc => ?_, fun hc => ?_⟩⟩
  · obtain ⟨e, t, hs, he, hc⟩ := hcoherent.isChildOf_of_link hi hl
    obtain ⟨hrole, hparent⟩ := hin.declared hc id id
    exact ⟨e, t, hs, he, hrole, hin.exported he id, hparent⟩
  · by_contra hn
    have hunlinked : ¬ s.exchange.IsChild c := by
      intro hchild
      obtain ⟨q, hq⟩ := (hcoherent.isChild_iff c).mp hchild
      have hpq := hc.symm.trans (hin.declared hq id id).2
      exact hn (Option.some.inj hpq ▸ hq)
    obtain ⟨k, hk, hshell⟩ := mem_of_lastSetter (hchosen c p hc hunlinked)
    exact hnever k hk hshell
  · exact (hin.declared hc id id).2

/-- A shell with three toplevels and the exchange of `rehearsalStart`. -/
def household : Shell :=
  { exchange := rehearsalStart.1
    surfaces := (((SurfaceStore.empty.create (some .toplevel)).2.create (some .toplevel)).2.create
      (some .toplevel)).2
    horizon := 3 }

theorem session_household : Session household [] :=
  (((Session.start (Display.empty.connect.2.connect.2) {}
    (.scripted [some ⟨"first"⟩, some ⟨"second"⟩, some ⟨"third"⟩] true) () 3).create
      (some .toplevel)).create (some .toplevel)).create (some .toplevel)

/-- Client 1 exports surface 1 and client 2 declares surface 2 its child. The shell itself then
gives surface 3 the same parent. -/
theorem declared_parents_household :
    (∃ s ks, Session s ks ∧ (∀ k ∈ ks, k.setter ≠ .shell) ∧ s.exchange.IsChildOf ⟨2⟩ ⟨1⟩) ∧
    ∃ s ks, Session s ks ∧ s.exchange.IsChild ⟨2⟩ ∧ s.surfaces.parent? ⟨2⟩ = some ⟨1⟩ ∧
      ¬ s.exchange.IsChild ⟨3⟩ ∧ s.surfaces.parent? ⟨3⟩ = some ⟨1⟩ ∧
      lastSetter ks ⟨3⟩ = some .shell := by
  have hbound := session_household.operate (.bindExporter ⟨1⟩) (fun _ => nofun)
    ⟨_, 1, rehearsalStart.2, _, _, _, rfl, rfl⟩
  have hboth := hbound.operate (.bindImporter ⟨2⟩) (fun _ => nofun)
    ⟨_, 1, rehearsalStart.2, _, _, _, rfl, rfl⟩
  have hexported := hboth.operate (.exportSurface ⟨1⟩ ⟨1⟩) (fun _ => nofun)
    ⟨_, 1, rehearsalStart.2, _, _, _, rfl, rfl⟩
  have himported := hexported.operate (.importHandle ⟨2⟩ "first") (fun _ => nofun)
    ⟨_, 1, rehearsalStart.2, _, _, _, rfl, rfl⟩
  have hdeclared := himported.operate (.setParentOf ⟨⟨2⟩, 4⟩ ⟨2⟩) (fun _ => nofun)
    ⟨_, 1, rehearsalStart.2, _, _, _, rfl, rfl⟩
  have hset := hdeclared.setParent ⟨⟨3⟩, some ⟨1⟩⟩ ⟨_, 1, rehearsalStart.2, _, _, _, rfl, rfl⟩
  refine ⟨⟨_, _, hdeclared, by decide, ?_⟩, _, _, hset, ?_, rfl, ?_, rfl, ?_⟩
  · exact (hdeclared.declared_parents.2.2 (by decide) ⟨2⟩ ⟨1⟩).mp rfl
  · exact ⟨⟨⟨2⟩, 4⟩, _, _, rfl, List.mem_cons_self, rfl⟩
  · exact not_isChild_of_linksOn_eq_nil rfl
  · exact hset.declared_parents.2.1 ⟨3⟩ ⟨1⟩ rfl (not_isChild_of_linksOn_eq_nil rfl)

end Session

end SurfaceExchange
