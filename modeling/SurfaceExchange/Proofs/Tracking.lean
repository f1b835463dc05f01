import SurfaceExchange.Proofs.Linking

/-!
# Who holds what

Ownership is on record three times: in the tracker, in the objects and their
registries, and in the tables of inert identifiers. `Registered` says that the
three agree, that an object is live or inert but not both, and that no object
has a number that is still to be given away. Objects come (`Registered.add`),
become inert (`Registered.keepAll`) and go (`Registered.forget`).
-/

namespace SurfaceExchange

namespace ObjectId

/-- The number given to an object when it was made. -/
def number : ObjectId → Nat
  | .exporter id => id.val
  | .exported id => id.serial
  | .importer id => id.val
  | .imported id => id.serial

/-- The registry that an object was made through. -/
def registry? : ObjectId → Option ObjectId
  | .exporter _ => none
  | .exported id => some (.exporter id.exporter)
  | .importer _ => none
  | .imported id => some (.importer id.importer)

end ObjectId

namespace Ownership

/-- Records that objects were given up, one after the other. -/
def untrackAll (w : Ownership) (os : List (ClientId × ObjectId)) : Ownership :=
  os.foldl (fun w o => w.untrack o.1 o.2) w

theorem owns_untrackAll (w : Ownership) (os : List (ClientId × ObjectId)) (c : ClientId)
    (o : ObjectId) : (w.untrackAll os).owns c o = (decide ((c, o) ∉ os) && w.owns c o) := by
  induction os generalizing w with
  | nil => simp [untrackAll]
  | cons a os ih =>
    have hstep : (w.untrackAll (a :: os)).owns c o =
        (decide ((c, o) ∉ os) && (w.untrack a.1 a.2).owns c o) := ih _
    have hiff : (c, o) = a ↔ c = a.1 ∧ o = a.2 := Prod.ext_iff
    rw [hstep, owns_untrack]
    by_cases h1 : (c, o) ∈ os <;> by_cases h2 : (c, o) = a <;> simp [h1, h2, ← hiff]

/-- A client that is not on record has nothing to give up. -/
theorem untrack_of_absent {w : Ownership} {c : ClientId} (h : w.clients.find? c = none)
    (o : ObjectId) : w.untrack c o = w := by
  rw [untrack]
  congr 1
  apply Table.ext_find?
  intro c'
  rw [Table.find?_modify]
  split
  · next hc => rw [hc, h]; rfl
  · rfl

theorem untrackAll_of_absent {w : Ownership} {c : ClientId} (h : w.clients.find? c = none)
    {os : List (ClientId × ObjectId)} (hos : ∀ o ∈ os, o.1 = c) : w.untrackAll os = w := by
  induction os with
  | nil => rfl
  | cons o os ih =>
    have ho : o.1 = c := hos o List.mem_cons_self
    rw [untrackAll, List.foldl_cons, ho, untrack_of_absent h]
    exact ih fun o' ho' => hos o' (List.mem_cons_of_mem _ ho')

end Ownership

namespace Exchange

variable {x y : Exchange}

/-- The client of a live object. -/
def clientOf? (x : Exchange) : ObjectId → Option ClientId
  | .exporter id => (x.exporters.find? id).map Registry.client
  | .exported id => (x.exports.find? id).map Export.client
  | .importer id => (x.importers.find? id).map Registry.client
  | .imported id => (x.imports.find? id).map Import.client

/-- The client that still holds an inert object. -/
def inertClient? (x : Exchange) : ObjectId → Option ClientId
  | .exporter _ => none
  | .exported id => x.inertExports.find? id
  | .importer _ => none
  | .imported id => x.inertImports.find? id

/-- Tracker, registries and inert identifiers agree. -/
structure Registered (x : Exchange) : Prop where
  owns_iff : ∀ c o, x.ownership.owns c o = true ↔ x.clientOf? o = some c ∨ x.inertClient? o = some c
  apart : ∀ {c o}, x.clientOf? o = some c → x.inertClient? o = none
  registry : ∀ {c o q}, x.clientOf? o = some c → o.registry? = some q → x.clientOf? q = some c
  fresh : ∀ {c o}, x.ownership.owns c o = true → o.number < x.nextId

namespace Registered

theorem owns_of_live (h : x.Registered) {c : ClientId} {o : ObjectId}
    (ho : x.clientOf? o = some c) : x.ownership.owns c o = true :=
  (h.owns_iff c o).mpr (Or.inl ho)

theorem owns_of_inert (h : x.Registered) {c : ClientId} {o : ObjectId}
    (ho : x.inertClient? o = some c) : x.ownership.owns c o = true :=
  (h.owns_iff c o).mpr (Or.inr ho)

/-- The number that comes next names nothing. -/
theorem clientOf?_eq_none_of_number (h : x.Registered) {o : ObjectId} (ho : o.number = x.nextId) :
    x.clientOf? o = none := by
  cases hc : x.clientOf? o with
  | none => rfl
  | some c => exact absurd (h.fresh (h.owns_of_live hc)) (by omega)

theorem inertClient?_eq_none_of_number (h : x.Registered) {o : ObjectId}
    (ho : o.number = x.nextId) : x.inertClient? o = none := by
  cases hc : x.inertClient? o with
  | none => rfl
  | some c => exact absurd (h.fresh (h.owns_of_inert hc)) (by omega)

/-- Nothing that is on record changes. -/
theorem congr (h : x.Registered) (hc : ∀ o, y.clientOf? o = x.clientOf? o)
    (hi : ∀ o, y.inertClient? o = x.inertClient? o) (hw : y.ownership = x.ownership)
    (hn : y.nextId = x.nextId) : y.Registered where
  owns_iff := fun c o => by rw [hw, hc, hi]; exact h.owns_iff c o
  apart := fun ho => by rw [hi]; exact h.apart (hc _ ▸ ho)
  registry := fun ho hq => by rw [hc]; exact h.registry (hc _ ▸ ho) hq
  fresh := fun ho => by rw [hn]; exact h.fresh (hw ▸ ho)

/-- A client gets an object under the next number. -/
theorem add (h : x.Registered) {c : ClientId} {o : ObjectId} (hnumber : o.number = x.nextId)
    (hregistry : ∀ q, o.registry? = some q → x.clientOf? q = some c)
    (hc : ∀ o', y.clientOf? o' = if o' = o then some c else x.clientOf? o')
    (hi : ∀ o', y.inertClient? o' = x.inertClient? o')
    (hw : y.ownership = x.ownership.track c o) (hn : y.nextId = x.nextId + 1) :
    y.Registered where
  owns_iff := by
    intro c' o'
    rw [hw, Ownership.owns_track, hc, hi, Bool.or_eq_true, decide_eq_true_eq, h.owns_iff]
    by_cases ho : o' = o
    · subst ho
      simp [h.clientOf?_eq_none_of_number hnumber, h.inertClient?_eq_none_of_number hnumber]
    · simp [ho, Ne.symm ho]
  apart := by
    intro c' o' ho
    rw [hc] at ho
    rw [hi]
    split at ho
    · next heq => rw [heq, h.inertClient?_eq_none_of_number hnumber]
    · exact h.apart ho
  registry := by
    intro c' o' q ho hq
    have hne : ∀ {q'}, x.clientOf? q' = some c' → q' ≠ o := by
      rintro q' hq' rfl
      rw [h.clientOf?_eq_none_of_number hnumber] at hq'
      cases hq'
    rw [hc] at ho
    split at ho
    · next heq =>
      cases ho
      have hq' := hregistry q (heq ▸ hq)
      rw [hc, if_neg (hne hq'), hq']
    · have hq' := h.registry ho hq
      rw [hc, if_neg (hne hq'), hq']
  fresh := by
    intro c' o' ho
    rw [hw, Ownership.owns_track, Bool.or_eq_true, decide_eq_true_eq] at ho
    rw [hn]
    rcases ho with ⟨-, rfl⟩ | ho
    · omega
    · have := h.fresh ho
      omega

/-- Objects go for good: they leave the registries, the inert identifiers and the tracker. -/
theorem forget (h : x.Registered) (gone : ClientId → ObjectId → Prop)
    (hc : ∀ c o, y.clientOf? o = some c ↔ x.clientOf? o = some c ∧ ¬ gone c o)
    (hi : ∀ c o, y.inertClient? o = some c ↔ x.inertClient? o = some c ∧ ¬ gone c o)
    (hw : ∀ c o, y.ownership.owns c o = true ↔ x.ownership.owns c o = true ∧ ¬ gone c o)
    (hregistry : ∀ {c o q}, x.clientOf? o = some c → o.registry? = some q → gone c q → gone c o)
    (hn : y.nextId = x.nextId) : y.Registered where
  owns_iff := by
    intro c o
    rw [hw, hc, hi, h.owns_iff]
    constructor
    · rintro ⟨ho | ho, hg⟩
      · exact Or.inl ⟨ho, hg⟩
      · exact Or.inr ⟨ho, hg⟩
    · rintro (⟨ho, hg⟩ | ⟨ho, hg⟩)
      · exact ⟨Or.inl ho, hg⟩
      · exact ⟨Or.inr ho, hg⟩
  apart := by
    intro c o ho
    have hx := h.apart ((hc c o).mp ho).1
    cases hy : y.inertClient? o with
    | none => rfl
    | some c' =>
      have := ((hi c' o).mp hy).1
      rw [hx] at this
      cases this
  registry := by
    intro c o q ho hq
    obtain ⟨ho, hg⟩ := (hc c o).mp ho
    exact (hc c q).mpr ⟨h.registry ho hq, fun hgq => hg (hregistry ho hq hgq)⟩
  fresh := by
    intro c o ho
    rw [hn]
    exact h.fresh ((hw c o).mp ho).1

/-- An object has one owner. -/
theorem owner_unique (h : x.Registered) {c d : ClientId} {o : ObjectId}
    (hc : x.ownership.owns c o = true) (hd : x.ownership.owns d o = true) : c = d := by
  rcases (h.owns_iff c o).mp hc with hc | hc <;> rcases (h.owns_iff d o).mp hd with hd | hd
  · exact Option.some.inj (hc.symm.trans hd)
  · rw [h.apart hc] at hd
    cases hd
  · rw [h.apart hd] at hc
    cases hc
  · exact Option.some.inj (hc.symm.trans hd)

/-- An object that its owner gives up is nobody's, and no other object changes hands. -/
theorem owns_untrack_iff (h : x.Registered) {c : ClientId} {o : ObjectId}
    (hc : x.ownership.owns c o = true) (d : ClientId) (o' : ObjectId) :
    (x.ownership.untrack c o).owns d o' = true ↔ x.ownership.owns d o' = true ∧ o' ≠ o := by
  rw [Ownership.owns_untrack, Bool.and_eq_true, decide_eq_true_eq]
  constructor
  · rintro ⟨hne, hd⟩
    exact ⟨hd, fun ho => hne ⟨h.owner_unique hd (ho ▸ hc), ho⟩⟩
  · rintro ⟨hd, hne⟩
    exact ⟨fun ho => hne ho.2, hd⟩

/-- An object that is inert is not live. -/
theorem dead_of_inert (h : x.Registered) {c : ClientId} {o : ObjectId}
    (hc : x.inertClient? o = some c) : x.clientOf? o = none := by
  cases hlive : x.clientOf? o with
  | none => rfl
  | some d =>
    rw [h.apart hlive] at hc
    cases hc

/-- One object goes for good. -/
theorem forgetOne (h : x.Registered) {c : ClientId} {q : ObjectId}
    (hq : x.ownership.owns c q = true)
    (hempty : ∀ {o}, ObjectId.registry? o = some q → x.clientOf? o = none)
    (hc : ∀ o, y.clientOf? o = if o = q then none else x.clientOf? o)
    (hi : ∀ o, y.inertClient? o = if o = q then none else x.inertClient? o)
    (hw : y.ownership = x.ownership.untrack c q) (hn : y.nextId = x.nextId) : y.Registered := by
  refine h.forget (fun _ o => o = q) (fun d o => ?_) (fun d o => ?_) (fun d o => ?_)
    (fun ho hq hg => ?_) hn
  · rw [hc]
    by_cases ho : o = q <;> simp [ho]
  · rw [hi]
    by_cases ho : o = q <;> simp [ho]
  · rw [hw]
    exact h.owns_untrack_iff hq d o
  · rw [hempty (hg ▸ hq)] at ho
    cases ho

/-- Objects that are no registries go for good. -/
theorem forgetAll (h : x.Registered) {os : List (ClientId × ObjectId)}
    (hlive : ∀ {c o}, (c, o) ∈ os → x.clientOf? o = some c)
    (hregistry : ∀ {c o q}, ObjectId.registry? o = some q → (c, q) ∉ os)
    (hc : ∀ c o, y.clientOf? o = some c ↔ x.clientOf? o = some c ∧ (c, o) ∉ os)
    (hi : ∀ o, y.inertClient? o = x.inertClient? o)
    (hw : y.ownership = x.ownership.untrackAll os) (hn : y.nextId = x.nextId) : y.Registered := by
  refine h.forget (fun c o => (c, o) ∈ os) hc (fun c o => ?_) (fun c o => ?_)
    (fun _ hq hg => absurd hg (hregistry hq)) hn
  · rw [hi]
    refine ⟨fun ho => ⟨ho, fun hg => ?_⟩, And.left⟩
    rw [h.apart (hlive hg)] at ho
    cases ho
  · rw [hw, Ownership.owns_untrackAll, Bool.and_eq_true, decide_eq_true_eq]
    exact And.comm

/-- Objects that are no registries become inert: they leave the registries, and their clients
keep the identifiers. -/
theorem keepAll (h : x.Registered) {os : List (ClientId × ObjectId)}
    (hlive : ∀ {c o}, (c, o) ∈ os → x.clientOf? o = some c)
    (hregistry : ∀ {c o q}, ObjectId.registry? o = some q → (c, q) ∉ os)
    (hc : ∀ c o, y.clientOf? o = some c ↔ x.clientOf? o = some c ∧ (c, o) ∉ os)
    (hi : ∀ c o, y.inertClient? o = some c ↔ x.inertClient? o = some c ∨ (c, o) ∈ os)
    (hw : y.ownership = x.ownership) (hn : y.nextId = x.nextId) : y.Registered where
  owns_iff := by
    intro c o
    rw [hw, hc, hi, h.owns_iff]
    by_cases ho : (c, o) ∈ os
    · simp [ho, hlive ho]
    · simp [ho]
  apart := by
    intro c o ho
    obtain ⟨ho, hn⟩ := (hc c o).mp ho
    cases hy : y.inertClient? o with
    | none => rfl
    | some c' =>
      rcases (hi c' o).mp hy with hx | hm
      · rw [h.apart ho] at hx
        cases hx
      · have hc' := hlive hm
        rw [ho] at hc'
        cases hc'
        exact absurd hm hn
  registry := by
    intro c o q ho hq
    exact (hc c q).mpr ⟨h.registry ((hc c o).mp ho).1 hq, hregistry hq⟩
  fresh := by
    intro c o ho
    rw [hn]
    exact h.fresh (hw ▸ ho)

end Registered

/-! ## Live objects through the cascades -/

/-- The objects that go when exports go. -/
def exportObjects (ps : List (ExportId × Export)) : List (ClientId × ObjectId) :=
  ps.map (fun p => (p.2.client, .exported p.1))

/-- The objects that go when imports go. -/
def importObjects (ps : List (ImportId × Import)) : List (ClientId × ObjectId) :=
  ps.map (fun p => (p.2.client, .imported p.1))

/-- Exports that go take no other object with them. -/
theorem clientOf?_dropExports {ps : List (ExportId × Export)}
    (hps : ∀ p ∈ ps, x.exports.find? p.1 = some p.2) (c : ClientId) (o : ObjectId) :
    (x.dropExports ps).clientOf? o = some c ↔
      x.clientOf? o = some c ∧ (c, o) ∉ exportObjects ps := by
  cases o with
  | exporter id => simp [clientOf?, dropExports, sever, exportObjects]
  | importer id => simp [clientOf?, dropExports, sever, exportObjects]
  | imported id =>
    have hf := Coherent.find?_imports_dropExports (x := x) ps id
    simp only [clientOf?, hf, Option.map_map]
    have hclient : (Import.client ∘ fun r => if id ∈ importersOf ps then r.orphan else r) =
        Import.client := by
      funext r
      simp only [Function.comp_apply]
      split <;> rfl
    rw [hclient]
    simp [exportObjects]
  | exported id =>
    simp only [clientOf?, Coherent.find?_exports_dropExports, exportObjects, List.mem_map,
      Prod.mk.injEq, ObjectId.exported.injEq]
    constructor
    · intro ho
      split at ho
      · cases ho
      · next hn =>
        refine ⟨ho, ?_⟩
        rintro ⟨p, hp, -, hid⟩
        exact hn ⟨p, hp, hid⟩
    · rintro ⟨ho, hn⟩
      rw [if_neg]
      · exact ho
      · rintro ⟨p, hp, rfl⟩
        rw [hps p hp] at ho
        exact hn ⟨p, hp, Option.some.inj ho, rfl⟩

/-- Imports that go take no other object with them. -/
theorem clientOf?_dropImports {ps : List (ImportId × Import)}
    (hps : ∀ p ∈ ps, x.imports.find? p.1 = some p.2) (c : ClientId) (o : ObjectId) :
    (x.dropImports ps).clientOf? o = some c ↔
      x.clientOf? o = some c ∧ (c, o) ∉ importObjects ps := by
  cases o with
  | exporter id => simp [clientOf?, dropImports, shed, importObjects]
  | importer id => simp [clientOf?, dropImports, shed, importObjects]
  | exported id =>
    have hf := Coherent.find?_exports_dropImports (x := x) ps id
    simp only [clientOf?, hf, Option.map_map]
    simp [importObjects, Function.comp_def]
  | imported id =>
    simp only [clientOf?, Coherent.find?_imports_dropImports, importObjects, List.mem_map,
      Prod.mk.injEq, ObjectId.imported.injEq]
    constructor
    · intro ho
      split at ho
      · cases ho
      · next hn =>
        refine ⟨ho, ?_⟩
        rintro ⟨p, hp, -, hid⟩
        exact hn ⟨p, hp, hid⟩
    · rintro ⟨ho, hn⟩
      rw [if_neg]
      · exact ho
      · rintro ⟨p, hp, rfl⟩
        rw [hps p hp] at ho
        exact hn ⟨p, hp, Option.some.inj ho, rfl⟩

theorem clientOf?_disown (c : SurfaceId) (ts : List Subscription) (o : ObjectId) :
    (x.disown c ts).clientOf? o = x.clientOf? o := by
  cases o with
  | imported id =>
    simp only [clientOf?, find?_imports_disown, Option.map_map]
    rfl
  | _ => rfl

theorem clientOf?_attach (i : ImportId) (c : SurfaceId) (o : ObjectId) :
    (x.attach i c).clientOf? o = x.clientOf? o := by
  cases o with
  | imported id =>
    simp only [clientOf?, find?_imports_attach]
    split
    · rw [Option.map_map]
      rfl
    · rfl
  | _ => rfl

/-! ## What is left of objects -/

theorem leaveExports_nothing (ps : List (ExportId × Export)) :
    x.leaveExports ps .nothing =
      { x with ownership := x.ownership.untrackAll (exportObjects ps) } := by
  induction ps generalizing x with
  | nil => rfl
  | cons p ps ih => exact ih

theorem leaveImports_nothing (ps : List (ImportId × Import)) :
    x.leaveImports ps .nothing =
      { x with ownership := x.ownership.untrackAll (importObjects ps) } := by
  induction ps generalizing x with
  | nil => rfl
  | cons p ps ih => exact ih

/-- Files several entries, one after the other. -/
def fileAll {κ α : Type} [KeyOrder κ] (t : Table κ α) (es : List (κ × α)) : Table κ α :=
  es.foldl (fun t e => t.insert e.1 e.2) t

theorem leaveExports_inert (ps : List (ExportId × Export)) :
    x.leaveExports ps .inert = { x with
      inertExports := fileAll x.inertExports (ps.map (fun p => (p.1, p.2.client))) } := by
  induction ps generalizing x with
  | nil => rfl
  | cons p ps ih => exact ih

theorem leaveImports_inert (ps : List (ImportId × Import)) :
    x.leaveImports ps .inert = { x with
      inertImports := fileAll x.inertImports (ps.map (fun p => (p.1, p.2.client))) } := by
  induction ps generalizing x with
  | nil => rfl
  | cons p ps ih => exact ih

/-- What is left of exports is seen in the inert identifiers and the tracker only. -/
theorem leaveExports_eq (ps : List (ExportId × Export)) (left : Remnant) :
    ∃ I w, x.leaveExports ps left = { x with inertExports := I, ownership := w } := by
  cases left with
  | nothing => exact ⟨_, _, leaveExports_nothing ps⟩
  | inert => exact ⟨_, _, leaveExports_inert ps⟩

/-- What is left of imports is seen in the inert identifiers and the tracker only. -/
theorem leaveImports_eq (ps : List (ImportId × Import)) (left : Remnant) :
    ∃ I w, x.leaveImports ps left = { x with inertImports := I, ownership := w } := by
  cases left with
  | nothing => exact ⟨_, _, leaveImports_nothing ps⟩
  | inert => exact ⟨_, _, leaveImports_inert ps⟩

/-- Entries under keys that were free and are not given twice are all found. -/
theorem find?_fileAll {κ α : Type} [KeyOrder κ] [DecidableEq κ] (t : Table κ α)
    (es : List (κ × α)) (hn : (es.map Prod.fst).Nodup)
    (hfree : ∀ e ∈ es, t.find? e.1 = none) (k : κ) (a : α) :
    (fileAll t es).find? k = some a ↔ t.find? k = some a ∨ (k, a) ∈ es := by
  induction es generalizing t with
  | nil => simp [fileAll]
  | cons e es ih =>
    obtain ⟨he, hes⟩ := List.nodup_cons.mp hn
    have hne : ∀ e' ∈ es, e.1 ≠ e'.1 := fun e' he' heq => he (List.mem_map.mpr ⟨e', he', heq.symm⟩)
    have hfree' : ∀ e' ∈ es, (t.insert e.1 e.2).find? e'.1 = none := fun e' he' => by
      rw [Table.find?_insert_of_ne (hne e' he')]
      exact hfree e' (List.mem_cons_of_mem _ he')
    have hstep : (fileAll t (e :: es)).find? k = some a ↔
        (t.insert e.1 e.2).find? k = some a ∨ (k, a) ∈ es := ih _ hes hfree'
    rw [hstep, Table.find?_insert, List.mem_cons]
    by_cases hk : e.1 = k
    · subst hk
      have hkfree := hfree e List.mem_cons_self
      constructor
      · rintro (ha | ha)
        · rw [if_pos rfl] at ha
          exact Or.inr (Or.inl (Prod.ext rfl (Option.some.inj ha).symm))
        · exact Or.inr (Or.inr ha)
      · rintro (ha | ha | ha)
        · rw [hkfree] at ha
          cases ha
        · exact Or.inl (by rw [if_pos rfl, ← ha])
        · exact Or.inr ha
    · have hne : (k, a) ≠ e := fun heq => hk (by rw [← heq])
      simp [hk, hne]

/-- Of entries that are filed by client each is found with its client. -/
theorem find?_fileAll_client {κ α : Type} [KeyOrder κ] [DecidableEq κ] {t : Table κ ClientId}
    {ps : List (κ × α)} (client : α → ClientId) (hn : (ps.map Prod.fst).Nodup)
    (hfree : ∀ p ∈ ps, t.find? p.1 = none) (k : κ) (c : ClientId) :
    (fileAll t (ps.map (fun p => (p.1, client p.2)))).find? k = some c ↔
      t.find? k = some c ∨ ∃ a, (k, a) ∈ ps ∧ client a = c := by
  have hkeys : ((ps.map (fun p => (p.1, client p.2))).map Prod.fst).Nodup := by
    rwa [List.map_map]
  have hfree' : ∀ q ∈ ps.map (fun p => (p.1, client p.2)), t.find? q.1 = none := by
    intro q hq
    obtain ⟨p, hp, rfl⟩ := List.mem_map.mp hq
    exact hfree p hp
  rw [find?_fileAll t _ hkeys hfree']
  simp

/-- Whatever is found among entries that were filed one after the other was there before or is
one of them. -/
theorem of_find?_fileAll {κ α : Type} [KeyOrder κ] [DecidableEq κ] {t : Table κ α}
    {es : List (κ × α)} {k : κ} {a : α} (h : (fileAll t es).find? k = some a) :
    t.find? k = some a ∨ (k, a) ∈ es := by
  induction es generalizing t with
  | nil => exact Or.inl h
  | cons e es ih =>
    rcases ih h with ht | hm
    · rcases Table.of_find?_insert ht with ⟨rfl, rfl⟩ | ht
      · exact Or.inr List.mem_cons_self
      · exact Or.inl ht
    · exact Or.inr (List.mem_cons_of_mem _ hm)

/-! ## The tracker when objects are retired -/

section Retired

variable (h : x.Coherent)

include h

/-- An export that becomes inert is still its client's. -/
theorem ownership_retireExport_inert (e : ExportId) :
    (x.retireExport e .inert).ownership = x.ownership := by
  cases he : x.exports.find? e with
  | none => simp only [retireExport, he]
  | some s =>
    rw [retireExport_eq h he, leaveExports_inert]
    rfl

theorem ownership_retireExport_nothing {e : ExportId} {s : Export}
    (he : x.exports.find? e = some s) : (x.retireExport e .nothing).ownership =
      x.ownership.untrack s.client (.exported e) := by
  rw [retireExport_eq h he, leaveExports_nothing]
  rfl

theorem ownership_retireImport_nothing {i : ImportId} {r : Import}
    (hi : x.imports.find? i = some r) : (x.retireImport i .nothing).ownership =
      x.ownership.untrack r.client (.imported i) := by
  rw [retireImport_eq h hi, leaveImports_nothing]
  rfl

/-- Of an exporter's exports the client keeps the identifiers. -/
theorem ownership_retireExporter_inert {p : ExporterId} {g : Registry}
    (hg : x.exporters.find? p = some g) : (x.retireExporter p .inert).ownership =
      x.ownership.untrack g.client (.exporter p) := by
  rw [retireExporter_eq h hg, leaveExports_inert]
  rfl

/-- Of an importer's imports the client keeps the identifiers. -/
theorem ownership_retireImporter_inert {m : ImporterId} {g : Registry}
    (hg : x.importers.find? m = some g) : (x.retireImporter m .inert).ownership =
      x.ownership.untrack g.client (.importer m) := by
  rw [retireImporter_eq h hg, leaveImports_inert]
  rfl

end Retired

end Exchange

end SurfaceExchange
