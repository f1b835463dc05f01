import SurfaceExchange.Exchange.Departure
import SurfaceExchange.Proofs.Links

/-!
# Cascades in closed form

Every cascade is a fold that calls itself through the delivery of events.
Here each is written without one: `sever` is what the exports that go do to
imports, `shed` is what the imports that go do to exports, and a registry
does both at once what its objects would do one after the other
(`retireExport_eq`, `retireExporter_eq`, `retireImport_eq`,
`retireImporter_eq`). That no cascade strays is `dropLink_eq`: on a coherent
exchange nobody else hears that a link is dropped.
-/

namespace SurfaceExchange

namespace Table

variable {κ α : Type} [KeyOrder κ] [DecidableEq κ] {t : Table κ α}

theorem modify_of_find?_eq_none {k : κ} (h : t.find? k = none) (f : α → α) : t.modify k f = t := by
  apply ext_find?
  intro k'
  rw [find?_modify]
  split
  · next hk => rw [hk, h]; rfl
  · rfl

theorem mem_toList_filter_iff (p : κ → α → Bool) (e : κ × α) :
    e ∈ (t.filter p).toList ↔ t.find? e.1 = some e.2 ∧ p e.1 e.2 = true := by
  rw [show e = (e.1, e.2) from rfl, mem_toList_iff, find?_filter, Option.filter_eq_some_iff]

/-- What is not among the entries that pass a test does not pass it. -/
theorem filter_not_mem (p : κ → Bool) :
    t.filter (fun k _ => decide (k ∉ (t.filter (fun k _ => p k)).toList.map Prod.fst)) =
      t.filter (fun k _ => !p k) := by
  apply ext_find?
  intro k
  rw [find?_filter, find?_filter]
  cases hf : t.find? k with
  | none => rfl
  | some a =>
    have hiff : k ∈ (t.filter (fun k _ => p k)).toList.map Prod.fst ↔ p k = true := by
      rw [List.mem_map]
      constructor
      · rintro ⟨e, he, rfl⟩
        exact ((mem_toList_filter_iff _ e).mp he).2
      · exact fun hp => ⟨(k, a), (mem_toList_filter_iff _ _).mpr ⟨hf, hp⟩, rfl⟩
    simp only [Option.filter_some, hiff]
    cases p k <;> rfl

end Table

namespace Exchange

variable {x y : Exchange}

/-! ## Dropping links -/

/-- The links that imports have, in order. -/
def linksOf (x : Exchange) (is : List ImportId) : List ChildLink :=
  is.flatMap (fun i => ((x.imports.find? i).map Import.children).getD [])

theorem mem_linksOf_iff (is : List ImportId) (l : ChildLink) :
    l ∈ x.linksOf is ↔ ∃ i ∈ is, ∃ r, x.imports.find? i = some r ∧ l ∈ r.children := by
  rw [linksOf, List.mem_flatMap]
  constructor
  · rintro ⟨i, hi, hl⟩
    cases hf : x.imports.find? i with
    | none => rw [hf] at hl; cases hl
    | some r => rw [hf] at hl; exact ⟨i, hi, r, hf, hl⟩
  · rintro ⟨i, hi, r, hf, hl⟩
    exact ⟨i, hi, by rw [hf]; exact hl⟩

theorem linksOf_append (is is' : List ImportId) :
    x.linksOf (is ++ is') = x.linksOf is ++ x.linksOf is' :=
  List.flatMap_append

/-- The links of imports that are the same are the same. -/
theorem linksOf_congr {is : List ImportId}
    (h : ∀ i ∈ is, y.imports.find? i = x.imports.find? i) : y.linksOf is = x.linksOf is := by
  induction is with
  | nil => rfl
  | cons i is ih =>
    have ih := ih fun j hj => h j (List.mem_cons_of_mem _ hj)
    simp only [linksOf, List.flatMap_cons] at ih ⊢
    rw [h i List.mem_cons_self, ih]

/-- What nobody listens to is delivered to nobody. -/
theorem deliver_of_silent {c : SurfaceId} {e : SurfaceEvent}
    (h : ∀ {t w}, t.surface = c → t.event = e → ¬ x.subscriptions.Listens t w)
    (act : Exchange → Watcher → Exchange) : x.deliver c e act = x := by
  have hn : x.subscriptions.snapshot c e = [] := by
    rw [List.eq_nil_iff_forall_not_mem]
    rintro ⟨t, w⟩ hm
    obtain ⟨hs, he, hw⟩ := (Subscriptions.mem_snapshot_iff c e t w).mp hm
    exact h hs he hw
  rw [deliver, hn]
  rfl

theorem release_eq (l : ChildLink) :
    x.release l = { x with subscriptions := x.subscriptions.cancelAll l.tokens } := rfl

/-- A link that is dropped ends its own subscriptions and clears the parent, nothing else. -/
theorem dropLink_eq (wf : x.subscriptions.WellFormed) {l : ChildLink}
    (h : x.subscriptions.OnlyHears l) :
    x.dropLink l = { x with
      subscriptions := x.subscriptions.cancelAll l.tokens
      parentChanges := x.parentChanges ++ [l.parting] } := by
  rw [dropLink, release_eq, setParent, tell, parentChanged, deliver_of_silent]
  · rfl
  · intro t w hs he hw
    obtain ⟨hn, hw⟩ := (Subscriptions.listens_cancelAll wf l.tokens t w).mp hw
    exact hn (by simp [ChildLink.tokens, h t w hw hs he])

theorem dropLinks_eq (wf : x.subscriptions.WellFormed) {ls : List ChildLink}
    (h : ∀ l ∈ ls, x.subscriptions.OnlyHears l) :
    x.dropLinks ls = { x with
      subscriptions := x.subscriptions.cancelAll (ls.flatMap ChildLink.tokens)
      parentChanges := x.parentChanges ++ ls.map ChildLink.parting } := by
  induction ls generalizing x with
  | nil => simp [dropLinks, Subscriptions.cancelAll]
  | cons l ls ih =>
    have hrest : ∀ m ∈ ls, (x.subscriptions.cancelAll l.tokens).OnlyHears m := fun m hm =>
      (h m (List.mem_cons_of_mem _ hm)).mono fun t w ht =>
        ((Subscriptions.listens_cancelAll wf l.tokens t w).mp ht).2
    rw [dropLinks, List.foldl_cons, dropLink_eq wf (h l List.mem_cons_self), ← dropLinks, ih]
    · simp only [List.flatMap_cons, List.map_cons, Subscriptions.cancelAll_append,
        List.append_assoc, List.singleton_append]
    · exact wf.cancelAll l.tokens
    · exact hrest

/-! ## Imports that lose their source -/

/-- The event that tells the client of an import that its source is gone. -/
def notice? (x : Exchange) (i : ImportId) : Option Delivery :=
  (x.imports.find? i).map (fun r => ⟨r.client, .destroyed i⟩)

/-- Imports lose their source: their links are dropped and their clients are told. The tokens
cancelled are listed apart, for those of exports stand among those of links. -/
def sever (x : Exchange) (is : List ImportId) (ts : List Subscription) : Exchange :=
  { x with
    imports := x.imports.mapValues (fun i r => if i ∈ is then r.orphan else r)
    subscriptions := x.subscriptions.cancelAll ts
    events := x.events ++ is.filterMap x.notice?
    parentChanges := x.parentChanges ++ (x.linksOf is).map ChildLink.parting }

theorem find?_imports_sever (is : List ImportId) (ts : List Subscription) (i : ImportId) :
    (x.sever is ts).imports.find? i =
      (x.imports.find? i).map (fun r => if i ∈ is then r.orphan else r) :=
  Table.find?_mapValues _ _ _

theorem find?_imports_sever_of_not_mem {is : List ImportId} (ts : List Subscription)
    {i : ImportId} (h : i ∉ is) : (x.sever is ts).imports.find? i = x.imports.find? i := by
  rw [find?_imports_sever]
  cases x.imports.find? i <;> simp [h]

/-- Severing in two rounds is severing at once. -/
theorem sever_append {is is' : List ImportId} (h : ∀ i ∈ is', i ∉ is)
    (ts ts' : List Subscription) :
    (x.sever is ts).sever is' ts' = x.sever (is ++ is') (ts ++ ts') := by
  have hsame : ∀ i ∈ is', (x.sever is ts).imports.find? i = x.imports.find? i :=
    fun i hi => find?_imports_sever_of_not_mem ts (h i hi)
  have himports : (x.sever is ts).imports.mapValues (fun i r => if i ∈ is' then r.orphan else r) =
      x.imports.mapValues (fun i r => if i ∈ is ++ is' then r.orphan else r) := by
    apply Table.ext_find?
    intro i
    rw [Table.find?_mapValues, Table.find?_mapValues, find?_imports_sever, Option.map_map]
    congr 1
    funext r
    by_cases h1 : i ∈ is <;> by_cases h2 : i ∈ is' <;> simp [h1, h2, Import.orphan]
  have hnotices : is'.filterMap (x.sever is ts).notice? = is'.filterMap x.notice? :=
    List.filterMap_congr fun i hi => by rw [notice?, hsame i hi, notice?]
  rw [sever, himports, hnotices, linksOf_congr hsame]
  simp only [sever, List.filterMap_append, linksOf_append, List.map_append, List.append_assoc,
    Subscriptions.cancelAll_append]

/-- Every import of the list has its source among the exports that are gone, and nobody but its
own links hears of its children. -/
structure Severable (x : Exchange) (is : List ImportId) : Prop where
  wellFormed : x.subscriptions.WellFormed
  nodup : is.Nodup
  bereft : ∀ i ∈ is, ∃ r e, x.imports.find? i = some r ∧ r.source = some e ∧
    x.exports.find? e = none
  onlyHears : ∀ l ∈ x.linksOf is, x.subscriptions.OnlyHears l

/-- What is severed does not hinder what is still to be severed. -/
theorem Severable.tail {is is' : List ImportId} (h : x.Severable (is ++ is'))
    (ts : List Subscription) : (x.sever is ts).Severable is' := by
  obtain ⟨-, hn, hd⟩ := List.nodup_append.mp h.nodup
  have hsame : ∀ i ∈ is', (x.sever is ts).imports.find? i = x.imports.find? i :=
    fun i hi => find?_imports_sever_of_not_mem ts fun hm => hd i hm i hi rfl
  refine ⟨h.wellFormed.cancelAll ts, hn, fun i hi => ?_, fun l hl => ?_⟩
  · obtain ⟨r, e, hf, hs, he⟩ := h.bereft i (List.mem_append_right _ hi)
    exact ⟨r, e, (hsame i hi).trans hf, hs, he⟩
  · rw [linksOf_congr hsame] at hl
    have hl' : l ∈ x.linksOf (is ++ is') := by
      rw [linksOf_append]
      exact List.mem_append_right _ hl
    exact (h.onlyHears l hl').mono fun t w ht =>
      ((Subscriptions.listens_cancelAll h.wellFormed ts t w).mp ht).2

theorem Severable.head {is is' : List ImportId} (h : x.Severable (is ++ is')) : x.Severable is where
  wellFormed := h.wellFormed
  nodup := (List.nodup_append.mp h.nodup).1
  bereft := fun i hi => h.bereft i (List.mem_append_left _ hi)
  onlyHears := fun l hl => h.onlyHears l (by
    rw [linksOf_append]
    exact List.mem_append_left _ hl)

theorem breakOff_eq {i : ImportId} (h : x.Severable [i]) :
    x.breakOff i = x.sever [i] ((x.linksOf [i]).flatMap ChildLink.tokens) := by
  obtain ⟨r, e, hi, hs, he⟩ := h.bereft i List.mem_cons_self
  have hlinks : x.linksOf [i] = r.children := by simp [linksOf, hi]
  have honly : ∀ l ∈ r.children, x.subscriptions.OnlyHears l := fun l hl =>
    h.onlyHears l (hlinks ▸ hl)
  have himports : x.imports.modify i (fun r => { r with source := none, children := [] }) =
      x.imports.mapValues (fun j r => if j ∈ [i] then r.orphan else r) := by
    simp [Table.modify, Import.orphan]
  simp only [breakOff, hi, hs]
  -- the export is off the table, so there is no list to leave
  rw [forgetImporter, Table.modify_of_find?_eq_none he, himports]
  rw [dropLinks_eq (by exact h.wellFormed) (by exact honly), hlinks]
  simp only [send, sever, notice?, hi, hlinks, List.filterMap_cons, List.filterMap_nil,
    Option.map_some]

theorem foldl_breakOff_eq {is : List ImportId} (h : x.Severable is) :
    is.foldl breakOff x = x.sever is ((x.linksOf is).flatMap ChildLink.tokens) := by
  induction is generalizing x with
  | nil => simp [sever, linksOf, Subscriptions.cancelAll, Table.mapValues]
  | cons i is ih =>
    have hd : ∀ j ∈ is, j ∉ [i] := fun j hj he => by
      rw [List.mem_singleton.mp he] at hj
      exact (List.nodup_cons.mp h.nodup).1 hj
    have hsame : ∀ j ∈ is, (x.sever [i] ((x.linksOf [i]).flatMap ChildLink.tokens)).imports.find? j
        = x.imports.find? j := fun j hj => find?_imports_sever_of_not_mem _ (hd j hj)
    have hhead : x.Severable [i] := h.head
    have htail : ∀ ts, (x.sever [i] ts).Severable is := fun ts => h.tail ts
    rw [List.foldl_cons, breakOff_eq hhead, ih (htail _), linksOf_congr hsame, sever_append hd,
      ← List.flatMap_append, ← linksOf_append]
    rfl

end Exchange

end SurfaceExchange
