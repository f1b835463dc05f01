import Mathlib.Data.Finset.Card
import SurfaceExchange.Ownership

/-!
# Who has what, by the record

The tracker keeps objects apart, client by client and kind by kind, and starts
and drops a client's holdings on the way. Seen from outside it is a set of pairs
of a client and an object: every entry of the record changes the set as it
changes the tracker (`Represents.enter`), and whether a pair is in it depends on
the latest entry that concerns it (`mem_pairs_iff`). So the record tells every
answer of the tracker (`Decided`), and tells it for a client from the client's
own entries.
-/

namespace SurfaceExchange

/-! ## Objects by kind -/

inductive ObjectKind where
  | exporter
  | exported
  | importer
  | imported
  deriving DecidableEq, Repr

def ObjectId.kind : ObjectId → ObjectKind
  | .exporter _ => .exporter
  | .exported _ => .exported
  | .importer _ => .importer
  | .imported _ => .imported

/-- How many objects of one kind are counted. -/
def Counts.of (n : Counts) : ObjectKind → Nat
  | .exporter => n.exporters
  | .exported => n.exports
  | .importer => n.importers
  | .imported => n.imports

/-- Importers come before exporters, and those of one kind in ascending order. -/
def RegistryId.Before : RegistryId → RegistryId → Prop
  | .importer m, .importer m' => m.val < m'.val
  | .importer _, .exporter _ => True
  | .exporter _, .importer _ => False
  | .exporter p, .exporter p' => p.val < p'.val

/-- A set is as large as one that has a member for each of its keys. -/
theorem Table.size_eq_card {κ α : Type} [KeyOrder κ] [DecidableEq κ] [DecidableEq α]
    {t : KeySet κ} {s : Finset α} {f : κ → α} (hf : Function.Injective f)
    (h : ∀ a, a ∈ s ↔ ∃ k, t.contains k = true ∧ f k = a) : t.size = s.card := by
  have hs : s = (t.keys.map f).toFinset := by
    ext a
    rw [h, List.mem_toFinset, List.mem_map]
    simp only [Table.contains_iff_mem_keys]
  rw [hs, List.toFinset_card_of_nodup (t.keys_nodup.map hf), List.length_map,
    Table.size_eq_keys_length]

namespace Holdings

theorem counts_of (h : Holdings) (k : ObjectKind) {s : Finset ObjectId}
    (hs : ∀ o, o ∈ s ↔ h.has o = true ∧ o.kind = k) : h.counts.of k = s.card := by
  cases k with
  | exporter =>
    refine Table.size_eq_card (fun _ _ => ObjectId.exporter.inj) fun o => ?_
    cases o <;> simp [hs, has, ObjectId.kind]
  | exported =>
    refine Table.size_eq_card (fun _ _ => ObjectId.exported.inj) fun o => ?_
    cases o <;> simp [hs, has, ObjectId.kind]
  | importer =>
    refine Table.size_eq_card (fun _ _ => ObjectId.importer.inj) fun o => ?_
    cases o <;> simp [hs, has, ObjectId.kind]
  | imported =>
    refine Table.size_eq_card (fun _ _ => ObjectId.imported.inj) fun o => ?_
    cases o <;> simp [hs, has, ObjectId.kind]

theorem importer_mem_registries_iff (h : Holdings) (m : ImporterId) :
    .importer m ∈ h.registries ↔ h.has (.importer m) = true := by
  simp [registries, has, Table.contains_iff_mem_keys]

theorem exporter_mem_registries_iff (h : Holdings) (p : ExporterId) :
    .exporter p ∈ h.registries ↔ h.has (.exporter p) = true := by
  simp [registries, has, Table.contains_iff_mem_keys]

theorem registries_ascending (h : Holdings) : h.registries.Pairwise RegistryId.Before := by
  refine List.pairwise_append.mpr ⟨?_, ?_, fun r hr r' hr' => ?_⟩
  · exact List.pairwise_map.mpr (h.importers.keys_ascending.imp KeyOrder.PairLt.fst_lt)
  · exact List.pairwise_map.mpr (h.exporters.keys_ascending.imp KeyOrder.PairLt.fst_lt)
  · obtain ⟨m, -, rfl⟩ := List.mem_map.mp hr
    obtain ⟨p, -, rfl⟩ := List.mem_map.mp hr'
    exact trivial

end Holdings

namespace Ownership

/-! ## The record -/

/-- What may be recorded. -/
inductive Entry where
  | track (c : ClientId) (o : ObjectId)
  | untrack (c : ClientId) (o : ObjectId)
  | release (c : ClientId)
  deriving DecidableEq, Repr

namespace Entry

def client : Entry → ClientId
  | track c _ => c
  | untrack c _ => c
  | release c => c

/-- The entry settles anew whether a client has an object. -/
def Concerns (e : Entry) (c : ClientId) (o : ObjectId) : Prop :=
  e = track c o ∨ e = untrack c o ∨ e = release c

instance (e : Entry) (c : ClientId) (o : ObjectId) : Decidable (e.Concerns c o) :=
  inferInstanceAs (Decidable (_ ∨ _))

variable {e : Entry} {c d : ClientId} {o p : ObjectId}

theorem Concerns.client_eq (h : e.Concerns c o) : e.client = c := by
  rcases h with rfl | rfl | rfl <;> rfl

theorem concerns_track_iff : (track d p).Concerns c o ↔ c = d ∧ o = p := by
  simp [Concerns, eq_comm]

theorem concerns_untrack_iff : (untrack d p).Concerns c o ↔ c = d ∧ o = p := by
  simp [Concerns, eq_comm]

theorem concerns_release_iff : (release d).Concerns c o ↔ c = d := by
  simp [Concerns, eq_comm]

/-- What an entry makes of a set of pairs. -/
def amend (s : Finset (ClientId × ObjectId)) : Entry → Finset (ClientId × ObjectId)
  | track c o => insert (c, o) s
  | untrack c o => s.erase (c, o)
  | release c => s.filter (fun p => p.1 ≠ c)

end Entry

def enter (w : Ownership) : Entry → Ownership
  | .track c o => w.track c o
  | .untrack c o => w.untrack c o
  | .release c => (w.release c).2

/-- The tracker after some entries. -/
def entered (es : List Entry) : Ownership := es.foldl enter empty

/-- Who has what after some entries. -/
def pairs (es : List Entry) : Finset (ClientId × ObjectId) := es.foldl Entry.amend ∅

/-- The latest entry that settles whether a client has an object. -/
def latest? (es : List Entry) (c : ClientId) (o : ObjectId) : Option Entry :=
  (es.filter (fun e => decide (e.Concerns c o))).getLast?

/-- What one client has of one kind. -/
def objectsOf (s : Finset (ClientId × ObjectId)) (c : ClientId) (k : ObjectKind) :
    Finset ObjectId :=
  (s.image Prod.snd).filter (fun o => (c, o) ∈ s ∧ o.kind = k)

variable {w : Ownership} {s : Finset (ClientId × ObjectId)} {e : Entry} {c : ClientId}
  {o : ObjectId}

theorem mem_objectsOf_iff (k : ObjectKind) : o ∈ objectsOf s c k ↔ (c, o) ∈ s ∧ o.kind = k := by
  rw [objectsOf, Finset.mem_filter]
  exact and_iff_right_of_imp fun h => Finset.mem_image_of_mem Prod.snd h.1

/-! ## One entry -/

/-- An entry that concerns a client and an object settles the matter. -/
theorem owns_enter_of_concerns (w : Ownership) (h : e.Concerns c o) :
    (w.enter e).owns c o = true ↔ e = .track c o := by
  rcases h with rfl | rfl | rfl
  · simp [enter, owns_track]
  · simp [enter, owns_untrack]
  · simp [enter, owns_release]

/-- One that does not leaves it as it was. -/
theorem owns_enter_of_not_concerns (w : Ownership) (h : ¬ e.Concerns c o) :
    (w.enter e).owns c o = w.owns c o := by
  cases e with
  | track d p =>
    rw [Entry.concerns_track_iff, @eq_comm _ c, @eq_comm _ o] at h
    rw [enter, owns_track, decide_eq_false h, Bool.false_or]
  | untrack d p =>
    rw [Entry.concerns_untrack_iff] at h
    rw [enter, owns_untrack, decide_eq_true h, Bool.true_and]
  | release d =>
    rw [Entry.concerns_release_iff] at h
    rw [enter, owns_release, decide_eq_true h, Bool.true_and]

theorem mem_amend_of_concerns (s : Finset (ClientId × ObjectId)) (h : e.Concerns c o) :
    (c, o) ∈ e.amend s ↔ e = .track c o := by
  rcases h with rfl | rfl | rfl <;> simp [Entry.amend]

theorem mem_amend_of_not_concerns (s : Finset (ClientId × ObjectId)) (h : ¬ e.Concerns c o) :
    (c, o) ∈ e.amend s ↔ (c, o) ∈ s := by
  cases e with
  | track d p =>
    rw [Entry.concerns_track_iff, ← Prod.mk.injEq] at h
    rw [Entry.amend, Finset.mem_insert, or_iff_right h]
  | untrack d p =>
    rw [Entry.concerns_untrack_iff, ← Prod.mk.injEq] at h
    rw [Entry.amend, Finset.mem_erase, and_iff_right h]
  | release d =>
    rw [Entry.concerns_release_iff] at h
    rw [Entry.amend, Finset.mem_filter, and_iff_left h]

/-! ## The tracker as a set of pairs -/

/-- The set stands for the tracker. -/
def Represents (s : Finset (ClientId × ObjectId)) (w : Ownership) : Prop :=
  ∀ c o, (c, o) ∈ s ↔ w.owns c o = true

namespace Represents

theorem empty : Represents ∅ .empty := fun c o => by simp

theorem enter (h : Represents s w) (e : Entry) : Represents (e.amend s) (w.enter e) := by
  intro c o
  by_cases he : e.Concerns c o
  · rw [mem_amend_of_concerns s he, owns_enter_of_concerns w he]
  · rw [mem_amend_of_not_concerns s he, owns_enter_of_not_concerns w he, h c o]

theorem foldl_enter (h : Represents s w) (es : List Entry) :
    Represents (es.foldl Entry.amend s) (es.foldl Ownership.enter w) := by
  induction es generalizing s w with
  | nil => exact h
  | cons e es ih => exact ih (h.enter e)

theorem counts (h : Represents s w) (c : ClientId) (k : ObjectKind) :
    (w.counts c).of k = (objectsOf s c k).card :=
  (w.holdings c).counts_of k fun o => by
    rw [mem_objectsOf_iff, h c o]
    rfl

end Represents

theorem represents_pairs (es : List Entry) : Represents (pairs es) (entered es) :=
  Represents.empty.foldl_enter es

/-! ## The latest entry -/

theorem latest?_snoc_of_concerns (es : List Entry) (h : e.Concerns c o) :
    latest? (es ++ [e]) c o = some e := by
  rw [latest?, List.filter_append, List.filter_singleton, decide_eq_true h]
  exact List.getLast?_concat

theorem latest?_snoc_of_not_concerns (es : List Entry) (h : ¬ e.Concerns c o) :
    latest? (es ++ [e]) c o = latest? es c o := by
  rw [latest?, List.filter_append, List.filter_singleton, decide_eq_false h]
  exact congrArg _ (List.append_nil _)

/-- Entries that do not concern a client and an object can be left out. -/
theorem latest?_filter {keep : Entry → Bool} (hkeep : ∀ e, e.Concerns c o → keep e = true)
    (es : List Entry) : latest? (es.filter keep) c o = latest? es c o := by
  rw [latest?, List.filter_filter, latest?]
  refine congrArg _ (List.filter_congr fun e _ => ?_)
  by_cases he : e.Concerns c o
  · rw [hkeep e he, Bool.and_true]
  · rw [decide_eq_false he, Bool.false_and]

theorem mem_pairs_iff (es : List Entry) (c : ClientId) (o : ObjectId) :
    (c, o) ∈ pairs es ↔ latest? es c o = some (.track c o) := by
  -- from the end of the record, where the latest entry is
  induction es using List.reverseRecOn with
  | nil => simp [pairs, latest?]
  | append_singleton es e ih =>
    rw [pairs, List.foldl_append, ← pairs, List.foldl_cons, List.foldl_nil]
    by_cases he : e.Concerns c o
    · rw [mem_amend_of_concerns _ he, latest?_snoc_of_concerns es he, Option.some.injEq]
    · rw [mem_amend_of_not_concerns _ he, latest?_snoc_of_not_concerns es he, ih]

theorem owns_entered_iff (es : List Entry) (c : ClientId) (o : ObjectId) :
    (entered es).owns c o = true ↔ latest? es c o = some (.track c o) :=
  (represents_pairs es c o).symm.trans (mem_pairs_iff es c o)

/-- What a client has is told by that client's own entries. -/
theorem holdings_entered_filter (es : List Entry) (c : ClientId) :
    (entered (es.filter (fun e => decide (e.client = c)))).holdings c =
      (entered es).holdings c := by
  refine Holdings.ext_has fun o => Bool.eq_iff_iff.mpr ?_
  rw [← owns, ← owns, owns_entered_iff, owns_entered_iff,
    latest?_filter fun e he => decide_eq_true he.client_eq]

/-! ## What the record tells -/

/-- Whatever the tracker is asked, the record tells the answer. -/
structure Decided (es : List Entry) (w : Ownership) : Prop where
  /-- A client has an object if the latest entry that concerns the two says so. -/
  owns : ∀ c o, w.owns c o = true ↔ latest? es c o = some (.track c o)
  represented : Represents (pairs es) w
  counts : ∀ c k, (w.counts c).of k = (objectsOf (pairs es) c k).card
  /-- A further entry changes nothing for a client and an object that it does not concern. -/
  others : ∀ e c o, ¬ e.Concerns c o → (w.enter e).owns c o = w.owns c o
  /-- Nor does it show for a client whether the entries of other clients were made. -/
  alone : ∀ c, let own := entered (es.filter (fun e => decide (e.client = c)))
    (∀ o, own.owns c o = w.owns c o) ∧ own.counts c = w.counts c ∧
      (own.release c).1 = (w.release c).1
  /-- A client leaves its registries behind, each once and the importers first. -/
  ascending : ∀ c, (w.release c).1.Pairwise RegistryId.Before
  importers : ∀ c m, .importer m ∈ (w.release c).1 ↔ w.owns c (.importer m) = true
  exporters : ∀ c p, .exporter p ∈ (w.release c).1 ↔ w.owns c (.exporter p) = true
  spent : ∀ c, ((w.release c).2.release c).1 = []

/-- Whatever was recorded, in whatever order and however often, the tracker is the set of pairs
that the record makes, and answers by it. -/
theorem entered_decided (es : List Entry) : Decided es (entered es) where
  owns := owns_entered_iff es
  represented := represents_pairs es
  counts := (represents_pairs es).counts
  others _ _ _ := owns_enter_of_not_concerns (entered es)
  alone c := by
    have hown := holdings_entered_filter es c
    exact ⟨fun o => congrArg (Holdings.has · o) hown, congrArg Holdings.counts hown,
      congrArg Holdings.registries hown⟩
  ascending c := ((entered es).holdings c).registries_ascending
  importers c := ((entered es).holdings c).importer_mem_registries_iff
  exporters c := ((entered es).holdings c).exporter_mem_registries_iff
  spent c := by
    have hnothing : ((entered es).release c).2.holdings c = {} := by simp [release, holdings]
    exact congrArg Holdings.registries hnothing

/-- A client leaves three registries behind that came in another order, and a fourth that it gave up
before is not among them. What is given up after it left is nobody's. -/
example :
    let es : List Entry := [.track ⟨1⟩ (.exporter ⟨5⟩), .track ⟨1⟩ (.importer ⟨4⟩),
      .track ⟨1⟩ (.importer ⟨2⟩), .track ⟨2⟩ (.importer ⟨2⟩), .track ⟨1⟩ (.exporter ⟨3⟩),
      .untrack ⟨1⟩ (.importer ⟨4⟩), .track ⟨1⟩ (.importer ⟨2⟩)]
    ((entered es).release ⟨1⟩).1 = [.importer ⟨2⟩, .exporter ⟨3⟩, .exporter ⟨5⟩] ∧
    pairs (es ++ [.release ⟨1⟩, .untrack ⟨1⟩ (.exporter ⟨3⟩)]) = {(⟨2⟩, .importer ⟨2⟩)} := by
  decide

end Ownership

end SurfaceExchange
