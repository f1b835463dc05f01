import SurfaceExchange.Proofs.Registration

/-!
# Who listens to a signal

The record of what a signal was asked, with its answers, tells who joined and
who left. Whoever joined is there until it leaves, in the order of joining, and
leaves once, removed or drained. Every call keeps this (`Tallied`), so whatever
a signal is asked next, the record tells the answer (`Answers`).
-/

namespace SurfaceExchange.Signal

variable {L : Type} {s s' : Signal L} {id : ListenerId} {l : L}

/-! ## Listeners in order -/

/-- Listeners stand in the order of their numbers, and each number was given. -/
structure Ordered (s : Signal L) : Prop where
  ascending : s.listeners.Pairwise (fun a b => a.1.val < b.1.val)
  given : ∀ e ∈ s.listeners, e.1.val < s.nextId

theorem ordered_empty : (empty : Signal L).Ordered := ⟨.nil, nofun⟩

theorem Ordered.add (h : s.Ordered) (l : L) : (s.add l).2.Ordered where
  ascending := by
    rw [listeners_add]
    refine List.pairwise_append.mpr ⟨h.ascending, List.pairwise_singleton _ _, fun a ha b hb => ?_⟩
    rw [List.mem_singleton.mp hb]
    exact h.given a ha
  given := by
    intro e he
    rw [listeners_add, List.mem_append, List.mem_singleton] at he
    rcases he with he | rfl
    · exact Nat.lt_succ_of_lt (h.given e he)
    · exact Nat.lt_succ_self _

theorem Ordered.ids_nodup (h : s.Ordered) : (s.listeners.map Prod.fst).Nodup :=
  List.pairwise_map.mpr (h.ascending.imp fun hlt heq => by
    rw [heq] at hlt
    exact Nat.lt_irrefl _ hlt)

theorem Ordered.listeners_remove (h : s.Ordered) (id : ListenerId) :
    (s.remove id).2.listeners = s.listeners.filter (fun e => decide (e.1 ≠ id)) :=
  eraseP_eq_filter h.ids_nodup id

theorem Ordered.remove (h : s.Ordered) (id : ListenerId) : (s.remove id).2.Ordered where
  ascending := h.ascending.sublist List.eraseP_sublist
  given e he := h.given e (List.eraseP_sublist.mem he)

theorem ordered_drain (s : Signal L) : s.drain.2.Ordered := ⟨.nil, nofun⟩

/-- A number names one listener at most, and finds it. -/
theorem Ordered.find?_eq_some_iff (h : s.Ordered) (id : ListenerId) (l : L) :
    s.find? id = some l ↔ (id, l) ∈ s.listeners := by
  rw [find?, Option.map_eq_some_iff]
  constructor
  · rintro ⟨e, hfind, rfl⟩
    have hid : e.1 = id := by simpa using List.find?_some hfind
    exact hid ▸ List.mem_of_find?_eq_some hfind
  · intro hm
    obtain ⟨e, hfind⟩ : ∃ e, s.listeners.find? (fun e => decide (e.1 = id)) = some e := by
      rw [← Option.isSome_iff_exists, List.find?_isSome]
      exact ⟨(id, l), hm, decide_eq_true rfl⟩
    have hid : e.1 = id := by simpa using List.find?_some hfind
    have he : e = (id, l) :=
      List.inj_on_of_nodup_map h.ids_nodup (List.mem_of_find?_eq_some hfind) hm hid
    exact ⟨e, hfind, by rw [he]⟩

/-! ## What is asked of a signal -/

inductive Call (L : Type) where
  | add (l : L)
  | remove (id : ListenerId)
  | contains (id : ListenerId)
  | snapshot
  | drain

/-- What was asked, with the answer. -/
inductive Turn (L : Type) where
  | added (l : L) (id : ListenerId)
  | removed (id : ListenerId) (l : Option L)
  | contained (id : ListenerId) (there : Bool)
  | shown (ls : List (ListenerId × L))
  | drained (ls : List (ListenerId × L))

namespace Turn

def joined? : Turn L → Option (ListenerId × L)
  | added l id => some (id, l)
  | _ => none

def left : Turn L → List (ListenerId × L)
  | removed id l => (l.map (id, ·)).toList
  | drained ls => ls
  | _ => []

end Turn

def ask (s : Signal L) : Call L → Turn L × Signal L
  | .add l => (.added l (s.add l).1, (s.add l).2)
  | .remove id => (.removed id (s.remove id).1, (s.remove id).2)
  | .contains id => (.contained id (s.contains id), s)
  | .snapshot => (.shown s.listeners, s)
  | .drain => (.drained s.drain.1, s.drain.2)

/-- Asks a signal once more, and enters the answer into the record. -/
def enter (p : List (Turn L) × Signal L) (c : Call L) : List (Turn L) × Signal L :=
  (p.1 ++ [(p.2.ask c).1], (p.2.ask c).2)

/-- The record and the signal after some calls. -/
def attend (calls : List (Call L)) : List (Turn L) × Signal L := calls.foldl enter ([], .empty)

/-- Whoever joined, under the number that it was given. -/
def joined (log : List (Turn L)) : List (ListenerId × L) := log.filterMap Turn.joined?

/-- Whoever left, and under which number. -/
def left (log : List (Turn L)) : List (ListenerId × L) := log.flatMap Turn.left

/-- The numbers of those who left. -/
def leftIds (log : List (Turn L)) : List ListenerId := (left log).map Prod.fst

variable {log : List (Turn L)} {t : Turn L}

theorem joined_snoc (log : List (Turn L)) (t : Turn L) :
    joined (log ++ [t]) = joined log ++ t.joined?.toList := by
  rw [joined, List.filterMap_append, joined]
  cases t <;> rfl

theorem left_snoc (log : List (Turn L)) (t : Turn L) : left (log ++ [t]) = left log ++ t.left := by
  simp [left]

theorem leftIds_snoc (log : List (Turn L)) (t : Turn L) :
    leftIds (log ++ [t]) = leftIds log ++ t.left.map Prod.fst := by
  rw [leftIds, left_snoc, List.map_append, leftIds]

/-! ## What the record tells of the signal -/

/-- Of those who joined, those are there who have not left. -/
structure Tallied (log : List (Turn L)) (s : Signal L) : Prop where
  numbers : (joined log).map (fun e => e.1.val) = List.range' 1 (joined log).length
  next : s.nextId = (joined log).length + 1
  content : s.listeners = (joined log).filter (fun e => decide (e.1 ∉ leftIds log))
  /-- Everybody has either left, once, or is there. -/
  split : (left log ++ s.listeners).Perm (joined log)

/-- Whatever the signal is asked, the record tells the answer. -/
structure Answers (log : List (Turn L)) (s : Signal L) : Prop where
  /-- Numbers count from 1 and are given in turn. -/
  numbers : (joined log).map (fun e => e.1.val) = List.range' 1 (joined log).length
  next : ∀ l, (s.add l).1.val = (joined log).length + 1
  content : s.listeners = (joined log).filter (fun e => decide (e.1 ∉ leftIds log))
  ascending : s.listeners.Pairwise (fun a b => a.1.val < b.1.val)
  remove : ∀ id l, (s.remove id).1 = some l ↔ (id, l) ∈ joined log ∧ id ∉ leftIds log
  removeOnly : ∀ id, (s.remove id).2.listeners = s.listeners.filter (fun e => decide (e.1 ≠ id))
  contains : ∀ id, s.contains id = true ↔ ∃ l, (s.remove id).1 = some l
  drain : s.drain.1 = s.listeners ∧ s.drain.2.listeners = []
  leftOnce : (leftIds log).Nodup
  split : (left log ++ s.listeners).Perm (joined log)

namespace Tallied

theorem empty : Tallied [] (.empty : Signal L) := ⟨rfl, rfl, rfl, .refl _⟩

theorem joined_ascending (h : Tallied log s) :
    (joined log).Pairwise (fun a b => a.1.val < b.1.val) := by
  have hrange : ((joined log).map (fun e => e.1.val)).Pairwise (· < ·) := by
    rw [h.numbers]
    exact List.pairwise_lt_range'
  exact List.pairwise_map.mp hrange

theorem joined_ids_nodup (h : Tallied log s) : ((joined log).map Prod.fst).Nodup :=
  List.pairwise_map.mpr (h.joined_ascending.imp fun hlt heq => by
    rw [heq] at hlt
    exact Nat.lt_irrefl _ hlt)

theorem lt_next (h : Tallied log s) {e : ListenerId × L} (he : e ∈ joined log) :
    e.1.val < s.nextId := by
  have hm : e.1.val ∈ (joined log).map (fun e => e.1.val) := List.mem_map_of_mem he
  rw [h.numbers, List.mem_range'_1] at hm
  rw [h.next]
  omega

theorem mem_joined_of_left (h : Tallied log s) {e : ListenerId × L} (he : e ∈ left log) :
    e ∈ joined log :=
  h.split.subset (List.mem_append_left _ he)

theorem ordered (h : Tallied log s) : s.Ordered where
  ascending := by
    rw [h.content]
    exact h.joined_ascending.sublist List.filter_sublist
  given e he := h.lt_next (h.split.subset (List.mem_append_right _ he))

theorem leftIds_nodup (h : Tallied log s) : (leftIds log).Nodup := by
  have hids : ((left log ++ s.listeners).map Prod.fst).Nodup :=
    (h.split.map Prod.fst).nodup_iff.mpr h.joined_ids_nodup
  rw [List.map_append] at hids
  exact hids.of_append_left

/-! ### One call -/

/-- Whoever joins comes last, under a number of its own. -/
theorem join (h : Tallied log s) (l : L) : Tallied (log ++ [(s.ask (.add l)).1]) (s.add l).2 := by
  have hjoined : joined (log ++ [(s.ask (.add l)).1]) = joined log ++ [(⟨s.nextId⟩, l)] :=
    joined_snoc log _
  have hleft : left (log ++ [(s.ask (.add l)).1]) = left log := by
    rw [left_snoc]
    exact List.append_nil _
  have hleftIds : leftIds (log ++ [(s.ask (.add l)).1]) = leftIds log := by
    rw [leftIds, hleft, leftIds]
  have hfresh : (⟨s.nextId⟩ : ListenerId) ∉ leftIds log := by
    intro hm
    obtain ⟨e, he, heq⟩ := List.mem_map.mp hm
    have hlt := h.lt_next (h.mem_joined_of_left he)
    rw [heq] at hlt
    exact Nat.lt_irrefl _ hlt
  refine ⟨?_, ?_, ?_, ?_⟩
  · rw [hjoined, List.map_append, h.numbers, List.length_append, List.length_singleton,
      List.range'_concat, h.next, Nat.one_mul, Nat.add_comm 1]
    rfl
  · rw [nextId_add, hjoined, h.next, List.length_append, List.length_singleton]
  · rw [hjoined, hleftIds, List.filter_append, ← h.content, listeners_add]
    simp [hfresh]
  · rw [hjoined, hleft, listeners_add, ← List.append_assoc]
    exact h.split.append_right _

/-- Whoever leaves is there no more, and whoever stays keeps its place. -/
theorem leave (h : Tallied log s) (hjoined : t.joined? = none) (hnext : s'.nextId = s.nextId)
    (hstay : s'.listeners = s.listeners.filter (fun e => decide (e.1 ∉ t.left.map Prod.fst)))
    (hsplit : (t.left ++ s'.listeners).Perm s.listeners) : Tallied (log ++ [t]) s' := by
  have hsame : joined (log ++ [t]) = joined log := by
    rw [joined_snoc, hjoined]
    exact List.append_nil _
  refine ⟨by rw [hsame, h.numbers], by rw [hsame, hnext, h.next], ?_, ?_⟩
  · rw [hsame, hstay, h.content, List.filter_filter, leftIds_snoc]
    refine List.filter_congr fun e _ => ?_
    simp only [List.mem_append, not_or, Bool.decide_and, Bool.and_comm]
  · rw [hsame, left_snoc, List.append_assoc]
    exact (hsplit.append_left _).trans h.split

/-- Nobody joins or leaves where nothing is changed. -/
theorem look (h : Tallied log s) (hjoined : t.joined? = none) (hleft : t.left = []) :
    Tallied (log ++ [t]) s := by
  refine h.leave hjoined rfl ?_ ?_
  · simp [hleft]
  · rw [hleft]
    exact .refl _

/-- The one that is removed leaves. -/
theorem remove (h : Tallied log s) (id : ListenerId) :
    Tallied (log ++ [(s.ask (.remove id)).1]) (s.remove id).2 := by
  cases hfind : s.find? id with
  | none =>
    have hnot : s.contains id = false := by rw [contains_eq_isSome_find?, hfind]; rfl
    have hsame : (s.remove id).2 = s := by rw [remove_of_not_contains hnot]
    rw [hsame]
    exact h.look rfl (by simp [ask, Turn.left, Signal.remove, hfind])
  | some l =>
    have hleft : (s.ask (.remove id)).1.left = [(id, l)] := by
      simp [ask, Turn.left, Signal.remove, hfind]
    have hm : (id, l) ∈ s.listeners := (h.ordered.find?_eq_some_iff id l).mp hfind
    have hstay : (s.remove id).2.listeners = s.listeners.filter
        (fun e => decide (e.1 ∉ (s.ask (.remove id)).1.left.map Prod.fst)) := by
      rw [h.ordered.listeners_remove, hleft]
      simp
    refine h.leave rfl rfl hstay ?_
    -- both sides list everybody once, for a number names one listener
    have hnodup : s.listeners.Nodup := List.Nodup.of_map Prod.fst h.ordered.ids_nodup
    rw [hleft, h.ordered.listeners_remove]
    refine (List.perm_ext_iff_of_nodup ?_ hnodup).mpr fun e => ?_
    · exact List.nodup_cons.mpr ⟨by simp, hnodup.filter _⟩
    · rw [List.singleton_append, List.mem_cons, List.mem_filter, decide_eq_true_eq]
      constructor
      · rintro (rfl | ⟨he, -⟩)
        · exact hm
        · exact he
      · intro he
        by_cases hid : e.1 = id
        · exact Or.inl (List.inj_on_of_nodup_map h.ordered.ids_nodup he hm hid)
        · exact Or.inr ⟨he, hid⟩

/-- Everybody leaves. -/
theorem drain (h : Tallied log s) :
    Tallied (log ++ [(s.ask .drain).1]) s.drain.2 := by
  refine h.leave rfl rfl ?_ ?_
  · rw [listeners_drain]
    refine (List.filter_eq_nil_iff.mpr fun e he => ?_).symm
    have hm : e.1 ∈ (s.ask .drain).1.left.map Prod.fst := List.mem_map_of_mem he
    exact fun hn => of_decide_eq_true hn hm
  · rw [listeners_drain, List.append_nil]
    exact .refl _

theorem ask (h : Tallied log s) (c : Call L) : Tallied (log ++ [(s.ask c).1]) (s.ask c).2 := by
  cases c with
  | add l => exact h.join l
  | remove id => exact h.remove id
  | contains id => exact h.look rfl rfl
  | snapshot => exact h.look rfl rfl
  | drain => exact h.drain

theorem foldl_enter {p : List (Turn L) × Signal L} (h : Tallied p.1 p.2) (calls : List (Call L)) :
    Tallied (calls.foldl enter p).1 (calls.foldl enter p).2 := by
  induction calls generalizing p with
  | nil => exact h
  | cons c calls ih => exact ih (h.ask c)

/-! ### Whatever is asked next -/

theorem mem_listeners_iff (h : Tallied log s) (e : ListenerId × L) :
    e ∈ s.listeners ↔ e ∈ joined log ∧ e.1 ∉ leftIds log := by
  rw [h.content, List.mem_filter, decide_eq_true_eq]

theorem answers (h : Tallied log s) : Answers log s where
  numbers := h.numbers
  next _ := h.next
  content := h.content
  ascending := h.ordered.ascending
  remove id l := (h.ordered.find?_eq_some_iff id l).trans (h.mem_listeners_iff (id, l))
  removeOnly := h.ordered.listeners_remove
  contains id := by
    rw [contains_eq_isSome_find?, Option.isSome_iff_exists]
    rfl
  drain := ⟨rfl, rfl⟩
  leftOnce := h.leftIds_nodup
  split := h.split

end Tallied

/-- Whatever was asked of a signal before, listeners were given the numbers 1, 2, 3 and so on, those
are there who joined and have not left, and nobody left twice. Whatever it is asked next, with
numbers that are good, spent or made up, the record tells the answer. -/
theorem attend_answers (calls : List (Call L)) : Answers (attend calls).1 (attend calls).2 :=
  (Tallied.empty.foldl_enter calls).answers

end SurfaceExchange.Signal
