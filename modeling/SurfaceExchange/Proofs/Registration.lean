import Mathlib.Data.List.Nodup
import Mathlib.Data.List.Flatten
import SurfaceExchange.Subscription

/-!
# Which subscriptions are registered

The two signals of every surface, read as one relation between tokens and
listeners: `Listens s t w`. On a well-formed register, subscribing adds one
pair to it (`listens_subscribe`), cancelling takes one away
(`listens_cancel`), and `size` counts it (`length_entries`).
-/

namespace SurfaceExchange

/-- Where every key occurs once, taking its first entry out takes all its entries out. -/
theorem eraseP_eq_filter {α β : Type} [DecidableEq β] {key : α → β} {l : List α}
    (h : (l.map key).Nodup) (b : β) :
    l.eraseP (fun a => decide (key a = b)) = l.filter (fun a => decide (key a ≠ b)) := by
  induction l with
  | nil => rfl
  | cons a l ih =>
    obtain ⟨ha, hl⟩ := List.nodup_cons.mp h
    by_cases hb : key a = b
    · rw [List.eraseP_cons_of_pos (by simpa using hb), List.filter_cons_of_neg (by simpa using hb)]
      refine (List.filter_eq_self.mpr fun a' ha' => ?_).symm
      have hne : key a' ≠ b := fun hb' => ha (List.mem_map.mpr ⟨a', ha', hb'.trans hb.symm⟩)
      simpa using hne
    · rw [List.eraseP_cons_of_neg (by simpa using hb), List.filter_cons_of_pos (by simpa using hb),
        ih hl]

namespace Subscriptions

/-- The token `t` is registered, for the listener `w`. -/
def Listens (s : Subscriptions) (t : Subscription) (w : Watcher) : Prop :=
  (t.listener, w) ∈ (s.signal t.surface t.event).listeners

/-- Numbers of listeners are given once, each signal is in the order in which they were given,
and no surface has an entry without listeners. -/
structure WellFormed (s : Subscriptions) : Prop where
  fresh : ∀ {t w}, s.Listens t w → t.listener.val < s.nextId
  unique : ∀ {t t' w w'}, s.Listens t w → s.Listens t' w' → t.listener = t'.listener → t = t'
  ascending : ∀ x e, (s.signal x e).listeners.Pairwise (fun a b => a.1.val < b.1.val)
  inhabited : ∀ {x g}, s.surfaces.find? x = some g → g.isEmpty = false

/-- Cancels a list of tokens, one after the other. -/
def cancelAll (s : Subscriptions) (ts : List Subscription) : Subscriptions :=
  ts.foldl (fun s t => (s.cancel t).2) s

/-- Every registered token with its listener, surface by surface. -/
def entries (s : Subscriptions) : List (Subscription × Watcher) :=
  s.surfaces.keys.flatMap (fun x => s.snapshot x .unmap ++ s.snapshot x .setParent)

variable {s : Subscriptions}

/-! ## Reading the register -/

theorem isLive_iff (t : Subscription) : s.isLive t = true ↔ ∃ w, s.Listens t w := by
  constructor
  · intro h
    obtain ⟨⟨id, w⟩, he, hid⟩ := List.any_eq_true.mp h
    exact ⟨w, by rw [Listens, ← of_decide_eq_true hid]; exact he⟩
  · rintro ⟨w, hw⟩
    exact List.any_eq_true.mpr ⟨_, hw, by simp⟩

theorem mem_snapshot_iff (x : SurfaceId) (e : SurfaceEvent) (t : Subscription) (w : Watcher) :
    (t, w) ∈ s.snapshot x e ↔ t.surface = x ∧ t.event = e ∧ s.Listens t w := by
  constructor
  · intro h
    obtain ⟨⟨id, w'⟩, hm, he⟩ := List.mem_map.mp h
    cases he
    exact ⟨rfl, rfl, hm⟩
  · rintro ⟨rfl, rfl, h⟩
    exact List.mem_map.mpr ⟨(t.listener, w), h, rfl⟩

/-- A surface with a listener has an entry. -/
theorem find?_isSome_of_listens {t : Subscription} {w : Watcher} (h : s.Listens t w) :
    (s.surfaces.find? t.surface).isSome := by
  cases hf : s.surfaces.find? t.surface with
  | some g => rfl
  | none =>
    rw [Listens, signal, hf] at h
    cases he : t.event <;> rw [he] at h <;> cases h

theorem mem_entries_iff (t : Subscription) (w : Watcher) : (t, w) ∈ s.entries ↔ s.Listens t w := by
  simp only [entries, List.mem_flatMap, List.mem_append, mem_snapshot_iff, Table.mem_keys_iff]
  constructor
  · rintro ⟨x, -, ⟨-, -, h⟩ | ⟨-, -, h⟩⟩ <;> exact h
  · intro h
    refine ⟨t.surface, find?_isSome_of_listens h, ?_⟩
    cases he : t.event
    · exact Or.inl ⟨rfl, rfl, h⟩
    · exact Or.inr ⟨rfl, rfl, h⟩

theorem length_snapshot (x : SurfaceId) (e : SurfaceEvent) :
    (s.snapshot x e).length = (s.signal x e).size := by
  simp [snapshot, Signal.size]

theorem length_entries : s.entries.length = s.size := by
  have h : ∀ p ∈ s.surfaces.toList,
      (s.snapshot p.1 .unmap ++ s.snapshot p.1 .setParent).length = p.2.size := by
    intro p hp
    have hf : s.surfaces.find? p.1 = some p.2 := (s.surfaces.mem_toList_iff _ _).mp hp
    simp [length_snapshot, signal, hf, WatchedSurface.signal, WatchedSurface.size]
  have hsize : s.size = (s.surfaces.toList.map (fun p => p.2.size)).sum := by
    rw [size, Table.values, List.foldr_map, List.sum_eq_foldr, List.foldr_map]
  rw [hsize]
  simp only [entries, List.length_flatMap, Table.keys, List.map_map]
  exact congrArg List.sum (List.map_congr_left h)

namespace WellFormed

theorem ids_nodup (h : s.WellFormed) (x : SurfaceId) (e : SurfaceEvent) :
    ((s.signal x e).listeners.map Prod.fst).Nodup :=
  List.pairwise_map.mpr ((h.ascending x e).imp fun hlt he => by rw [he] at hlt; omega)

/-- A token names one listener. -/
theorem listener_unique (h : s.WellFormed) {t : Subscription} {w w' : Watcher}
    (hw : s.Listens t w) (hw' : s.Listens t w') : w = w' :=
  (Prod.mk.inj (List.inj_on_of_nodup_map (h.ids_nodup _ _) hw hw' rfl)).2

theorem snapshot_tokens_nodup (h : s.WellFormed) (x : SurfaceId) (e : SurfaceEvent) :
    ((s.snapshot x e).map Prod.fst).Nodup := by
  simp only [snapshot, List.map_map]
  refine List.pairwise_map.mpr ((h.ascending x e).imp fun {a b} hlt he => ?_)
  have : a.1 = b.1 := congrArg Subscription.listener he
  rw [this] at hlt
  omega

theorem entries_tokens_nodup (h : s.WellFormed) : (s.entries.map Prod.fst).Nodup := by
  have hplace : ∀ x e t, t ∈ (s.snapshot x e).map Prod.fst → t.surface = x ∧ t.event = e := by
    intro x e t ht
    obtain ⟨⟨t', w⟩, hm, rfl⟩ := List.mem_map.mp ht
    obtain ⟨hx, he, -⟩ := (mem_snapshot_iff x e t' w).mp hm
    exact ⟨hx, he⟩
  rw [entries, List.map_flatMap, List.nodup_flatMap]
  refine ⟨fun x _ => ?_, s.surfaces.keys_nodup.imp fun {x y} hxy => ?_⟩
  · rw [List.map_append, List.nodup_append]
    refine ⟨h.snapshot_tokens_nodup x _, h.snapshot_tokens_nodup x _, fun t ht t' ht' he => ?_⟩
    have h1 := (hplace _ _ t ht).2
    rw [he, (hplace _ _ t' ht').2] at h1
    cases h1
  · simp only [Function.onFun, List.map_append]
    intro t ht ht'
    have hx : t.surface = x := by
      rcases List.mem_append.mp ht with h1 | h1 <;> exact (hplace _ _ t h1).1
    have hy : t.surface = y := by
      rcases List.mem_append.mp ht' with h1 | h1 <;> exact (hplace _ _ t h1).1
    exact hxy (hx.symm.trans hy)

theorem entries_nodup (h : s.WellFormed) : s.entries.Nodup :=
  List.Nodup.of_map Prod.fst h.entries_tokens_nodup

/-- No surface has an entry if nobody listens. -/
theorem surfaces_eq_empty_iff (h : s.WellFormed) : s.surfaces = .empty ↔ s.entries = [] := by
  constructor
  · intro hs
    rw [entries, hs]
    rfl
  · intro hs
    refine Table.ext_find? fun x => ?_
    cases hf : s.surfaces.find? x with
    | none => rfl
    | some g =>
      have hnobody : ∀ e, (g.signal e).listeners = [] := by
        intro e
        refine List.eq_nil_iff_forall_not_mem.mpr fun a ha => ?_
        have hlistens : s.Listens ⟨x, e, a.1⟩ a.2 := by
          rw [Listens, signal, hf]
          exact ha
        have hm := (mem_entries_iff _ _).mpr hlistens
        rw [hs] at hm
        cases hm
      have hempty : g.isEmpty = true := by
        simpa [WatchedSurface.isEmpty, Signal.isEmpty] using ⟨hnobody .unmap, hnobody .setParent⟩
      rw [h.inhabited hf] at hempty
      cases hempty

end WellFormed

/-! ## Subscribing -/

theorem listens_subscribe (x : SurfaceId) (e : SurfaceEvent) (l : Watcher) (t : Subscription)
    (w : Watcher) : (s.subscribe x e l).2.Listens t w ↔
      (t = (s.subscribe x e l).1 ∧ w = l) ∨ s.Listens t w := by
  obtain ⟨y, f, id⟩ := t
  simp only [Listens, signal_subscribe]
  rw [show (s.subscribe x e l).1 = ⟨x, e, ⟨s.nextId⟩⟩ from rfl]
  by_cases h : x = y ∧ e = f
  · obtain ⟨rfl, rfl⟩ := h
    simp [or_comm]
  · have h' : ¬ (y = x ∧ f = e) := fun h' => h ⟨h'.1.symm, h'.2.symm⟩
    simp only [if_neg h, Subscription.mk.injEq]
    constructor
    · exact Or.inr
    · rintro (⟨⟨hx, he, -⟩, -⟩ | hm)
      · exact absurd ⟨hx, he⟩ h'
      · exact hm

/-- Whoever subscribes is the last to hear. -/
theorem snapshot_subscribe (x y : SurfaceId) (e f : SurfaceEvent) (l : Watcher) :
    (s.subscribe x e l).2.snapshot y f = s.snapshot y f ++
      if x = y ∧ e = f then [((s.subscribe x e l).1, l)] else [] := by
  simp only [snapshot, signal_subscribe]
  split
  · next h =>
    obtain ⟨rfl, rfl⟩ := h
    simp [subscribe]
  · simp

theorem WellFormed.subscribe (h : s.WellFormed) (x : SurfaceId) (e : SurfaceEvent) (l : Watcher) :
    (s.subscribe x e l).2.WellFormed where
  fresh := by
    intro t w hw
    rw [nextId_subscribe]
    rcases (listens_subscribe x e l t w).mp hw with ⟨rfl, -⟩ | hw
    · exact Nat.lt_succ_self _
    · exact Nat.lt_succ_of_lt (h.fresh hw)
  unique := by
    intro t t' w w' hw hw' he
    rcases (listens_subscribe x e l t w).mp hw with ⟨rfl, -⟩ | hw <;>
      rcases (listens_subscribe x e l t' w').mp hw' with ⟨rfl, -⟩ | hw'
    · rfl
    · exact absurd (h.fresh hw') (by rw [← he]; exact Nat.lt_irrefl _)
    · exact absurd (h.fresh hw) (by rw [he]; exact Nat.lt_irrefl _)
    · exact h.unique hw hw' he
  ascending := by
    intro y f
    rw [signal_subscribe]
    split
    · rw [Signal.listeners_addAs, List.pairwise_append]
      refine ⟨h.ascending y f, List.pairwise_singleton _ _, fun a ha b hb => ?_⟩
      rw [List.mem_singleton.mp hb]
      exact h.fresh (t := ⟨y, f, a.1⟩) (w := a.2) ha
    · exact h.ascending y f
  inhabited := by
    intro y g hg
    simp only [Subscriptions.subscribe, Table.find?_insert] at hg
    split at hg
    · cases hg
      cases e <;> simp [WatchedSurface.isEmpty, WatchedSurface.modify, Signal.isEmpty, Signal.addAs]
    · exact h.inhabited hg

/-! ## Cancelling -/

/-- Cancelling touches one signal, and there it takes one number out. -/
theorem listeners_cancel (t : Subscription) (x : SurfaceId) (e : SurfaceEvent) :
    ((s.cancel t).2.signal x e).listeners =
      if x = t.surface ∧ e = t.event then
        (s.signal x e).listeners.eraseP (fun a => decide (a.1 = t.listener))
      else (s.signal x e).listeners := by
  cases hf : s.surfaces.find? t.surface with
  | none =>
    simp only [cancel, hf]
    split
    · next h =>
      rw [signal, h.1, hf]
      cases e <;> rfl
    · rfl
  | some g =>
    simp only [cancel, hf, signal]
    by_cases hx : x = t.surface
    · subst hx
      split
      · next hempty =>
        -- the entry goes with its last listener, and both signals were left without one
        simp only [WatchedSurface.isEmpty, Bool.and_eq_true, Signal.isEmpty,
          List.isEmpty_iff] at hempty
        cases e <;> cases ht : t.event <;>
          simp_all [WatchedSurface.signal, WatchedSurface.modify, Signal.remove, Signal.empty]
      · rw [Table.find?_insert_self, hf]
        cases e <;> cases ht : t.event <;>
          simp [WatchedSurface.signal, WatchedSurface.modify, Signal.remove]
    · have hne : ¬ (x = t.surface ∧ e = t.event) := fun h => hx h.1
      rw [if_neg hne]
      split
      · rw [Table.find?_erase_of_ne hx]
      · rw [Table.find?_insert_of_ne (Ne.symm hx)]

/-- Cancelling a token ends that subscription and no other. -/
theorem listens_cancel (h : s.WellFormed) (t t' : Subscription) (w : Watcher) :
    (s.cancel t).2.Listens t' w ↔ t' ≠ t ∧ s.Listens t' w := by
  simp only [Listens, listeners_cancel]
  by_cases hp : t'.surface = t.surface ∧ t'.event = t.event
  · rw [if_pos hp, eraseP_eq_filter (h.ids_nodup _ _), List.mem_filter, decide_eq_true_eq,
      and_comm]
    have hiff : t'.listener ≠ t.listener ↔ t' ≠ t := by
      obtain ⟨x, e, id⟩ := t
      obtain ⟨x', e', id'⟩ := t'
      simp_all
    rw [hiff]
  · rw [if_neg hp]
    constructor
    · exact fun hm => ⟨fun he => hp (by rw [he]; exact ⟨rfl, rfl⟩), hm⟩
    · exact fun hm => hm.2

/-- Whoever is cancelled is passed over, and the others keep their order. -/
theorem snapshot_cancel (h : s.WellFormed) (t : Subscription) (x : SurfaceId) (e : SurfaceEvent) :
    (s.cancel t).2.snapshot x e = (s.snapshot x e).filter (fun p => decide (p.1 ≠ t)) := by
  simp only [snapshot, listeners_cancel, List.filter_map]
  split
  · next hp =>
    obtain ⟨rfl, rfl⟩ := hp
    rw [eraseP_eq_filter (h.ids_nodup _ _)]
    refine congrArg _ (List.filter_congr fun a _ => ?_)
    obtain ⟨x, e, id⟩ := t
    simp
  · next hp =>
    refine congrArg _ (List.filter_eq_self.mpr fun a _ => ?_).symm
    exact decide_eq_true fun heq => hp (by rw [← heq]; exact ⟨rfl, rfl⟩)

theorem WellFormed.cancel (h : s.WellFormed) (t : Subscription) : (s.cancel t).2.WellFormed where
  fresh := by
    intro t' w hw
    rw [nextId_cancel]
    exact h.fresh ((listens_cancel h t t' w).mp hw).2
  unique := by
    intro t₁ t₂ w₁ w₂ h₁ h₂ he
    exact h.unique ((listens_cancel h t t₁ w₁).mp h₁).2 ((listens_cancel h t t₂ w₂).mp h₂).2 he
  ascending := by
    intro x e
    rw [listeners_cancel]
    split
    · exact (h.ascending x e).sublist List.eraseP_sublist
    · exact h.ascending x e
  inhabited := by
    intro x g hg
    unfold Subscriptions.cancel at hg
    split at hg
    · exact h.inhabited hg
    · next signals hf =>
      simp only at hg
      split at hg
      · rw [Table.find?_erase] at hg
        split at hg
        · cases hg
        · exact h.inhabited hg
      · next hne =>
        rw [Table.find?_insert] at hg
        split at hg
        · cases hg
          simpa using hne
        · exact h.inhabited hg

theorem cancelAll_append (ts ts' : List Subscription) :
    s.cancelAll (ts ++ ts') = (s.cancelAll ts).cancelAll ts' :=
  List.foldl_append

theorem WellFormed.cancelAll (h : s.WellFormed) (ts : List Subscription) :
    (s.cancelAll ts).WellFormed := by
  induction ts generalizing s with
  | nil => exact h
  | cons t ts ih => exact ih (h.cancel t)

theorem listens_cancelAll (h : s.WellFormed) (ts : List Subscription) (t : Subscription)
    (w : Watcher) : (s.cancelAll ts).Listens t w ↔ t ∉ ts ∧ s.Listens t w := by
  induction ts generalizing s with
  | nil => simp [cancelAll]
  | cons a ts ih =>
    have hstep : (s.cancelAll (a :: ts)).Listens t w ↔ t ∉ ts ∧ (s.cancel a).2.Listens t w :=
      ih (h.cancel a)
    rw [hstep, listens_cancel h, List.mem_cons, not_or]
    constructor
    · rintro ⟨h1, h2, h3⟩
      exact ⟨⟨h2, h1⟩, h3⟩
    · rintro ⟨⟨h2, h1⟩, h3⟩
      exact ⟨h1, h2, h3⟩

theorem WellFormed.empty : Subscriptions.empty.WellFormed where
  fresh := by
    intro t w h
    cases he : t.event <;> rw [Listens, he] at h <;> cases h
  unique := by
    intro t _ w _ h
    cases he : t.event <;> rw [Listens, he] at h <;> cases h
  ascending := by
    intro x e
    cases e <;> exact List.Pairwise.nil
  inhabited := by
    intro x g h
    cases h

end Subscriptions

end SurfaceExchange
