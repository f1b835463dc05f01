import SurfaceExchange.Proofs.Registration

/-!
# The register as one list

A register keeps its listeners apart, surface by surface and event by event,
and makes and drops entries on the way. Seen from outside it is one list
(`Roll`): whoever subscribes goes to its end, under a token that was never
issued before, and whoever is cancelled leaves it. `Represents` is what ties
the two together, and every call keeps it, with tokens that are good, spent or
made up. So every answer of the register is an answer of the list (`Mirrors`).
-/

namespace SurfaceExchange

/-- Whoever listens, in the order of subscribing, and every token issued so far. -/
structure Roll where
  issued : List Subscription := []
  entries : List (Subscription × Watcher) := []

namespace Roll

def tokens (r : Roll) : List Subscription := r.entries.map Prod.fst

/-- Whoever listens to one event of one surface. -/
def listening (r : Roll) (x : SurfaceId) (e : SurfaceEvent) : List (Subscription × Watcher) :=
  r.entries.filter (fun p => decide (p.1.surface = x ∧ p.1.event = e))

def enter (r : Roll) (t : Subscription) (w : Watcher) : Roll :=
  ⟨r.issued ++ [t], r.entries ++ [(t, w)]⟩

def strike (r : Roll) (t : Subscription) : Roll :=
  { r with entries := r.entries.filter (fun p => decide (p.1 ≠ t)) }

theorem tokens_enter (r : Roll) (t : Subscription) (w : Watcher) :
    (r.enter t w).tokens = r.tokens ++ [t] := by
  simp [tokens, enter]

theorem tokens_strike (r : Roll) (t : Subscription) :
    (r.strike t).tokens = r.tokens.filter (fun u => decide (u ≠ t)) := by
  simp [tokens, strike, List.filter_map, Function.comp_def]

theorem listening_enter (r : Roll) (t : Subscription) (w : Watcher) (x : SurfaceId)
    (e : SurfaceEvent) : (r.enter t w).listening x e =
      r.listening x e ++ if t.surface = x ∧ t.event = e then [(t, w)] else [] := by
  simp only [listening, enter, List.filter_append]
  split <;> simp_all

theorem listening_strike (r : Roll) (t : Subscription) (x : SurfaceId) (e : SurfaceEvent) :
    (r.strike t).listening x e = (r.listening x e).filter (fun p => decide (p.1 ≠ t)) := by
  simp only [listening, strike, List.filter_filter, Bool.and_comm]

theorem mem_listening_iff (r : Roll) (p : Subscription × Watcher) :
    p ∈ r.listening p.1.surface p.1.event ↔ p ∈ r.entries := by
  simp [listening]

end Roll

namespace Subscriptions

/-- What may be asked of a register. -/
inductive Call where
  | subscribe (surface : SurfaceId) (event : SurfaceEvent) (w : Watcher)
  | cancel (t : Subscription)
  deriving DecidableEq, Repr

/-- Has the register do as it is asked, and enters its answer into the list. -/
def record : Subscriptions × Roll → Call → Subscriptions × Roll
  | (s, r), .subscribe x e w => ((s.subscribe x e w).2, r.enter (s.subscribe x e w).1 w)
  | (s, r), .cancel t => ((s.cancel t).2, r.strike t)

/-- The register and the list after some calls. -/
def keep (calls : List Call) : Subscriptions × Roll := calls.foldl record (.empty, {})

/-- The list stands for the register. -/
structure Represents (r : Roll) (s : Subscriptions) : Prop where
  wellFormed : s.WellFormed
  snapshot : ∀ x e, s.snapshot x e = r.listening x e
  kept : r.tokens.Sublist r.issued
  ascending : r.issued.Pairwise (fun t u => t.listener.val < u.listener.val)
  below : ∀ t ∈ r.issued, t.listener.val < s.nextId

/-- Whatever the register is asked, it answers as the list does. -/
structure Mirrors (s : Subscriptions) (r : Roll) : Prop where
  snapshot : ∀ x e, s.snapshot x e = r.listening x e
  isLive : ∀ t, s.isLive t = true ↔ t ∈ r.tokens
  cancel : ∀ t, (s.cancel t).1 = true ↔ t ∈ r.tokens
  size : s.size = r.entries.length
  isEmpty : s.isEmpty = true ↔ r.entries = []
  inhabited : ∀ x g, s.surfaces.find? x = some g → g.isEmpty = false
  /-- The next token says what was subscribed to, and was never issued before. -/
  subscribe : ∀ x e w, (s.subscribe x e w).1.surface = x ∧ (s.subscribe x e w).1.event = e ∧
    (s.subscribe x e w).1 ∉ r.issued
  issuedOnce : r.issued.Nodup
  inOrder : r.tokens.Sublist r.issued

namespace Represents

variable {r : Roll} {s : Subscriptions} {t : Subscription}

theorem empty : Represents {} .empty where
  wellFormed := .empty
  snapshot _ e := by cases e <;> rfl
  kept := List.Sublist.refl _
  ascending := List.Pairwise.nil
  below := nofun

/-! ## One call -/

theorem subscribe (h : Represents r s) (x : SurfaceId) (e : SurfaceEvent) (w : Watcher) :
    Represents (r.enter (s.subscribe x e w).1 w) (s.subscribe x e w).2 where
  wellFormed := h.wellFormed.subscribe x e w
  snapshot y f := by
    rw [snapshot_subscribe, Roll.listening_enter, h.snapshot]
    rfl
  kept := by
    rw [Roll.tokens_enter]
    exact h.kept.append (List.Sublist.refl _)
  ascending := by
    refine List.pairwise_append.mpr ⟨h.ascending, List.pairwise_singleton _ _, fun t ht u hu => ?_⟩
    rw [List.mem_singleton.mp hu]
    exact h.below t ht
  below := by
    intro t ht
    rw [nextId_subscribe]
    rcases List.mem_append.mp ht with ht | ht
    · exact Nat.lt_succ_of_lt (h.below t ht)
    · rw [List.mem_singleton.mp ht]
      exact Nat.lt_succ_self _

theorem cancel (h : Represents r s) (t : Subscription) :
    Represents (r.strike t) (s.cancel t).2 where
  wellFormed := h.wellFormed.cancel t
  snapshot x e := by rw [snapshot_cancel h.wellFormed, Roll.listening_strike, h.snapshot]
  kept := by
    rw [Roll.tokens_strike]
    exact List.filter_sublist.trans h.kept
  ascending := h.ascending
  below u hu := by
    rw [nextId_cancel]
    exact h.below u hu

/-! ## What the list tells of the register -/

theorem mem_entries_iff (h : Represents r s) (p : Subscription × Watcher) :
    p ∈ r.entries ↔ p ∈ s.entries := by
  rw [Subscriptions.mem_entries_iff, ← Roll.mem_listening_iff, ← h.snapshot, mem_snapshot_iff]
  simp

theorem isLive_iff (h : Represents r s) (t : Subscription) : s.isLive t = true ↔ t ∈ r.tokens := by
  rw [Subscriptions.isLive_iff]
  constructor
  · rintro ⟨w, hw⟩
    have hm : (t, w) ∈ r.entries :=
      (h.mem_entries_iff _).mpr ((Subscriptions.mem_entries_iff t w).mpr hw)
    exact List.mem_map_of_mem hm
  · intro ht
    obtain ⟨⟨t, w⟩, hm, rfl⟩ := List.mem_map.mp ht
    exact ⟨w, (Subscriptions.mem_entries_iff t w).mp ((h.mem_entries_iff _).mp hm)⟩

theorem issued_nodup (h : Represents r s) : r.issued.Nodup :=
  h.ascending.imp fun hlt heq => by
    rw [heq] at hlt
    exact Nat.lt_irrefl _ hlt

/-- The register holds what is on the list, in an order of its own. -/
theorem entries_perm (h : Represents r s) : r.entries.Perm s.entries := by
  have hnodup : r.entries.Nodup := List.Nodup.of_map Prod.fst (h.issued_nodup.sublist h.kept)
  exact (List.perm_ext_iff_of_nodup hnodup h.wellFormed.entries_nodup).mpr h.mem_entries_iff

theorem fresh (h : Represents r s) (x : SurfaceId) (e : SurfaceEvent) (w : Watcher) :
    (s.subscribe x e w).1 ∉ r.issued := fun hm =>
  Nat.lt_irrefl _ (h.below _ hm)

theorem mirrors (h : Represents r s) : Mirrors s r where
  snapshot := h.snapshot
  isLive := h.isLive_iff
  cancel t := by rw [cancel_fst, h.isLive_iff]
  size := by rw [← length_entries, h.entries_perm.length_eq]
  isEmpty := by
    have hsurfaces : s.isEmpty = true ↔ s.surfaces = .empty := by
      rw [Subscriptions.isEmpty, Table.isEmpty, List.isEmpty_iff]
      exact ⟨fun hs => Table.toList_injective hs, fun hs => by rw [hs]; rfl⟩
    rw [hsurfaces, h.wellFormed.surfaces_eq_empty_iff, ← List.length_eq_zero_iff,
      ← h.entries_perm.length_eq, List.length_eq_zero_iff]
  inhabited _ _ := h.wellFormed.inhabited
  subscribe x e w := ⟨rfl, rfl, h.fresh x e w⟩
  issuedOnce := h.issued_nodup
  inOrder := h.kept

end Represents

/-! ## Any number of calls -/

variable {p : Subscriptions × Roll} {t : Subscription}

theorem Represents.record (h : Represents p.2 p.1) (c : Call) :
    Represents (record p c).2 (record p c).1 := by
  cases c with
  | subscribe x e w => exact h.subscribe x e w
  | cancel t => exact h.cancel t

theorem Represents.foldl_record (h : Represents p.2 p.1) (calls : List Call) :
    Represents (calls.foldl Subscriptions.record p).2 (calls.foldl Subscriptions.record p).1 := by
  induction calls generalizing p with
  | nil => exact h
  | cons c calls ih => exact ih (h.record c)

/-- A number that was given is not given again, so what is not live under it stays so. -/
theorem Represents.spent_foldl_record (h : Represents p.2 p.1)
    (hnumber : t.listener.val < p.1.nextId) (hspent : t ∉ p.2.tokens) (calls : List Call) :
    t ∉ (calls.foldl Subscriptions.record p).2.tokens := by
  induction calls generalizing p with
  | nil => exact hspent
  | cons c calls ih =>
    refine ih (h.record c) ?_ ?_
    · cases c with
      | subscribe x e w => exact Nat.lt_succ_of_lt hnumber
      | cancel u =>
        rw [Subscriptions.record, nextId_cancel]
        exact hnumber
    · cases c with
      | subscribe x e w =>
        rw [Subscriptions.record, Roll.tokens_enter, List.mem_append, List.mem_singleton]
        rintro (ht | rfl)
        · exact hspent ht
        · exact Nat.lt_irrefl _ hnumber
      | cancel u =>
        rw [Subscriptions.record, Roll.tokens_strike]
        exact fun ht => hspent (List.mem_of_mem_filter ht)

theorem represents_keep (calls : List Call) : Represents (keep calls).2 (keep calls).1 :=
  Represents.empty.foldl_record calls

/-- Whatever was asked of a register before, it answers as the list does that was kept on the way.
A token that was cancelled is never live again, and neither is one made up from the number of a
token that was issued. -/
theorem keep_mirrors (calls : List Call) :
    Mirrors (keep calls).1 (keep calls).2 ∧
    ∀ t u later, u ∈ (keep calls).2.issued → t.listener = u.listener →
      (keep (calls ++ .cancel t :: later)).1.isLive t = false := by
  have hkeep := represents_keep calls
  refine ⟨hkeep.mirrors, fun t u later hu hnumber => ?_⟩
  have hbelow : t.listener.val < (record (keep calls) (.cancel t)).1.nextId := by
    rw [record, nextId_cancel, hnumber]
    exact hkeep.below u hu
  have hstruck : t ∉ (record (keep calls) (.cancel t)).2.tokens := by
    rw [record, Roll.tokens_strike]
    simp
  have hspent := (hkeep.record (.cancel t)).spent_foldl_record hbelow hstruck later
  have heq : later.foldl record (record (keep calls) (.cancel t)) =
      keep (calls ++ .cancel t :: later) := by
    rw [keep, keep, List.foldl_append, List.foldl_cons]
  rw [heq] at hspent
  exact Bool.eq_false_iff.mpr fun hlive =>
    hspent (((represents_keep _).isLive_iff t).mp hlive)

/-- A surface is subscribed to, and its token is then altered to name another one. Cancelled, the
altered token stays dead when that other surface is subscribed to. -/
theorem keep_mirrors_altered :
    let calls : List Call := [.subscribe ⟨5⟩ .unmap (.exportUnmap ⟨⟨1⟩, 3⟩)]
    let later : List Call := [.subscribe ⟨6⟩ .unmap (.exportUnmap ⟨⟨1⟩, 4⟩)]
    ⟨⟨5⟩, .unmap, ⟨1⟩⟩ ∈ (keep calls).2.issued ∧
    (keep (calls ++ .cancel ⟨⟨6⟩, .unmap, ⟨1⟩⟩ :: later)).2.tokens =
      [⟨⟨5⟩, .unmap, ⟨1⟩⟩, ⟨⟨6⟩, .unmap, ⟨2⟩⟩] ∧
    (keep (calls ++ .cancel ⟨⟨6⟩, .unmap, ⟨1⟩⟩ :: later)).1.isLive ⟨⟨6⟩, .unmap, ⟨1⟩⟩ = false :=
  ⟨by decide, by decide, (keep_mirrors _).2 _ ⟨⟨5⟩, .unmap, ⟨1⟩⟩ _ (by decide) rfl⟩

end Subscriptions

end SurfaceExchange
