import SurfaceExchange.Handle.Basic

/-!
# How a search for a handle ends

A search reads answers off a stream. It `Ends` at the first answer that is
either a failure or a handle nobody has, or at its limit if all answers up to
there are handles that are taken. That it ends so and in no other way, after
exactly so many draws, is `search_eq_some_iff`.
-/

namespace SurfaceExchange.HandleStream

/-- The next `n` answers are handles that are taken. -/
def Collides (s : HandleStream) (taken : Handle → Bool) (n : Nat) : Prop :=
  ∀ k < n, ∃ h, s.answer (s.drawn + k) = .ok h ∧ taken h = true

/-- A failure, or a handle that is not taken. -/
def Conclusive (taken : Handle → Bool) : Except HandleFailure Handle → Prop
  | .error _ => True
  | .ok h => taken h = false

/-- A search with so many attempts behind it ends after `n` draws more and with this result.
Limit 0 is none. -/
inductive EndsAfter (s : HandleStream) (taken : Handle → Bool) (limit attempts : Nat) :
    Nat → Except HandleFailure Handle → Prop
  /-- The last answer concludes the search. -/
  | concluded {n a} : s.Collides taken n → (limit = 0 ∨ attempts + n < limit) →
      s.answer (s.drawn + n) = a → Conclusive taken a →
      EndsAfter s taken limit attempts (n + 1) a
  /-- The last draw is the last that the limit allows, and it is in vain. -/
  | collided {n} : s.Collides taken n → limit ≠ 0 → attempts + n = limit →
      EndsAfter s taken limit attempts n (.error (.tooManyCollisions limit))

/-- The same of a search from the start. -/
def Ends (s : HandleStream) (taken : Handle → Bool) (limit n : Nat)
    (a : Except HandleFailure Handle) : Prop := s.EndsAfter taken limit 0 n a

/-- The stream with `n` answers more drawn. -/
def skip (s : HandleStream) (n : Nat) : HandleStream := { s with drawn := s.drawn + n }

variable {s s' : HandleStream} {taken : Handle → Bool} {limit attempts n : Nat}
  {a : Except HandleFailure Handle}

theorem skip_succ (s : HandleStream) (n : Nat) : s.skip (n + 1) = (s.skip 1).skip n := by
  simp [skip, Nat.add_assoc, Nat.add_comm 1 n]

theorem answer_skip_one (s : HandleStream) (k : Nat) :
    (s.skip 1).answer ((s.skip 1).drawn + k) = s.answer (s.drawn + (k + 1)) := by
  simp [skip, Nat.add_assoc, Nat.add_comm 1 k]

/-- A taken handle first, and then the rest. -/
theorem collides_succ_iff (s : HandleStream) (n : Nat) : s.Collides taken (n + 1) ↔
    (∃ h, s.answer s.drawn = .ok h ∧ taken h = true) ∧ (s.skip 1).Collides taken n := by
  constructor
  · intro hs
    refine ⟨hs 0 (Nat.succ_pos n), fun k hk => ?_⟩
    rw [answer_skip_one]
    exact hs (k + 1) (Nat.succ_lt_succ hk)
  · rintro ⟨hfirst, hrest⟩ k hk
    cases k with
    | zero => exact hfirst
    | succ k =>
      rw [← answer_skip_one]
      exact hrest k (Nat.lt_of_succ_lt_succ hk)

/-! ## One draw -/

/-- The first answer is a handle that is taken, and the search goes on. -/
theorem endsAfter_of_taken {h : Handle} (hfirst : s.answer s.drawn = .ok h)
    (htaken : taken h = true) (hnext : limit = 0 ∨ attempts + 1 < limit) :
    s.EndsAfter taken limit attempts n a ↔
      ∃ m, n = m + 1 ∧ (s.skip 1).EndsAfter taken limit (attempts + 1) m a := by
  constructor
  · rintro (@⟨m, a, hs, hleft, hanswer, hconclusive⟩ | ⟨hs, hlimit, hn⟩)
    · refine ⟨m, rfl, ?_⟩
      cases m with
      | zero =>
        rw [Nat.add_zero, hfirst] at hanswer
        subst hanswer
        exact absurd (hconclusive.symm.trans htaken) Bool.false_ne_true
      | succ m =>
        exact .concluded ((collides_succ_iff s m).mp hs).2 (by omega)
          ((answer_skip_one s m).trans hanswer) hconclusive
    · obtain ⟨m, rfl⟩ : ∃ m, n = m + 1 := ⟨n - 1, by omega⟩
      exact ⟨m, rfl, .collided ((collides_succ_iff s m).mp hs).2 hlimit (by omega)⟩
  · rintro ⟨m, rfl, hrest⟩
    have hcons : ∀ {k}, (s.skip 1).Collides taken k → s.Collides taken (k + 1) := fun hs =>
      (collides_succ_iff s _).mpr ⟨⟨h, hfirst, htaken⟩, hs⟩
    cases hrest with
    | concluded hs hleft hanswer hconclusive =>
      exact .concluded (hcons hs) (by omega) ((answer_skip_one s _).symm.trans hanswer) hconclusive
    | collided hs hlimit hn => exact .collided (hcons hs) hlimit (by omega)

section Draw

variable (hroom : limit = 0 ∨ attempts < limit)

include hroom

/-- The first answer concludes the search. -/
theorem endsAfter_of_conclusive (hfirst : Conclusive taken (s.answer s.drawn)) :
    s.EndsAfter taken limit attempts n a ↔ n = 1 ∧ a = s.answer s.drawn := by
  have hvain : ∀ m, ¬ s.Collides taken (m + 1) := by
    intro m hs
    obtain ⟨⟨h, hok, htaken⟩, -⟩ := (collides_succ_iff s m).mp hs
    rw [hok] at hfirst
    exact Bool.false_ne_true (hfirst.symm.trans htaken)
  constructor
  · rintro (@⟨m, a, hs, -, hlast, -⟩ | ⟨hs, hlimit, hlast⟩)
    · cases m with
      | zero => exact ⟨rfl, hlast.symm⟩
      | succ m => exact absurd hs (hvain m)
    · cases n with
      | zero => omega
      | succ m => exact absurd hs (hvain m)
  · rintro ⟨rfl, rfl⟩
    exact .concluded nofun hroom rfl hfirst

/-- The first answer is a handle that is taken, and no draw is left. -/
theorem endsAfter_of_last {h : Handle} (hfirst : s.answer s.drawn = .ok h)
    (htaken : taken h = true) (hlimit : limit ≠ 0) (hlast : limit ≤ attempts + 1) :
    s.EndsAfter taken limit attempts n a ↔
      n = 1 ∧ a = .error (.tooManyCollisions (attempts + 1)) := by
  obtain rfl : limit = attempts + 1 := by omega
  have hone : s.Collides taken 1 := (collides_succ_iff s 0).mpr ⟨⟨h, hfirst, htaken⟩, nofun⟩
  constructor
  · rintro (@⟨m, a, hs, hleft, hanswer, hconclusive⟩ | ⟨-, -, hn⟩)
    · obtain rfl : m = 0 := by omega
      rw [Nat.add_zero, hfirst] at hanswer
      subst hanswer
      exact absurd (hconclusive.symm.trans htaken) Bool.false_ne_true
    · exact ⟨by omega, rfl⟩
  · rintro ⟨rfl, rfl⟩
    exact .collided hone hlimit rfl

/-- Induction on the fuel, one draw at a time. -/
theorem searchFrom_eq_some_iff {fuel : Nat} :
    searchFrom taken limit fuel attempts s = some (a, s') ↔
      ∃ n ≤ fuel, s.EndsAfter taken limit attempts n a ∧ s' = s.skip n := by
  induction fuel generalizing attempts s with
  | zero =>
    refine iff_of_false nofun ?_
    rintro ⟨n, hn, hends, -⟩
    cases hends <;> omega
  | succ fuel ih =>
    have hdraw : s.draw = (s.answer s.drawn, s.skip 1) := rfl
    rw [searchFrom, hdraw]
    by_cases hfirst : Conclusive taken (s.answer s.drawn)
    · simp only [endsAfter_of_conclusive hroom hfirst]
      have hone : some (s.answer s.drawn, s.skip 1) = some (a, s') ↔
          ∃ n ≤ fuel + 1, (n = 1 ∧ a = s.answer s.drawn) ∧ s' = s.skip n := by
        constructor
        · intro heq
          cases heq
          exact ⟨1, by omega, ⟨rfl, rfl⟩, rfl⟩
        · rintro ⟨n, -, ⟨rfl, rfl⟩, rfl⟩
          rfl
      rw [← hone]
      cases hanswer : s.answer s.drawn with
      | error e => rfl
      | ok h =>
        rw [hanswer] at hfirst
        have hfree : taken h = false := hfirst
        simp [hfree]
    · cases hanswer : s.answer s.drawn with
      | error e =>
        rw [hanswer] at hfirst
        exact absurd trivial hfirst
      | ok h =>
        rw [hanswer] at hfirst
        have htaken : taken h = true := by simpa [Conclusive] using hfirst
        simp only [htaken, Bool.not_true, Bool.false_eq_true, if_false]
        by_cases hlast : limit ≠ 0 ∧ limit ≤ attempts + 1
        · rw [if_pos hlast]
          simp only [endsAfter_of_last hroom hanswer htaken hlast.1 hlast.2]
          constructor
          · intro heq
            cases heq
            exact ⟨1, by omega, ⟨rfl, rfl⟩, rfl⟩
          · rintro ⟨n, -, ⟨rfl, rfl⟩, rfl⟩
            rfl
        · have hnext : limit = 0 ∨ attempts + 1 < limit := by omega
          rw [if_neg hlast, ih hnext]
          simp only [endsAfter_of_taken hanswer htaken hnext]
          constructor
          · rintro ⟨m, hm, hends, rfl⟩
            exact ⟨m + 1, by omega, ⟨m, rfl, hends⟩, (skip_succ s m).symm⟩
          · rintro ⟨n, hn, ⟨m, rfl, hends⟩, rfl⟩
            exact ⟨m, by omega, hends, skip_succ s m⟩

end Draw

/-! ## The search as a whole -/

/-- A search that has the patience to end draws the answers that it ends with and no others. -/
theorem search_of_ends (h : s.Ends taken limit n a) (patience : Nat)
    (hpatience : limit = 0 → n ≤ patience) :
    s.search taken limit patience = some (a, s.skip n) := by
  have hroom : limit = 0 ∨ 0 < limit := by omega
  refine (searchFrom_eq_some_iff hroom).mpr ⟨n, ?_, h, rfl⟩
  split
  · next hlimit => exact hpatience hlimit
  · -- no search draws more than its limit
    cases h <;> omega

/-- With patience enough a search ends if and only if its answers say so, and it has drawn those
answers then and no others. -/
theorem search_eq_some_iff : (∃ patience, s.search taken limit patience = some (a, s')) ↔
    ∃ n, s.Ends taken limit n a ∧ s' = s.skip n := by
  constructor
  · rintro ⟨patience, hsearch⟩
    have hroom : limit = 0 ∨ 0 < limit := by omega
    obtain ⟨n, -, hends, hskip⟩ := (searchFrom_eq_some_iff hroom).mp hsearch
    exact ⟨n, hends, hskip⟩
  · rintro ⟨n, hends, rfl⟩
    exact ⟨n, search_of_ends hends n fun _ => Nat.le_refl n⟩

/-- The answers determine how a search ends and when. -/
theorem Ends.unique {n' : Nat} {a' : Except HandleFailure Handle} (h : s.Ends taken limit n a)
    (h' : s.Ends taken limit n' a') : n = n' ∧ a = a' := by
  have hsearch := search_of_ends h (max n n') fun _ => Nat.le_max_left n n'
  rw [search_of_ends h' (max n n') fun _ => Nat.le_max_right n n'] at hsearch
  obtain ⟨ha, hskip⟩ := Prod.mk.inj (Option.some.inj hsearch)
  have hdrawn : s.drawn + n' = s.drawn + n := congrArg HandleStream.drawn hskip
  exact ⟨by omega, ha.symm⟩

end SurfaceExchange.HandleStream
