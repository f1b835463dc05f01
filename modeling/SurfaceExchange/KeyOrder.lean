/-!
# Ordered keys

The order that a table keeps its keys in: strict, total and decidable. A type
that embeds into pairs of numbers inherits theirs (`KeyOrder.ofRank`), which
orders every identifier by its owner first and its own number second.
-/

namespace SurfaceExchange

/-- A strict total order that a program can decide. -/
class KeyOrder (κ : Type) extends LT κ where
  decidableLt : DecidableLT κ
  irrefl : ∀ a : κ, ¬ a < a
  trans : ∀ a b c : κ, a < b → b < c → a < c
  trichotomy : ∀ a b : κ, a < b ∨ a = b ∨ b < a

namespace KeyOrder

attribute [reducible, instance] KeyOrder.decidableLt

variable {κ : Type} [KeyOrder κ]

theorem ne_of_lt {a b : κ} (h : a < b) : a ≠ b := by
  rintro rfl
  exact irrefl a h

theorem asymm {a b : κ} (h : a < b) : ¬ b < a :=
  fun h' => irrefl a (trans a b a h h')

theorem eq_of_not_lt {a b : κ} (h : ¬ a < b) (h' : ¬ b < a) : a = b := by
  rcases trichotomy a b with hlt | heq | hgt
  · exact absurd hlt h
  · exact heq
  · exact absurd hgt h'

/-- Where one key stands against another. -/
def compare (a b : κ) : Ordering :=
  if a < b then .lt else if b < a then .gt else .eq

theorem compare_eq_iff (a b : κ) : compare a b = .eq ↔ a = b := by
  unfold compare
  split
  · next h => simp [ne_of_lt h]
  · next h =>
    split
    · next h' => simp [(ne_of_lt h').symm]
    · next h' => simp [eq_of_not_lt h h']

/-- The keys in ascending order, repetitions kept. -/
def sort (ks : List κ) : List κ := ks.mergeSort (fun a b => decide (¬ b < a))

theorem pairwise_sort (ks : List κ) : (sort ks).Pairwise (fun a b => ¬ b < a) := by
  refine List.Pairwise.imp of_decide_eq_true (List.pairwise_mergeSort ?_ ?_ ks)
  · intro a b c hab hbc
    have hba := of_decide_eq_true hab
    refine decide_eq_true fun hca => ?_
    rcases trichotomy b c with hlt | rfl | hgt
    · exact hba (trans b c a hlt hca)
    · exact hba hca
    · exact of_decide_eq_true hbc hgt
  · intro a b
    by_cases h : b < a
    · simp [asymm h]
    · simp [h]

/-- Keys that are different come out ascending, in whatever order they went in. -/
theorem sort_eq_of_perm {ks ls : List κ} (hls : ls.Pairwise (· < ·)) (h : ks.Perm ls) :
    sort ks = ls :=
  List.Perm.eq_of_pairwise (fun _ _ _ _ hab hba => eq_of_not_lt hba hab) (pairwise_sort ks)
    (hls.imp asymm) ((List.mergeSort_perm ks _).trans h)

/-- Pairs of numbers, the first component deciding. -/
def PairLt (x y : Nat × Nat) : Prop := x.1 < y.1 ∨ (x.1 = y.1 ∧ x.2 < y.2)

instance (x y : Nat × Nat) : Decidable (PairLt x y) :=
  inferInstanceAs (Decidable (_ ∨ _))

theorem PairLt.fst_lt {a b n : Nat} (h : PairLt (a, n) (b, n)) : a < b :=
  h.resolve_right fun heq => Nat.lt_irrefl n heq.2

/-- The order of a type that is ranked by pairs of numbers without repetition. -/
@[reducible] def ofRank {ι : Type} (rank : ι → Nat × Nat)
    (injective : ∀ a b, rank a = rank b → a = b) : KeyOrder ι where
  lt a b := PairLt (rank a) (rank b)
  decidableLt _ _ := inferInstanceAs (Decidable (PairLt _ _))
  irrefl a h := by rcases h with h | ⟨_, h⟩ <;> exact Nat.lt_irrefl _ h
  trans a b c h h' := by
    simp only [PairLt] at h h' ⊢
    omega
  trichotomy a b := by
    by_cases h : rank a = rank b
    · exact Or.inr (Or.inl (injective a b h))
    · have : (rank a).1 ≠ (rank b).1 ∨ (rank a).2 ≠ (rank b).2 := by
        by_cases h1 : (rank a).1 = (rank b).1
        · exact Or.inr fun h2 => h (Prod.ext h1 h2)
        · exact Or.inl h1
      show PairLt _ _ ∨ a = b ∨ PairLt _ _
      simp only [PairLt]
      omega

end KeyOrder

end SurfaceExchange
