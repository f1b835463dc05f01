/-!
# Handles

A handle is the text that names an exported surface outside its client's
connection. Handles are drawn from a stream, which answers every draw with a
handle or with a failure, and may repeat itself. A search draws until a handle
comes that is not taken.
-/

namespace SurfaceExchange

/-- Handles are compared byte for byte, which is the order of their characters. -/
structure Handle where
  text : String
  deriving DecidableEq, Repr

namespace Handle

def bytes (h : Handle) : Nat := h.text.utf8ByteSize

def compare (h h' : Handle) : Ordering :=
  if h.text < h'.text then .lt else if h = h' then .eq else .gt

end Handle

/-- Why no handle could be had. -/
inductive HandleFailure where
  | exhausted
  | tooManyCollisions (attempts : Nat)
  deriving DecidableEq, Repr

def HandleFailure.message : HandleFailure → String
  | .exhausted => "entropy source exhausted"
  | .tooManyCollisions n => "no unique handle after " ++ toString n ++ " attempts"

/-- A stream of answers and how many of them have been drawn. -/
structure HandleStream where
  answer : Nat → Except HandleFailure Handle
  drawn : Nat := 0

namespace HandleStream

/-- The next answer. -/
def draw (s : HandleStream) : Except HandleFailure Handle × HandleStream :=
  (s.answer s.drawn, { s with drawn := s.drawn + 1 })

/-- A stream that reads its answers off a list, a missing handle being a failure. Past the end
it fails for good, or names each draw by its number. -/
def scripted (script : List (Option Handle)) (exhausts : Bool) : HandleStream where
  answer k :=
    match script[k]? with
    | some (some h) => .ok h
    | some none => .error .exhausted
    | none => if exhausts then .error .exhausted else .ok ⟨"h" ++ toString (k + 1)⟩

/-- Draws until an answer is a failure or a handle that is not taken, `attempts` draws having
been made before. A search with a limit gives up at that many draws; limit 0 is none.
`none` is a search still going on when its fuel was used up. -/
def searchFrom (taken : Handle → Bool) (limit : Nat) :
    (fuel : Nat) → (attempts : Nat) → HandleStream →
      Option (Except HandleFailure Handle × HandleStream)
  | 0, _, _ => none
  | fuel + 1, attempts, s =>
    match s.draw with
    | (.error e, s') => some (.error e, s')
    | (.ok h, s') =>
      if !taken h then some (.ok h, s')
      else if limit ≠ 0 ∧ limit ≤ attempts + 1 then
        some (.error (.tooManyCollisions (attempts + 1)), s')
      else searchFrom taken limit fuel (attempts + 1) s'

/-- A search from the start. Its limit is all the fuel that a limited search needs; one
without a limit is followed for `patience` draws. -/
def search (s : HandleStream) (taken : Handle → Bool) (limit patience : Nat) :
    Option (Except HandleFailure Handle × HandleStream) :=
  searchFrom taken limit (if limit = 0 then patience else limit) 0 s

theorem searchFrom_isSome (taken : Handle → Bool) {limit : Nat} (h : limit ≠ 0) {fuel : Nat}
    (attempts : Nat) (hf : fuel ≠ 0) (hl : limit ≤ attempts + fuel) (s : HandleStream) :
    (searchFrom taken limit fuel attempts s).isSome := by
  induction fuel generalizing attempts s with
  | zero => exact absurd rfl hf
  | succ fuel ih =>
    simp only [searchFrom]
    split
    · rfl
    · split
      · rfl
      · split
        · rfl
        · next hn =>
          have hlt : attempts + 1 < limit := by
            have : ¬ limit ≤ attempts + 1 := fun hle => hn ⟨h, hle⟩
            omega
          exact ih (attempts + 1) (by omega) (by omega) _

/-- A search with a limit always ends. -/
theorem search_isSome (s : HandleStream) (taken : Handle → Bool) {limit : Nat} (h : limit ≠ 0)
    (patience : Nat) : (s.search taken limit patience).isSome := by
  simp only [search, if_neg h]
  exact searchFrom_isSome taken h 0 h (by omega) s

end HandleStream

end SurfaceExchange
