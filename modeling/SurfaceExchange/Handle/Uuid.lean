import SurfaceExchange.Handle.Basic

/-!
# UUIDs as handles

A handle that stands for 128 bits is their 32 lowercase hexadecimal digits,
hyphenated in groups of 8, 4, 4, 4 and 12. Random handles are of version 4:
six bits are fixed and the others are drawn.
-/

namespace SurfaceExchange

structure Uuid where
  bits : BitVec 128
  deriving DecidableEq

namespace Uuid

/-- The 32 hexadecimal digits, the highest first. -/
def digits (u : Uuid) : List Nat :=
  (List.range 32).map (fun i => u.bits.toNat >>> (4 * (31 - i)) % 16)

/-- Cuts a list into groups of the given sizes. -/
def groups {α : Type} : List Nat → List α → List (List α)
  | [], _ => []
  | n :: sizes, xs => xs.take n :: groups sizes (xs.drop n)

/-- The sizes of the groups in a written UUID. -/
def groupSizes : List Nat := [8, 4, 4, 4, 12]

def text (u : Uuid) : String :=
  "-".intercalate ((groups groupSizes (u.digits.map Nat.digitChar)).map String.ofList)

/-- The digit that tells how the value was made. -/
def version (u : Uuid) : Nat := u.digits.getD 12 0

/-- The two bits that tell the layout. -/
def variant (u : Uuid) : Nat := u.digits.getD 16 0 / 4

/-- The value of a lowercase hexadecimal digit. -/
def digitValue? (c : Char) : Option Nat :=
  if c.isDigit then some (c.toNat - '0'.toNat)
  else if 'a' ≤ c ∧ c ≤ 'f' then some (c.toNat - 'a'.toNat + 10)
  else none

/-- Reads a written UUID. Only the form that `text` writes is read. -/
def ofText? (s : String) : Option Uuid :=
  (((s.toList.filter (· ≠ '-')).mapM digitValue?).map (fun ds =>
    (⟨BitVec.ofNat 128 (ds.foldl (fun n d => 16 * n + d) 0)⟩ : Uuid))).filter
      (fun u => decide (u.text = s))

/-- Sets the six bits that version 4 fixes and keeps the others. -/
def version4 (b : BitVec 128) : Uuid :=
  let field (width shift : Nat) : BitVec 128 := BitVec.ofNat 128 (1 <<< width - 1) <<< shift
  ⟨(b &&& ~~~ field 4 76 &&& ~~~ field 2 62) ||| (4#128 <<< 76) ||| (2#128 <<< 62)⟩

theorem text_of_ofText? {s : String} {u : Uuid} (h : ofText? s = some u) : u.text = s :=
  of_decide_eq_true (Option.filter_eq_some_iff.mp h).2

end Uuid

/-- The handle that stands for a UUID. -/
def Handle.ofUuid (u : Uuid) : Handle := ⟨u.text⟩

/-- Random handles, where the bits come from is left open. The stream never fails. -/
def HandleStream.random (bits : Nat → BitVec 128) : HandleStream where
  answer k := .ok (.ofUuid (.version4 (bits k)))

/-- The handle is a written UUID of version 4. -/
def Handle.isRandomForm (h : Handle) : Bool :=
  match Uuid.ofText? h.text with
  | none => false
  | some u => decide (u.version = 4 ∧ u.variant = 2)

end SurfaceExchange
