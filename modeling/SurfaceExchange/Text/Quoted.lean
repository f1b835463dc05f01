import SurfaceExchange.Text.Unprintable

/-!
# Quoted text

Text between double quotes, written so that it can be told apart from every
other text: the quote and the backslash are escaped, four control characters
have letters, and every other character that is not shown as itself is written
by its code point.
-/

namespace SurfaceExchange.Text

/-- A code point in hexadecimal, without leading zeros. -/
def byCodePoint (c : Char) : List Char :=
  '\\' :: 'u' :: '\x7b' :: (Nat.toDigits 16 c.toNat ++ ['\x7d'])

def quoteChar (c : Char) : List Char :=
  if c = '"' ∨ c = '\\' then ['\\', c]
  else if c = '\x00' then ['\\', '0']
  else if c = '\t' then ['\\', 't']
  else if c = '\n' then ['\\', 'n']
  else if c = '\r' then ['\\', 'r']
  else if isUnprintable c then byCodePoint c
  else [c]

def quoted (s : String) : String :=
  String.ofList ('"' :: (s.toList.flatMap quoteChar ++ ['"']))

end SurfaceExchange.Text
