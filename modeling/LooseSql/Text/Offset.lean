import LooseSql.Text.Basic

/-!
# Byte offsets

Reports give a place in a text as the number of bytes before it in UTF-8. Inside the library
places count characters; the two functions here change between the units. A place always has an
offset, and an offset has a place unless it falls inside a character or past the end.
-/

namespace LooseSql.Text

/-- The number of bytes that the text takes in UTF-8. -/
def byteLength (t : Text) : Nat := t.foldr (fun c n => c.utf8Size + n) 0

/-- The number of bytes before the place `i`. -/
def byteOffset (t : Text) (i : Nat) : Nat := byteLength (t.take i)

/-- The place that has `n` bytes before it, if a character starts there or the text ends. -/
def placeOfByte? : Text → Nat → Option Nat
  | _, 0 => some 0
  | [], _ + 1 => none
  | c :: t, n + 1 =>
    if c.utf8Size ≤ n + 1 then (placeOfByte? t (n + 1 - c.utf8Size)).map (· + 1) else none

end LooseSql.Text
