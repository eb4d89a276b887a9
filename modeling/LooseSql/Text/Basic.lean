/-!
# Query text

A query is handled as the list of its characters, and a place in it is the number of
characters before that place. A `Span` is a stretch of a text between two places.

This file holds the general operations on texts that need no knowledge of SQL.
-/

namespace LooseSql

/-- A text is the list of its characters. -/
abbrev Text := List Char

namespace Text

/-- Two texts agree up to the case of the letters `a` to `z`. No other letter has a case
here, so the long s and the Kelvin sign differ from the letters they look like. -/
def sameIgnoringCase (a b : Text) : Bool :=
  a.map Char.toLower == b.map Char.toLower

/-- The text with the letters `a` to `z` in upper case and all else as it was. -/
def toUpperAscii (t : Text) : Text := t.map Char.toUpper

/-- The texts one after another, with `gap` between each two neighbours. -/
def joinWith (gap : Text) (parts : List Text) : Text :=
  (parts.intersperse gap).flatten

/-- The part of `whole` that stands before `rest`, for a `rest` that ends `whole`. -/
def before (whole rest : Text) : Text := whole.take (whole.length - rest.length)

end Text

/-- A hexadecimal digit. -/
def isHexDigit (c : Char) : Bool :=
  c.isDigit || ('a' ≤ c && c ≤ 'f') || ('A' ≤ c && c ≤ 'F')

/-- A stretch of a text: from the place `start` up to the place `stop`. -/
structure Span where
  /-- The number of characters before the stretch. -/
  start : Nat
  /-- The number of characters before the end of the stretch. -/
  stop : Nat
  deriving DecidableEq, Repr

namespace Span

/-- A span that holds no character. -/
def isEmpty (s : Span) : Bool := decide (s.stop ≤ s.start)

/-- The characters of `t` in the span. -/
def slice (s : Span) (t : Text) : Text := (t.drop s.start).take (s.stop - s.start)

/-- Two spans share a place. -/
def overlaps (a b : Span) : Bool := decide (a.start < b.stop ∧ b.start < a.stop)

/-- Both ends of the span under `f`, such as a change of the unit of measure. -/
def map (f : Nat → Nat) (s : Span) : Span := ⟨f s.start, f s.stop⟩

end Span

end LooseSql
