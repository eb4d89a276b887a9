import LooseSql.Text.Basic

/-!
# Coloured text

A style is written around a text as an escape sequence for terminals. A style ends at any reset
sequence, so where the text itself holds one, the style is taken up again behind it. Without colours
a text stays as it is.
-/

namespace LooseSql

/-- The colours that reports use. -/
inductive Colour where
  | red
  | green
  | yellow
  | cyan
  | white
  /-- The colour of the terminal, but weaker. -/
  | dimmed
  deriving DecidableEq, Repr

/-- The number of the colour in an escape sequence. -/
def Colour.code : Colour → Text
  | red => "31".toList
  | green => "32".toList
  | yellow => "33".toList
  | cyan => "36".toList
  | white => "37".toList
  | dimmed => "2".toList

/-- A colour, bold or not. -/
structure Style where
  /-- The colour. -/
  colour : Colour
  /-- Bold letters. -/
  bold : Bool
  deriving DecidableEq, Repr

namespace Style

/-- A style that is not bold. -/
def plain (colour : Colour) : Style := ⟨colour, false⟩

/-- A bold style. -/
def strong (colour : Colour) : Style := ⟨colour, true⟩

/-- The sequence that starts the style. -/
def opening (s : Style) : Text :=
  "\x1b[".toList ++ (if s.bold then "1;".toList else []) ++ s.colour.code ++ ['m']

/-- The sequence that ends every style. -/
def reset : Text := "\x1b[0m".toList

/-- The text with `start` behind each reset sequence in it. -/
def resume (start : Text) : Text → Text
  | '\x1b' :: '[' :: '0' :: 'm' :: t => reset ++ start ++ resume start t
  | c :: t => c :: resume start t
  | [] => []

/-- The text in the style, if colours are on. -/
def paint (coloured : Bool) (s : Style) (t : Text) : Text :=
  if coloured then s.opening ++ resume s.opening t ++ reset else t

end Style

end LooseSql
