import LooseSql.Text.After
import LooseSql.Text.Doubled

/-!
# Comments

A text is read as a row of *pieces*: quoted stretches, comments, and single characters that are
neither. Comment marks inside a quote do not count, and quotes inside a comment do not either.

* A quote in `'` or `"` may hold its own mark written twice. If such a quote is never closed that
  way, the first half of the last doubled mark closes it; if there is none, the mark is an
  ordinary character.
* A bracketed name ends at the first `]`.
* `--` runs to the end of the line, `/*` to the next `*/` or to the end of the text.

`stripComments` puts one space in place of every comment and keeps all else.
-/

namespace LooseSql

/-- A piece of a text, with the characters that it is made of. -/
inductive Piece where
  /-- A character outside quotes and comments. -/
  | plain (c : Char)
  /-- A quoted stretch with its quotes. -/
  | quoted (raw : Text)
  /-- A comment with its marks, without the line end. -/
  | comment (raw : Text)
  deriving DecidableEq, Repr

/-- A line comment ends before these. -/
def isLineEnd (c : Char) : Bool := c == '\r' || c == '\n'

/-- What follows a block comment: the text after the next `*/`, or nothing. -/
def afterBlockComment : Text → Text
  | [] => []
  | [_] => []
  | c :: d :: t => if c = '*' ∧ d = '/' then t else afterBlockComment (d :: t)

namespace Piece

/-- The characters of the piece. -/
def raw : Piece → Text
  | plain c => [c]
  | quoted t => t
  | comment t => t

/-- The quoted stretch or comment at the head of a text, if one starts there. -/
def leading? : Text → Option Piece
  | '\'' :: t => (Doubled.after? '\'' t).map fun rest => quoted (Text.before ('\'' :: t) rest)
  | '"' :: t => (Doubled.after? '"' t).map fun rest => quoted (Text.before ('"' :: t) rest)
  | '[' :: t => (afterNextMark? ']' t).map fun rest => quoted (Text.before ('[' :: t) rest)
  | '-' :: '-' :: t => some (comment ('-' :: '-' :: t.takeWhile fun c => !isLineEnd c))
  | '/' :: '*' :: t => some (comment (Text.before ('/' :: '*' :: t) (afterBlockComment t)))
  | _ => none

/-- The piece that stands in for this one once comments are taken out. -/
def withoutComment : Piece → Text
  | comment _ => [' ']
  | p => p.raw

end Piece

/-- The pieces of a text, in order. Together they are the text. -/
def pieces : Text → List Piece
  | [] => []
  | c :: t =>
    match Piece.leading? (c :: t) with
    -- The piece starts with `c`, so one character less of `t` belongs to it.
    | some p => p :: pieces (t.drop (p.raw.length - 1))
    | none => .plain c :: pieces t
  termination_by t => t.length
  decreasing_by all_goals grind

/-- The text with one space in place of every comment. -/
def stripComments (t : Text) : Text := (pieces t).flatMap Piece.withoutComment

end LooseSql
