import LooseSql.Text.Blank
import LooseSql.Text.CharClass
import LooseSql.Text.Doubled

/-!
# Parts of a name

A part of a dotted name is written in one of three ways: `[part]`, where a `]` inside is doubled,
`"part"`, where a `"` inside is doubled, or bare. `Part.read?` reads one part off the head of a
text and takes the delimiters away; `Delimiter.wrap` puts them on.
-/

namespace LooseSql

/-- The two delimiters that a part of a name can be written in. -/
inductive Delimiter where
  /-- `[part]` -/
  | bracket
  /-- `"part"` -/
  | quote
  deriving DecidableEq, Repr

namespace Delimiter

/-- The character in front of the part. -/
def opening : Delimiter → Char
  | bracket => '['
  | quote => '"'

/-- The character behind the part, which is doubled inside it. -/
def closing : Delimiter → Char
  | bracket => ']'
  | quote => '"'

/-- The delimiter that a character opens. -/
def ofOpening? (c : Char) : Option Delimiter :=
  if c = '[' then some bracket else if c = '"' then some quote else none

end Delimiter

/-- The part written with the delimiter. -/
def Delimiter.wrap (d : Delimiter) (part : Text) : Text :=
  d.opening :: Doubled.encode d.closing part

namespace Part

/-- Reads a part without delimiters: a run of word characters, or a star. -/
def readBare? (t : Text) : Option (Text × Text) :=
  match t with
  | '*' :: rest => some (['*'], rest)
  | _ =>
    let run := t.takeWhile isWordChar
    if run.isEmpty then none else some (run, t.drop run.length)

/-- Reads the part at the head of the text: the part, and what follows it. -/
def read? : Text → Option (Text × Text)
  | [] => none
  | c :: t =>
    match Delimiter.ofOpening? c with
    | some d => Doubled.decode? d.closing t
    | none => readBare? (c :: t)

/-- The part that a token writes, without its delimiters. A token that is no part stays as it
is, less the blanks around it. -/
def unwrap (token : Text) : Text :=
  match read? token.trim with
  | some (part, []) => part
  | _ => token.trim

end Part

end LooseSql
