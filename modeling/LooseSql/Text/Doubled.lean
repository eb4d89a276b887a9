import LooseSql.Text.Basic

/-!
# Quotes that double their mark

Inside such a quote the closing mark is written twice. `encode` writes the inside of a quote with
the mark that closes it, `decode?` reads it back: it stops at the first mark that is not doubled.

`after?` looks for the end more freely. A quote that `decode?` never closes still ends if it holds
a doubled mark: the first half of the last one closes it.
-/

namespace LooseSql.Doubled

/-- The text with each mark doubled, and one mark behind it. -/
def encode (mark : Char) : Text → Text
  | [] => [mark]
  | c :: t => if c = mark then c :: c :: encode mark t else c :: encode mark t

/-- Reads up to the first mark that is not doubled: the text before it, with doubled marks made
single, and what follows it. -/
def decode? (mark : Char) : Text → Option (Text × Text)
  | [] => none
  | [c] => if c = mark then some ([], []) else none
  | c :: d :: t =>
    if c = mark then
      if d = mark then (decode? mark t).map fun (inside, rest) => (mark :: inside, rest)
      else some ([], d :: t)
    else (decode? mark (d :: t)).map fun (inside, rest) => (c :: inside, rest)

/-- What follows the quote. A doubled mark belongs to the quote unless the rest of the text never
closes it; then the first of the two marks closes it. -/
def after? (mark : Char) : Text → Option Text
  | [] => none
  | [c] => if c = mark then some [] else none
  | c :: d :: t =>
    if c = mark then
      if d = mark then (after? mark t).orElse fun _ => some (d :: t) else some (d :: t)
    else after? mark (d :: t)

/-- What follows a quote that holds at least one character or doubled mark. -/
def afterSome? (mark : Char) : Text → Option Text
  | [] => none
  | [_] => none
  | c :: d :: t =>
    if c = mark then if d = mark then after? mark t else none else after? mark (d :: t)

theorem length_decode?_lt {mark : Char} {t : Text} {p : Text × Text}
    (h : decode? mark t = some p) : p.2.length < t.length := by
  fun_induction decode? mark t generalizing p <;> grind [Option.map_eq_some_iff]

end LooseSql.Doubled
