import LooseSql.Condition.Operator
import LooseSql.Name.Basic
import LooseSql.Name.Shape
import LooseSql.Text.After
import LooseSql.Text.CaseFold

/-!
# Simple conditions

A simple condition compares a column with a value, `column operator value`. `Condition.parse?`
reads one that is a whole text. A symbol may stand next to the column, a word operator needs a blank
before it. Longer operators are tried before shorter ones, and an operator is taken only if a value
is left behind it: `a >=` compares `a` by `>` with the value `=`.
-/

namespace LooseSql

/-- A comparison of a column with a value. -/
structure Condition where
  /-- The name of the column, its parts joined by dots. -/
  column : Text
  /-- The operator. -/
  operator : Operator
  /-- The right-hand side as it is written. -/
  value : Text
  deriving DecidableEq, Repr

namespace Condition

/-- The symbols, in the order in which they are tried. -/
def symbols : List Text :=
  ["<>".toList, "!=".toList, ">=".toList, "<=".toList, "=".toList, ">".toList, "<".toList]

/-- The word operators in lower case, in the order in which they are tried. -/
def wordOperators : List (List Text) :=
  [["is".toList, "not".toList], ["not".toList, "in".toList], ["not".toList, "like".toList],
    ["is".toList], ["in".toList], ["like".toList]]

/-- What follows the words of an operator, in any case, with blanks between the words. -/
def afterWords? : List Text → Text → Option Text
  | [], t => some t
  | [word], t => afterFoldedWord? word t
  | word :: words, t => (afterFolded? word t).bind fun rest =>
    (Text.afterBlanks? rest).bind (afterWords? words)

/-- The operator at the head of `t` and the value behind it, for an operator that `after?` passes
over. There has to be a value. -/
def withValue? (after? : Text → Option Text) (t : Text) : Option (Text × Text) :=
  (after? t).bind fun rest =>
    if Text.isBlankOnly rest then none else some (t.before rest, Text.trim rest)

/-- The texts of the operator and of the value, from what follows the column. -/
def operatorAndValue? (t : Text) : Option (Text × Text) :=
  (symbols.findSome? fun symbol => withValue? (afterText? symbol) t.trimStart).orElse fun _ =>
    (Text.afterBlanks? t).bind fun rest =>
      wordOperators.findSome? fun words => withValue? (afterWords? words) rest

/-- The condition that the whole text writes. -/
def parse? (t : Text) : Option Condition := do
  let rest ← Chain.after? isFoldedBareStart t
  let (operator, value) ← operatorAndValue? rest
  let column ← QualifiedName.parse? (t.before rest)
  let operator ← Operator.ofText? operator
  some ⟨Text.joinWith ['.'] column.parts, operator, value⟩

end Condition

end LooseSql
