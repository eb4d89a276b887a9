import LooseSql.Text.Blank

/-!
# Comparison operators

The operators that a simple condition can have. Each has one spelling in reports; in a query the
words may be in any case and apart by any blanks.
-/

namespace LooseSql

/-- A comparison operator. -/
inductive Operator where
  /-- `=` -/
  | eq
  /-- `!=` -/
  | notEq
  /-- `<>`, which means the same as `!=` but is kept apart from it -/
  | unequal
  /-- `>` -/
  | greater
  /-- `<` -/
  | less
  /-- `>=` -/
  | greaterEq
  /-- `<=` -/
  | lessEq
  /-- `LIKE` -/
  | like
  /-- `IN` -/
  | isIn
  /-- `IS` -/
  | is
  /-- `IS NOT` -/
  | isNot
  /-- `NOT IN` -/
  | notIn
  /-- `NOT LIKE` -/
  | notLike
  deriving DecidableEq, Repr

namespace Operator

/-- All operators. -/
def all : List Operator :=
  [eq, notEq, unequal, greater, less, greaterEq, lessEq, like, isIn, is, isNot, notIn, notLike]

/-- The words of the operator, in upper case. -/
def words : Operator → List Text
  | eq => ["=".toList]
  | notEq => ["!=".toList]
  | unequal => ["<>".toList]
  | greater => [">".toList]
  | less => ["<".toList]
  | greaterEq => [">=".toList]
  | lessEq => ["<=".toList]
  | like => ["LIKE".toList]
  | isIn => ["IN".toList]
  | is => ["IS".toList]
  | isNot => ["IS".toList, "NOT".toList]
  | notIn => ["NOT".toList, "IN".toList]
  | notLike => ["NOT".toList, "LIKE".toList]

/-- The operator as it is reported: its words with one space between them. -/
def text (op : Operator) : Text := Text.joinWith [' '] op.words

/-- The operator that a text writes, in any case and with any blanks around its words. -/
def ofText? (t : Text) : Option Operator :=
  all.find? fun op => op.words == t.words.map Text.toUpperAscii

end Operator

end LooseSql
