import LooseSql.Clause.Statement

/-!
# Selections and their variants

A selection is a SELECT statement that has a FROM clause and a list that is not empty. Other queries
are made of it: the count of its rows, its first rows, its distinct rows, its rows in another order.
Each variant has a new head and keeps everything from FROM on as it stands, or it exchanges the part
that orders the rows. It is made of the normal form, so comments, `USE`, batch separators and a
leading prologue are gone.
-/

namespace LooseSql

/-- A SELECT statement with a FROM and with a list that is not empty. -/
structure Selection extends Statement where
  /-- The place of the word FROM. -/
  sourceStart : Nat
  /-- The place is the one in the layout. -/
  source_eq : layout.source = some sourceStart
  /-- The list is not empty. -/
  list_nonempty : layout.list.isEmpty = false
  deriving DecidableEq

namespace Selection

/-- The statement as a selection, if it is one. -/
def ofStatement? (s : Statement) : Option Selection :=
  match source_eq : s.layout.source, list_nonempty : s.layout.list.isEmpty with
  | some sourceStart, false => some { s with sourceStart, source_eq, list_nonempty }
  | _, _ => none

/-- The selection that a script comes down to. -/
def ofScript? (sql : Text) : Option Selection := (Statement.ofScript? sql).bind ofStatement?

/-- The text from FROM on, with whatever follows the statement. -/
def fromSource (s : Selection) : Text := s.text.drop s.sourceStart

/-- The statement itself. -/
def body (s : Selection) : Text := s.text.take s.layout.stop

/-- What follows the statement: the semicolon and all behind it. -/
def remainder (s : Selection) : Text := s.text.drop s.layout.stop

/-- The count of the rows. Distinct rows are counted around the whole statement. -/
def toCount (s : Selection) : Text :=
  if s.layout.modifiers.distinct then
    "SELECT COUNT(*) FROM (".toList ++ s.body ++ ") AS DistinctCount".toList ++ s.remainder
  else "SELECT COUNT(*) ".toList ++ s.fromSource

/-- The first `n` rows. -/
def toTop (n : Int) (s : Selection) : Text :=
  "SELECT TOP ".toList ++ (toString n).toList ++ [' '] ++ s.list ++ [' '] ++ s.fromSource

/-- The distinct rows. -/
def toDistinct (s : Selection) : Text :=
  "SELECT DISTINCT ".toList ++ s.list ++ [' '] ++ s.fromSource

/-- The rows in another order. Paging and hints stay behind the new order. -/
def toOrderBy (order : Text) (s : Selection) : Text :=
  let kept := [s.layout.paging, s.layout.hints].flatMap fun span =>
    span.elim [] fun span => ' ' :: span.slice s.text
  Text.trimEnd (s.text.take s.layout.suffixStart) ++ " ORDER BY ".toList ++ order ++ kept
    ++ s.remainder

end Selection

/-- The list of an ORDER BY clause, which may be given with the words ORDER BY or without. -/
def orderListOf (clause : Text) : Text :=
  match Keyword.after? .orderBy none clause.trim with
  | some rest => rest.trimStart
  | none => clause.trim

/-- The script as a count of its rows. -/
def toCount? (sql : Text) : Option Text := (Selection.ofScript? sql).map (·.toCount)

/-- The script limited to its first `n` rows. Other modifiers are dropped. There is no such script
unless `n` is positive. -/
def toTop? (n : Int) (sql : Text) : Option Text :=
  if n ≤ 0 then none else (Selection.ofScript? sql).map (·.toTop n)

/-- The script with distinct rows. Other modifiers are dropped. -/
def toDistinct? (sql : Text) : Option Text := (Selection.ofScript? sql).map (·.toDistinct)

/-- The script with its rows in another order, if the clause is not blank. -/
def toOrderBy? (clause sql : Text) : Option Text :=
  if (orderListOf clause).isEmpty then none
  else (Selection.ofScript? sql).map (·.toOrderBy (orderListOf clause))

end LooseSql
