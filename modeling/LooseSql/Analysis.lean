import LooseSql.Clause.Statement
import LooseSql.Column.Resolve
import LooseSql.Condition.Collect
import LooseSql.Name.Cascade
import LooseSql.Split.Items

/-!
# What a query refers to

The questions that can be asked of a script: which databases it names, its first table, the columns
and conditions of its SELECT statement, and all of these in one `Analysis`. None of them fails. A
script that a question does not apply to has the empty answer, and a part of a query that has none
of the known forms is left out while the rest is still reported.
-/

namespace LooseSql

/-- Adds a name to a list of names unless it is there already, in any case of its letters. -/
def addNewName (names : List Text) (name : Text) : List Text :=
  if names.any fun known => known.sameIgnoringCase name then names else names ++ [name]

/-- The databases that are named in a normalized text, each in its first spelling. -/
def databasesIn (budget : Budget) (text : Text) : List Text :=
  ((matchNames Family.database.templates budget text).filterMap (·.database?)).foldl addNewName []

/-- The first table that is named after FROM or JOIN in a normalized text. Functions are passed
over. -/
def firstTableIn (budget : Budget) (text : Text) : Option Text :=
  ((matchNames Family.table.templates budget text).find? fun found => !found.isCall text).map
    (·.table)

namespace Statement

/-- The columns of the SELECT list. -/
def columns (s : Statement) : List Column := (items s.list).filterMap Column.resolve?

/-- The simple conditions of the WHERE clause. -/
def conditions (s : Statement) : List Condition :=
  s.layout.condition.elim [] fun span => Condition.collect (span.slice s.text)

end Statement

/-- The databases that a script names, in the order of the text. -/
def databaseNames (budget : Budget) (sql : Text) : List Text := databasesIn budget (normalize sql)

/-- The first table that a script names. -/
def firstTableName? (budget : Budget) (sql : Text) : Option Text :=
  firstTableIn budget (normalize sql)

/-- The columns of a script's SELECT list. -/
def columnDetails (sql : Text) : List Column := (Statement.ofScript? sql).elim [] (·.columns)

/-- The simple conditions of a script's WHERE clause. -/
def whereConditions (sql : Text) : List Condition :=
  (Statement.ofScript? sql).elim [] (·.conditions)

/-- All that can be told about one SELECT statement. -/
structure Analysis where
  /-- The databases that are named. -/
  databases : List Text
  /-- The first table. -/
  table : Option Text
  /-- The columns of the SELECT list. -/
  columns : List Column
  /-- The simple conditions of the WHERE clause. -/
  conditions : List Condition
  /-- The ORDER BY list. -/
  orderBy : Option Text
  /-- The `OFFSET .. FETCH ..` part. -/
  paging : Option Text
  /-- The modifiers in front of the SELECT list. -/
  modifiers : Modifiers
  deriving DecidableEq, Repr

/-- The analysis of a script, if it comes down to a SELECT statement. -/
def analyze? (budget : Budget) (sql : Text) : Option Analysis :=
  (Statement.ofScript? sql).map fun s =>
    { databases := databasesIn budget s.text
      table := firstTableIn budget s.text
      columns := s.columns
      conditions := s.conditions
      orderBy := s.orderList?
      paging := s.paging?
      modifiers := s.layout.modifiers }

end LooseSql
