import LooseSql.Name.Basic

/-!
# Columns

What is reported about one item of a SELECT list.
-/

namespace LooseSql

/-- One column of the result of a query. -/
structure Column where
  /-- The database that the column is qualified with. -/
  database : Option Text
  /-- The table that the column is qualified with. -/
  table : Option Text
  /-- The name of the column. -/
  name : Text
  /-- The other name that the query gives it. -/
  aliasName : Option Text
  deriving DecidableEq, Repr

namespace Column

/-- A column without qualifiers. -/
def plain (name : Text) (aliasName : Option Text) : Column := ⟨none, none, name, aliasName⟩

/-- The column that a dotted name stands for. -/
def ofName (name : QualifiedName) (aliasName : Option Text) : Column :=
  ⟨name.columnDatabase?, name.columnTable?, name.last, aliasName⟩

/-- A computed column is known by its alias only. -/
def ofAlias (aliasName : Text) : Column := plain aliasName (some aliasName)

end Column

end LooseSql
