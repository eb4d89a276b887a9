import LooseSql.Clause.Layout
import LooseSql.Normalize

/-!
# A statement and its clauses

A `Statement` is a text that starts with a SELECT statement, together with the layout of that
statement. A script comes down to the statement at the head of its normal form. The clauses of a
statement are texts; a clause that is not there, or is blank, is `none`.
-/

namespace LooseSql

/-- A text that starts with a SELECT statement, and the layout of that statement. -/
structure Statement where
  /-- The text. -/
  text : Text
  /-- Where the clauses stand. -/
  layout : Layout
  /-- The layout is the one of the text. -/
  located : Layout.locate? text = some layout
  deriving DecidableEq

namespace Statement

/-- The statement at the head of a text. -/
def ofText? (t : Text) : Option Statement :=
  match located : Layout.locate? t with
  | some layout => some ⟨t, layout, located⟩
  | none => none

/-- The statement that a script comes down to. -/
def ofScript? (sql : Text) : Option Statement := ofText? (normalize sql)

/-- The text of a span, if it is there and not empty. -/
def clause? (s : Statement) (span : Option Span) : Option Text :=
  (span.map fun span => span.slice s.text).filter fun clause => !clause.isEmpty

/-- The SELECT list without its modifiers. It may be empty. -/
def list (s : Statement) : Text := s.layout.list.slice s.text

/-- The WHERE condition. -/
def condition? (s : Statement) : Option Text := s.clause? s.layout.condition

/-- The ORDER BY list, without the keyword and without paging. -/
def orderList? (s : Statement) : Option Text := s.clause? s.layout.orderList

/-- The `OFFSET .. FETCH ..` part. -/
def paging? (s : Statement) : Option Text := s.clause? s.layout.paging

end Statement

/-- The SELECT list of a script, without its modifiers. -/
def selectClause? (sql : Text) : Option Text :=
  (Statement.ofScript? sql).bind fun s => s.clause? (some s.layout.list)

/-- The WHERE condition of a script. -/
def whereClause? (sql : Text) : Option Text := (Statement.ofScript? sql).bind (·.condition?)

/-- The ORDER BY list of a script. -/
def orderByClause? (sql : Text) : Option Text := (Statement.ofScript? sql).bind (·.orderList?)

/-- The `OFFSET .. FETCH ..` part of a script. -/
def pagingClause? (sql : Text) : Option Text := (Statement.ofScript? sql).bind (·.paging?)

end LooseSql
