import LooseSql.Selection

/-!
# Steps

Questions and variants can be chained: each step makes a text of a script, and the next step takes
that text as its script.
-/

namespace LooseSql

/-- A step from a script to a text made of it. -/
inductive Step where
  /-- Count the rows. -/
  | count
  /-- Limit the rows. -/
  | top (n : Int)
  /-- Make the rows distinct. -/
  | distinct
  /-- Order the rows. -/
  | orderBy (clause : Text)
  /-- Take the normal form. -/
  | normalize
  /-- Take the SELECT list. -/
  | selectClause
  /-- Take the WHERE condition. -/
  | whereClause
  /-- Take the ORDER BY list. -/
  | orderByClause
  /-- Take the paging. -/
  | pagingClause
  deriving DecidableEq, Repr

namespace Step

/-- What the step makes of a script, if it applies. -/
def result? (sql : Text) : Step → Option Text
  | count => toCount? sql
  | top n => toTop? n sql
  | distinct => toDistinct? sql
  | orderBy clause => toOrderBy? clause sql
  | normalize => some (LooseSql.normalize sql)
  | selectClause => selectClause? sql
  | whereClause => whereClause? sql
  | orderByClause => orderByClause? sql
  | pagingClause => pagingClause? sql

/-- The results of steps that are taken one after another. A step that does not apply leaves the
script as it was. -/
def applyAll (sql : Text) : List Step → List (Option Text)
  | [] => []
  | step :: steps =>
    let result := step.result? sql
    result :: applyAll (result.getD sql) steps

end Step

end LooseSql
