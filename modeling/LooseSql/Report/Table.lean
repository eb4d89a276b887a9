import LooseSql.Report.Style

/-!
# Tables of results

A table has a line of headings, a line of rules and a line per row. Each column is as wide as the
widest of its heading and its cells, counted in characters; cells are filled up with blanks behind
them, the last one too. Texts are filled up to widths of 16 bits only: a table with a wider column
cannot be made.
-/

namespace LooseSql

/-- A table as its headings and its rows. -/
structure Table where
  /-- The headings of the columns. -/
  headings : List Text
  /-- The rows, each a list of cells. -/
  rows : List (List Text)
  /-- Each row has a cell for each heading. -/
  length_eq : ∀ row ∈ rows, row.length = headings.length
  deriving DecidableEq

namespace Table

/-- The greatest width that a text is filled up to: widths have 16 bits. -/
def maxWidth : Nat := 65535

/-- The text with blanks behind it up to a width, if there is such a width. -/
def pad? (width : Nat) (t : Text) : Option Text :=
  if width ≤ maxWidth then some (t ++ List.replicate (width - t.length) ' ') else none

/-- The widths of the columns. -/
def widths (table : Table) : List Nat :=
  table.rows.foldl (fun widths cells => List.zipWith (fun w c => max w c.length) widths cells)
    (table.headings.map List.length)

/-- One line of cells, filled up to the widths. It cannot be made if a column is too wide. -/
def cellLine? (widths : List Nat) (cells : List Text) : Option Text :=
  ((widths.zip cells).mapM fun (width, cell) => pad? width cell).map (Text.joinWith " │ ".toList)

/-- The line between the headings and the rows, which can have any width. -/
def ruleLine (widths : List Nat) : Text :=
  Text.joinWith "─┼─".toList (widths.map fun w => List.replicate w '─')

/-- The line of the headings. -/
def headingLine? (table : Table) : Option Text := cellLine? table.widths table.headings

/-- The lines of the rows. -/
def rowLines? (table : Table) : Option (List Text) := table.rows.mapM (cellLine? table.widths)

/-- The lines of the table. The line of the headings is made first, and it has all the columns: if
it can be made, so can the others. -/
def lines? (coloured : Bool) (table : Table) : Option (List Text) := do
  let heading ← table.headingLine?
  let rows ← table.rowLines?
  return (Style.strong .white).paint coloured heading ::
    (Style.plain .dimmed).paint coloured (ruleLine table.widths) :: rows

end Table

end LooseSql
