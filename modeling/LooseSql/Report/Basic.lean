import LooseSql.Report.Json
import LooseSql.Report.Table

/-!
# Reports for readers

The lines in which a result is shown when it is not asked for in JSON.
-/

namespace LooseSql.Report

/-- What stands in place of a result that is missing. -/
def missing (coloured : Bool) : Text := (Style.plain .dimmed).paint coloured "(none)".toList

/-- A heading with a colon. -/
def heading (coloured : Bool) (title : String) : Text :=
  (Style.strong .green).paint coloured (title.toList ++ [':'])

/-- The lines for a list of names. -/
def ofList (coloured : Bool) (title : String) (names : List Text) : List Text :=
  if names.isEmpty then [missing coloured]
  else heading coloured title ::
    names.map fun name => "  • ".toList ++ (Style.plain .white).paint coloured name

/-- The line for one result. -/
def ofOption (coloured : Bool) (title : String) : Option Text → List Text
  | some t => [heading coloured title ++ [' '] ++ (Style.plain .white).paint coloured t]
  | none => [missing coloured]

/-- The lines for a variant of a query. -/
def ofVariant (coloured : Bool) (sql : Text) : List Text :=
  [heading coloured "Rewritten SQL", (Style.plain .white).paint coloured sql]

/-- The lines for a table of results, with the number of its rows, if the table can be made. -/
def ofTable? (coloured : Bool) (table : Table) : Option (List Text) :=
  if table.rows.isEmpty then some [(Style.plain .dimmed).paint coloured "(no results)".toList]
  else
    let count := (Style.plain .cyan).paint coloured (toString table.rows.length).toList
    (table.lines? coloured).map (· ++ [[], count ++ " row(s)".toList])

/-- The table of columns. -/
def columnTable (columns : List Column) : Table where
  headings := ["database".toList, "table".toList, "column".toList, "alias".toList]
  rows := columns.map fun c => [c.database.getD [], c.table.getD [], c.name, c.aliasName.getD []]
  length_eq := by simp

/-- The table of conditions. -/
def conditionTable (conditions : List Condition) : Table where
  headings := ["column".toList, "operator".toList, "value".toList]
  rows := conditions.map fun c => [c.column, c.operator.text, c.value]
  length_eq := by simp

/-- The modifiers in words. -/
def modifierWords (m : Modifiers) : List Text :=
  (if m.distinct then ["DISTINCT".toList] else []) ++ (if m.all then ["ALL".toList] else [])
    ++ m.top.toList

section Analysis

variable (coloured : Bool)

/-- A line of an analysis: a label and what stands behind it. -/
def labelled (label : String) (content : Text) : Text :=
  "  ".toList ++ (Style.plain .dimmed).paint coloured label.toList ++ [' '] ++ content

/-- A column in an analysis: its qualifiers, its name and its alias. -/
def columnLine (c : Column) : Text :=
  let qualifiers := c.database.toList ++ c.table.toList
  let qualifier := if qualifiers.isEmpty then []
    else (Style.plain .dimmed).paint coloured (Text.joinWith ['.'] qualifiers) ++ ['.']
  let aliasName := c.aliasName.elim [] fun name =>
    [' '] ++ (Style.plain .dimmed).paint coloured "as".toList ++ [' ']
      ++ (Style.plain .cyan).paint coloured name
  "    • ".toList ++ qualifier ++ (Style.plain .white).paint coloured c.name ++ aliasName

/-- A condition in an analysis. -/
def conditionLine (c : Condition) : Text :=
  "    ".toList ++ (Style.plain .white).paint coloured c.column ++ [' ']
    ++ (Style.plain .cyan).paint coloured c.operator.text ++ [' ']
    ++ (Style.plain .yellow).paint coloured c.value

/-- A group of lines with a label above them, if there are any. -/
def group (label : String) (lines : List Text) : List Text :=
  if lines.isEmpty then []
  else ("  ".toList ++ (Style.plain .dimmed).paint coloured label.toList) :: lines

/-- A labelled line in a colour, if there is something to show. -/
def optionalLine (label : String) (colour : Colour) : Option Text → List Text
  | some t => [labelled coloured label ((Style.plain colour).paint coloured t)]
  | none => []

/-- The lines for an analysis. -/
def ofAnalysis (a : Analysis) : List Text :=
  let white := (Style.plain .white).paint coloured
  let databases := if a.databases.isEmpty then missing coloured
    else white (Text.joinWith ", ".toList a.databases)
  let flags := modifierWords a.modifiers
  [(Style.strong .cyan).paint coloured "🔍 Query Analysis".toList, [],
    labelled coloured "Databases:" databases,
    labelled coloured "Table:" (a.table.elim (missing coloured) white)]
  ++ optionalLine coloured "Modifiers:" .yellow
    (if flags.isEmpty then none else some (Text.joinWith [' '] flags))
  ++ group coloured "Columns:" (a.columns.map (columnLine coloured))
  ++ group coloured "Conditions:" (a.conditions.map (conditionLine coloured))
  ++ optionalLine coloured "Order by:" .white a.orderBy
  ++ optionalLine coloured "Pagination:" .white a.paging

end Analysis

end LooseSql.Report
