import LooseSql.Cli.Arguments
import LooseSql.Config
import LooseSql.Report.Basic
import LooseSql.Selection

/-!
# Carrying out a command line

`run` is the whole program as a function: from a command line and what the program finds around it
to what it writes and the status it ends with. Status 0 is success, 1 a failure, 2 a command line
that cannot be read, and 101 a run that breaks off.
-/

namespace LooseSql.Cli

/-- What the program finds around it. -/
structure Environment where
  /-- The value of the variable for the budget. -/
  budgetVariable : Option Text
  /-- The project file. -/
  project : FileEntry
  /-- The user's own file. -/
  user : FileEntry
  /-- The input, which holds the script if the command line does not. -/
  input : ByteArray
  /-- Colours are on. -/
  coloured : Bool

/-- What the program writes, and the status it ends with. -/
structure Outcome where
  /-- The status. -/
  status : Nat
  /-- What goes to the output. -/
  output : Text
  /-- What goes to the error output. -/
  errors : Text
  deriving DecidableEq, Repr

/-- Why a command cannot be carried out. -/
inductive Failure where
  | config (error : ConfigError)
  | zeroBudget
  | noScript
  | inputNotUtf8
  | rowCount (n : Int)
  | blankOrder
  | notSelect
  | notApplicable (operation : String)
  deriving DecidableEq, Repr

/-- The words for the failure. A fault of the system is told twice, as the failure and as its
cause. -/
def Failure.message : Failure → String
  | config error =>
    let cause := match error with
      | .unreadable fault => ": " ++ fault.message
      | _ => ""
    "Failed to load lens configuration: " ++ error.message ++ cause
  | zeroBudget => "Invalid input: --budget-ms must be greater than zero"
  | noScript => "Invalid input: no SQL given; pass it as an argument or on stdin"
  | inputNotUtf8 =>
    "Failed to read SQL from stdin: IO error: " ++ FileFault.notUtf8.message ++ ": "
      ++ FileFault.notUtf8.message
  | rowCount n => "Invalid input: TOP needs a positive row count, got " ++ toString n
  | blankOrder => "Invalid input: ORDER BY clause is blank"
  | notSelect => "Invalid input: analyze needs a SELECT statement"
  | notApplicable operation =>
    "Not applicable: " ++ operation ++ " needs a SELECT with a FROM clause"

/-- How a command ends that shows no result. -/
inductive Stop where
  /-- The command cannot be carried out, and the program says why. -/
  | failure (failure : Failure)
  /-- The result cannot be shown, and the program breaks off. -/
  | crash
  deriving DecidableEq, Repr

/-- The configured budget, with the one of the command line in place of it. -/
def budgetOf (environment : Environment) (given : Option Nat) : Except Failure Budget := do
  let budget ← (Config.load environment.project environment.user).mapError .config
  match given with
  | none => .ok budget
  | some n => if n = 0 then .error .zeroBudget else .ok ⟨n⟩

/-- The faults of a command that are found before its script is read. -/
def checkCommand : Command → Except Failure Unit
  | .top n => if n ≤ 0 then .error (.rowCount n) else .ok ()
  | .order clause => if clause.trim.isEmpty then .error .blankOrder else .ok ()
  | _ => .ok ()

/-- The script: the argument, or all of the input. It must not be blank. -/
def scriptOf (environment : Environment) (argument : Option Text) : Except Failure Text := do
  let sql ← match argument with
    | some sql => .ok sql
    | none =>
      match String.fromUTF8? environment.input with
      | some s => .ok s.toList
      | none => .error .inputNotUtf8
  if sql.trim.isEmpty then .error .noScript else .ok sql

/-- The lines that show a result: in JSON, or for readers. -/
def render (format : Format) (json : JsonValue) (lines : List Text) : List Text :=
  match format with
  | .json => [json.pretty]
  | .table => lines

/-- The lines that show a table of results. The table is made only where it is asked for. -/
def renderTable (coloured : Bool) (format : Format) (json : JsonValue) (table : Table) :
    Except Stop (List Text) :=
  match format with
  | .json => .ok [json.pretty]
  | .table =>
    match Report.ofTable? coloured table with
    | some lines => .ok lines
    | none => .error .crash

/-- The lines for a variant of a query, if there is one. -/
def renderVariant (coloured : Bool) (format : Format) (operation : String) :
    Option Text → Except Stop (List Text)
  | some sql => .ok (render format (.string sql) (Report.ofVariant coloured sql))
  | none => .error (.failure (.notApplicable operation))

/-- The lines that a command writes about a script. -/
def perform (coloured : Bool) (format : Format) (budget : Budget) (command : Command) (sql : Text) :
    Except Stop (List Text) :=
  match command with
  | .databases =>
    let names := databaseNames budget sql
    .ok (render format (.texts names) (Report.ofList coloured "Databases" names))
  | .table =>
    let table := firstTableName? budget sql
    .ok (render format (.optional table) (Report.ofOption coloured "Table" table))
  | .columns =>
    let columns := columnDetails sql
    renderTable coloured format (.list (columns.map .ofColumn)) (Report.columnTable columns)
  | .conditions =>
    let conditions := whereConditions sql
    renderTable coloured format (.list (conditions.map .ofCondition))
      (Report.conditionTable conditions)
  | .orderBy =>
    let order := orderByClause? sql
    .ok (render format (.optional order) (Report.ofOption coloured "ORDER BY" order))
  | .analyze =>
    match analyze? budget sql with
    | some analysis =>
      .ok (render format (.ofAnalysis analysis) (Report.ofAnalysis coloured analysis))
    | none => .error (.failure .notSelect)
  | .count => renderVariant coloured format "count" (toCount? sql)
  | .top n => renderVariant coloured format "top" (toTop? n sql)
  | .distinct => renderVariant coloured format "distinct" (toDistinct? sql)
  | .order clause => renderVariant coloured format "order" (toOrderBy? clause sql)

/-- The lines that an invocation writes. -/
def carryOut (environment : Environment) (invocation : Invocation) :
    Except Stop (List Text) := do
  let budget ← (budgetOf environment invocation.budget).mapError .failure
  (checkCommand invocation.command).mapError .failure
  let sql ← (scriptOf environment invocation.sql).mapError .failure
  perform environment.coloured invocation.format budget invocation.command sql

/-- Lines as one text. -/
def ofLines (lines : List Text) : Text := lines.flatMap (· ++ ['\n'])

/-- The name of the program and its version. -/
def versionLine : Text := "qail-lens 0.1.0".toList

/-- The lines of the help. -/
def helpLines : List Text :=
  ["Extract structure from T-SQL and reshape SELECT statements".toList, [],
    "Usage: qail-lens [OPTIONS] <COMMAND>".toList, [], "Commands:".toList]
  ++ CommandName.all.map (fun name => "  ".toList ++ name.word.toList)
  ++ [[], "Options:".toList, "  -f, --format <table|json>".toList, "  --budget-ms <N>".toList,
    "  -v, --verbose".toList, "  -h, --help".toList, "  -V, --version".toList]

/-- What the program says when it breaks off. -/
def crashLine : Text := "Formatting argument out of range".toList

/-- What the program does with a request. -/
def respond (environment : Environment) : Request → Outcome
  | .version => ⟨0, ofLines [versionLine], []⟩
  | .help => ⟨0, ofLines helpLines, []⟩
  | .run invocation =>
    match carryOut environment invocation with
    | .ok lines => ⟨0, ofLines lines, []⟩
    | .error (.failure failure) =>
      let label := (Style.strong .red).paint environment.coloured "Error:".toList
      ⟨1, [], label ++ [' '] ++ failure.message.toList ++ ['\n']⟩
    | .error .crash => ⟨101, [], ofLines [crashLine]⟩

/-- What the program does with a command line. -/
def run (environment : Environment) (words : List Text) : Outcome :=
  match Request.parse words environment.budgetVariable with
  | .ok request => respond environment request
  | .error e => ⟨2, [], "error: ".toList ++ e.message.toList ++ ['\n']⟩

/-- The command line asks for a script that it does not hold, so the input has to be read. -/
def needsInput (environment : Environment) (words : List Text) : Bool :=
  match Request.parse words environment.budgetVariable with
  | .ok (.run invocation) => invocation.sql.isNone
  | _ => false

end LooseSql.Cli
