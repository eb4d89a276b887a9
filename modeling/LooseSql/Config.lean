import LooseSql.Name.Cascade
import LooseSql.Toml.Document

/-!
# Configuration

The configuration is the budget for one template. It is looked up in the `[lens]` table of a project
file, then in a file of the user's own, and is the default if neither says anything. A file that
exists but cannot be used is an error.
-/

namespace LooseSql

/-- What can go wrong with a file that exists. -/
inductive FileFault where
  /-- A directory is in its place. -/
  | isDirectory
  /-- Its bytes are not UTF-8. -/
  | notUtf8
  deriving DecidableEq, Repr

/-- The system's words for the fault. -/
def FileFault.message : FileFault → String
  | isDirectory => "Is a directory (os error 21)"
  | notUtf8 => "stream did not contain valid UTF-8"

/-- Why a configuration cannot be used. -/
inductive ConfigError where
  /-- A budget of zero. -/
  | zeroBudget
  /-- No TOML, a key that is not known, or a value of the wrong kind. -/
  | invalid
  /-- A file that cannot be read. -/
  | unreadable (fault : FileFault)
  deriving DecidableEq, Repr

/-- The words for the error. -/
def ConfigError.message : ConfigError → String
  | zeroBudget => "Configuration error: match_budget_ms must be greater than zero"
  | invalid => "Invalid config file: not TOML, or a key or value that is not expected here"
  | unreadable fault => "IO error: " ++ fault.message

/-- What stands at a path. -/
inductive FileEntry where
  | absent
  | directory
  | file (bytes : ByteArray)

/-- The text of a file, if there is something at the path. -/
def FileEntry.read : FileEntry → Except FileFault (Option Text)
  | absent => .ok none
  | directory => .error .isDirectory
  | file bytes =>
    match String.fromUTF8? bytes with
    | some s => .ok (some s.toList)
    | none => .error .notUtf8

namespace Config

/-- The key of the budget. -/
def budgetKey : Text := "match_budget_ms".toList

/-- The key of the table in a project file. -/
def tableKey : Text := "lens".toList

/-- The budget that a value gives: a number that is not negative. -/
def budgetOfValue? : Toml.Value → Option Budget
  | .integer n => if 0 ≤ n then some ⟨n.toNat⟩ else none
  | _ => none

/-- The budget that the entries of a table give. No other key may stand in it. -/
def budgetOfEntries? (entries : Toml.Entries) : Option Budget :=
  if entries.all fun e => e.1 == budgetKey then
    (entries.get? budgetKey).elim (some .default) budgetOfValue?
  else none

/-- The budget that the value of the table's key gives. In place of a table an array may give the
budget as its first item. -/
def budgetOfTable? : Toml.Value → Option Budget
  | .table _ entries => budgetOfEntries? entries
  | .array items => items.head?.elim (some .default) budgetOfValue?
  | _ => none

/-- Refuses a budget of zero. -/
def checked (budget : Budget) : Except ConfigError Budget :=
  if budget.millis = 0 then .error .zeroBudget else .ok budget

/-- The budget in a file of the user's own. -/
def ofToml (t : Text) : Except ConfigError Budget :=
  match (Toml.parse? t).bind budgetOfEntries? with
  | some budget => checked budget
  | none => .error .invalid

/-- The budget in a project file, if that has the table for it. Its other tables are not looked
at. -/
def ofProjectToml (t : Text) : Except ConfigError (Option Budget) :=
  match Toml.parse? t with
  | none => .error .invalid
  | some entries =>
    match entries.get? tableKey with
    | none => .ok none
    | some value =>
      match budgetOfTable? value with
      | none => .error .invalid
      | some budget => (checked budget).map some

/-- The text at a path, with a fault as an error of the configuration. -/
def readEntry (entry : FileEntry) : Except ConfigError (Option Text) :=
  entry.read.mapError .unreadable

/-- The budget in the user's own file, or the default. -/
def loadUser (user : FileEntry) : Except ConfigError Budget := do
  match ← readEntry user with
  | some t => ofToml t
  | none => .ok .default

/-- The budget in the project file, in the user's own file, or the default. The user's file is
looked at only if the project file has nothing to say. -/
def load (project user : FileEntry) : Except ConfigError Budget := do
  match ← readEntry project with
  | none => loadUser user
  | some t =>
    match ← ofProjectToml t with
    | some budget => .ok budget
    | none => loadUser user

end Config

end LooseSql
