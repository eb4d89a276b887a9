import LooseSql.Analysis

/-!
# Reports in JSON

`JsonValue.pretty` writes a value over several lines, with two blanks per level. Only quotation
marks, backslashes and control characters are escaped in strings. Below it are the values for the
results of the library.
-/

namespace LooseSql

/-- A value of JSON. -/
inductive JsonValue where
  | null
  | boolean (b : Bool)
  | string (t : Text)
  | list (items : List JsonValue)
  | object (members : List (Text × JsonValue))
  deriving Repr

namespace JsonValue

/-- A digit of a code below sixteen. -/
def hexDigit (n : Nat) : Char := (Nat.digitChar n)

/-- A character as it is written inside a string. -/
def escape (c : Char) : Text :=
  if c = '"' then ['\\', '"']
  else if c = '\\' then ['\\', '\\']
  else if c = '\x08' then ['\\', 'b']
  else if c = '\t' then ['\\', 't']
  else if c = '\n' then ['\\', 'n']
  else if c = '\x0c' then ['\\', 'f']
  else if c = '\r' then ['\\', 'r']
  else if c.toNat < 0x20 then
    ['\\', 'u', '0', '0', hexDigit (c.toNat / 16), hexDigit (c.toNat % 16)]
  else [c]

/-- A text as a string of JSON. -/
def quote (t : Text) : Text := '"' :: t.flatMap escape ++ ['"']

/-- A new line with the blanks of a level. -/
def newline (level : Nat) : Text := '\n' :: List.replicate (2 * level) ' '

mutual

/-- The value as it is written at a level. -/
def prettyAt (level : Nat) : JsonValue → Text
  | null => "null".toList
  | boolean b => (if b then "true" else "false").toList
  | string t => quote t
  | list items => enclose level '[' ']' (prettyItems (level + 1) items)
  | object members => enclose level '\x7b' '\x7d' (prettyMembers (level + 1) members)

/-- The items of a list, each as it is written at a level. -/
def prettyItems (level : Nat) : List JsonValue → List Text
  | [] => []
  | item :: items => prettyAt level item :: prettyItems level items

/-- The members of an object, each as it is written at a level. -/
def prettyMembers (level : Nat) : List (Text × JsonValue) → List Text
  | [] => []
  | (name, value) :: members =>
    (quote name ++ ": ".toList ++ prettyAt level value) :: prettyMembers level members

/-- Written items, each on a line of its own, between two marks. Without items the marks stand side
by side. -/
def enclose (level : Nat) (opening closing : Char) (items : List Text) : Text :=
  if items.isEmpty then [opening, closing]
  else opening :: Text.joinWith [','] (items.map (newline (level + 1) ++ ·)) ++ newline level
    ++ [closing]

end

/-- The value over several lines. -/
def pretty (v : JsonValue) : Text := prettyAt 0 v

/-- A text that may be missing. -/
def optional (t : Option Text) : JsonValue := t.elim null string

/-- A list of texts. -/
def texts (ts : List Text) : JsonValue := list (ts.map string)

/-- A column and the name that it is given. -/
def named (name : Text) (aliasName : Option Text) : JsonValue :=
  object [("name".toList, string name), ("alias".toList, optional aliasName)]

/-- A column of a result. -/
def ofColumn (c : Column) : JsonValue := object
  [("databaseName".toList, optional c.database), ("tableName".toList, optional c.table),
    ("column".toList, named c.name c.aliasName)]

/-- A condition. -/
def ofCondition (c : Condition) : JsonValue := object
  [("column".toList, named c.column none), ("operator".toList, string c.operator.text),
    ("value".toList, string c.value)]

/-- The modifiers of a SELECT list. -/
def ofModifiers (m : Modifiers) : JsonValue := object
  [("distinct".toList, boolean m.distinct), ("all".toList, boolean m.all),
    ("top".toList, optional m.top)]

/-- A whole analysis. -/
def ofAnalysis (a : Analysis) : JsonValue := object
  [("databases".toList, texts a.databases), ("table".toList, optional a.table),
    ("columns".toList, list (a.columns.map ofColumn)),
    ("conditions".toList, list (a.conditions.map ofCondition)),
    ("orderBy".toList, optional a.orderBy), ("pagination".toList, optional a.paging),
    ("modifiers".toList, ofModifiers a.modifiers)]

end JsonValue

end LooseSql
