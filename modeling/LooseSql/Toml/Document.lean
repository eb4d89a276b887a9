import LooseSql.Toml.DateTime
import LooseSql.Toml.Number
import LooseSql.Toml.Value

/-!
# Reading TOML

A document is read in two steps. `readStatements?` reads its lines as statements: key and value
pairs and headers. `build?` carries the statements out one after another on an empty table, which
fails where two of them contradict each other. `parse?` does both.
-/

namespace LooseSql.Toml

/-- A value that is a number, a date or a time. -/
def readNumberOrDate? (t : Text) : Option (Value × Text) :=
  match afterDateTime? t with
  | some after => after.map fun rest => (.dateTime (t.before rest), rest)
  | none =>
    match readDecimalFloat? t with
    | some read => read.bind fun (d, rest) =>
      if d.overflows && !d.negative then none else some (.float (t.before rest), rest)
    | none =>
      match afterSpecialFloat? t with
      | some rest => some (.float (t.before rest), rest)
      | none => (readInteger? t).map fun (n, rest) => (.integer n, rest)

/-- Reads a value that holds no others. -/
def readScalar? (t : Text) : Option (Value × Text) :=
  match t with
  | [] => none
  | c :: _ =>
    if c = '"' ∨ c = '\'' then (readString? t).map fun (text, rest) => (.string text, rest)
    else if c = 't' then
      (afterText? "true".toList t).map fun rest => (.boolean true, rest)
    else if c = 'f' then
      (afterText? "false".toList t).map fun rest => (.boolean false, rest)
    else if c = 'i' ∨ c = 'n' then
      (afterSpecialFloat? t).map fun rest => (.float (t.before rest), rest)
    else if c = '+' ∨ c = '-' ∨ c.isDigit then readNumberOrDate? t
    else none

mutual

/-- Reads a value. `depth` is how many more arrays and tables may nest, `fuel` bounds the number of
steps. -/
def readValue? (depth : Nat) : (fuel : Nat) → Text → Option (Value × Text)
  | 0, _ => none
  | fuel + 1, t =>
    match depth, t with
    | 0, '[' :: _ => none
    | 0, '\x7b' :: _ => none
    | depth + 1, '[' :: rest =>
      (readItems? depth fuel [] (skipGaps rest.length rest)).map fun (items, rest) =>
        (.array items, rest)
    | depth + 1, '\x7b' :: rest =>
      match skipSpaces rest with
      | '\x7d' :: rest => some (.table .inline [], rest)
      | rest => (readInlinePairs? depth fuel [] rest).map fun (entries, rest) =>
        (.table .inline entries, rest)
    | _, t => readScalar? t

/-- Reads the items of an array and its closing bracket. `items` are those before, the last one
first; the text starts behind the gap before an item. -/
def readItems? (depth : Nat) : (fuel : Nat) → (items : List Value) → Text →
    Option (List Value × Text)
  | 0, _, _ => none
  | fuel + 1, items, t =>
    match t with
    | ']' :: rest => some (items.reverse, rest)
    | _ => (readValue? depth fuel t).bind fun (item, rest) =>
      match skipGaps rest.length rest with
      | ',' :: rest => readItems? depth fuel (item :: items) (skipGaps rest.length rest)
      | ']' :: rest => some ((item :: items).reverse, rest)
      | _ => none

/-- Reads the pairs of a table in braces and its closing brace. `entries` are those before. -/
def readInlinePairs? (depth : Nat) : (fuel : Nat) → Entries → Text → Option (Entries × Text)
  | 0, _, _ => none
  | fuel + 1, entries, t =>
    (readKey? (depthLimit - 1) t).bind fun (keys, rest) =>
      (afterMark? '=' rest).bind fun rest =>
        (readValue? depth fuel (skipSpaces rest)).bind fun (value, rest) =>
          (entries.insert keys.dropLast (keys.getLastD []) value).bind fun entries =>
            match skipSpaces rest with
            | ',' :: rest => readInlinePairs? depth fuel entries rest
            | '\x7d' :: rest => some (entries, rest)
            | _ => none

end

/-- A statement of a document. A dotted key is given by its path and its last part. -/
inductive Statement where
  /-- `path.key = value` -/
  | pair (path : List Text) (key : Text) (value : Value)
  /-- `[path.key]` -/
  | table (path : List Text) (key : Text)
  /-- `[[path.key]]` -/
  | row (path : List Text) (key : Text)
  deriving Repr

/-- Reads a key and value pair up to the end of its line. -/
def readPairLine? (t : Text) : Option (Statement × Text) := do
  let (keys, rest) ← readKey? (depthLimit - 1) t
  let rest ← afterMark? '=' rest
  let rest := skipSpaces rest
  let (value, rest) ← readValue? (depthLimit - 1) (2 * rest.length + 2) rest
  let rest ← afterLineEnd? rest
  some (.pair keys.dropLast (keys.getLastD []) value, rest)

/-- Reads a header up to the end of its line, when its opening brackets are read already. -/
def readHeader? (closing : Text) (statement : List Text → Text → Statement) (t : Text) :
    Option (Statement × Text) := do
  let (keys, rest) ← readKey? (depthLimit - 1) t
  let rest ← afterText? closing rest
  let rest ← afterLineEnd? rest
  some (statement keys.dropLast (keys.getLastD []), rest)

/-- Reads the statement at the head of a text, with the end of its line. -/
def readStatement? : Text → Option (Statement × Text)
  | '[' :: '[' :: t => readHeader? "]]".toList .row t
  | '[' :: t => readHeader? "]".toList .table t
  | t => readPairLine? t

/-- Reads all statements of a document. `fuel` bounds the number of lines. -/
def readStatements? : (fuel : Nat) → Text → Option (List Statement)
  | 0, _ => none
  | fuel + 1, t =>
    match skipSpaces t with
    | [] => some []
    | rest =>
      match rest with
      | '#' :: _ => (afterLineEnd? rest).bind (readStatements? fuel)
      | '\n' :: _ => (afterLineEnd? rest).bind (readStatements? fuel)
      | '\r' :: _ => (afterLineEnd? rest).bind (readStatements? fuel)
      | _ => (readStatement? rest).bind fun (statement, rest) =>
        (readStatements? fuel rest).map (statement :: ·)

/-- Carries out statements on the entries of a document. `header` is the path of the table that the
last header opened. -/
def build? (header : List Text) (entries : Entries) : List Statement → Option Entries
  | [] => some entries
  | .pair path key value :: statements =>
    (entries.under header (Entries.insert path key value)).bind (build? header · statements)
  | .table path key :: statements =>
    (entries.openTable path key).bind (build? (path ++ [key]) · statements)
  | .row path key :: statements =>
    (entries.openRow path key).bind (build? (path ++ [key]) · statements)

/-- The byte order mark, which may stand at the head of a document. -/
def byteOrderMark : Char := '\uFEFF'

/-- The document that a text writes. -/
def parse? (t : Text) : Option Entries :=
  let t := match t with
    | c :: rest => if c = byteOrderMark then rest else t
    | [] => []
  (readStatements? (t.length + 1) t).bind (build? [] [])

end LooseSql.Toml
