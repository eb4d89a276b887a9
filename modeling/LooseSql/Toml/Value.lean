import LooseSql.Text.Basic

/-!
# TOML documents

A document is a table: a list of keys with their values, in the order in which they first appear.
The text of a document defines a table in one of four ways, and only some of them may be added to
later, so a table remembers how it came about.
-/

namespace LooseSql.Toml

/-- How a table of a document came about. -/
inductive Origin where
  /-- Written in braces. Nothing can be added to it. -/
  | inline
  /-- By a header of its own. -/
  | header
  /-- As a step on the way to the table of a longer header. -/
  | implied
  /-- As a step on the way to the value of a dotted key. -/
  | dotted
  deriving DecidableEq, Repr

/-- A value. Of floats and of dates only the text is kept. -/
inductive Value where
  | string (text : Text)
  | integer (n : Int)
  | float (raw : Text)
  | boolean (b : Bool)
  | dateTime (raw : Text)
  /-- An array in brackets. -/
  | array (items : List Value)
  /-- The tables of a repeated `[[header]]`. -/
  | rows (rows : List (List (Text × Value)))
  | table (origin : Origin) (entries : List (Text × Value))
  deriving Repr

/-- The entries of a table. -/
abbrev Entries := List (Text × Value)

namespace Entries

/-- The value of a key. -/
def get? (entries : Entries) (key : Text) : Option Value :=
  (entries.find? fun e => e.1 == key).map (·.2)

/-- The entries with another value at a key that is there. -/
def replace (entries : Entries) (key : Text) (value : Value) : Entries :=
  entries.map fun e => if e.1 == key then (key, value) else e

/-- Changes the table that `path` leads to. Tables that are missing on the way are made. The last
table of a repeated header stands for all of them; a value that is no table, and a table in braces,
cannot be entered. -/
def under (path : List Text) (change : Entries → Option Entries) (entries : Entries) :
    Option Entries :=
  match path with
  | [] => change entries
  | key :: path =>
    match entries.get? key with
    | none => (under path change []).map fun inner => entries ++ [(key, .table .implied inner)]
    | some (.table origin inner) =>
      if origin = .inline then none
      else (under path change inner).map fun inner => entries.replace key (.table origin inner)
    | some (.rows rows) =>
      (under path change (rows.getLast?.getD [])).map fun last =>
        entries.replace key (.rows (rows.dropLast ++ [last]))
    | some _ => none

/-- Adds the table of the header `[path.key]`. A table that exists can only have been implied. -/
def openTable (path : List Text) (key : Text) (entries : Entries) : Option Entries :=
  entries.under path fun entries =>
    match entries.get? key with
    | none => some (entries ++ [(key, .table .header [])])
    | some (.table .implied inner) => some (entries.replace key (.table .header inner))
    | some _ => none

/-- Adds a table for the header `[[path.key]]`. -/
def openRow (path : List Text) (key : Text) (entries : Entries) : Option Entries :=
  entries.under path fun entries =>
    match entries.get? key with
    | none => some (entries ++ [(key, .rows [[]])])
    | some (.rows rows) => some (entries.replace key (.rows (rows ++ [[]])))
    | some _ => none

/-- Adds the value of the dotted key `path.key`. No key gets two values. A table on the way is one
that dotted keys made, or at least none that has a header of its own; the last one was made by
dotted keys. -/
def insert (path : List Text) (key : Text) (value : Value) (entries : Entries) : Option Entries :=
  match path with
  | [] => if (entries.get? key).isSome then none else some (entries ++ [(key, value)])
  | step :: path =>
    match entries.get? step with
    | none => (insert path key value []).map fun inner => entries ++ [(step, .table .dotted inner)]
    | some (.table origin inner) =>
      if origin = .inline ∨ origin = .header ∨ (path = [] ∧ origin ≠ .dotted) then none
      else (insert path key value inner).map fun inner =>
        entries.replace step (.table origin inner)
    | some (.rows rows) =>
      if path = [] then none
      else (insert path key value (rows.getLast?.getD [])).map fun last =>
        entries.replace step (.rows (rows.dropLast ++ [last]))
    | some _ => none

end Entries

end LooseSql.Toml
