import LooseSql.Name.Part

/-!
# Dotted names

A qualified name is a row of one to five parts, such as `server.database.schema.table.column`.
Parts in the middle may be empty (`Db..Users`), the first and the last may not.

`QualifiedName.parse?` reads a name that is a whole text. A name keeps its parts without their
delimiters, so how it was written is forgotten.
-/

namespace LooseSql

/-- The most parts that a name can have. -/
def maxParts : Nat := 5

/-- What the parts of a name have to satisfy: one to five of them, the first and the last not
empty. -/
def IsPartList (parts : List Text) : Prop :=
  0 < parts.length ∧ parts.length ≤ maxParts ∧ parts.head? ≠ some [] ∧ parts.getLast? ≠ some []

instance (parts : List Text) : Decidable (IsPartList parts) :=
  inferInstanceAs (Decidable (_ ∧ _ ∧ _ ∧ _))

/-- A dotted name, as its parts without their delimiters. -/
structure QualifiedName where
  /-- The parts from left to right. -/
  parts : List Text
  /-- There are one to five parts, and the first and the last are not empty. -/
  isPartList : IsPartList parts
  deriving DecidableEq

namespace QualifiedName

/-- The name with these parts, if they can make one. -/
def ofParts? (parts : List Text) : Option QualifiedName :=
  if h : IsPartList parts then some ⟨parts, h⟩ else none

/-- What follows a dot with the blanks around it. -/
def afterDot? (t : Text) : Option Text :=
  match t.dropWhile isDotPadding with
  | '.' :: rest => some (rest.dropWhile isDotPadding)
  | _ => none

/-- The part at the head of the text, which is empty if none stands there, and what follows. -/
def readPart (t : Text) : Text × Text := (Part.read? t).getD ([], t)

/-- Reads parts with dots between them up to the end of the text, no more than `limit` of them. -/
def readParts? : (limit : Nat) → Text → Option (List Text)
  | 0, _ => none
  | limit + 1, t =>
    let (part, rest) := readPart t
    if rest.isEmpty then some [part]
    else (afterDot? rest).bind fun rest => (readParts? limit rest).map (part :: ·)

/-- The name that is written by the whole text, blanks around it apart. -/
def parse? (t : Text) : Option QualifiedName :=
  (readParts? maxParts t.trim).bind ofParts?

/-- The last part: the object or the column that is named. -/
def last (name : QualifiedName) : Text := name.parts.getLastD []

/-- The part at an index, if there is one and it is not empty. -/
def part? (name : QualifiedName) (i : Nat) : Option Text :=
  name.parts[i]?.filter fun part => !part.isEmpty

/-- The index of the database part of a column name with `n` parts. -/
def databaseIndex? (n : Nat) : Option Nat := if n ≤ 2 then none else some 0

/-- The index of the table part of a column name with `n` parts. -/
def tableIndex? (n : Nat) : Option Nat := if n ≤ 1 then none else some (n - 2)

/-- The database part of a column name. Of three or more parts it is the first, so in a name of
five parts the server is taken for the database. -/
def columnDatabase? (name : QualifiedName) : Option Text :=
  (databaseIndex? name.parts.length).bind name.part?

/-- The table part of a column name: the one before the last. -/
def columnTable? (name : QualifiedName) : Option Text :=
  (tableIndex? name.parts.length).bind name.part?

end QualifiedName

end LooseSql
