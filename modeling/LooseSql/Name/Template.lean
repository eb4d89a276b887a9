import LooseSql.Name.Shape
import LooseSql.Text.CaseFold

/-!
# Templates for object names

A template looks for a keyword that introduces an object, such as FROM, and a dotted name behind it.
It fixes how many parts the name has (its *rank*) and how they are written (its *shape*). Two
families of templates exist: one finds the names that carry a database, the other the tables after
FROM and JOIN.

A template reports *candidates*. Which of them are taken is decided in `LooseSql.Name.Cascade`.
-/

namespace LooseSql

/-- What a family of templates looks for. -/
inductive Family where
  /-- Names with a database part, wherever an object can be named. -/
  | database
  /-- Names of tables after FROM and JOIN. -/
  | table
  deriving DecidableEq, Repr

namespace Family

/-- The family's word in the name of a template. -/
def label : Family → String
  | database => "database"
  | table => "table"

/-- The family with a given word. -/
def ofLabel? (label : String) : Option Family :=
  [database, table].find? (·.label == label)

/-- The keywords that introduce a name, in lower case. -/
def keywords : Family → List Text
  | database =>
    ["from".toList, "join".toList, "into".toList, "update".toList, "table".toList, "merge".toList,
      "using".toList]
  | table => ["from".toList, "join".toList]

/-- The part counts that are looked for, the most parts first. -/
def ranks : Family → List Nat
  | database => [4, 3]
  | table => [4, 3, 2, 1]

/-- What follows a keyword of the family and the blanks behind it. -/
def afterIntroduction? (family : Family) (t : Text) : Option Text :=
  (family.keywords.findSome? fun word => afterFolded? word t).bind Text.afterBlanks?

end Family

/-- One template of a family. -/
structure Template where
  /-- The family it belongs to. -/
  family : Family
  /-- The number of parts of the names it finds. -/
  rank : Nat
  /-- How the parts are written. -/
  shape : Shape
  deriving DecidableEq, Repr

/-- The templates of the family: by descending part count, and for each the shapes in order. -/
def Family.templates (family : Family) : List Template :=
  family.ranks.flatMap fun rank => Shape.all.map fun shape => ⟨family, rank, shape⟩

/-- A name that a template found, by its places in the text. -/
structure Candidate where
  /-- The place of the keyword that introduces the name. -/
  keyword : Nat
  /-- The span of the name. -/
  name : Span
  deriving DecidableEq, Repr

namespace Template

/-- The name of the template: its family, rank and shape. -/
def id (template : Template) : String :=
  template.family.label ++ "/" ++ toString template.rank ++ "/" ++ template.shape.label

/-- The index of the database part of a name with four or three parts. -/
def databaseIndex? (template : Template) : Option Nat :=
  if template.rank = 4 then some 1 else if template.rank = 3 then some 0 else none

/-- The index of the table part: the last one. -/
def tableIndex (template : Template) : Nat := template.rank - 1

/-- What follows the last `count` parts of a name, each with the dot before it. All but the last
may be missing. -/
def afterFurtherParts? (shape : Shape) : (count : Nat) → Text → Option Text
  | 0, t => some t
  | 1, t => (afterSpacedDot? t).bind (shape.afterLast? isFoldedBareStart)
  | count + 2, t => (afterSpacedDot? t).bind fun rest =>
    afterFurtherParts? shape (count + 1) ((shape.afterInner? isFoldedBareStart rest).getD rest)

/-- What follows the name at the head of a text. -/
def afterName? (template : Template) (t : Text) : Option Text :=
  match template.rank with
  | 0 => none
  | 1 => template.shape.afterLast? isFoldedBareStart t
  | rank + 2 => (template.shape.afterInner? isFoldedBareStart t).bind
    (afterFurtherParts? template.shape (rank + 1))

/-- The template matches at the head of a text, with `before` in front of it: the text from the name
on, and the text behind the name. -/
def match? (template : Template) (before : Option Char) (t : Text) : Option (Text × Text) :=
  if before.any isTextWordChar then none
  else (template.family.afterIntroduction? t).bind fun name =>
    (template.afterName? name).map fun rest => (name, rest)

/-- The candidates in a text that has `index` characters before it, of which `before` is the last.
The next `skip` characters belong to the candidate before. -/
def candidatesFrom (template : Template) (skip index : Nat) (before : Option Char) :
    Text → List Candidate
  | [] => []
  | c :: t =>
    match skip with
    | skip + 1 => candidatesFrom template skip (index + 1) (some c) t
    | 0 =>
      match template.match? before (c :: t) with
      | some (name, rest) =>
        -- Places are told by how much of the text is left behind them.
        let stop := index + (t.length + 1)
        ⟨index, stop - name.length, stop - rest.length⟩ ::
          candidatesFrom template (t.length - rest.length) (index + 1) (some c) t
      | none => candidatesFrom template 0 (index + 1) (some c) t

/-- The names that the template finds in a text, from left to right and without overlap. -/
def candidates (template : Template) (t : Text) : List Candidate :=
  template.candidatesFrom 0 0 none t

end Template

end LooseSql
