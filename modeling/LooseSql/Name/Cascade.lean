import LooseSql.Name.Basic
import LooseSql.Name.Template

/-!
# The cascade of templates

The templates of a family are tried in order, most parts first. A candidate is claimed unless

* it overlaps a span that is claimed already,
* a dot follows, so that it is the head of a longer name,
* its keyword is itself the tail of a dotted name (`t.Join AS j`), or
* the tokenizer does not read it as a name with as many parts as the template says.

So a span that a longer template claims is never claimed again by a shorter one. The claimed names
are given in the order of the text.
-/

namespace LooseSql

/-- The time that one template may spend on one text. Time itself is outside this library: a budget
of zero is spent before the search starts, and any other suffices. -/
structure Budget where
  /-- The limit in milliseconds. -/
  millis : Nat
  deriving DecidableEq, Repr

namespace Budget

/-- The limit that holds unless another is set: one second. -/
def default : Budget := ⟨1000⟩

/-- The budget is spent before the search starts. -/
def isSpent (budget : Budget) : Bool := budget.millis == 0

end Budget

/-- The candidates of a template within a budget. A template that runs out of time has none. -/
def Template.candidatesWithin (template : Template) (budget : Budget) (t : Text) :
    List Candidate :=
  if budget.isSpent then [] else template.candidates t

/-- A name that a template claimed. -/
structure NameMatch where
  /-- Where the name stands. -/
  span : Span
  /-- The name. -/
  name : QualifiedName
  /-- The template that claimed it. -/
  template : Template
  deriving DecidableEq

namespace NameMatch

/-- The database of the name, if the template knows one and it is not empty. -/
def database? (found : NameMatch) : Option Text :=
  found.template.databaseIndex?.bind found.name.part?

/-- The table of the name. -/
def table (found : NameMatch) : Text := found.name.parts[found.template.tableIndex]?.getD []

/-- A parenthesis follows the name: it is called as a function. -/
def isCall (found : NameMatch) (t : Text) : Bool :=
  (Text.trimStart (t.drop found.span.stop)).head? == some '('

end NameMatch

/-- How many characters before a keyword are looked at to tell whether it is part of a name. -/
def lookback : Nat := 50

/-- The word at the place `start` is the tail of a dotted name: a part and a dot stand before it. -/
def isChainTail (t : Text) (start : Nat) : Bool :=
  let window := (t.take start).drop (start - lookback)
  match window.reverse.dropWhile isBlank with
  | '.' :: before => Chain.endsWithPart (Text.trimEnd before.reverse)
  | _ => false

/-- A dot follows the place, blanks apart. -/
def continuesWithDot (t : Text) (stop : Nat) : Bool :=
  (Text.trimStart (t.drop stop)).head? == some '.'

/-- The name that a candidate stands for, if it is fit to be claimed: neither the head nor the
keyword of a longer name, and read by the tokenizer with as many parts as its template has. -/
def Template.admit? (template : Template) (t : Text) (c : Candidate) : Option NameMatch :=
  if continuesWithDot t c.name.stop || isChainTail t c.keyword then none
  else (QualifiedName.parse? (c.name.slice t)).bind fun name =>
    if name.parts.length = template.rank then some ⟨c.name, name, template⟩ else none

/-- Claims the candidates one by one. `claimed` are the names so far, in the order of claiming. -/
def claim (t : Text) (claimed : List NameMatch) : List (Template × Candidate) → List NameMatch
  | [] => claimed
  | (template, c) :: others =>
    if claimed.any fun found => found.span.overlaps c.name then claim t claimed others
    else match template.admit? t c with
      | some found => claim t (claimed ++ [found]) others
      | none => claim t claimed others

/-- All candidates of the templates, in the order in which they are tried. -/
def rankedCandidates (templates : List Template) (budget : Budget) (t : Text) :
    List (Template × Candidate) :=
  templates.flatMap fun template =>
    (template.candidatesWithin budget t).map fun c => (template, c)

/-- The names that the templates claim in a text, in the order of the text. -/
def matchNames (templates : List Template) (budget : Budget) (t : Text) : List NameMatch :=
  (claim t [] (rankedCandidates templates budget t)).mergeSort
    fun a b => decide (a.span.start ≤ b.span.start)

end LooseSql
