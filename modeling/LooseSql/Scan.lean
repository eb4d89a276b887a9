import LooseSql.Text.Basic

/-!
# The top level of a text

Clauses, list items and predicates are told apart at the *top level* of a text: outside
parentheses and outside quotes. Three kinds of quote are known, `'..'`, `".."` and `[..]`; each
ends at the first of its closing characters. A quote mark written twice inside a quote therefore
closes it and opens it again, which leaves the text after it at the same level. A doubled `]` only
closes.

`ScanState` is what a scan remembers, `ScanState.step` reads one character, and `topLevel` lists
the places at the top level. An opening quote or parenthesis at depth 0 stands at the top level
itself; a closing one never does. A closing parenthesis without a partner is skipped.
-/

namespace LooseSql

/-- The three ways to quote. -/
inductive Quote where
  /-- A string literal, `'..'`. -/
  | single
  /-- A quoted name, `".."`. -/
  | double
  /-- A bracketed name, `[..]`. -/
  | bracket
  deriving DecidableEq, Repr

namespace Quote

/-- The character that opens the quote. -/
def opener : Quote → Char
  | single => '\''
  | double => '"'
  | bracket => '['

/-- The character that closes the quote. -/
def closer : Quote → Char
  | single => '\''
  | double => '"'
  | bracket => ']'

/-- The quote that a character opens. -/
def ofOpener? (c : Char) : Option Quote :=
  if c = '\'' then some single
  else if c = '"' then some double
  else if c = '[' then some bracket
  else none

end Quote

/-- How deep in parentheses a scan is, and the quote that it is in. -/
structure ScanState where
  /-- The number of parentheses that are open. -/
  depth : Nat
  /-- The open quote, if there is one. -/
  quote : Option Quote
  deriving DecidableEq, Repr

namespace ScanState

/-- Outside parentheses and quotes. -/
def top : ScanState := ⟨0, none⟩

/-- The state after one more character. -/
def step (s : ScanState) (c : Char) : ScanState :=
  match s.quote with
  | some q => if c = q.closer then { s with quote := none } else s
  | none =>
    match Quote.ofOpener? c with
    | some q => { s with quote := some q }
    | none =>
      if c = '(' then { s with depth := s.depth + 1 }
      else if c = ')' then { s with depth := s.depth - 1 }
      else s

/-- The character `c`, read in state `s`, stands at the top level. -/
def shows (s : ScanState) (c : Char) : Bool :=
  s.quote.isNone && s.depth == 0 && c != ')'

end ScanState

/-- The state after a whole text. -/
def scan (s : ScanState) (t : Text) : ScanState := t.foldl ScanState.step s

/-- The text ends outside parentheses and quotes. -/
def Text.IsClosed (t : Text) : Prop := scan .top t = .top

instance (t : Text) : Decidable t.IsClosed := inferInstanceAs (Decidable (_ = _))

/-- A place in a text together with what stands around it. -/
structure Place where
  /-- The number of characters before the place. -/
  index : Nat
  /-- The character just before the place. -/
  before : Option Char
  /-- The character at the place. -/
  char : Char
  /-- What follows that character. -/
  after : Text
  deriving DecidableEq, Repr

/-- The text from the place on. -/
def Place.rest (p : Place) : Text := p.char :: p.after

/-- The places of `t` that stand at the top level, for a scan that is in state `s` at its start
and has `index` characters behind it, of which `before` is the last. -/
def topLevelFrom (s : ScanState) (index : Nat) (before : Option Char) : Text → List Place
  | [] => []
  | c :: t =>
    let others := topLevelFrom (s.step c) (index + 1) (some c) t
    if s.shows c then ⟨index, before, c, t⟩ :: others else others

/-- The places at the top level of a text, in order. -/
def topLevel (t : Text) : List Place := topLevelFrom .top 0 none t

end LooseSql
