import LooseSql.Text.Blank
import LooseSql.Text.CaseFold

/-!
# Modifiers of a SELECT list

Between the word SELECT and the list of columns stand any number of modifiers: DISTINCT, ALL, and a
row limit such as `TOP (10) PERCENT WITH TIES`. `Modifiers.read` records them and gives the list
without them. Of several row limits the last one counts.
-/

namespace LooseSql

/-- The modifiers in front of a SELECT list. -/
structure Modifiers where
  /-- DISTINCT stands among them. -/
  distinct : Bool
  /-- ALL stands among them. -/
  all : Bool
  /-- The row limit as it is written. -/
  top : Option Text
  deriving DecidableEq, Repr

namespace Modifiers

/-- No modifiers. -/
def none : Modifiers := ⟨false, false, .none⟩

end Modifiers

/-- One modifier, as it is written. -/
inductive Modifier where
  /-- DISTINCT or ALL. -/
  | word (raw : Text)
  /-- A row limit. -/
  | top (raw : Text)
  deriving DecidableEq, Repr

namespace Modifier

/-- What follows `DISTINCT` or `ALL` as a whole word. -/
def afterSetWord? (t : Text) : Option Text :=
  (afterFoldedWord? "distinct".toList t).orElse fun _ => afterFoldedWord? "all".toList t

/-- What follows the row count of a limit: something in parentheses, or a number after a blank. -/
def afterRowCount? (t : Text) : Option Text :=
  match t.trimStart with
  | '(' :: rest =>
    match rest.dropWhile (· != ')') with
    | _ :: rest => some rest
    | [] => none
  | _ => (Text.afterBlanks? t).bind fun rest =>
    if rest.head?.any isDecimalDigit then
      let rest := rest.dropWhile isDecimalDigit
      if endsTextWord rest then some rest else none
    else none

/-- What follows the word `word` after blanks, or the text as it is if the word is not there. -/
def afterOptionalWord (word t : Text) : Text :=
  ((Text.afterBlanks? t).bind (afterFoldedWord? word)).getD t

/-- What follows the words `WITH TIES` after blanks, or the text as it is. -/
def afterWithTies (t : Text) : Text :=
  ((Text.afterBlanks? t).bind fun rest =>
    (afterFolded? "with".toList rest).bind fun rest =>
      (Text.afterBlanks? rest).bind (afterFoldedWord? "ties".toList)).getD t

/-- What follows a row limit. -/
def afterTop? (t : Text) : Option Text :=
  (afterFolded? "top".toList t).bind fun rest =>
    (afterRowCount? rest).map fun rest =>
      afterWithTies (afterOptionalWord "percent".toList rest)

/-- The modifier at the head of a text, blanks apart, and what follows it. -/
def read? (t : Text) : Option (Modifier × Text) :=
  let t := t.trimStart
  match afterSetWord? t with
  | some rest => some (word (t.before rest), rest)
  | none => (afterTop? t).map fun rest => (top (t.before rest), rest)

/-- Records the modifier. A set word that is not spelled DISTINCT with the letters `A` to `Z`
counts as ALL. -/
def addTo (modifiers : Modifiers) : Modifier → Modifiers
  | word raw =>
    if raw.sameIgnoringCase "DISTINCT".toList then { modifiers with distinct := true }
    else { modifiers with all := true }
  | top raw => { modifiers with top := some raw }

end Modifier

namespace Modifiers

/-- Reads modifiers as long as there are any, no more than `limit` of them: the modifiers added to
those so far, and the text that follows. -/
def readFrom (modifiers : Modifiers) : (limit : Nat) → Text → Modifiers × Text
  | 0, t => (modifiers, t)
  | limit + 1, t =>
    match Modifier.read? t with
    | some (modifier, rest) => readFrom (modifier.addTo modifiers) limit rest
    | .none => (modifiers, t)

/-- The modifiers at the head of a text, and the text that follows. Each takes up at least one
character, so there are no more of them than characters. -/
def read (t : Text) : Modifiers × Text := readFrom none t.length t

end Modifiers

end LooseSql
