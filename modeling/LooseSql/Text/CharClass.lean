import LooseSql.Text.AddedRanges
import LooseSql.Text.AlphabeticRanges
import LooseSql.Text.Basic
import LooseSql.Text.MarkRanges
import LooseSql.Text.NumberRanges

/-!
# Classes of characters

Two notions of a word exist side by side, and they differ beyond ASCII.

* `isWordChar`: a letter, a number or one of `_ @ # $`. It bounds keywords and makes up the bare
  parts that the name tokenizer reads. The superscript two is in it, a combining accent is not.
* `isTextWordChar`: the word character of Unicode text matching. It bounds the words that the
  templates look for. A combining accent is in it, the superscript two and the `$` are not.

They follow different editions of Unicode: text matching follows edition 16, and so do its letters
and digits, `isTextLetter` and `isDecimalDigit`. The words of SQL follow edition 17, so that a
letter which is new in that edition, as `isAlphabetic` has it, is a word character of SQL only.

ASCII characters are decided by rule; for the others the tables of Unicode are searched.
-/

namespace LooseSql

/-- A letter in text matching: alphabetic as of Unicode 16. -/
def isTextLetter (c : Char) : Bool :=
  if c.toNat < 128 then c.isAlpha else alphabeticRanges.contains c.toNat

/-- A decimal digit of any script in text matching: one as of Unicode 16. -/
def isDecimalDigit (c : Char) : Bool :=
  if c.toNat < 128 then c.isDigit else digitRanges.contains c.toNat

/-- A letter: alphabetic as of Unicode 17. -/
def isAlphabetic (c : Char) : Bool :=
  isTextLetter c || addedAlphabeticRanges.contains c.toNat

/-- A number of any kind, as of Unicode 17: a decimal digit or another number. The letter numbers
are letters. -/
def isNumeric (c : Char) : Bool :=
  isDecimalDigit c || addedDigitRanges.contains c.toNat
    || (128 ≤ c.toNat && otherNumberRanges.contains c.toNat)

/-- A letter or a number of any kind. -/
def isAlphanumeric (c : Char) : Bool := isAlphabetic c || isNumeric c

/-- One of the signs `_ @ # $`, which names may hold beside letters and numbers. -/
def isNameSign (c : Char) : Bool := c == '_' || c == '@' || c == '#' || c == '$'

/-- A character that can continue a word of SQL. -/
def isWordChar (c : Char) : Bool := isAlphanumeric c || isNameSign c

/-- The punctuation that joins words, beyond the low line: ties and the other low lines. -/
def connectorRanges : CharRanges :=
  [(0x203F, 0x2040), (0x2054, 0x2054), (0xFE33, 0xFE34), (0xFE4D, 0xFE4F), (0xFF3F, 0xFF3F)]

/-- The two invisible characters that join or part their neighbours. -/
def isJoinControl (c : Char) : Bool := c.toNat == 0x200C || c.toNat == 0x200D

/-- A word character of Unicode text matching: a letter, a combining mark, a decimal digit, joining
punctuation or a join control. -/
def isTextWordChar (c : Char) : Bool :=
  if c.toNat < 128 then c.isAlpha || c.isDigit || c == '_'
  else isTextLetter c || markRanges.contains c.toNat || isDecimalDigit c
    || connectorRanges.contains c.toNat || isJoinControl c

/-- A character of a bare name in a template: a word character or one of `@ # $`. -/
def isBareChar (c : Char) : Bool := isTextWordChar c || c == '@' || c == '#' || c == '$'

/-- The first character is a word character; an end of the text is none. -/
def startsWithWordChar (t : Text) : Bool := t.head?.any isWordChar

/-- A word of text matching cannot go on here: what follows is no word character of it. -/
def endsTextWord (t : Text) : Bool := !t.head?.any isTextWordChar

end LooseSql
