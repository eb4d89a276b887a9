import LooseSql.Text.CharClass

/-!
# Matching without regard to case

Text matching compares by the simple case folding of Unicode. Of the characters beyond ASCII two
fold to an ASCII letter: the long s to `s` and the Kelvin sign to `k`. A pattern of ASCII letters
therefore matches those two as well, and no others. (`Text.sameIgnoringCase` is the plainer
comparison, which knows the letters `a` to `z` only.)
-/

namespace LooseSql

/-- The folded form of a character, as far as an ASCII pattern can tell. -/
def foldCase (c : Char) : Char :=
  if c.toNat == 0x17F then 's' else if c.toNat == 0x212A then 'k' else c.toLower

/-- `t` starts with the word, whatever the case; the result is what follows. The word is given in
lower case. -/
def afterFolded? : Text → Text → Option Text
  | [], t => some t
  | _ :: _, [] => none
  | w :: word, c :: t => if foldCase c = w then afterFolded? word t else none

/-- `t` starts with the word, whatever the case, and the word ends there. -/
def afterFoldedWord? (word t : Text) : Option Text :=
  (afterFolded? word t).filter endsTextWord

/-- The word stands somewhere in the text with a word bound on both sides, whatever the case.
`before` is the character in front of the text. -/
def containsFoldedWord (word : Text) : Option Char → Text → Bool
  | _, [] => false
  | before, c :: t =>
    (!before.any isTextWordChar && (afterFoldedWord? word (c :: t)).isSome)
      || containsFoldedWord word (some c) t

end LooseSql
