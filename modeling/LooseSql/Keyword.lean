import LooseSql.Scan
import LooseSql.Text.Blank
import LooseSql.Text.CharClass

/-!
# Keywords

A keyword is one or more words. It is found in a text where its words stand one after another,
in any case of letters and with any run of blanks between them, bounded on both sides by
something other than a word character. `findKeyword` and `findAnyKeyword` look for keywords at
the top level only, so that names in quotes and subqueries never hold one.
-/

namespace LooseSql

/-- A keyword is the list of its words. -/
abbrev Keyword := List Text

namespace Keyword

/-- The text starts with the word in any case of its letters; the result is what follows. -/
def afterWord? : Text → Text → Option Text
  | [], t => some t
  | _ :: _, [] => none
  | w :: word, c :: t => if c.toLower = w.toLower then afterWord? word t else none

/-- The text starts with the words of a keyword, blanks between them; the result is what
follows. -/
def afterWords? : Keyword → Text → Option Text
  | [], t => some t
  | [word], t => afterWord? word t
  | word :: words, t => (afterWord? word t).bind fun rest =>
    (Text.afterBlanks? rest).bind (afterWords? words)

/-- The text starts with the keyword as whole words, when `before` is the character in front of
it; the result is what follows. -/
def after? (keyword : Keyword) (before : Option Char) (t : Text) : Option Text :=
  if before.any isWordChar then none
  else (keyword.afterWords? t).filter fun rest => !startsWithWordChar rest

/-- The span of the keyword, if it starts at the place. -/
def at? (keyword : Keyword) (p : Place) : Option Span :=
  (keyword.after? p.before p.rest).map fun rest =>
    ⟨p.index, p.index + (p.rest.length - rest.length)⟩

/-- The word SELECT. -/
def select : Keyword := ["SELECT".toList]

/-- The word FROM. -/
def source : Keyword := ["FROM".toList]

/-- The word WHERE. -/
def condition : Keyword := ["WHERE".toList]

/-- The words GROUP BY. -/
def groupBy : Keyword := ["GROUP".toList, "BY".toList]

/-- The word HAVING. -/
def having : Keyword := ["HAVING".toList]

/-- The words ORDER BY. -/
def orderBy : Keyword := ["ORDER".toList, "BY".toList]

/-- The word OFFSET. -/
def offset : Keyword := ["OFFSET".toList]

/-- The word OPTION. -/
def option : Keyword := ["OPTION".toList]

/-- The word AS. -/
def asWord : Keyword := ["AS".toList]

/-- The words between two SELECT statements that combine their rows. -/
def setOperators : List Keyword := [["UNION".toList], ["EXCEPT".toList], ["INTERSECT".toList]]

end Keyword

/-- The places at the top level of `t`, from the place `start` on, at which a letter from `A` to
`z` stands: where a keyword can start. -/
def keywordPlaces (t : Text) (start : Nat) : List Place :=
  (topLevel t).filter fun p => decide (start ≤ p.index) && p.char.isAlpha

/-- The first occurrence of the keyword at the top level from the place `start` on. -/
def findKeyword (t : Text) (start : Nat) (keyword : Keyword) : Option Span :=
  (keywordPlaces t start).findSome? keyword.at?

/-- The first occurrence of any of the keywords at the top level from the place `start` on. Where
several start at one place, the first in the list is taken. -/
def findAnyKeyword (t : Text) (start : Nat) (keywords : List Keyword) : Option Span :=
  (keywordPlaces t start).findSome? fun p => keywords.findSome? fun keyword => keyword.at? p

end LooseSql
