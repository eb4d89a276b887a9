import LooseSql.Comment
import LooseSql.Text.After
import LooseSql.Text.Blank
import LooseSql.Text.CaseFold

/-!
# Normal form of a script

Every question about a query is asked of its normal form. `normalize` takes out, in this order,
comments, `USE` statements, batch separators (lines that hold only `GO`), surrounding blanks, and a
leading `WITH name AS (..)` prologue, so that the text starts at its outer SELECT.
-/

namespace LooseSql

/-- Takes out what `after?` passes over at the start of each line. `lineStart` tells that a line
starts at the head of the text. -/
def eraseAtLineStarts (after? : Text → Option Text) (lineStart : Bool) : Text → Text
  | [] => []
  | c :: t =>
    match if lineStart then after? (c :: t) else none with
    -- What is taken out ends inside a line, so no line starts behind it.
    | some rest => eraseAtLineStarts after? false (t.drop (t.length - rest.length))
    | none => c :: eraseAtLineStarts after? (c == '\n') t
  termination_by t => t.length
  decreasing_by all_goals grind

/-- What follows the name of a database: `[..]`, `".."` or a run of bare characters. -/
def afterDatabaseName? : Text → Option Text
  | '[' :: t => afterNextMark? ']' t
  | '"' :: t => afterNextMark? '"' t
  | t => afterRun? isBareChar t

/-- What follows a `USE` statement at the start of a line, with the semicolon that ends it. -/
def afterUse? (t : Text) : Option Text := do
  let rest ← afterFolded? "use".toList (t.dropWhile isSpaceOrTab)
  let rest ← Text.afterBlanks? rest
  let rest ← afterDatabaseName? rest
  some (afterOptionalMark ';' (rest.dropWhile isSpaceOrTab))

/-- The text without its `USE` statements. -/
def stripUse (t : Text) : Text := eraseAtLineStarts afterUse? true t

/-- What follows the repeat count of a batch separator. -/
def afterBatchCount? (t : Text) : Option Text :=
  (afterRun? isSpaceOrTab t).bind (afterRun? isDecimalDigit)

/-- What follows a batch separator that has the line for itself: the line end, or nothing. -/
def afterBatchSeparator? (t : Text) : Option Text := do
  let rest ← afterFolded? "go".toList (t.dropWhile isSpaceOrTab)
  let rest := (afterBatchCount? rest).getD rest
  let rest := afterOptionalMark ';' (rest.dropWhile isSpaceOrTab)
  let rest := rest.dropWhile isSpaceOrTab
  if rest.head?.all (· == '\n') then some rest else none

/-- The text without its batch separators. The line ends stay. -/
def stripBatchSeparators (t : Text) : Text := eraseAtLineStarts afterBatchSeparator? true t

/-- What follows the name of a common table expression. Names in quotes are not empty. -/
def afterCteName? : Text → Option Text
  | '[' :: t => (afterRun? (· != ']') t).bind (afterMark? ']')
  | '"' :: t => (afterRun? (· != '"') t).bind (afterMark? '"')
  | t => afterRun? isBareChar t

/-- What follows the column list of a common table expression. -/
def afterCteColumns? (t : Text) : Option Text :=
  (afterMark? '(' (Text.trimStart t)).bind (afterNextMark? ')')

/-- The text from the first word SELECT on that follows a closing parenthesis, with only blanks
between the two. -/
def fromOuterSelect? : Text → Option Text
  | [] => none
  | c :: t =>
    let rest := Text.trimStart t
    if c = ')' && (afterFoldedWord? "select".toList rest).isSome then some rest
    else fromOuterSelect? t

/-- The text from its outer SELECT on, if it starts with a `WITH name AS (..)` prologue. Further
common table expressions go with the first, since the search for SELECT passes over them. -/
def afterCtePrologue? (t : Text) : Option Text := do
  let rest := Text.trimStart (afterOptionalMark ';' t)
  let rest ← afterFolded? "with".toList rest
  let rest ← Text.afterBlanks? rest
  let rest ← afterCteName? rest
  let rest := (afterCteColumns? rest).getD rest
  let rest ← Text.afterBlanks? rest
  let rest ← afterFolded? "as".toList rest
  let rest ← afterMark? '(' (Text.trimStart rest)
  fromOuterSelect? rest

/-- The text without its leading `WITH name AS (..)` prologue. -/
def stripCtePrologue (t : Text) : Text := (afterCtePrologue? t).getD t

/-- The normal form of a script. -/
def normalize (t : Text) : Text :=
  (stripCtePrologue (stripBatchSeparators (stripUse (stripComments t))).trim).trim

end LooseSql
