import LooseSql.Text.Basic

/-!
# What follows at the head of a text

A recogniser looks at the head of a text and gives what follows the stretch that it accepts, or
`none` if it accepts nothing there. The names of recognisers start with `after`. These are the ones
that all readers of the library share.
-/

namespace LooseSql

/-- What follows a given text. -/
def afterText? : Text → Text → Option Text
  | [], t => some t
  | _ :: _, [] => none
  | s :: start, c :: t => if c = s then afterText? start t else none

/-- What follows a single mark. -/
def afterMark? (mark : Char) : Text → Option Text
  | [] => none
  | c :: t => if c = mark then some t else none

/-- What follows a mark that may be missing. -/
def afterOptionalMark (mark : Char) (t : Text) : Text := (afterMark? mark t).getD t

/-- What follows the next mark, wherever it stands. -/
def afterNextMark? (mark : Char) : Text → Option Text
  | [] => none
  | c :: t => if c = mark then some t else afterNextMark? mark t

/-- What follows the longest run of characters of one class, which must not be empty. -/
def afterRun? (inRun : Char → Bool) : Text → Option Text
  | [] => none
  | c :: t => if inRun c then some (t.dropWhile inRun) else none

end LooseSql
