import LooseSql.Text.Basic

/-!
# Blank characters

A blank is a character with the Unicode property White_Space. Runs of blanks separate words and
are trimmed off fragments. Narrower notions (the space and the tab, the line ends) are told apart
where a format asks for them.
-/

namespace LooseSql

/-- The character is white space: one of the 25 that Unicode lists. -/
def isBlank (c : Char) : Bool :=
  let n := c.toNat
  (9 ≤ n && n ≤ 13) || n == 0x20 || n == 0x85 || n == 0xA0 || n == 0x1680
    || (0x2000 ≤ n && n ≤ 0x200A) || n == 0x2028 || n == 0x2029 || n == 0x202F
    || n == 0x205F || n == 0x3000

/-- A blank that stays on its line: the space and the tab. -/
def isSpaceOrTab (c : Char) : Bool := c == ' ' || c == '\t'

/-- The four characters that may stand around the dot of a dotted name. -/
def isDotPadding (c : Char) : Bool := c == ' ' || c == '\t' || c == '\r' || c == '\n'

namespace Text

/-- The text without its leading blanks. -/
def trimStart (t : Text) : Text := t.dropWhile isBlank

/-- The text without its trailing blanks. -/
def trimEnd (t : Text) : Text := (t.reverse.dropWhile isBlank).reverse

/-- The text without its leading and trailing blanks. -/
def trim (t : Text) : Text := trimEnd (trimStart t)

theorem length_trimStart_le (t : Text) : t.trimStart.length ≤ t.length :=
  (List.dropWhile_sublist _).length_le

theorem length_trimEnd_le (t : Text) : t.trimEnd.length ≤ t.length := by
  simpa [trimEnd] using (List.dropWhile_sublist (l := t.reverse) isBlank).length_le

theorem length_trim_le (t : Text) : t.trim.length ≤ t.length :=
  Nat.le_trans (length_trimEnd_le _) (length_trimStart_le t)

/-- The text holds nothing but blanks. -/
def isBlankOnly (t : Text) : Bool := t.all isBlank

/-- What follows a run of at least one blank. -/
def afterBlanks? : Text → Option Text
  | [] => none
  | c :: t => if isBlank c then some (trimStart t) else none

/-- The maximal runs of characters that are not blank, in order. -/
def words : Text → List Text
  | [] => []
  | c :: t =>
    if isBlank c then words t
    else match t with
      | [] => [[c]]
      | d :: _ =>
        if isBlank d then [c] :: words t
        else match words t with
          | [] => [[c]]
          | w :: ws => (c :: w) :: ws

end Text

/-- The span without the blanks at its two ends. A blank span shrinks to its far end. -/
def Span.trim (s : Span) (t : Text) : Span :=
  let inside := s.slice t
  let start := s.start + (inside.length - (Text.trimStart inside).length)
  ⟨start, max start (s.start + (Text.trimEnd inside).length)⟩

end LooseSql
