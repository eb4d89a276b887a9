import LooseSql.Text.After
import LooseSql.Text.Blank

/-!
# Characters, keys and strings of TOML

Each reader looks at the head of a text. It gives what it read and what follows, or `none`.
-/

namespace LooseSql.Toml

/-- A character that may stand in a comment: no control character but the tab. -/
def isCommentChar (c : Char) : Bool :=
  c == '\t' || (0x20 ≤ c.toNat && c.toNat ≠ 0x7F)

/-- A character of a key without quotes. -/
def isBareKeyChar (c : Char) : Bool := c.isAlphanum || c == '_' || c == '-'

/-- The value of a digit in a base up to sixteen. -/
def digitValue (c : Char) : Nat :=
  if c.isDigit then c.toNat - '0'.toNat else c.toLower.toNat - 'a'.toNat + 10

/-- The number that digits write in a base. -/
def numberOf (base : Nat) (digits : Text) : Nat :=
  digits.foldl (fun n c => n * base + digitValue c) 0

/-- What follows a line end: a line feed, or a carriage return and a line feed. -/
def afterNewline? : Text → Option Text
  | '\n' :: t => some t
  | '\r' :: '\n' :: t => some t
  | _ => none

/-- The text without the spaces and tabs at its head. -/
def skipSpaces (t : Text) : Text := t.dropWhile isSpaceOrTab

/-- The text without the comment at its head, if there is one. The line end stays. -/
def skipComment (t : Text) : Text :=
  match t with
  | '#' :: rest => rest.dropWhile isCommentChar
  | _ => t

/-- What follows the end of a line, before which only blanks and a comment may stand. The end of the
text ends a line too. -/
def afterLineEnd? (t : Text) : Option Text :=
  match skipComment (skipSpaces t) with
  | [] => some []
  | rest => afterNewline? rest

/-- The text without the blanks, line ends and comments at its head. -/
def skipGaps : (limit : Nat) → Text → Text
  | 0, t => t
  | limit + 1, t =>
    match afterNewline? (skipComment (skipSpaces t)) with
    | some rest => skipGaps limit rest
    | none => skipSpaces t

/-- Reads what stands behind a backslash in a string: the character that it means. -/
def readEscape? : Text → Option (Char × Text)
  | 'b' :: t => some ('\x08', t)
  | 't' :: t => some ('\t', t)
  | 'n' :: t => some ('\n', t)
  | 'f' :: t => some ('\x0c', t)
  | 'r' :: t => some ('\r', t)
  | '"' :: t => some ('"', t)
  | '\\' :: t => some ('\\', t)
  | 'u' :: t => readCode? 4 t
  | 'U' :: t => readCode? 8 t
  | _ => none
where
  /-- Reads the hexadecimal code of a character in exactly `width` digits. -/
  readCode? (width : Nat) (t : Text) : Option (Char × Text) :=
    let digits := t.take width
    let code := numberOf 16 digits
    if digits.length = width && digits.all isHexDigit && code.isValidChar then
      some (Char.ofNat code, t.drop width)
    else none

/-- Reads the inside of a string in double quotes and its closing quote. -/
def readBasic? : (limit : Nat) → Text → Option (Text × Text)
  | _, [] => none
  | _, '"' :: t => some ([], t)
  | 0, _ => none
  | limit + 1, '\\' :: t => (readEscape? t).bind fun (c, rest) =>
    (readBasic? limit rest).map fun (inside, rest) => (c :: inside, rest)
  | limit + 1, c :: t =>
    if isCommentChar c then (readBasic? limit t).map fun (inside, rest) => (c :: inside, rest)
    else none

/-- Reads the inside of a string in single quotes and its closing quote. -/
def readLiteral? : Text → Option (Text × Text)
  | [] => none
  | '\'' :: t => some ([], t)
  | c :: t =>
    if isCommentChar c then (readLiteral? t).map fun (inside, rest) => (c :: inside, rest)
    else none

/-- Splits the quotes that close a string of several lines from those that still belong to it: of a
run of `n` quotes the last three close it, and at most two stand before these. The result tells how
many belong to the string, or `none` if the run does not close it. -/
def closingRun? (n : Nat) : Option Nat :=
  if n < 3 then none else some (min (n - 3) 2)

/-- What follows a line end that is escaped: the next character that is neither a blank nor a line
end. The backslash may have blanks behind it. -/
def afterEscapedNewline? (t : Text) : Option Text :=
  (afterNewline? (skipSpaces t)).map skipLines
where
  /-- The text without blanks and line ends at its head. -/
  skipLines (t : Text) : Text := go t.length t
  /-- The same for at most `limit` line ends. -/
  go : (limit : Nat) → Text → Text
    | 0, t => t
    | limit + 1, t =>
      match afterNewline? (skipSpaces t) with
      | some rest => go limit rest
      | none => skipSpaces t

/-- Reads the inside of a string of several lines, whose mark is `mark`, and the three marks that
close it. Only in double quotes the backslash is special. -/
def readLines? (mark : Char) : (limit : Nat) → Text → Option (Text × Text)
  | 0, _ => none
  | limit + 1, t =>
    match t with
    | [] => none
    | c :: rest =>
      if c = mark then
        -- A whole run of marks is looked at, since its last three may close the string.
        let run := (t.takeWhile (· == mark)).length
        match closingRun? run with
        | some own => some (List.replicate own mark, t.drop (own + 3))
        | none => (readLines? mark limit (t.drop run)).map fun (inside, rest) =>
          (List.replicate run mark ++ inside, rest)
      else if c = '\\' ∧ mark = '"' then
        match afterEscapedNewline? rest with
        | some rest => readLines? mark limit rest
        | none => (readEscape? rest).bind fun (d, rest) =>
          (readLines? mark limit rest).map fun (inside, rest) => (d :: inside, rest)
      else match afterNewline? t with
        | some rest => (readLines? mark limit rest).map fun (inside, rest) =>
          ('\n' :: inside, rest)
        | none =>
          if isCommentChar c then
            (readLines? mark limit rest).map fun (inside, rest) => (c :: inside, rest)
          else none

/-- Reads a string of any of the four kinds. A line end right behind three opening marks does not
count. -/
def readString? : Text → Option (Text × Text)
  | '"' :: '"' :: '"' :: t => readLines? '"' (t.length + 1) ((afterNewline? t).getD t)
  | '\'' :: '\'' :: '\'' :: t => readLines? '\'' (t.length + 1) ((afterNewline? t).getD t)
  | '"' :: t => readBasic? t.length t
  | '\'' :: t => readLiteral? t
  | _ => none

/-- Reads one key without dots: bare, or a string on one line. -/
def readSimpleKey? : Text → Option (Text × Text)
  | '"' :: t => readBasic? t.length t
  | '\'' :: t => readLiteral? t
  | t =>
    let key := t.takeWhile isBareKeyChar
    if key.isEmpty then none else some (key, t.drop key.length)

/-- How deep a document may nest, and how many parts a dotted key may have, plus one. -/
def depthLimit : Nat := 80

/-- Reads a dotted key with the blanks around its parts, of no more than `limit` parts. -/
def readKey? : (limit : Nat) → Text → Option (List Text × Text)
  | 0, _ => none
  | limit + 1, t => (readSimpleKey? (skipSpaces t)).bind fun (key, rest) =>
    match skipSpaces rest with
    | '.' :: rest => (readKey? limit rest).map fun (keys, rest) => (key :: keys, rest)
    | rest => some ([key], rest)

end LooseSql.Toml
