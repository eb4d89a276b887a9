import LooseSql.Toml.Lexical

/-!
# Dates and times of TOML

A date, a time, or both with a possible offset from universal time. Only the form and the ranges are
checked. A reader gives what follows. Where a text can still be something else, such as a number,
the outer `none` says so; an inner `none` says that it is a date or a time with an error.
-/

namespace LooseSql.Toml

/-- Reads a number of exactly `width` digits. -/
def readFixed? (width : Nat) (t : Text) : Option (Nat × Text) :=
  let digits := t.take width
  if digits.length = width && digits.all Char.isDigit then some (numberOf 10 digits, t.drop width)
  else none

/-- Reads a number of two digits in a range. -/
def readPair? (low high : Nat) (t : Text) : Option (Nat × Text) :=
  (readFixed? 2 t).filter fun p => low ≤ p.1 && p.1 ≤ high

/-- The number of days of a month. -/
def daysOf (year month : Nat) : Nat :=
  if month = 2 then
    if year % 4 = 0 ∧ (year % 100 ≠ 0 ∨ year % 400 = 0) then 29 else 28
  else if month = 4 ∨ month = 6 ∨ month = 9 ∨ month = 11 then 30
  else 31

/-- What follows a date, if the text starts with four digits and a hyphen. -/
def afterDate? (t : Text) : Option (Option Text) :=
  (readFixed? 4 t).bind fun (year, rest) =>
    (afterMark? '-' rest).map fun rest => do
      let (month, rest) ← readPair? 1 12 rest
      let rest ← afterMark? '-' rest
      let (_, rest) ← readPair? 1 (daysOf year month) rest
      some rest

/-- What follows a fraction of a second, or the text as it is. The point has to have a digit behind
it. -/
def afterFraction (t : Text) : Text :=
  match t with
  | '.' :: c :: rest => if c.isDigit then rest.dropWhile Char.isDigit else t
  | _ => t

/-- What follows a time, if the text starts with an hour and a colon. -/
def afterTime? (t : Text) : Option (Option Text) :=
  (readPair? 0 23 t).bind fun (_, rest) =>
    (afterMark? ':' rest).map fun rest => do
      let (_, rest) ← readPair? 0 59 rest
      let rest ← afterMark? ':' rest
      let (_, rest) ← readPair? 0 60 rest
      some (afterFraction rest)

/-- What follows an offset from universal time, or the text as it is. -/
def afterOffset? (t : Text) : Option Text :=
  match t with
  | 'Z' :: rest => some rest
  | 'z' :: rest => some rest
  | c :: rest =>
    if c = '+' ∨ c = '-' then do
      let (_, rest) ← readPair? 0 23 rest
      let rest ← afterMark? ':' rest
      let (_, rest) ← readPair? 0 59 rest
      some rest
    else some t
  | [] => some t

/-- What follows the time that belongs to a date, or the text as it is if there is none. -/
def afterTimeOfDate? (t : Text) : Option Text :=
  match t with
  | c :: rest =>
    if c = 'T' ∨ c = 't' ∨ c = ' ' then
      match afterTime? rest with
      | some after => after.bind afterOffset?
      | none => some t
    else some t
  | [] => some t

/-- What follows a date, a time, or both. -/
def afterDateTime? (t : Text) : Option (Option Text) :=
  match afterDate? t with
  | some after => some (after.bind afterTimeOfDate?)
  | none => afterTime? t

end LooseSql.Toml
