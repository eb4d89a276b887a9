import LooseSql.Toml.Lexical

/-!
# Numbers of TOML

Integers have 64 bits with a sign. They are written in base ten, or without a sign in base sixteen,
eight or two behind `0x`, `0o` or `0b`. Between two digits one low line may stand. A float has a
fraction, an exponent or both, or is one of `inf` and `nan`; one that is too large is refused, but a
large negative one is not.
-/

namespace LooseSql.Toml

/-- Reads further digits, each possibly with a low line before it. A low line without a digit behind
it is an error, so the result is `none` then. -/
def readMoreDigits? (isDigit : Char → Bool) : Text → Option (Text × Text)
  | [] => some ([], [])
  | '_' :: d :: t =>
    if isDigit d then (readMoreDigits? isDigit t).map fun (digits, rest) => (d :: digits, rest)
    else none
  | c :: t =>
    if isDigit c then (readMoreDigits? isDigit t).map fun (digits, rest) => (c :: digits, rest)
    else if c = '_' then none
    else some ([], c :: t)

/-- Reads digits, at least one of them. -/
def readDigits? (isDigit : Char → Bool) : Text → Option (Text × Text)
  | [] => none
  | c :: t =>
    if isDigit c then (readMoreDigits? isDigit t).map fun (digits, rest) => (c :: digits, rest)
    else none

/-- A sign, if one stands at the head of the text: whether it is a minus, and what follows. -/
def readSign (t : Text) : Bool × Text :=
  match t with
  | '-' :: rest => (true, rest)
  | '+' :: rest => (false, rest)
  | _ => (false, t)

/-- Reads the digits of a decimal number, which start with a zero only if there is no other. -/
def readDecimal? (t : Text) : Option (Text × Text) :=
  match t with
  | '0' :: rest => some (['0'], rest)
  | _ => readDigits? Char.isDigit t

/-- The integer is one of 64 bits. -/
def fitsInteger (n : Int) : Bool := Int64.minValue.toInt ≤ n && n ≤ Int64.maxValue.toInt

/-- Reads an integer. -/
def readInteger? (t : Text) : Option (Int × Text) :=
  match t with
  | '0' :: 'x' :: rest => inBase 16 isHexDigit rest
  | '0' :: 'o' :: rest => inBase 8 (fun c => '0' ≤ c && c ≤ '7') rest
  | '0' :: 'b' :: rest => inBase 2 (fun c => c == '0' || c == '1') rest
  | _ =>
    let (negative, rest) := readSign t
    (readDecimal? rest).bind fun (digits, rest) =>
      let n : Int := numberOf 10 digits
      checked (if negative then -n else n) rest
where
  /-- Reads the digits of a base. -/
  inBase (base : Nat) (isDigit : Char → Bool) (t : Text) : Option (Int × Text) :=
    (readDigits? isDigit t).bind fun (digits, rest) => checked (numberOf base digits) rest
  /-- The integer, if it fits. -/
  checked (n : Int) (rest : Text) : Option (Int × Text) :=
    if fitsInteger n then some (n, rest) else none

/-- The parts of a float: a sign, the digits before and after the point, and the exponent. -/
structure Decimal where
  /-- The float is negative. -/
  negative : Bool
  /-- The digits before the point. -/
  whole : Text
  /-- The digits after the point. -/
  fraction : Text
  /-- The power of ten. -/
  exponent : Int
  deriving DecidableEq, Repr

namespace Decimal

/-- The magnitude is `digits * 10 ^ power`. -/
def digits (d : Decimal) : Nat := numberOf 10 (d.whole ++ d.fraction)

/-- The magnitude is `digits * 10 ^ power`. -/
def power (d : Decimal) : Int := d.exponent - d.fraction.length

/-- The smallest magnitude that rounds to infinity: half way between the largest double and the next
power of two. -/
def infinityBound : Nat := Nat.pow 2 1024 - Nat.pow 2 970

/-- The nearest double is infinite. Magnitudes far from the bound are told by their number of digits
alone. -/
def overflows (d : Decimal) : Bool :=
  let magnitude := (Nat.toDigits 10 d.digits).length + d.power
  if d.digits = 0 ∨ magnitude < 300 then false
  else if 320 < magnitude then true
  else if 0 ≤ d.power then infinityBound ≤ d.digits * Nat.pow 10 d.power.toNat
  else infinityBound * Nat.pow 10 (-d.power).toNat ≤ d.digits

end Decimal

/-- Reads an exponent behind its `e`. -/
def readExponent? (t : Text) : Option (Int × Text) :=
  let (negative, rest) := readSign t
  (readDigits? Char.isDigit rest).map fun (digits, rest) =>
    let n : Int := numberOf 10 digits
    (if negative then -n else n, rest)

/-- The text starts with the mark of an exponent; this is what follows. -/
def afterExponentMark? : Text → Option Text
  | 'e' :: t => some t
  | 'E' :: t => some t
  | _ => none

/-- Reads a float with digits. The outer `none` says that the text is no float and may be an integer
still; the inner one that it is a float with an error. -/
def readDecimalFloat? (t : Text) : Option (Option (Decimal × Text)) :=
  let (negative, rest) := readSign t
  (readDecimal? rest).bind fun (whole, rest) =>
    match rest with
    | '.' :: rest => some <| (readDigits? Char.isDigit rest).bind fun (fraction, rest) =>
      match afterExponentMark? rest with
      | some rest => (readExponent? rest).map fun (exponent, rest) =>
        (⟨negative, whole, fraction, exponent⟩, rest)
      | none => some (⟨negative, whole, fraction, 0⟩, rest)
    | _ => (afterExponentMark? rest).map fun rest =>
      (readExponent? rest).map fun (exponent, rest) => (⟨negative, whole, [], exponent⟩, rest)

/-- Reads `inf` or `nan`, possibly with a sign. -/
def afterSpecialFloat? (t : Text) : Option Text :=
  let (_, rest) := readSign t
  (afterText? "inf".toList rest).orElse fun _ => afterText? "nan".toList rest

end LooseSql.Toml
