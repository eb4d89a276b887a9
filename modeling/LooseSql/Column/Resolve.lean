import LooseSql.Column.Alias
import LooseSql.Column.Basic
import LooseSql.Column.Parentheses
import LooseSql.Text.After
import LooseSql.Text.CaseFold

/-!
# Resolving an item of a SELECT list

`Column.resolve?` tells which column an item stands for. In this order:

* a literal stands for none;
* a subquery or a CASE expression stands for its alias;
* a name, also `*` and `t.*`, stands for itself;
* arithmetic with an alias stands for the last dotted name in it, or for its alias;
* a function call stands for the last part of the function's name.

Everything else stands for none.
-/

namespace LooseSql

namespace Literal

/-- What follows an exponent, or the text as it is if there is none. -/
def afterExponent (t : Text) : Text :=
  match t with
  | c :: rest =>
    if c = 'e' ∨ c = 'E' then
      let digits := match rest with
        | sign :: digits => if sign = '+' ∨ sign = '-' then digits else rest
        | [] => []
      (afterRun? isDecimalDigit digits).getD t
    else t
  | [] => t

/-- What follows the digits of a number, with a point before, among or after them. -/
def afterDigits? (t : Text) : Option Text :=
  match t with
  | '.' :: rest => afterRun? isDecimalDigit rest
  | _ => (afterRun? isDecimalDigit t).map fun rest =>
    match rest with
    | '.' :: rest => rest.dropWhile isDecimalDigit
    | _ => rest

/-- The text is a number in decimal. -/
def isNumber (t : Text) : Bool :=
  let unsigned := match t with
    | '+' :: rest => rest
    | '-' :: rest => rest
    | _ => t
  ((afterDigits? unsigned).map afterExponent) == some []

/-- The text is a string literal, possibly with an `N` before it. -/
def isString (t : Text) : Bool :=
  let quoted := match t with
    | 'N' :: rest => rest
    | 'n' :: rest => rest
    | _ => t
  match quoted with
  | '\'' :: rest => (Doubled.decode? '\'' rest).any fun p => p.2.isEmpty
  | _ => false

/-- The text is a binary constant: `0x` and any number of hexadecimal digits. -/
def isBinary (t : Text) : Bool :=
  match t with
  | '0' :: x :: rest => (x == 'x' || x == 'X') && rest.all isHexDigit
  | _ => false

end Literal

/-- The text is a literal: a number, a string, a binary constant or NULL. -/
def isLiteral (t : Text) : Bool :=
  Literal.isNumber t || Literal.isString t || t.sameIgnoringCase "NULL".toList
    || Literal.isBinary t

/-- An arithmetic sign stands at the top level. -/
def hasArithmetic (t : Text) : Bool :=
  (topLevel t).any fun p => p.char == '+' || p.char == '-' || p.char == '*' || p.char == '/'

/-- A subquery or a CASE expression: the word SELECT, CASE or WHEN stands anywhere in the text. -/
def isComputed (t : Text) : Bool :=
  containsFoldedWord "select".toList none t || containsFoldedWord "case".toList none t
    || containsFoldedWord "when".toList none t

/-- The text of the function's name, if a function call stands at the head of the text. -/
def calledName? (t : Text) : Option Text :=
  (Chain.after? isBareStart t).bind fun rest =>
    if (Text.trimStart rest).head? = some '(' then some (t.before rest) else none

namespace Column

/-- The column that arithmetic with an alias stands for. -/
def ofArithmetic? (body aliasName : Text) : Option Column :=
  match (Chain.qualified body).getLast? with
  | some chain => (QualifiedName.parse? chain).map fun name => ofName name (some aliasName)
  | none => some (ofAlias aliasName)

/-- The column that an expression without redundant parentheses stands for. -/
def ofExpression? (body : Text) (aliasName : Option Text) : Option Column :=
  if body.isEmpty || isLiteral body then none
  else if isComputed body then aliasName.map ofAlias
  else match QualifiedName.parse? body with
    | some name => some (ofName name aliasName)
    | none =>
      if hasArithmetic body then aliasName.bind (ofArithmetic? body)
      else ((calledName? body).bind QualifiedName.parse?).map fun name => plain name.last aliasName

/-- The column that an item of a SELECT list stands for. -/
def resolve? (item : Text) : Option Column :=
  ofExpression? (stripParentheses (splitAlias item).1) (splitAlias item).2

end Column

end LooseSql
