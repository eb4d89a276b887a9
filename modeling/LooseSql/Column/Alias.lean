import LooseSql.Keyword
import LooseSql.Name.Shape

/-!
# Aliases

An item of a SELECT list may carry another name for its value: after the word AS, or just behind an
expression that ends like a column (`u.Name UserName`). `splitAlias` parts the expression from the
alias. An alias is written as a name or, after AS, as a string literal.
-/

namespace LooseSql

namespace Alias

/-- Words that can stand at the end of an expression without being an alias of it. -/
def reserved : List Text :=
  ["AND".toList, "AS".toList, "ASC".toList, "BETWEEN".toList, "CASE".toList, "COLLATE".toList,
    "DESC".toList, "ELSE".toList, "END".toList, "FROM".toList, "IN".toList, "IS".toList,
    "LIKE".toList, "NOT".toList, "NULL".toList, "OR".toList, "OVER".toList, "THEN".toList,
    "WHEN".toList]

/-- An alias without delimiters that needs no AS starts with an ASCII letter or a low line. -/
def isImplicitStart (c : Char) : Bool := c.isAlpha || c == '_'

/-- The text can stand after AS: a part in delimiters, a string literal that is not empty, or a run
of bare characters. -/
def isExplicit (t : Text) : Bool :=
  match t with
  | [] => false
  | c :: rest =>
    if c = '\'' then
      match Doubled.decode? '\'' rest with
      | some (inside, rest) => !inside.isEmpty && rest.isEmpty
      | none => false
    else if (Delimiter.ofOpening? c).isSome then
      Shape.mixed.afterInner? isBareStart t == some []
    else t.all isBareChar

/-- The text can stand behind an expression without AS. -/
def isImplicit (t : Text) : Bool := Shape.mixed.afterInner? isImplicitStart t == some []

/-- The name that an alias after AS gives. -/
def unwrapExplicit (t : Text) : Text :=
  match t with
  | '\'' :: rest => (Doubled.decode? '\'' rest).elim t (·.1)
  | _ => Part.unwrap t

/-- The last place where a text can be cut at a blank so that what follows can be an alias without
AS: the text before the blank, and the alias. `before` holds the characters in front, the last one
first. -/
def lastImplicitFrom (before : Text) : Text → Option (Text × Text)
  | [] => none
  | c :: t =>
    (lastImplicitFrom (c :: before) t).orElse fun _ =>
      if isBlank c && isImplicit t then some (Text.trimEnd before.reverse, t) else none

/-- The expression ends in `)` or `]`, or its last word holds a dotted name. -/
def endsLikeColumn (body : Text) : Bool :=
  body.getLast? == some ')' || body.getLast? == some ']'
    || body.words.getLast?.any fun word => word.contains '.' && !(Chain.qualified word).isEmpty

/-- The alias after the last AS at the top level, and the expression before it. -/
def explicit? (t : Text) : Option (Text × Text) :=
  ((topLevel t).filterMap Keyword.asWord.at?).getLast?.bind fun word =>
    let body := Text.trim (t.take word.start)
    let written := Text.trim (t.drop word.stop)
    if !body.isEmpty && isExplicit written then some (body, unwrapExplicit written) else none

/-- The alias without AS, and the expression before it. -/
def implicit? (t : Text) : Option (Text × Text) :=
  (lastImplicitFrom [] t).bind fun (body, written) =>
    if !body.isEmpty && !reserved.any (Text.sameIgnoringCase written) && endsLikeColumn body then
      some (body, Part.unwrap written)
    else none

end Alias

/-- An item of a SELECT list, as its expression and its alias. -/
def splitAlias (item : Text) : Text × Option Text :=
  match (Alias.explicit? item.trim).orElse fun _ => Alias.implicit? item.trim with
  | some (body, written) => (body, some written)
  | none => (item.trim, none)

end LooseSql
