import LooseSql.Clause.Modifiers
import LooseSql.Keyword
import LooseSql.Text.Offset

/-!
# The layout of a SELECT statement

`Layout.locate?` finds where the clauses of one SELECT statement stand:

```text
SELECT DISTINCT TOP 5 a, b FROM t WHERE x = 1 ORDER BY a OFFSET 0 ROWS OPTION (RECOMPILE);
                      list source   condition order      paging        hints             stop
```

Keywords count at the top level only, so subqueries and quotes never move a clause. The statement
ends before the first semicolon at the top level; what comes after it is never looked at.

The search goes from left to right. `Head` holds what is known once the modifiers are read; each
clause is then a function of the text and the head.
-/

namespace LooseSql

/-- Where the clauses of a SELECT statement stand in its text. -/
structure Layout where
  /-- The SELECT list without its modifiers. -/
  list : Span
  /-- The place of the word FROM. -/
  source : Option Nat
  /-- The condition behind WHERE, if it is not blank. -/
  condition : Option Span
  /-- The place of the words ORDER BY. -/
  order : Option Nat
  /-- The list behind ORDER BY. -/
  orderList : Option Span
  /-- The `OFFSET .. FETCH ..` part that follows an ORDER BY list. -/
  paging : Option Span
  /-- The query hints, `OPTION (..)`, up to the end of the statement. -/
  hints : Option Span
  /-- The end of the statement, before blanks and the semicolon. -/
  stop : Nat
  /-- The modifiers in front of the list. -/
  modifiers : Modifiers
  deriving DecidableEq, Repr

/-- The end of the first statement in a text: the place of the first semicolon at the top level, or
the end of the text, with the blanks before it left out. -/
def statementStop (t : Text) : Nat :=
  let semicolon := (topLevel t).find? fun p => p.char == ';'
  (Text.trimEnd (t.take (semicolon.elim t.length (·.index)))).length

/-- Keywords that end a SELECT list where there is no FROM. -/
def listEnds : List Keyword :=
  [.source, .condition, .groupBy, .having, .orderBy] ++ Keyword.setOperators ++ [.option]

/-- Keywords that end a WHERE condition. -/
def conditionEnds : List Keyword :=
  [.groupBy, .having, .orderBy] ++ Keyword.setOperators ++ [.option]

/-- The first occurrence of a keyword from the place `start` on, if it starts before `stop`. -/
def keywordBetween? (t : Text) (start stop : Nat) (keyword : Keyword) : Option Span :=
  (findKeyword t start keyword).filter fun word => decide (word.start < stop)

/-- The place of the first of several keywords from the place `start` on, or `stop` if none of them
starts before `stop`. -/
def endBefore (t : Text) (start stop : Nat) (keywords : List Keyword) : Nat :=
  ((findAnyKeyword t start keywords).filter fun word => decide (word.start < stop)).elim stop
    (·.start)

/-- The head of a SELECT statement: the word SELECT and the modifiers behind it. -/
structure Head where
  /-- The place behind the modifiers. -/
  start : Nat
  /-- The end of the statement. -/
  stop : Nat
  /-- The modifiers. -/
  modifiers : Modifiers
  deriving DecidableEq, Repr

namespace Head

/-- The head of the SELECT statement at the head of a text. Modifiers are read up to the end of the
statement at most. -/
def locate? (t : Text) : Option Head :=
  (Keyword.after? .select none t).map fun body =>
    let stop := statementStop t
    let read := Modifiers.read (body.take (stop - (t.length - body.length)))
    ⟨stop - read.2.length, stop, read.1⟩

variable (t : Text) (head : Head)

/-- The word FROM. -/
def source? : Option Span := keywordBetween? t head.start head.stop .source

/-- The end of the SELECT list: the word FROM, or else the next keyword that can end it. -/
def listStop : Nat :=
  (head.source? t).elim (endBefore t head.start head.stop listEnds) (·.start)

/-- The place from which on the other clauses are looked for. -/
def clausesStart : Nat := (head.source? t).elim (head.listStop t) (·.stop)

/-- The word WHERE. It comes before any set operator: a later one belongs to another SELECT. -/
def conditionWord? : Option Span :=
  keywordBetween? t (head.clausesStart t)
    (endBefore t (head.clausesStart t) head.stop Keyword.setOperators) .condition

/-- The condition, if it is not blank. -/
def condition? : Option Span :=
  ((head.conditionWord? t).map fun word =>
    Span.trim ⟨word.stop, endBefore t word.stop head.stop conditionEnds⟩ t).filter
      fun predicate => !predicate.isEmpty

/-- The word OPTION. -/
def hintsWord? : Option Span := keywordBetween? t (head.clausesStart t) head.stop .option

/-- The end of the part that orders the rows: the hints, or the end of the statement. -/
def orderStop : Nat := (head.hintsWord? t).elim head.stop (·.start)

/-- The words ORDER BY. -/
def orderWords? : Option Span :=
  keywordBetween? t (head.clausesStart t) (head.orderStop t) .orderBy

/-- The paging. The word OFFSET starts it, but only behind ORDER BY. -/
def paging? : Option Span :=
  (head.orderWords? t).bind fun words =>
    (keywordBetween? t words.stop (head.orderStop t) .offset).map fun word =>
      Span.trim ⟨word.start, head.orderStop t⟩ t

/-- The list behind ORDER BY. -/
def orderList? : Option Span :=
  (head.orderWords? t).map fun words =>
    Span.trim ⟨words.stop, (head.paging? t).elim (head.orderStop t) (·.start)⟩ t

/-- The layout of the statement with this head. -/
def layout : Layout where
  list := Span.trim ⟨head.start, head.listStop t⟩ t
  source := (head.source? t).map (·.start)
  condition := head.condition? t
  order := (head.orderWords? t).map (·.start)
  orderList := head.orderList? t
  paging := head.paging? t
  hints := (head.hintsWord? t).map fun word => Span.trim ⟨word.start, head.stop⟩ t
  stop := head.stop
  modifiers := head.modifiers

end Head

namespace Layout

/-- The layout of the SELECT statement at the head of a text. -/
def locate? (t : Text) : Option Layout := (Head.locate? t).map (Head.layout t)

/-- Where the part that orders the rows begins: the first of ORDER BY, paging and hints, or the end
of the statement if there is none of them. -/
def suffixStart (layout : Layout) : Nat :=
  let places := layout.order.toList ++ (layout.paging.map (·.start)).toList
    ++ (layout.hints.map (·.start)).toList
  places.min?.getD layout.stop

/-- The layout with every place under `f`, such as a change of the unit of measure. -/
def map (f : Nat → Nat) (layout : Layout) : Layout :=
  { list := layout.list.map f
    source := layout.source.map f
    condition := layout.condition.map (Span.map f)
    order := layout.order.map f
    orderList := layout.orderList.map (Span.map f)
    paging := layout.paging.map (Span.map f)
    hints := layout.hints.map (Span.map f)
    stop := f layout.stop
    modifiers := layout.modifiers }

/-- The layout in byte offsets of the text it belongs to. -/
def inBytes (t : Text) (layout : Layout) : Layout := layout.map t.byteOffset

end Layout

end LooseSql
