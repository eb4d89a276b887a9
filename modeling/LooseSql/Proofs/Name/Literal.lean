import LooseSql.Proofs.Name.Claims
import LooseSql.Proofs.Selection.Variants

/-!
# Names in string literals

The templates do not know of string literals: what a literal says is searched like the rest of the
text. In `SELECT 's' AS note FROM t` the databases are those that `s` names when it is taken for a
text of its own, and the first table is the one that `s` names, or else `t` (`names_literal`). The
answers are those of the query, and not of the literal, exactly when `s` names no database and no
other table.

* `IsBarrier`: text that no name goes on into, such as a literal that ends;
* `isChainTail_append`: text in front that ends in a quote mark does not turn a keyword into the
  tail of a dotted name.
-/

namespace LooseSql

/-! ## Where names end -/

/-- A name that starts in front of the text ends there: a quote mark stands at its head, and no mark
that closes a name follows. -/
structure IsBarrier (v : Text) : Prop where
  /-- The text starts with a quote mark. -/
  head_eq : v.head? = some '\''
  /-- No name in brackets is closed. -/
  bracket : ']' ∉ v
  /-- No name in double quotes is closed. -/
  quote : '"' ∉ v

namespace IsBarrier

variable {v : Text} (hv : IsBarrier v)

include hv

theorem not_mem_closing (d : Delimiter) : d.closing ∉ v := by
  cases d
  · exact hv.bracket
  · exact hv.quote

theorem trimStart_eq : v.trimStart = v :=
  Text.trimStart_eq_self_iff.2 fun c hc => by
    rw [hv.head_eq] at hc
    obtain rfl := Option.some.inj hc
    decide

theorem trimStart_append (t : Text) : Text.trimStart (t ++ v) = Text.trimStart t ++ v := by
  by_cases ht : Text.trimStart t = []
  · rw [Text.trimStart_append_of_blank (Text.trimStart_eq_nil_iff.1 ht), hv.trimStart_eq, ht,
      List.nil_append]
  · exact Text.trimStart_append ht v

theorem dropWhile_isBareChar_append (t : Text) :
    (t ++ v).dropWhile isBareChar = t.dropWhile isBareChar ++ v := by
  obtain ⟨v, rfl⟩ := List.head?_eq_some_iff.1 hv.head_eq
  rw [List.dropWhile_append]
  split
  · next h =>
    rw [List.isEmpty_iff.1 h, List.nil_append, List.dropWhile_cons_of_neg (by decide)]
  · rfl

theorem afterBlanks?_append (t : Text) :
    Text.afterBlanks? (t ++ v) = (Text.afterBlanks? t).map (· ++ v) := by
  cases t with
  | nil =>
    obtain ⟨v, rfl⟩ := List.head?_eq_some_iff.1 hv.head_eq
    rfl
  | cons c t =>
    rw [List.cons_append, Text.afterBlanks?, Text.afterBlanks?, hv.trimStart_append]
    split <;> rfl

theorem afterSpacedDot?_append (t : Text) :
    afterSpacedDot? (t ++ v) = (afterSpacedDot? t).map (· ++ v) := by
  unfold afterSpacedDot?
  rw [hv.trimStart_append]
  cases ht : Text.trimStart t with
  | nil =>
    obtain ⟨v, rfl⟩ := List.head?_eq_some_iff.1 hv.head_eq
    rfl
  | cons c t =>
    by_cases hc : c = '.'
    · rw [hc]
      exact congrArg some (hv.trimStart_append t)
    · simp [hc]

variable {start : Char → Bool} (hstart : start '\'' = false)

include hstart

theorem afterInner?_append (shape : Shape) (t : Text) :
    shape.afterInner? start (t ++ v) = (shape.afterInner? start t).map (· ++ v) := by
  cases t with
  | nil =>
    obtain ⟨v, rfl⟩ := List.head?_eq_some_iff.1 hv.head_eq
    simp [Shape.afterInner?, Delimiter.ofOpening?, hstart]
  | cons c t =>
    rw [List.cons_append, Shape.afterInner?, Shape.afterInner?]
    cases Delimiter.ofOpening? c with
    | none =>
      simp only [hv.dropWhile_isBareChar_append]
      split
      · rfl
      · split <;> rfl
    | some d =>
      -- The text behind holds no closing mark, so no quoted part of `t` can end there.
      simp only [Doubled.decode?_append_of_not_mem (hv.not_mem_closing d)]
      split
      · rfl
      · rcases Doubled.decode? d.closing t with _ | ⟨part, rest⟩
        · rfl
        · rw [Option.map_some, Prod.map_apply, id, Option.filter_some, Option.filter_some]
          split <;> rfl

theorem afterLast?_append (shape : Shape) (t : Text) :
    shape.afterLast? start (t ++ v) = (shape.afterLast? start t).map (· ++ v) := by
  cases t with
  | nil =>
    obtain ⟨v, rfl⟩ := List.head?_eq_some_iff.1 hv.head_eq
    simp [Shape.afterLast?, Delimiter.ofOpening?, hstart]
  | cons c t =>
    rw [List.cons_append, Shape.afterLast?, Shape.afterLast?]
    cases Delimiter.ofOpening? c with
    | none =>
      simp only [hv.dropWhile_isBareChar_append]
      split
      · rfl
      · split <;> rfl
    | some d =>
      simp only [Doubled.afterSome?_append_of_not_mem (hv.not_mem_closing d)]
      split <;> rfl

end IsBarrier

namespace IsBarrier

variable {v : Text} (hv : IsBarrier v)

include hv

theorem afterFurtherParts?_append (shape : Shape) (count : Nat) (t : Text) :
    Template.afterFurtherParts? shape count (t ++ v) =
      (Template.afterFurtherParts? shape count t).map (· ++ v) := by
  have hstart : isFoldedBareStart '\'' = false := by decide
  induction count using Nat.strongRecOn generalizing t with
  | _ count ih =>
    match count with
    | 0 => rfl
    | 1 =>
      rw [Template.afterFurtherParts?, hv.afterSpacedDot?_append, Template.afterFurtherParts?]
      cases afterSpacedDot? t with
      | none => rfl
      | some rest => exact hv.afterLast?_append hstart shape rest
    | count + 2 =>
      rw [Template.afterFurtherParts?, hv.afterSpacedDot?_append, Template.afterFurtherParts?]
      cases afterSpacedDot? t with
      | none => rfl
      | some rest =>
        -- With a part or without one, fewer parts have to be read behind the dot.
        rw [Option.map_some, Option.bind_some, Option.bind_some,
          hv.afterInner?_append hstart shape rest]
        cases shape.afterInner? isFoldedBareStart rest with
        | none => exact ih (count + 1) (Nat.lt_succ_self _) rest
        | some rest' => exact ih (count + 1) (Nat.lt_succ_self _) rest'

theorem afterName?_append (template : Template) (t : Text) :
    template.afterName? (t ++ v) = (template.afterName? t).map (· ++ v) := by
  have hstart : isFoldedBareStart '\'' = false := by decide
  rw [Template.afterName?, Template.afterName?]
  split
  · rfl
  · exact hv.afterLast?_append hstart _ t
  · rw [hv.afterInner?_append hstart]
    cases template.shape.afterInner? isFoldedBareStart t with
    | none => rfl
    | some rest => exact hv.afterFurtherParts?_append _ _ rest

theorem afterIntroduction?_append (family : Family) (t : Text) :
    family.afterIntroduction? (t ++ v) = (family.afterIntroduction? t).map (· ++ v) := by
  have hletters : ∀ word ∈ family.keywords, foldCase '\'' ∉ word := by
    cases family <;> decide
  have hwords : family.keywords.findSome? (fun word => afterFolded? word (t ++ v)) =
      (family.keywords.findSome? fun word => afterFolded? word t).map (· ++ v) := by
    rw [List.map_findSome?]
    refine findSome?_congr fun word hword => afterFolded?_append fun c hc => ?_
    rw [hv.head_eq] at hc
    rw [← Option.some.inj hc]
    exact hletters word hword
  rw [Family.afterIntroduction?, Family.afterIntroduction?, hwords]
  cases family.keywords.findSome? fun word => afterFolded? word t with
  | none => rfl
  | some rest => exact hv.afterBlanks?_append rest

/-- A match ends in front of a barrier. -/
theorem match?_append (template : Template) (before : Option Char) (t : Text) :
    template.match? before (t ++ v) =
      (template.match? before t).map (Prod.map (· ++ v) (· ++ v)) := by
  rw [Template.match?, Template.match?, hv.afterIntroduction?_append]
  split
  · rfl
  · cases template.family.afterIntroduction? t with
    | none => rfl
    | some name =>
      rw [Option.map_some, Option.bind_some, Option.bind_some, hv.afterName?_append]
      cases template.afterName? name <;> rfl

/-- A barrier keeps a text apart from what stands in front of it. -/
theorem keepsApart (template : Template) (t : Text) : template.KeepsApart t v where
  match_append w _ _ before := hv.match?_append template before w
  match_head := by
    have hnil : ∀ before, template.match? before [] = none := by
      intro before
      rw [Template.match?]
      split
      · rfl
      · cases template.family <;> rfl
    have hnone : ∀ before, template.match? before v = none := by
      intro before
      have h := hv.match?_append template before []
      rw [List.nil_append, hnil] at h
      exact h
    rw [hnone, hnone]

end IsBarrier

/-! ## Keywords behind a quote mark -/

section QuoteMark

variable {a : Text} (hlast : a.getLast? = some '\'')
  (hopening : ∀ c ∈ a, Delimiter.ofOpening? c = none)

include hlast hopening

/-- No part goes over a quote mark. -/
theorem Chain.endsWithPart_append (z : Text) : endsWithPart (a ++ z) = endsWithPart z := by
  induction a with
  | nil => cases hlast
  | cons c a ih =>
    have hc : Delimiter.ofOpening? c = none := hopening c (by simp)
    have hpart : (Shape.mixed.afterInner? isBareStart (c :: (a ++ z)) == some []) = false := by
      rw [Shape.afterInner?, hc]
      simp only [Shape.admits]
      by_cases hstart : isBareStart c
      · -- A bare part ends in front of the mark at the latest.
        have hmem : '\'' ∈ a := by
          rcases List.mem_cons.1 (List.mem_of_getLast? hlast) with rfl | hmem
          · exact absurd hstart (by decide)
          · exact hmem
        have hne : (a ++ z).dropWhile isBareChar ≠ [] := by
          rw [Ne, List.dropWhile_eq_nil_iff]
          exact fun h => absurd (h '\'' (by simp [hmem])) (by decide)
        simpa [hstart] using hne
      · simp [hstart]
    rw [List.cons_append, endsWithPart, hpart, Bool.false_or]
    cases a with
    | nil => rfl
    | cons d a => exact ih (by simpa using hlast) fun d hd => hopening d (by simp [hd])

/-- Text that ends in a quote mark does not make a dotted end. -/
theorem endsDotted_append (x : Text) : endsDotted (a ++ x) = endsDotted x := by
  have htrim : a.trimEnd = a := Text.trimEnd_eq_self_of_getLast? hlast (by decide)
  have hmark : a.getLast? ≠ some '.' := by
    rw [hlast]
    decide
  -- What is left of a text behind the mark when its trailing blanks are taken off.
  have hrest : ∀ y : Text, Text.trimEnd (a ++ y) = a ++ y.trimEnd := by
    intro y
    by_cases hy : y.trimEnd = []
    · rw [Text.trimEnd_append_of_blank a (Text.trimEnd_eq_nil_iff.1 hy), htrim, hy,
        List.append_nil]
    · exact Text.trimEnd_append a hy
  by_cases hdot : x.trimEnd.getLast? = some '.'
  · obtain ⟨y, hy⟩ := List.getLast?_eq_some_iff.1 hdot
    have hay : Text.trimEnd (a ++ x) = (a ++ y) ++ ['.'] := by
      rw [hrest, hy, List.append_assoc]
    rw [endsDotted_of_eq hy, endsDotted_of_eq hay, hrest, Chain.endsWithPart_append hlast hopening]
  · rw [endsDotted_eq_false hdot, endsDotted_eq_false]
    rw [hrest]
    by_cases hx : x.trimEnd = []
    · rwa [hx, List.append_nil]
    · rwa [List.getLast?_append_of_ne_nil _ hx]

/-- Text that ends in a quote mark does not turn a keyword behind it into the tail of a dotted
name. -/
theorem isChainTail_append (v : Text) (n : Nat) :
    isChainTail (a ++ v) (a.length + n) = isChainTail v n := by
  rw [isChainTail_eq, isChainTail_eq, List.take_length_add_append]
  by_cases hn : lookback ≤ n
  · rw [Nat.add_sub_assoc hn, List.drop_length_add_append]
  · -- The window reaches into the text in front, up to its end.
    have hpos : 0 < a.length := List.length_pos_iff.2 fun hnil => by simp [hnil] at hlast
    have hlt : a.length + n - lookback < a.length := by omega
    have hzero : n - lookback = 0 := Nat.sub_eq_zero_of_le (Nat.le_of_not_le hn)
    rw [List.drop_append_of_le_length hlt.le, hzero, List.drop_zero]
    refine endsDotted_append ?_ (fun c hc => hopening c (List.mem_of_mem_drop hc)) _
    rw [List.getLast?_drop, if_neg (Nat.not_le.2 hlt), hlast]

end QuoteMark

/-! ## A literal in a query -/

/-- The word SELECT with a literal behind it is set apart from what the literal says. -/
theorem nameSeam_select (family : Family) (v : Text) :
    NameSeam family.templates "SELECT '".toList v where
  keepsApart template _ := (template.keepsApart_select (c := '\'') (by decide) v).1
  head template _ h := absurd (template.keepsApart_select (c := '\'') (by decide) v).2 h
  tail _ _ c _ := isChainTail_append (a := "SELECT '".toList) rfl (by decide) v c.keyword

/-- The text behind the literal. -/
def behindLiteral : Text := "' AS note FROM t".toList

theorem isBarrier_behindLiteral : IsBarrier behindLiteral := ⟨rfl, by decide, by decide⟩

/-- What a literal says is set apart from the text behind it. -/
theorem nameSeam_behindLiteral (family : Family) (s : Text) :
    NameSeam family.templates s behindLiteral where
  keepsApart template _ := isBarrier_behindLiteral.keepsApart template s
  head _ _ _ := by decide
  tail template htemplate c hc := by
    have hkeyword : ∀ template ∈ family.templates, ∀ c ∈ template.candidates behindLiteral,
        c.keyword = 10 := by
      cases family <;> decide
    have htake : behindLiteral.take 10 = "' AS note ".toList := rfl
    rw [hkeyword template htemplate c hc, isChainTail_eq_false, isChainTail_eq_false]
    · decide
    · rw [List.take_length_add_append, htake, Text.trimEnd_append _ (by decide),
        List.getLast?_append_of_ne_nil _ (by decide)]
      decide

/-- A query with a literal on one line is in normal form. -/
theorem normalize_literal {s : Text} (hquote : '\'' ∉ s) (hline : '\n' ∉ s) :
    normalize ("SELECT '".toList ++ (s ++ behindLiteral)) =
      "SELECT '".toList ++ (s ++ behindLiteral) := by
  -- The literal is one quote, so nothing in it starts a comment, and without a second line it holds
  -- no command.
  have hliteral : IsUncommented ('\'' :: (s ++ behindLiteral)) := by
    have hclose : Quote.after? .single ((s ++ ['\'']) ++ " AS note FROM t".toList) =
        some " AS note FROM t".toList := by
      rw [List.append_assoc]
      exact Doubled.after?_append_mark hquote (by decide)
    have h := (isUncommented_quote hclose).2 (isUncommented_of_not_mem (by decide))
    rwa [List.append_assoc] at h
  have hlines : HasNoCommands false ('\'' :: (s ++ behindLiteral)) := by
    intro y hy
    rw [lineStarts_of_not_mem] at hy
    · cases hy
    · simp only [List.mem_cons, List.mem_append, not_or]
      exact ⟨by decide, hline, by decide⟩
  have htrim : Text.trimEnd ('\'' :: (s ++ behindLiteral)) = '\'' :: (s ++ behindLiteral) := by
    rw [← List.cons_append, Text.trimEnd_append _ (by decide)]
    rfl
  exact (isNewHead_of_words (t := []) (by simp)).normalize_eq hliteral hlines (by simp) htrim

section Query

variable {budget : Budget} (hbudget : budget.isSpent = false)

include hbudget

/-- Behind the literal the table `t` is named, and no database. -/
theorem names_behindLiteral : matchNames Family.database.templates budget behindLiteral = [] ∧
    firstTableIn budget behindLiteral = some "t".toList := by
  have hdefault : budget.isSpent = Budget.default.isSpent := hbudget
  constructor
  · rw [matchNames_congr hdefault]
    decide +kernel
  · rw [firstTableIn, matchNames_congr hdefault, ← firstTableIn]
    decide +kernel

/-- The names of a query with a literal are those that the literal would name as a text of its own,
and the table `t` behind it. The literal contributes nothing exactly when it names no database and
no table but `t`. -/
theorem names_literal {s : Text} (hquote : '\'' ∉ s) (hline : '\n' ∉ s) :
    let sql := "SELECT '".toList ++ (s ++ "' AS note FROM t".toList)
    (databaseNames budget sql = databasesIn budget s ∧
      firstTableName? budget sql = (firstTableIn budget s).or (some "t".toList)) ∧
    (databaseNames budget sql = [] ∧ firstTableName? budget sql = some "t".toList ↔
      databasesIn budget s = [] ∧ ∀ table ∈ firstTableIn budget s, table = "t".toList) := by
  intro sql
  obtain ⟨hdatabases, htable⟩ := names_behindLiteral hbudget
  have hnone : ∀ family : Family, matchNames family.templates budget "SELECT '".toList = [] :=
    fun family => matchNames_eq_nil fun template _ =>
      (template.keepsApart_select (c := '\'') (by decide) []).2
  have hsql : normalize sql = "SELECT '".toList ++ (s ++ behindLiteral) :=
    normalize_literal hquote hline
  -- The query is cut in front of what the literal says, and behind it.
  have hhead : databasesIn budget "SELECT '".toList = [] := by
    rw [databasesIn, hnone]
    rfl
  have hdatabaseNames : databaseNames budget sql = databasesIn budget s := by
    rw [databaseNames, hsql, databasesIn_append _ (nameSeam_select _ _), hhead, ← databasesIn,
      databasesIn_append _ (nameSeam_behindLiteral _ s), hdatabases]
    rfl
  have hfirstTable : firstTableName? budget sql = (firstTableIn budget s).or (some "t".toList) := by
    rw [firstTableName?, hsql, firstTableIn_append _ (nameSeam_select _ _), firstTableIn, hnone,
      firstTableIn_append _ (nameSeam_behindLiteral _ s), htable]
    rfl
  refine ⟨⟨hdatabaseNames, hfirstTable⟩, ?_⟩
  rw [hdatabaseNames, hfirstTable]
  refine and_congr_right fun _ => ?_
  cases firstTableIn budget s <;> simp

end Query

/-- A literal that spells a FROM is taken for one. -/
theorem names_literal_spelled :
    let sql := "SELECT 'FROM a.b.c' AS note FROM t".toList
    databaseNames Budget.default sql = ["a".toList] ∧
      firstTableName? Budget.default sql = some "c".toList := by
  have h := (@names_literal Budget.default rfl "FROM a.b.c".toList (by decide)
    (by decide)).1
  exact ⟨h.1.trans (by decide +kernel), h.2.trans (by decide +kernel)⟩

/-- A literal can contribute a database, and take the place of the first table. -/
theorem names_literal_ne :
    ¬ (databaseNames Budget.default "SELECT 'FROM a.b.c' AS note FROM t".toList = [] ∧
      firstTableName? Budget.default "SELECT 'FROM a.b.c' AS note FROM t".toList =
        some "t".toList) := by
  decide +kernel

end LooseSql
