import LooseSql.Analysis
import LooseSql.Proofs.Column.Alias

/-!
# What is told of a column is never empty

A column has a name, and a qualifier or an alias that it has is a text that holds something:
`Column.IsNamed`. The texts come from two places.

* A dotted name has a last part that is not empty, and a part of it that is empty is told as none.
* An alias is accepted as it is written and unwrapped behind that. The two agree: only a blank token
  and a pair of delimiters with nothing between them unwrap to nothing (`Part.unwrap_eq_nil_iff`),
  and neither is accepted.

`columns_isNamed` has it for all columns that are ever reported.
-/

namespace LooseSql

/-- Only a blank token and a pair of delimiters with nothing between them unwrap to nothing. -/
theorem Part.unwrap_eq_nil_iff {token : Text} :
    unwrap token = [] ↔ token.trim = [] ∨ ∃ d : Delimiter, token.trim = d.wrap [] := by
  constructor
  · intro h
    rw [unwrap] at h
    split at h
    · next part hread =>
      subst h
      obtain ⟨written, htoken, heq⟩ := exists_token_of_read? hread
      rw [List.append_nil] at heq
      -- Nothing is left of a token: it has nothing between its delimiters, or it is missing.
      cases htoken with
      | delimited d => exact .inr ⟨d, heq⟩
      | word hne => exact absurd rfl hne
      | missing => exact .inl heq
    · exact .inl h
  · rintro (h | ⟨d, h⟩)
    · rw [unwrap, h]
      rfl
    · rw [unwrap, h]
      cases d <;> rfl

namespace QualifiedName

theorem last_ne_nil (name : QualifiedName) : name.last ≠ [] := by
  obtain ⟨parts, hpos, -, -, hlast⟩ := name
  have hne : parts ≠ [] := List.ne_nil_of_length_pos hpos
  rw [last, List.getLastD_eq_getLast?, List.getLast?_eq_some_getLast hne]
  rw [List.getLast?_eq_some_getLast hne] at hlast
  exact fun h => hlast (congrArg some h)

/-- A part that is empty is told as none. -/
theorem part?_ne_nil (name : QualifiedName) (i : Nat) : name.part? i ≠ some [] := by
  simp [part?, Option.filter_eq_some_iff]

theorem bind_part?_ne_nil (name : QualifiedName) (i? : Option Nat) :
    i?.bind name.part? ≠ some [] := by
  cases i? with
  | none => simp
  | some i => exact name.part?_ne_nil i

end QualifiedName

/-! ## Aliases -/

namespace Alias

/-- A pair of delimiters with nothing between them is no alias behind AS. -/
theorem isExplicit_wrap_nil (d : Delimiter) : isExplicit (d.wrap []) = false := by
  cases d <;> decide

/-- What can stand behind AS gives a name that is not empty. -/
theorem unwrapExplicit_ne_nil {t : Text} (htrim : t.trim = t) (h : isExplicit t = true) :
    unwrapExplicit t ≠ [] := by
  cases t with
  | nil => cases h
  | cons c t =>
    by_cases hquote : c = '\''
    · -- A string literal, which is not empty.
      subst hquote
      rw [isExplicit, if_pos rfl] at h
      rw [unwrapExplicit]
      cases hdecode : Doubled.decode? '\'' t with
      | none =>
        rw [hdecode] at h
        cases h
      | some p =>
        rw [hdecode] at h
        have hinside : (!p.1.isEmpty) = true := (Bool.and_eq_true_iff.1 h).1
        simpa using hinside
    · rw [unwrapExplicit]
      · rw [ne_eq, Part.unwrap_eq_nil_iff, htrim]
        rintro (hnil | ⟨d, hwrap⟩)
        · cases hnil
        · rw [hwrap, isExplicit_wrap_nil] at h
          cases h
      · rintro rest hrest
        exact hquote (List.cons.inj hrest).1

/-- A bare alias holds no blank. -/
theorem isBlank_of_isBareChar {c : Char} (hc : isBareChar c = true) : isBlank c = false := by
  by_contra hblank
  rw [Bool.not_eq_false] at hblank
  simp only [isBareChar, isTextWordChar_of_isBlank hblank, Bool.false_or, Bool.or_eq_true,
    beq_iff_eq] at hc
  rcases hc with (rfl | rfl) | rfl <;> exact absurd hblank (by decide)

theorem isBareChar_of_isImplicitStart {c : Char} (hc : isImplicitStart c = true) :
    isBareChar c = true := by
  rcases Bool.or_eq_true_iff.1 hc with halpha | hline
  · simp [isBareChar, isTextWordChar_of_isAlpha halpha]
  · rw [eq_of_beq hline]
    decide

/-- What can be an alias without AS gives a name that is not empty. -/
theorem unwrap_ne_nil_of_isImplicit {t : Text} (h : isImplicit t = true) : Part.unwrap t ≠ [] := by
  rcases isImplicit_iff.1 h with ⟨d, name, hname, rfl⟩ | ⟨c, r, rfl, hc, hr⟩
  · rw [(Part.IsToken.delimited d name).unwrap_eq hname]
    exact hname
  · -- A bare alias has neither blanks around it nor a delimiter in front.
    have hbare : ∀ e ∈ c :: r, isBareChar e = true :=
      List.forall_mem_cons.2 ⟨isBareChar_of_isImplicitStart hc, hr⟩
    have htrim : Text.trim (c :: r) = c :: r := Text.trim_eq_self_iff.2
      ⟨Text.trimStart_eq_self_iff.2 fun e he =>
          isBlank_of_isBareChar (hbare e (List.mem_of_mem_head? he)),
        Text.trimEnd_eq_self_iff.2 fun e he =>
          isBlank_of_isBareChar (hbare e (List.mem_of_mem_getLast? he))⟩
    rw [ne_eq, Part.unwrap_eq_nil_iff, htrim]
    rintro (hnil | ⟨d, hwrap⟩)
    · cases hnil
    · rw [(List.cons.inj hwrap).1] at hc
      cases d <;> exact absurd hc (by decide)

variable {t body name : Text}

theorem ne_nil_of_explicit? (h : explicit? t = some (body, name)) : name ≠ [] := by
  obtain ⟨word, -, hword⟩ := Option.bind_eq_some_iff.1 h
  obtain ⟨haccepted, hcut⟩ := Option.ite_none_right_eq_some.1 hword
  obtain ⟨-, rfl⟩ := Prod.mk.inj (Option.some.inj hcut)
  exact unwrapExplicit_ne_nil (Text.trim_trim _) (Bool.and_eq_true_iff.1 haccepted).2

theorem ne_nil_of_implicit? (h : implicit? t = some (body, name)) : name ≠ [] := by
  obtain ⟨⟨front, written⟩, hlast, hwritten⟩ := Option.bind_eq_some_iff.1 h
  obtain ⟨-, hcut⟩ := Option.ite_none_right_eq_some.1 hwritten
  obtain ⟨-, rfl⟩ := Prod.mk.inj (Option.some.inj hcut)
  exact unwrap_ne_nil_of_isImplicit (lastImplicitFrom_eq_some_iff.1 hlast).1

end Alias

/-- The alias that is cut off an item is not empty. -/
theorem splitAlias_alias_ne_nil (item : Text) : (splitAlias item).2 ≠ some [] := by
  rw [splitAlias]
  split
  · next body name hcut =>
    rw [ne_eq, Option.some.injEq]
    rw [Option.orElse_eq_or, Option.or_eq_some_iff] at hcut
    rcases hcut with hexplicit | ⟨-, himplicit⟩
    · exact Alias.ne_nil_of_explicit? hexplicit
    · exact Alias.ne_nil_of_implicit? himplicit
  · simp

/-! ## Columns -/

namespace Column

/-- The column has a name, and each qualifier and alias that it has is a text that holds
something. -/
structure IsNamed (c : Column) : Prop where
  /-- The name is not empty. -/
  name_ne_nil : c.name ≠ []
  /-- The database is not an empty text. -/
  database_ne_nil : c.database ≠ some []
  /-- The table is not an empty text. -/
  table_ne_nil : c.table ≠ some []
  /-- The alias is not an empty text. -/
  aliasName_ne_nil : c.aliasName ≠ some []

variable {body name : Text} {aliasName : Option Text} {c : Column}

theorem isNamed_plain (hname : name ≠ []) (halias : aliasName ≠ some []) :
    (plain name aliasName).IsNamed := ⟨hname, nofun, nofun, halias⟩

theorem isNamed_ofName (name : QualifiedName) (halias : aliasName ≠ some []) :
    (ofName name aliasName).IsNamed :=
  ⟨name.last_ne_nil, name.bind_part?_ne_nil _, name.bind_part?_ne_nil _, halias⟩

theorem isNamed_ofAlias (hname : name ≠ []) : (ofAlias name).IsNamed :=
  isNamed_plain hname (by simpa using hname)

theorem isNamed_of_ofArithmetic? (hname : name ≠ []) (h : ofArithmetic? body name = some c) :
    c.IsNamed := by
  rw [ofArithmetic?] at h
  split at h
  · obtain ⟨last, -, rfl⟩ := Option.map_eq_some_iff.1 h
    exact isNamed_ofName last (by simpa using hname)
  · rw [← Option.some.inj h]
    exact isNamed_ofAlias hname

/-- With an alias that is not empty an expression stands for a column that is named. -/
theorem isNamed_of_ofExpression? (halias : aliasName ≠ some [])
    (h : ofExpression? body aliasName = some c) : c.IsNamed := by
  rw [ofExpression?] at h
  split at h
  · cases h
  · split at h
    · -- A subquery or a CASE expression.
      obtain ⟨name, rfl, rfl⟩ := Option.map_eq_some_iff.1 h
      exact isNamed_ofAlias (by simpa using halias)
    · split at h
      · -- A name.
        rw [← Option.some.inj h]
        exact isNamed_ofName _ halias
      · split at h
        · -- Arithmetic.
          obtain ⟨name, rfl, harithmetic⟩ := Option.bind_eq_some_iff.1 h
          exact isNamed_of_ofArithmetic? (by simpa using halias) harithmetic
        · -- A function call.
          obtain ⟨called, -, rfl⟩ := Option.map_eq_some_iff.1 h
          exact isNamed_plain called.last_ne_nil halias

theorem isNamed_of_resolve? {item : Text} (h : resolve? item = some c) : c.IsNamed :=
  isNamed_of_ofExpression? (splitAlias_alias_ne_nil item) h

end Column

theorem Statement.isNamed_of_mem_columns {s : Statement} {c : Column} (hc : c ∈ s.columns) :
    c.IsNamed := by
  obtain ⟨item, -, hitem⟩ := List.mem_filterMap.1 hc
  exact Column.isNamed_of_resolve? hitem

/-- The column that an item stands for is named, and so are the columns of a script and those of its
analysis. -/
theorem columns_isNamed :
    (∀ item c, Column.resolve? item = some c → c.IsNamed) ∧
    (∀ sql, ∀ c ∈ columnDetails sql, c.IsNamed) ∧
    (∀ budget sql a, analyze? budget sql = some a → ∀ c ∈ a.columns, c.IsNamed) := by
  refine ⟨fun item c => Column.isNamed_of_resolve?, fun sql c hc => ?_,
    fun budget sql a ha c hc => ?_⟩
  · rw [columnDetails] at hc
    cases hs : Statement.ofScript? sql with
    | none =>
      rw [hs] at hc
      cases hc
    | some s =>
      rw [hs] at hc
      exact Statement.isNamed_of_mem_columns hc
  · obtain ⟨s, -, rfl⟩ := Option.map_eq_some_iff.1 ha
    exact Statement.isNamed_of_mem_columns hc

/-- An empty part in the middle of a name, and an alias for each way to write one. -/
theorem columns_isNamed_aliases :
    (∃ c, Column.resolve? "[a]]b]..x AS 'it''s'".toList = some c ∧
      c = ⟨some "a]b".toList, none, "x".toList, some "it's".toList⟩ ∧ c.IsNamed) ∧
    (∃ c ∈ columnDetails "SELECT 1, (SELECT [].x) n FROM t".toList,
      c = .ofAlias "n".toList ∧ c.IsNamed) ∧
    ∃ a, analyze? .default "SELECT t.x * 2 AS \"y \"".toList = some a ∧
      a.columns = [⟨none, some "t".toList, "x".toList, some "y ".toList⟩] ∧
      ∀ c ∈ a.columns, c.IsNamed := by
  obtain ⟨hresolve, hdetails, hanalyze⟩ := columns_isNamed
  have hitem : Column.resolve? "[a]]b]..x AS 'it''s'".toList =
      some ⟨some "a]b".toList, none, "x".toList, some "it's".toList⟩ := by decide +kernel
  have hmem : Column.ofAlias "n".toList ∈
      columnDetails "SELECT 1, (SELECT [].x) n FROM t".toList := by decide +kernel
  have hcolumns : (analyze? .default "SELECT t.x * 2 AS \"y \"".toList).map (·.columns) =
      some [⟨none, some "t".toList, "x".toList, some "y ".toList⟩] := by decide +kernel
  obtain ⟨a, ha, hacolumns⟩ := Option.map_eq_some_iff.1 hcolumns
  exact ⟨⟨_, hitem, rfl, hresolve _ _ hitem⟩, ⟨_, hmem, rfl, hdetails _ _ hmem⟩,
    a, ha, hacolumns, hanalyze _ _ _ ha⟩

end LooseSql
