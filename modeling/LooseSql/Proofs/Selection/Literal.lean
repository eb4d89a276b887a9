import LooseSql.Proofs.Clause.Enclosure
import LooseSql.Proofs.Selection.Variants

/-!
# A string literal in a condition

The scans for comments and for clauses know string literals, so comment marks and keywords in a
literal stay. The steps of `normalize` that work line by line do not know them: a line of a literal
that reads as a `USE` statement or as a batch separator is taken out (`withoutCommands`). So in
`SELECT x FROM t WHERE y = 's'` the condition and the variants of the query keep the literal exactly
when no line starts with such a command in it (`literal_kept_iff`).

* `exists_withoutCommands`: the quote mark that ends the literal is never taken out;
* `normalize_condition`: the normal form of the query;
* `locate?_condition`: its layout, with what is left of the literal in the condition.
-/

namespace LooseSql

/-! ## Commands in front of a quote mark -/

/-- A quote mark at the end of a text is not at its head, if another character is. -/
theorem getLast?_of_cons {c : Char} {t : Text} (hc : c ≠ '\'')
    (ht : (c :: t).getLast? = some '\'') : t.getLast? = some '\'' := by
  cases t with
  | nil => exact absurd (Option.some.inj ht) hc
  | cons d t => rwa [List.getLast?_cons_cons] at ht

/-- A search for another mark stops in front of a quote mark that ends the text. -/
theorem mem_of_afterNextMark? {mark : Char} {t rest : Text} (hmark : mark ≠ '\'')
    (h : afterNextMark? mark t = some rest) (ht : t.getLast? = some '\'') : '\'' ∈ rest := by
  obtain ⟨inner, -, rfl⟩ := afterNextMark?_eq_some_iff.1 h
  rw [List.getLast?_append_of_ne_nil _ (by simp)] at ht
  exact List.mem_of_getLast? (getLast?_of_cons hmark ht)

/-- A name in a quote ends in another mark, and a bare one does not hold a quote mark. -/
theorem mem_of_afterDatabaseName? {t rest : Text} (h : afterDatabaseName? t = some rest)
    (ht : t.getLast? = some '\'') : '\'' ∈ rest := by
  unfold afterDatabaseName? at h
  split at h
  · exact mem_of_afterNextMark? (by decide) h (getLast?_of_cons (by decide) ht)
  · exact mem_of_afterNextMark? (by decide) h (getLast?_of_cons (by decide) ht)
  · exact (afterRun?_append_of_mem (List.mem_of_getLast? ht) (by decide) []).2 rest h

/-- A `USE` statement does not take in a quote mark that ends the text. -/
theorem afterUse?_ne_nil {t rest : Text} (h : afterUse? t = some rest)
    (ht : t.getLast? = some '\'') : rest ≠ [] := by
  rw [afterUse?_eq, Option.map_eq_some_iff] at h
  obtain ⟨r, hr, rfl⟩ := h
  obtain ⟨r₁, hword, hr⟩ := Option.bind_eq_some_iff.1 hr
  obtain ⟨r₂, hblanks, hname⟩ := Option.bind_eq_some_iff.1 hr
  -- The word and the blanks around it do not hold the mark, so it ends what is behind them.
  have hmem₁ : '\'' ∈ r₁ := by
    have hmem := (dropWhile_append_of_mem (List.mem_of_getLast? ht)
      (by decide : isSpaceOrTab '\'' = false) []).2
    exact (afterFolded?_append_of_mem "use".toList hmem (by decide) []).2 r₁ hword
  have hmem₂ : '\'' ∈ r₂ := by
    obtain ⟨ws, rfl, hws⟩ := Text.exists_of_afterBlanks? hblanks
    exact (List.mem_append.1 hmem₁).resolve_left fun hmem => absurd (hws _ hmem) (by decide)
  have hsuffix : r₂ <:+ t := (Text.afterBlanks?_suffix hblanks).trans
    ((afterFolded?_suffix hword).trans (List.dropWhile_suffix isSpaceOrTab))
  have hlast : r₂.getLast? = some '\'' := by
    obtain ⟨u, rfl⟩ := hsuffix
    rwa [List.getLast?_append_of_ne_nil _ (List.ne_nil_of_mem hmem₂)] at ht
  have hmem := (dropWhile_append_of_mem (mem_of_afterDatabaseName? hname hlast)
    (by decide : isSpaceOrTab '\'' = false) []).2
  exact List.ne_nil_of_mem (afterOptionalMark_append_of_mem ';' hmem (by decide) []).2

/-- A batch separator does not take in a quote mark. -/
theorem afterBatchSeparator?_ne_nil {t rest : Text} (h : afterBatchSeparator? t = some rest)
    (ht : t.getLast? = some '\'') : rest ≠ [] := by
  rintro rfl
  obtain ⟨⟨m, hm, hmarks⟩, -⟩ := passes_afterBatchSeparator? h
  rw [List.append_nil] at hm
  rw [hm] at ht
  exact absurd (hmarks _ (List.mem_of_getLast? ht)) (by decide)

/-- What the line by line steps leave of a text that goes on inside a line. -/
def withoutCommands (t : Text) : Text :=
  eraseAtLineStarts afterBatchSeparator? false (eraseAtLineStarts afterUse? false t)

/-- Of a literal and the quote mark that ends it, the mark is left. -/
theorem exists_withoutCommands (s : Text) :
    ∃ kept : Text, kept.Sublist s ∧ withoutCommands (s ++ ['\'']) = kept ++ ['\''] := by
  have hlast : (withoutCommands (s ++ ['\''])).getLast? = some '\'' :=
    getLast?_eraseAtLineStarts rfl (fun t rest => afterBatchSeparator?_ne_nil) false
      (getLast?_eraseAtLineStarts rfl (fun t rest => afterUse?_ne_nil) false
        List.getLast?_concat)
  obtain ⟨kept, hkept⟩ := List.getLast?_eq_some_iff.1 hlast
  refine ⟨kept, ?_, hkept⟩
  have hsublist : (withoutCommands (s ++ ['\''])).Sublist (s ++ ['\'']) :=
    (eraseAtLineStarts_sublist _ _).trans (eraseAtLineStarts_sublist _ _)
  rw [hkept] at hsublist
  exact (List.append_sublist_append_right ['\'']).1 hsublist

/-- All of a text is left exactly when no line in it starts with a command. -/
theorem withoutCommands_eq_self_iff {t : Text} : withoutCommands t = t ↔ HasNoCommands false t := by
  obtain ⟨huse, huseNone⟩ := @length_eraseAtLineStarts_le afterUse? false t
  obtain ⟨hbatch, hbatchNone⟩ :=
    @length_eraseAtLineStarts_le afterBatchSeparator? false (eraseAtLineStarts afterUse? false t)
  constructor
  · intro h
    rw [← withoutCommands, h] at hbatch hbatchNone
    have huseLines := huseNone (by omega)
    have hbatchLines := hbatchNone (by omega)
    rw [eraseAtLineStarts_eq_self huseLines] at hbatchLines
    exact fun y hy => ⟨huseLines y hy, hbatchLines y hy⟩
  · intro h
    rw [withoutCommands, eraseAtLineStarts_eq_self fun y hy => (h y hy).1,
      eraseAtLineStarts_eq_self fun y hy => (h y hy).2]

/-! ## A query with a literal -/

/-- The query up to the literal in its condition. -/
def conditionFront : Text := "SELECT x FROM t WHERE y = ".toList

/-- A literal on its own: a text in quote marks. -/
def literal (s : Text) : Text := (Enclosure.quote .single).wrap s

/-- The normal form of the query holds what is left of the literal. -/
theorem normalize_condition {s : Text} (hquote : '\'' ∉ s) :
    normalize (conditionFront ++ literal s) =
      conditionFront ++ '\'' :: withoutCommands (s ++ ['\'']) := by
  have hliteral : literal s = '\'' :: (s ++ ['\'']) := rfl
  have huncommented : IsUncommented (conditionFront ++ literal s) := by
    have hafter : Quote.after? .single (s ++ ['\''] ++ []) = some [] := by
      rw [List.append_assoc]
      exact Doubled.after?_append_mark hquote (by simp)
    have hwrapped := (isUncommented_quote hafter).2 isUncommented_nil
    rw [List.append_nil] at hwrapped
    have hfront : (scan .top conditionFront).quote = none := by decide
    refine (isUncommented_append_iff rfl hfront ?_).2
      ⟨isUncommented_of_not_mem (by decide), hwrapped⟩
    rintro _ ⟨⟩ d -
    exact not_joins_of_not_mem (.inl (by decide))
  -- The line by line steps find no command in front of the literal.
  have hselect : ∀ w, conditionFront ++ w =
      "SELECT".toList ++ (" x FROM t WHERE y = ".toList ++ w) := fun w => rfl
  have herase : ∀ {after? : Text → Option Text}, (∀ t, after? ("SELECT".toList ++ t) = none) →
      ∀ w, eraseAtLineStarts after? true (conditionFront ++ '\'' :: w) =
        conditionFront ++ '\'' :: eraseAtLineStarts after? false w := by
    intro after? hnone w
    have hfirst : after? (conditionFront ++ '\'' :: w) = none := by rw [hselect, hnone]
    rw [eraseAtLineStarts_true hfirst, List.append_cons, eraseAtLineStarts_append (by decide),
      ← List.append_cons]
  have hstrip : stripBatchSeparators (stripUse (conditionFront ++ literal s)) =
      conditionFront ++ '\'' :: withoutCommands (s ++ ['\'']) := by
    rw [stripUse, hliteral, herase afterUse?_select, stripBatchSeparators,
      herase afterBatchSeparator?_select, withoutCommands]
  have htrim : Text.trim (conditionFront ++ '\'' :: withoutCommands (s ++ ['\''])) =
      conditionFront ++ '\'' :: withoutCommands (s ++ ['\'']) := by
    obtain ⟨kept, -, hkept⟩ := exists_withoutCommands s
    rw [hkept, ← List.cons_append, ← List.append_assoc]
    exact Text.trim_eq_self_iff.2
      ⟨rfl, Text.trimEnd_eq_self_of_getLast? List.getLast?_concat (by decide)⟩
  have hprologue : stripCtePrologue (conditionFront ++ '\'' :: withoutCommands (s ++ ['\''])) =
      conditionFront ++ '\'' :: withoutCommands (s ++ ['\'']) := by
    rw [stripCtePrologue, hselect, afterCtePrologue?_select, Option.getD_none]
  rw [normalize, stripComments_eq_self_iff.2 huncommented, hstrip, htrim, hprologue, htrim]

/-- The layout of the query, for a literal that holds no quote mark. -/
theorem locate?_condition {s : Text} (hquote : '\'' ∉ s) :
    Layout.locate? (conditionFront ++ literal s) =
      some ⟨⟨7, 8⟩, some 9, some ⟨22, 28 + s.length⟩, none, none, none, none, 28 + s.length,
        .none⟩ := by
  -- It is the layout of the query with the empty literal, carried along.
  have hhead : Head.locate? (conditionFront ++ (literal [] ++ [])) = some ⟨6, 28, .none⟩ := by
    decide
  have hlayout : (Head.mk 6 28 .none).layout (conditionFront ++ (literal [] ++ [])) =
      ⟨⟨7, 8⟩, some 9, some ⟨22, 28⟩, none, none, none, none, 28, .none⟩ := by
    decide
  have hclosed : conditionFront.IsClosed := by decide
  have hempty : (Enclosure.quote .single).Fits [] := by decide
  have hcarries := Enclosure.carries (e := .quote .single) (b := []) hclosed hempty hquote
  have hmap := hcarries.layout_map (.inl (by decide)) (.inr (by decide))
    (Head.isSound_of_locate? hhead)
  have hhead' := Enclosure.locate?_head_exchange hclosed hempty hquote hhead (by decide)
  rw [List.append_nil] at hhead' hmap
  have hlength : conditionFront.length = 26 := rfl
  rw [Layout.locate?, literal, hhead', Option.map_some, hmap, ← literal, hlayout, hlength]
  simp [Layout.map, Span.map, shiftBehind]

/-- The condition of the query, and the selection that it comes down to. -/
theorem exists_ofScript?_condition {s : Text} (hquote : '\'' ∉ s) :
    whereClause? (conditionFront ++ literal s) =
      some ("y = '".toList ++ withoutCommands (s ++ ['\''])) ∧
    ∃ selection, Selection.ofScript? (conditionFront ++ literal s) = some selection ∧
      selection.list = "x".toList ∧
      selection.fromSource = "FROM t WHERE y = '".toList ++ withoutCommands (s ++ ['\'']) ∧
      selection.layout.modifiers.distinct = false := by
  -- What is left of the literal is part of it, so it holds no quote either.
  obtain ⟨kept, hsublist, hkept⟩ := exists_withoutCommands s
  have hlayout := locate?_condition fun hmem => hquote (hsublist.mem hmem)
  have hnormal := normalize_condition hquote
  rw [hkept] at hnormal ⊢
  constructor
  · have hsplit : conditionFront ++ ['\''] = "SELECT x FROM t WHERE ".toList ++ "y = '".toList := by
      decide
    have hslice : (Span.mk 22 (28 + kept.length)).slice
        (conditionFront ++ '\'' :: (kept ++ ['\''])) = "y = '".toList ++ (kept ++ ['\'']) := by
      refine Span.slice_of_eq_append (a := "SELECT x FROM t WHERE ".toList) (b := []) ?_ rfl ?_
      · rw [List.append_cons, hsplit, List.append_nil, List.append_assoc]
      · have hlength : "y = '".toList.length = 5 := rfl
        rw [List.length_append, hlength, List.length_append, List.length_singleton]
        omega
    rw [whereClause?, Statement.ofScript?_eq hnormal hlayout, Option.bind_some,
      Statement.condition?, Statement.clause?, Option.map_some]
    exact congrArg (Option.filter _ ∘ some) hslice
  · obtain ⟨selection, hselection, htext, hselectionLayout, hstart⟩ :=
      Selection.exists_of_locate? hnormal hlayout rfl rfl
    refine ⟨selection, hselection, ?_, ?_, by rw [hselectionLayout]; rfl⟩
    · rw [Statement.list, htext, hselectionLayout]
      rfl
    · have hsplit : conditionFront ++ ['\''] = "SELECT x ".toList ++ "FROM t WHERE y = '".toList :=
        by decide
      rw [Selection.fromSource, htext, hstart, List.append_cons, hsplit, List.append_assoc]
      exact List.drop_left' rfl

/-- What is made of the query holds what the line by line steps leave of the literal. So the literal
is kept in the condition, in the count and in the first rows exactly when no line in it starts with
a `USE` statement or a batch separator. -/
theorem literal_kept_iff {s : Text} (hquote : '\'' ∉ s) {n : Int} (hn : 0 < n) :
    let sql := "SELECT x FROM t WHERE y = '".toList ++ (s ++ ['\''])
    (whereClause? sql = some ("y = '".toList ++ withoutCommands (s ++ ['\''])) ∧
      toCount? sql =
        some ("SELECT COUNT(*) FROM t WHERE y = '".toList ++ withoutCommands (s ++ ['\''])) ∧
      toTop? n sql = some ("SELECT TOP ".toList ++ (toString n).toList ++
        " x FROM t WHERE y = '".toList ++ withoutCommands (s ++ ['\'']))) ∧
    (whereClause? sql = some ("y = '".toList ++ (s ++ ['\''])) ∧
        toCount? sql = some ("SELECT COUNT(*) FROM t WHERE y = '".toList ++ (s ++ ['\''])) ∧
        (∃ top, toTop? n sql = some top ∧ "FROM t WHERE y = '".toList ++ (s ++ ['\'']) <:+ top) ↔
      ∀ y ∈ lineStarts false (s ++ ['\'']),
        afterUse? y = none ∧ afterBatchSeparator? y = none) := by
  intro sql
  have hfront : "SELECT x FROM t WHERE y = '".toList = conditionFront ++ ['\''] := by decide
  have hsql : sql = conditionFront ++ literal s := by
    change "SELECT x FROM t WHERE y = '".toList ++ (s ++ ['\'']) = _
    rw [hfront, List.append_assoc]
    rfl
  obtain ⟨hcondition, selection, hselection, hlist, hfrom, hdistinct⟩ :=
    exists_ofScript?_condition hquote
  rw [← HasNoCommands, ← withoutCommands_eq_self_iff]
  rw [← hsql] at hcondition hselection
  generalize withoutCommands (s ++ ['\'']) = left at hcondition hfrom ⊢
  have hcount : toCount? sql = some ("SELECT COUNT(*) FROM t WHERE y = '".toList ++ left) := by
    have hwords : "SELECT COUNT(*) ".toList ++ "FROM t WHERE y = '".toList =
        "SELECT COUNT(*) FROM t WHERE y = '".toList := by decide
    rw [toCount?, hselection, Option.map_some, Selection.toCount, hdistinct,
      if_neg Bool.false_ne_true, hfrom, ← List.append_assoc, hwords]
  have htop : toTop? n sql = some ("SELECT TOP ".toList ++ (toString n).toList ++
      ' ' :: ("x".toList ++ ' ' :: ("FROM t WHERE y = '".toList ++ left))) := by
    rw [toTop?, if_neg (not_le.2 hn), hselection, Option.map_some, Selection.toTop_eq, hlist, hfrom]
  refine ⟨⟨hcondition, hcount, htop.trans ?_⟩, ?_⟩
  · have hwords : ' ' :: ("x".toList ++ ' ' :: "FROM t WHERE y = '".toList) =
        " x FROM t WHERE y = '".toList := by decide
    refine Eq.trans ?_ (congrArg (fun words : Text =>
      some ("SELECT TOP ".toList ++ (toString n).toList ++ words ++ left)) hwords)
    simp only [List.append_assoc, List.cons_append]
  · constructor
    · rintro ⟨h, -, -⟩
      exact List.append_cancel_left (Option.some.inj (hcondition.symm.trans h))
    · rintro rfl
      refine ⟨hcondition, hcount, _, htop, ?_⟩
      refine List.IsSuffix.trans ?_ (List.suffix_append _ _)
      exact (List.suffix_append ("x".toList ++ [' ']) _).trans ⟨[' '], by simp⟩

/-- A line of the literal that reads as a batch separator is taken out. -/
theorem literal_kept_iff_batch :
    let sql := "SELECT x FROM t WHERE y = 'a\nGO\nb'".toList
    whereClause? sql = some "y = 'a\n\nb'".toList ∧
      toCount? sql = some "SELECT COUNT(*) FROM t WHERE y = 'a\n\nb'".toList ∧
      toTop? 5 sql = some "SELECT TOP 5 x FROM t WHERE y = 'a\n\nb'".toList := by
  obtain ⟨hcondition, hcount, htop⟩ :=
    (@literal_kept_iff "a\nGO\nb".toList (by decide) 5 (by decide)).1
  have hsql : "SELECT x FROM t WHERE y = 'a\nGO\nb'".toList =
      "SELECT x FROM t WHERE y = '".toList ++ ("a\nGO\nb".toList ++ ['\'']) := by decide
  exact ⟨(congrArg whereClause? hsql).trans (hcondition.trans (by decide +kernel)),
    (congrArg toCount? hsql).trans (hcount.trans (by decide +kernel)),
    (congrArg (toTop? 5) hsql).trans (htop.trans (by decide +kernel))⟩

/-- A literal is not always kept. -/
theorem literal_not_kept :
    ¬ (whereClause? "SELECT x FROM t WHERE y = 'a\nGO\nb'".toList = some "y = 'a\nGO\nb'".toList ∧
      toCount? "SELECT x FROM t WHERE y = 'a\nGO\nb'".toList =
        some "SELECT COUNT(*) FROM t WHERE y = 'a\nGO\nb'".toList ∧
      ∃ top, toTop? 5 "SELECT x FROM t WHERE y = 'a\nGO\nb'".toList = some top ∧
        "FROM t WHERE y = 'a\nGO\nb'".toList <:+ top) := by
  have h : whereClause? "SELECT x FROM t WHERE y = 'a\nGO\nb'".toList ≠
      some "y = 'a\nGO\nb'".toList := by decide +kernel
  exact fun hkept => h hkept.1

end LooseSql
