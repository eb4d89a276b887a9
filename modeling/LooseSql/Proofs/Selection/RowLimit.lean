import LooseSql.Proofs.Clause.Terminators
import LooseSql.Proofs.Selection.Variants

/-!
# The row limit of a variant

A selection without modifiers is limited to its first rows by writing `TOP n` in front of its list.
A row limit goes on behind its number with the words PERCENT and WITH TIES, and a list may start
with them: in `SELECT Percent, Name` the first column is a name. The limit is then read as
`TOP n Percent`, and the list that is left is shorter than the one that was written
(`length_list_lt`). With any other list the limit is read as it was written (`toTop?_limit_iff`).
-/

namespace LooseSql

/-! ## Statements without modifiers -/

namespace Modifiers

/-- A modifier that is read is recorded. -/
theorem addTo_ne_none (modifier : Modifier) (modifiers : Modifiers) :
    modifier.addTo modifiers ≠ none := by
  cases modifier with
  | word raw =>
    rw [Modifier.addTo]
    split <;> simp [none]
  | top raw => simp [Modifier.addTo, none]

/-- No modifier is forgotten. -/
theorem Reads.ne_none {modifiers modifiers' : Modifiers} {t t' : Text}
    (h : Reads modifiers t modifiers' t') (hne : modifiers ≠ none) : modifiers' ≠ none := by
  induction h with
  | stop => exact hne
  | step _ _ ih => exact ih (addTo_ne_none _ _)

/-- If no modifier is recorded, none was read. -/
theorem Reads.eq_of_none {t t' : Text} (h : Reads none t none t') : t' = t := by
  cases h with
  | stop => rfl
  | step _ hrest => exact absurd rfl (hrest.ne_none (addTo_ne_none _ _))

/-- What is left behind all modifiers is left behind the first one. -/
theorem Reads.length_le {modifiers modifiers' : Modifiers} {t t' rest : Text} {modifier : Modifier}
    (h : Reads modifiers t modifiers' t') (hread : Modifier.read? t = some (modifier, rest)) :
    t'.length ≤ rest.length := by
  cases h with
  | stop hnone => exact absurd (hnone.symm.trans hread) (by simp)
  | step hstep hothers =>
    rw [hread, Option.some.injEq, Prod.mk.injEq] at hstep
    obtain ⟨-, rfl⟩ := hstep
    exact hothers.suffix.length_le

end Modifiers

namespace Selection

theorem toStatement_of_ofStatement? {s : Statement} {selection : Selection}
    (h : ofStatement? s = some selection) : selection.toStatement = s := by
  rw [ofStatement?] at h
  split at h
  · obtain rfl := Option.some.inj h
    rfl
  · cases h

/-- Without modifiers, the list of a selection starts at the top level. -/
theorem isClosed_take_of_none {s : Selection} (h : s.layout.modifiers = .none) :
    Text.IsClosed (s.text.take s.layout.list.start) := by
  obtain ⟨head, body, rest, hstarts, hsound, -, -, hlayout⟩ := s.exists_head
  have hmodifiers : head.modifiers = .none := by rw [← h, ← hlayout, Head.layout_modifiers]
  have hreads := hstarts.reads
  rw [hmodifiers] at hreads
  obtain rfl := hreads.eq_of_none
  obtain ⟨word, hword, -, -, hletters⟩ := Keyword.exists_of_after? (by decide) hstarts.select
  have hstart : head.start = word.length := by
    rw [hstarts.start_eq, hword, List.length_append, Nat.add_sub_cancel]
  -- In front of the list stand the word SELECT and blanks.
  have hfront : s.text.take s.layout.list.start = word ++
      Span.slice ⟨head.start, s.layout.list.start⟩ s.body := by
    have hle : head.start ≤ s.layout.list.start := by
      rw [← hlayout, Head.layout_list]
      exact Span.start_le_start_trim ⟨head.start, head.listStop s.body⟩ s.body
    have hstop : s.layout.list.start ≤ s.body.length := by
      have hstop := s.ordered.list_le.trans (s.ordered.le_stop _ (by simp [Layout.places]))
      exact hstop.trans (Nat.le_of_eq s.length_body.symm)
    rw [← s.body_append_remainder, List.take_append_of_le_length hstop,
      ← Span.take_append_slice (s := ⟨head.start, s.layout.list.start⟩) hle]
    simp only [hstart]
    conv_lhs => rw [hword]
    rw [List.take_left, ← hword]
  have hblank : ∀ c ∈ Span.slice ⟨head.start, s.layout.list.start⟩ s.body, isBlank c = true := by
    rw [← hlayout, Head.layout_list]
    exact (Span.isBlank_around_trim ⟨head.start, head.listStop s.body⟩ s.body).1
  rw [hfront]
  refine scan_of_not_mark (fun c hc => ?_) .top
  rcases List.mem_append.1 hc with hc | hc
  · rcases hletters c hc with halpha | hc
    · exact isScanMark_of_isAlpha halpha
    · exact isScanMark_of_isBlank hc
  · exact isScanMark_of_isBlank (hblank c hc)

end Selection

/-! ## Lists that go on with a row limit -/

/-- The word FROM stands behind a space. -/
theorem standsAt_of_isSome {x r : Text} (hx : x.IsClosed)
    (hr : (Keyword.after? .source (some ' ') r).isSome) :
    Keyword.StandsAt .source (x ++ ' ' :: r) (x.length + 1) := by
  obtain ⟨rest, hrest⟩ := Option.isSome_iff_exists.1 hr
  obtain ⟨m, rfl, -⟩ := Keyword.exists_of_after? (by decide) hrest
  refine ⟨x ++ [' '], m, rest, by simp, by simp,
    (Keyword.standsBetween_iff (Keyword.IsPlain.isLetters (by decide))).2 ⟨?_, ?_⟩⟩
  · rw [Text.IsClosed, scan_append, hx.scan_eq]
    rfl
  · rwa [List.getLast?_concat]

section Limit

variable {digits y r : Text} (hne : digits ≠ []) (hdigits : ∀ c ∈ digits, c.isDigit = true)

include hne hdigits

/-- The words of a row limit at the head of a list are read as a part of the limit. -/
theorem Modifier.exists_read?_limit (htrim : y.trimStart = y)
    (hy : ¬ (afterFoldedWord? "percent".toList y = none ∧ afterTies? y = none)) :
    ∃ modifier z, read? (" TOP ".toList ++ (digits ++ ' ' :: y)) = some (modifier, z) ∧
      z.length + 4 ≤ y.length := by
  have hblanks : Text.afterBlanks? (' ' :: y) = some y := by
    rw [Text.afterBlanks?, if_pos (by decide), htrim]
  refine ⟨_, _, read?_limit hne hdigits y, ?_⟩
  -- PERCENT takes seven characters; without it WITH TIES takes at least the four of WITH.
  cases hpercent : afterFoldedWord? "percent".toList y with
  | some z =>
    have hword : afterOptionalWord "percent".toList (' ' :: y) = z := by
      rw [afterOptionalWord, hblanks, Option.bind_some, hpercent, Option.getD_some]
    obtain ⟨m, hm, hlen, -⟩ := afterFoldedWord?_suffix (by decide) hpercent
    obtain ⟨ties, hties, -⟩ := afterWithTies_suffix z
    have h₁ := congrArg List.length hm
    have h₂ := congrArg List.length hties
    have h₃ : m.length = 7 := hlen
    rw [hword]
    simp only [List.length_append] at h₁ h₂
    omega
  | none =>
    have hword : afterOptionalWord "percent".toList (' ' :: y) = ' ' :: y := by
      rw [afterOptionalWord, hblanks, Option.bind_some, hpercent, Option.getD_none]
    obtain ⟨z, hz⟩ := Option.ne_none_iff_exists'.1 fun hties => hy ⟨hpercent, hties⟩
    have hwith : afterWithTies (' ' :: y) = z := by
      rw [afterWithTies_eq, hblanks, Option.bind_some, hz, Option.getD_some]
    obtain ⟨rest, hrest, hbind⟩ := Option.bind_eq_some_iff.1 hz
    obtain ⟨m, hm, hfold⟩ := exists_of_afterFolded? hrest
    obtain ⟨ties, hties, -⟩ := afterBlanks?_bind_word_suffix (by decide) hbind
    have h₁ := congrArg List.length hm
    have h₂ := congrArg List.length hties
    have h₃ : m.length = 4 := by rw [← List.length_map, hfold]; rfl
    rw [hword, hwith]
    simp only [List.length_append] at h₁ h₂
    omega

/-- Where a list starts with the words of a row limit, the head goes on into the list, but not
beyond it. -/
theorem exists_start_eq (hy : IsPiece y) (hr : (Keyword.after? .source (some ' ') r).isSome)
    (hlimit : ¬ (afterFoldedWord? "percent".toList y = none ∧ Modifier.afterTies? y = none))
    {head : Head} (h : Head.locate? ("SELECT TOP ".toList ++ digits ++ ' ' :: (y ++ ' ' :: r)) =
      some head) : ∃ n, head.start + n = ("SELECT TOP ".toList ++ digits ++ ' ' :: y).length ∧
        n + 4 ≤ y.length ∧ ("SELECT TOP ".toList ++ digits ++ ' ' :: y).length + 1 < head.stop := by
  generalize hx : " TOP ".toList ++ (digits ++ ' ' :: y) = x
  have hfront : "SELECT TOP ".toList ++ digits ++ ' ' :: y = "SELECT".toList ++ x := by
    rw [← hx]
    rfl
  have htext : ∀ t,
      "SELECT TOP ".toList ++ digits ++ ' ' :: (y ++ t) = "SELECT".toList ++ x ++ t := by
    intro t
    rw [← hfront]
    simp
  have hbody : IsBody ("SELECT".toList ++ x) := hfront ▸ (isBody_top hne hdigits).append hy
  obtain ⟨r', w, rfl, hstatement, hsource⟩ := hbody.exists_statement hr
  have hpos : 0 < r'.length := by
    refine List.length_pos_iff.2 ?_
    rintro rfl
    exact absurd hsource (by decide)
  rw [htext, ← List.cons_append, ← List.append_assoc, Head.locate?_eq_some_iff hstatement] at h
  obtain ⟨body, rest, hselect, hreads, hstart, hstop⟩ := h
  -- The modifiers are read in front of the word FROM.
  have hword : startsWithWordChar (x ++ ' ' :: r') = false := by
    rw [← hx]
    rfl
  rw [List.append_assoc, after?_select_append hword, Option.some.injEq] at hselect
  subst hselect
  obtain ⟨rest', hrest'⟩ := Option.isSome_iff_exists.1 hsource
  obtain ⟨hseam, hopen⟩ :=
    Head.modifiersSeam_of_source (x := x) [' '] (by decide) (by simpa using hrest')
  have hscan : scan .top x = .top := by
    have hclosed := hbody.closed
    rwa [Text.IsClosed, scan_append, show scan .top "SELECT".toList = .top by decide] at hclosed
  obtain ⟨z, rfl, hlist⟩ := hreads.exists_of_append hseam hopen (Or.inl rfl) hscan
  -- The first of them takes at least four characters of the list.
  obtain ⟨modifier, z', hread, hlt⟩ :=
    Modifier.exists_read?_limit hne hdigits hy.trimStart_eq hlimit
  have hle : z.length ≤ z'.length := hlist.length_le (hx ▸ hread)
  have hzx : z.length ≤ x.length := hlist.suffix.length_le
  refine ⟨z.length, ?_, by omega, ?_⟩
  · rw [hfront, hstart]
    simp only [List.length_append, List.length_cons]
    omega
  · rw [hfront, hstop]
    simp only [List.length_append, List.length_cons]
    omega

/-- Behind a list that starts with the words of a row limit there is less left than the list. -/
theorem length_list_lt (hy : IsPiece y) (hr : (Keyword.after? .source (some ' ') r).isSome)
    (hlimit : ¬ (afterFoldedWord? "percent".toList y = none ∧ Modifier.afterTies? y = none))
    {layout : Layout} (h : Layout.locate?
      ("SELECT TOP ".toList ++ digits ++ ' ' :: (y ++ ' ' :: r)) = some layout) :
    layout.list.stop - layout.list.start < y.length := by
  obtain ⟨head, hhead, rfl⟩ := Option.map_eq_some_iff.1 h
  obtain ⟨n, hstart, hn, hstop⟩ := exists_start_eq hne hdigits hy hr hlimit hhead
  have hsound := Head.isSound_of_locate? hhead
  generalize hx : "SELECT TOP ".toList ++ digits ++ ' ' :: y = x at hstart hstop
  have htext : "SELECT TOP ".toList ++ digits ++ ' ' :: (y ++ ' ' :: r) = x ++ ' ' :: r := by
    rw [← hx]
    simp
  rw [htext] at hsound ⊢
  -- The word FROM that was written still stands behind the head, so the list ends there.
  have hclosed : Text.IsClosed x := hx ▸ ((isBody_top hne hdigits).append hy).closed
  have hsource := standsAt_of_isSome hclosed hr
  have hlist : head.listStop (x ++ ' ' :: r) ≤ x.length + 1 := by
    rw [Head.listStop]
    cases hword : head.source? (x ++ ' ' :: r) with
    | none =>
      have hfree := isFree_of_keywordBetween?_eq_none (by decide) hword
      exact absurd hsource (hfree .source (by simp) _ (by simp only; omega) hstop)
    | some word =>
      have hfirst := (isFirst_of_keywordBetween? (by decide) hword).1
      refine Nat.le_of_not_lt fun hlt => ?_
      exact absurd hsource (hfirst.isFree .source (by simp) _ (by simp only; omega) hlt)
  have htrim := Span.start_le_start_trim ⟨head.start, head.listStop (x ++ ' ' :: r)⟩ (x ++ ' ' :: r)
  have htrim' := Span.stop_trim_le_stop ⟨head.start, head.listStop (x ++ ' ' :: r)⟩ (x ++ ' ' :: r)
    hsound.start_le_listStop
  rw [Head.layout_list]
  simp only at htrim htrim' ⊢
  omega

end Limit

/-! ## Main statement -/

/-- A statement without modifiers is limited to its first rows by a limit that is read as it is
written, in front of the old list, exactly if the list does not start with PERCENT or WITH TIES. -/
theorem toTop?_limit_iff {sql out : Text} {n : Int} {s : Statement}
    (hs : Statement.ofScript? sql = some s) (hmodifiers : s.layout.modifiers = .none)
    (h : toTop? n sql = some out) :
    (∃ layout, Layout.locate? out = some layout ∧
        layout.modifiers = ⟨false, false, some ("TOP ".toList ++ (toString n).toList)⟩ ∧
        selectClause? sql = some (layout.list.slice out)) ↔
      afterFoldedWord? "percent".toList s.list = none ∧ Modifier.afterTies? s.list = none := by
  obtain ⟨hpos, hselection⟩ : 0 < n ∧ (Selection.ofScript? sql).map (·.toTop n) = some out := by
    rw [toTop?] at h
    split at h
    · cases h
    · exact ⟨by omega, h⟩
  obtain ⟨selection, hofScript, rfl⟩ := Option.map_eq_some_iff.1 hselection
  obtain rfl : selection.toStatement = s := by
    obtain ⟨s', hs', hofStatement⟩ := Option.bind_eq_some_iff.1 hofScript
    obtain rfl := Option.some.inj (hs.symm.trans hs')
    exact Selection.toStatement_of_ofStatement? hofStatement
  obtain ⟨front, gap, hparts⟩ :=
    Selection.exists_parts (Selection.isClosed_take_of_none hmodifiers)
  have hr := hparts.source_isSome_space
  obtain ⟨hne, hdigits⟩ := Selection.isDigit_of_mem_toString hpos
  have hclause : selectClause? sql = some selection.list := by
    rw [selectClause?, hs, Option.bind_some, Statement.clause?, Option.map_some, ← Statement.list,
      Option.filter_some, if_pos (by simp [hparts.isList.ne_nil])]
  rw [selection.toTop_eq, hclause]
  constructor
  · rintro ⟨layout, hlayout, -, hlist⟩
    by_contra hlimit
    have hlt := length_list_lt hne hdigits hparts.isList.toIsPiece hr hlimit hlayout
    -- The list that is left is shorter than the old one.
    rw [Option.some.injEq] at hlist
    rw [hlist, Span.slice, List.length_take] at hlt
    omega
  · rintro ⟨hpercent, hties⟩
    obtain ⟨layout, hlayout, hlist, -, hmods⟩ :=
      (leads_top hparts.isList hpercent hties hne hdigits).exists_layout hparts.isList hr
    refine ⟨layout, hlayout, hmods, ?_⟩
    rw [hlist, Span.slice_of_eq_append (a := "SELECT TOP ".toList ++ (toString n).toList ++ [' '])
      (m := selection.list) (b := ' ' :: selection.fromSource) (by simp) (by simp) rfl]

/-- A column whose name starts like PERCENT and goes on is no part of the limit. -/
theorem toTop?_limit_iff_percentage :
    ∃ out layout, toTop? 5 "SELECT Percentage, Name FROM t".toList = some out ∧
      Layout.locate? out = some layout ∧
      layout.modifiers = ⟨false, false, some "TOP 5".toList⟩ ∧
      layout.list.slice out = "Percentage, Name".toList := by
  have hnormal : normalize "SELECT Percentage, Name FROM t".toList =
      "SELECT Percentage, Name FROM t".toList :=
    normalize_eq_self_of_plain (by decide) (by decide) (by decide) rfl rfl rfl
  have hs : Statement.ofScript? "SELECT Percentage, Name FROM t".toList =
      some ⟨"SELECT Percentage, Name FROM t".toList,
        ⟨⟨7, 23⟩, some 24, none, none, none, none, none, 30, .none⟩, by decide⟩ :=
    Statement.ofScript?_eq hnormal _
  have h : toTop? 5 "SELECT Percentage, Name FROM t".toList =
      some "SELECT TOP 5 Percentage, Name FROM t".toList := by
    rw [toTop?, Selection.ofScript?, hs]
    decide
  obtain ⟨layout, hlayout, hmodifiers, hlist⟩ :=
    (toTop?_limit_iff hs rfl h).2 ⟨by decide, by decide⟩
  refine ⟨_, layout, h, hlayout, hmodifiers, ?_⟩
  have hclause : selectClause? "SELECT Percentage, Name FROM t".toList =
      some "Percentage, Name".toList := by
    rw [selectClause?, hs]
    decide
  exact Option.some.inj (hlist.symm.trans hclause)

/-- The column Percent is taken for a part of the limit, and the list that is left starts with a
comma. -/
theorem toTop?_limit_ne : ∃ s out layout,
    Statement.ofScript? "SELECT Percent, Name FROM t".toList = some s ∧
      s.layout.modifiers = .none ∧
      toTop? 5 "SELECT Percent, Name FROM t".toList = some out ∧
      Layout.locate? out = some layout ∧
      layout.modifiers = ⟨false, false, some "TOP 5 Percent".toList⟩ ∧
      selectClause? "SELECT Percent, Name FROM t".toList = some "Percent, Name".toList ∧
      layout.list.slice out = ", Name".toList := by
  have hnormal : normalize "SELECT Percent, Name FROM t".toList =
      "SELECT Percent, Name FROM t".toList :=
    normalize_eq_self_of_plain (by decide) (by decide) (by decide) rfl rfl rfl
  have hs : Statement.ofScript? "SELECT Percent, Name FROM t".toList =
      some ⟨"SELECT Percent, Name FROM t".toList,
        ⟨⟨7, 20⟩, some 21, none, none, none, none, none, 27, .none⟩, by decide⟩ :=
    Statement.ofScript?_eq hnormal _
  have h : toTop? 5 "SELECT Percent, Name FROM t".toList =
      some "SELECT TOP 5 Percent, Name FROM t".toList := by
    rw [toTop?, Selection.ofScript?, hs]
    decide
  have hlayout : Layout.locate? "SELECT TOP 5 Percent, Name FROM t".toList =
      some ⟨⟨20, 26⟩, some 27, none, none, none, none, none, 33,
        ⟨false, false, some "TOP 5 Percent".toList⟩⟩ := by
    decide
  have hclause : selectClause? "SELECT Percent, Name FROM t".toList =
      some "Percent, Name".toList := by
    rw [selectClause?, hs]
    decide
  exact ⟨_, _, _, hs, rfl, h, hlayout, rfl, hclause, by decide⟩

end LooseSql
