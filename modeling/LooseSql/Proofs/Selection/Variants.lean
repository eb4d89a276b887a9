import LooseSql.Proofs.Normalize
import LooseSql.Proofs.Selection.Parts

/-!
# Variants of variants

A variant of a selection is a new head in front of its list and its text from FROM on, or in front
of the whole statement. It is in normal form if the selection is, and it comes down to a selection
with the list that it was written with. Of several variants, one after another, only the last one
shows (`exists_variants?`).

* `IsNewHead`: the words that a variant starts with, and `IsNewHead.normalize_eq` for a variant as a
  whole;
* `exists_ofScript?_of_leads`: the selection that a variant comes down to.
-/

namespace LooseSql

/-! ## Starts of lines -/

/-- A text that starts with a line is the whole text, or the line starts inside it. -/
theorem eq_or_mem_lineStarts_false {lineStart : Bool} {t y : Text}
    (h : y ∈ lineStarts lineStart t) : y = t ∨ y ∈ lineStarts false t := by
  cases t with
  | nil => exact Or.inr h
  | cons c t =>
    rw [lineStarts, List.mem_append] at h
    refine h.imp (fun hy => ?_) fun hy => ?_
    · cases lineStart with
      | false => simp at hy
      | true => simpa using hy
    · rw [lineStarts]
      exact List.mem_append_right _ hy

/-- A text that does not end in a blank does not end a line. -/
theorem endsLine_of_trimEnd {u : Text} (hne : u ≠ []) (hu : u.trimEnd = u) (lineStart : Bool) :
    endsLine lineStart u = false := by
  have hlast := List.getLast?_eq_some_getLast hne
  have hblank : isBlank (u.getLast hne) = false := Text.trimEnd_eq_self_iff.1 hu _ hlast
  rw [endsLine, hlast, Option.elim_some, beq_eq_false_iff_ne]
  intro h
  rw [h] at hblank
  exact absurd hblank (by decide)

namespace HasNoCommands

variable {lineStart : Bool} {t u v v' : Text}

theorem of_canonical (h : IsCanonical t) : HasNoCommands true t :=
  fun y hy => ⟨h.use_eq y hy, h.separator_eq y hy⟩

theorem of_true (h : HasNoCommands lineStart t) : HasNoCommands false t :=
  fun y hy => h y (mem_lineStarts_of_false hy)

theorem right (h : HasNoCommands lineStart (u ++ v)) : HasNoCommands false v := by
  intro y hy
  refine h y ?_
  rw [lineStarts_append]
  exact List.mem_append_right _ (mem_lineStarts_of_false hy)

/-- No line starts inside a line. -/
theorem append_of_not_mem (hu : '\n' ∉ u) (hne : u ≠ []) (h : HasNoCommands false v) :
    HasNoCommands false (u ++ v) := by
  have hends : endsLine false u = false := by
    rw [endsLine, List.getLast?_eq_some_getLast hne, Option.elim_some, beq_eq_false_iff_ne]
    intro hlast
    exact hu (hlast ▸ List.getLast_mem hne)
  intro y hy
  rw [lineStarts_append, lineStarts_of_not_mem hu, hends] at hy
  exact h y hy

/-- The text behind a stretch that stays is exchanged for one that goes on with no command. -/
theorem exchange (h : HasNoCommands lineStart (u ++ v)) (hne : u ≠ []) (hu : u.trimEnd = u)
    (hv : ∀ c ∈ v.head?, foldCase c ∉ "use".toList)
    (hbracket : ']' ∈ v' → ']' ∈ v) (hquote : '"' ∈ v' → '"' ∈ v)
    (hname : (∀ c ∈ u.getLast?, isWordChar c = true) →
      (Text.afterBlanks? v).bind afterDatabaseName? = none →
        (Text.afterBlanks? v').bind afterDatabaseName? = none)
    {b r : Text} {c : Char} (hv' : v' = b ++ c :: r) (hb : ∀ d ∈ b, isBlank d ∧ d ≠ '\n')
    (hc : ¬ InSeparator c) (huse : foldCase c ∉ "use".toList) (hline : c ≠ '\n')
    (hright : HasNoCommands false v') : HasNoCommands lineStart (u ++ v') := by
  have huse' : ∀ d ∈ v'.head?, foldCase d ∉ "use".toList := by
    intro d hd
    rcases b with _ | ⟨e, b⟩
    · obtain rfl : c = d := by simpa [hv'] using hd
      exact huse
    · obtain rfl : e = d := by simpa [hv'] using hd
      exact foldCase_not_mem_of_isBlank (hb e (by simp)).1 (by decide)
  intro y hy
  rw [lineStarts_append, endsLine_of_trimEnd hne hu, List.mem_append, List.mem_map] at hy
  -- A line starts in the stretch that stays, or in the text behind it.
  rcases hy with ⟨x, hx, rfl⟩ | hy
  · obtain ⟨⟨w, rfl⟩, hxne⟩ := exists_of_mem_lineStarts hx
    have hlast : (w ++ x).getLast? = x.getLast? := List.getLast?_append_of_ne_nil _ hxne
    have hsolid : x.trimEnd = x := (Text.trimEnd_append_eq_self_iff w hxne).1 hu
    obtain ⟨hold, hold'⟩ := h (x ++ v) (by
      rw [lineStarts_append]
      exact List.mem_append_left _ (List.mem_map_of_mem hx))
    exact ⟨afterUse?_eq_none_of hxne hsolid hv huse' hbracket hquote (hlast ▸ hname) hold,
      afterBatchSeparator?_eq_none_of hv' (fun hmem => (hb _ hmem).2 rfl) hc hline hold'⟩
  · exact hright y hy

end HasNoCommands

/-! ## New heads -/

/-- The words that a variant starts with: they stand on one line, they hold no comment, and they
leave no quote open. -/
structure IsNewHead (pre : Text) : Prop where
  /-- SELECT stands first. -/
  select : ∃ t, pre = "SELECT".toList ++ t
  /-- The words stand on one line. -/
  line_eq : '\n' ∉ pre
  /-- No quote is left open. -/
  quote_eq : (scan .top pre).quote = none
  /-- There is no comment. -/
  uncommented : IsUncommented pre
  /-- No mark goes on behind the words. -/
  not_joins : ∀ c ∈ pre.getLast?, ∀ d, ¬ Joins c d

theorem afterUse?_select (t : Text) : afterUse? ("SELECT".toList ++ t) = none := rfl

theorem afterBatchSeparator?_select (t : Text) :
    afterBatchSeparator? ("SELECT".toList ++ t) = none := rfl

theorem afterCtePrologue?_select (t : Text) :
    afterCtePrologue? ("SELECT".toList ++ t) = none := rfl

/-- A text with a new head is in normal form if the rest of it has nothing to take out. -/
theorem IsNewHead.normalize_eq {pre w : Text} (h : IsNewHead pre) (hw : IsUncommented w)
    (hcommands : HasNoCommands false w) (hne : w ≠ []) (htrim : w.trimEnd = w) :
    normalize (pre ++ w) = pre ++ w := by
  obtain ⟨t, ht⟩ := h.select
  have hsplit : pre ++ w = "SELECT".toList ++ (t ++ w) := by rw [ht, List.append_assoc]
  have hprene : pre ≠ [] := by simp [ht]
  -- The first line starts with SELECT, and the head holds no other line.
  have hlines : HasNoCommands true (pre ++ w) := by
    intro y hy
    rcases eq_or_mem_lineStarts_false hy with rfl | hy
    · rw [hsplit]
      exact ⟨afterUse?_select _, afterBatchSeparator?_select _⟩
    · exact hcommands.append_of_not_mem h.line_eq hprene y hy
  refine IsCanonical.normalize_eq
    ⟨?_, fun y hy => (hlines y hy).1, fun y hy => (hlines y hy).2, ?_⟩ ?_
  · exact (isUncommented_append_iff rfl h.quote_eq fun c hc d _ => h.not_joins c hc d).2
      ⟨h.uncommented, hw⟩
  · refine Text.trim_eq_self_iff.2 ⟨?_, (Text.trimEnd_append_eq_self_iff pre hne).2 htrim⟩
    rw [hsplit]
    rfl
  · rw [hsplit]
    exact afterCtePrologue?_select _

/-- Words behind SELECT make a new head, with a space behind them. -/
theorem isNewHead_of_words {t : Text} (ht : ∀ c ∈ t, isWordChar c = true ∨ c = ' ') :
    IsNewHead ("SELECT".toList ++ t ++ [' ']) := by
  -- The head is made of word characters and blanks, which mark nothing.
  have hchars : ∀ c ∈ "SELECT".toList ++ t ++ [' '], isWordChar c = true ∨ c = ' ' := by
    intro c hc
    rcases List.mem_append.1 hc with hc | hc
    · rcases List.mem_append.1 hc with hc | hc
      · exact Or.inl ((by decide : ∀ c ∈ "SELECT".toList, isWordChar c = true) c hc)
      · exact ht c hc
    · exact Or.inr (by simpa using hc)
  refine ⟨⟨t ++ [' '], List.append_assoc _ _ _⟩, ?_, ?_, isUncommented_of_not_mem ?_, ?_⟩
  · intro hmem
    exact absurd (hchars _ hmem) (by decide)
  · rw [scan_of_not_mark]
    · rfl
    · intro c hc
      rcases hchars c hc with hword | rfl
      · exact isScanMark_of_isWordChar hword
      · decide
  · intro c hc
    rcases hchars c hc with hword | rfl
    · exact not_mem_pieceMarks_of_isWordChar hword
    · decide
  · intro c hc d
    rw [List.getLast?_concat] at hc
    obtain rfl : ' ' = c := by simpa using hc
    exact not_joins_of_not_mem (Or.inl (by decide))

/-! ## The selection of a variant -/

/-- A text in normal form that is written with a new head comes down to the selection that it was
written as. -/
theorem exists_ofScript?_of_leads {pre y r : Text} {m : Modifiers} (hleads : Leads pre m y)
    (hy : IsList y) (hr : (Keyword.after? .source (some ' ') r).isSome)
    (hnormal : normalize (pre ++ ' ' :: (y ++ ' ' :: r)) = pre ++ ' ' :: (y ++ ' ' :: r)) :
    ∃ s, Selection.ofScript? (pre ++ ' ' :: (y ++ ' ' :: r)) = some s ∧ s.list = y ∧
      s.fromSource = r ∧ s.layout.modifiers = m := by
  obtain ⟨layout, hlayout, hlist, hsource, hmodifiers⟩ := hleads.exists_layout hy hr
  have hnonempty : layout.list.isEmpty = false := by
    have hpos := List.length_pos_iff.2 hy.ne_nil
    simp only [hlist, Span.isEmpty, decide_eq_false_iff_not]
    omega
  obtain ⟨s, hs, htext, hslayout, hstart⟩ :=
    Selection.exists_of_locate? hnormal hlayout hsource hnonempty
  refine ⟨s, hs, ?_, ?_, by rw [hslayout, hmodifiers]⟩
  · rw [Statement.list, htext, hslayout, hlist]
    exact Span.slice_of_eq_append (a := pre ++ [' ']) (b := ' ' :: r) (by simp) (by simp) rfl
  · -- The source starts behind the blank that follows the list.
    have hlen : pre.length + 1 + y.length + 1 = (pre ++ ' ' :: (y ++ [' '])).length := by
      simp only [List.length_append, List.length_cons, List.length_nil]
      omega
    have hsplit : pre ++ ' ' :: (y ++ ' ' :: r) = pre ++ ' ' :: (y ++ [' ']) ++ r := by simp
    rw [Selection.fromSource, htext, hstart, hlen, hsplit, List.drop_left]

namespace Selection

variable {s : Selection} {front gap : Text}

namespace Parts

variable (h : s.Parts front gap)

include h

/-- The word FROM stands alone behind a space as well. -/
theorem source_isSome_space : (Keyword.after? .source (some ' ') s.fromSource).isSome := by
  obtain ⟨rest, hrest⟩ := Option.isSome_iff_exists.1 h.source_isSome
  have hbefore : (some ' ').any isWordChar = (s.list ++ gap).getLast?.any isWordChar := by
    rw [(Keyword.after?_eq_some_iff.1 hrest).1]
    decide
  rw [Keyword.after?_congr hbefore]
  exact h.source_isSome

/-- The text from FROM on starts with a letter that is none of a command, and it does not end in a
blank if the text does not. -/
theorem exists_cons_fromSource : ∃ (c : Char) (z : Text), s.fromSource = c :: z ∧ c.isAlpha = true ∧
    ¬ InSeparator c ∧ foldCase c ∉ "use".toList := by
  obtain ⟨rest, hrest⟩ := Option.isSome_iff_exists.1 h.source_isSome
  obtain ⟨c, z, hcons, halpha, hlower⟩ := Head.exists_cons_of_source hrest
  have hfold : foldCase c = 'f' := (foldCase_of_isAlpha halpha).trans hlower
  refine ⟨c, z, hcons, halpha, ?_, by rw [hfold]; decide⟩
  rintro (hspace | hgo | hdigit | rfl)
  · simp only [isSpaceOrTab, Bool.or_eq_true, beq_iff_eq] at hspace
    rcases hspace with rfl | rfl <;> exact absurd halpha (by decide)
  · rw [hfold] at hgo
    exact absurd hgo (by decide)
  · simp [isDecimalDigit_of_isAlpha halpha] at hdigit
  · exact absurd halpha (by decide)

theorem trimEnd_fromSource (htrim : s.text.trimEnd = s.text) :
    s.fromSource.trimEnd = s.fromSource := by
  obtain ⟨c, z, hcons, -⟩ := h.exists_cons_fromSource
  rw [h.text_eq, ← List.append_assoc, ← List.append_assoc] at htrim
  exact (Text.trimEnd_append_eq_self_iff _ (by simp [hcons])).1 htrim

/-- The parts of a text without comments have no comments. -/
theorem isUncommented (huncommented : IsUncommented s.text) :
    IsUncommented s.list ∧ IsUncommented s.fromSource := by
  obtain ⟨c, z, hcons, halpha, -⟩ := h.exists_cons_fromSource
  have hfront : (scan .top front).quote = none := h.closed.quote_eq
  have hlist : (scan .top s.list).quote = none := h.isList.closed.quote_eq
  have hgap : (scan .top gap).quote = none := by
    rw [scan_of_blank h.isBlank_gap]
    rfl
  -- Behind the list stands a blank or the word FROM.
  have hseam : ∀ c ∈ s.list.getLast?, ∀ d ∈ (gap ++ s.fromSource).head?, ¬ Joins c d := by
    intro e _ d hd
    refine not_joins_of_not_mem (Or.inr ?_)
    rcases gap with _ | ⟨b, gap⟩
    · obtain rfl : c = d := by simpa [hcons] using hd
      exact not_mem_pieceMarks_of_isWordChar (isWordChar_of_isAlpha halpha)
    · obtain rfl : b = d := by simpa using hd
      exact not_mem_pieceMarks_of_isBlank (h.isBlank_gap b (by simp))
  have hblank : ∀ c ∈ gap.getLast?, ∀ d ∈ s.fromSource.head?, ¬ Joins c d := fun c hc _ _ =>
    not_joins_of_not_mem (Or.inl (not_mem_pieceMarks_of_isBlank
      (h.isBlank_gap c (List.mem_of_getLast? hc))))
  rw [h.text_eq, isUncommented_append_iff rfl hfront fun c hc d _ => h.not_joins c hc d,
    isUncommented_append_iff rfl hlist hseam, isUncommented_append_iff rfl hgap hblank]
    at huncommented
  exact ⟨huncommented.2.1, huncommented.2.2.2⟩

theorem hasNoCommands_fromSource (hcommands : HasNoCommands true s.text) :
    HasNoCommands false s.fromSource := by
  rw [h.text_eq] at hcommands
  exact hcommands.right.right.right

/-- There is no command in the list and the text from FROM on, with a space between them. -/
theorem hasNoCommands (hcommands : HasNoCommands true s.text) :
    HasNoCommands false (s.list ++ ' ' :: s.fromSource) := by
  obtain ⟨c, z, hcons, halpha, hseparator, huse⟩ := h.exists_cons_fromSource
  have hright : HasNoCommands false (' ' :: s.fromSource) :=
    (h.hasNoCommands_fromSource hcommands).append_of_not_mem (u := [' ']) (by decide) (by decide)
  have hline : c ≠ '\n' := by
    rintro rfl
    exact absurd halpha (by decide)
  rw [h.text_eq] at hcommands
  refine hcommands.right.exchange h.isList.ne_nil h.isList.trimEnd_eq ?_ (by simp +contextual)
    (by simp +contextual) ?_ (b := [' ']) (c := c) (r := z) (by rw [hcons]; rfl) (by decide)
    hseparator huse hline hright
  · intro d hd
    rcases gap with _ | ⟨e, gap⟩
    · obtain rfl : c = d := by simpa [hcons] using hd
      exact huse
    · obtain rfl : e = d := by simpa using hd
      exact foldCase_not_mem_of_isBlank (h.isBlank_gap e (by simp)) (by decide)
  · -- Behind a word there is a blank in front of FROM, in the old text as in the new one.
    intro hword
    obtain ⟨d, hd⟩ : ∃ d, s.list.getLast? = some d :=
      ⟨_, List.getLast?_eq_some_getLast h.isList.ne_nil⟩
    have hgap : gap ≠ [] := by
      rintro rfl
      obtain ⟨rest, hrest⟩ := Option.isSome_iff_exists.1 h.source_isSome
      have hbefore := (Keyword.after?_eq_some_iff.1 hrest).1
      simp [hd, hword d hd] at hbefore
    obtain ⟨e, gap, rfl⟩ := List.exists_cons_of_ne_nil hgap
    have hspace : isBlank ' ' = true := by decide
    have htrim : Text.trimStart (' ' :: s.fromSource) = Text.trimStart s.fromSource := rfl
    rw [Text.afterBlanks?_eq, Text.afterBlanks?_eq, Text.trimStart_append_of_blank h.isBlank_gap,
      htrim, if_pos (by simp [h.isBlank_gap e (by simp)]), if_pos (by simp [hspace])]
    exact id

/-- A variant with a new head is in normal form. -/
theorem normalize_newHead (hcanonical : IsCanonical s.text) {pre : Text} (hpre : IsNewHead pre) :
    normalize (pre ++ (s.list ++ ' ' :: s.fromSource)) =
      pre ++ (s.list ++ ' ' :: s.fromSource) := by
  obtain ⟨hlist, hfrom⟩ := h.isUncommented hcanonical.uncommented
  have htrim := (Text.trim_eq_self_iff.1 hcanonical.trim_eq).2
  refine hpre.normalize_eq ?_ (h.hasNoCommands (.of_canonical hcanonical)) (by simp) ?_
  · have hclosed : (scan .top s.list).quote = none := h.isList.closed.quote_eq
    refine (isUncommented_append_iff rfl hclosed ?_).2 ⟨hlist, ?_⟩
    · -- No mark is made with the space between the list and FROM.
      intro c _ d hd
      obtain rfl : ' ' = d := by simpa using hd
      exact not_joins_of_not_mem (Or.inr (by decide))
    · rw [isUncommented_plain (by decide)]
      · exact hfrom
      · rintro d - (⟨hc, -⟩ | ⟨hc, -⟩) <;> exact absurd hc (by decide)
  · obtain ⟨c, z, hcons, -⟩ := h.exists_cons_fromSource
    rw [List.append_cons, Text.trimEnd_append_eq_self_iff _ (by simp [hcons])]
    exact h.trimEnd_fromSource htrim

/-- The count of all rows is in normal form. -/
theorem normalize_count (hcanonical : IsCanonical s.text) :
    normalize ("SELECT COUNT(*) ".toList ++ s.fromSource) =
      "SELECT COUNT(*) ".toList ++ s.fromSource := by
  obtain ⟨c, z, hcons, -⟩ := h.exists_cons_fromSource
  have hpre : IsNewHead "SELECT COUNT(*) ".toList :=
    ⟨⟨_, rfl⟩, by decide, by decide, isUncommented_of_unquoted (by decide) (by decide), by
      rintro _ ⟨⟩ d
      exact not_joins_of_not_mem (Or.inl (by decide))⟩
  exact hpre.normalize_eq (h.isUncommented hcanonical.uncommented).2
    (h.hasNoCommands_fromSource (.of_canonical hcanonical)) (by simp [hcons])
    (h.trimEnd_fromSource (Text.trim_eq_self_iff.1 hcanonical.trim_eq).2)

end Parts

/-! ## The count of distinct rows -/

/-- What follows the statement of a trimmed text is nothing, or it starts with a blank or a
semicolon at the top level. -/
theorem remainder_eq_nil_or (htrim : s.text.trimEnd = s.text) : s.remainder = [] ∨
    s.body.IsClosed ∧ ∃ c r, s.remainder = c :: r ∧ (isBlank c = true ∨ c = ';') := by
  obtain ⟨ws, r, hsplit, hws, hr⟩ := s.isStatement.exists_rest
  rcases hr with rfl | ⟨r', rfl, hclosed⟩
  · rw [List.append_nil] at hsplit
    refine Or.inl ?_
    rw [← s.body_append_remainder, hsplit, Text.trimEnd_append_of_blank _ hws,
      s.isStatement.trimEnd_eq] at htrim
    rw [hsplit]
    simpa using htrim
  · refine Or.inr ⟨hclosed, ?_⟩
    rcases ws with _ | ⟨c, ws⟩
    · exact ⟨';', r', hsplit, Or.inr rfl⟩
    · exact ⟨c, _, hsplit, Or.inl (hws c (by simp))⟩

theorem body_ne_nil : s.body ≠ [] := by
  obtain ⟨head, body, rest, hstarts, -⟩ := s.exists_head
  have hbounds := hstarts.bounds
  intro hnil
  rw [hstarts.stop_eq, hnil, List.length_nil] at hbounds
  omega

section Count

variable {v : Text} (hne : v ≠ []) (htrim : s.text.trimEnd = s.text)

include hne htrim

/-- Text without marks between the statement and what follows it makes no comment. -/
theorem isUncommented_body_append (hv : ∀ c ∈ v, c ∉ pieceMarks)
    (hquote : (scan .top v).quote = none) (huncommented : IsUncommented s.text) :
    IsUncommented (s.body ++ (v ++ s.remainder)) := by
  rw [← s.body_append_remainder] at huncommented
  -- Behind the statement stands nothing, or a closed text is followed by a blank or a semicolon.
  rcases remainder_eq_nil_or htrim with hnil | ⟨hclosed, c, r, hcons, hc⟩
  · rw [hnil, List.append_nil] at huncommented ⊢
    exact huncommented.append hv
  · have hbody : (scan .top s.body).quote = none := hclosed.quote_eq
    rw [isUncommented_append_iff rfl hbody] at huncommented
    · refine (isUncommented_append_iff rfl hbody ?_).2 ⟨huncommented.1, ?_⟩
      · intro _ _ d hd
        rw [List.head?_append_of_ne_nil _ hne] at hd
        exact not_joins_of_not_mem (Or.inr (hv d (List.mem_of_mem_head? hd)))
      · refine (isUncommented_append_iff rfl hquote ?_).2
          ⟨isUncommented_of_not_mem hv, huncommented.2⟩
        exact fun e he _ _ => not_joins_of_not_mem (Or.inl (hv e (List.mem_of_getLast? he)))
    · intro _ _ d hd
      obtain rfl : c = d := by simpa [hcons] using hd
      refine not_joins_of_not_mem (Or.inr ?_)
      rcases hc with hc | rfl
      · exact not_mem_pieceMarks_of_isBlank hc
      · decide

/-- Text on one line between the statement and what follows it makes no command, if it starts with a
parenthesis. -/
theorem hasNoCommands_body_append (hline : '\n' ∉ v) (hmarks : ']' ∉ v ∧ '"' ∉ v)
    (hhead : v.head? = some ')') (hcommands : HasNoCommands true s.text) :
    HasNoCommands false (s.body ++ (v ++ s.remainder)) := by
  obtain ⟨v', rfl⟩ := List.head?_eq_some_iff.1 hhead
  rw [← s.body_append_remainder] at hcommands
  -- No command goes on with the parenthesis that now follows the body.
  refine hcommands.of_true.exchange body_ne_nil s.isStatement.trimEnd_eq ?_ ?_ ?_ ?_ (b := [])
    (c := ')') (r := v' ++ s.remainder) rfl (by simp) (by decide) (by decide) (by decide)
    (hcommands.right.append_of_not_mem hline hne)
  · intro d hd
    rcases remainder_eq_nil_or htrim with hnil | ⟨-, c, r, hcons, hc⟩
    · simp [hnil] at hd
    · obtain rfl : c = d := by simpa [hcons] using hd
      rcases hc with hc | rfl
      · exact foldCase_not_mem_of_isBlank hc (by decide)
      · decide
  · intro hmem
    exact (List.mem_append.1 hmem).resolve_left hmarks.1
  · intro hmem
    exact (List.mem_append.1 hmem).resolve_left hmarks.2
  · intro _ _
    rfl

theorem trimEnd_append_remainder (hv : v.trimEnd = v) :
    (s.body ++ (v ++ s.remainder)).trimEnd = s.body ++ (v ++ s.remainder) := by
  rw [Text.trimEnd_append_eq_self_iff _ (by simp [hne])]
  rcases remainder_eq_nil_or htrim with hnil | ⟨-, c, r, hcons, -⟩
  · rwa [hnil, List.append_nil]
  · rw [← s.body_append_remainder] at htrim
    have hremainder : s.remainder ≠ [] := by simp [hcons]
    rw [Text.trimEnd_append_eq_self_iff _ hremainder] at htrim ⊢
    exact htrim

end Count

/-- The count of distinct rows is in normal form. -/
theorem normalize_distinctCount (hcanonical : IsCanonical s.text) :
    normalize ("SELECT COUNT(*) FROM (".toList ++ (s.body ++ (") AS DistinctCount".toList ++
      s.remainder))) = "SELECT COUNT(*) FROM (".toList ++ (s.body ++
        (") AS DistinctCount".toList ++ s.remainder)) := by
  have htrim := (Text.trim_eq_self_iff.1 hcanonical.trim_eq).2
  have hpre : IsNewHead "SELECT COUNT(*) FROM (".toList :=
    ⟨⟨_, rfl⟩, by decide, by decide, isUncommented_of_unquoted (by decide) (by decide), by
      rintro _ ⟨⟩ d
      exact not_joins_of_not_mem (Or.inl (by decide))⟩
  refine hpre.normalize_eq
    (isUncommented_body_append (by decide) htrim (by decide) (by decide) hcanonical.uncommented)
    (hasNoCommands_body_append (by decide) htrim (by decide) (by decide) rfl
      (.of_canonical hcanonical)) (by simp)
    (trimEnd_append_remainder (by decide) htrim (by decide))

/-! ## Variants -/

/-- Three parts with a space between each two, as they are put together. -/
theorem append_space_append_space (pre y r : Text) :
    pre ++ [' '] ++ y ++ [' '] ++ r = pre ++ ' ' :: (y ++ ' ' :: r) := by
  simp

theorem toTop_eq (s : Selection) (n : Int) : s.toTop n =
    "SELECT TOP ".toList ++ (toString n).toList ++ ' ' :: (s.list ++ ' ' :: s.fromSource) :=
  append_space_append_space _ _ _

theorem toDistinct_eq (s : Selection) :
    s.toDistinct = "SELECT DISTINCT".toList ++ ' ' :: (s.list ++ ' ' :: s.fromSource) :=
  append_space_append_space "SELECT DISTINCT".toList _ _

theorem toCount_eq_of_distinct (h : s.layout.modifiers.distinct = true) : s.toCount =
    "SELECT".toList ++ ' ' :: ("COUNT(*)".toList ++ ' ' :: ("FROM (".toList ++ (s.body ++
      (") AS DistinctCount".toList ++ s.remainder)))) := by
  rw [toCount, if_pos h, List.append_assoc, List.append_assoc]
  exact append_space_append_space "SELECT".toList "COUNT(*)".toList _

theorem toCount_eq_of_not_distinct (h : s.layout.modifiers.distinct = false) : s.toCount =
    "SELECT".toList ++ ' ' :: ("COUNT(*)".toList ++ ' ' :: s.fromSource) := by
  rw [toCount, if_neg (by simp [h])]
  exact append_space_append_space "SELECT".toList "COUNT(*)".toList _

/-- A positive number is written in digits. -/
theorem isDigit_of_mem_toString {n : Int} (hn : 0 < n) : (toString n).toList ≠ [] ∧
    ∀ c ∈ (toString n).toList, c.isDigit = true := by
  obtain ⟨k, rfl⟩ := Int.eq_ofNat_of_zero_le hn.le
  have htext : (toString (k : Int)).toList = Nat.toDigits 10 k := Nat.toList_repr
  rw [htext]
  exact ⟨Nat.toDigits_ne_nil, fun c hc => Nat.isDigit_of_mem_toDigits (by decide) (by decide) hc⟩

variable (h : s.Parts front gap) (hcanonical : IsCanonical s.text)

include h hcanonical

/-- The first rows of a selection are a selection with the same list and the same text from FROM
on. -/
theorem exists_ofScript?_toTop (hpercent : afterFoldedWord? "percent".toList s.list = none)
    (hties : Modifier.afterTies? s.list = none) {n : Int} (hn : 0 < n) :
    ∃ s', ofScript? (s.toTop n) = some s' ∧ s'.list = s.list ∧ s'.fromSource = s.fromSource ∧
      s'.layout.modifiers.distinct = false := by
  obtain ⟨hne, hdigits⟩ := isDigit_of_mem_toString hn
  -- The new head is SELECT, TOP and digits: it is normal and reads as one row limit.
  have hwords : ∀ c ∈ " TOP ".toList ++ (toString n).toList, isWordChar c = true ∨ c = ' ' := by
    intro c hc
    rcases List.mem_append.1 hc with hc | hc
    · exact (by decide : ∀ c ∈ " TOP ".toList, isWordChar c = true ∨ c = ' ') c hc
    · exact Or.inl (isWordChar_of_isDecimalDigit (isDecimalDigit_of_isDigit (hdigits c hc)))
  have hnormal := h.normalize_newHead hcanonical (isNewHead_of_words hwords)
  have hsplit : ∀ w, "SELECT".toList ++ (" TOP ".toList ++ (toString n).toList) ++ [' '] ++ w =
      "SELECT TOP ".toList ++ (toString n).toList ++ ' ' :: w := fun w =>
    List.append_assoc _ [' '] w
  rw [hsplit] at hnormal
  obtain ⟨s', hs', hlist, hfrom, hmodifiers⟩ := exists_ofScript?_of_leads
    (leads_top h.isList hpercent hties hne hdigits) h.isList h.source_isSome_space hnormal
  rw [toTop_eq]
  exact ⟨s', hs', hlist, hfrom, by rw [hmodifiers]⟩

theorem exists_ofScript?_toDistinct : ∃ s', ofScript? s.toDistinct = some s' ∧ s'.list = s.list ∧
    s'.fromSource = s.fromSource := by
  have hnormal := h.normalize_newHead hcanonical
    (isNewHead_of_words (t := " DISTINCT".toList) (by decide))
  have hsplit : ∀ w, "SELECT".toList ++ " DISTINCT".toList ++ [' '] ++ w =
      "SELECT DISTINCT".toList ++ ' ' :: w := fun w => List.append_assoc _ [' '] w
  rw [hsplit] at hnormal
  obtain ⟨s', hs', hlist, hfrom, -⟩ := exists_ofScript?_of_leads (leads_distinct h.isList) h.isList
    h.source_isSome_space hnormal
  rw [toDistinct_eq]
  exact ⟨s', hs', hlist, hfrom⟩

/-- The count of a count is the same count. -/
theorem toCount?_toCount : toCount? s.toCount = some s.toCount := by
  -- Both counts are written as SELECT, the list COUNT(*), and a text from FROM on.
  have hcount : ∀ r, s.toCount = "SELECT".toList ++ ' ' :: ("COUNT(*)".toList ++ ' ' :: r) →
      (Keyword.after? .source (some ' ') r).isSome → normalize s.toCount = s.toCount →
      toCount? s.toCount = some s.toCount := by
    intro r hr hsource hnormal
    rw [hr] at hnormal
    obtain ⟨s', hs', hlist, hfrom, hmodifiers⟩ := exists_ofScript?_of_leads
      (leads_select isList_count) isList_count hsource hnormal
    rw [toCount?, hr, hs', Option.map_some, toCount_eq_of_not_distinct (by rw [hmodifiers]; rfl),
      hfrom]
  cases hdistinct : s.layout.modifiers.distinct with
  | true =>
    refine hcount _ (toCount_eq_of_distinct hdistinct) rfl ?_
    have hnormal := normalize_distinctCount hcanonical
    rwa [toCount, if_pos hdistinct, List.append_assoc, List.append_assoc]
  | false =>
    refine hcount _ (toCount_eq_of_not_distinct hdistinct) h.source_isSome_space ?_
    rw [toCount, if_neg (by simp [hdistinct])]
    exact h.normalize_count hcanonical

end Selection

/-! ## Main statement -/

/-- Of several variants of a selection, one after another, only the last one shows: limits of rows
and distinct rows replace each other, and counting twice counts once. The selection is in normal
form, its list starts at the top level, and not with a word that goes on with a limit of rows. -/
theorem exists_variants? {sql : Text} {s : Selection} (hs : Selection.ofScript? sql = some s)
    (hnormal : normalize s.text = s.text)
    (hclosed : Text.IsClosed (s.text.take s.layout.list.start))
    (hpercent : afterFoldedWord? "percent".toList s.list = none)
    (hties : Modifier.afterTies? s.list = none) {n : Int} (hn : 0 < n) :
    ∃ top distinct count, toTop? n sql = some top ∧ toDistinct? sql = some distinct ∧
      toCount? sql = some count ∧
      (∀ m > 0, toTop? m top = toTop? m sql ∧ toTop? m distinct = toTop? m sql) ∧
      toDistinct? top = toDistinct? sql ∧ toDistinct? distinct = toDistinct? sql ∧
      toCount? count = toCount? sql ∧
      toCount? top = some ("SELECT COUNT(*) ".toList ++ s.fromSource) := by
  obtain ⟨front, gap, hparts⟩ := Selection.exists_parts hclosed
  have hcanonical := IsCanonical.of_normalize hnormal
  obtain ⟨s₁, hs₁, hlist₁, hfrom₁, hmodifiers⟩ :=
    Selection.exists_ofScript?_toTop hparts hcanonical hpercent hties hn
  obtain ⟨s₂, hs₂, hlist₂, hfrom₂⟩ := Selection.exists_ofScript?_toDistinct hparts hcanonical
  have htop : ∀ {m : Int}, 0 < m → ∀ sql', toTop? m sql' =
      (Selection.ofScript? sql').map (·.toTop m) := fun hm sql' => if_neg (not_le.2 hm)
  -- Every variant is made of the list and the text from FROM on, and a variant keeps both.
  refine ⟨s.toTop n, s.toDistinct, s.toCount, ?_, ?_, ?_, fun m hm => ⟨?_, ?_⟩, ?_, ?_, ?_, ?_⟩
  · rw [htop hn, hs, Option.map_some]
  · rw [toDistinct?, hs, Option.map_some]
  · rw [toCount?, hs, Option.map_some]
  · rw [htop hm, htop hm, hs₁, hs, Option.map_some, Option.map_some, Selection.toTop_eq, hlist₁,
      hfrom₁, ← Selection.toTop_eq]
  · rw [htop hm, htop hm, hs₂, hs, Option.map_some, Option.map_some, Selection.toTop_eq, hlist₂,
      hfrom₂, ← Selection.toTop_eq]
  · rw [toDistinct?, toDistinct?, hs₁, hs, Option.map_some, Option.map_some,
      Selection.toDistinct_eq, hlist₁, hfrom₁, ← Selection.toDistinct_eq]
  · rw [toDistinct?, toDistinct?, hs₂, hs, Option.map_some, Option.map_some,
      Selection.toDistinct_eq, hlist₂, hfrom₂, ← Selection.toDistinct_eq]
  · rw [Selection.toCount?_toCount hparts hcanonical, toCount?, hs, Option.map_some]
  · rw [toCount?, hs₁, Option.map_some, Selection.toCount, if_neg (by simp [hmodifiers]), hfrom₁]

/-- A selection of distinct rows with a limit, behind a comment and in front of a semicolon. -/
theorem exists_variants?_distinct : ∃ s top distinct count,
    Selection.ofScript?
      "--\nSELECT DISTINCT TOP (3) [a;] x FROM t WHERE b = '(' ORDER BY a;".toList = some s ∧
    normalize s.text = s.text ∧ Text.IsClosed (s.text.take s.layout.list.start) ∧
    afterFoldedWord? "percent".toList s.list = none ∧ Modifier.afterTies? s.list = none ∧
    toTop? 5 "--\nSELECT DISTINCT TOP (3) [a;] x FROM t WHERE b = '(' ORDER BY a;".toList =
      some top ∧
    toDistinct? "--\nSELECT DISTINCT TOP (3) [a;] x FROM t WHERE b = '(' ORDER BY a;".toList =
      some distinct ∧
    toCount? "--\nSELECT DISTINCT TOP (3) [a;] x FROM t WHERE b = '(' ORDER BY a;".toList =
      some count ∧
    toTop? 5 distinct = some top ∧ toDistinct? top = some distinct ∧ toCount? count = some count ∧
    toCount? top = some "SELECT COUNT(*) FROM t WHERE b = '(' ORDER BY a;".toList := by
  have hany : (Selection.ofScript?
      "--\nSELECT DISTINCT TOP (3) [a;] x FROM t WHERE b = '(' ORDER BY a;".toList).any (fun s =>
        decide (normalize s.text = s.text ∧ Text.IsClosed (s.text.take s.layout.list.start) ∧
          afterFoldedWord? "percent".toList s.list = none ∧ Modifier.afterTies? s.list = none ∧
          s.fromSource = "FROM t WHERE b = '(' ORDER BY a;".toList)) = true := by
    decide +kernel
  obtain ⟨s, hs, hdecide⟩ := (Option.any_eq_true _ _).1 hany
  obtain ⟨hnormal, hclosed, hpercent, hties, hfrom⟩ := of_decide_eq_true hdecide
  obtain ⟨top, distinct, count, htop, hdistinct, hcount, htops, hdistinct₁, -, hcount₁, hcount₂⟩ :=
    exists_variants? hs hnormal hclosed hpercent hties (n := 5) (by decide)
  refine ⟨s, top, distinct, count, hs, hnormal, hclosed, hpercent, hties, htop, hdistinct, hcount,
    (htops 5 (by decide)).2.trans htop, hdistinct₁.trans hdistinct, hcount₁.trans hcount, ?_⟩
  rw [hcount₂, hfrom]
  rfl

end LooseSql
