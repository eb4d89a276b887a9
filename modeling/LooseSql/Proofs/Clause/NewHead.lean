import LooseSql.Proofs.Clause.Bounds
import LooseSql.Proofs.Clause.Pieces

/-!
# Statements with a new head

Some variants of a statement have a new head: the word SELECT and modifiers, then a list, then the
old text from FROM on, with a space between each two. `IsList y` says that `y` is read as the list
behind the word SELECT, and `Leads pre m y` says that the words `pre` in front of it are read as
SELECT with the modifiers `m`. A text of these parts is located as it was written
(`Leads.exists_layout`).
-/

namespace LooseSql

namespace Text

/-- Text behind a text without trailing blanks only adds to it. -/
theorem length_le_length_trimEnd_append {x : Text} (hx : trimEnd x = x) (y : Text) :
    x.length ≤ (trimEnd (x ++ y)).length := by
  by_cases hy : trimEnd y = []
  · rw [trimEnd_append_of_blank x (trimEnd_eq_nil_iff.1 hy), hx]
  · rw [trimEnd_append x hy, List.length_append]
    exact Nat.le_add_right _ _

end Text

/-- The first statement of a text goes at least up to the end of a body at its head. -/
theorem IsBody.length_le_statementStop {x : Text} (hx : IsBody x) (y : Text) :
    x.length ≤ statementStop (x ++ y) := by
  have hsemicolon : semicolonFrom? .top 0 (x ++ y) = semicolonFrom? .top (0 + x.length) y := by
    rw [semicolonFrom?_append, hx.semicolon_eq, hx.closed.scan_eq,
      Option.none_or]
  -- The body holds no semicolon, so the statement ends behind it or with it.
  rw [statementStop_eq, hsemicolon]
  cases h : semicolonFrom? .top (0 + x.length) y with
  | none =>
    rw [Option.getD_none, List.take_length]
    exact Text.length_le_length_trimEnd_append hx.trimEnd_eq y
  | some n =>
    obtain ⟨u, r, rfl, rfl, -⟩ := exists_of_semicolonFrom? h
    rw [Option.getD_some, Nat.zero_add, ← List.append_assoc, ← List.length_append, List.take_left]
    exact Text.length_le_length_trimEnd_append hx.trimEnd_eq u

/-! ## Modifiers as they are written -/

namespace Modifier

/-- A space in front of a modifier does not matter. -/
theorem read?_space_cons (t : Text) : read? (' ' :: t) = read? t := rfl

/-- The word DISTINCT is read up to the space behind it. -/
theorem read?_distinct (t : Text) :
    read? (" DISTINCT".toList ++ ' ' :: t) = some (word "DISTINCT".toList, ' ' :: t) := by
  have hread : read? (" DISTINCT".toList ++ ' ' :: t) =
      some (word (Text.before ("DISTINCT".toList ++ ' ' :: t) (' ' :: t)), ' ' :: t) := rfl
  rw [hread, Text.before_append]

section Top

variable {digits t : Text} (hne : digits ≠ []) (hdigits : ∀ c ∈ digits, c.isDigit = true)

include hne hdigits

/-- A number is read up to the space behind it. -/
theorem afterRowCount?_digits (t : Text) :
    afterRowCount? (' ' :: (digits ++ ' ' :: t)) = some (' ' :: t) := by
  have hdecimal : ∀ c ∈ digits, isDecimalDigit c = true := fun c hc =>
    isDecimalDigit_of_isDigit (hdigits c hc)
  obtain ⟨c, others, rfl⟩ := List.exists_cons_of_ne_nil hne
  have hc : isDecimalDigit c = true := hdecimal c (by simp)
  -- A digit is no blank, so nothing of the number is dropped with the space.
  have htrim : Text.trimStart (c :: others ++ ' ' :: t) = c :: others ++ ' ' :: t := by
    refine Text.trimStart_eq_self_iff.2 fun d hd => ?_
    obtain rfl : c = d := by simpa using hd
    by_contra hblank
    have hword := isWordChar_of_isBlank (eq_true_of_ne_false hblank)
    simp [isWordChar_of_isDecimalDigit hc] at hword
  have hblanks : Text.afterBlanks? (' ' :: (c :: others ++ ' ' :: t)) =
      some (c :: others ++ ' ' :: t) := by
    rw [Text.afterBlanks?, if_pos (by decide), htrim]
  have hdrop : (c :: others ++ ' ' :: t).dropWhile isDecimalDigit = ' ' :: t := by
    rw [List.dropWhile_append_of_pos hdecimal, List.dropWhile_cons_of_neg (by decide)]
  rw [afterRowCount?_of_not_open, hblanks, Option.bind_some, afterNumber?, if_pos, hdrop, if_pos]
  · rfl
  · simpa using hc
  · rw [show Text.trimStart (' ' :: (c :: others ++ ' ' :: t)) = c :: others ++ ' ' :: t from htrim]
    intro heq
    obtain rfl : c = '(' := by simpa using heq
    exact absurd hc (by decide)

/-- A row limit goes on behind its number with the word PERCENT and then with the words WITH TIES,
as far as they are there. -/
theorem read?_limit (t : Text) : read? (" TOP ".toList ++ (digits ++ ' ' :: t)) =
    some (top (Text.before ("TOP ".toList ++ (digits ++ ' ' :: t))
        (afterWithTies (afterOptionalWord "percent".toList (' ' :: t)))),
      afterWithTies (afterOptionalWord "percent".toList (' ' :: t))) := by
  have hlimit : afterTop? ("TOP ".toList ++ (digits ++ ' ' :: t)) =
      some (afterWithTies (afterOptionalWord "percent".toList (' ' :: t))) := by
    have hfolded : afterFolded? "top".toList ("TOP ".toList ++ (digits ++ ' ' :: t)) =
        some (' ' :: (digits ++ ' ' :: t)) := rfl
    rw [afterTop?, hfolded, Option.bind_some, afterRowCount?_digits hne hdigits, Option.map_some]
  have hset : afterSetWord? ("TOP ".toList ++ (digits ++ ' ' :: t)) = none := rfl
  have hstart : Text.trimStart (" TOP ".toList ++ (digits ++ ' ' :: t)) =
      "TOP ".toList ++ (digits ++ ' ' :: t) := rfl
  rw [read?, hstart]
  simp only [hset, hlimit, Option.map_some]

/-- A row limit is read up to the space behind its number, where neither PERCENT nor WITH TIES
follows. -/
theorem read?_top (htrim : Text.trimStart t = t)
    (hpercent : afterFoldedWord? "percent".toList t = none) (hties : afterTies? t = none) :
    read? (" TOP ".toList ++ (digits ++ ' ' :: t)) =
      some (top ("TOP ".toList ++ digits), ' ' :: t) := by
  have hblanks : Text.afterBlanks? (' ' :: t) = some t := by
    rw [Text.afterBlanks?, if_pos (by decide), htrim]
  -- Neither of the optional words of a row limit starts behind the number.
  have hword : afterOptionalWord "percent".toList (' ' :: t) = ' ' :: t := by
    rw [afterOptionalWord, hblanks, Option.bind_some, hpercent]
    rfl
  have hwith : afterWithTies (' ' :: t) = ' ' :: t := by
    rw [afterWithTies_eq, hblanks, Option.bind_some, hties]
    rfl
  rw [read?_limit hne hdigits, hword, hwith, ← List.append_assoc, Text.before_append]

end Top

end Modifier

/-! ## Lists -/

/-- A word is a piece. -/
theorem isPiece_of_isWordChar {y : Text} (hne : y ≠ []) (hy : ∀ c ∈ y, isWordChar c = true) :
    IsPiece y where
  ne_nil := hne
  trim_eq := by
    have hblank : ∀ c ∈ y, isBlank c = false := by
      intro c hc
      by_contra h
      exact absurd (hy c hc) (by simp [isWordChar_of_isBlank (eq_true_of_ne_false h)])
    rw [Text.trim_eq_self_iff, Text.trimStart_eq_self_iff, Text.trimEnd_eq_self_iff]
    exact ⟨fun c hc => hblank c (List.mem_of_mem_head? hc),
      fun c hc => hblank c (List.mem_of_getLast? hc)⟩
  closed := scan_of_not_mark (fun c hc => isScanMark_of_isWordChar (hy c hc)) .top
  semicolon_eq := by
    refine semicolonFrom?_eq_none_of_not_mem (fun hmem => ?_) _ _
    exact absurd (hy ';' hmem) (by decide)

/-- A statement goes at least up to the end of the word FROM that stands behind a space. -/
theorem IsBody.exists_statement {x r : Text} (hx : IsBody x)
    (hr : (Keyword.after? .source (some ' ') r).isSome) : ∃ r' w, r = r' ++ w ∧
      IsStatement (x ++ ' ' :: r') w ∧ (Keyword.after? .source (some ' ') r').isSome := by
  obtain ⟨rest, hrest⟩ := Option.isSome_iff_exists.1 hr
  obtain ⟨word, rfl, hword⟩ := Keyword.exists_of_afterWord? (Keyword.after?_eq_some_iff.1 hrest).2.1
  have hne : word ≠ [] := by
    rintro rfl
    exact absurd hword (by decide)
  have hpiece : IsPiece word := isPiece_of_isWordChar hne fun c hc =>
    isWordChar_of_isAlpha (Keyword.isAlpha_of_map_toLower_eq hword (by decide) c hc)
  have hle := (hx.append hpiece).length_le_statementStop rest
  have hstatement := isStatement_take_drop (x ++ ' ' :: word ++ rest)
  generalize statementStop (x ++ ' ' :: word ++ rest) = n at hle hstatement
  obtain ⟨k, rfl⟩ := Nat.exists_eq_add_of_le hle
  rw [List.take_length_add_append, List.drop_length_add_append] at hstatement
  have htext : x ++ ' ' :: (word ++ rest.take k) = x ++ ' ' :: word ++ rest.take k := by simp
  refine ⟨word ++ rest.take k, rest.drop k, by simp, htext ▸ hstatement, ?_⟩
  -- FROM is a whole word in the statement as well.
  have hseam : Seam (word ++ rest.take k) (rest.drop k) := by
    refine Seam.of_append (u := x ++ [' ']) ?_
    simpa using hstatement.seam
  rw [← List.take_append_drop k rest, ← List.append_assoc,
    Keyword.after?_append (by decide) hseam (by simp [hne]), Option.isSome_map] at hr
  exact hr

/-- The text is read as the list of a statement, behind the word SELECT and in front of FROM. -/
structure IsList (y : Text) : Prop extends IsPiece y where
  /-- The word FROM does not stand in the list. -/
  source_eq : keywordSpans [.source] .top 0 none y = []
  /-- The list does not start with a modifier. -/
  read_eq : ∀ r, (Keyword.after? .source (some ' ') r).isSome →
    Modifier.read? (y ++ ' ' :: r) = none

/-- The words `pre` are read as SELECT with the modifiers `m`, in front of the list `y`. -/
structure Leads (pre : Text) (m : Modifiers) (y : Text) : Prop where
  /-- The words go on with a list. -/
  isBody : IsBody pre
  /-- They do not end like a keyword that BY goes on with. -/
  not_by : ∀ c ∈ pre.getLast?, c.toLower ∉ Keyword.byLetters
  /-- SELECT stands first, and the modifiers are read up to the list. -/
  reads : ∀ r, (Keyword.after? .source (some ' ') r).isSome →
    ∃ body, Keyword.after? .select none (pre ++ ' ' :: (y ++ ' ' :: r)) = some body ∧
      Modifiers.Reads .none body m (' ' :: (y ++ ' ' :: r))

namespace Leads

variable {pre y r : Text} {m : Modifiers} (h : Leads pre m y) (hy : IsList y)
  (hr : (Keyword.after? .source (some ' ') r).isSome)

include h hy

theorem append_isBody : IsBody (pre ++ ' ' :: y) := h.isBody.append hy.toIsPiece

/-- The word FROM stands nowhere in front of the list, and nowhere in it. -/
theorem start_lt_of_mem {s : Span} (hs : s ∈ keywordSpans [.source] .top 0 none (pre ++ ' ' :: y)) :
    s.start < pre.length := by
  have hby : ∀ c ∈ pre.trimEnd.getLast?, c.toLower ∉ Keyword.byLetters := by
    rw [h.isBody.trimEnd_eq]
    exact h.not_by
  rw [keywordSpans_append_piece (by decide) h.isBody.closed (Or.inr hby), hy.source_eq,
    List.map_nil, List.append_nil] at hs
  have hbounds := bounds_of_mem_keywordSpans (by decide) hs
  omega

include hr

/-- The head is read up to the space in front of the list. -/
theorem exists_locate? : ∃ head, Head.locate? (pre ++ ' ' :: (y ++ ' ' :: r)) = some head ∧
    head.start = pre.length ∧ head.modifiers = m ∧ (pre ++ ' ' :: y).length + 1 < head.stop := by
  obtain ⟨r', w, rfl, hstatement, hsource⟩ := (h.append_isBody hy).exists_statement hr
  obtain ⟨body, hselect, hreads⟩ := h.reads r' hsource
  -- FROM stands behind the list, so the statement goes on there.
  have hpos : 0 < r'.length := by
    refine List.length_pos_iff.2 ?_
    rintro rfl
    exact absurd hsource (by decide)
  have htext : pre ++ ' ' :: (y ++ ' ' :: (r' ++ w)) = pre ++ ' ' :: y ++ ' ' :: r' ++ w := by
    simp
  refine ⟨⟨pre.length, (pre ++ ' ' :: y ++ ' ' :: r').length, m⟩, ?_, rfl, rfl, ?_⟩
  · rw [htext, Head.locate?_eq_some_iff hstatement]
    refine ⟨body, _, by simpa using hselect, hreads, ?_, rfl⟩
    simp only [List.length_append, List.length_cons]
    omega
  · simp only [List.length_append, List.length_cons]
    omega

/-- The word FROM of the text is the one behind the list. -/
theorem exists_source? {head : Head} (hstart : head.start = pre.length)
    (hstop : (pre ++ ' ' :: y).length + 1 < head.stop) : ∃ word,
    head.source? (pre ++ ' ' :: (y ++ ' ' :: r)) = some word ∧
      word.start = (pre ++ ' ' :: y).length + 1 := by
  obtain ⟨rest, hrest⟩ := Option.isSome_iff_exists.1 hr
  have hby := afterWord?_by_of_after? (by decide) hrest
  have hplain : ArePlain [.source] := by decide
  obtain ⟨n, others, hspans⟩ := keywordSpans_of_after? hplain (by simp) hrest 0
  have hbefore : (some ' ').any isWordChar = (none : Option Char).any isWordChar := by decide
  rw [keywordSpans_congr hbefore] at hspans
  have htext : pre ++ ' ' :: (y ++ ' ' :: r) = pre ++ ' ' :: y ++ ' ' :: r := by simp
  -- In front of the one behind the list, FROM stands nowhere from the end of the head on.
  have hfirst : firstFrom pre.length (keywordSpans [.source] .top 0 none (pre ++ ' ' :: y)) =
      none := firstFrom_eq_none_iff.2 fun s hs => h.start_lt_of_mem hy hs
  have hle : pre.length ≤ 0 + ((pre ++ ' ' :: y).length + 1) := by
    simp only [List.length_append]
    omega
  rw [Head.source?, hstart, keywordBetween?_eq_firstFrom, htext,
    keywordSpans_append_piece (by decide) (h.append_isBody hy).closed (Or.inl hby),
    firstFrom_append, hfirst, Option.none_or, hspans, List.map_cons, firstFrom,
    List.find?_cons_of_pos (by simpa [Span.map] using hle), Option.filter_some, if_pos]
  · exact ⟨_, rfl, Nat.zero_add _⟩
  · simpa [Span.map] using hstop

/-- A text with a new head is located as it was written. -/
theorem exists_layout : ∃ layout, Layout.locate? (pre ++ ' ' :: (y ++ ' ' :: r)) = some layout ∧
    layout.list = ⟨pre.length + 1, pre.length + 1 + y.length⟩ ∧
    layout.source = some (pre.length + 1 + y.length + 1) ∧ layout.modifiers = m := by
  obtain ⟨head, hhead, hstart, hmodifiers, hstop⟩ := h.exists_locate? hy hr
  obtain ⟨word, hword, hwordstart⟩ := h.exists_source? hy hr hstart hstop
  have hlen : (pre ++ ' ' :: y).length = pre.length + 1 + y.length := by
    simp only [List.length_append, List.length_cons]
    omega
  rw [hlen] at hwordstart
  refine ⟨_, by rw [Layout.locate?, hhead, Option.map_some], ?_, ?_, ?_⟩
  · rw [Head.layout_list, Head.listStop, hword, Option.elim_some, hwordstart, hstart]
    refine Span.trim_of_eq_append pre [' '] y [' '] r (by simp) hy.ne_nil ?_ ?_ hy.trim_eq rfl rfl
    · decide
    · decide
  · rw [Head.layout_source, hword, Option.map_some, hwordstart]
  · rw [Head.layout_modifiers, hmodifiers]

end Leads

/-! ## The heads of variants -/

theorem after?_select_append {t : Text} (ht : startsWithWordChar t = false) :
    Keyword.after? .select none ("SELECT".toList ++ t) = some t :=
  Keyword.after?_eq_some_iff.2 ⟨rfl, rfl, ht⟩

theorem isBody_select : IsBody "SELECT".toList := ⟨by decide, by decide, by decide⟩

theorem isBody_top {digits : Text} (hne : digits ≠ []) (hdigits : ∀ c ∈ digits, c.isDigit = true) :
    IsBody ("SELECT TOP ".toList ++ digits) := by
  have hpiece : IsPiece digits := isPiece_of_isWordChar hne fun c hc =>
    isWordChar_of_isDecimalDigit (isDecimalDigit_of_isDigit (hdigits c hc))
  exact (isBody_select.append (y := "TOP".toList)
    (isPiece_of_isWordChar (by decide) (by decide))).append hpiece

/-- The list of a count. -/
theorem isList_count : IsList "COUNT(*)".toList where
  ne_nil := by decide
  trim_eq := by decide
  closed := by decide
  semicolon_eq := by decide
  source_eq := by decide
  read_eq := fun _ _ => rfl

section Heads

variable {y : Text} (hy : IsList y)

include hy

/-- SELECT alone has no modifiers. -/
theorem leads_select : Leads "SELECT".toList .none y where
  isBody := isBody_select
  not_by := by decide
  reads r hr := by
    refine ⟨_, after?_select_append rfl, Modifiers.Reads.stop ?_⟩
    rw [Modifier.read?_space_cons]
    exact hy.read_eq r hr

theorem leads_distinct : Leads "SELECT DISTINCT".toList ⟨true, false, none⟩ y where
  isBody := isBody_select.append (isPiece_of_isWordChar (by decide) (by decide))
  not_by := by decide
  reads r hr := by
    refine ⟨_, after?_select_append rfl,
      Modifiers.Reads.step (Modifier.read?_distinct _) (Modifiers.Reads.stop ?_)⟩
    rw [Modifier.read?_space_cons]
    exact hy.read_eq r hr

/-- A row limit is read as it is written, unless the list starts with words that belong to one. -/
theorem leads_top (hpercent : afterFoldedWord? "percent".toList y = none)
    (hties : Modifier.afterTies? y = none) {digits : Text} (hne : digits ≠ [])
    (hdigits : ∀ c ∈ digits, c.isDigit = true) :
    Leads ("SELECT TOP ".toList ++ digits) ⟨false, false, some ("TOP ".toList ++ digits)⟩ y where
  isBody := isBody_top hne hdigits
  not_by := by
    intro c hc
    rw [List.getLast?_append_of_ne_nil _ hne] at hc
    have hmem : c ∈ digits := List.mem_of_getLast? hc
    -- A digit is none of the letters that ORDER and GROUP end in.
    intro hby
    have halpha : c.isAlpha = true := by
      rcases List.mem_cons.1 hby with h | h
      · exact isAlpha_of_toLower_eq (w := 'r') h (by decide)
      · exact isAlpha_of_toLower_eq (w := 'p') (by simpa using h) (by decide)
    have hdecimal := isDecimalDigit_of_isDigit (hdigits c hmem)
    simp [isDecimalDigit_of_isAlpha halpha] at hdecimal
  reads r hr := by
    have hseam : Modifiers.Seam y (' ' :: r) := by
      obtain ⟨rest, hrest⟩ := Option.isSome_iff_exists.1 hr
      exact (Head.modifiersSeam_of_source [' '] (by decide) (by simpa using hrest)).1
    have htrim : Text.trimStart (y ++ ' ' :: r) = y ++ ' ' :: r := by
      rw [Text.trimStart_append (by rw [hy.trimStart_eq]; exact hy.ne_nil), hy.trimStart_eq]
    have hpercent' : afterFoldedWord? "percent".toList (y ++ ' ' :: r) = none := by
      rw [Modifier.afterFoldedWord?_append_of_seam (by decide) (by decide) hseam, hpercent]
      rfl
    have hties' : Modifier.afterTies? (y ++ ' ' :: r) = none := by
      rw [Modifier.afterTies?_append hseam, hties]
      rfl
    refine ⟨" TOP ".toList ++ (digits ++ ' ' :: (y ++ ' ' :: r)), ?_, Modifiers.Reads.step
      (Modifier.read?_top hne hdigits htrim hpercent' hties') (Modifiers.Reads.stop ?_)⟩
    · rw [List.append_assoc]
      exact after?_select_append rfl
    · rw [Modifier.read?_space_cons]
      exact hy.read_eq r hr

end Heads

end LooseSql
