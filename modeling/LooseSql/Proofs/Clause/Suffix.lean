import LooseSql.Proofs.Clause.Reordered

/-!
# The part that orders the rows

The part that orders the rows starts with ORDER BY, or with the hints, or it is empty
(`Head.IsSound.suffixStart_eq`). What stands in front of it is a front in the sense of `IsFront`,
and the paging and the hints that are cut out of it are clauses that can be kept
(`isKept_slice_trim`). So a statement falls into the parts of which one with a new order is made
(`Head.Selects.isReordered`).
-/

namespace LooseSql

/-! ## The clause behind a keyword -/

theorem seam_of_blank (u : Text) {ws : Text} (hws : ∀ c ∈ ws, isBlank c) : Seam u ws := by
  refine ⟨fun _ _ d hd _ => isWordChar_of_isBlank (hws d (List.mem_of_mem_head? hd)), Or.inl ?_⟩
  rw [Text.trimStart_eq_nil_iff.2 hws]
  rfl

/-- Blanks behind a text hold no keyword. -/
theorem keywordSpans_append_blank {ks : List Keyword} (hks : ArePlain ks) (u : Text) {ws : Text}
    (hws : ∀ c ∈ ws, isBlank c) (i : Nat) (before : Option Char) :
    keywordSpans ks .top i before (u ++ ws) = keywordSpans ks .top i before u := by
  have halpha : ∀ c ∈ ws, c.isAlpha = false := by
    intro c hc
    by_contra h
    exact absurd (hws c hc) (by simp [isBlank_of_isAlpha (by simpa using h)])
  rw [keywordSpans_append hks (seam_of_blank u hws), keywordSpans_of_not_alpha halpha,
    List.append_nil]

/-- The text `u` up to the place `b` is made of a text `x` that ends at the top level, a clause `y`
that starts with the keyword, and blanks. -/
structure IsClause (u : Text) (k : Keyword) (b : Nat) (x y ws : Text) : Prop where
  /-- The parts stand one behind another. -/
  take_eq : u.take b = x ++ (y ++ ws)
  /-- The text in front of the clause ends at the top level. -/
  closed : x.IsClosed
  /-- The clause starts with the keyword. -/
  exists_rest : ∃ rest, k.after? x.getLast? y = some rest
  /-- The clause is not empty. -/
  ne_nil : y ≠ []
  /-- There are no blanks around the clause. -/
  trim_eq : y.trim = y
  /-- Blanks follow. -/
  blank : ∀ c ∈ ws, isBlank c

namespace IsClause

variable {u x y ws : Text} {k : Keyword} {b : Nat} (h : IsClause u k b x y ws)

include h

theorem text_eq : u = x ++ (y ++ (ws ++ u.drop b)) := by
  rw [← List.append_assoc y, ← List.append_assoc x, ← h.take_eq, List.take_append_drop]

/-- No word goes on from the text in front into the keyword. -/
theorem isWordChar_getLast? : x.getLast?.any isWordChar = false := by
  obtain ⟨rest, hrest⟩ := h.exists_rest
  exact (Keyword.after?_eq_some_iff.1 hrest).1

theorem seam (hk : k.IsPlain) : Seam x (y ++ ws) := by
  obtain ⟨rest, hrest⟩ := h.exists_rest
  have happend := Keyword.after?_append hk (seam_of_blank y h.blank) h.ne_nil x.getLast?
  rw [hrest, Option.map_some] at happend
  exact seam_of_after? hk happend

variable (hb : b ≤ u.length)

include hb

theorem length_eq : b = x.length + (y.length + ws.length) := by
  have hlen := congrArg List.length h.take_eq
  rwa [List.length_take_of_le hb, List.length_append, List.length_append] at hlen

/-- The clause is what trimming leaves of the stretch up to the place. -/
theorem trim_eq_span : Span.trim ⟨x.length, b⟩ u = ⟨x.length, x.length + y.length⟩ := by
  have hlen := h.length_eq hb
  refine Span.trim_of_eq_append x [] y ws (u.drop b) ?_ h.ne_nil (by simp) h.blank h.trim_eq rfl ?_
  · rw [List.nil_append, List.append_assoc]
    exact h.text_eq
  · rw [List.length_nil]
    omega

theorem slice_eq : (Span.trim ⟨x.length, b⟩ u).slice u = y := by
  rw [h.trim_eq_span hb, Span.slice_of_eq_append h.text_eq rfl rfl]

end IsClause

section Clause

variable {u : Text} {k : Keyword} {r : Span} {b : Nat} (hk : k.IsPlain)
  (hr : r ∈ keywordSpans [k] .top 0 none u) (hcut : IsCut u b) (hrb : r.start < b)
  (hb : b ≤ u.length)

include hk hr hcut hrb hb

/-- The stretch from a keyword up to a cut starts with the keyword and with a letter. -/
theorem exists_stretch_of_mem : ∃ x z rest : Text, u.take b = x ++ z ∧ r.start = x.length ∧
    x.IsClosed ∧ k.after? x.getLast? z = some rest ∧ ∃ c ∈ z.head?, c.isAlpha = true := by
  obtain ⟨x, m, rest, hu, rfl, hscan, ⟨k', hk', hafter⟩, ⟨c, hc, halpha⟩, -⟩ :=
    exists_of_mem_keywordSpans (by simpa [ArePlain] using hk) hr
  obtain rfl : k' = k := by simpa using hk'
  simp only [Nat.zero_add, Option.or_none] at hrb hafter ⊢
  obtain ⟨z, hz⟩ : ∃ z, u.take b = x ++ z :=
    ⟨_, by rw [← List.take_append_drop x.length (u.take b), List.take_take,
      Nat.min_eq_left hrb.le, hu, List.take_left]⟩
  have hsplit : m ++ rest = z ++ u.drop b := by
    refine List.append_cancel_left (?_ : x ++ (m ++ rest) = x ++ (z ++ u.drop b))
    rw [← hu, ← List.append_assoc, ← hz, List.take_append_drop]
  have hzne : z ≠ [] := by
    rintro rfl
    have hlen := congrArg List.length hz
    rw [List.length_take_of_le hb, List.append_nil] at hlen
    omega
  have hhead : z.head? = some c := by
    have happend := congrArg List.head? hsplit
    rwa [List.head?_append, Option.mem_def.1 hc, List.head?_append_of_ne_nil _ hzne, eq_comm]
      at happend
  -- The cut is seen from neither side, so the keyword is matched in front of it.
  have hseam : Seam z (u.drop b) := by
    rw [IsCut, hz] at hcut
    exact hcut.of_append
  rw [hsplit, Keyword.after?_append hk hseam hzne, Option.map_eq_some_iff] at hafter
  obtain ⟨rest', hafter, -⟩ := hafter
  exact ⟨x, z, rest', hz, rfl, hscan, hafter, c, hhead, halpha⟩

/-- The stretch from a keyword up to a cut is a clause with blanks behind it. -/
theorem exists_clause_of_mem : ∃ x y ws : Text, IsClause u k b x y ws ∧ r.start = x.length := by
  obtain ⟨x, z, rest, hz, hstart, hclosed, hafter, c, hc, halpha⟩ :=
    exists_stretch_of_mem hk hr hcut hrb hb
  obtain ⟨ws, hws, hzws⟩ := Text.exists_trimEnd_append_blank z
  -- The clause starts with a letter, so there are no blanks in front of it.
  have hne : Text.trimEnd z ≠ [] := by
    intro hnil
    have hblank := Text.trimEnd_eq_nil_iff.1 hnil c (List.mem_of_mem_head? hc)
    simp [isBlank_of_isAlpha halpha] at hblank
  have hstartTrim : Text.trimStart (Text.trimEnd z) = Text.trimEnd z := by
    refine Text.trimStart_eq_self_iff.2 fun d hd => ?_
    rw [← hzws, List.head?_append_of_ne_nil _ hne] at hc
    obtain rfl : c = d := Option.mem_unique hc hd
    exact isBlank_of_isAlpha halpha
  rw [← hzws, Keyword.after?_append hk (seam_of_blank _ hws) hne, Option.map_eq_some_iff] at hafter
  obtain ⟨rest', hafter, -⟩ := hafter
  exact ⟨x, Text.trimEnd z, ws, ⟨by rw [hzws, hz], hclosed, ⟨rest', hafter⟩, hne,
    Text.trim_eq_self_iff.2 ⟨hstartTrim, Text.trimEnd_trimEnd z⟩, hws⟩, hstart⟩

theorem start_trim_of_mem : (Span.trim ⟨r.start, b⟩ u).start = r.start := by
  obtain ⟨x, y, ws, hclause, hstart⟩ := exists_clause_of_mem hk hr hcut hrb hb
  rw [hstart, hclause.trim_eq_span hb]

/-- The clause behind a keyword can be kept. -/
theorem isKept_slice_trim (hclosed : Text.IsClosed (u.take b))
    (hsemicolon : semicolonFrom? .top 0 u = none) :
    IsKept k ((Span.trim ⟨r.start, b⟩ u).slice u) := by
  obtain ⟨x, y, ws, hclause, hstart⟩ := exists_clause_of_mem hk hr hcut hrb hb
  obtain ⟨rest, hrest⟩ := hclause.exists_rest
  rw [hstart, hclause.slice_eq hb]
  refine ⟨⟨hclause.ne_nil, hclause.trim_eq, ?_, ?_⟩, rest, ?_⟩
  · rw [Text.IsClosed, hclause.take_eq, scan_append, scan_append, hclause.closed.scan_eq,
      scan_of_blank hclause.blank] at hclosed
    exact hclosed
  · rw [hclause.text_eq, semicolonFrom?_append, semicolonFrom?_append, hclause.closed.scan_eq,
      Option.or_eq_none_iff, Option.or_eq_none_iff, semicolonFrom?_add, Option.map_eq_none_iff]
      at hsemicolon
    exact hsemicolon.2.1
  · -- The blank that will stand in front breaks words as the character before the clause does.
    have hlast : x.getLast?.any isWordChar = (none : Option Char).any isWordChar :=
      hclause.isWordChar_getLast?
    rwa [Keyword.after?_congr hlast] at hrest

/-- The keywords of the clause are keywords of the text. -/
theorem mem_keywordSpans_of_clause {ks : List Keyword} (hks : ArePlain ks) {q : Span}
    (hq : q ∈ keywordSpans ks .top 0 none ((Span.trim ⟨r.start, b⟩ u).slice u)) :
    q.map (· + r.start) ∈ keywordSpans ks .top 0 none u ∧ q.stop + r.start ≤ b := by
  obtain ⟨x, y, ws, hclause, hstart⟩ := exists_clause_of_mem hk hr hcut hrb hb
  rw [hstart, hclause.slice_eq hb] at hq
  have hlen := hclause.length_eq hb
  have hbounds := bounds_of_mem_keywordSpans hks hq
  refine ⟨?_, by omega⟩
  -- The clause lies between two cuts.
  obtain ⟨others, hspans, -⟩ := exists_keywordSpans_eq_take hks hcut hb
  have hlast : (none : Option Char).any isWordChar = (x.getLast?.or none).any isWordChar := by
    rw [Option.or_none, hclause.isWordChar_getLast?]
    rfl
  rw [hspans, hclause.take_eq, keywordSpans_append hks (hclause.seam hk), hclause.closed.scan_eq,
    keywordSpans_append_blank hks y hclause.blank, ← keywordSpans_congr hlast, keywordSpans_add,
    ← hstart]
  simp only [List.mem_append]
  exact Or.inl (Or.inr (List.mem_map_of_mem hq))

end Clause

/-! ## The start of the part that orders the rows -/

namespace Head

variable {u : Text} {head : Head}

/-- The part that orders the rows starts with ORDER BY, or else where it ends. -/
theorem IsSound.suffixStart_eq (h : head.IsSound u) : (head.layout u).suffixStart =
    ((head.orderWords? u).map (·.start)).getD (head.orderStop u) := by
  have hhints : ((head.layout u).hints.map (·.start)).getD head.stop = head.orderStop u := by
    rw [orderStop, hints_eq, hintsStretch?]
    cases hw : head.hintsWord? u with
    | none => rfl
    | some word =>
      obtain ⟨hmem, -, hlt⟩ := mem_of_keywordBetween? hw
      exact start_trim_of_mem (by decide) hmem h.isCut_stop hlt h.stop_le_length
  rw [h.ordered_layout.suffixStart_eq]
  exact congrArg _ hhints

/-- The head of a statement that is the whole of the text `u` and has the word FROM at the place
`f`. -/
structure Selects (u : Text) (f : Nat) (head : Head) : Prop where
  /-- The head lies in front of the end of the statement. -/
  sound : head.IsSound u
  /-- The statement comes back to the top level. -/
  body : IsBody u
  /-- The statement is the whole text. -/
  stop_eq : head.stop = u.length
  /-- The word FROM is the first one behind the modifiers. -/
  source_eq : head.source? u = some ⟨f, f + 4⟩

namespace Selects

variable {f : Nat} (h : head.Selects u f)

include h

theorem clausesStart_eq : head.clausesStart u = f + 4 := by
  rw [clausesStart, h.source_eq]
  rfl

theorem suffixStart_le_orderStop : (head.layout u).suffixStart ≤ head.orderStop u := by
  rw [h.sound.suffixStart_eq]
  cases hw : head.orderWords? u with
  | none => exact Nat.le_refl _
  | some words =>
    have hbounds := h.sound.orderWords?_bounds hw
    simp only [Option.map_some, Option.getD_some]
    omega

theorem orderStop_le_length : head.orderStop u ≤ u.length :=
  h.stop_eq ▸ h.sound.orderStop_le_stop

theorem suffixStart_le_length : (head.layout u).suffixStart ≤ u.length :=
  h.suffixStart_le_orderStop.trans h.orderStop_le_length

theorem le_suffixStart : f + 4 ≤ (head.layout u).suffixStart := by
  rw [h.sound.suffixStart_eq, ← h.clausesStart_eq]
  cases hw : head.orderWords? u with
  | none => exact h.sound.clausesStart_le_orderStop
  | some words => exact (h.sound.orderWords?_bounds hw).1

/-- The part that orders the rows is empty, or it starts with ORDER BY or with OPTION. -/
theorem suffixStart_eq_or : (head.layout u).suffixStart = u.length ∨
    ∃ k ∈ conditionEnds, ∃ r ∈ keywordSpans [k] .top 0 none u,
      ArePlain [k] ∧ (head.layout u).suffixStart = r.start := by
  rw [h.sound.suffixStart_eq, orderStop]
  cases hw : head.orderWords? u with
  | some words =>
    exact Or.inr ⟨.orderBy, by decide, words, (mem_of_keywordBetween? hw).1, by decide, rfl⟩
  | none =>
    cases hh : head.hintsWord? u with
    | some word =>
      exact Or.inr ⟨.option, by decide, word, (mem_of_keywordBetween? hh).1, by decide, rfl⟩
    | none => exact Or.inl h.stop_eq

theorem isCut_suffixStart : IsCut u (head.layout u).suffixStart := by
  rcases h.suffixStart_eq_or with heq | ⟨k, -, r, hr, hk, heq⟩
  · rw [heq, IsCut, List.take_length, List.drop_length]
    exact Seam.nil_right u
  · rw [heq]
    exact isCut_start_of_mem hk hr

theorem isClosed_take_suffixStart : Text.IsClosed (u.take (head.layout u).suffixStart) := by
  rcases h.suffixStart_eq_or with heq | ⟨k, -, r, hr, hk, heq⟩
  · rw [heq, List.take_length]
    exact h.body.closed
  · rw [heq]
    exact isClosed_take_of_mem hk hr

/-- A clause in front of the part that orders the rows does not go on into it. -/
theorem endBefore_suffixStart :
    endBefore u (head.layout u).suffixStart head.stop conditionEnds =
      (head.layout u).suffixStart := by
  rcases h.suffixStart_eq_or with heq | ⟨k, hkmem, r, hr, hk, heq⟩
  · refine Nat.le_antisymm ?_ (le_endBefore u (h.stop_eq ▸ h.suffixStart_le_length) conditionEnds)
    rw [heq, ← h.stop_eq]
    exact endBefore_le _ _ _ _
  · have hle := h.suffixStart_le_length
    obtain ⟨x, m, rest, hu, rfl, hscan, ⟨k', hk', hafter⟩, -⟩ := exists_of_mem_keywordSpans hk hr
    obtain rfl : k' = k := by simpa using hk'
    rw [heq] at hle ⊢
    simp only [Nat.zero_add, Option.or_none] at hafter hle ⊢
    subst hu
    rw [h.stop_eq]
    exact endBefore_of_after? (by decide) hkmem hscan hafter hle

/-! ## Fronts -/

/-- A search in front of the part that orders the rows, in the front without the blanks at its
end. -/
theorem firstFrom_front {k : Keyword} (hk : k.IsPlain) (a : Nat) :
    firstFrom a (keywordSpans [k] .top 0 none
      (Text.trimEnd (u.take (head.layout u).suffixStart))) =
        keywordBetween? u a (head.layout u).suffixStart k := by
  obtain ⟨ws, hws, hsplit⟩ := Text.exists_trimEnd_append_blank (u.take (head.layout u).suffixStart)
  have hks : ArePlain [k] := by simpa [ArePlain] using hk
  rw [keywordBetween?_eq_firstFrom_take hk h.isCut_suffixStart h.suffixStart_le_length,
    ← keywordSpans_append_blank hks _ hws, hsplit]

/-- The first OPTION behind FROM starts the hints. -/
theorem hintsWord?_of_firstFrom {r : Span}
    (hr : firstFrom (f + 4) (keywordSpans [.option] .top 0 none u) = some r)
    (hlt : r.start < u.length) : head.hintsWord? u = some r := by
  rw [hintsWord?, h.clausesStart_eq, keywordBetween?_eq_firstFrom, hr, Option.filter_some, if_pos]
  rwa [h.stop_eq, decide_eq_true_eq]

/-- Where the part that orders the rows ends, no hints have started yet. -/
theorem hints_none : keywordBetween? u (f + 4) (head.orderStop u) .option = none := by
  have hle := h.orderStop_le_length
  rw [keywordBetween?_eq_firstFrom, Option.filter_eq_none_iff]
  intro r hr hlt
  have hlt' : r.start < head.orderStop u := by simpa using hlt
  have hword := h.hintsWord?_of_firstFrom hr (hlt'.trans_le hle)
  rw [orderStop, hword] at hlt'
  exact absurd hlt' (Nat.lt_irrefl _)

/-- An ORDER BY in front of the part that orders the rows would be the one that starts it. -/
theorem order_none :
    keywordBetween? u (f + 4) (head.layout u).suffixStart .orderBy = none := by
  have hle := h.suffixStart_le_orderStop
  rw [keywordBetween?_eq_firstFrom, Option.filter_eq_none_iff]
  intro r hr hlt
  have hlt' : r.start < (head.layout u).suffixStart := by simpa using hlt
  have hwords : head.orderWords? u = some r := by
    rw [orderWords?, h.clausesStart_eq, keywordBetween?_eq_firstFrom, hr, Option.filter_some,
      if_pos]
    simp only [decide_eq_true_eq]
    omega
  rw [h.sound.suffixStart_eq, hwords] at hlt'
  exact absurd hlt' (Nat.lt_irrefl _)

/-- What stands in front of the part that orders the rows ends at the top level. -/
theorem isBody_front : IsBody (Text.trimEnd (u.take (head.layout u).suffixStart)) := by
  obtain ⟨ws, hws, hsplit⟩ := Text.exists_trimEnd_append_blank (u.take (head.layout u).suffixStart)
  refine ⟨Text.trimEnd_trimEnd _, ?_, ?_⟩
  · have hclosed := h.isClosed_take_suffixStart
    rw [Text.IsClosed, ← hsplit, scan_append, scan_of_blank hws] at hclosed
    exact hclosed
  · have hnone := h.body.semicolon_eq
    rw [← List.take_append_drop (head.layout u).suffixStart u, ← hsplit, List.append_assoc,
      semicolonFrom?_append, Option.or_eq_none_iff] at hnone
    exact hnone.1

/-- What stands in front of the part that orders the rows is a front. -/
theorem isFront :
    IsFront (Text.trimEnd (u.take (head.layout u).suffixStart)) head.start f := by
  have hle := h.suffixStart_le_orderStop
  have hfour := h.le_suffixStart
  refine ⟨h.isBody_front, ?_, ?_, ?_⟩
  · -- FROM is found in the statement, and it stands in the front.
    rw [h.firstFrom_front (by decide), keywordBetween?_eq_firstFrom]
    have hsource := h.source_eq
    rw [source?, keywordBetween?_eq_firstFrom] at hsource
    obtain ⟨hfirst, -⟩ := Option.filter_eq_some_iff.1 hsource
    rw [hfirst, Option.filter_some, if_pos]
    simp only [decide_eq_true_eq]
    omega
  · rw [h.firstFrom_front (by decide), h.order_none]
  · rw [h.firstFrom_front (by decide)]
    exact keywordBetween?_eq_none_of_le hle h.hints_none

/-! ## Clauses that are kept -/

theorem isClosed_take_orderStop : Text.IsClosed (u.take (head.orderStop u)) := by
  rw [orderStop]
  cases hw : head.hintsWord? u with
  | none =>
    rw [Option.elim_none, h.stop_eq, List.take_length]
    exact h.body.closed
  | some word => exact isClosed_take_of_mem (by decide) (mem_of_keywordBetween? hw).1

/-- The stretch of the paging starts with OFFSET and ends where the order does. -/
theorem exists_of_paging? {s : Span} (hs : s ∈ head.paging? u) :
    ∃ word ∈ keywordSpans [.offset] .top 0 none u, f + 4 ≤ word.start ∧
      word.start < head.orderStop u ∧ s = Span.trim ⟨word.start, head.orderStop u⟩ u := by
  obtain ⟨words, hwords, hs⟩ := Option.bind_eq_some_iff.1 hs
  obtain ⟨word, hword, rfl⟩ := Option.map_eq_some_iff.1 hs
  obtain ⟨hmem, hle, hlt⟩ := mem_of_keywordBetween? hword
  have hbounds := h.sound.orderWords?_bounds hwords
  rw [h.clausesStart_eq] at hbounds
  exact ⟨word, hmem, by omega, hlt, rfl⟩

/-- The stretch of the hints starts with OPTION and ends with the statement. -/
theorem exists_of_hints {s : Span} (hs : s ∈ (head.layout u).hints) :
    ∃ word ∈ keywordSpans [.option] .top 0 none u, f + 4 ≤ word.start ∧
      word.start < u.length ∧ s = Span.trim ⟨word.start, u.length⟩ u := by
  obtain ⟨word, hword, rfl⟩ := Option.map_eq_some_iff.1 hs
  obtain ⟨hmem, hle, hlt⟩ := mem_of_keywordBetween? hword
  rw [h.clausesStart_eq] at hle
  rw [h.stop_eq] at hlt
  exact ⟨word, hmem, hle, hlt, by rw [h.stop_eq]⟩

/-- The keywords of a clause that is kept are keywords of the statement behind FROM. -/
theorem mem_keywordSpans_of_kept {ks : List Keyword} (hks : ArePlain ks) {s q : Span}
    (hs : s ∈ head.paging? u ∨ s ∈ (head.layout u).hints)
    (hq : q ∈ keywordSpans ks .top 0 none (s.slice u)) :
    ∃ n, f + 4 ≤ n ∧ q.map (· + n) ∈ keywordSpans ks .top 0 none u := by
  rcases hs with hs | hs
  · obtain ⟨word, hmem, hle, hlt, rfl⟩ := h.exists_of_paging? hs
    exact ⟨word.start, hle, (mem_keywordSpans_of_clause (by decide) hmem h.sound.isCut_orderStop hlt
      h.orderStop_le_length hks hq).1⟩
  · obtain ⟨word, hmem, hle, hlt, rfl⟩ := h.exists_of_hints hs
    exact ⟨word.start, hle, (mem_keywordSpans_of_clause (by decide) hmem
      (h.stop_eq ▸ h.sound.isCut_stop) hlt (Nat.le_refl _) hks hq).1⟩

/-- There are no hints in the paging. -/
theorem keywordSpans_option_paging {s : Span} (hs : s ∈ head.paging? u) :
    keywordSpans [.option] .top 0 none (s.slice u) = [] := by
  obtain ⟨word, hmem, hle, hlt, rfl⟩ := h.exists_of_paging? hs
  rw [List.eq_nil_iff_forall_not_mem]
  intro q hq
  obtain ⟨hq', hstop⟩ := mem_keywordSpans_of_clause (by decide) hmem h.sound.isCut_orderStop hlt
    h.orderStop_le_length (by decide) hq
  -- The hints are the first OPTION behind FROM, and the paging ends in front of them.
  have hbounds := bounds_of_mem_keywordSpans (by decide) hq
  have hstart := start_lt_of_keywordBetween?_eq_none (by decide) h.sound.isCut_orderStop
    h.orderStop_le_length h.hints_none hq' (by simp only [Span.map]; omega)
  simp only [Span.map] at hstart
  omega

/-- A statement falls into the parts of which one with a new order is made. -/
theorem isReordered {c : Text} (hc : IsOrderList c) :
    IsReordered (Text.trimEnd (u.take (head.layout u).suffixStart)) c
      ((head.layout u).paging.map (·.slice u)) ((head.layout u).hints.map (·.slice u))
      head.start f := by
  refine ⟨h.isFront, hc, ?_, ?_⟩
  · -- The paging clause goes up to the end of ORDER BY, the hints up to the end of the statement.
    intro y hy
    obtain ⟨s, hs, rfl⟩ := Option.map_eq_some_iff.1 hy
    refine ⟨?_, h.keywordSpans_option_paging hs⟩
    obtain ⟨word, hmem, -, hlt, rfl⟩ := h.exists_of_paging? hs
    exact isKept_slice_trim (by decide) hmem h.sound.isCut_orderStop hlt h.orderStop_le_length
      h.isClosed_take_orderStop h.body.semicolon_eq
  · intro y hy
    obtain ⟨s, hs, rfl⟩ := Option.map_eq_some_iff.1 hy
    obtain ⟨word, hmem, -, hlt, rfl⟩ := h.exists_of_hints hs
    refine isKept_slice_trim (by decide) hmem (h.stop_eq ▸ h.sound.isCut_stop) hlt (Nat.le_refl _)
      ?_ h.body.semicolon_eq
    rw [List.take_length]
    exact h.body.closed

end Selects

end Head

end LooseSql
