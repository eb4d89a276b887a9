import LooseSql.Proofs.Clause.HeadEnd
import LooseSql.Proofs.Clause.NewHead
import LooseSql.Proofs.Comment
import LooseSql.Proofs.Selection.Basic

/-!
# The list of a selection

A selection falls into its head, its list, blanks, and the text from FROM on. Where the list starts
at the top level, it can be read behind another head as well (`Head.Starts.isList`), and the parts
of the selection are those that `Selection.Parts` names (`Selection.exists_parts`).
-/

namespace LooseSql

/-! ## Modifiers in front of a list -/

namespace Modifier

theorem read?_append_of_blank {ws : Text} (hws : ∀ c ∈ ws, isBlank c) (t : Text) :
    read? (ws ++ t) = read? t := by
  rw [read?, read?, Text.trimStart_append_of_blank hws]

/-- Whether a text starts with a modifier does not depend on what follows it. -/
theorem read?_eq_none_of_seam {x v v' : Text} (hx : x.IsClosed) (hv : Modifiers.Seam x v)
    (hv' : Modifiers.Seam x v') (hopen : v.trimStart.head? ≠ some '(')
    (hopen' : v'.trimStart.head? ≠ some '(') (h : read? (x ++ v) = none) :
    read? (x ++ v') = none := by
  have hfits : TopFits x v :=
    topFits_of_scan (s := .top) (Or.inl rfl) hx (fun heq => absurd heq hopen)
      fun _ _ hread => by simp [h] at hread
  have hfits' : TopFits x v' := fun r hr => ⟨fun _ => hopen', (hfits r hr).2⟩
  rw [read?_append hv hfits, Option.map_eq_none_iff] at h
  rw [read?_append hv' hfits', h]
  rfl

end Modifier

/-- Modifiers are read until none follows. -/
theorem Modifiers.Reads.read?_eq_none {modifiers modifiers' : Modifiers} {t t' : Text}
    (h : Reads modifiers t modifiers' t') : Modifier.read? t' = Option.none := by
  induction h with
  | stop h => exact h
  | step _ _ ih => exact ih

/-! ## The list behind its head -/

section List

variable {x ws y gap v : Text}

namespace Head.Starts

variable {body rest : Text} {head : Head}
  (h : head.Starts (x ++ (ws ++ (y ++ (gap ++ v)))) body rest) (hstart : head.start = x.length)
  (hws : ∀ c ∈ ws, isBlank c) (hgap : ∀ c ∈ gap, isBlank c)

include h hstart hws

/-- No keyword at the head of the list goes on with a word of the head. -/
theorem not_isWordChar (halpha : ∃ c ∈ y.head?, c.isAlpha = true) :
    (x ++ ws).getLast?.any isWordChar = false := by
  obtain ⟨raw, hraw, c, hc, hend⟩ := h.endsAt
  have hrest := h.rest_eq
  rw [hstart, List.drop_left] at hrest
  rw [← hrest] at hraw hend
  obtain rfl := List.append_cancel_right hraw
  rcases ws.eq_nil_or_concat with rfl | ⟨ws', d, rfl⟩
  · -- The list follows without a blank, and no letter goes on with the end of the head.
    rw [List.append_nil, Option.mem_def.1 hc, Option.any_some]
    rcases hend with rfl | ⟨-, hend⟩
    · decide
    · obtain ⟨d, hd, halpha⟩ := halpha
      have hd' : d ∈ ([] ++ (y ++ (gap ++ v))).head? := by
        rw [List.nil_append, List.head?_append, Option.mem_def.1 hd]
        rfl
      simp [hend d hd'] at halpha
  · have hblank := isWordChar_of_isBlank (hws d (by simp))
    simpa [List.getLast?_append] using hblank

include hgap

/-- The word FROM does not stand in the list, if it is looked for from the end of the head on. -/
theorem keywordSpans_list (hx : Text.IsClosed (x ++ ws))
    (hfirst : ∀ r ∈ keywordSpans [.source] .top 0 none (x ++ ws ++ (y ++ gap)),
      r.start < x.length) : keywordSpans [.source] .top 0 none y = [] := by
  rw [List.eq_nil_iff_forall_not_mem]
  intro r hr
  obtain ⟨u, m, rest', rfl, -, hu, ⟨k, hk, hafter⟩, hm, -⟩ :=
    exists_of_mem_keywordSpans (by decide) hr
  obtain rfl : k = .source := by simpa using hk
  rw [Option.or_none] at hafter
  -- A word FROM in the list would be one of the whole text, behind the end of the head.
  have hclosed : Text.IsClosed (x ++ ws ++ u) := by
    rw [Text.IsClosed, scan_append, hx.scan_eq, hu]
  -- The word in front of it is the same one in the whole text, or else it ends with the head.
  have hbefore : (x ++ ws ++ u).getLast?.any isWordChar = u.getLast?.any isWordChar := by
    rcases u with _ | ⟨c, u⟩
    · obtain ⟨c, hc, halpha⟩ := hm
      rw [List.append_nil, h.not_isWordChar hstart hws
        ⟨c, by rw [List.nil_append, List.head?_append, Option.mem_def.1 hc]; rfl, halpha⟩]
      rfl
    · rw [List.getLast?_append_of_ne_nil _ (List.cons_ne_nil c u)]
  have hseam : Seam (m ++ rest') gap := by
    refine ⟨fun c _ d hd _ => isWordChar_of_isBlank (hgap d (List.mem_of_mem_head? hd)), Or.inl ?_⟩
    rw [Text.trimStart_eq_nil_iff.2 hgap]
    rfl
  have hne : m ++ rest' ≠ [] := by
    obtain ⟨c, hc, -⟩ := hm
    rintro hnil
    simp [(List.append_eq_nil_iff.1 hnil).1] at hc
  have hafter' : Keyword.after? .source (x ++ ws ++ u).getLast? (m ++ rest' ++ gap) =
      some (rest' ++ gap) := by
    rw [Keyword.after?_append (by decide) hseam hne, Keyword.after?_congr hbefore, hafter]
    rfl
  have hplain : ArePlain [.source] := by decide
  obtain ⟨n, others, hspans⟩ :=
    keywordSpans_of_after? hplain (by simp) hafter' (x ++ ws ++ u).length
  have hmem : (⟨(x ++ ws ++ u).length, n⟩ : Span) ∈
      keywordSpans [.source] .top 0 none (x ++ ws ++ (u ++ (m ++ rest') ++ gap)) := by
    rw [List.append_assoc u, ← List.append_assoc (x ++ ws),
      keywordSpans_append (by decide) (seam_of_after? (by decide) hafter'),
      hclosed.scan_eq, Option.or_none, Nat.zero_add, hspans]
    exact List.mem_append_right _ List.mem_cons_self
  have hlt := hfirst _ hmem
  simp only [List.length_append] at hlt
  omega

/-- Behind a closed head, the text in front of FROM is a list. -/
theorem isList (hne : y ≠ []) (htrim : y.trim = y) (hx : Text.IsClosed (x ++ ws))
    (hy : Text.IsClosed y)
    (hsemicolon : semicolonFrom? .top 0 (x ++ (ws ++ (y ++ (gap ++ v)))) = none)
    (hv : (Keyword.after? .source (y ++ gap).getLast? v).isSome)
    (hfirst : ∀ r ∈ keywordSpans [.source] .top 0 none (x ++ ws ++ (y ++ gap)),
      r.start < x.length) : IsList y where
  ne_nil := hne
  trim_eq := htrim
  closed := hy
  semicolon_eq := by
    rw [← List.append_assoc, semicolonFrom?_append, Option.or_eq_none_iff,
      hx.scan_eq, semicolonFrom?_add, Option.map_eq_none_iff]
      at hsemicolon
    have hlist := hsemicolon.2
    rw [semicolonFrom?_append, Option.or_eq_none_iff] at hlist
    exact hlist.1
  source_eq := h.keywordSpans_list hstart hws hgap hx hfirst
  -- No modifier follows the head, and FROM ends the list in the new text as in the old one.
  read_eq := by
    intro r hr
    obtain ⟨rest', hrest'⟩ := Option.isSome_iff_exists.1 hv
    obtain ⟨rest'', hrest''⟩ := Option.isSome_iff_exists.1 hr
    obtain ⟨hseam, hopen⟩ := Head.modifiersSeam_of_source gap hgap hrest'
    obtain ⟨hseam', hopen'⟩ :=
      Head.modifiersSeam_of_source (x := y) [' '] (by decide) (by simpa using hrest'')
    have hrest := h.rest_eq
    rw [hstart, List.drop_left] at hrest
    have hread := h.reads.read?_eq_none
    rw [← hrest, Modifier.read?_append_of_blank hws] at hread
    exact Modifier.read?_eq_none_of_seam hy hseam hseam' hopen hopen' hread

end Head.Starts

end List

/-! ## The parts of a selection -/

namespace Selection

/-- What stands in front of the list of a selection, and the blanks between the list and FROM. -/
structure Parts (s : Selection) (front gap : Text) : Prop where
  /-- With the list and the text from FROM on they make up the text. -/
  text_eq : s.text = front ++ (s.list ++ (gap ++ s.fromSource))
  /-- Only blanks stand between the list and FROM. -/
  isBlank_gap : ∀ c ∈ gap, isBlank c
  /-- The list starts at the top level. -/
  closed : front.IsClosed
  /-- It can be read behind another head. -/
  isList : IsList s.list
  /-- The word FROM follows. -/
  source_isSome : (Keyword.after? .source (s.list ++ gap).getLast? s.fromSource).isSome
  /-- No quote and no comment mark goes on into the list. -/
  not_joins : ∀ c ∈ front.getLast?, ∀ d, ¬ Joins c d

/-- No mark goes on from the end of a head, or from a blank behind it. -/
theorem not_joins_of_endsAt {x ws rest : Text} (h : EndsAt (x ++ rest) rest)
    (hws : ∀ c ∈ ws, isBlank c) : ∀ c ∈ (x ++ ws).getLast?, ∀ d, ¬ Joins c d := by
  intro c hc d
  refine not_joins_of_not_mem (Or.inl ?_)
  rcases ws.eq_nil_or_concat with rfl | ⟨ws', e, rfl⟩
  · obtain ⟨raw, hraw, c', hc', hend⟩ := h
    obtain rfl := List.append_cancel_right hraw
    rw [List.append_nil] at hc
    obtain rfl := Option.mem_unique hc hc'
    rcases hend with rfl | ⟨hend, -⟩
    · decide
    · exact not_mem_pieceMarks_of_isWordChar hend
  · rw [List.concat_eq_append, ← List.append_assoc, List.getLast?_concat] at hc
    obtain rfl : e = c := by simpa using hc
    exact not_mem_pieceMarks_of_isBlank (hws e (by simp))

/-- The statement of a selection is its head `x`, the list with blanks around it, and the text `v`
from FROM on. -/
structure Split (s : Selection) (x ws gap v : Text) : Prop where
  /-- The parts stand one behind another. -/
  body_eq : s.body = x ++ (ws ++ (s.list ++ (gap ++ v)))
  /-- The last part starts with FROM. -/
  sourceStart_eq : s.sourceStart = (x ++ ws ++ (s.list ++ gap)).length
  /-- The list stands behind the head and blanks. -/
  listStart_eq : s.layout.list.start = (x ++ ws).length
  /-- Blanks stand in front of the list. -/
  isBlank_ws : ∀ c ∈ ws, isBlank c
  /-- Blanks stand behind the list. -/
  isBlank_gap : ∀ c ∈ gap, isBlank c
  /-- The list is not empty. -/
  list_ne_nil : s.list ≠ []
  /-- The list is trimmed. -/
  trim_list : s.list.trim = s.list

namespace Split

variable {s : Selection} {x ws gap v : Text} (h : s.Split x ws gap v)

include h

theorem take_body : s.body.take s.sourceStart = x ++ ws ++ (s.list ++ gap) := by
  rw [h.sourceStart_eq, h.body_eq]
  simp only [← List.append_assoc, List.take_left]

theorem drop_body : s.body.drop s.sourceStart = v := by
  rw [h.sourceStart_eq, h.body_eq]
  simp only [← List.append_assoc, List.drop_left]

theorem text_eq : s.text = x ++ ws ++ (s.list ++ (gap ++ (v ++ s.remainder))) := by
  rw [← s.body_append_remainder, h.body_eq]
  simp

theorem fromSource_eq : s.fromSource = v ++ s.remainder := by
  have hle : s.sourceStart ≤ s.body.length := by
    rw [h.sourceStart_eq, h.body_eq]
    simp only [List.length_append]
    omega
  rw [fromSource, ← s.body_append_remainder, List.drop_append_of_le_length hle, h.drop_body]

end Split

theorem exists_split {s : Selection} {head : Head} (hbetween : head.start ≤ s.sourceStart)
    (hend : s.sourceStart ≤ s.body.length)
    (hlayout : s.layout.list = Span.trim ⟨head.start, s.sourceStart⟩ s.body) :
    ∃ x ws gap v : Text, s.Split x ws gap v ∧ x.length = head.start := by
  obtain ⟨ws, y, gap, hslice, hws, hgap, htrimStart, htrimEnd, hempty⟩ :=
    Span.exists_slice_eq ⟨head.start, s.sourceStart⟩ s.body
  have hlist : s.layout.list = ⟨head.start + ws.length, head.start + ws.length + y.length⟩ :=
    hlayout.trans (Span.trim_of_slice_eq hslice hws hgap htrimStart htrimEnd hempty)
  have hne : y ≠ [] := by
    have hnonempty := s.list_nonempty
    rintro rfl
    simp [hlist, Span.isEmpty] at hnonempty
  generalize hx : s.body.take head.start = x
  generalize hv : s.body.drop s.sourceStart = v
  have hxlen : x.length = head.start := by
    rw [← hx, List.length_take]
    omega
  have hbody : s.body = x ++ (ws ++ (y ++ (gap ++ v))) := by
    have h := Span.take_append_slice_append_drop (s := ⟨head.start, s.sourceStart⟩) hbetween s.body
    rw [hslice, hx, hv] at h
    simpa using h.symm
  have hlist' : s.list = y := by
    have htext : s.text = x ++ ws ++ (y ++ (gap ++ v ++ s.remainder)) := by
      rw [← s.body_append_remainder, hbody]
      simp
    rw [Statement.list, hlist]
    exact Span.slice_of_eq_append htext (by simp [hxlen]) rfl
  -- Only the length of the stretch is left: the blanks, the list and the gap fill it.
  subst hlist'
  refine ⟨x, ws, gap, v, ⟨hbody, ?_, by simp [hlist, hxlen], hws, hgap, hne,
    Text.trim_eq_self_iff.2 ⟨htrimStart, htrimEnd⟩⟩, hxlen⟩
  have h := congrArg List.length hslice
  rw [Span.length_slice (by simp only; omega)] at h
  simp only [List.length_append] at h ⊢
  omega

/-- The parts of a selection whose list starts at the top level. -/
theorem exists_parts {s : Selection} (hs : Text.IsClosed (s.text.take s.layout.list.start)) :
    ∃ front gap, s.Parts front gap := by
  obtain ⟨head, body, rest, hstarts, hsound, hstop, hsource, hlayout⟩ := s.exists_head
  obtain ⟨hbetween, -, hend⟩ := hsound.source?_bounds hsource
  simp only at hbetween hend
  have hlist : s.layout.list = Span.trim ⟨head.start, s.sourceStart⟩ s.body := by
    rw [← hlayout, Head.layout_list, Head.listStop, hsource, Option.elim_some]
  obtain ⟨x, ws, gap, v, h, hxlen⟩ := exists_split hbetween (by omega) hlist
  rw [Head.source?, hstop] at hsource
  have hfront : Text.IsClosed (x ++ ws) := by
    rwa [h.listStart_eq, h.text_eq, List.take_left] at hs
  -- The word FROM stands at the top level, so the list comes back to it.
  have hmem := (mem_of_keywordBetween? hsource).1
  have hclosed := isClosed_take_of_mem (by decide) hmem
  have hword := after?_isSome_of_mem (by decide) hmem
  simp only at hclosed hword
  rw [h.take_body, h.drop_body, List.getLast?_append_of_ne_nil _ (by simp [h.list_ne_nil])] at hword
  have hy : s.list.IsClosed := by
    rwa [h.take_body, Text.IsClosed, scan_append, hfront.scan_eq, scan_append,
      scan_of_blank h.isBlank_gap] at hclosed
  refine ⟨x ++ ws, gap, ⟨h.fromSource_eq ▸ h.text_eq, h.isBlank_gap, hfront, ?_, ?_, ?_⟩⟩
  · refine (h.body_eq ▸ hstarts).isList hxlen.symm h.isBlank_ws h.isBlank_gap h.list_ne_nil
      h.trim_list hfront hy ?_ hword ?_
    · rw [← h.body_eq]
      exact s.isStatement.semicolon_eq
    · rw [← h.take_body, hxlen]
      exact fun r hr => start_lt_of_mem_take (by decide) hsource hr
  · have hvne : v ≠ [] := by
      rw [← h.drop_body, Ne, List.drop_eq_nil_iff]
      omega
    have hseam : Seam v s.remainder := by
      refine Seam.of_append (u := s.body.take s.sourceStart) ?_
      rw [← h.drop_body, List.take_append_drop]
      exact s.isStatement.seam
    rwa [h.fromSource_eq, Keyword.after?_append (by decide) hseam hvne, Option.isSome_map]
  · have hends := hstarts.endsAt
    have hrest := hstarts.rest_eq
    rw [h.body_eq, ← hxlen, List.drop_left] at hrest
    rw [h.body_eq, hrest] at hends
    exact not_joins_of_endsAt hends h.isBlank_ws

end Selection

end LooseSql
