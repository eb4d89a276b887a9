import LooseSql.Proofs.Clause.Bounds
import LooseSql.Proofs.Keyword.Stands

/-!
# The ends of the clauses

A clause is cut off at a search, and then its blanks are trimmed. What comes out holds none of the
keywords that can end it, and behind it, blanks apart, comes one of them or the end of the
statement. `Layout.Delimited` says so for every clause of a layout by where the keywords stand in
the text, without a search.

* `endBefore_spec`, `isFirst_of_keywordBetween?`, `isFree_of_keywordBetween?_eq_none`: the searches;
* `IsTerminated.trim`: a stretch that is cut off at a terminator keeps it when it is trimmed;
* `Layout.delimited_of_locate?`: the clauses of every layout that is found.
-/

namespace LooseSql

/-! ## Stretches without keywords -/

namespace IsFree

variable {ks : List Keyword} {t : Text} {a b c : Nat}

theorem mono {s s' : Span} (h : IsFree ks t s) (hstart : s.start ≤ s'.start)
    (hstop : s'.stop ≤ s.stop) : IsFree ks t s' :=
  fun k hk i hle hlt => h k hk i (hstart.trans hle) (Nat.lt_of_lt_of_le hlt hstop)

theorem append (h : IsFree ks t ⟨a, b⟩) (h' : IsFree ks t ⟨b, c⟩) : IsFree ks t ⟨a, c⟩ := by
  intro k hk i hle hlt
  rcases Nat.lt_or_ge i b with hib | hib
  · exact h k hk i hle hib
  · exact h' k hk i hib hlt

end IsFree

/-- Where a keyword stands, the text goes on with a letter. -/
theorem Keyword.StandsAt.exists_drop_eq {k : Keyword} (hk : k.IsLetters) {t : Text} {i : Nat}
    (h : k.StandsAt t i) : ∃ c r, t.drop i = c :: r ∧ c.isAlpha = true := by
  obtain ⟨u, m, v, rfl, rfl, hstands⟩ := h
  obtain ⟨c, m, rfl, hc⟩ := hstands.spells.exists_cons hk
  exact ⟨c, m ++ v, by rw [List.drop_left, List.cons_append], hc⟩

/-- No keyword starts among blanks. -/
theorem isFree_of_isBlank {ks : List Keyword} (hks : ArePlain ks) {t : Text} {s : Span}
    (h : ∀ c ∈ s.slice t, isBlank c) : IsFree ks t s := by
  intro k hk i hle hlt hstands
  obtain ⟨c, r, hdrop, hc⟩ := hstands.exists_drop_eq (hks k hk).isLetters
  obtain ⟨n, rfl⟩ := Nat.exists_eq_add_of_le hle
  -- The letter at which the keyword starts would be one of the blanks.
  have hmem : c ∈ s.slice t := by
    have hget : (s.slice t)[n]? = some c := by
      rw [Span.slice, List.getElem?_take_of_lt (by omega), List.getElem?_drop,
        ← List.head?_drop, hdrop, List.head?_cons]
    exact List.mem_of_getElem? hget
  exact absurd (h c hmem) (by simp [isBlank_of_isAlpha hc])

/-- A stretch that starts with a keyword has no blanks to trim there. -/
theorem start_trim_of_standsAt {k : Keyword} (hk : k.IsLetters) {t : Text} {s : Span}
    (h : k.StandsAt t s.start) (hlt : s.start < s.stop) : (s.trim t).start = s.start := by
  obtain ⟨c, r, hdrop, hc⟩ := h.exists_drop_eq hk
  obtain ⟨n, hn⟩ := Nat.exists_eq_add_of_lt hlt
  have hslice : s.slice t = c :: r.take n := by
    rw [Span.slice, hdrop, hn, show s.start + n + 1 - s.start = n + 1 by omega,
      List.take_succ_cons]
  have htrim : Text.trimStart (s.slice t) = s.slice t := by
    rw [Text.trimStart_eq_self_iff, hslice]
    rintro _ ⟨⟩
    exact isBlank_of_isAlpha hc
  simp only [Span.trim, htrim, Nat.sub_self, Nat.add_zero]

/-! ## Searches -/

section Searches

variable {t : Text} {a b : Nat}

theorem isFirst_of_keywordBetween? {k : Keyword} (hk : k.IsPlain) {r : Span}
    (h : keywordBetween? t a b k = some r) : IsFirst [k] t a r.start ∧ r.start < b := by
  rw [keywordBetween?, findKeyword_eq_findAnyKeyword, Option.filter_eq_some_iff] at h
  exact ⟨isFirst_of_findAnyKeyword (by simpa [ArePlain] using hk) h.1, by simpa using h.2⟩

/-- Up to the limit of a search none of the keywords stands in front of what is found. -/
theorem isFree_of_filter_eq_none {ks : List Keyword} (hks : ArePlain ks)
    (h : (findAnyKeyword t a ks).filter (fun word => decide (word.start < b)) = none) :
    IsFree ks t ⟨a, b⟩ := by
  cases hfind : findAnyKeyword t a ks with
  | none => exact fun k hk i hle _ => (findAnyKeyword_eq_none_iff hks).1 hfind k hk i hle
  | some r =>
    rw [hfind, Option.filter_eq_none_iff] at h
    exact (isFirst_of_findAnyKeyword hks hfind).isFree.mono (Nat.le_refl a) (by simpa using h r rfl)

theorem isFree_of_keywordBetween?_eq_none {k : Keyword} (hk : k.IsPlain)
    (h : keywordBetween? t a b k = none) : IsFree [k] t ⟨a, b⟩ := by
  rw [keywordBetween?, findKeyword_eq_findAnyKeyword] at h
  exact isFree_of_filter_eq_none (by simpa [ArePlain] using hk) h

/-- None of the keywords stands in front of the place that `endBefore` gives, and one of them stands
there unless it is the limit. -/
theorem endBefore_spec {ks : List Keyword} (hks : ArePlain ks) (t : Text) (a b : Nat) :
    IsFree ks t ⟨a, endBefore t a b ks⟩ ∧
      (endBefore t a b ks = b ∨ ∃ k ∈ ks, k.StandsAt t (endBefore t a b ks)) := by
  rw [endBefore]
  cases h : (findAnyKeyword t a ks).filter fun word => decide (word.start < b) with
  | none => exact ⟨isFree_of_filter_eq_none hks h, Or.inl rfl⟩
  | some r =>
    have hfirst := isFirst_of_findAnyKeyword hks (Option.filter_eq_some_iff.1 h).1
    exact ⟨hfirst.isFree, Or.inr hfirst.stands⟩

end Searches

/-! ## Terminators -/

/-- The span holds none of the keywords, and behind it, blanks apart, comes the place `e`. -/
structure IsDelimited (ks : List Keyword) (t : Text) (s : Span) (e : Nat) : Prop where
  /-- None of the keywords starts in the span. -/
  isFree : IsFree ks t s
  /-- The place is not in front of the end of the span. -/
  le : s.stop ≤ e
  /-- Only blanks stand between the two. -/
  isBlank_gap : ∀ c ∈ Span.slice ⟨s.stop, e⟩ t, isBlank c = true

/-- The span holds none of the keywords, and behind it, blanks apart, comes one of them or the end
of the statement. -/
def IsTerminated (ks : List Keyword) (t : Text) (stop : Nat) (s : Span) : Prop :=
  ∃ e, IsDelimited ks t s e ∧ (e = stop ∨ ∃ k ∈ ks, k.StandsAt t e)

/-- A stretch in which no keyword stands is delimited by its end once it is trimmed. -/
theorem IsFree.isDelimited_trim {ks : List Keyword} {t : Text} {s : Span} (h : IsFree ks t s)
    (hs : s.start ≤ s.stop) : IsDelimited ks t (s.trim t) s.stop where
  isFree := h.mono (s.start_le_start_trim t) (s.stop_trim_le_stop t hs)
  le := s.stop_trim_le_stop t hs
  isBlank_gap := (s.isBlank_around_trim t).2

namespace Layout

/-- The place behind which the clauses stand: the end of the word FROM, or of the list where there
is no FROM. -/
def clausesStart (layout : Layout) : Nat := layout.source.elim layout.list.stop (· + 4)

/-- Each clause of the layout goes up to its next terminator. The modifiers end at `start`. -/
structure Delimited (t : Text) (start : Nat) (layout : Layout) : Prop where
  /-- FROM is the first one behind the modifiers, and it follows the list. -/
  source : ∀ f ∈ layout.source, IsFirst [.source] t start f ∧ IsDelimited [.source] t layout.list f
  /-- Without FROM, the list goes up to the first of the keywords that can end it. -/
  list : layout.source = none → IsTerminated listEnds t layout.stop layout.list
  /-- The condition follows the first WHERE behind FROM, blanks apart. The word stands in front of
  all set operators. -/
  condition_start : ∀ s ∈ layout.condition, ∃ w, IsFirst [.condition] t layout.clausesStart w ∧
    IsFree Keyword.setOperators t ⟨layout.clausesStart, w⟩ ∧ w + 5 ≤ s.start ∧
    ∀ c ∈ Span.slice ⟨w + 5, s.start⟩ t, isBlank c = true
  /-- The condition goes up to the first of the keywords that can end it. -/
  condition : ∀ s ∈ layout.condition, IsTerminated conditionEnds t layout.stop s
  /-- The list behind ORDER BY goes up to OFFSET or OPTION. -/
  orderList : ∀ s ∈ layout.orderList, IsTerminated [.offset, .option] t layout.stop s
  /-- The paging goes up to OPTION. -/
  paging : ∀ s ∈ layout.paging, IsTerminated [.option] t layout.stop s

end Layout

namespace Head

variable {t : Text} {head : Head}

/-! ## The clauses -/

/-- The list goes up to FROM. -/
theorem isDelimited_list {word : Span} (hword : head.source? t = some word) :
    IsFirst [.source] t head.start word.start ∧
      IsDelimited [.source] t (head.layout t).list word.start := by
  have hfirst := (isFirst_of_keywordBetween? (by decide) hword).1
  have hlist : head.listStop t = word.start := by rw [listStop, hword, Option.elim_some]
  refine ⟨hfirst, ?_⟩
  rw [layout_list, hlist]
  exact hfirst.isFree.isDelimited_trim hfirst.le

/-- Up to the end of the part that orders the rows there is no OPTION, and that part ends with one
or with the statement. -/
theorem orderStop_spec (head : Head) (t : Text) :
    IsFree [.option] t ⟨head.clausesStart t, head.orderStop t⟩ ∧
    (head.orderStop t = head.stop ∨ Keyword.StandsAt .option t (head.orderStop t)) := by
  rw [orderStop]
  cases hw : head.hintsWord? t with
  | none => exact ⟨isFree_of_keywordBetween?_eq_none (by decide) hw, Or.inl rfl⟩
  | some word =>
    have hfirst := (isFirst_of_keywordBetween? (by decide) hw).1
    exact ⟨hfirst.isFree, Or.inr (by simpa using hfirst.stands)⟩

/-- The list behind ORDER BY goes up to the place at which OFFSET stands, or else to the end of the
part that orders the rows. -/
theorem orderListStop_spec {words : Span} (hwords : head.orderWords? t = some words) :
    IsFree [.offset] t ⟨words.stop, (head.paging? t).elim (head.orderStop t) (·.start)⟩ ∧
      ((head.paging? t).elim (head.orderStop t) (·.start) = head.orderStop t ∨
        Keyword.StandsAt .offset t ((head.paging? t).elim (head.orderStop t) (·.start))) := by
  cases hoffset : keywordBetween? t words.stop (head.orderStop t) .offset with
  | none =>
    have hpaging : head.paging? t = none := by
      rw [paging?, hwords, Option.bind_some, hoffset, Option.map_none]
    rw [hpaging]
    exact ⟨isFree_of_keywordBetween?_eq_none (by decide) hoffset, Or.inl rfl⟩
  | some word =>
    obtain ⟨hfirst, hlt⟩ := isFirst_of_keywordBetween? (by decide) hoffset
    have hstands : Keyword.StandsAt .offset t word.start := by simpa using hfirst.stands
    have hpaging : head.paging? t = some (Span.trim ⟨word.start, head.orderStop t⟩ t) := by
      rw [paging?, hwords, Option.bind_some, hoffset, Option.map_some]
    -- The paging starts with a letter, so it is trimmed at its other end only.
    have hstart : (Span.trim ⟨word.start, head.orderStop t⟩ t).start = word.start :=
      start_trim_of_standsAt (k := .offset) (Keyword.IsPlain.isLetters (by decide)) hstands hlt
    rw [hpaging, Option.elim_some, hstart]
    exact ⟨hfirst.isFree, Or.inr hstands⟩

namespace IsSound

variable (h : head.IsSound t)

include h

/-- Without FROM, the list goes up to the first of the keywords that can end it. -/
theorem isTerminated_list (hword : head.source? t = none) :
    IsTerminated listEnds t head.stop (head.layout t).list := by
  obtain ⟨hfree, hends⟩ := endBefore_spec (by decide : ArePlain listEnds) t head.start head.stop
  have hlist : head.listStop t = endBefore t head.start head.stop listEnds := by
    rw [listStop, hword, Option.elim_none]
  rw [layout_list, hlist]
  exact ⟨_, hfree.isDelimited_trim (le_endBefore t h.start_le_stop listEnds), hends⟩

/-- From the list or FROM on only blanks stand in front of the place at which the clauses are looked
for. -/
theorem clausesStart_layout : (head.layout t).clausesStart ≤ head.clausesStart t ∧
    ∀ c ∈ Span.slice ⟨(head.layout t).clausesStart, head.clausesStart t⟩ t, isBlank c = true := by
  cases hs : head.source? t with
  | none =>
    -- Without a FROM the list is trimmed, and only blanks stand between its end and the clauses.
    have hlist : head.clausesStart t = head.listStop t := by
      rw [clausesStart, hs, Option.elim_none]
    have hstop : (head.layout t).clausesStart = (head.layout t).list.stop := by
      rw [Layout.clausesStart, layout_source, hs, Option.map_none, Option.elim_none]
    rw [hlist, hstop, layout_list]
    exact ⟨Span.stop_trim_le_stop ⟨head.start, head.listStop t⟩ t h.start_le_listStop,
      (Span.isBlank_around_trim ⟨head.start, head.listStop t⟩ t).2⟩
  | some word =>
    have hplace : (head.layout t).clausesStart = head.clausesStart t := by
      rw [Layout.clausesStart, layout_source, hs, Option.map_some, Option.elim_some,
        clausesStart, hs, Option.elim_some, (h.source?_bounds hs).2.1]
    rw [hplace]
    simp [Span.slice]

/-- The condition follows the first WHERE, which stands in front of all set operators. -/
theorem exists_isFirst_condition {s : Span} (hs : head.condition? t = some s) :
    ∃ w, IsFirst [.condition] t (head.layout t).clausesStart w ∧
      IsFree Keyword.setOperators t ⟨(head.layout t).clausesStart, w⟩ ∧ w + 5 ≤ s.start ∧
      ∀ c ∈ Span.slice ⟨w + 5, s.start⟩ t, isBlank c = true := by
  rw [condition?, Option.filter_eq_some_iff, Option.map_eq_some_iff] at hs
  obtain ⟨⟨word, hword, rfl⟩, -⟩ := hs
  obtain ⟨hle, hblank⟩ := h.clausesStart_layout
  obtain ⟨hfirst, hlt⟩ := isFirst_of_keywordBetween? (by decide) hword
  have hoperators := (endBefore_spec (by decide : ArePlain Keyword.setOperators) t
    (head.clausesStart t) head.stop).1
  have hstop : word.stop = word.start + 5 :=
    (stop_of_mem_keywordSpans (by decide) (mem_of_keywordBetween? hword).1).1
  -- Blanks bring in no keyword, so the word stays the first one from the place in the layout.
  refine ⟨word.start, ⟨hle.trans hfirst.le, hfirst.stands, ?_⟩, ?_, ?_, ?_⟩
  · exact (isFree_of_isBlank (by decide) hblank).append hfirst.isFree
  · exact (isFree_of_isBlank (by decide) hblank).append
      (hoperators.mono (Nat.le_refl _) (Nat.le_of_lt hlt))
  · rw [← hstop]
    exact Span.start_le_start_trim ⟨word.stop, _⟩ t
  · rw [← hstop]
    exact (Span.isBlank_around_trim ⟨word.stop, _⟩ t).1

theorem isTerminated_condition {s : Span} (hs : head.condition? t = some s) :
    IsTerminated conditionEnds t head.stop s := by
  rw [condition?_eq, Option.filter_eq_some_iff, Option.map_eq_some_iff] at hs
  obtain ⟨⟨stretch, hstretch, rfl⟩, -⟩ := hs
  have hle := (h.conditionStretch?_bounds hstretch).2.1
  obtain ⟨word, -, rfl⟩ := Option.map_eq_some_iff.1 hstretch
  obtain ⟨hfree, hends⟩ := endBefore_spec (by decide : ArePlain conditionEnds) t word.stop head.stop
  exact ⟨_, hfree.isDelimited_trim hle, hends⟩

theorem isTerminated_paging {s : Span} (hs : head.paging? t = some s) :
    IsTerminated [.option] t head.stop s := by
  rw [paging?_eq, Option.map_eq_some_iff] at hs
  obtain ⟨stretch, hstretch, rfl⟩ := hs
  obtain ⟨words, hwords, hword⟩ := Option.bind_eq_some_iff.1 hstretch
  obtain ⟨word, -, rfl⟩ := Option.map_eq_some_iff.1 hword
  obtain ⟨hstart, hle, -⟩ := h.pagingStretch?_bounds hwords hstretch
  obtain ⟨hfree, hends⟩ := orderStop_spec head t
  have hbounds := h.orderWords?_bounds hwords
  have hfree' : IsFree [.option] t ⟨word.start, head.orderStop t⟩ :=
    hfree.mono (by simp only at hstart ⊢; omega) (Nat.le_refl _)
  exact ⟨_, hfree'.isDelimited_trim hle, hends.imp_right fun hstands => ⟨.option, by simp, hstands⟩⟩

theorem isTerminated_orderList {s : Span} (hs : head.orderList? t = some s) :
    IsTerminated [.offset, .option] t head.stop s := by
  rw [orderList?_eq, Option.map_eq_some_iff] at hs
  obtain ⟨stretch, hstretch, rfl⟩ := hs
  obtain ⟨words, hwords, rfl⟩ := Option.map_eq_some_iff.1 hstretch
  obtain ⟨-, hle, -, horderStop⟩ := h.orderListStretch?_bounds hwords hstretch
  obtain ⟨hoption, hends⟩ := orderStop_spec head t
  obtain ⟨hoffset, hends'⟩ := orderListStop_spec hwords
  have hbounds := h.orderWords?_bounds hwords
  -- OFFSET is looked for behind ORDER BY, OPTION behind FROM already.
  have hfree : IsFree [.offset, .option] t
      ⟨words.stop, (head.paging? t).elim (head.orderStop t) (·.start)⟩ := by
    intro k hk i hi hlt
    rcases List.mem_cons.1 hk with rfl | hk
    · exact hoffset .offset (by simp) i hi hlt
    · exact hoption k hk i (by simp only at hi ⊢; omega) (Nat.lt_of_lt_of_le hlt horderStop)
  refine ⟨_, hfree.isDelimited_trim hle, ?_⟩
  rcases hends' with heq | hstands
  · simp only [heq]
    exact hends.imp_right fun hstands => ⟨.option, by simp, hstands⟩
  · exact Or.inr ⟨.offset, by simp, hstands⟩

/-- Each clause of the statement goes up to its next terminator. -/
theorem delimited_layout : (head.layout t).Delimited t head.start where
  source := by
    intro f hf
    obtain ⟨word, hword, rfl⟩ := Option.map_eq_some_iff.1 hf
    exact isDelimited_list hword
  list := fun hs => h.isTerminated_list (by simpa using hs)
  condition_start := fun _ hs => h.exists_isFirst_condition hs
  condition := fun _ hs => h.isTerminated_condition hs
  orderList := fun _ hs => h.isTerminated_orderList hs
  paging := fun _ hs => h.isTerminated_paging hs

end IsSound

end Head

/-! ## Main statement -/

/-- In every layout that is found, each clause goes up to its next terminator or to the end of the
statement `u`, and FROM is the first one behind the word SELECT and its modifiers. -/
theorem Layout.delimited_of_locate? {t : Text} {layout : Layout} (h : locate? t = some layout) :
    ∃ (u w body rest : Text) (head : Head), t = u ++ w ∧ IsStatement u w ∧
      head.Starts u body rest ∧ layout.stop = u.length ∧ layout.modifiers = head.modifiers ∧
      layout.Delimited t head.start := by
  obtain ⟨head, hhead, rfl⟩ := Option.map_eq_some_iff.1 h
  obtain ⟨u, w, body, rest, ht, hstatement, hstarts⟩ := Head.exists_of_locate? hhead
  exact ⟨u, w, body, rest, head, ht, hstatement, hstarts, hstarts.stop_eq, rfl,
    (Head.isSound_of_locate? hhead).delimited_layout⟩

/-- A statement with all clauses, and with keywords in a quote, in a subquery and behind its end. -/
theorem Layout.delimited_of_locate?_all_clauses :
    ∃ layout start,
      locate?
        "SELECT [FROM] FROM t WHERE a IN (SELECT 1 FROM u) ORDER BY a OFFSET 5 ROWS; OPTION".toList
          = some layout ∧
      layout.source = some 14 ∧ layout.condition = some ⟨27, 49⟩ ∧
      layout.orderList = some ⟨59, 60⟩ ∧ layout.paging = some ⟨61, 74⟩ ∧
      layout.Delimited
        "SELECT [FROM] FROM t WHERE a IN (SELECT 1 FROM u) ORDER BY a OFFSET 5 ROWS; OPTION".toList
        start := by
  have h : locate?
      "SELECT [FROM] FROM t WHERE a IN (SELECT 1 FROM u) ORDER BY a OFFSET 5 ROWS; OPTION".toList =
        some ⟨⟨7, 13⟩, some 14, some ⟨27, 49⟩, some 50, some ⟨59, 60⟩, some ⟨61, 74⟩, none, 74,
          .none⟩ := by
    decide
  obtain ⟨u, w, body, rest, head, -, -, -, -, -, hdelimited⟩ := Layout.delimited_of_locate? h
  exact ⟨_, head.start, h, rfl, rfl, rfl, rfl, hdelimited⟩

end LooseSql
