import LooseSql.Proofs.Clause.Front
import LooseSql.Proofs.Selection.Basic

/-!
# Selections in another order

`Selection.toOrderBy` writes a new statement out of four parts of the old one: its front, the
paging, the hints and what follows it. It behaves like an update of the order alone.

* `IsOrderClause`: the lists that can stand behind ORDER BY;
* `Selection.InOrder`: what a statement in another order keeps;
* `Selection.locate?_reordered`: the head of the new statement is the head of the old one;
* `Selection.exists_layout_toOrderBy`: the searches find the four parts again;
* `exists_toOrderBy?`: the new order is there, all else is kept, and the last order given wins.
-/

namespace LooseSql

/-- A list for the order of the rows: a trimmed text that comes back to the top level, without a
semicolon and without a keyword that ends the list or starts a condition. -/
structure IsOrderClause (c : Text) : Prop where
  /-- The list is not empty. -/
  ne_nil : c ≠ []
  /-- There are no blanks around it. -/
  trim_eq : c.trim = c
  /-- The words ORDER BY are not given with it. -/
  order_eq : Keyword.after? .orderBy none c = none
  /-- A scan comes back to the top level. -/
  closed : c.IsClosed
  /-- There is no semicolon at the top level. -/
  semicolon_eq : ∀ p ∈ topLevel c, p.char ≠ ';'
  /-- No other clause starts at the top level. -/
  keyword_eq : ∀ k ∈ orderListEnds, findKeyword c 0 k = none

namespace IsOrderClause

variable {c : Text} (h : IsOrderClause c)

include h

theorem orderListOf_eq : orderListOf c = c := by
  rw [orderListOf, h.trim_eq, h.order_eq]

theorem isOrderList : IsOrderList c := by
  refine ⟨⟨h.ne_nil, h.trim_eq, h.closed, ?_⟩, ?_⟩
  · rw [← find?_semicolon_topLevelFrom .top 0 none c, Option.map_eq_none_iff, List.find?_eq_none]
    intro p hp
    simpa using h.semicolon_eq p hp
  · intro k hk
    have hnone := h.keyword_eq k hk
    rw [findKeyword_eq_findAnyKeyword, findAnyKeyword_eq, List.find?_eq_none] at hnone
    rw [List.eq_nil_iff_forall_not_mem]
    intro r hr
    exact absurd (hnone r hr) (by simp)

end IsOrderClause

namespace Selection

variable (s : Selection) {c : Text}

/-! ## The parts of the new statement -/

/-- The part of the statement in front of its order. -/
def front : Text := Text.trimEnd (s.body.take s.layout.suffixStart)

/-- The paging as it stands in the text. -/
def pagingText : Option Text := s.layout.paging.map (·.slice s.text)

/-- The hints as they stand in the text. -/
def hintsText : Option Text := s.layout.hints.map (·.slice s.text)

theorem pagingText_eq : s.pagingText = s.layout.paging.map (·.slice s.body) :=
  (s.map_slice_body _ (by simp [Layout.clauses])).symm

theorem hintsText_eq : s.hintsText = s.layout.hints.map (·.slice s.body) :=
  (s.map_slice_body _ (by simp [Layout.clauses])).symm

/-- The front, cut out of the whole text. -/
theorem front_eq : s.front = Text.trimEnd (s.text.take s.layout.suffixStart) := by
  rw [front, body, List.take_take, Nat.min_eq_left s.suffixStart_le]

theorem toOrderBy_eq (c : Text) :
    s.toOrderBy c = reordered s.front c s.pagingText s.hintsText ++ s.remainder := by
  rw [toOrderBy, reordered, front_eq, pagingText, hintsText]
  cases s.layout.paging <;> cases s.layout.hints <;> simp [kept]

/-! ## The head of the new statement -/

variable {s}

theorem exists_selects (hbody : s.body.IsClosed) : ∃ (head : Head) (body rest : Text),
    head.Starts s.body body rest ∧ head.Selects s.body s.sourceStart ∧
      head.layout s.body = s.layout := by
  obtain ⟨head, body, rest, hstarts, hsound, hstop, hsource, hlayout⟩ := s.exists_head
  exact ⟨head, body, rest, hstarts, ⟨hsound,
    ⟨s.isStatement.trimEnd_eq, hbody, s.isStatement.semicolon_eq⟩, hstop, hsource⟩, hlayout⟩

/-- Both statements start with the same text, up to FROM. -/
theorem take_reordered {head : Head} (h : head.Selects s.body s.sourceStart)
    (hlayout : head.layout s.body = s.layout) (c : Text) :
    (reordered s.front c s.pagingText s.hintsText).take s.sourceStart =
      s.body.take s.sourceStart := by
  have hle := h.le_suffixStart
  have hfour := h.isFront.source_add_four_le
  rw [hlayout, ← front] at hfour
  rw [hlayout] at hle
  -- The front is trimmed, but what is taken ends at FROM, well in front of the blanks.
  obtain ⟨ws, -, hsplit⟩ := Text.exists_trimEnd_append_blank (s.body.take s.layout.suffixStart)
  calc (reordered s.front c s.pagingText s.hintsText).take s.sourceStart
      = s.front.take s.sourceStart := by
        rw [reordered]
        simp only [List.append_assoc]
        rw [List.take_append_of_le_length (by omega)]
    _ = (s.front ++ ws).take s.sourceStart := by rw [List.take_append_of_le_length (by omega)]
    _ = s.body.take s.sourceStart := by
        rw [front, hsplit, List.take_take, Nat.min_eq_left (by omega)]

/-- The new statement has the head of the old one. -/
theorem locate?_reordered (hc : IsOrderList c) {head : Head} {body rest : Text}
    (hstarts : head.Starts s.body body rest) (h : head.Selects s.body s.sourceStart)
    (hlayout : head.layout s.body = s.layout) :
    Head.locate? (reordered s.front c s.pagingText s.hintsText) =
      some ⟨head.start, (reordered s.front c s.pagingText s.hintsText).length, head.modifiers⟩ := by
  have hreordered := h.isReordered hc
  rw [hlayout, ← pagingText_eq, ← hintsText_eq, ← front] at hreordered
  have hfour := hreordered.front.source_add_four_le
  have hmem := (mem_of_keywordBetween? h.source_eq).1
  have hstart := (mem_of_keywordBetween? h.source_eq).2.1
  -- The same FROM is found in the new text, so the head is read up to it as before.
  have hmem' : ⟨s.sourceStart, s.sourceStart + 4⟩ ∈
      keywordSpans [.source] .top 0 none (reordered s.front c s.pagingText s.hintsText) := by
    rw [hreordered.keywordSpans_eq (by decide)]
    simp only [List.mem_append]
    exact Or.inl (Or.inl (Or.inl (Or.inl (firstFrom_spec hreordered.front.source_eq).1)))
  have htake := take_reordered h hlayout c
  have hsource := after?_isSome_of_mem (by decide) hmem
  have hsource' := after?_isSome_of_mem (by decide) hmem'
  simp only at hsource hsource' hstart
  rw [htake] at hsource'
  have hlen : (s.body.take s.sourceStart).length = s.sourceStart := by
    have hbounds := bounds_of_mem_keywordSpans (by decide) hmem
    rw [List.length_take]
    simp only at hbounds
    omega
  rw [← List.take_append_drop s.sourceStart s.body] at hstarts
  obtain ⟨body', rest', hstarts'⟩ := hstarts.congr_source (by omega)
    (isClosed_take_of_mem (by decide) hmem) hsource hsource'
  rw [← htake, List.take_append_drop] at hstarts'
  have hstatement : IsStatement (reordered s.front c s.pagingText s.hintsText) [] :=
    isStatement_nil hreordered.isBody.trimEnd_eq hreordered.isBody.semicolon_eq
  rw [← List.append_nil (reordered s.front c s.pagingText s.hintsText),
    Head.locate?_eq_some_iff hstatement, List.append_nil]
  exact ⟨body', rest', hstarts'⟩

/-! ## The layout of the new statement -/

/-- The SELECT list stays, and it stays in its place. -/
theorem list_reordered {head head' : Head} (h : head.Selects s.body s.sourceStart)
    (hlayout : head.layout s.body = s.layout)
    (hreordered : IsReordered s.front c s.pagingText s.hintsText head.start s.sourceStart)
    (hstart : head'.start = head.start)
    (hstop : head'.stop = (reordered s.front c s.pagingText s.hintsText).length) :
    (head'.layout (reordered s.front c s.pagingText s.hintsText)).list = s.layout.list ∧
      (head'.layout (reordered s.front c s.pagingText s.hintsText)).list.slice
        (reordered s.front c s.pagingText s.hintsText) = s.list := by
  have hold : head.listStop s.body = s.sourceStart := by
    rw [Head.listStop, h.source_eq]
    rfl
  -- Both texts are the same up to FROM, so the list is trimmed to the same place.
  have hslice : (Span.mk head.start s.sourceStart).slice
      (reordered s.front c s.pagingText s.hintsText) =
        (Span.mk head.start s.sourceStart).slice s.body := by
    rw [Span.slice_eq_drop_take, Span.slice_eq_drop_take, take_reordered h hlayout]
  have hlist : s.layout.list = Span.trim ⟨head.start, s.sourceStart⟩ s.body := by
    rw [← hlayout, Head.layout_list, hold]
  have hbody : s.layout.list.slice s.body = s.list := by
    have hsome := s.map_slice_body (some s.layout.list) (by simp [Layout.clauses])
    exact Option.some.inj hsome
  rw [Head.layout_list, hreordered.listStop_eq hstart hstop, hstart, Span.slice_trim, hslice,
    ← Span.slice_trim, ← hlist, hbody]
  exact ⟨(Span.trim_congr hslice).trans hlist.symm, rfl⟩

/-- The heads of both statements. The new one has the start and the modifiers of the old one. -/
theorem exists_heads (hbody : s.body.IsClosed) (hc : IsOrderList c) : ∃ head head' : Head,
    head.Selects s.body s.sourceStart ∧ head.layout s.body = s.layout ∧
      IsReordered s.front c s.pagingText s.hintsText head.start s.sourceStart ∧
      Head.locate? (reordered s.front c s.pagingText s.hintsText) = some head' ∧
      head'.start = head.start ∧ head'.modifiers = head.modifiers ∧
      head'.stop = (reordered s.front c s.pagingText s.hintsText).length := by
  obtain ⟨head, body, rest, hstarts, hselects, hlayout⟩ := exists_selects hbody
  have hreordered := hselects.isReordered hc
  rw [hlayout, ← pagingText_eq, ← hintsText_eq, ← front] at hreordered
  exact ⟨head, _, hselects, hlayout, hreordered, locate?_reordered hc hstarts hselects hlayout,
    rfl, rfl, rfl⟩

/-- The condition stays if WHERE stands in front of the part that orders the rows. -/
theorem condition_reordered (hc : IsOrderList c) {head head' : Head}
    (h : head.Selects s.body s.sourceStart) (hlayout : head.layout s.body = s.layout)
    (hsound : head'.IsSound (reordered s.front c s.pagingText s.hintsText))
    (hstart : head'.start = head.start) (hmodifiers : head'.modifiers = head.modifiers)
    (hstop : head'.stop = (reordered s.front c s.pagingText s.hintsText).length)
    (hword : ∀ word, keywordBetween? s.text (s.sourceStart + 4) s.layout.stop .condition =
      some word → word.start < s.layout.suffixStart) :
    (head'.condition? (reordered s.front c s.pagingText s.hintsText)).map
        (·.slice (reordered s.front c s.pagingText s.hintsText)) =
      s.layout.condition.map (·.slice s.text) := by
  -- The first WHERE of the statement is the first one of the text in front of the end.
  rw [keywordBetween?_eq_firstFrom_take (by decide) s.isCut_stop s.stop_le_length,
    show s.text.take s.layout.stop = s.body from rfl, ← hlayout] at hword
  rw [← s.map_slice_body _ (by simp [Layout.clauses]), ← hlayout, Head.layout_condition]
  refine h.condition_reordered hc ?_ hsound hstart hstop hmodifiers hword
  rw [hlayout, ← pagingText_eq, ← hintsText_eq, ← front]

/-- In the text `out` with the layout `layout`, the selection has the order `c` and is the same
otherwise. Its condition is the same if WHERE stands in front of the part that orders the rows. -/
structure InOrder (s : Selection) (c out : Text) (layout : Layout) : Prop where
  /-- The list behind ORDER BY is the new one. -/
  orderList_eq : layout.orderList.map (·.slice out) = some c
  /-- The SELECT list stays. -/
  list_eq : layout.list.slice out = s.list
  /-- The modifiers stay. -/
  modifiers_eq : layout.modifiers = s.layout.modifiers
  /-- The paging stays. -/
  paging_eq : layout.paging.map (·.slice out) = s.layout.paging.map (·.slice s.text)
  /-- The hints stay. -/
  hints_eq : layout.hints.map (·.slice out) = s.layout.hints.map (·.slice s.text)
  /-- What follows the statement stays. -/
  remainder_eq : out.drop layout.stop = s.remainder
  /-- The condition stays. -/
  condition_eq : (∀ word, keywordBetween? s.text (s.sourceStart + 4) s.layout.stop .condition =
      some word → word.start < s.layout.suffixStart) →
    layout.condition.map (·.slice out) = s.layout.condition.map (·.slice s.text)

/-- A statement in another order, its layout, and the places from which it can be put in yet another
order. -/
theorem exists_layout_toOrderBy (hbody : s.body.IsClosed) (hc : IsOrderList c) :
    ∃ layout, Layout.locate? (s.toOrderBy c) = some layout ∧ s.InOrder c (s.toOrderBy c) layout ∧
      layout.source = some s.sourceStart ∧ layout.list = s.layout.list ∧
      layout.suffixStart = s.front.length + 1 := by
  obtain ⟨head, head', hselects, hlayout, hreordered, hhead, hstart, hmodifiers, hstop⟩ :=
    exists_heads hbody hc
  have hsound := Head.isSound_of_locate? hhead
  have hlocate : Layout.locate? (s.toOrderBy c) =
      some (head'.layout (reordered s.front c s.pagingText s.hintsText)) := by
    rw [toOrderBy_eq, Layout.locate?_append (hreordered.isBody.isStatement s.isStatement),
      Layout.locate?, hhead]
    rfl
  -- The clauses are cut out of the statement, whatever follows it.
  have hslice : ∀ span : Option Span,
      span ∈ (head'.layout (reordered s.front c s.pagingText s.hintsText)).clauses →
        span.map (·.slice (s.toOrderBy c)) =
          span.map (·.slice (reordered s.front c s.pagingText s.hintsText)) := by
    intro span hspan
    rw [toOrderBy_eq,
      Layout.map_slice_append hsound.ordered_layout (Nat.le_of_eq hstop) span hspan]
  obtain ⟨hlist, hlistText⟩ := list_reordered hselects hlayout hreordered hstart hstop
  refine ⟨_, hlocate, ?_, ?_, hlist, ?_⟩
  · constructor
    case orderList_eq =>
      rw [hslice _ (by simp [Layout.clauses]), Head.layout_orderList,
        hreordered.orderList?_map_slice hstart hstop]
    case list_eq =>
      rw [← hlistText, ← Option.some_inj]
      exact hslice (some (head'.layout (reordered s.front c s.pagingText s.hintsText)).list)
        (by simp [Layout.clauses])
    case modifiers_eq =>
      rw [← hlayout]
      exact hmodifiers
    case paging_eq =>
      rw [hslice _ (by simp [Layout.clauses]), Head.layout_paging,
        hreordered.paging?_map_slice hstart hstop, pagingText]
    case hints_eq =>
      rw [hslice _ (by simp [Layout.clauses]), hreordered.hints_map_slice hstart hstop, hintsText]
    case remainder_eq =>
      rw [toOrderBy_eq]
      exact List.drop_left' hstop.symm
    case condition_eq =>
      intro hword
      rw [hslice _ (by simp [Layout.clauses]), Head.layout_condition,
        condition_reordered hc hselects hlayout hsound hstart hmodifiers hstop hword]
  · rw [Head.layout_source, hreordered.source?_eq hstart hstop]
    rfl
  · rw [hsound.suffixStart_eq, hreordered.orderWords?_eq hstart hstop]
    rfl

/-- The order of the rows is made of what stays in every order. -/
theorem toOrderBy_congr {s s' : Selection} (hfront : s.front = s'.front)
    (hpaging : s.pagingText = s'.pagingText) (hhints : s.hintsText = s'.hintsText)
    (hremainder : s.remainder = s'.remainder) (c : Text) : s.toOrderBy c = s'.toOrderBy c := by
  rw [toOrderBy_eq, toOrderBy_eq, hfront, hpaging, hhints, hremainder]

end Selection

/-! ## Main statement -/

theorem toOrderBy?_eq {sql c : Text} (hc : IsOrderClause c) :
    toOrderBy? c sql = (Selection.ofScript? sql).map (·.toOrderBy c) := by
  rw [toOrderBy?, hc.orderListOf_eq, if_neg]
  simpa using hc.ne_nil

/-- A selection that comes back to the top level can be put in any order. The new statement has the
new list behind ORDER BY and is the same otherwise. If it is in normal form, then putting it in yet
another order is the same as putting the selection in that order. -/
theorem exists_toOrderBy? {sql c : Text} {s : Selection} (hs : Selection.ofScript? sql = some s)
    (hbody : s.body.IsClosed) (hc : IsOrderClause c) :
    ∃ out layout, toOrderBy? c sql = some out ∧ Layout.locate? out = some layout ∧
      s.InOrder c out layout ∧
      ∀ c', IsOrderClause c' → normalize out = out → toOrderBy? c' out = toOrderBy? c' sql := by
  obtain ⟨layout, hlayout, hinOrder, hsource, hlist, hsuffix⟩ :=
    Selection.exists_layout_toOrderBy hbody hc.isOrderList
  refine ⟨s.toOrderBy c, layout, by rw [toOrderBy?_eq hc, hs, Option.map_some], hlayout, hinOrder,
    fun c' hc' hnormal => ?_⟩
  obtain ⟨s', hs', htext, hlayout', -⟩ := Selection.exists_of_locate? hnormal hlayout hsource
    (hlist ▸ s.list_nonempty)
  rw [toOrderBy?_eq hc', toOrderBy?_eq hc', hs', hs, Option.map_some, Option.map_some,
    Option.some.injEq]
  refine Selection.toOrderBy_congr ?_ ?_ ?_ ?_ c'
  · -- The new order starts one blank behind the front, and the blank is trimmed.
    have htake : s'.text.take s'.layout.suffixStart = s.front ++ [' '] := by
      rw [htext, hlayout', hsuffix, Selection.toOrderBy_eq, reordered]
      simp only [List.append_assoc, List.cons_append]
      rw [List.append_cons]
      exact List.take_left' List.length_append
    rw [Selection.front_eq s', htake, Text.trimEnd_append_of_blank _ (by decide), Selection.front,
      Text.trimEnd_trimEnd]
  · rw [Selection.pagingText, htext, hlayout', hinOrder.paging_eq, Selection.pagingText]
  · rw [Selection.hintsText, htext, hlayout', hinOrder.hints_eq, Selection.hintsText]
  · rw [Selection.remainder, htext, hlayout', hinOrder.remainder_eq]

/-- A selection with paging and hints is put in an order, and then in another one. -/
theorem exists_toOrderBy?_paging : ∃ s out layout,
    Selection.ofScript? "SELECT a FROM t WHERE b = 1 ORDER BY a OFFSET 5 ROWS OPTION (x);".toList =
      some s ∧ s.body.IsClosed ∧ IsOrderClause "b DESC".toList ∧
    toOrderBy? "b DESC".toList
      "SELECT a FROM t WHERE b = 1 ORDER BY a OFFSET 5 ROWS OPTION (x);".toList = some out ∧
    Layout.locate? out = some layout ∧ s.InOrder "b DESC".toList out layout ∧
    normalize out = out ∧ toOrderBy? "c".toList out = toOrderBy? "c".toList
      "SELECT a FROM t WHERE b = 1 ORDER BY a OFFSET 5 ROWS OPTION (x);".toList := by
  have hany : (Selection.ofScript?
      "SELECT a FROM t WHERE b = 1 ORDER BY a OFFSET 5 ROWS OPTION (x);".toList).any
        (fun s => decide s.body.IsClosed) = true := by
    decide +kernel
  obtain ⟨s, hs, hbody⟩ := (Option.any_eq_true _ _).1 hany
  have hc : IsOrderClause "b DESC".toList :=
    ⟨by decide, by decide, by decide, by decide, by decide, by decide⟩
  have hc' : IsOrderClause "c".toList :=
    ⟨by decide, by decide, by decide, by decide, by decide, by decide⟩
  have hout : toOrderBy? "b DESC".toList
      "SELECT a FROM t WHERE b = 1 ORDER BY a OFFSET 5 ROWS OPTION (x);".toList =
        some "SELECT a FROM t WHERE b = 1 ORDER BY b DESC OFFSET 5 ROWS OPTION (x);".toList := by
    decide +kernel
  obtain ⟨out, layout, hsome, hlayout, hinOrder, hagain⟩ :=
    exists_toOrderBy? hs (of_decide_eq_true hbody) hc
  obtain rfl := Option.some.inj (hsome.symm.trans hout)
  have hnormal : normalize
      "SELECT a FROM t WHERE b = 1 ORDER BY b DESC OFFSET 5 ROWS OPTION (x);".toList =
        "SELECT a FROM t WHERE b = 1 ORDER BY b DESC OFFSET 5 ROWS OPTION (x);".toList := by
    decide +kernel
  exact ⟨s, _, layout, hs, of_decide_eq_true hbody, hc, hout, hlayout, hinOrder, hnormal,
    hagain _ hc' hnormal⟩

end LooseSql
