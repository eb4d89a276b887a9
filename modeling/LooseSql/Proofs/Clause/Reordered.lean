import LooseSql.Proofs.Clause.Bounds
import LooseSql.Proofs.Clause.Pieces

/-!
# A statement with a new order

A statement is put together of its front, the words ORDER BY, a list, and the paging and the hints
that are kept (`reordered`). Whatever the list is made of, as long as it holds no keyword that ends
it, the searches find these parts again.

* `IsReordered`: what is known of the parts;
* `IsReordered.keywordSpans_eq`: the keywords of the statement, part by part;
* `IsReordered.orderWords?_eq` and others: the results of the searches;
* `IsReordered.orderList?_map_slice` and others: the texts of the clauses.
-/

namespace LooseSql

/-- A clause that is kept, with a space in front of it. -/
def kept (clause : Option Text) : Text := clause.elim [] (' ' :: ·)

/-- The space in front of a clause that is kept. -/
def gap (clause : Option Text) : Text := clause.elim [] fun _ => [' ']

theorem kept_eq_gap_append (clause : Option Text) :
    kept clause = gap clause ++ clause.getD [] := by
  cases clause <;> rfl

theorem isBlank_of_mem_gap {clause : Option Text} : ∀ d ∈ gap clause, isBlank d := by
  cases clause with
  | none => exact fun _ hd => absurd hd List.not_mem_nil
  | some _ => simp [gap, isBlank]

/-- The front of a statement with a new order, the paging and the hints. -/
def reordered (p c : Text) (paging hints : Option Text) : Text :=
  p ++ ' ' :: "ORDER BY".toList ++ ' ' :: c ++ kept paging ++ kept hints

/-- Keywords that end an ORDER BY list, and WHERE, which must not be found in it. -/
def orderListEnds : List Keyword := [.condition, .offset, .option] ++ Keyword.setOperators

/-- A list that may stand behind ORDER BY. -/
structure IsOrderList (c : Text) : Prop where
  /-- The list is trimmed and comes back to the top level. -/
  piece : IsPiece c
  /-- No clause starts in it. -/
  spans_eq : ∀ k ∈ orderListEnds, keywordSpans [k] .top 0 none c = []

/-- A piece that starts with a keyword. -/
structure IsKept (k : Keyword) (y : Text) : Prop where
  /-- The piece is trimmed and comes back to the top level. -/
  piece : IsPiece y
  /-- The keyword stands at its start. -/
  exists_rest : ∃ rest, k.after? none y = some rest

/-- The part of a selection in front of its order: it holds FROM at the place `f`, and neither
ORDER BY nor OPTION behind it. -/
structure IsFront (p : Text) (start f : Nat) : Prop where
  /-- The part ends at the top level. -/
  body : IsBody p
  /-- FROM is the first one behind the modifiers. -/
  source_eq : firstFrom start (keywordSpans [.source] .top 0 none p) = some ⟨f, f + 4⟩
  /-- There is no ORDER BY. -/
  order_eq : firstFrom (f + 4) (keywordSpans [.orderBy] .top 0 none p) = none
  /-- There are no hints. -/
  hints_eq : firstFrom (f + 4) (keywordSpans [.option] .top 0 none p) = none

theorem IsFront.source_add_four_le {p : Text} {start f : Nat} (h : IsFront p start f) :
    f + 4 ≤ p.length := by
  obtain ⟨hmem, -⟩ := firstFrom_spec h.source_eq
  have hbounds := bounds_of_mem_keywordSpans (by decide) hmem
  simpa using hbounds.2.2

/-- The parts of a statement with a new order. -/
structure IsReordered (p c : Text) (paging hints : Option Text) (start f : Nat) : Prop where
  /-- The front comes first. -/
  front : IsFront p start f
  /-- The list stands behind ORDER BY. -/
  orderList : IsOrderList c
  /-- The paging starts with OFFSET. -/
  paging : ∀ y ∈ paging, IsKept .offset y ∧ keywordSpans [.option] .top 0 none y = []
  /-- The hints start with OPTION. -/
  hints : ∀ y ∈ hints, IsKept .option y

/-- The keywords of a clause that is kept behind `n` characters. -/
def keptSpans (ks : List Keyword) (n : Nat) (clause : Option Text) : List Span :=
  clause.elim [] fun y => (keywordSpans ks .top 0 none y).map (Span.map (· + (n + 1)))

theorem isPiece_orderBy : IsPiece "ORDER BY".toList :=
  ⟨by decide, by decide, by decide, by decide⟩

/-- A clause that is kept goes on with a statement. -/
theorem IsBody.append_kept {v : Text} (hv : IsBody v) {clause : Option Text} {k : Keyword}
    (h : ∀ y ∈ clause, IsKept k y) : IsBody (v ++ kept clause) := by
  cases clause with
  | none => rwa [show kept none = [] from rfl, List.append_nil]
  | some y => exact hv.append (h y rfl).piece

/-- The keywords of a clause that is kept are those of the clause. -/
theorem keywordSpans_append_kept {ks : List Keyword} (hks : ArePlain ks) {v : Text}
    (hv : v.IsClosed) {clause : Option Text} {k : Keyword} (hk : k.IsPlain)
    (h : ∀ y ∈ clause, IsKept k y) : keywordSpans ks .top 0 none (v ++ kept clause) =
      keywordSpans ks .top 0 none v ++ keptSpans ks v.length clause := by
  cases clause with
  | none => rw [show kept none = [] from rfl, List.append_nil]; exact (List.append_nil _).symm
  | some y =>
    obtain ⟨rest, hrest⟩ := (h y rfl).exists_rest
    exact keywordSpans_append_piece hks hv (Or.inl (afterWord?_by_of_after? hk hrest))

theorem keptSpans_eq_nil {ks : List Keyword} {clause : Option Text} (n : Nat)
    (h : ∀ y ∈ clause, keywordSpans ks .top 0 none y = []) : keptSpans ks n clause = [] := by
  cases clause with
  | none => rfl
  | some y => rw [keptSpans, Option.elim_some, h y rfl, List.map_nil]

/-- The keywords of a clause that is kept stand behind the space in front of it. -/
theorem le_start_of_mem_keptSpans {ks : List Keyword} {n : Nat} {clause : Option Text} {r : Span}
    (hr : r ∈ keptSpans ks n clause) : n + (gap clause).length ≤ r.start := by
  cases clause with
  | none => exact absurd hr List.not_mem_nil
  | some y =>
    obtain ⟨r', -, rfl⟩ := List.mem_map.1 hr
    exact Nat.le_add_left (n + 1) r'.start

theorem length_reordered (p c : Text) (paging hints : Option Text) :
    (reordered p c paging hints).length =
      p.length + 10 + c.length + (kept paging).length + (kept hints).length := by
  simp [reordered]
  omega

namespace IsReordered

variable {p c : Text} {paging hints : Option Text} {start f : Nat}
  (h : IsReordered p c paging hints start f)

include h

/-- What is in front of the paging. -/
theorem isBody_list : IsBody (p ++ ' ' :: "ORDER BY".toList ++ ' ' :: c) :=
  (h.front.body.append isPiece_orderBy).append h.orderList.piece

theorem isBody_paging : IsBody (p ++ ' ' :: "ORDER BY".toList ++ ' ' :: c ++ kept paging) :=
  h.isBody_list.append_kept fun y hy => (h.paging y hy).1

theorem isBody : IsBody (reordered p c paging hints) :=
  h.isBody_paging.append_kept h.hints

/-- The keywords of a statement with a new order, part by part. -/
theorem keywordSpans_eq {ks : List Keyword} (hks : ArePlain ks) :
    keywordSpans ks .top 0 none (reordered p c paging hints) = keywordSpans ks .top 0 none p ++
      (keywordSpans ks .top 0 none "ORDER BY".toList).map (Span.map (· + (p.length + 1))) ++
      (keywordSpans ks .top 0 none c).map (Span.map (· + (p.length + 10))) ++
      keptSpans ks (p.length + 10 + c.length) paging ++
      keptSpans ks (p.length + 10 + c.length + (kept paging).length) hints := by
  have horder := keywordSpans_append_piece hks h.front.body.closed
    (Or.inl (show Keyword.afterWord? ['B', 'Y'] (Text.trimStart "ORDER BY".toList) = none by
      decide))
  have hlist := keywordSpans_append_piece hks (h.front.body.append isPiece_orderBy).closed
    (y := c) <| Or.inr <| by
      -- The list may start with BY, but ORDER BY has taken its own already.
      rw [(h.front.body.append isPiece_orderBy).trimEnd_eq, List.getLast?_append]
      rintro d ⟨⟩
      decide
  have hpaging := keywordSpans_append_kept hks h.isBody_list.closed (k := .offset) (by decide)
    fun y hy => (h.paging y hy).1
  have hhints := keywordSpans_append_kept hks h.isBody_paging.closed (k := .option) (by decide)
    h.hints
  have hlen : (p ++ ' ' :: "ORDER BY".toList).length + 1 = p.length + 10 := by simp
  have hlen' : (p ++ ' ' :: "ORDER BY".toList ++ ' ' :: c).length = p.length + 10 + c.length := by
    simp
    omega
  have hlen'' : (p ++ ' ' :: "ORDER BY".toList ++ ' ' :: c ++ kept paging).length =
      p.length + 10 + c.length + (kept paging).length := by
    rw [List.length_append, hlen']
  rw [reordered, hhints, hpaging, hlist, horder, hlen, hlen', hlen'']

/-! ## Searches -/

variable {head : Head} (hstart : head.start = start)
  (hstop : head.stop = (reordered p c paging hints).length)

omit h in
/-- No keyword of the list is found. -/
theorem firstFrom_list (hlist : IsOrderList c) {k : Keyword} (hk : k ∈ orderListEnds) (a n : Nat) :
    firstFrom a ((keywordSpans [k] .top 0 none c).map (Span.map (· + n))) = none := by
  rw [hlist.spans_eq k hk]
  rfl

omit h in
/-- The first keyword of a clause that is kept stands at its start. -/
theorem firstFrom_keptSpans {clause : Option Text} {k : Keyword} (hk : k.IsPlain)
    (hclause : ∀ y ∈ clause, IsKept k y) {a n : Nat} (han : a ≤ n + 1) :
    (firstFrom a (keptSpans [k] n clause)).map (·.start) = clause.map fun _ => n + 1 := by
  cases clause with
  | none => rfl
  | some y =>
    obtain ⟨rest, hrest⟩ := (hclause y rfl).exists_rest
    obtain ⟨m, others, hspans⟩ := @keywordSpans_of_after? [k] k (by simpa [ArePlain] using hk)
      (by simp) none y rest hrest 0
    rw [keptSpans, Option.elim_some, firstFrom_map_add han, hspans]
    simp [Span.map]

include hstart hstop

theorem source?_eq : head.source? (reordered p c paging hints) = some ⟨f, f + 4⟩ := by
  have hf := h.front.source_add_four_le
  have hlen := length_reordered p c paging hints
  rw [Head.source?, keywordBetween?_eq_firstFrom, h.keywordSpans_eq (by decide), hstart]
  simp only [firstFrom_append, h.front.source_eq, Option.some_or, Option.filter_some]
  rw [if_pos]
  simp only [decide_eq_true_eq]
  omega

theorem clausesStart_eq : head.clausesStart (reordered p c paging hints) = f + 4 := by
  rw [Head.clausesStart, h.source?_eq hstart hstop]
  rfl

theorem listStop_eq : head.listStop (reordered p c paging hints) = f := by
  rw [Head.listStop, h.source?_eq hstart hstop]
  rfl

/-- The hints start where they are put. -/
theorem hintsWord?_start_eq :
    (head.hintsWord? (reordered p c paging hints)).map (·.start) =
      hints.map fun _ => p.length + 10 + c.length + (kept paging).length + 1 := by
  have hf := h.front.source_add_four_le
  have hlen := length_reordered p c paging hints
  have hfirst := firstFrom_keptSpans (a := f + 4)
    (n := p.length + 10 + c.length + (kept paging).length) (by decide) h.hints (by omega)
  have horder : keywordSpans [.option] .top 0 none "ORDER BY".toList = [] := by decide
  have hpaging : keptSpans [.option] (p.length + 10 + c.length) paging = [] :=
    keptSpans_eq_nil _ fun y hy => (h.paging y hy).2
  rw [Head.hintsWord?, keywordBetween?_eq_firstFrom, h.keywordSpans_eq (by decide),
    h.clausesStart_eq hstart hstop]
  simp only [firstFrom_append, h.front.hints_eq, horder, List.map_nil, firstFrom_nil, hpaging,
    firstFrom_list h.orderList (k := .option) (by decide), Option.none_or, Option.or_none]
  -- The hints are not empty, so they start in front of the end.
  refine map_start_filter hfirst fun y hy => ?_
  have hne := List.length_pos_iff.2 (h.hints y hy).piece.ne_nil
  have hkept : (kept hints).length = y.length + 1 := by rw [Option.mem_def.1 hy]; rfl
  omega

/-- The part that orders the rows ends with the space in front of the hints. -/
theorem orderStop_eq : head.orderStop (reordered p c paging hints) =
    p.length + 10 + c.length + (kept paging).length + (gap hints).length := by
  have hword := h.hintsWord?_start_eq hstart hstop
  have hlen := length_reordered p c paging hints
  rw [Head.orderStop]
  cases hints with
  | none =>
    rw [Option.map_none, Option.map_eq_none_iff] at hword
    rw [hword, Option.elim_none, hstop, hlen]
    rfl
  | some y =>
    obtain ⟨r, hr, hrstart⟩ := Option.map_eq_some_iff.1 hword
    rw [hr, Option.elim_some, hrstart]
    rfl

/-- The words ORDER BY stand behind the front. -/
theorem orderWords?_eq : head.orderWords? (reordered p c paging hints) =
    some ⟨p.length + 1, p.length + 9⟩ := by
  have hf := h.front.source_add_four_le
  have horderStop := h.orderStop_eq hstart hstop
  have horder : (keywordSpans [.orderBy] .top 0 none "ORDER BY".toList).map
      (Span.map (· + (p.length + 1))) = [⟨p.length + 1, p.length + 9⟩] := by
    rw [show keywordSpans [.orderBy] .top 0 none "ORDER BY".toList = [⟨0, 8⟩] by decide]
    simp only [List.map_singleton, Span.map, List.cons.injEq, Span.mk.injEq, and_true]
    omega
  have hfirst : firstFrom (f + 4) [⟨p.length + 1, p.length + 9⟩] =
      some ⟨p.length + 1, p.length + 9⟩ := by
    rw [firstFrom, List.find?_cons_of_pos]
    simp only [decide_eq_true_eq]
    omega
  -- The front has no ORDER BY behind its FROM, so the one that was written is the first.
  rw [Head.orderWords?, keywordBetween?_eq_firstFrom, h.keywordSpans_eq (by decide),
    h.clausesStart_eq hstart hstop]
  simp only [firstFrom_append, h.front.order_eq, horder, hfirst, Option.none_or, Option.some_or]
  rw [Option.filter_some, if_pos]
  simp only [decide_eq_true_eq]
  omega

/-- The paging starts where it is put. -/
theorem pagingWord?_start_eq :
    (keywordBetween? (reordered p c paging hints) (p.length + 9)
      (head.orderStop (reordered p c paging hints)) .offset).map (·.start) =
        paging.map fun _ => p.length + 10 + c.length + 1 := by
  have hp : firstFrom (p.length + 9) (keywordSpans [.offset] .top 0 none p) = none := by
    rw [firstFrom_eq_none_iff]
    intro r hr
    have hbounds := bounds_of_mem_keywordSpans (by decide) hr
    omega
  have horder : keywordSpans [.offset] .top 0 none "ORDER BY".toList = [] := by decide
  have hfirst := firstFrom_keptSpans (a := p.length + 9) (n := p.length + 10 + c.length)
    (by decide) (fun y hy => (h.paging y hy).1) (by omega)
  -- An OFFSET in the hints stands behind the part that orders the rows.
  have hhints : (firstFrom (p.length + 9) (keptSpans [.offset]
      (p.length + 10 + c.length + (kept paging).length) hints)).filter
        (fun r => decide (r.start < head.orderStop (reordered p c paging hints))) = none := by
    rw [h.orderStop_eq hstart hstop]
    exact filter_firstFrom_eq_none fun r hr => le_start_of_mem_keptSpans hr
  rw [keywordBetween?_eq_firstFrom, h.keywordSpans_eq (by decide)]
  simp only [firstFrom_append, hp, horder, List.map_nil, firstFrom_nil, Option.none_or,
    firstFrom_list h.orderList (k := .offset) (by decide)]
  cases paging with
  | none =>
    rw [show keptSpans [.offset] (p.length + 10 + c.length) none = [] from rfl, firstFrom_nil,
      Option.none_or, hhints]
    rfl
  | some y =>
    obtain ⟨r, hr, hrstart⟩ := Option.map_eq_some_iff.1 hfirst
    have hne := List.length_pos_iff.2 (h.paging y rfl).1.piece.ne_nil
    have hkept : (kept (some y)).length = y.length + 1 := rfl
    have hfound : (some r).map (·.start) =
        (some y).map fun _ => p.length + 10 + c.length + 1 := congrArg some hrstart
    rw [hr, Option.some_or]
    refine map_start_filter hfound fun _ _ => ?_
    rw [h.orderStop_eq hstart hstop]
    omega

/-! ## Clauses -/

/-- The paging stands behind the list. -/
theorem paging?_eq : head.paging? (reordered p c paging hints) =
    paging.map fun y =>
      ⟨p.length + 10 + c.length + 1, p.length + 10 + c.length + 1 + y.length⟩ := by
  have hword := h.pagingWord?_start_eq hstart hstop
  rw [Head.paging?_eq, Head.pagingStretch?, h.orderWords?_eq hstart hstop, Option.bind_some]
  cases paging with
  | none =>
    rw [Option.map_none, Option.map_eq_none_iff] at hword
    rw [hword]
    rfl
  | some y =>
    obtain ⟨r, hr, hrstart⟩ := Option.map_eq_some_iff.1 hword
    have hpiece := (h.paging y rfl).1.piece
    rw [hr, Option.map_some, Option.map_some, Option.map_some, hrstart,
      h.orderStop_eq hstart hstop]
    -- The stretch goes up to the hints or the end, with the blank in front of them to trim.
    congr 1
    refine Span.trim_of_eq_append (p ++ ' ' :: "ORDER BY".toList ++ ' ' :: c ++ [' ']) [] y
      (gap hints) (hints.getD []) ?_ hpiece.ne_nil (by simp) isBlank_of_mem_gap hpiece.trim_eq
      ?_ ?_
    · simp [reordered, kept_eq_gap_append, gap]
    · simp
      omega
    · simp [kept]
      omega

/-- The list behind ORDER BY is the new one. -/
theorem orderList?_eq : head.orderList? (reordered p c paging hints) =
    some ⟨p.length + 10, p.length + 10 + c.length⟩ := by
  have hpiece := h.orderList.piece
  rw [Head.orderList?_eq, Head.orderListStretch?, h.orderWords?_eq hstart hstop, Option.map_some,
    Option.map_some, h.paging?_eq hstart hstop, h.orderStop_eq hstart hstop]
  congr 1
  -- The list has a blank on each side: behind it comes the paging clause, the hints or nothing.
  cases paging with
  | none =>
    refine Span.trim_of_eq_append (p ++ ' ' :: "ORDER BY".toList) [' '] c (gap hints)
      (hints.getD []) ?_ hpiece.ne_nil (by decide) isBlank_of_mem_gap hpiece.trim_eq ?_ ?_
    · simp [reordered, kept_eq_gap_append, gap]
    · simp
    · simp [kept]
  | some y =>
    refine Span.trim_of_eq_append (p ++ ' ' :: "ORDER BY".toList) [' '] c [' '] (y ++ kept hints)
      ?_ hpiece.ne_nil (by decide) (by decide) hpiece.trim_eq ?_ ?_
    · simp [reordered, kept]
    · simp
    · simp

/-- The hints stand at the end. -/
theorem hints_eq : (head.layout (reordered p c paging hints)).hints = hints.map fun y =>
    ⟨p.length + 10 + c.length + (kept paging).length + 1,
      p.length + 10 + c.length + (kept paging).length + 1 + y.length⟩ := by
  have hword := h.hintsWord?_start_eq hstart hstop
  have hlen := length_reordered p c paging hints
  rw [Head.hints_eq, Head.hintsStretch?]
  cases hints with
  | none =>
    rw [Option.map_none, Option.map_eq_none_iff] at hword
    rw [hword]
    rfl
  | some z =>
    obtain ⟨r, hr, hrstart⟩ := Option.map_eq_some_iff.1 hword
    have hpiece := (h.hints z rfl).piece
    rw [hr, Option.map_some, Option.map_some, Option.map_some, hrstart, hstop]
    congr 1
    refine Span.trim_of_eq_append
      (p ++ ' ' :: "ORDER BY".toList ++ ' ' :: c ++ kept paging ++ [' ']) [] z [] [] ?_
      hpiece.ne_nil (by simp) (by simp) hpiece.trim_eq ?_ ?_
    · simp [reordered, kept]
    · simp
      omega
    · simp [reordered, kept]
      omega

/-! ## Texts of the clauses -/

theorem orderList?_map_slice :
    (head.orderList? (reordered p c paging hints)).map (·.slice (reordered p c paging hints)) =
      some c := by
  rw [h.orderList?_eq hstart hstop, Option.map_some]
  congr 1
  refine Span.slice_of_eq_append (a := p ++ " ORDER BY ".toList) (b := kept paging ++ kept hints)
    ?_ ?_ rfl
  · simp [reordered]
  · simp

theorem paging?_map_slice :
    (head.paging? (reordered p c paging hints)).map (·.slice (reordered p c paging hints)) =
      paging := by
  rw [h.paging?_eq hstart hstop, Option.map_map]
  cases paging with
  | none => rfl
  | some y =>
    rw [Option.map_some]
    congr 1
    refine Span.slice_of_eq_append (a := p ++ " ORDER BY ".toList ++ c ++ [' ']) (b := kept hints)
      ?_ ?_ rfl
    · simp [reordered, kept]
    · simp
      omega

theorem hints_map_slice :
    (head.layout (reordered p c paging hints)).hints.map (·.slice (reordered p c paging hints)) =
      hints := by
  rw [h.hints_eq hstart hstop, Option.map_map]
  cases hints with
  | none => rfl
  | some y =>
    rw [Option.map_some]
    congr 1
    refine Span.slice_of_eq_append (a := p ++ " ORDER BY ".toList ++ c ++ kept paging ++ [' '])
      (b := []) ?_ ?_ rfl
    · simp [reordered, kept]
    · simp
      omega

end IsReordered

end LooseSql
