import LooseSql.Proofs.Clause.Search
import Mathlib.Data.List.Find

/-!
# Statements put together of pieces

A new statement is written by putting pieces one after another, with a space in between. A piece is
a trimmed text that comes back to the top level and holds no semicolon there (`IsPiece`), so it
leaves the text in front of it a statement (`IsBody.append`), and its keywords are found in the
whole as they are found in the piece (`keywordSpans_append_piece`).

The first keyword from a place on is `firstFrom`; `keywordBetween?_eq_firstFrom` and
`endBefore_eq_firstFrom` say so of the two searches. A search that does not get behind a cut is one
in the text in front of it (`keywordBetween?_eq_firstFrom_take`, `endBefore_eq_elim`).
-/

namespace LooseSql

/-! ## The first span from a place on -/

/-- The first of the spans that does not start before the place. -/
def firstFrom (a : Nat) (l : List Span) : Option Span := l.find? fun r => decide (a ≤ r.start)

theorem keywordBetween?_eq_firstFrom (t : Text) (a b : Nat) (k : Keyword) :
    keywordBetween? t a b k = (firstFrom a (keywordSpans [k] .top 0 none t)).filter
      fun r => decide (r.start < b) := by
  rw [keywordBetween?, findKeyword_eq_findAnyKeyword, findAnyKeyword_eq, firstFrom]

theorem endBefore_eq_firstFrom (t : Text) (a b : Nat) (ks : List Keyword) :
    endBefore t a b ks = ((firstFrom a (keywordSpans ks .top 0 none t)).filter
      fun r => decide (r.start < b)).elim b (·.start) := by
  rw [endBefore, findAnyKeyword_eq, firstFrom]

@[simp]
theorem firstFrom_nil (a : Nat) : firstFrom a [] = none := rfl

@[simp]
theorem firstFrom_append (a : Nat) (l l' : List Span) :
    firstFrom a (l ++ l') = (firstFrom a l).or (firstFrom a l') := by
  rw [firstFrom, List.find?_append]
  rfl

theorem firstFrom_eq_none_iff {a : Nat} {l : List Span} :
    firstFrom a l = none ↔ ∀ r ∈ l, r.start < a := by
  simp [firstFrom]

theorem firstFrom_spec {a : Nat} {l : List Span} {r : Span} (h : firstFrom a l = some r) :
    r ∈ l ∧ a ≤ r.start :=
  ⟨List.mem_of_find?_eq_some h, by simpa using List.find?_some h⟩

/-- From a place in front of all spans on, the first span is the first one of the list. -/
theorem firstFrom_map_add {a n : Nat} (han : a ≤ n) (l : List Span) :
    firstFrom a (l.map (Span.map (· + n))) = (l.map (Span.map (· + n))).head? := by
  cases l with
  | nil => rfl
  | cons r l =>
    have hle : a ≤ (r.map (· + n)).start := han.trans (Nat.le_add_left n r.start)
    rw [List.map_cons, firstFrom, List.find?_cons, decide_eq_true hle]
    rfl

/-- A span that starts in front of the end of a search stays in its result. -/
theorem map_start_filter {o : Option Span} {clause : Option Text} {n b : Nat}
    (ho : o.map (·.start) = clause.map fun _ => n) (hb : ∀ y ∈ clause, n < b) :
    (o.filter fun r => decide (r.start < b)).map (·.start) = clause.map fun _ => n := by
  cases clause with
  | none =>
    rw [Option.map_none, Option.map_eq_none_iff] at ho
    rw [ho]
    rfl
  | some y =>
    obtain ⟨r, hr, hstart⟩ := Option.map_eq_some_iff.1 ho
    have hlt : r.start < b := hstart ▸ hb y rfl
    rw [hr, Option.filter_some, if_pos (decide_eq_true hlt), Option.map_some, hstart]
    rfl

/-- Spans that all start behind the end of a search are not found. -/
theorem filter_firstFrom_eq_none {a b : Nat} {l : List Span} (hl : ∀ r ∈ l, b ≤ r.start) :
    (firstFrom a l).filter (fun r => decide (r.start < b)) = none := by
  rw [Option.filter_eq_none_iff]
  intro r hr hlt
  have hle := hl r (firstFrom_spec hr).1
  have hlt' := of_decide_eq_true hlt
  omega

/-- A search that finds nothing finds nothing in a part of its stretch. -/
theorem keywordBetween?_eq_none_of_le {t : Text} {a b b' : Nat} {k : Keyword} (hb : b ≤ b')
    (h : keywordBetween? t a b' k = none) : keywordBetween? t a b k = none := by
  rw [keywordBetween?_eq_firstFrom, Option.filter_eq_none_iff] at h ⊢
  intro r hr hlt
  have hlt' : r.start < b := of_decide_eq_true hlt
  exact h r hr (decide_eq_true (hlt'.trans_le hb))

/-! ## Pieces -/

/-- A trimmed text that comes back to the top level and holds no semicolon there. -/
structure IsPiece (y : Text) : Prop where
  /-- The piece is not empty. -/
  ne_nil : y ≠ []
  /-- There are no blanks around it. -/
  trim_eq : y.trim = y
  /-- A scan comes back to the top level. -/
  closed : y.IsClosed
  /-- There is no semicolon at the top level. -/
  semicolon_eq : semicolonFrom? .top 0 y = none

namespace IsPiece

variable {y : Text} (h : IsPiece y)

include h

theorem trimStart_eq : y.trimStart = y := (Text.trim_eq_self_iff.1 h.trim_eq).1

theorem trimEnd_eq : y.trimEnd = y := (Text.trim_eq_self_iff.1 h.trim_eq).2

end IsPiece

/-- A text that ends at the top level and not in a blank, without a semicolon at the top level. -/
structure IsBody (v : Text) : Prop where
  /-- The text does not end in a blank. -/
  trimEnd_eq : v.trimEnd = v
  /-- A scan comes back to the top level. -/
  closed : v.IsClosed
  /-- There is no semicolon at the top level. -/
  semicolon_eq : semicolonFrom? .top 0 v = none

namespace IsBody

variable {v y : Text}

/-- A piece behind a space goes on with a statement. -/
theorem append (hv : IsBody v) (hy : IsPiece y) : IsBody (v ++ ' ' :: y) where
  trimEnd_eq := by
    have hne : Text.trimEnd y ≠ [] := by
      rw [hy.trimEnd_eq]
      exact hy.ne_nil
    rw [List.append_cons, Text.trimEnd_append _ hne, hy.trimEnd_eq]
  closed := by
    rw [Text.IsClosed, scan_append, hv.closed.scan_eq]
    exact hy.closed
  semicolon_eq := by
    have hnone : semicolonFrom? .top (0 + v.length) (' ' :: y) = none :=
      semicolonFrom?_eq_none_of_zero hy.semicolon_eq _
    rw [semicolonFrom?_append, hv.semicolon_eq, hv.closed.scan_eq, hnone]
    rfl

/-- A statement is a body, with the rest of any text behind it. -/
theorem isStatement {u w : Text} (hv : IsBody v) (hw : IsStatement u w) : IsStatement v w := by
  obtain ⟨ws, r, hsplit, hws, hr⟩ := hw.exists_rest
  refine ⟨hv.trimEnd_eq, hv.semicolon_eq, ws, r, hsplit, hws, hr.imp_right ?_⟩
  rintro ⟨r', hr', -⟩
  exact ⟨r', hr', hv.closed⟩

end IsBody

/-! ## Keywords of pieces -/

/-- The keywords of a text behind a space. -/
theorem keywordSpans_space_cons (ks : List Keyword) (i : Nat) (before : Option Char) (y : Text) :
    keywordSpans ks .top i before (' ' :: y) =
      (keywordSpans ks .top 0 none y).map (Span.map (· + (i + 1))) := by
  have hspace : (some ' ').any isWordChar = (none : Option Char).any isWordChar := by decide
  rw [keywordSpans_cons, show ScanState.top.step ' ' = .top from rfl,
    keywordSpans_congr hspace, ← keywordSpans_add, Nat.zero_add]
  rfl

/-- The keywords of a text with a piece behind it. -/
theorem keywordSpans_append_piece {ks : List Keyword} (hks : ArePlain ks) {v y : Text}
    (hv : v.IsClosed) (hby : Keyword.afterWord? ['B', 'Y'] y.trimStart = none ∨
      ∀ c ∈ v.trimEnd.getLast?, c.toLower ∉ Keyword.byLetters) :
    keywordSpans ks .top 0 none (v ++ ' ' :: y) = keywordSpans ks .top 0 none v ++
      (keywordSpans ks .top 0 none y).map (Span.map (· + (v.length + 1))) := by
  have hseam : Seam v (' ' :: y) := by
    refine ⟨?_, hby⟩
    intro c _ d hd _
    obtain rfl : ' ' = d := by simpa using hd
    decide
  rw [keywordSpans_append hks hseam, hv.scan_eq, keywordSpans_space_cons,
    Nat.zero_add]

/-! ## Searches across a cut -/

section Cut

variable {t : Text} {b : Nat} {ks : List Keyword}

/-- The keywords of a text are those in front of a cut and those behind it. -/
theorem exists_keywordSpans_eq_take (hks : ArePlain ks) (hcut : IsCut t b) (hb : b ≤ t.length) :
    ∃ others, keywordSpans ks .top 0 none t = keywordSpans ks .top 0 none (t.take b) ++ others ∧
      (∀ r ∈ keywordSpans ks .top 0 none (t.take b), r.start < r.stop ∧ r.stop ≤ b) ∧
      ∀ r ∈ others, b ≤ r.start := by
  have hlen : (t.take b).length = b := List.length_take_of_le hb
  refine ⟨keywordSpans ks (scan .top (t.take b)) (0 + (t.take b).length)
    ((t.take b).getLast?.or none) (t.drop b), ?_, ?_, ?_⟩
  · rw [← keywordSpans_append hks hcut, List.take_append_drop]
  · intro r hr
    have hbounds := bounds_of_mem_keywordSpans hks hr
    omega
  · intro r hr
    have hbounds := bounds_of_mem_keywordSpans hks hr
    omega

/-- A search that stops at a cut is a search in the text in front of it. -/
theorem keywordBetween?_eq_firstFrom_take {k : Keyword} (hk : k.IsPlain) (hcut : IsCut t b)
    (hb : b ≤ t.length) (a : Nat) :
    keywordBetween? t a b k = firstFrom a (keywordSpans [k] .top 0 none (t.take b)) := by
  have hks : ArePlain [k] := by simpa [ArePlain] using hk
  obtain ⟨others, hspans, hfront, hothers⟩ := exists_keywordSpans_eq_take hks hcut hb
  rw [keywordBetween?_eq_firstFrom, hspans, firstFrom_append]
  cases hr : firstFrom a (keywordSpans [k] .top 0 none (t.take b)) with
  | some r =>
    have hbounds := hfront r (firstFrom_spec hr).1
    rw [Option.some_or, Option.filter_some, if_pos]
    simp only [decide_eq_true_eq]
    omega
  | none => rw [Option.none_or, filter_firstFrom_eq_none hothers]

/-- A search that finds nothing in front of a cut has seen all keywords there. -/
theorem start_lt_of_keywordBetween?_eq_none {k : Keyword} (hk : k.IsPlain) (hcut : IsCut t b)
    (hb : b ≤ t.length) {a : Nat} (h : keywordBetween? t a b k = none) {r : Span}
    (hr : r ∈ keywordSpans [k] .top 0 none t) (hrb : r.start < b) : r.start < a := by
  have hks : ArePlain [k] := by simpa [ArePlain] using hk
  obtain ⟨others, hspans, -, hothers⟩ := exists_keywordSpans_eq_take hks hcut hb
  rw [keywordBetween?_eq_firstFrom_take hk hcut hb, firstFrom_eq_none_iff] at h
  rw [hspans, List.mem_append] at hr
  rcases hr with hr | hr
  · exact h r hr
  · exact absurd (hothers r hr) (Nat.not_le_of_lt hrb)

/-- A search sees the first keyword that it comes to: none stands in front of the one it finds. -/
theorem start_lt_of_mem_take {k : Keyword} (hk : k.IsPlain) {a n : Nat} {word r : Span}
    (h : keywordBetween? t a n k = some word)
    (hr : r ∈ keywordSpans [k] .top 0 none (t.take word.start)) : r.start < a := by
  have hks : ArePlain [k] := by simpa [ArePlain] using hk
  have hmem := (mem_of_keywordBetween? h).1
  have hb : word.start ≤ t.length := by
    have hbounds := bounds_of_mem_keywordSpans hks hmem
    omega
  obtain ⟨others, hspans, hfront, -⟩ :=
    exists_keywordSpans_eq_take hks (isCut_start_of_mem hks hmem) hb
  rw [keywordBetween?_eq_firstFrom, hspans, firstFrom_append, Option.filter_eq_some_iff] at h
  cases hfirst : firstFrom a (keywordSpans [k] .top 0 none (t.take word.start)) with
  | none => exact firstFrom_eq_none_iff.1 hfirst r hr
  | some r' =>
    -- The keyword that is found would stand in front of itself.
    rw [hfirst, Option.some_or, Option.some.injEq] at h
    have hbounds := hfront r' (firstFrom_spec hfirst).1
    rw [h.1] at hbounds
    omega

/-- The end of a clause is found in front of a cut, or else from the cut on. -/
theorem endBefore_eq_elim {a n : Nat} (hks : ArePlain ks) (hcut : IsCut t b) (hb : b ≤ t.length)
    (hab : a ≤ b) (hbn : b ≤ n) :
    endBefore t a n ks =
      (firstFrom a (keywordSpans ks .top 0 none (t.take b))).elim (endBefore t b n ks)
        (·.start) := by
  obtain ⟨others, hspans, hfront, hothers⟩ := exists_keywordSpans_eq_take hks hcut hb
  have hlow : firstFrom b (keywordSpans ks .top 0 none (t.take b)) = none := by
    rw [firstFrom_eq_none_iff]
    intro r hr
    have hbounds := hfront r hr
    omega
  -- Behind the cut it does not matter from which place on the search goes.
  have hothers' : firstFrom a others = firstFrom b others := by
    rw [firstFrom, firstFrom]
    refine List.find?_congr fun r hr => ?_
    have hle := hothers r hr
    simp [hle, hab.trans hle]
  rw [endBefore_eq_firstFrom, endBefore_eq_firstFrom, hspans, firstFrom_append, firstFrom_append,
    hlow, Option.none_or]
  cases hr : firstFrom a (keywordSpans ks .top 0 none (t.take b)) with
  | some r =>
    have hbounds := hfront r (firstFrom_spec hr).1
    rw [Option.some_or, Option.filter_some, if_pos]
    · rfl
    · simp only [decide_eq_true_eq]
      omega
  | none => rw [Option.none_or, hothers', Option.elim_none]

/-- The end of a clause where the whole text is searched. -/
theorem endBefore_length {a : Nat} (hks : ArePlain ks) (ha : a ≤ t.length) :
    endBefore t a t.length ks =
      (firstFrom a (keywordSpans ks .top 0 none t)).elim t.length (·.start) := by
  have hcut : IsCut t t.length := by
    rw [IsCut, List.take_length, List.drop_length]
    exact Seam.nil_right t
  have hlast : endBefore t t.length t.length ks = t.length :=
    Nat.le_antisymm (endBefore_le _ _ _ _) (le_endBefore t (Nat.le_refl _) ks)
  rw [endBefore_eq_elim hks hcut (Nat.le_refl _) ha (Nat.le_refl _), hlast, List.take_length]

/-- A clause ends where a keyword starts. -/
theorem endBefore_of_after? {k : Keyword} (hks : ArePlain ks) (hk : k ∈ ks) {x y rest : Text}
    (hx : x.IsClosed) (h : k.after? x.getLast? y = some rest) {n : Nat} (hn : x.length ≤ n) :
    endBefore (x ++ y) x.length n ks = x.length := by
  have hseam : Seam x y := seam_of_after? (hks k hk) h
  obtain ⟨m, others, hspans⟩ := keywordSpans_of_after? hks hk h x.length
  -- The keywords of `x` end before the place, so the first one from there on is the one behind it.
  have hfront : firstFrom x.length (keywordSpans ks .top 0 none x) = none := by
    rw [firstFrom_eq_none_iff]
    intro r hr
    have hbounds := bounds_of_mem_keywordSpans hks hr
    omega
  rw [endBefore_eq_firstFrom, keywordSpans_append hks hseam, hx.scan_eq,
    firstFrom_append, hfront, Option.none_or, Option.or_none, Nat.zero_add, hspans, firstFrom,
    List.find?_cons_of_pos (by simp), Option.filter_some]
  split
  · rfl
  · rename_i hlt
    have hlt' : ¬ x.length < n := by simpa using hlt
    rw [Option.elim_none]
    omega

end Cut

end LooseSql
