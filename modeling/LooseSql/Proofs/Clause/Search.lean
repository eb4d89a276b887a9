import LooseSql.Proofs.Clause.Extent
import LooseSql.Proofs.Keyword.Spans

/-!
# Searches for the keywords of a clause

The clauses of a statement are found by two searches, `keywordBetween?` and `endBefore`. Both see
the keywords of a text only, so what is known about `keywordSpans` carries over to them.

* `IsCut t b`: no keyword crosses the place `b` of the text. The end of a statement is a cut
  (`isCut_statementStop`), and so is each place at which a keyword starts;
* `stop_le_of_isCut`: a keyword that starts before a cut ends there at the latest;
* `keywordBetween?_append`, `endBefore_append`: a search that stays in front of a cut does not see
  what stands behind it.
-/

namespace LooseSql

/-! ## Cuts -/

/-- No keyword crosses the place `b` of the text. -/
def IsCut (t : Text) (b : Nat) : Prop := Seam (t.take b) (t.drop b)

theorem isCut_append {u w : Text} (h : Seam u w) : IsCut (u ++ w) u.length := by
  rw [IsCut, List.take_left, List.drop_left]
  exact h

/-- No keyword crosses the end of the first statement: blanks or a semicolon follow it. -/
theorem IsStatement.seam {u w : Text} (h : IsStatement u w) : Seam u w := by
  obtain ⟨-, -, ws, r, rfl, hws, hr⟩ := h
  refine ⟨?_, Or.inl ?_⟩
  · intro c _ d hd _
    cases ws with
    | cons e ws =>
      obtain rfl : e = d := by simpa using hd
      exact isWordChar_of_isBlank (hws e (by simp))
    | nil =>
      rcases hr with rfl | ⟨r', rfl, -⟩
      · simp at hd
      · obtain rfl : ';' = d := by simpa using hd
        decide
  · rw [Text.trimStart_append_of_blank hws]
    rcases hr with rfl | ⟨r', rfl, -⟩ <;> rfl

theorem isCut_statementStop (t : Text) : IsCut t (statementStop t) :=
  (isStatement_take_drop t).seam

/-- No keyword crosses the place at which a keyword starts. -/
theorem isCut_start_of_mem {ks : List Keyword} (hks : ArePlain ks) {t : Text} {r : Span}
    (hr : r ∈ keywordSpans ks .top 0 none t) : IsCut t r.start := by
  obtain ⟨u, m, rest, rfl, rfl, -, ⟨k, hk, hafter⟩, -⟩ := exists_of_mem_keywordSpans hks hr
  rw [Nat.zero_add]
  exact isCut_append (seam_of_after? (hks k hk) (by simpa using hafter))

/-- The scan is at the top level where a keyword starts. -/
theorem isClosed_take_of_mem {ks : List Keyword} (hks : ArePlain ks) {t : Text} {r : Span}
    (hr : r ∈ keywordSpans ks .top 0 none t) : Text.IsClosed (t.take r.start) := by
  obtain ⟨u, m, rest, rfl, rfl, hscan, -⟩ := exists_of_mem_keywordSpans hks hr
  rw [Nat.zero_add, List.take_left]
  exact hscan

/-- A keyword stands at the place at which it starts. -/
theorem after?_isSome_of_mem {k : Keyword} (hk : k.IsPlain) {t : Text} {r : Span}
    (hr : r ∈ keywordSpans [k] .top 0 none t) :
    (k.after? (t.take r.start).getLast? (t.drop r.start)).isSome := by
  obtain ⟨u, m, rest, rfl, rfl, -, ⟨k', hk', hafter⟩, -⟩ :=
    exists_of_mem_keywordSpans (by simpa [ArePlain] using hk) hr
  obtain rfl : k' = k := by simpa using hk'
  rw [Option.or_none] at hafter
  rw [Nat.zero_add, List.take_left, List.drop_left, hafter]
  rfl

/-- A keyword that starts before a cut ends there at the latest. -/
theorem stop_le_of_isCut {ks : List Keyword} (hks : ArePlain ks) {t : Text} {b : Nat}
    (hb : IsCut t b) {r : Span} (hr : r ∈ keywordSpans ks .top 0 none t) (hlt : r.start < b) :
    r.stop ≤ b := by
  rw [← List.take_append_drop b t, keywordSpans_append hks hb, List.mem_append] at hr
  rcases hr with hr | hr
  · have hbounds := (bounds_of_mem_keywordSpans hks hr).2.2
    rw [Nat.zero_add, List.length_take] at hbounds
    omega
  · -- The text ends before the cut, or the span starts behind it.
    have hbounds := bounds_of_mem_keywordSpans hks hr
    rw [Nat.zero_add, List.length_take, List.length_drop] at hbounds
    omega

/-! ## Searches -/

/-- What is known about a keyword that is found between two places. -/
theorem mem_of_keywordBetween? {t : Text} {a b : Nat} {k : Keyword} {r : Span}
    (h : keywordBetween? t a b k = some r) :
    r ∈ keywordSpans [k] .top 0 none t ∧ a ≤ r.start ∧ r.start < b := by
  rw [keywordBetween?, findKeyword_eq_findAnyKeyword, findAnyKeyword_eq,
    Option.filter_eq_some_iff] at h
  exact ⟨List.mem_of_find?_eq_some h.1, by simpa using List.find?_some h.1, by simpa using h.2⟩

/-- A keyword that is found in front of a cut lies there as a whole. -/
theorem bounds_of_keywordBetween? {t : Text} {a b : Nat} {k : Keyword} (hk : k.IsPlain) {r : Span}
    (hb : IsCut t b) (h : keywordBetween? t a b k = some r) :
    a ≤ r.start ∧ r.start < r.stop ∧ r.stop ≤ b := by
  obtain ⟨hmem, ha, hlt⟩ := mem_of_keywordBetween? h
  have hks : ArePlain [k] := by simpa [ArePlain] using hk
  exact ⟨ha, (bounds_of_mem_keywordSpans hks hmem).2.1, stop_le_of_isCut hks hb hmem hlt⟩

theorem isCut_of_keywordBetween? {t : Text} {a b : Nat} {k : Keyword} (hk : k.IsPlain) {r : Span}
    (h : keywordBetween? t a b k = some r) : IsCut t r.start :=
  isCut_start_of_mem (by simpa [ArePlain] using hk) (mem_of_keywordBetween? h).1

/-- The place that `endBefore` gives is its limit, or a keyword starts there. -/
theorem endBefore_eq_or (t : Text) (a b : Nat) (ks : List Keyword) :
    endBefore t a b ks = b ∨ ∃ r ∈ keywordSpans ks .top 0 none t,
      a ≤ r.start ∧ r.start < b ∧ endBefore t a b ks = r.start := by
  rw [endBefore]
  cases h : (findAnyKeyword t a ks).filter fun word => decide (word.start < b) with
  | none => exact Or.inl rfl
  | some r =>
    rw [findAnyKeyword_eq, Option.filter_eq_some_iff] at h
    exact Or.inr ⟨r, List.mem_of_find?_eq_some h.1, by simpa using List.find?_some h.1,
      by simpa using h.2, rfl⟩

theorem endBefore_le (t : Text) (a b : Nat) (ks : List Keyword) : endBefore t a b ks ≤ b := by
  rcases endBefore_eq_or t a b ks with h | ⟨r, -, -, hlt, h⟩ <;> omega

theorem le_endBefore (t : Text) {a b : Nat} (hab : a ≤ b) (ks : List Keyword) :
    a ≤ endBefore t a b ks := by
  rcases endBefore_eq_or t a b ks with h | ⟨r, -, ha, -, h⟩ <;> omega

/-- Where a search ends at a cut, its result is a cut as well. -/
theorem isCut_endBefore {ks : List Keyword} (hks : ArePlain ks) {t : Text} {b : Nat}
    (hb : IsCut t b) (a : Nat) : IsCut t (endBefore t a b ks) := by
  rcases endBefore_eq_or t a b ks with h | ⟨r, hr, -, -, h⟩
  · rwa [h]
  · rw [h]
    exact isCut_start_of_mem hks hr

end LooseSql
