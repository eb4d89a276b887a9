import LooseSql.Clause.Layout
import LooseSql.Proofs.Scan

/-!
# The extent of the first statement

A text is the first statement in it, `u`, followed by a rest, `w`: blanks, and then nothing or a
semicolon at the top level with anything behind it. `IsStatement u w` says so, and `statementStop`
is the length of `u` exactly in this case (`isStatement_take_drop`, `IsStatement.statementStop_eq`).
What stands behind the semicolon does not matter.
-/

namespace LooseSql

/-- The place of the first semicolon at the top level of a text, for a scan that is in state `s` at
its start and has `i` characters behind it. -/
def semicolonFrom? (s : ScanState) (i : Nat) : Text → Option Nat
  | [] => none
  | c :: t => if s.shows c && c == ';' then some i else semicolonFrom? (s.step c) (i + 1) t

theorem find?_semicolon_topLevelFrom (s : ScanState) (i : Nat) (before : Option Char) (t : Text) :
    ((topLevelFrom s i before t).find? fun p => p.char == ';').map (·.index) =
      semicolonFrom? s i t := by
  induction t generalizing s i before with
  | nil => rfl
  | cons c t ih =>
    rw [topLevelFrom, semicolonFrom?, ← ih (s.step c) (i + 1) (some c)]
    cases hs : s.shows c with
    | false => rfl
    | true => cases hc : c == ';' <;> simp [hc]

theorem statementStop_eq (t : Text) : statementStop t =
    (Text.trimEnd (t.take ((semicolonFrom? .top 0 t).getD t.length))).length := by
  rw [statementStop, ← find?_semicolon_topLevelFrom .top 0 none t, topLevel]
  cases (topLevelFrom .top 0 none t).find? fun p => p.char == ';' <;> rfl

/-- The first semicolon of a text in two parts. -/
theorem semicolonFrom?_append (s : ScanState) (i : Nat) (u v : Text) :
    semicolonFrom? s i (u ++ v) =
      (semicolonFrom? s i u).or (semicolonFrom? (scan s u) (i + u.length) v) := by
  induction u generalizing s i with
  | nil => simp [semicolonFrom?]
  | cons c u ih =>
    have hlen : i + 1 + u.length = i + (c :: u).length := by simp; omega
    rw [List.cons_append, semicolonFrom?, semicolonFrom?, ih, scan_cons, hlen]
    split <;> rfl

/-- Moving a text moves its semicolon. -/
theorem semicolonFrom?_add (s : ScanState) (i n : Nat) (t : Text) :
    semicolonFrom? s (i + n) t = (semicolonFrom? s i t).map (· + n) := by
  induction t generalizing s i with
  | nil => rfl
  | cons c t ih =>
    rw [semicolonFrom?, semicolonFrom?, Nat.add_right_comm, ih]
    split <;> rfl

/-- Whether there is a semicolon does not depend on where the text stands. -/
theorem semicolonFrom?_eq_none_of_zero {s : ScanState} {t : Text}
    (h : semicolonFrom? s 0 t = none) (i : Nat) : semicolonFrom? s i t = none := by
  rw [← Nat.zero_add i, semicolonFrom?_add, h]
  rfl

/-- A text without the character has no semicolon. -/
theorem semicolonFrom?_eq_none_of_not_mem {t : Text} (ht : ';' ∉ t) (s : ScanState) (i : Nat) :
    semicolonFrom? s i t = none := by
  induction t generalizing s i with
  | nil => rfl
  | cons c t ih =>
    have hc : c ≠ ';' := fun h => ht (by simp [h])
    rw [semicolonFrom?, if_neg (by simp [hc]), ih fun h => ht (by simp [h])]

/-- Where the first semicolon stands. -/
theorem exists_of_semicolonFrom? {s : ScanState} {i n : Nat} {t : Text}
    (h : semicolonFrom? s i t = some n) :
    ∃ u r : Text, t = u ++ ';' :: r ∧ n = i + u.length ∧ scan s u = .top ∧
      semicolonFrom? s i u = none := by
  induction t generalizing s i with
  | nil => simp [semicolonFrom?] at h
  | cons c t ih =>
    rw [semicolonFrom?] at h
    by_cases hc : (s.shows c && c == ';') = true
    · rw [if_pos hc, Option.some.injEq] at h
      rw [Bool.and_eq_true, beq_iff_eq] at hc
      exact ⟨[], t, by rw [hc.2]; rfl, h.symm, ScanState.eq_top_of_shows hc.1, rfl⟩
    · rw [if_neg hc] at h
      obtain ⟨u, r, ht, hn, hscan, hu⟩ := ih h
      refine ⟨c :: u, r, by rw [ht]; rfl, by simp [hn]; omega, hscan, ?_⟩
      rw [semicolonFrom?, if_neg hc, hu]

/-- `u` is the first statement of the text `u ++ w`. -/
structure IsStatement (u w : Text) : Prop where
  /-- The statement does not end in a blank. -/
  trimEnd_eq : Text.trimEnd u = u
  /-- There is no semicolon in it. -/
  semicolon_eq : semicolonFrom? .top 0 u = none
  /-- It is followed by blanks, and then by nothing or by a semicolon at the top level. -/
  exists_rest : ∃ ws r : Text, w = ws ++ r ∧ (∀ c ∈ ws, isBlank c) ∧
    (r = [] ∨ ∃ r', r = ';' :: r' ∧ u.IsClosed)

/-- A text without trailing blanks and without a semicolon is a statement by itself. -/
theorem isStatement_nil {u : Text} (htrim : Text.trimEnd u = u)
    (hsemicolon : semicolonFrom? .top 0 u = none) : IsStatement u [] :=
  ⟨htrim, hsemicolon, [], [], rfl, by simp, Or.inl rfl⟩

/-- The first statement ends where it is said to end. -/
theorem IsStatement.statementStop_eq {u w : Text} (h : IsStatement u w) :
    statementStop (u ++ w) = u.length := by
  obtain ⟨htrim, hnone, ws, r, rfl, hws, hr⟩ := h
  have hblank : ';' ∉ ws := fun hmem => absurd (hws _ hmem) (by decide)
  -- Neither the statement nor the blanks hold a semicolon, so the first one starts the rest.
  have hfirst : semicolonFrom? .top 0 (u ++ (ws ++ r)) =
      semicolonFrom? (scan .top u) (u.length + ws.length) r := by
    rw [semicolonFrom?_append, hnone, semicolonFrom?_append,
      semicolonFrom?_eq_none_of_not_mem hblank, scan_of_blank hws]
    simp
  rw [LooseSql.statementStop_eq, hfirst]
  rcases hr with rfl | ⟨r', rfl, hclosed⟩
  · rw [semicolonFrom?, Option.getD_none, List.take_length, List.append_nil,
      Text.trimEnd_append_of_blank u hws, htrim]
  · have hstop : semicolonFrom? (scan .top u) (u.length + ws.length) (';' :: r') =
        some (u.length + ws.length) := by
      rw [hclosed.scan_eq, semicolonFrom?]
      rfl
    rw [hstop, Option.getD_some, ← List.append_assoc, ← List.length_append, List.take_left,
      Text.trimEnd_append_of_blank u hws, htrim]

/-- A text without a semicolon is a statement with blanks behind it. -/
theorem isStatement_trimEnd {v ws r : Text} (hsplit : v.trimEnd ++ ws = v)
    (hws : ∀ c ∈ ws, isBlank c) (hnone : semicolonFrom? .top 0 v = none)
    (hr : r = [] ∨ ∃ r', r = ';' :: r' ∧ v.IsClosed) : IsStatement v.trimEnd (ws ++ r) := by
  have hfirst : semicolonFrom? .top 0 v.trimEnd = none := by
    rw [← hsplit, semicolonFrom?_append, Option.or_eq_none_iff] at hnone
    exact hnone.1
  refine ⟨Text.trimEnd_trimEnd v, hfirst, ws, r, rfl, hws, hr.imp_right ?_⟩
  rintro ⟨r', rfl, hclosed⟩
  rw [Text.IsClosed, ← hsplit, scan_append, scan_of_blank hws] at hclosed
  exact ⟨r', rfl, hclosed⟩

/-- A text falls into its first statement and a rest. -/
theorem isStatement_take_drop (t : Text) :
    IsStatement (t.take (statementStop t)) (t.drop (statementStop t)) := by
  -- The text in front of the first semicolon is the statement with blanks behind it.
  obtain ⟨v, r, ht, hv, hnone, hr⟩ : ∃ v r : Text, t = v ++ r ∧
      v = t.take ((semicolonFrom? .top 0 t).getD t.length) ∧ semicolonFrom? .top 0 v = none ∧
      (r = [] ∨ ∃ r', r = ';' :: r' ∧ v.IsClosed) := by
    cases h : semicolonFrom? .top 0 t with
    | none => exact ⟨t, [], by simp, by simp, h, Or.inl rfl⟩
    | some n =>
      obtain ⟨v, r, rfl, rfl, hscan, hv⟩ := exists_of_semicolonFrom? h
      exact ⟨v, ';' :: r, rfl, by simp, hv, Or.inr ⟨r, rfl, hscan⟩⟩
  obtain ⟨ws, hws, hvws⟩ := Text.exists_trimEnd_append_blank v
  have hstop : statementStop t = (Text.trimEnd v).length := by rw [LooseSql.statementStop_eq, ← hv]
  have hsplit : t = Text.trimEnd v ++ (ws ++ r) := by rw [← List.append_assoc, hvws, ht]
  have htake : t.take (statementStop t) = Text.trimEnd v := by
    rw [hstop, congrArg (List.take _) hsplit, List.take_left]
  have hdrop : t.drop (statementStop t) = ws ++ r := by
    rw [hstop, congrArg (List.drop _) hsplit, List.drop_left]
  rw [htake, hdrop]
  exact isStatement_trimEnd hvws hws hnone hr

theorem statementStop_le_length (t : Text) : statementStop t ≤ t.length := by
  rw [statementStop_eq]
  exact (Text.length_trimEnd_le _).trans (List.length_take_le' _ _)

end LooseSql
