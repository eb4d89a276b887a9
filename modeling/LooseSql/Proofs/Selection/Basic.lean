import LooseSql.Proofs.Clause.Carries
import LooseSql.Selection

/-!
# Selections

What is known about the selection that a script comes down to. A script comes down to the selection
at the head of its normal form (`Selection.exists_of_locate?`). The statement of a selection is read
by itself: what follows it plays no part in its layout (`Selection.locate?_body`).
-/

namespace LooseSql

/-- The clauses of a statement are cut out of a longer text all the same. -/
theorem Layout.map_slice_append {layout : Layout} (hordered : layout.Ordered) {u w : Text}
    (hstop : layout.stop ≤ u.length) (span : Option Span) (hspan : span ∈ layout.clauses) :
    span.map (·.slice (u ++ w)) = span.map (·.slice u) := by
  cases span with
  | none => rfl
  | some r =>
    have hle := hordered.le_stop r.stop (mem_places_of_mem_clauses hspan (by simp [endsOf]))
    rw [Option.map_some, Option.map_some, Span.slice_append_left (hle.trans hstop)]

/-- A script comes down to the statement at the head of its normal form. -/
theorem Statement.ofScript?_eq {sql t : Text} {layout : Layout} (hnormal : normalize sql = t)
    (hlayout : Layout.locate? t = some layout) :
    Statement.ofScript? sql = some ⟨t, layout, hlayout⟩ := by
  rw [Statement.ofScript?, hnormal, Statement.ofText?]
  split
  · rename_i layout' hlayout'
    obtain rfl := Option.some.inj (hlayout.symm.trans hlayout')
    rfl
  · rename_i hnone
    exact absurd (hlayout.symm.trans hnone) (by simp)

namespace Selection

variable {sql : Text} {s : Selection}

theorem text_of_ofScript? (h : ofScript? sql = some s) : s.text = normalize sql := by
  obtain ⟨statement, hstatement, hs⟩ := Option.bind_eq_some_iff.1 h
  have htext : statement.text = normalize sql := by
    rw [Statement.ofScript?, Statement.ofText?] at hstatement
    split at hstatement
    · obtain rfl := Option.some.inj hstatement
      rfl
    · exact absurd hstatement (by simp)
  rw [ofStatement?] at hs
  split at hs
  · obtain rfl := Option.some.inj hs
    exact htext
  · exact absurd hs (by simp)

/-- A script whose normal form has FROM and a list comes down to a selection. -/
theorem exists_of_locate? {t : Text} {layout : Layout} {f : Nat} (hnormal : normalize sql = t)
    (hlayout : Layout.locate? t = some layout) (hsource : layout.source = some f)
    (hlist : layout.list.isEmpty = false) :
    ∃ s, ofScript? sql = some s ∧ s.text = t ∧ s.layout = layout ∧ s.sourceStart = f := by
  refine ⟨⟨⟨t, layout, hlayout⟩, f, hsource, hlist⟩, ?_, rfl, rfl, rfl⟩
  rw [ofScript?, Statement.ofScript?_eq hnormal hlayout, Option.bind_some, ofStatement?]
  split
  · rename_i f' hsource' _
    obtain rfl := Option.some.inj (hsource.symm.trans hsource')
    rfl
  · rename_i hnot
    exact absurd hlist (hnot f hsource)

variable (s)

theorem body_append_remainder : s.body ++ s.remainder = s.text := List.take_append_drop _ _

theorem stop_eq : s.layout.stop = statementStop s.text := by
  obtain ⟨head, hhead, hlayout⟩ := Option.map_eq_some_iff.1 s.located
  rw [← hlayout]
  exact (Head.isSound_of_locate? hhead).stop_eq

theorem isCut_stop : IsCut s.text s.layout.stop := by
  rw [s.stop_eq]
  exact isCut_statementStop s.text

theorem stop_le_length : s.layout.stop ≤ s.text.length := by
  rw [s.stop_eq]
  exact statementStop_le_length s.text

/-- The statement of a selection is the first statement of its text. -/
theorem isStatement : IsStatement s.body s.remainder := by
  have h := isStatement_take_drop s.text
  rwa [← s.stop_eq] at h

/-- The layout of a selection is the one of its statement. -/
theorem locate?_body : Layout.locate? s.body = some s.layout := by
  rw [← Layout.locate?_append s.isStatement, s.body_append_remainder]
  exact s.located

theorem length_body : s.body.length = s.layout.stop := List.length_take_of_le s.stop_le_length

/-- The head of a selection, with the word FROM. -/
theorem exists_head : ∃ (head : Head) (body rest : Text),
    head.Starts s.body body rest ∧ head.IsSound s.body ∧ head.stop = s.body.length ∧
    head.source? s.body = some ⟨s.sourceStart, s.sourceStart + 4⟩ ∧
    head.layout s.body = s.layout := by
  obtain ⟨head, hhead, hlayout⟩ := Option.map_eq_some_iff.1 s.locate?_body
  have hstatement := isStatement_nil s.isStatement.trimEnd_eq s.isStatement.semicolon_eq
  have hsound := Head.isSound_of_locate? hhead
  have hstarts := hhead
  rw [← List.append_nil s.body, Head.locate?_eq_some_iff hstatement] at hstarts
  obtain ⟨body, rest, hstarts⟩ := hstarts
  refine ⟨head, body, rest, hstarts, hsound, hstarts.stop_eq, ?_, hlayout⟩
  have hsource := s.source_eq
  rw [← hlayout] at hsource
  obtain ⟨word, hword, hstart⟩ := Option.map_eq_some_iff.1 hsource
  have hstop := (hsound.source?_bounds hword).2.1
  rw [hword, ← hstart, ← hstop]

theorem ordered : s.layout.Ordered := by
  obtain ⟨head, -, -, -, hsound, -, -, hlayout⟩ := s.exists_head
  exact hlayout ▸ hsound.ordered_layout

theorem suffixStart_le : s.layout.suffixStart ≤ s.layout.stop := by
  rw [s.ordered.suffixStart_eq]
  cases ho : s.layout.order with
  | some o => exact s.ordered.le_stop _ (by simp [Layout.places, Layout.suffixPlaces, ho])
  | none =>
    cases hh : s.layout.hints with
    | some r =>
      exact s.ordered.le_stop r.start (by
        simp [Layout.places, Layout.suffixPlaces, Layout.endsOf, hh])
    | none => exact Nat.le_refl _

/-- What the layout cuts out of the text lies in the statement. -/
theorem map_slice_body (span : Option Span) (hspan : span ∈ s.layout.clauses) :
    span.map (·.slice s.body) = span.map (·.slice s.text) := by
  rw [← s.body_append_remainder,
    Layout.map_slice_append s.ordered (Nat.le_of_eq s.length_body.symm) span hspan]

end Selection

end LooseSql
