import LooseSql.Proofs.Clause.Enclosure
import LooseSql.Proofs.Split.Items

/-!
# Row counts in parentheses

The row count of a limit may stand in parentheses. It is read up to the next closing parenthesis,
whatever stands in between, so a count with parentheses of its own, such as `TOP (ABS(n))`, is cut
off inside. The list then starts inside the count, and what is read of it alone differs from what
stands there in the statement.

* `enclosed`: what stands inside the parentheses of a head;
* `Layout.list_isClosed_iff`: the list starts at the top level exactly if that text comes back to
  it, and then the list is cut at the commas that stand at the top level of the statement.
-/

namespace LooseSql

/-! ## States -/

namespace ScanState

/-- The state behind the parentheses around a text that ends in state `s`. In a quote the closing
one does not count, and then neither does the opening one of the next parentheses. -/
def close (s : ScanState) : ScanState := if s.quote.isSome then Enclosure.deeper s else s

theorem deeper_step_closing (s : ScanState) : (Enclosure.deeper s).step ')' = s.close := by
  rcases s with ⟨depth, _ | q⟩
  · simp [step, Enclosure.deeper, close, Quote.ofOpener?]
  · cases q <;> simp [step, Enclosure.deeper, close, Quote.closer]

theorem close_step_opening (s : ScanState) : s.close.step '(' = Enclosure.deeper s := by
  rcases s with ⟨depth, _ | q⟩
  · simp [step, Enclosure.deeper, close, Quote.ofOpener?]
  · cases q <;> simp [step, Enclosure.deeper, close, Quote.closer]

theorem close_eq_top_iff {s : ScanState} : s.close = top ↔ s = top := by
  rcases s with ⟨depth, _ | q⟩ <;> simp [close, Enclosure.deeper, top]

end ScanState

/-! ## Parentheses -/

/-- What stands inside parentheses, one stretch behind the other, for a text that starts inside or
outside of them. An opening parenthesis goes with the next closing one, whatever stands between. -/
def enclosed : (inside : Bool) → Text → Text
  | _, [] => []
  | false, c :: t => enclosed (c == '(') t
  | true, c :: t => if c = ')' then enclosed false t else c :: enclosed true t

theorem enclosed_append_of_not_opening {u : Text} (hu : '(' ∉ u) (t : Text) :
    enclosed false (u ++ t) = enclosed false t := by
  induction u with
  | nil => rfl
  | cons c u ih =>
    have hc : (c == '(') = false := by
      rw [beq_eq_false_iff_ne]
      rintro rfl
      exact hu (by simp)
    rw [List.cons_append, enclosed, hc, ih fun h => hu (by simp [h])]

theorem enclosed_append_closing {u : Text} (hu : ')' ∉ u) (t : Text) :
    enclosed true (u ++ ')' :: t) = u ++ enclosed false t := by
  induction u with
  | nil => rfl
  | cons c u ih =>
    have hc : c ≠ ')' := by
      rintro rfl
      exact hu (by simp)
    rw [List.cons_append, enclosed, if_neg hc, ih fun h => hu (by simp [h]), List.cons_append]

/-- The parentheses of the text are complete, and a scan of it goes like one of what they
enclose. -/
structure IsEnclosing (u : Text) : Prop where
  /-- No parenthesis is left open. -/
  enclosed_append : ∀ t, enclosed false (u ++ t) = enclosed false u ++ enclosed false t
  /-- What stands outside the parentheses does not matter to a scan. -/
  scan_eq : ∀ s : ScanState, scan s.close u = (scan s (enclosed false u)).close

namespace IsEnclosing

theorem append {u v : Text} (hu : IsEnclosing u) (hv : IsEnclosing v) : IsEnclosing (u ++ v) where
  enclosed_append t := by
    rw [List.append_assoc, hu.enclosed_append, hv.enclosed_append, hu.enclosed_append v,
      List.append_assoc]
  scan_eq s := by
    rw [scan_append, hu.scan_eq, hv.scan_eq, hu.enclosed_append, scan_append]

theorem of_not_mark {u : Text} (hu : ∀ c ∈ u, isScanMark c = false) : IsEnclosing u := by
  have hopening : '(' ∉ u := fun h => absurd (hu _ h) (by decide)
  have hnil : enclosed false u = [] := by
    have h := enclosed_append_of_not_opening hopening []
    rwa [List.append_nil] at h
  refine ⟨fun t => ?_, fun s => ?_⟩
  · rw [enclosed_append_of_not_opening hopening, hnil, List.nil_append]
  · rw [scan_of_not_mark hu, hnil, scan_nil]

/-- One pair of parentheses, up to the first closing one. -/
theorem parentheses {inner : Text} (hinner : ')' ∉ inner) :
    IsEnclosing ('(' :: (inner ++ [')'])) := by
  have henclosed : ∀ t, enclosed false ('(' :: (inner ++ ')' :: t)) = inner ++ enclosed false t :=
    fun t => enclosed_append_closing hinner t
  have hself : enclosed false ('(' :: (inner ++ [')'])) = inner := by
    rw [henclosed []]
    exact List.append_nil inner
  refine ⟨fun t => ?_, fun s => ?_⟩
  · rw [hself, List.cons_append, List.append_assoc, List.singleton_append]
    exact henclosed t
  · have hdeeper : scan (Enclosure.deeper s) inner = Enclosure.deeper (scan s inner) :=
      (Enclosure.scan_deeper fun _ _ hsplit => absurd (by simp [hsplit]) hinner).1
    rw [hself, scan_cons, ScanState.close_step_opening, scan_append, hdeeper]
    exact ScanState.deeper_step_closing _

theorem of_isRaw {raw : Text} (h : Modifier.IsRaw raw) : IsEnclosing raw := by
  rcases h with h | ⟨u, inner, w, rfl, hu, hinner, hw⟩
  · exact of_not_mark h
  · have hsplit : u ++ '(' :: (inner ++ ')' :: w) = u ++ ('(' :: (inner ++ [')']) ++ w) := by simp
    rw [hsplit]
    exact (of_not_mark hu).append ((parentheses hinner).append (of_not_mark hw))

theorem isClosed_iff {u : Text} (h : IsEnclosing u) :
    u.IsClosed ↔ Text.IsClosed (enclosed false u) := by
  have hscan : scan .top u = (scan .top (enclosed false u)).close := h.scan_eq .top
  rw [Text.IsClosed, Text.IsClosed, hscan, ScanState.close_eq_top_iff]

end IsEnclosing

/-- The modifiers that are read one after another have complete parentheses. -/
theorem Modifiers.Reads.exists_isEnclosing {modifiers modifiers' : Modifiers} {t t' : Text}
    (h : Reads modifiers t modifiers' t') : ∃ raw, t = raw ++ t' ∧ IsEnclosing raw := by
  induction h with
  | stop => exact ⟨[], rfl, .of_not_mark (by simp)⟩
  | step h _ ih =>
    obtain ⟨raw, rfl, -, hraw⟩ := Modifier.read?_suffix h
    obtain ⟨raw', rfl, hraw'⟩ := ih
    exact ⟨raw ++ raw', by rw [List.append_assoc], (IsEnclosing.of_isRaw hraw).append hraw'⟩

/-- The head of a statement has complete parentheses: the word SELECT has none. -/
theorem Head.Starts.isEnclosing {u body rest : Text} {head : Head} (h : head.Starts u body rest) :
    IsEnclosing (u.take head.start) := by
  obtain ⟨word, rfl, -, -, hword⟩ := Keyword.exists_of_after? (by decide) h.select
  obtain ⟨raw, rfl, hraw⟩ := h.reads.exists_isEnclosing
  have htake : (word ++ (raw ++ rest)).take head.start = word ++ raw := by
    rw [h.start_eq, ← List.append_assoc, List.length_append, Nat.add_sub_cancel, List.take_left]
  rw [htake]
  refine (IsEnclosing.of_not_mark fun c hc => ?_).append hraw
  rcases hword c hc with halpha | hblank
  · exact isScanMark_of_isAlpha halpha
  · exact isScanMark_of_isBlank hblank

/-! ## Main statement -/

/-- The list of a statement starts at the top level exactly if what the parentheses in front of it
enclose comes back to it. Then the commas at the top level of the list are those of the statement
that stand in the list, and its items are what stands between them. -/
theorem Layout.list_isClosed_iff {t : Text} {layout : Layout} (h : locate? t = some layout) :
    (Text.IsClosed (t.take layout.list.start) ↔
        Text.IsClosed (enclosed false (t.take layout.list.start))) ∧
      (Text.IsClosed (t.take layout.list.start) →
        (commas (layout.list.slice t)).map (Span.map (· + layout.list.start)) =
            (commas t).filter (fun c =>
              decide (layout.list.start ≤ c.start ∧ c.stop ≤ layout.list.stop)) ∧
          items (layout.list.slice t) = fragments (piecesBetween (t.take layout.list.stop)
            layout.list.start ((commas t).filter fun c =>
              decide (layout.list.start ≤ c.start ∧ c.stop ≤ layout.list.stop)))) := by
  obtain ⟨head, hhead, rfl⟩ := Option.map_eq_some_iff.1 h
  have hsound := Head.isSound_of_locate? hhead
  obtain ⟨u, w, body, rest, rfl, -, hstarts⟩ := Head.exists_of_locate? hhead
  rw [Head.layout_list]
  generalize hs : Span.mk head.start (head.listStop (u ++ w)) = s
  have hstart : s.start = head.start := by rw [← hs]
  have hle : s.start ≤ s.stop := by
    rw [← hs]
    exact hsound.start_le_listStop
  have hstop : s.stop ≤ (u ++ w).length := by
    rw [← hs]
    exact hsound.listStop_le_stop.trans hsound.stop_le_length
  -- Only blanks stand between the head and the list.
  have hfront : IsEnclosing ((u ++ w).take (s.trim (u ++ w)).start) := by
    rw [← Span.take_append_slice (s := ⟨s.start, (s.trim (u ++ w)).start⟩)
      (s.start_le_start_trim _), hstart,
      List.take_append_of_le_length (hstarts.stop_eq ▸ hstarts.bounds.2)]
    refine hstarts.isEnclosing.append (.of_not_mark fun c hc => isScanMark_of_isBlank ?_)
    rw [← hstart] at hc
    exact (s.isBlank_around_trim (u ++ w)).1 c hc
  refine ⟨hfront.isClosed_iff, fun hclosed => ?_⟩
  obtain ⟨hcommas, hpieces⟩ := commas_slice (s.start_trim_le_stop_trim (u ++ w))
    ((s.stop_trim_le_stop _ hle).trans hstop) hclosed
  exact ⟨hcommas, by rw [items, hpieces]⟩

/-- A row count with parentheses and a comma in a quote comes back to the top level. -/
theorem Layout.list_isClosed_iff_quoted :
    ∃ layout, locate? "SELECT TOP ('((,') a, f(1, 2) FROM t".toList = some layout ∧
      Text.IsClosed (List.take layout.list.start "SELECT TOP ('((,') a, f(1, 2) FROM t".toList) ∧
      items (layout.list.slice "SELECT TOP ('((,') a, f(1, 2) FROM t".toList) =
        ["a".toList, "f(1, 2)".toList] := by
  have h : locate? "SELECT TOP ('((,') a, f(1, 2) FROM t".toList =
      some ⟨⟨19, 29⟩, some 30, none, none, none, none, none, 36,
        ⟨false, false, some "TOP ('((,')".toList⟩⟩ := by
    decide
  obtain ⟨hiff, hlist⟩ := Layout.list_isClosed_iff h
  have hclosed := hiff.2 (by decide)
  refine ⟨_, h, hclosed, ?_⟩
  rw [(hlist hclosed).2]
  decide

/-- The count `(ISNULL(ABS(@n), 1))` ends behind `@n`, so the list starts inside it and is cut at a
comma that does not stand at the top level. -/
theorem Layout.list_not_isClosed :
    ∃ layout, locate? "SELECT TOP (ISNULL(ABS(@n), 1)) a, b FROM t".toList = some layout ∧
      ¬ Text.IsClosed
        (List.take layout.list.start "SELECT TOP (ISNULL(ABS(@n), 1)) a, b FROM t".toList) ∧
      layout.list.slice "SELECT TOP (ISNULL(ABS(@n), 1)) a, b FROM t".toList =
        ", 1)) a, b".toList ∧
      (commas (layout.list.slice "SELECT TOP (ISNULL(ABS(@n), 1)) a, b FROM t".toList)).map
          (Span.map (· + layout.list.start)) ≠
        (commas "SELECT TOP (ISNULL(ABS(@n), 1)) a, b FROM t".toList).filter
          (fun c => decide (layout.list.start ≤ c.start ∧ c.stop ≤ layout.list.stop)) := by
  have h : locate? "SELECT TOP (ISNULL(ABS(@n), 1)) a, b FROM t".toList =
      some ⟨⟨26, 36⟩, some 37, none, none, none, none, none, 43,
        ⟨false, false, some "TOP (ISNULL(ABS(@n)".toList⟩⟩ := by
    decide
  exact ⟨_, h, by decide, by decide, by decide⟩

end LooseSql
