import LooseSql.Proofs.Scan
import LooseSql.Proofs.Text.After
import LooseSql.Split.Predicates

/-!
# Cutting a text into pieces

Comma lists and conditions are cut alike: at spans of the text that stand one behind the other and
at the top level (`IsCutting`), into the pieces between them, which are then trimmed and dropped if
they are blank.

* `exists_of_mem_piecesBetween`: a piece stands between two neighbouring cuts, and no cut touches
  it;
* `flatten_piecesBetween`: pieces and cuts in turn are the text again;
* `isClosed_of_mem_dropLast_pieces`: all pieces but the last one end at the top level;
* `fragments_eq_singleton_iff`: a text without blanks at its ends is one fragment if it is not cut;
* `split_joinWith`: fragments that are not cut themselves come back when they are joined again.
-/

namespace LooseSql

/-- A text is its trimmed part with blanks around it. -/
theorem Text.exists_trim_eq (t : Text) : ∃ ws ws' : Text, (∀ c ∈ ws, isBlank c = true) ∧
    (∀ c ∈ ws', isBlank c = true) ∧ t = ws ++ (t.trim ++ ws') := by
  obtain ⟨ws, hws, hleft⟩ := exists_blank_append_trimStart t
  obtain ⟨ws', hws', hright⟩ := exists_trimEnd_append_blank (trimStart t)
  exact ⟨ws, ws', hws, hws', by rw [trim, hright, hleft]⟩

/-- Blanks at the ends do not matter to a scan. -/
theorem scan_trim (s : ScanState) (t : Text) : scan s t.trim = scan s t := by
  obtain ⟨ws, ws', hws, hws', ht⟩ := t.exists_trim_eq
  conv_rhs => rw [ht, scan_append, scan_append, scan_of_blank hws, scan_of_blank hws']

/-! ## Fragments -/

theorem fragments_append (pieces others : List Text) :
    fragments (pieces ++ others) = fragments pieces ++ fragments others := by
  rw [fragments, List.map_append, List.filter_append, fragments, fragments]

/-- Pieces that are trimmed to the same text make the same fragment. -/
theorem fragments_cons_congr {x y : Text} (h : x.trim = y.trim) (pieces : List Text) :
    fragments (x :: pieces) = fragments (y :: pieces) := by
  rw [fragments, List.map_cons, h, ← List.map_cons, fragments]

theorem fragments_cons (x : Text) (pieces : List Text) :
    fragments (x :: pieces) = fragments [x] ++ fragments pieces :=
  fragments_append [x] pieces

theorem mem_fragments {pieces : List Text} {f : Text} :
    f ∈ fragments pieces ↔ (∃ piece ∈ pieces, piece.trim = f) ∧ f ≠ [] := by
  simp [fragments]

theorem fragments_singleton {f : Text} (htrim : f.trim = f) (hne : f ≠ []) :
    fragments [f] = [f] := by
  simp [fragments, htrim, hne]

/-- If all pieces but the last one end at the top level, so do all fragments but the last one. -/
theorem isClosed_of_mem_dropLast_fragments {pieces : List Text}
    (h : ∀ piece ∈ pieces.dropLast, piece.IsClosed) :
    ∀ f ∈ (fragments pieces).dropLast, f.IsClosed := by
  have hall : ∀ f ∈ fragments pieces.dropLast, f.IsClosed := by
    intro f hf
    obtain ⟨⟨piece, hpiece, rfl⟩, -⟩ := mem_fragments.1 hf
    rw [Text.IsClosed, scan_trim]
    exact h piece hpiece
  intro f hf
  rcases List.eq_nil_or_concat pieces with rfl | ⟨front, last, rfl⟩
  · simp [fragments] at hf
  · rw [List.concat_eq_append, List.dropLast_concat] at hall
    rw [List.concat_eq_append, fragments_append] at hf
    -- The last piece makes one fragment, which is dropped, or none.
    have hlast : fragments [last] = [] ∨ fragments [last] = [last.trim] := by
      by_cases hblank : last.trim = [] <;> simp [fragments, hblank]
    rcases hlast with hlast | hlast <;> rw [hlast] at hf
    · rw [List.append_nil] at hf
      exact hall f (List.dropLast_subset _ hf)
    · rw [List.dropLast_concat] at hf
      exact hall f hf

/-- Texts that a cutting leaves whole come back when they are joined and cut again, if the cutting
does not see beyond the gap behind a text that ends at the top level. -/
theorem split_joinWith {split : Text → List Text} {gap : Text} (hnil : split [] = [])
    (happend : ∀ u v : Text, u.IsClosed → split (u ++ (gap ++ v)) = split u ++ split v)
    {fs : List Text} (hwhole : ∀ f ∈ fs, split f = [f])
    (hclosed : ∀ f ∈ fs.dropLast, f.IsClosed) : split (Text.joinWith gap fs) = fs := by
  induction fs with
  | nil => exact hnil
  | cons f fs ih =>
    have hf : split f = [f] := hwhole f List.mem_cons_self
    cases fs with
    | nil => rwa [Text.joinWith_cons, List.flatMap_nil, List.append_nil]
    | cons g fs =>
      have hrest : split (Text.joinWith gap (g :: fs)) = g :: fs :=
        ih (fun f' hf' => hwhole f' (List.mem_cons_of_mem f hf'))
          fun f' hf' => hclosed f' (List.mem_cons_of_mem f hf')
      rw [Text.joinWith_cons] at hrest ⊢
      rw [List.flatMap_cons, List.append_assoc, happend f _ (hclosed f List.mem_cons_self), hf,
        hrest, List.singleton_append]

/-! ## Cuts -/

/-- The spans at which a text is cut: they stand one behind the other, are not empty, and the text
in front of each of their ends is closed. -/
structure IsCutting (t : Text) (cuts : List Span) : Prop where
  /-- The cuts stand one behind the other. -/
  pairwise : cuts.Pairwise fun a b => a.stop ≤ b.start
  /-- No cut is empty. -/
  start_lt : ∀ cut ∈ cuts, cut.start < cut.stop
  /-- The cuts lie in the text. -/
  stop_le : ∀ cut ∈ cuts, cut.stop ≤ t.length
  /-- Each cut starts at the top level. -/
  isClosed_start : ∀ cut ∈ cuts, Text.IsClosed (t.take cut.start)
  /-- Each cut ends at the top level. -/
  isClosed_stop : ∀ cut ∈ cuts, Text.IsClosed (t.take cut.stop)

theorem IsCutting.tail {t : Text} {cut : Span} {cuts : List Span} (h : IsCutting t (cut :: cuts)) :
    IsCutting t cuts where
  pairwise := h.pairwise.of_cons
  start_lt := fun c hc => h.start_lt c (List.mem_cons_of_mem cut hc)
  stop_le := fun c hc => h.stop_le c (List.mem_cons_of_mem cut hc)
  isClosed_start := fun c hc => h.isClosed_start c (List.mem_cons_of_mem cut hc)
  isClosed_stop := fun c hc => h.isClosed_stop c (List.mem_cons_of_mem cut hc)

theorem IsCutting.stop_le_start {t : Text} {cut : Span} {cuts : List Span}
    (h : IsCutting t (cut :: cuts)) : ∀ c ∈ cuts, cut.stop ≤ c.start :=
  (List.pairwise_cons.1 h.pairwise).1

theorem piecesBetween_ne_nil (t : Text) (i : Nat) (cuts : List Span) :
    piecesBetween t i cuts ≠ [] := by
  cases cuts <;> simp [piecesBetween]

/-- The text from a place on is the piece up to the first cut, the cut, and what follows it. -/
theorem drop_eq_slice_append {t : Text} {i : Nat} {cut : Span} (hi : i ≤ cut.start)
    (hcut : cut.start ≤ cut.stop) :
    t.drop i = Span.slice ⟨i, cut.start⟩ t ++ (cut.slice t ++ t.drop cut.stop) := by
  have hpiece : t.drop i = Span.slice ⟨i, cut.start⟩ t ++ t.drop cut.start := by
    have hsplit := List.take_append_drop (cut.start - i) (t.drop i)
    rw [List.drop_drop, Nat.add_sub_cancel' hi] at hsplit
    exact hsplit.symm
  have hword : t.drop cut.start = cut.slice t ++ t.drop cut.stop := by
    have hsplit := List.take_append_drop (cut.stop - cut.start) (t.drop cut.start)
    rw [List.drop_drop, Nat.add_sub_cancel' hcut] at hsplit
    exact hsplit.symm
  rw [hpiece, hword]

section Cutting

variable {t : Text} {i : Nat} {cuts : List Span}

/-- Pieces and cuts in turn are the text again. -/
theorem flatten_piecesBetween (h : IsCutting t cuts) (hi : ∀ cut ∈ cuts, i ≤ cut.start) :
    (List.zipWith (· ++ ·) (piecesBetween t i cuts)
      (cuts.map (Span.slice · t) ++ [[]])).flatten = t.drop i := by
  induction cuts generalizing i with
  | nil => simp [piecesBetween]
  | cons cut cuts ih =>
    have hcut := (h.start_lt cut List.mem_cons_self).le
    rw [piecesBetween, List.map_cons, List.cons_append, List.zipWith_cons_cons, List.flatten_cons,
      ih h.tail h.stop_le_start, drop_eq_slice_append (hi cut List.mem_cons_self) hcut,
      List.append_assoc]

/-- Cuts that all hold the same text join the pieces to the text again. -/
theorem joinWith_piecesBetween {gap : Text} (h : IsCutting t cuts)
    (hi : ∀ cut ∈ cuts, i ≤ cut.start) (hgap : ∀ cut ∈ cuts, cut.slice t = gap) :
    Text.joinWith gap (piecesBetween t i cuts) = t.drop i := by
  induction cuts generalizing i with
  | nil => rw [piecesBetween, Text.joinWith_cons, List.flatMap_nil, List.append_nil]
  | cons cut cuts ih =>
    have hcut := (h.start_lt cut List.mem_cons_self).le
    have hrest := ih h.tail h.stop_le_start fun c hc => hgap c (List.mem_cons_of_mem cut hc)
    obtain ⟨piece, pieces, hpieces⟩ :=
      List.exists_cons_of_ne_nil (piecesBetween_ne_nil t cut.stop cuts)
    rw [hpieces, Text.joinWith_cons] at hrest
    rw [piecesBetween, hpieces, Text.joinWith_cons, List.flatMap_cons, List.append_assoc, hrest,
      drop_eq_slice_append (hi cut List.mem_cons_self) hcut, hgap cut List.mem_cons_self]

/-- A piece stands between two neighbours among the cuts and the ends of the text, and no cut
touches it. -/
theorem exists_of_mem_piecesBetween (h : IsCutting t cuts) (hi : ∀ cut ∈ cuts, i ≤ cut.start)
    (hit : i ≤ t.length) {piece : Text} (hpiece : piece ∈ piecesBetween t i cuts) :
    ∃ u v : Text, t = u ++ (piece ++ v) ∧ i ≤ u.length ∧
      (u.length = i ∨ ∃ cut ∈ cuts, cut.stop = u.length) ∧
      (v = [] ∨ ∃ cut ∈ cuts, cut.start = u.length + piece.length) ∧
      ∀ cut ∈ cuts, cut.stop ≤ u.length ∨ u.length + piece.length ≤ cut.start := by
  induction cuts generalizing i with
  | nil =>
    rw [piecesBetween, List.mem_singleton] at hpiece
    refine ⟨t.take i, [], ?_, ?_, .inl ?_, .inl rfl, by simp⟩
    · rw [hpiece, List.append_nil, List.take_append_drop]
    · rw [List.length_take, Nat.min_eq_left hit]
    · rw [List.length_take, Nat.min_eq_left hit]
  | cons cut cuts ih =>
    have hstart := hi cut List.mem_cons_self
    have hlt := h.start_lt cut List.mem_cons_self
    have hstop := h.stop_le cut List.mem_cons_self
    rcases List.mem_cons.1 hpiece with rfl | hpiece
    · -- The piece is the one up to the first cut.
      have hlen : (Span.slice ⟨i, cut.start⟩ t).length = cut.start - i :=
        Span.length_slice (hlt.le.trans hstop)
      have htake : (t.take i).length = i := by rw [List.length_take, Nat.min_eq_left hit]
      have hplace : i + (Span.slice ⟨i, cut.start⟩ t).length = cut.start := by omega
      refine ⟨t.take i, cut.slice t ++ t.drop cut.stop, ?_, htake.ge, .inl htake,
        .inr ⟨cut, List.mem_cons_self, by rw [htake, hplace]⟩, fun c hc => ?_⟩
      · rw [← drop_eq_slice_append hstart hlt.le, List.take_append_drop]
      · rw [htake, hplace]
        rcases List.mem_cons.1 hc with rfl | hc
        · exact .inr (Nat.le_refl _)
        · exact .inr (hlt.le.trans (h.stop_le_start c hc))
    · obtain ⟨u, v, ht, hle, hu, hv, haside⟩ := ih h.tail h.stop_le_start hstop hpiece
      refine ⟨u, v, ht, (hstart.trans hlt.le).trans hle, .inr ?_, ?_, fun c hc => ?_⟩
      · rcases hu with hu | ⟨c, hc, hu⟩
        · exact ⟨cut, List.mem_cons_self, hu.symm⟩
        · exact ⟨c, List.mem_cons_of_mem cut hc, hu⟩
      · rcases hv with hv | ⟨c, hc, hv⟩
        · exact .inl hv
        · exact .inr ⟨c, List.mem_cons_of_mem cut hc, hv⟩
      · rcases List.mem_cons.1 hc with rfl | hc
        · exact .inl hle
        · exact haside c hc

/-- What stands in front of a piece ends at the top level. -/
theorem IsCutting.isClosed_front (h : IsCutting t cuts) {u v : Text} (ht : t = u ++ v)
    (hu : u.length = 0 ∨ ∃ cut ∈ cuts, cut.stop = u.length) : u.IsClosed := by
  rcases hu with hu | ⟨cut, hcut, hu⟩
  · rw [List.length_eq_zero_iff.1 hu]
    rfl
  · have hclosed := h.isClosed_stop cut hcut
    rwa [hu, ht, List.take_left] at hclosed

/-- All pieces but the last one end at the top level. -/
theorem isClosed_of_mem_dropLast_pieces (h : IsCutting t cuts) (hi : ∀ cut ∈ cuts, i ≤ cut.start)
    (hclosed : Text.IsClosed (t.take i)) :
    ∀ piece ∈ (piecesBetween t i cuts).dropLast, piece.IsClosed := by
  induction cuts generalizing i with
  | nil => simp [piecesBetween]
  | cons cut cuts ih =>
    intro piece hpiece
    rw [piecesBetween, List.dropLast_cons_of_ne_nil (piecesBetween_ne_nil t _ cuts)] at hpiece
    rcases List.mem_cons.1 hpiece with rfl | hpiece
    · have htake : t.take cut.start = t.take i ++ Span.slice ⟨i, cut.start⟩ t := by
        rw [Span.slice, ← List.take_add, Nat.add_sub_cancel' (hi cut List.mem_cons_self)]
      have hstart := h.isClosed_start cut List.mem_cons_self
      rwa [htake, Text.IsClosed, scan_append, hclosed.scan_eq] at hstart
    · exact ih h.tail h.stop_le_start (h.isClosed_stop cut List.mem_cons_self) piece hpiece

/-- A text without blanks at its ends is one fragment exactly if it is not cut. -/
theorem fragments_eq_singleton_iff (h : IsCutting t cuts) (htrim : t.trim = t) (hne : t ≠ []) :
    fragments (piecesBetween t 0 cuts) = [t] ↔ cuts = [] := by
  constructor
  · intro hfragments
    obtain ⟨⟨piece, hpiece, htext⟩, -⟩ :=
      mem_fragments.1 (hfragments ▸ List.mem_singleton.2 (rfl : t = t))
    obtain ⟨u, v, ht, -, -, -, haside⟩ :=
      exists_of_mem_piecesBetween h (fun _ _ => Nat.zero_le _) (Nat.zero_le _) hpiece
    -- The piece is as long as the text, so there is no room for a cut.
    have hlen := congrArg List.length ht
    have hle := Text.length_trim_le piece
    rw [htext] at hle
    simp only [List.length_append] at hlen
    refine List.eq_nil_iff_forall_not_mem.2 fun cut hcut => ?_
    have hlt := h.start_lt cut hcut
    have hstop := h.stop_le cut hcut
    have := haside cut hcut
    omega
  · rintro rfl
    rw [piecesBetween, List.drop_zero, fragments_singleton htrim hne]

end Cutting

end LooseSql
