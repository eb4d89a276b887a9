import LooseSql.Comment
import LooseSql.Proofs.Scan
import LooseSql.Proofs.Text.After
import LooseSql.Proofs.Text.Doubled
import Mathlib.Data.List.Chain

/-!
# Texts without comments

`stripComments` leaves a text as it is exactly when there is no comment in it
(`stripComments_eq_self_iff`). A text of two parts has no comment exactly when neither part has one,
if a scan of the first part ends outside quotes and no mark is made of two characters across the
seam (`isUncommented_append_iff`). A first part that leaves a quote open has no comment in a longer
text either, if what follows holds no marks at all (`IsUncommented.append`).
-/

namespace LooseSql

/-! ## Quotes -/

/-- Where a scan comes out of a quote that doubles its mark, the quote ends for good. All
characters up to there are part of the quote, since a doubled mark closes it and opens it again. -/
theorem exists_closes_of_scan {q : Quote} (hq : q.opener = q.closer) {s : ScanState}
    (hs : s.quote = some q) {u : Text} (hu : (scan s u).quote = none) :
    ∃ m r : Text, u = m ++ r ∧ m.getLast? = some q.closer ∧ (scan s m).quote = none ∧
      s.QuotesAll m ∧ Doubled.Closes q.closer m r := by
  induction u using Doubled.after?.induct q.closer generalizing s with
  | case1 => simp [hs] at hu
  | case2 =>
    refine ⟨[q.closer], [], rfl, rfl, ScanState.quote_step_closer hs,
      ⟨ScanState.quotes_of_quote hs _, trivial⟩, fun v hv => ?_⟩
    cases v with
    | nil => simp [Doubled.after?]
    | cons d v =>
      have hd : d ≠ q.closer := by simpa using hv rfl
      simp [Doubled.after?, hd]
  | case3 c hc =>
    rw [scan_cons, ScanState.step_of_ne_closer hs hc, scan_nil, hs] at hu
    exact absurd hu (by simp)
  | case4 t ih =>
    -- The mark is doubled: it closes the quote and opens it again.
    have hclose := ScanState.quote_step_closer hs
    have hopen := ScanState.quote_step_opener hclose q
    rw [hq] at hopen
    obtain ⟨m, r, rfl, hlast, hm, hquotes, hcloses⟩ := ih hopen hu
    refine ⟨q.closer :: q.closer :: m, r, rfl, by simp [List.getLast?_cons, hlast], hm,
      ⟨ScanState.quotes_of_quote hs _, .opening hclose hopen, hquotes⟩, fun v hv => ?_⟩
    rw [List.cons_append, List.cons_append, List.cons_append, List.cons_append, Doubled.after?,
      if_pos rfl, if_pos rfl, hcloses v hv]
    rfl
  | case5 d t hd =>
    refine ⟨[q.closer], d :: t, rfl, rfl, ScanState.quote_step_closer hs,
      ⟨ScanState.quotes_of_quote hs _, trivial⟩, fun v _ => ?_⟩
    simp [Doubled.after?, hd]
  | case6 c d t hc ih =>
    have hstep := ScanState.step_of_ne_closer hs hc
    rw [scan_cons, hstep] at hu
    obtain ⟨m, r, hsplit, hlast, hm, hquotes, hcloses⟩ := ih hs hu
    refine ⟨c :: m, r, by rw [hsplit]; rfl, by simp [List.getLast?_cons, hlast],
      by rwa [scan_cons, hstep], ⟨ScanState.quotes_of_quote hs c, by rwa [hstep]⟩,
      fun v hv => ?_⟩
    have hinner := hcloses v hv
    rw [← hsplit, List.cons_append] at hinner
    rw [List.cons_append, ← hsplit, List.cons_append, List.cons_append, Doubled.after?, if_neg hc,
      hinner]

/-- Where a scan comes out of a quote, the closing mark stands in the text. -/
theorem closer_mem_of_scan {q : Quote} {s : ScanState} (hs : s.quote = some q) {u : Text}
    (hu : (scan s u).quote = none) : q.closer ∈ u := by
  by_contra hmem
  rw [scan_of_not_closer hs hmem, hs] at hu
  exact absurd hu (by simp)

namespace Quote

/-- What follows a quote, behind its opening mark. -/
def after? : Quote → Text → Option Text
  | single => Doubled.after? '\''
  | double => Doubled.after? '"'
  | bracket => afterNextMark? ']'

theorem exists_opener_or (c : Char) : (∃ q : Quote, c = q.opener) ∨ ofOpener? c = none := by
  unfold ofOpener?
  split
  · exact Or.inl ⟨.single, ‹_›⟩
  · split
    · exact Or.inl ⟨.double, ‹_›⟩
    · split
      · exact Or.inl ⟨.bracket, ‹_›⟩
      · exact Or.inr rfl

variable {q : Quote}

/-- The quotes that double their mark open and close with it. -/
theorem opener_eq_closer (hq : q ≠ bracket) : q.opener = q.closer := by
  cases q with
  | bracket => exact absurd rfl hq
  | single => rfl
  | double => rfl

/-- A quote that ends does so behind its closing mark. -/
theorem exists_closer_of_after? {t rest : Text} (h : q.after? t = some rest) :
    ∃ m : Text, t = m ++ q.closer :: rest := by
  cases q with
  | bracket =>
    obtain ⟨inner, -, rfl⟩ := afterNextMark?_eq_some_iff.1 h
    exact ⟨inner, rfl⟩
  | single => exact Doubled.exists_of_after? h
  | double => exact Doubled.exists_of_after? h

theorem exists_of_after? {t rest : Text} (h : q.after? t = some rest) :
    ∃ m : Text, t = m ++ rest := by
  obtain ⟨m, rfl⟩ := exists_closer_of_after? h
  exact ⟨m ++ [q.closer], by simp⟩

/-- Text without the closing mark does not change where a quote ends. -/
theorem after?_append_of_not_mem {v : Text} (hv : q.closer ∉ v) (t : Text) :
    q.after? (t ++ v) = (q.after? t).map (· ++ v) := by
  cases q with
  | single => exact Doubled.after?_append_of_not_mem hv t
  | double => exact Doubled.after?_append_of_not_mem hv t
  | bracket =>
    by_cases ht : ']' ∈ t
    · exact afterNextMark?_append ht v
    · have hnone : ']' ∉ t ++ v := by
        rw [List.mem_append]
        rintro (h | h)
        · exact ht h
        · exact hv h
      rw [after?, afterNextMark?_eq_none_iff.2 hnone, afterNextMark?_eq_none_iff.2 ht]
      rfl

/-- Where a scan comes out of a quote, the quote ends for good, as long as its mark is not doubled
across the seam. All characters up to there are part of the quote. -/
theorem exists_of_scan {s : ScanState} (hs : s.quote = some q) {u : Text}
    (hu : (scan s u).quote = none) :
    ∃ m r : Text, u = m ++ r ∧ m.getLast? = some q.closer ∧ (scan s m).quote = none ∧
      s.QuotesAll m ∧ ∀ v : Text, (r = [] → q ≠ bracket → v.head? ≠ some q.closer) →
        q.after? (m ++ (r ++ v)) = some (r ++ v) := by
  by_cases hq : q = bracket
  · subst hq
    -- A bracket ends at the next closing one; the other quotes end at a mark that is not doubled.
    obtain ⟨r, hr⟩ := Option.isSome_iff_exists.1
      (afterNextMark?_isSome_iff.2 (closer_mem_of_scan hs hu))
    obtain ⟨inner, hinner, rfl⟩ := afterNextMark?_eq_some_iff.1 hr
    refine ⟨inner ++ [']'], r, by rw [List.append_assoc]; rfl, List.getLast?_concat, ?_,
      ScanState.quotesAll_append_closer hs hinner, fun v _ => ?_⟩
    · rw [scan_append, scan_of_not_closer hs hinner]
      exact ScanState.quote_step_closer hs
    · exact afterNextMark?_eq_some_iff.2 ⟨inner, hinner, by simp⟩
  · obtain ⟨m, r, hsplit, hlast, hm, hquotes, hcloses⟩ :=
      exists_closes_of_scan (opener_eq_closer hq) hs hu
    refine ⟨m, r, hsplit, hlast, hm, hquotes, fun v hv => ?_⟩
    have hafter := hcloses v fun hr => hv hr hq
    rw [List.append_assoc] at hafter
    cases q
    · exact hafter
    · exact hafter
    · exact absurd rfl hq

end Quote

/-! ## Pieces -/

namespace Piece

/-- The piece is a comment. -/
def IsComment : Piece → Prop
  | comment _ => True
  | _ => False

instance (p : Piece) : Decidable p.IsComment := by
  cases p <;> unfold IsComment <;> infer_instance

theorem withoutComment_eq_raw {p : Piece} (hp : ¬ p.IsComment) : p.withoutComment = p.raw := by
  cases p with
  | plain c => rfl
  | quoted raw => rfl
  | comment raw => exact absurd trivial hp

theorem length_withoutComment {p : Piece} (hp : p.IsComment) : p.withoutComment.length = 1 := by
  cases p with
  | plain c => exact hp.elim
  | quoted raw => exact hp.elim
  | comment raw => rfl

/-- No quote and no comment starts in front of a character that is no mark, or that is one half of
a mark only. -/
theorem leading?_eq_none {c : Char} {t : Text} (hc : Quote.ofOpener? c = none)
    (hline : c = '-' → t.head? ≠ some '-') (hblock : c = '/' → t.head? ≠ some '*') :
    leading? (c :: t) = none := by
  unfold leading?
  split <;> simp_all [Quote.ofOpener?]

end Piece

theorem Piece.leading?_opener (q : Quote) (t : Text) :
    leading? (q.opener :: t) =
      (q.after? t).map fun rest => quoted (Text.before (q.opener :: t) rest) := by
  cases q <;> rfl

theorem pieces_of_leading? {c : Char} {t : Text} {p : Piece}
    (h : Piece.leading? (c :: t) = some p) :
    pieces (c :: t) = p :: pieces (t.drop (p.raw.length - 1)) := by
  rw [pieces, h]

theorem pieces_of_leading?_eq_none {c : Char} {t : Text} (h : Piece.leading? (c :: t) = none) :
    pieces (c :: t) = .plain c :: pieces t := by
  rw [pieces, h]

/-- A quote at the head of a text is its first piece. -/
theorem pieces_quote {q : Quote} {m rest : Text} (h : q.after? (m ++ rest) = some rest) :
    pieces (q.opener :: (m ++ rest)) = .quoted (q.opener :: m) :: pieces rest := by
  have hbefore : Text.before (q.opener :: (m ++ rest)) rest = q.opener :: m :=
    Text.before_append (q.opener :: m) rest
  have hlead : Piece.leading? (q.opener :: (m ++ rest)) = some (.quoted (q.opener :: m)) := by
    rw [Piece.leading?_opener, h, Option.map_some, hbefore]
  rw [pieces_of_leading? hlead]
  simp [Piece.raw]

/-! ## Texts without comments -/

/-- No piece of the text is a comment. -/
def IsUncommented (t : Text) : Prop := ∀ p ∈ pieces t, ¬ p.IsComment

instance (t : Text) : Decidable (IsUncommented t) :=
  inferInstanceAs (Decidable (∀ p ∈ pieces t, ¬ p.IsComment))

theorem isUncommented_nil : IsUncommented [] := by
  simp [IsUncommented, pieces]

theorem isUncommented_cons {c : Char} {t : Text} (h : Piece.leading? (c :: t) = none) :
    IsUncommented (c :: t) ↔ IsUncommented t := by
  simp [IsUncommented, pieces_of_leading?_eq_none h, Piece.IsComment]

theorem isUncommented_of_leading? {c : Char} {t : Text} {p : Piece}
    (h : Piece.leading? (c :: t) = some p) (hp : ¬ p.IsComment) :
    IsUncommented (c :: t) ↔ IsUncommented (t.drop (p.raw.length - 1)) := by
  simp [IsUncommented, pieces_of_leading? h, hp]

/-- A quote at the head of a text holds no comment. -/
theorem isUncommented_quote {q : Quote} {m rest : Text} (h : q.after? (m ++ rest) = some rest) :
    IsUncommented (q.opener :: (m ++ rest)) ↔ IsUncommented rest := by
  simp [IsUncommented, pieces_quote h, Piece.IsComment]

theorem isUncommented_open {q : Quote} {t : Text} (h : q.after? t = none) :
    IsUncommented (q.opener :: t) ↔ IsUncommented t :=
  isUncommented_cons (by rw [Piece.leading?_opener, h]; rfl)

theorem not_isUncommented {c : Char} {t raw : Text}
    (h : Piece.leading? (c :: t) = some (.comment raw)) : ¬ IsUncommented (c :: t) := by
  intro hpieces
  rw [IsUncommented, pieces_of_leading? h] at hpieces
  exact hpieces _ List.mem_cons_self trivial

/-- Two characters that start a comment. -/
def StartsComment (c d : Char) : Prop := (c = '-' ∧ d = '-') ∨ (c = '/' ∧ d = '*')

instance (c d : Char) : Decidable (StartsComment c d) :=
  inferInstanceAs (Decidable (_ ∨ _))

theorem not_isUncommented_of_starts {c d : Char} (h : StartsComment c d) (t : Text) :
    ¬ IsUncommented (c :: d :: t) := by
  rcases h with ⟨rfl, rfl⟩ | ⟨rfl, rfl⟩
  · exact not_isUncommented rfl
  · exact not_isUncommented rfl

/-- A character that opens no quote and starts no comment with the next one is a piece. -/
theorem isUncommented_plain {c : Char} {t : Text} (hc : Quote.ofOpener? c = none)
    (ht : ∀ d ∈ t.head?, ¬ StartsComment c d) : IsUncommented (c :: t) ↔ IsUncommented t := by
  refine isUncommented_cons (Piece.leading?_eq_none hc ?_ ?_)
  · rintro rfl hd
    exact ht '-' hd (Or.inl ⟨rfl, rfl⟩)
  · rintro rfl hd
    exact ht '*' hd (Or.inr ⟨rfl, rfl⟩)

/-- The two characters make a mark together: a doubled quote, or the start of a comment. -/
def Joins (c d : Char) : Prop := (c = d ∧ (c = '\'' ∨ c = '"')) ∨ StartsComment c d

instance (c d : Char) : Decidable (Joins c d) :=
  inferInstanceAs (Decidable (_ ∨ _))

/-- A text of two parts has no comment exactly when neither part has one. -/
theorem isUncommented_append_iff {s : ScanState} (hs : s.quote = none) {u v : Text}
    (hu : (scan s u).quote = none) (hseam : ∀ c ∈ u.getLast?, ∀ d ∈ v.head?, ¬ Joins c d) :
    IsUncommented (u ++ v) ↔ IsUncommented u ∧ IsUncommented v := by
  -- Induction on the length, since a quote is one piece of many characters.
  induction hn : u.length using Nat.strong_induction_on generalizing u s with
  | _ n ih =>
    subst hn
    rcases u with _ | ⟨c, u⟩
    · simp [isUncommented_nil]
    -- The seam is the same for every part that ends where the first one does.
    have hseam' : ∀ {m r : Text}, c :: u = m ++ r →
        ∀ c ∈ r.getLast?, ∀ d ∈ v.head?, ¬ Joins c d := by
      intro m r hsplit c' hc'
      apply hseam c'
      rw [hsplit, List.getLast?_append, Option.mem_def.1 hc']
      rfl
    rcases Quote.exists_opener_or c with ⟨q, rfl⟩ | hc
    · -- The quote ends in the first part, so it is the same one in the whole text.
      obtain ⟨m, r, rfl, hlast, hm, -, hafter⟩ :=
        Quote.exists_of_scan (ScanState.quote_step_opener hs q) hu
      have hend := hafter v fun hr hne hd => by
        subst hr
        refine hseam q.closer ?_ q.closer hd ?_
        · rw [List.append_nil, List.getLast?_cons, hlast]
          rfl
        · cases q <;> simp_all [Joins, Quote.closer]
      have hend' := hafter [] (by simp)
      rw [List.append_nil] at hend'
      rw [List.cons_append, List.append_assoc, isUncommented_quote hend, isUncommented_quote hend']
      rw [scan_cons, scan_append] at hu
      have hlen : r.length < (q.opener :: (m ++ r)).length := by
        simp only [List.length_cons, List.length_append]
        omega
      exact ih r.length hlen hm hu (hseam' (m := q.opener :: m) rfl) rfl
    · rcases u with _ | ⟨d, u⟩
      · -- The character stands at the seam.
        have hplain : ∀ d ∈ v.head?, ¬ StartsComment c d := fun d hd hstart =>
          hseam c rfl d hd (Or.inr hstart)
        rw [List.singleton_append, isUncommented_plain hc hplain, isUncommented_plain hc (by simp)]
        simp [isUncommented_nil]
      · by_cases hstart : StartsComment c d
        · have hleft := not_isUncommented_of_starts hstart (u ++ v)
          have hright := not_isUncommented_of_starts hstart u
          rw [List.cons_append, List.cons_append]
          exact ⟨fun h => absurd h hleft, fun h => absurd h.1 hright⟩
        · rw [List.cons_append, isUncommented_plain hc (by simpa using hstart),
            isUncommented_plain hc (by simpa using hstart)]
          exact ih (d :: u).length (by simp) (ScanState.quote_step_of_not_opener hs hc) hu
            (hseam' (m := [c]) rfl) rfl

/-- In a text without quotes two characters have to start a comment. -/
theorem isUncommented_of_unquoted {v : Text} (hquote : ∀ c ∈ v, Quote.ofOpener? c = none)
    (hstart : v.IsChain fun c d => ¬ StartsComment c d) : IsUncommented v := by
  induction v with
  | nil => exact isUncommented_nil
  | cons c v ih =>
    rw [isUncommented_plain (hquote c (by simp)) (List.isChain_cons.1 hstart).1]
    exact ih (fun d hd => hquote d (by simp [hd])) (List.isChain_cons.1 hstart).2

/-- The characters that quotes and comments start and end with. -/
def pieceMarks : Text := ['\'', '"', '[', ']', '-', '/', '*']

theorem not_startsComment_of_not_mem {c d : Char} (hd : d ∉ pieceMarks) : ¬ StartsComment c d := by
  rintro (⟨-, rfl⟩ | ⟨-, rfl⟩) <;> exact hd (by decide)

/-- Only marks make a mark together. -/
theorem not_joins_of_not_mem {c d : Char} (h : c ∉ pieceMarks ∨ d ∉ pieceMarks) : ¬ Joins c d := by
  rintro (⟨rfl, hc⟩ | ⟨rfl, rfl⟩ | ⟨rfl, rfl⟩)
  · have hmem : c ∈ pieceMarks := by rcases hc with rfl | rfl <;> decide
    exact h.elim (· hmem) (· hmem)
  · exact h.elim (· (by decide)) (· (by decide))
  · exact h.elim (· (by decide)) (· (by decide))

theorem not_mem_pieceMarks_of_isBlank {c : Char} (hc : isBlank c) : c ∉ pieceMarks := by
  intro hmem
  exact absurd ((by decide : ∀ d ∈ pieceMarks, isBlank d = false) c hmem) (by simp [hc])

theorem not_mem_pieceMarks_of_isWordChar {c : Char} (hc : isWordChar c) : c ∉ pieceMarks := by
  intro hmem
  exact absurd ((by decide : ∀ d ∈ pieceMarks, isWordChar d = false) c hmem) (by simp [hc])

theorem isUncommented_of_not_mem {v : Text} (hv : ∀ c ∈ v, c ∉ pieceMarks) : IsUncommented v := by
  induction v with
  | nil => exact isUncommented_nil
  | cons c v ih =>
    have hc : Quote.ofOpener? c = none := by
      rcases Quote.exists_opener_or c with ⟨q, rfl⟩ | hc
      · exact absurd (by cases q <;> decide) (hv q.opener (by simp))
      · exact hc
    rw [isUncommented_plain hc fun d hd =>
      not_startsComment_of_not_mem (hv d (by simp [List.mem_of_mem_head? hd]))]
    exact ih fun d hd => hv d (by simp [hd])

/-- Text without marks does not make a comment with the text in front of it, also where a quote is
left open there. -/
theorem IsUncommented.append {u v : Text} (hu : IsUncommented u)
    (hv : ∀ c ∈ v, c ∉ pieceMarks) : IsUncommented (u ++ v) := by
  induction hn : u.length using Nat.strong_induction_on generalizing u with
  | _ n ih =>
    subst hn
    rcases u with _ | ⟨c, u⟩
    · exact isUncommented_of_not_mem hv
    rw [List.cons_append]
    rcases Quote.exists_opener_or c with ⟨q, rfl⟩ | hc
    · have happend : q.after? (u ++ v) = (q.after? u).map (· ++ v) :=
        Quote.after?_append_of_not_mem
          (fun hmem => absurd (by cases q <;> decide) (hv q.closer hmem)) u
      -- The second part holds no closing mark, so a quote ends in the first one or not at all.
      cases hr : q.after? u with
      | none =>
        rw [hr, Option.map_none] at happend
        rw [isUncommented_open hr] at hu
        rw [isUncommented_open happend]
        exact ih u.length (by simp) hu rfl
      | some r =>
        obtain ⟨m, rfl⟩ := Quote.exists_of_after? hr
        rw [hr, Option.map_some, List.append_assoc] at happend
        rw [isUncommented_quote hr] at hu
        rw [List.append_assoc, isUncommented_quote happend]
        exact ih r.length (by simp only [List.length_cons, List.length_append]; omega) hu rfl
    · -- Neither a character of the first part nor one of the second starts a comment with the next.
      have hnext : ∀ d ∈ (u ++ v).head?, ¬ StartsComment c d := by
        intro d hd hstart
        rcases u with _ | ⟨e, u⟩
        · exact not_startsComment_of_not_mem (hv d (List.mem_of_mem_head? hd)) hstart
        · obtain rfl : e = d := by simpa using hd
          exact not_isUncommented_of_starts hstart u hu
      have hnext' : ∀ d ∈ u.head?, ¬ StartsComment c d := by
        intro d hd
        refine hnext d ?_
        rw [List.head?_append, Option.mem_def.1 hd]
        rfl
      rw [isUncommented_plain hc hnext'] at hu
      rw [isUncommented_plain hc hnext]
      exact ih u.length (by simp) hu rfl

/-! ## Comments taken out -/

theorem length_afterBlockComment_le (t : Text) : (afterBlockComment t).length ≤ t.length := by
  induction t using afterBlockComment.induct with
  | case1 => exact Nat.le_refl _
  | case2 c => exact Nat.zero_le _
  | case3 c d t h =>
    rw [afterBlockComment, if_pos h]
    simp only [List.length_cons]
    omega
  | case4 c d t h ih =>
    rw [afterBlockComment, if_neg h]
    exact ih.trans (by simp)

namespace Piece

/-- Where no quote opens, a piece that is more than a character is a comment. -/
theorem exists_starts_of_leading? {c : Char} {t : Text} {p : Piece} (hc : Quote.ofOpener? c = none)
    (h : leading? (c :: t) = some p) : ∃ (d : Char) (r : Text), t = d :: r ∧ StartsComment c d := by
  by_contra hstart
  have hnone : leading? (c :: t) = none := by
    refine leading?_eq_none hc ?_ ?_
    · rintro rfl hd
      obtain ⟨r, rfl⟩ := List.head?_eq_some_iff.1 hd
      exact hstart ⟨'-', r, rfl, .inl ⟨rfl, rfl⟩⟩
    · rintro rfl hd
      obtain ⟨r, rfl⟩ := List.head?_eq_some_iff.1 hd
      exact hstart ⟨'*', r, rfl, .inr ⟨rfl, rfl⟩⟩
  rw [hnone] at h
  cases h

/-- A quote or comment takes up characters at the head of the text, and a comment at least two. -/
theorem prefix_of_leading? {c : Char} {t : Text} {p : Piece} (h : leading? (c :: t) = some p) :
    p.raw <+: c :: t ∧ p.raw ≠ [] ∧ (p.IsComment → 2 ≤ p.raw.length) := by
  rcases Quote.exists_opener_or c with ⟨q, rfl⟩ | hc
  · rw [leading?_opener, Option.map_eq_some_iff] at h
    obtain ⟨rest, hrest, rfl⟩ := h
    obtain ⟨m, rfl⟩ := Quote.exists_of_after? hrest
    refine ⟨List.take_prefix _ _, ?_, False.elim⟩
    simp only [raw, Text.before, List.length_cons, List.length_append]
    rw [show m.length + rest.length + 1 - rest.length = m.length + 1 by omega]
    simp
  · obtain ⟨d, t, rfl, ⟨rfl, rfl⟩ | ⟨rfl, rfl⟩⟩ := exists_starts_of_leading? hc h
    · -- A comment to the end of the line.
      obtain rfl := Option.some.inj h
      refine ⟨?_, by simp [raw], fun _ => by simp [raw]⟩
      exact (List.prefix_cons_inj _).2 ((List.prefix_cons_inj _).2 (List.takeWhile_prefix _))
    · -- A comment up to the next closing mark.
      obtain rfl := Option.some.inj h
      have hle := length_afterBlockComment_le t
      have hlen : 2 ≤ (Text.before ('/' :: '*' :: t) (afterBlockComment t)).length := by
        rw [Text.before, List.length_take]
        simp only [List.length_cons]
        omega
      refine ⟨List.take_prefix _ _, ?_, fun _ => hlen⟩
      rw [raw, ← List.length_pos_iff]
      omega

/-- The text goes on behind its leading quote or comment. -/
theorem raw_append_drop {c : Char} {t : Text} {p : Piece} (h : leading? (c :: t) = some p) :
    p.raw ++ t.drop (p.raw.length - 1) = c :: t := by
  obtain ⟨⟨rest, hrest⟩, hne, -⟩ := prefix_of_leading? h
  obtain ⟨d, m, hm⟩ := List.exists_cons_of_ne_nil hne
  rw [hm, List.cons_append] at hrest
  obtain ⟨rfl, rfl⟩ := List.cons.inj hrest
  rw [hm, List.length_cons, Nat.add_sub_cancel, List.drop_left, List.cons_append]

end Piece

theorem stripComments_of_leading? {c : Char} {t : Text} {p : Piece}
    (h : Piece.leading? (c :: t) = some p) : stripComments (c :: t) =
      p.withoutComment ++ stripComments (t.drop (p.raw.length - 1)) := by
  rw [stripComments, pieces_of_leading? h, List.flatMap_cons]
  rfl

theorem stripComments_of_leading?_eq_none {c : Char} {t : Text}
    (h : Piece.leading? (c :: t) = none) : stripComments (c :: t) = c :: stripComments t := by
  rw [stripComments, pieces_of_leading?_eq_none h, List.flatMap_cons]
  rfl

/-- Taking out comments does not make a text longer. Where its length stays, there are none. -/
theorem length_stripComments_le (t : Text) : (stripComments t).length ≤ t.length ∧
    ((stripComments t).length = t.length → IsUncommented t) := by
  induction hn : t.length using Nat.strong_induction_on generalizing t with
  | _ n ih =>
    subst hn
    rcases t with _ | ⟨c, t⟩
    · simp [stripComments, pieces, isUncommented_nil]
    cases hlead : Piece.leading? (c :: t) with
    | none =>
      obtain ⟨hle, heq⟩ := ih t.length (by simp) t rfl
      rw [stripComments_of_leading?_eq_none hlead, isUncommented_cons hlead]
      simpa using ⟨hle, heq⟩
    | some p =>
      obtain ⟨-, hne, hcomment⟩ := Piece.prefix_of_leading? hlead
      have hsplit := Piece.raw_append_drop hlead
      have hlen := congrArg List.length hsplit
      have hpos := List.length_pos_iff.2 hne
      rw [List.length_append, List.length_cons] at hlen
      have hshort : (t.drop (p.raw.length - 1)).length < (c :: t).length := by
        simp only [List.length_drop, List.length_cons]
        omega
      obtain ⟨hle, heq⟩ := ih _ hshort _ rfl
      rw [stripComments_of_leading? hlead, List.length_append, List.length_cons]
      by_cases hp : p.IsComment
      · -- One space is shorter than any comment.
        have htwo := hcomment hp
        rw [Piece.length_withoutComment hp]
        exact ⟨by omega, fun h => by omega⟩
      · rw [Piece.withoutComment_eq_raw hp, isUncommented_of_leading? hlead hp]
        exact ⟨by omega, fun h => heq (by omega)⟩

/-- A text stays as it is exactly when there is no comment in it. -/
theorem stripComments_eq_self_iff {t : Text} : stripComments t = t ↔ IsUncommented t := by
  refine ⟨fun h => (length_stripComments_le t).2 (by rw [h]), fun h => ?_⟩
  -- Induction on the length, since a piece is taken off as a whole.
  induction hn : t.length using Nat.strong_induction_on generalizing t with
  | _ n ih =>
    subst hn
    rcases t with _ | ⟨c, t⟩
    · simp [stripComments, pieces]
    cases hlead : Piece.leading? (c :: t) with
    | none =>
      rw [isUncommented_cons hlead] at h
      rw [stripComments_of_leading?_eq_none hlead, ih t.length (by simp) h rfl]
    | some p =>
      have hp : ¬ p.IsComment := h p (by rw [pieces_of_leading? hlead]; exact List.mem_cons_self)
      rw [isUncommented_of_leading? hlead hp] at h
      have hshort : (t.drop (p.raw.length - 1)).length < (c :: t).length := by
        simp only [List.length_drop, List.length_cons]
        omega
      rw [stripComments_of_leading? hlead, ih _ hshort h rfl, Piece.withoutComment_eq_raw hp,
        Piece.raw_append_drop hlead]

end LooseSql
