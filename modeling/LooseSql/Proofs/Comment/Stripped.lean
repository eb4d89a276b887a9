import LooseSql.Proofs.Comment

/-!
# A second pass over a text without comments

Taking out comments once is enough: `stripComments_idem`. A space in place of a comment brings texts
together that were apart, so it has to be seen that no quote and no comment comes of it.

* A quote ends where it ended before, since what stands behind its end does not start with its mark
  more often than before (`Quote.exists_exchange`).
* A character that opens nothing still opens nothing: its closing mark is not there, and the next
  character is the same one or a space.

So the pieces of the text stay what they are, with a space for each comment
(`pieces_stripComments`).
-/

namespace LooseSql

namespace Quote

variable {q : Quote}

/-- A quote ends if and only if its closing mark stands behind it. -/
theorem after?_eq_none_iff {t : Text} : q.after? t = none ↔ q.closer ∉ t := by
  cases q with
  | bracket => exact afterNextMark?_eq_none_iff
  | single => exact ⟨Doubled.not_mem_of_after?_eq_none, Doubled.after?_eq_none_of_not_mem⟩
  | double => exact ⟨Doubled.not_mem_of_after?_eq_none, Doubled.after?_eq_none_of_not_mem⟩

/-- Where a quote ends does not depend on what follows, as long as that does not go on with the
quote. -/
theorem exists_exchange {t rest : Text} (h : q.after? t = some rest) :
    ∃ m : Text, t = m ++ q.closer :: rest ∧
      ∀ rest' : Text, (q ≠ bracket → ∀ r, rest' = q.closer :: r → q.closer ∉ r) →
        q.after? (m ++ q.closer :: rest') = some rest' := by
  cases q with
  | bracket =>
    obtain ⟨m, hm, rfl⟩ := afterNextMark?_eq_some_iff.1 h
    exact ⟨m, rfl, fun rest' _ => afterNextMark?_eq_some_iff.2 ⟨m, hm, rfl⟩⟩
  | single =>
    obtain ⟨m, rfl, hm⟩ := Doubled.exists_exchange h
    exact ⟨m, rfl, fun rest' hrest' => hm rest' (hrest' (by decide))⟩
  | double =>
    obtain ⟨m, rfl, hm⟩ := Doubled.exists_exchange h
    exact ⟨m, rfl, fun rest' hrest' => hm rest' (hrest' (by decide))⟩

/-- A quote does not end behind a mark that its own mark follows and closes later. -/
theorem not_mem_of_after?_eq_some (hq : q ≠ bracket) {t r : Text}
    (h : q.after? t = some (q.closer :: r)) : q.closer ∉ r := by
  cases q with
  | bracket => exact absurd rfl hq
  | single => exact Doubled.not_mem_of_after?_eq_none (Doubled.after?_eq_none_of_after? h)
  | double => exact Doubled.not_mem_of_after?_eq_none (Doubled.after?_eq_none_of_after? h)

/-- A space neither opens nor closes a quote. -/
theorem closer_ne_space (q : Quote) : q.closer ≠ ' ' := by
  cases q <;> decide

end Quote

/-! ## The pieces make up the text -/

/-- The pieces together are the text. -/
theorem flatMap_raw_pieces (t : Text) : (pieces t).flatMap Piece.raw = t := by
  induction hn : t.length using Nat.strong_induction_on generalizing t with
  | _ n ih =>
    subst hn
    rcases t with _ | ⟨c, t⟩
    · simp [pieces]
    cases hlead : Piece.leading? (c :: t) with
    | none =>
      rw [pieces_of_leading?_eq_none hlead, List.flatMap_cons, ih t.length (by simp) t rfl]
      rfl
    | some p =>
      have hshort : (t.drop (p.raw.length - 1)).length < (c :: t).length := by
        simp only [List.length_drop, List.length_cons]
        omega
      rw [pieces_of_leading? hlead, List.flatMap_cons, ih _ hshort _ rfl,
        Piece.raw_append_drop hlead]

/-- Every character that is left stood in the text, but for the spaces. -/
theorem mem_of_mem_stripComments {t : Text} {c : Char} (hc : c ∈ stripComments t)
    (hspace : c ≠ ' ') : c ∈ t := by
  obtain ⟨p, hp, hcp⟩ := List.mem_flatMap.1 hc
  have hraw : c ∈ p.raw := by
    cases p with
    | plain d => exact hcp
    | quoted raw => exact hcp
    | comment raw => exact absurd (List.mem_singleton.1 hcp) hspace
  rw [← flatMap_raw_pieces t]
  exact List.mem_flatMap.2 ⟨p, hp, hraw⟩

/-- What is left starts as the text does, or with a space. -/
theorem head?_stripComments (t : Text) :
    (stripComments t).head? = t.head? ∨ (stripComments t).head? = some ' ' := by
  cases t with
  | nil => simp [stripComments, pieces]
  | cons c t =>
    cases hlead : Piece.leading? (c :: t) with
    | none =>
      rw [stripComments_of_leading?_eq_none hlead]
      exact .inl rfl
    | some p =>
      rw [stripComments_of_leading? hlead]
      -- A comment becomes a space, and any other piece stays as it is.
      by_cases hp : p.IsComment
      · cases p with
        | comment raw => exact .inr rfl
        | _ => exact hp.elim
      · obtain ⟨⟨rest, hrest⟩, hne, -⟩ := Piece.prefix_of_leading? hlead
        obtain ⟨d, m, hm⟩ := List.exists_cons_of_ne_nil hne
        rw [hm, List.cons_append] at hrest
        rw [Piece.withoutComment_eq_raw hp, hm, (List.cons.inj hrest).1]
        exact .inl rfl

/-! ## The pieces of what is left -/

namespace Piece

/-- The piece that is read in place of this one once comments are taken out. -/
def blanked : Piece → Piece
  | comment _ => plain ' '
  | p => p

theorem withoutComment_blanked (p : Piece) : p.blanked.withoutComment = p.withoutComment := by
  cases p <;> rfl

/-- Where no quote opens, a piece that is more than a character is a comment. -/
theorem exists_comment_of_leading? {c : Char} {t : Text} {p : Piece} (hc : Quote.ofOpener? c = none)
    (h : leading? (c :: t) = some p) : ∃ raw, p = comment raw := by
  obtain ⟨d, t, rfl, ⟨rfl, rfl⟩ | ⟨rfl, rfl⟩⟩ := exists_starts_of_leading? hc h
  · exact ⟨_, (Option.some.inj h).symm⟩
  · exact ⟨_, (Option.some.inj h).symm⟩

/-- A character that is a piece of its own stays one. -/
theorem leading?_stripComments {c : Char} {t : Text} (h : leading? (c :: t) = none) :
    leading? (c :: stripComments t) = none := by
  rcases Quote.exists_opener_or c with ⟨q, rfl⟩ | hc
  · rw [leading?_opener, Option.map_eq_none_iff, Quote.after?_eq_none_iff] at h ⊢
    exact fun hmem => h (mem_of_mem_stripComments hmem q.closer_ne_space)
  · -- The next character is the same one, or a space.
    have hnext {d : Char} (hd : d ≠ ' ') (ht : t.head? ≠ some d) :
        (stripComments t).head? ≠ some d := by
      rcases head?_stripComments t with hsame | hspace
      · rwa [hsame]
      · rw [hspace]
        simpa using Ne.symm hd
    refine leading?_eq_none hc (fun hline => hnext (by decide) fun hd => ?_)
      fun hblock => hnext (by decide) fun hd => ?_
    · obtain ⟨r, rfl⟩ := List.head?_eq_some_iff.1 hd
      rw [hline] at h
      cases h
    · obtain ⟨r, rfl⟩ := List.head?_eq_some_iff.1 hd
      rw [hblock] at h
      cases h

end Piece

/-- What is left behind a quote does not go on with it. -/
theorem Quote.not_mem_of_stripComments {q : Quote} (hq : q ≠ bracket) {t rest r : Text}
    (h : q.after? t = some rest) (hstripped : stripComments rest = q.closer :: r) :
    q.closer ∉ r := by
  -- A mark that is left stood in front of the text before, and there it opened nothing.
  obtain ⟨r', rfl⟩ : ∃ r', rest = q.closer :: r' := by
    rw [← List.head?_eq_some_iff]
    rcases head?_stripComments rest with hsame | hspace
    · rw [← hsame, hstripped]
      rfl
    · rw [hstripped] at hspace
      exact absurd (Option.some.inj hspace) q.closer_ne_space
  have hnot := not_mem_of_after?_eq_some hq h
  have hlead : Piece.leading? (q.closer :: r') = none := by
    rw [← opener_eq_closer hq, Piece.leading?_opener, after?_eq_none_iff.2 hnot, Option.map_none]
  rw [stripComments_of_leading?_eq_none hlead] at hstripped
  rw [← (List.cons.inj hstripped).2]
  exact fun hmem => hnot (mem_of_mem_stripComments hmem q.closer_ne_space)

/-- Comments are taken out behind a quote, which stays as it is and ends where it did. -/
theorem exists_pieces_quote {q : Quote} {t rest : Text} (h : q.after? t = some rest) :
    ∃ raw, pieces (q.opener :: t) = .quoted raw :: pieces rest ∧
      pieces (stripComments (q.opener :: t)) = .quoted raw :: pieces (stripComments rest) := by
  obtain ⟨m, rfl, hexchange⟩ := Quote.exists_exchange h
  have hstripped := hexchange (stripComments rest) fun hq r => Quote.not_mem_of_stripComments hq h
  rw [List.append_cons] at h hstripped ⊢
  refine ⟨_, pieces_quote h, ?_⟩
  rw [stripComments, pieces_quote h, List.flatMap_cons]
  exact pieces_quote hstripped

/-- A space in place of a comment is a piece of its own, and every other piece stays. -/
theorem pieces_stripComments (t : Text) :
    pieces (stripComments t) = (pieces t).map Piece.blanked := by
  -- Induction on the length, since a quote or comment is one piece of many characters.
  induction hn : t.length using Nat.strong_induction_on generalizing t with
  | _ n ih =>
    subst hn
    rcases t with _ | ⟨c, t⟩
    · simp [stripComments, pieces]
    cases hlead : Piece.leading? (c :: t) with
    | none =>
      rw [stripComments_of_leading?_eq_none hlead, pieces_of_leading?_eq_none hlead,
        pieces_of_leading?_eq_none (Piece.leading?_stripComments hlead), ih _ (by simp) t rfl]
      rfl
    | some p =>
      rcases Quote.exists_opener_or c with ⟨q, rfl⟩ | hc
      · rw [Piece.leading?_opener, Option.map_eq_some_iff] at hlead
        obtain ⟨rest, hrest, -⟩ := hlead
        obtain ⟨raw, hpieces, hstripped⟩ := exists_pieces_quote hrest
        obtain ⟨m, rfl⟩ := Quote.exists_of_after? hrest
        have hshort : rest.length < (q.opener :: (m ++ rest)).length := by
          simp only [List.length_cons, List.length_append]
          omega
        rw [hpieces, hstripped, ih _ hshort rest rfl]
        rfl
      · have hshort : (t.drop (p.raw.length - 1)).length < (c :: t).length := by
          simp only [List.length_drop, List.length_cons]
          omega
        obtain ⟨raw, rfl⟩ := Piece.exists_comment_of_leading? hc hlead
        rw [stripComments_of_leading? hlead, pieces_of_leading? hlead, List.map_cons,
          ← ih _ hshort _ rfl]
        exact pieces_of_leading?_eq_none rfl

/-- Taking out comments a second time changes nothing, and the first time it changes a text exactly
when a comment is among its pieces. Quoted stretches stay as they are, each at its turn. -/
theorem stripComments_idem (t : Text) :
    stripComments (stripComments t) = stripComments t ∧
    (stripComments t = t ↔ ∀ p ∈ pieces t, ¬ p.IsComment) ∧
    pieces (stripComments t) = (pieces t).map Piece.blanked := by
  refine ⟨?_, stripComments_eq_self_iff, pieces_stripComments t⟩
  rw [stripComments, pieces_stripComments, List.flatMap_map, stripComments]
  simp only [Piece.withoutComment_blanked]

/-- The comment stands between a quote that is never closed but at a doubled mark, and a mark that
is left over and opens nothing. -/
example : pieces (stripComments "'a''--'\n'b/*".toList) =
    [.quoted "'a''--'".toList, .plain '\n', .plain '\'', .plain 'b', .plain ' '] := by
  decide +kernel

end LooseSql
