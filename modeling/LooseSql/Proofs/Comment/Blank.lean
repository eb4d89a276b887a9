import LooseSql.Analysis
import LooseSql.Proofs.Comment
import LooseSql.Step

/-!
# Comments are blanks

A comment can be exchanged for one space, and no question and no variant tells the difference. This
holds behind every text that leaves nothing open (`IsComplete`): no quote without an end, and no
comment that would go on. Behind such a text the pieces of a longer text start afresh
(`IsComplete.pieces_append`), whatever the comment holds and whatever stands behind it.
-/

namespace LooseSql

/-! ## Texts that leave nothing open -/

namespace Piece

/-- The character would open a quote, but the quote has no end. -/
def IsOpener : Piece → Prop
  | plain c => Quote.ofOpener? c ≠ none
  | _ => False

instance : (p : Piece) → Decidable p.IsOpener
  | plain c => inferInstanceAs (Decidable (Quote.ofOpener? c ≠ none))
  | quoted _ => inferInstanceAs (Decidable False)
  | comment _ => inferInstanceAs (Decidable False)

/-- The comment would go on behind the text: it is no block comment with its closing mark. -/
def IsOpenComment : Piece → Prop
  | comment raw => ¬ ("/*".toList <+: raw ∧ "*/".toList <:+ raw.drop 2)
  | _ => False

instance : (p : Piece) → Decidable p.IsOpenComment
  | plain _ => inferInstanceAs (Decidable False)
  | quoted _ => inferInstanceAs (Decidable False)
  | comment _ => inferInstanceAs (Decidable (¬ (_ ∧ _)))

end Piece

/-- No quote of the text lacks its end, and the text does not end inside a comment. -/
structure IsComplete (t : Text) : Prop where
  /-- Every opening mark belongs to a quote with an end, or stands inside a quote or comment. -/
  not_opener : ∀ p ∈ pieces t, ¬ p.IsOpener
  /-- The last piece is no comment that goes on. -/
  not_openComment : ∀ p ∈ (pieces t).getLast?, ¬ p.IsOpenComment

instance (t : Text) : Decidable (IsComplete t) :=
  decidable_of_iff ((∀ p ∈ pieces t, ¬ p.IsOpener) ∧ ∀ p ∈ (pieces t).getLast?, ¬ p.IsOpenComment)
    ⟨fun h => ⟨h.1, h.2⟩, fun h => ⟨h.1, h.2⟩⟩

/-- What follows the first piece of a closed text is closed, and the first piece is no open comment
if nothing follows. -/
theorem IsComplete.tail {t rest : Text} {p : Piece} (h : IsComplete t)
    (ht : pieces t = p :: pieces rest) :
    ¬ p.IsOpener ∧ IsComplete rest ∧ (rest = [] → ¬ p.IsOpenComment) := by
  obtain ⟨hopener, hlast⟩ := h
  rw [ht] at hopener hlast
  refine ⟨hopener p (by simp), ⟨fun q hq => hopener q (by simp [hq]), fun q hq => ?_⟩, ?_⟩
  · have hne : pieces rest ≠ [] := by
      intro hnil
      simp [hnil] at hq
    refine hlast q ?_
    rwa [List.getLast?_cons_of_ne_nil hne]
  · rintro rfl
    exact hlast p (by simp [pieces])

/-! ## Block comments -/

/-- What follows a closed block comment in a longer text. -/
theorem afterBlockComment_append {t : Text} (h : "*/".toList <:+: t) (v : Text) :
    afterBlockComment (t ++ v) = afterBlockComment t ++ v := by
  induction t using afterBlockComment.induct with
  | case1 => simp at h
  | case2 c => simpa using h.length_le
  | case3 c d t hend =>
    rw [List.cons_append, List.cons_append, afterBlockComment, if_pos hend, afterBlockComment,
      if_pos hend]
  | case4 c d t hend ih =>
    -- The comment does not end here, so its end stands in the rest.
    have hinner : "*/".toList <:+: d :: t := by
      refine (List.infix_cons_iff.1 h).resolve_left ?_
      rintro ⟨r, hr⟩
      obtain ⟨rfl, rfl, -⟩ : '*' = c ∧ '/' = d ∧ r = t := by simpa using hr
      exact hend ⟨rfl, rfl⟩
    rw [List.cons_append, List.cons_append, afterBlockComment, if_neg hend, afterBlockComment,
      if_neg hend]
    exact ih hinner

theorem afterBlockComment_eq_nil {t : Text} (h : ¬ "*/".toList <:+: t) :
    afterBlockComment t = [] := by
  induction t using afterBlockComment.induct with
  | case1 => rfl
  | case2 c => rfl
  | case3 c d t hend =>
    obtain ⟨rfl, rfl⟩ := hend
    exact absurd ⟨[], t, rfl⟩ h
  | case4 c d t hend ih =>
    rw [afterBlockComment, if_neg hend]
    exact ih fun hinner => h (hinner.trans (List.suffix_cons c _).isInfix)

/-- A block comment ends at its first closing mark. -/
theorem afterBlockComment_inner {c : Text} (h : ¬ "*/".toList <:+: c) (b : Text) :
    afterBlockComment (c ++ '*' :: '/' :: b) = b := by
  induction c with
  | nil => rfl
  | cons x c ih =>
    have hinner := ih fun hinner => h (hinner.trans (List.suffix_cons x c).isInfix)
    cases c with
    | nil => rw [List.singleton_append, afterBlockComment, if_neg (by simp)]; exact hinner
    | cons y c =>
      have hne : ¬ (x = '*' ∧ y = '/') := by
        rintro ⟨rfl, rfl⟩
        exact h ⟨[], c, rfl⟩
      rw [List.cons_append, List.cons_append, afterBlockComment, if_neg hne]
      exact hinner

/-! ## Where the pieces of a longer text start afresh -/

/-- No quote that a closed text starts with is left open. -/
theorem IsComplete.after?_ne_none {q : Quote} {t : Text} (h : IsComplete (q.opener :: t)) :
    q.after? t ≠ none := by
  intro hnone
  have hlead : Piece.leading? (q.opener :: t) = none := by
    rw [Piece.leading?_opener, hnone]
    rfl
  refine h.not_opener (.plain q.opener) (by simp [pieces_of_leading?_eq_none hlead]) ?_
  cases q <;> decide

/-- A quote that ends at a closed rest ends there in a longer text too. -/
theorem Quote.after?_append {q : Quote} {t rest v : Text} (h : q.after? t = some rest)
    (hrest : IsComplete rest) (hv : rest = [] → q ≠ bracket → v.head? ≠ some q.closer) :
    q.after? (t ++ v) = some (rest ++ v) := by
  -- A quote that closed behind half of a doubled mark would leave the other half open.
  have hmark : q ≠ bracket → rest.head? ≠ some q.closer := by
    intro hq hhead
    obtain ⟨r, rfl⟩ := List.head?_eq_some_iff.1 hhead
    have hopener : q.closer = q.opener := by
      cases q <;> first | rfl | exact absurd rfl hq
    rw [hopener] at hrest
    refine hrest.after?_ne_none ?_
    cases q with
    | single => exact Doubled.after?_eq_none_of_after? h
    | double => exact Doubled.after?_eq_none_of_after? h
    | bracket => exact absurd rfl hq
  cases q with
  | single => exact Doubled.after?_append h (hmark (by decide)) fun hr => hv hr (by decide)
  | double => exact Doubled.after?_append h (hmark (by decide)) fun hr => hv hr (by decide)
  | bracket =>
    have hbracket : afterNextMark? ']' t = some rest := h
    have hmem : ']' ∈ t := afterNextMark?_isSome_iff.1 (by rw [hbracket]; rfl)
    rw [after?, afterNextMark?_append hmem, hbracket]
    rfl

namespace Piece

variable {c : Char} {t v : Text} {p : Piece}

theorem leading?_line (t : Text) :
    leading? ('-' :: '-' :: t) = some (comment ('-' :: '-' :: t.takeWhile fun c => !isLineEnd c)) :=
  rfl

theorem leading?_block (t : Text) : leading? ('/' :: '*' :: t) =
    some (comment (Text.before ('/' :: '*' :: t) (afterBlockComment t))) :=
  rfl

/-- A quote or comment that ends at a closed rest is the same in a longer text. -/
theorem leading?_append {rest : Text} (h : leading? (c :: t) = some p)
    (ht : c :: t = p.raw ++ rest) (hrest : IsComplete rest) (hend : rest = [] → ¬ p.IsOpenComment)
    (hseam : ∀ c' ∈ (c :: t).getLast?, ∀ d ∈ v.head?, ¬ Joins c' d) :
    leading? (c :: (t ++ v)) = some p := by
  rcases Quote.exists_opener_or c with ⟨q, rfl⟩ | hc
  · -- A quote ends at the same mark, as that mark is not doubled across the seam.
    rw [leading?_opener] at h ⊢
    obtain ⟨r, hr, rfl⟩ := Option.map_eq_some_iff.1 h
    obtain ⟨m, rfl⟩ := Quote.exists_closer_of_after? hr
    obtain rfl : r = rest := by
      have hraw : q.opener :: (m ++ q.closer :: r) = q.opener :: (m ++ [q.closer]) ++ r := by simp
      rw [raw, hraw, Text.before_append] at ht
      exact List.append_cancel_left ht
    have happend : q.after? (m ++ q.closer :: r ++ v) = some (r ++ v) := by
      refine Quote.after?_append hr hrest fun hnil hq hhead => ?_
      refine hseam q.closer (by simp [hnil, List.getLast?_cons]) q.closer hhead (.inl ⟨rfl, ?_⟩)
      cases q with
      | single => exact .inl rfl
      | double => exact .inr rfl
      | bracket => exact absurd rfl hq
    rw [happend, Option.map_some, ← List.cons_append, Text.before_append_append]
  · obtain ⟨d, t, rfl, ⟨rfl, rfl⟩ | ⟨rfl, rfl⟩⟩ := exists_starts_of_leading? hc h
    · -- A line comment does not end with the text, so a line end stands behind it.
      obtain rfl := Option.some.inj h
      have hne : rest ≠ [] := fun hnil => hend hnil fun h => absurd h.1 (by simp)
      have hlen : (t.takeWhile fun c => !isLineEnd c).length ≠ t.length := by
        have hsplit := congrArg List.length ht
        have hpos := List.length_pos_iff.2 hne
        simp only [raw, List.length_append, List.length_cons] at hsplit
        omega
      rw [List.cons_append, leading?_line, List.takeWhile_append, if_neg hlen]
    · -- The closing mark of a block comment stands in the text.
      obtain rfl := Option.some.inj h
      have hmark : "*/".toList <:+: t := by
        by_contra hmark
        rw [afterBlockComment_eq_nil hmark] at ht hend
        have hraw : Text.before ('/' :: '*' :: t) [] = '/' :: '*' :: t := by
          simp [Text.before]
        rw [raw, hraw, List.self_eq_append_right] at ht
        rw [hraw] at hend
        exact hmark (not_not.1 (hend ht)).2.isInfix
      rw [List.cons_append, leading?_block, afterBlockComment_append hmark, ← List.cons_append,
        ← List.cons_append, Text.before_append_append]

/-- A character that is a piece by itself is one in a longer text. -/
theorem leading?_append_eq_none (h : leading? (c :: t) = none) (hc : Quote.ofOpener? c = none)
    (hseam : ∀ c' ∈ (c :: t).getLast?, ∀ d ∈ v.head?, ¬ Joins c' d) :
    leading? (c :: (t ++ v)) = none := by
  have hnext : ∀ d ∈ (t ++ v).head?, ¬ StartsComment c d := by
    intro d hd
    cases t with
    | nil => exact fun hstart => hseam c rfl d hd (.inr hstart)
    | cons e t =>
      obtain rfl : e = d := by simpa using hd
      rintro (⟨rfl, rfl⟩ | ⟨rfl, rfl⟩) <;> cases h
  refine leading?_eq_none hc ?_ ?_
  · rintro rfl hd
    exact hnext '-' hd (.inl ⟨rfl, rfl⟩)
  · rintro rfl hd
    exact hnext '*' hd (.inr ⟨rfl, rfl⟩)

end Piece

/-- The pieces of a text behind a complete one are the pieces that it has by itself, if no mark is
made of two characters across the seam. -/
theorem IsComplete.pieces_append {u v : Text} (hu : IsComplete u)
    (hseam : ∀ c ∈ u.getLast?, ∀ d ∈ v.head?, ¬ Joins c d) :
    pieces (u ++ v) = pieces u ++ pieces v := by
  -- Induction on the length: what follows the first piece is complete again.
  induction hn : u.length using Nat.strong_induction_on generalizing u with
  | _ n ih =>
    subst hn
    rcases u with _ | ⟨c, t⟩
    · simp [pieces]
    -- The seam is the same for what follows the first piece.
    have hseam' : ∀ {m r : Text}, c :: t = m ++ r →
        ∀ c ∈ r.getLast?, ∀ d ∈ v.head?, ¬ Joins c d :=
      fun hsplit c' hc' => hseam c' (hsplit ▸ List.mem_getLast?_append_of_mem_getLast? hc')
    cases hlead : Piece.leading? (c :: t) with
    | none =>
      obtain ⟨hopener, htail, -⟩ := hu.tail (pieces_of_leading?_eq_none hlead)
      have happend : Piece.leading? (c :: (t ++ v)) = none :=
        Piece.leading?_append_eq_none hlead (not_not.1 hopener) hseam
      rw [List.cons_append, pieces_of_leading?_eq_none happend, pieces_of_leading?_eq_none hlead,
        ih t.length (by simp) htail (hseam' (m := [c]) rfl) rfl, List.cons_append]
    | some p =>
      have hpieces := pieces_of_leading? hlead
      have hsplit := Piece.raw_append_drop hlead
      generalize t.drop (p.raw.length - 1) = rest at hpieces hsplit
      obtain ⟨-, htail, hend⟩ := hu.tail hpieces
      have happend := Piece.leading?_append hlead hsplit.symm htail hend hseam
      have hdrop : (t ++ v).drop (p.raw.length - 1) = rest ++ v := by
        have hsplit' := Piece.raw_append_drop happend
        rw [← List.cons_append, ← hsplit, List.append_assoc] at hsplit'
        exact List.append_cancel_left hsplit'
      have hlen : rest.length < (c :: t).length := by
        rw [← hsplit, List.length_append]
        exact Nat.lt_add_of_pos_left (List.length_pos_iff.2 (Piece.prefix_of_leading? hlead).2.1)
      rw [List.cons_append, pieces_of_leading? happend, hdrop, hpieces, List.cons_append,
        ih rest.length hlen htail (hseam' hsplit.symm) rfl]

/-! ## Comments exchanged for a space -/

theorem IsComplete.stripComments_append {u v : Text} (hu : IsComplete u)
    (hseam : ∀ c ∈ u.getLast?, ∀ d ∈ v.head?, ¬ Joins c d) :
    stripComments (u ++ v) = stripComments u ++ stripComments v := by
  rw [stripComments, hu.pieces_append hseam, List.flatMap_append]
  rfl

theorem stripComments_space_cons (t : Text) : stripComments (' ' :: t) = ' ' :: stripComments t :=
  stripComments_of_leading?_eq_none (Piece.leading?_eq_none rfl (by simp) (by simp))

theorem stripComments_of_eq_append {c : Char} {t rest : Text} {p : Piece}
    (h : Piece.leading? (c :: t) = some p) (ht : c :: t = p.raw ++ rest) :
    stripComments (c :: t) = p.withoutComment ++ stripComments rest := by
  have hrest := Piece.raw_append_drop h
  rw [ht] at hrest
  rw [stripComments_of_leading? h, List.append_cancel_left hrest]

/-- A block comment comes out as one space, whatever stands behind it. -/
theorem stripComments_block {c : Text} (hc : ¬ "*/".toList <:+: c) (b : Text) :
    stripComments ("/*".toList ++ c ++ "*/".toList ++ b) = ' ' :: stripComments b := by
  have ht : "/*".toList ++ c ++ "*/".toList ++ b = '/' :: '*' :: (c ++ '*' :: '/' :: b) := by simp
  have hlead := Piece.leading?_block (c ++ '*' :: '/' :: b)
  rw [afterBlockComment_inner hc, ← ht, Text.before_append] at hlead
  rw [ht, stripComments_of_eq_append (ht ▸ hlead) ht.symm]
  rfl

/-- A line comment comes out as one space, and the line end behind it stays. -/
theorem stripComments_line {c b : Text} (hc : ∀ d ∈ c, isLineEnd d = false)
    (hb : ∀ d ∈ b.head?, isLineEnd d = true) :
    stripComments ("--".toList ++ c ++ b) = ' ' :: stripComments b := by
  have ht : "--".toList ++ c ++ b = '-' :: '-' :: (c ++ b) := by simp
  have hline : (c ++ b).takeWhile (fun d => !isLineEnd d) = c :=
    (Text.span_append (by simpa using hc) fun d hd => by simp [hb d hd]).1
  have hlead := Piece.leading?_line (c ++ b)
  rw [hline] at hlead
  have hsplit : '-' :: '-' :: (c ++ b) = (Piece.comment ('-' :: '-' :: c)).raw ++ b := rfl
  rw [ht, stripComments_of_eq_append hlead hsplit]
  rfl

/-- No question and no variant tells the two scripts apart. -/
structure SameAnswers (sql sql' : Text) : Prop where
  /-- The normal form, the clauses and the variants, each as a step, are the same. -/
  result?_eq : ∀ step : Step, step.result? sql = step.result? sql'
  /-- The databases that are named are the same. -/
  databaseNames_eq : ∀ budget, databaseNames budget sql = databaseNames budget sql'
  /-- The first table is the same. -/
  firstTableName?_eq : ∀ budget, firstTableName? budget sql = firstTableName? budget sql'
  /-- The columns of the list are the same. -/
  columnDetails_eq : columnDetails sql = columnDetails sql'
  /-- The conditions are the same. -/
  whereConditions_eq : whereConditions sql = whereConditions sql'
  /-- The analysis is the same. -/
  analyze?_eq : ∀ budget, analyze? budget sql = analyze? budget sql'

theorem Statement.ofScript?_congr {sql sql' : Text} (h : normalize sql = normalize sql') :
    ofScript? sql = ofScript? sql' := by
  rw [ofScript?, ofScript?, h]

/-- Every answer is an answer on the normal form. -/
theorem sameAnswers_of_normalize_eq {sql sql' : Text} (h : normalize sql = normalize sql') :
    SameAnswers sql sql' := by
  have hstatement := Statement.ofScript?_congr h
  have hselection : Selection.ofScript? sql = Selection.ofScript? sql' := by
    rw [Selection.ofScript?, Selection.ofScript?, hstatement]
  constructor
  case result?_eq =>
    intro step
    cases step with
    | count => simp only [Step.result?, toCount?, hselection]
    | top n => simp only [Step.result?, toTop?, hselection]
    | distinct => simp only [Step.result?, toDistinct?, hselection]
    | orderBy clause => simp only [Step.result?, toOrderBy?, hselection]
    | normalize => simp only [Step.result?, h]
    | selectClause => simp only [Step.result?, selectClause?, hstatement]
    | whereClause => simp only [Step.result?, whereClause?, hstatement]
    | orderByClause => simp only [Step.result?, orderByClause?, hstatement]
    | pagingClause => simp only [Step.result?, pagingClause?, hstatement]
  case databaseNames_eq => intro budget; rw [databaseNames, databaseNames, h]
  case firstTableName?_eq => intro budget; rw [firstTableName?, firstTableName?, h]
  case columnDetails_eq => rw [columnDetails, columnDetails, hstatement]
  case whereConditions_eq => rw [whereConditions, whereConditions, hstatement]
  case analyze?_eq => intro budget; rw [analyze?, analyze?, hstatement]

theorem sameAnswers_of_stripComments_eq {sql sql' : Text}
    (h : stripComments sql = stripComments sql') : SameAnswers sql sql' :=
  sameAnswers_of_normalize_eq (by rw [normalize, normalize, h])

/-- Behind a text that leaves nothing open, a comment is as good as a space: a block comment in
front of any text, and a line comment in front of a line end or the end of the text. -/
theorem sameAnswers_comment {a : Text} (ha : IsComplete a) (b : Text) :
    (∀ c : Text, ¬ "*/".toList <:+: c →
      stripComments (a ++ "/*".toList ++ c ++ "*/".toList ++ b) = stripComments (a ++ ' ' :: b) ∧
      SameAnswers (a ++ "/*".toList ++ c ++ "*/".toList ++ b) (a ++ ' ' :: b)) ∧
    (a.getLast? ≠ some '-' → (∀ d ∈ b.head?, isLineEnd d = true) →
      ∀ c : Text, (∀ d ∈ c, isLineEnd d = false) →
        stripComments (a ++ "--".toList ++ c ++ b) = stripComments (a ++ ' ' :: b) ∧
        SameAnswers (a ++ "--".toList ++ c ++ b) (a ++ ' ' :: b)) := by
  -- Neither a space nor the start of a block comment makes a mark with the character before it.
  have hspace : stripComments (a ++ ' ' :: b) = stripComments a ++ ' ' :: stripComments b := by
    rw [ha.stripComments_append, stripComments_space_cons]
    intro c _ d hd
    obtain rfl : ' ' = d := by simpa using hd
    exact not_joins_of_not_mem (.inr (by decide))
  refine ⟨fun c hc => ?_, fun hdash hb c hc => ?_⟩
  · have hstrip : stripComments (a ++ "/*".toList ++ c ++ "*/".toList ++ b) =
        stripComments (a ++ ' ' :: b) := by
      rw [hspace, List.append_assoc, List.append_assoc, List.append_assoc, ← List.append_assoc c,
        ← List.append_assoc _ (c ++ _), ← List.append_assoc _ c, ha.stripComments_append,
        stripComments_block hc]
      intro e _ d hd
      obtain rfl : '/' = d := by simpa using hd
      rintro (⟨rfl, h⟩ | ⟨-, h⟩ | ⟨-, h⟩) <;> revert h <;> decide
    exact ⟨hstrip, sameAnswers_of_stripComments_eq hstrip⟩
  · have hstrip : stripComments (a ++ "--".toList ++ c ++ b) = stripComments (a ++ ' ' :: b) := by
      rw [hspace, List.append_assoc, List.append_assoc, ← List.append_assoc _ c,
        ha.stripComments_append, stripComments_line hc hb]
      intro e he d hd
      obtain rfl : '-' = d := by simpa using hd
      rintro (⟨rfl, h⟩ | ⟨rfl, -⟩ | ⟨-, h⟩)
      · revert h
        decide
      · exact hdash he
      · revert h
        decide
    exact ⟨hstrip, sameAnswers_of_stripComments_eq hstrip⟩

/-- Marks and a keyword inside comments, behind a text with quotes and a comment of its own. -/
theorem sameAnswers_comment_marks :
    let a := "SELECT 'it''s', [b--] /**/".toList
    SameAnswers (a ++ "/*".toList ++ "FROM ' [ --".toList ++ "*/".toList ++ "\nFROM t".toList)
        (a ++ ' ' :: "\nFROM t".toList) ∧
      SameAnswers (a ++ "--".toList ++ "FROM ' /*".toList ++ "\nFROM t".toList)
        (a ++ ' ' :: "\nFROM t".toList) := by
  have hclosed : IsComplete "SELECT 'it''s', [b--] /**/".toList := by decide +kernel
  obtain ⟨hblock, hline⟩ := sameAnswers_comment hclosed "\nFROM t".toList
  have hinner : ¬ "*/".toList <:+: "FROM ' [ --".toList := fun h =>
    absurd (h.subset (List.mem_cons_self : '*' ∈ "*/".toList)) (by decide)
  exact ⟨(hblock _ hinner).2, (hline (by decide) (by decide) _ (by decide)).2⟩

end LooseSql
