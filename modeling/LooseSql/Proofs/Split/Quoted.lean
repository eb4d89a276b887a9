import LooseSql.Name.Part
import LooseSql.Proofs.Clause.Enclosure
import LooseSql.Proofs.Split.Items
import LooseSql.Proofs.Split.Predicates
import LooseSql.Proofs.Text.Doubled

/-!
# Quoted tokens as one piece

A quoted token with its closing mark doubled inside is read back as one token. To the scan of the
top level a doubled mark closes the quote and opens it again, where one character does both. So a
token in single or double quotes shows nothing but quote marks, and nothing in it is split or found.

The mark that closes a bracket does not open it again. Behind the first `]` of its text a token in
brackets is scanned like any other text, and it is one piece only if that text is quiet
(`Quote.wrap_whole_iff`).

* `Text.IsQuiet`: no comma and no word stands at the top level;
* `whole_iff_isQuiet`: the texts that are one item, one predicate and without a keyword;
* `forall_topLevelFrom_encode_iff`: doubled brackets are scanned like single ones.
-/

namespace LooseSql

/-! ## Quiet texts -/

/-- Nothing is split or found at the place: no comma stands there, and no letter from `A` to `z`
starts a word. -/
def Place.IsQuiet (p : Place) : Prop :=
  p.char ≠ ',' ∧ (p.char.isAlpha = true → p.before.any isWordChar = true)

/-- No comma stands at the top level of the text, and no word with a letter from `A` to `z` in front
starts there. -/
def Text.IsQuiet (t : Text) : Prop := ∀ p ∈ topLevel t, p.IsQuiet

/-- A quote mark or a parenthesis is neither a comma nor a letter. -/
theorem Place.isQuiet_of_isScanMark {p : Place} (h : isScanMark p.char = true) : p.IsQuiet := by
  constructor
  · intro hcomma
    rw [hcomma] at h
    exact absurd h (by decide)
  · intro halpha
    rw [isScanMark_of_isAlpha halpha] at h
    cases h

section Whole

variable {t : Text}

/-- No keyword is found exactly if no word starts with a letter at the top level. -/
theorem findKeyword_eq_none_iff : (∀ k : Keyword, findKeyword t 0 k = none) ↔
    ∀ p ∈ topLevel t, p.char.isAlpha = true → p.before.any isWordChar = true := by
  simp only [findKeyword, List.findSome?_eq_none_iff, keywordPlaces, List.mem_filter, Nat.zero_le,
    decide_true, Bool.true_and]
  constructor
  · intro h p hp halpha
    by_contra hbefore
    -- The word that starts at the place is a keyword that is found there.
    have hnone := h [p.rest.takeWhile isWordChar] p ⟨hp, halpha⟩
    have hafter : Keyword.after? [p.rest.takeWhile isWordChar] p.before p.rest =
        some (p.rest.dropWhile isWordChar) := by
      refine Keyword.after?_eq_some_iff.2 ⟨Bool.eq_false_iff.2 hbefore, ?_, ?_⟩
      · have hword := Keyword.afterWord?_append_self (p.rest.takeWhile isWordChar)
          (p.rest.dropWhile isWordChar)
        rwa [List.takeWhile_append_dropWhile] at hword
      · have hnot := List.head?_dropWhile_not isWordChar p.rest
        cases hrest : p.rest.dropWhile isWordChar with
        | nil => rfl
        | cons c rest =>
          rw [hrest] at hnot
          simpa [startsWithWordChar] using hnot
    rw [Keyword.at?, hafter] at hnone
    cases hnone
  · rintro h k p ⟨hp, halpha⟩
    rw [Keyword.at?, Keyword.after?, if_pos (h p hp halpha)]
    rfl

theorem commas_eq_nil_iff : commas t = [] ↔ ∀ p ∈ topLevel t, p.char ≠ ',' := by
  simp [commas, List.filter_eq_nil_iff]

theorem connectives_eq_nil_of_isQuiet (h : t.IsQuiet) : connectives t = [] := by
  refine List.eq_nil_iff_forall_not_mem.2 fun s hs => ?_
  obtain ⟨w, -, ⟨u, word, v, rfl, -, hword, hu, htouch, -⟩, -⟩ := mem_connectives_iff.1 hs
  obtain ⟨d, word, rfl⟩ :=
    List.exists_cons_of_ne_nil (PredicateWord.ne_nil_of_sameIgnoringCase hword)
  have hd := PredicateWord.isAlpha_of_sameIgnoringCase hword d List.mem_cons_self
  have hquiet := h _ (mem_topLevel_of_isClosed hu (isScanMark_of_isAlpha hd) (word ++ v))
  exact absurd (hquiet.2 hd) (Bool.eq_false_iff.1 (PredicateWord.isWordChar_of_mayTouch htouch))

/-- A text without blanks at its ends is one item, one predicate and without any keyword exactly if
it is quiet. -/
theorem whole_iff_isQuiet (htrim : t.trim = t) (hne : t ≠ []) :
    (items t = [t] ∧ predicates t = [t] ∧ ∀ k : Keyword, findKeyword t 0 k = none) ↔
      t.IsQuiet := by
  have hitems : items t = [t] ↔ commas t = [] := by
    rw [items, rawItems_eq]
    exact fragments_eq_singleton_iff (isCutting_commas t) htrim hne
  have hpredicates : predicates t = [t] ↔ connectives t = [] :=
    fragments_eq_singleton_iff (isCutting_connectives t) htrim hne
  rw [hitems, hpredicates, findKeyword_eq_none_iff, commas_eq_nil_iff]
  constructor
  · rintro ⟨hcomma, -, hword⟩ p hp
    exact ⟨hcomma p hp, hword p hp⟩
  · intro h
    exact ⟨fun p hp => (h p hp).1, connectives_eq_nil_of_isQuiet h, fun p hp => (h p hp).2⟩

end Whole

/-! ## Doubled marks under a scan -/

/-- A statement on the places of a text is one on its first character and one on the others. -/
theorem forall_topLevelFrom_cons {P : Place → Prop} {s : ScanState} {i : Nat}
    {before : Option Char} {c : Char} {t : Text} :
    (∀ p ∈ topLevelFrom s i before (c :: t), P p) ↔
      (s.shows c = true → P ⟨i, before, c, t⟩) ∧
        ∀ p ∈ topLevelFrom (s.step c) (i + 1) (some c) t, P p := by
  rw [topLevelFrom]
  by_cases hc : s.shows c = true
  · simp [hc]
  · simp [hc]

/-- A closing bracket outside brackets does nothing, so one that is doubled does what a single one
does. -/
theorem ScanState.step_bracket_step (s : ScanState) : (s.step ']').step ']' = s.step ']' := by
  rcases s with ⟨depth, quote⟩
  rcases quote with _ | q
  · rfl
  · cases q <;> rfl

/-- Doubled brackets, and one at the end, change nothing in what a scan shows but brackets. -/
theorem forall_topLevelFrom_encode_iff (state : ScanState) (i j : Nat)
    (before before' : Option Char) (hbefore : before.any isWordChar = before'.any isWordChar)
    (t : Text) :
    (∀ p ∈ topLevelFrom state i before (Doubled.encode ']' t), p.IsQuiet) ↔
      ∀ p ∈ topLevelFrom state j before' t, p.IsQuiet := by
  have hbracket : ∀ i before t, Place.IsQuiet ⟨i, before, ']', t⟩ := fun _ _ _ =>
    Place.isQuiet_of_isScanMark rfl
  induction t generalizing state i j before before' with
  | nil =>
    rw [Doubled.encode, forall_topLevelFrom_cons]
    simp [hbracket, topLevelFrom]
  | cons c t ih =>
    -- A doubled bracket is two quiet places, and the state is the one behind a single bracket.
    by_cases hc : c = ']'
    · subst hc
      have hrest := ih (state.step ']') (i + 1 + 1) (j + 1) (some ']') (some ']') rfl
      rw [Doubled.encode, if_pos rfl, forall_topLevelFrom_cons, forall_topLevelFrom_cons,
        forall_topLevelFrom_cons, ScanState.step_bracket_step]
      simp only [hbracket, implies_true, true_and]
      exact hrest
    · have hrest := ih (state.step c) (i + 1) (j + 1) (some c) (some c) rfl
      rw [Doubled.encode, if_neg hc, forall_topLevelFrom_cons, forall_topLevelFrom_cons,
        Place.IsQuiet, Place.IsQuiet, hbefore]
      exact and_congr_right fun _ => hrest

/-- Inside a quote that opens and closes with one mark, only doubled marks are shown. -/
theorem char_eq_of_mem_topLevelFrom_encode {q : Quote} (hq : q.opener = q.closer) (i : Nat)
    (before : Option Char) (t : Text) :
    ∀ p ∈ topLevelFrom ⟨0, some q⟩ i before (Doubled.encode q.closer t), p.char = q.closer := by
  have hclose : (ScanState.mk 0 (some q)).step q.closer = .top := Enclosure.step_closer (.quote q)
  have hopen : ScanState.top.step q.closer = ⟨0, some q⟩ := hq ▸ Enclosure.step_opener (.quote q)
  induction t generalizing i before with
  | nil =>
    rw [Doubled.encode, forall_topLevelFrom_cons]
    exact ⟨fun _ => rfl, by simp [topLevelFrom]⟩
  | cons c t ih =>
    by_cases hc : c = q.closer
    · rw [Doubled.encode, if_pos hc, hc, forall_topLevelFrom_cons, forall_topLevelFrom_cons, hclose,
        hopen]
      exact ⟨fun _ => rfl, fun _ => rfl, ih _ _⟩
    · rw [Doubled.encode, if_neg hc, forall_topLevelFrom_cons, ScanState.step_of_ne_closer rfl hc]
      exact ⟨fun h => absurd h (by simp [ScanState.shows]), ih _ _⟩

/-! ## Quoted tokens -/

namespace Quote

/-- The text in the quote, with its closing mark doubled inside. -/
def wrap (q : Quote) (s : Text) : Text := q.opener :: Doubled.encode q.closer s

/-- Marks stand at the ends of a token, so it has no blanks there. -/
theorem trim_wrap (q : Quote) (s : Text) : (q.wrap s).trim = q.wrap s := by
  have hwrap : q.wrap s = (Enclosure.quote q).wrap
      (s.flatMap fun c => if c = q.closer then [c, c] else [c]) := by
    rw [wrap, Doubled.encode_eq]
    rfl
  rw [hwrap]
  exact Text.trim_eq_self_iff.2 ⟨Enclosure.trimStart_wrap _ _, Enclosure.trimEnd_wrap _ _⟩

/-- A token in single or double quotes is quiet. -/
theorem isQuiet_wrap_of_eq {q : Quote} (hq : q.opener = q.closer) (s : Text) :
    (q.wrap s).IsQuiet := by
  have hmark : isScanMark q.closer = true := by cases q <;> rfl
  have hopen : ScanState.top.step q.opener = ⟨0, some q⟩ := Enclosure.step_opener (.quote q)
  rw [Text.IsQuiet, topLevel, wrap, forall_topLevelFrom_cons, hopen]
  refine ⟨fun _ => Place.isQuiet_of_isScanMark (hq ▸ hmark), fun p hp => ?_⟩
  rw [← char_eq_of_mem_topLevelFrom_encode hq _ _ s p hp] at hmark
  exact Place.isQuiet_of_isScanMark hmark

/-- A token in brackets is quiet if what stands behind its first closing bracket is. -/
theorem isQuiet_wrap_bracket_iff (s : Text) :
    (bracket.wrap s).IsQuiet ↔ ∀ r, afterNextMark? ']' s = some r → r.IsQuiet := by
  -- Up to its first closing bracket the token shows the opening one alone.
  have hfront : ∀ {inner : Text}, ']' ∉ inner →
      topLevel ((Enclosure.quote bracket).wrap inner) = [⟨0, none, '[', inner ++ [']']⟩] :=
    fun hinner => Enclosure.topLevelFrom_wrap (e := .quote bracket) hinner 0 none
  have hopener : ∀ t, Place.IsQuiet ⟨0, none, '[', t⟩ := fun _ => Place.isQuiet_of_isScanMark rfl
  cases hs : afterNextMark? ']' s with
  | none =>
    have hnot : ']' ∉ s := afterNextMark?_eq_none_iff.1 hs
    have hwrap : bracket.wrap s = (Enclosure.quote bracket).wrap s := by
      rw [wrap, show bracket.closer = ']' from rfl, Doubled.encode_of_not_mem hnot]
      rfl
    rw [hwrap, Text.IsQuiet, hfront hnot]
    simp [hopener]
  | some r =>
    obtain ⟨inner, hinner, rfl⟩ := afterNextMark?_eq_some_iff.1 hs
    have hwrap : bracket.wrap (inner ++ ']' :: r) =
        (Enclosure.quote bracket).wrap inner ++ ']' :: Doubled.encode ']' r := by
      rw [wrap, show bracket.closer = ']' from rfl, Doubled.encode_append hinner, Doubled.encode,
        if_pos rfl, Enclosure.wrap]
      simp [Enclosure.opener, Enclosure.closer, closer]
    have hscan := Enclosure.scan_wrap (e := .quote bracket) hinner
    have hrest : ∀ i before, (∀ p ∈ topLevelFrom .top i before (']' :: Doubled.encode ']' r),
        p.IsQuiet) ↔ r.IsQuiet := by
      intro i before
      rw [forall_topLevelFrom_cons, show ScanState.top.step ']' = .top from rfl]
      refine (and_iff_right fun _ => Place.isQuiet_of_isScanMark rfl).trans ?_
      exact forall_topLevelFrom_encode_iff .top (i + 1) 0 (some ']') none (by decide) r
    rw [hwrap, Text.IsQuiet, topLevel, topLevelFrom_append, hscan, ← topLevel, hfront hinner]
    simp [hopener, hrest, Place.extend]

/-- A token is read back as the text in it, for the two quotes that a name can be written in. -/
theorem unwrap_wrap {q : Quote} (hq : q ≠ .single) (s : Text) : Part.unwrap (q.wrap s) = s := by
  have hread : Part.read? (q.wrap s) = some (s, []) := by
    have hdecode : Doubled.decode? q.closer (Doubled.encode q.closer s) = some (s, []) :=
      Doubled.decode?_encode s
    cases q with
    | single => exact absurd rfl hq
    | double => exact hdecode
    | bracket => exact hdecode
  rw [Part.unwrap, trim_wrap, hread]

/-- A token in single or double quotes is one item, one predicate and without any keyword. A token
in brackets is so exactly if what stands behind the first closing bracket of its text is quiet, if
there is one. As a part of a name, each token in brackets or double quotes is read back as its
text. -/
theorem wrap_whole_iff (q : Quote) (s : Text) :
    ((items (q.wrap s) = [q.wrap s] ∧ predicates (q.wrap s) = [q.wrap s] ∧
        ∀ k : Keyword, findKeyword (q.wrap s) 0 k = none) ↔
      (q = .bracket → ∀ r, afterNextMark? ']' s = some r → r.IsQuiet)) ∧
      (q ≠ .single → Part.unwrap (q.wrap s) = s) := by
  refine ⟨(whole_iff_isQuiet (trim_wrap q s) (by simp [wrap])).trans ?_, fun hq => unwrap_wrap hq s⟩
  cases q with
  | single => exact iff_of_true (isQuiet_wrap_of_eq rfl s) (by simp)
  | double => exact iff_of_true (isQuiet_wrap_of_eq rfl s) (by simp)
  | bracket => simpa using isQuiet_wrap_bracket_iff s

/-- A comma behind a closing bracket in brackets splits the token, which still is one part of a
name. -/
theorem wrap_not_whole : items (bracket.wrap "a],b".toList) ≠ [bracket.wrap "a],b".toList] ∧
    Part.unwrap (bracket.wrap "a],b".toList) = "a],b".toList := by
  decide

end Quote

end LooseSql
