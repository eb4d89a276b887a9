import LooseSql.Condition.Basic
import LooseSql.Proofs.Column.Alias
import LooseSql.Proofs.Keyword.Stands
import LooseSql.Report.Json

/-!
# Conditions as they are written

A condition is written as a column in delimiters, an operator with its words in any case and any
blanks between them, and a value. `Condition.parse?_written` reads these three back, whatever the
parts of the column and the value hold.

* `Chain.after?_wrapped`: the column is passed over up to the operator;
* `Operator.ofText?_of_spells`: an operator is known by its words;
* `Condition.operatorAndValue?_of_spells`: the operator and the value are told apart. Operators that
  are tried earlier do not match, since no word of an operator is the start of another one.
-/

namespace LooseSql

/-! ## The words of an operator -/

theorem isBlank_toLower (c : Char) : isBlank c.toLower = isBlank c := by
  rcases isAlpha_or_toLower_eq c with halpha | hself
  · rw [isBlank_of_isAlpha halpha, isBlank_of_isAlpha (isAlpha_toLower halpha)]
  · rw [hself]

namespace Text

theorem words_cons_of_blank {c : Char} (hc : isBlank c) (t : Text) : words (c :: t) = words t := by
  rw [words.eq_def]
  exact if_pos hc

/-- A character with a blank behind it, or nothing, ends a word. -/
theorem words_cons_of_ends {c : Char} (hc : isBlank c = false) {t : Text}
    (ht : ∀ d ∈ t.head?, isBlank d = true) : words (c :: t) = [c] :: words t := by
  rw [words.eq_def]
  refine (if_neg (by simp [hc])).trans ?_
  cases t with
  | nil => rfl
  | cons d t => exact if_pos (ht d rfl)

/-- A character in front of a word belongs to it. -/
theorem words_cons_of_word {c d : Char} (hc : isBlank c = false) (hd : isBlank d = false)
    {t w : Text} {ws : List Text} (h : words (d :: t) = w :: ws) :
    words (c :: d :: t) = (c :: w) :: ws := by
  rw [words.eq_def]
  simp [hc, hd, h]

theorem words_blank_append {gap : Text} (hgap : ∀ c ∈ gap, isBlank c) (rest : Text) :
    words (gap ++ rest) = words rest := by
  induction gap with
  | nil => rfl
  | cons c gap ih =>
    rw [List.cons_append, words_cons_of_blank (hgap c (by simp)),
      ih fun d hd => hgap d (by simp [hd])]

/-- A word with blanks behind it, or nothing, is the first word of the text. -/
theorem words_append {m : Text} (hne : m ≠ []) (hm : ∀ c ∈ m, isBlank c = false) {rest : Text}
    (hrest : ∀ c ∈ rest.head?, isBlank c = true) : words (m ++ rest) = m :: words rest := by
  induction m with
  | nil => exact absurd rfl hne
  | cons c m ih =>
    have hc : isBlank c = false := hm c (by simp)
    cases m with
    | nil => exact words_cons_of_ends hc hrest
    | cons d m =>
      have hd : isBlank d = false := hm d (by simp)
      have hinner := ih (by simp) fun e he => hm e (by simp [he])
      exact words_cons_of_word hc hd hinner

end Text

/-- Texts that agree up to the case of their letters are the same in upper case. -/
theorem toUpperAscii_congr {m w : Text} (h : m.map Char.toLower = w.map Char.toLower) :
    m.toUpperAscii = w.toUpperAscii := by
  have hupper (t : Text) : (t.map Char.toLower).map Char.toUpper = t.toUpperAscii := by
    rw [List.map_map, Text.toUpperAscii]
    exact List.map_congr_left fun c _ => toUpper_toLower c
  rw [← hupper, h, hupper]

/-- A text that agrees with a word up to the case of its letters is one word as well. -/
theorem isBlank_of_map_toLower {m w : Text} (h : m.map Char.toLower = w.map Char.toLower)
    (hne : w ≠ []) (hw : ∀ c ∈ w, isBlank c = false) : m ≠ [] ∧ ∀ c ∈ m, isBlank c = false := by
  refine ⟨fun hm => hne ?_, fun c hc => ?_⟩
  · rw [hm] at h
    exact List.map_eq_nil_iff.1 h.symm
  · have hmem : c.toLower ∈ w.map Char.toLower := by
      rw [← h]
      exact List.mem_map_of_mem hc
    obtain ⟨d, hd, hlower⟩ := List.mem_map.1 hmem
    rw [← isBlank_toLower, ← hlower, isBlank_toLower, hw d hd]

/-- The words of a text that spells a keyword are those of the keyword, up to their case. -/
theorem Keyword.Spells.map_words {k : Keyword} {written : Text} (h : k.Spells written)
    (hk : ∀ w ∈ k, w ≠ [] ∧ ∀ c ∈ w, isBlank c = false) :
    written.words.map Text.toUpperAscii = k.map Text.toUpperAscii := by
  induction h with
  | @word w m hm =>
    obtain ⟨hne, hsolid⟩ := isBlank_of_map_toLower hm (hk w (by simp)).1 (hk w (by simp)).2
    have hwords : (m ++ []).words = m :: Text.words [] := Text.words_append hne hsolid (by simp)
    rw [List.append_nil] at hwords
    rw [hwords, List.map_cons, toUpperAscii_congr hm]
    rfl
  | @cons w w' m gap m' words hm hgapne hgap hrest ih =>
    obtain ⟨hne, hsolid⟩ := isBlank_of_map_toLower hm (hk w (by simp)).1 (hk w (by simp)).2
    -- Blanks follow the word, so it is a word of the text by itself.
    have hhead : ∀ c ∈ (gap ++ m').head?, isBlank c = true := by
      rw [List.head?_append_of_ne_nil _ hgapne]
      exact fun c hc => hgap c (List.mem_of_mem_head? hc)
    rw [Text.words_append hne hsolid hhead, Text.words_blank_append hgap, List.map_cons,
      ih fun v hv => hk v (by simp [hv]), toUpperAscii_congr hm]
    rfl

namespace Operator

variable (op : Operator)

/-- The words of an operator hold no blank and are in upper case. -/
theorem words_spec : (∀ w ∈ op.words, w ≠ [] ∧ ∀ c ∈ w, isBlank c = false) ∧
    op.words.map Text.toUpperAscii = op.words := by
  cases op <;> decide

/-- No two operators have the same words. -/
theorem find?_words : (all.find? fun op' => op'.words == op.words) = some op := by
  cases op <;> decide

/-- An operator is read from its words in any case, with any blanks between them. -/
theorem ofText?_of_spells {op : Operator} {written : Text}
    (h : Keyword.Spells op.words written) : ofText? written = some op := by
  rw [ofText?, h.map_words op.words_spec.1, op.words_spec.2]
  exact op.find?_words

end Operator

/-! ## The column -/

/-- A part in delimiters is read off up to its closing mark, if only what stands around a dot can
follow. -/
theorem Shape.afterInner?_wrap_append (d : Delimiter) {part rest : Text} (hpart : part ≠ [])
    (hrest : ∀ c ∈ rest.head?, isAroundDot c = true) (start : Char → Bool) :
    Shape.mixed.afterInner? start (d.wrap part ++ rest) = some rest := by
  -- A closing mark behind the part would be read as the second half of a doubled one.
  have hclosing : rest.head? ≠ some d.closing := by
    intro hhead
    have haround := hrest _ hhead
    cases d <;> exact absurd haround (by decide)
  rw [Delimiter.wrap, List.cons_append, Alias.afterInner?_opening,
    Doubled.decode?_encode_append part hclosing]
  simp [Option.filter_some, hpart]

namespace Chain

variable {start : Char → Bool} {t rest rest' : Text}

/-- A chain ends where no dot follows. -/
theorem afterParts_of_eq_none (h : afterSpacedDot? t = none) : afterParts start t = t := by
  rw [afterParts]
  split
  · rfl
  · next hdot =>
    rw [h] at hdot
    cases hdot

/-- A chain goes on behind a dot and the part that follows it. -/
theorem afterParts_of_part (hdot : afterSpacedDot? t = some rest)
    (hpart : Shape.mixed.afterInner? start rest = some rest') :
    afterParts start t = afterParts start rest' := by
  rw [afterParts]
  split
  · next hnone =>
    rw [hdot] at hnone
    cases hnone
  · next r hr =>
    obtain rfl : rest = r := Option.some.inj (hdot.symm.trans hr)
    split
    · next hnone =>
      rw [hpart] at hnone
      cases hnone
    · next r' hr' =>
      rw [Option.some.inj (hpart.symm.trans hr')]

/-- The token is a part in delimiters that is not empty. -/
def IsWrapped (token : Text) : Prop :=
  ∃ (d : Delimiter) (part : Text), part ≠ [] ∧ token = d.wrap part

theorem isWrapped_of_mem_zipWith {delimiters : List Delimiter} {parts : List Text}
    (hparts : ∀ p ∈ parts, p ≠ []) :
    ∀ token ∈ List.zipWith Delimiter.wrap delimiters parts, IsWrapped token := by
  intro token htoken
  rw [← List.map_uncurry_zip_eq_zipWith] at htoken
  obtain ⟨⟨d, part⟩, hmem, rfl⟩ := List.mem_map.1 htoken
  exact ⟨d, part, hparts part (List.of_mem_zip hmem).2, rfl⟩

section Tokens

variable {tokens : List Text} (htokens : ∀ token ∈ tokens, IsWrapped token)
  (hrest : ∀ c ∈ rest.head?, isAroundDot c = true)

include hrest in
theorem isAroundDot_head?_further :
    ∀ c ∈ (tokens.flatMap (['.'] ++ ·) ++ rest).head?, isAroundDot c = true := by
  cases tokens with
  | nil => exact hrest
  | cons token tokens => simp [isAroundDot]

include htokens hrest

/-- The further parts of a chain are passed over up to where no dot follows. -/
theorem afterParts_wrapped (hdot : afterSpacedDot? rest = none) :
    afterParts start (tokens.flatMap (['.'] ++ ·) ++ rest) = rest := by
  induction tokens with
  | nil => exact afterParts_of_eq_none hdot
  | cons token tokens ih =>
    obtain ⟨d, part, hpart, rfl⟩ := htokens token (by simp)
    have hpassed : afterSpacedDot? ((d.wrap part :: tokens).flatMap (['.'] ++ ·) ++ rest) =
        some (d.wrap part ++ (tokens.flatMap (['.'] ++ ·) ++ rest)) := by
      have hblank : isBlank '.' = false := rfl
      have hopening : isBlank d.opening = false := by cases d <;> rfl
      rw [List.flatMap_cons, List.append_assoc, List.append_assoc, Delimiter.wrap]
      simp [afterSpacedDot?, Text.trimStart, hblank, hopening]
    rw [afterParts_of_part hpassed
      (Shape.afterInner?_wrap_append d hpart (isAroundDot_head?_further hrest) start)]
    exact ih fun token htoken => htokens token (by simp [htoken])

/-- A chain of parts in delimiters is passed over up to where no dot follows. -/
theorem after?_wrapped (hne : tokens ≠ []) (hdot : afterSpacedDot? rest = none) :
    after? start (Text.joinWith ['.'] tokens ++ rest) = some rest := by
  obtain ⟨token, tokens, rfl⟩ := List.exists_cons_of_ne_nil hne
  obtain ⟨d, part, hpart, rfl⟩ := htokens token (by simp)
  have hfurther : ∀ token ∈ tokens, IsWrapped token :=
    fun token htoken => htokens token (by simp [htoken])
  rw [Text.joinWith_cons, List.append_assoc, after?,
    Shape.afterInner?_wrap_append d hpart (isAroundDot_head?_further hrest) start, Option.map_some,
    afterParts_wrapped hfurther hrest hdot]

end Tokens

end Chain

/-! ## The operator and the value -/

/-- Letters that agree with those of a word up to their case fold to it. -/
theorem map_foldCase_of_map_toLower {m w : Text} (h : m.map Char.toLower = w.map Char.toLower)
    (hw : ∀ c ∈ w, c.isAlpha = true) : m.map foldCase = w.map Char.toLower := by
  rw [← h]
  exact List.map_congr_left fun c hc => foldCase_of_isAlpha
    (Keyword.isAlpha_of_map_toLower_eq h hw c hc)

/-- Without letters two texts that agree up to the case of their letters are the same. -/
theorem eq_of_map_toLower {m w : Text} (h : m.map Char.toLower = w.map Char.toLower)
    (hw : ∀ c ∈ w, c.isAlpha = false) : m = w := by
  induction w generalizing m with
  | nil => simpa using h
  | cons d w ih =>
    obtain ⟨c, m, rfl⟩ : ∃ c m', m = c :: m' := by
      cases m with
      | nil => simp at h
      | cons c m => exact ⟨c, m, rfl⟩
    obtain ⟨hc, hm⟩ := List.cons.inj h
    have hd : d.isAlpha = false := hw d (by simp)
    -- A letter is lowered to a letter, and any other character to itself.
    have hcd : c = d := by
      rcases isAlpha_or_toLower_eq d with halpha | hself
      · rw [hd] at halpha
        cases halpha
      · rcases isAlpha_or_toLower_eq c with halpha | hself'
        · have hlower := isAlpha_toLower halpha
          rw [hc, hself, hd] at hlower
          cases hlower
        · rw [← hself', hc, hself]
    rw [hcd, ih hm fun e he => hw e (by simp [he])]

/-- A word is not matched by letters that fold to a word which does not start with it. -/
theorem afterFolded?_eq_none_of_not_prefix {word m rest : Text}
    (hword : ∀ c ∈ word, c.isAlpha = true) (hm : ¬ word <+: m.map foldCase)
    (hrest : ∀ c ∈ rest.head?, isBlank c = true) : afterFolded? word (m ++ rest) = none := by
  rw [afterFolded?_append fun c hc => foldCase_not_mem_of_isBlank (hrest c hc) hword]
  cases hafter : afterFolded? word m with
  | none => rfl
  | some r =>
    obtain ⟨m', rfl, rfl⟩ := exists_of_afterFolded? hafter
    exact absurd (by simp) hm

theorem afterText?_append (t rest : Text) : afterText? t (t ++ rest) = some rest := by
  induction t with
  | nil => rfl
  | cons c t ih => rw [List.cons_append, afterText?, if_pos rfl, ih]

/-- A keyword is spelled by letters that fold to its first word, and blanks or nothing behind. -/
theorem Keyword.Spells.exists_first {w written : Text} {words : Keyword}
    (h : Keyword.Spells (w :: words) written) (hw : ∀ c ∈ w, c.isAlpha = true) :
    ∃ m rest : Text, written = m ++ rest ∧ m.map foldCase = w.map Char.toLower ∧
      ∀ c ∈ rest.head?, isBlank c = true := by
  cases h with
  | word hm => exact ⟨written, [], by simp, map_foldCase_of_map_toLower hm hw, by simp⟩
  | @cons _ _ m gap m' _ hm hne hgap hrest =>
    refine ⟨m, gap ++ m', rfl, map_foldCase_of_map_toLower hm hw, ?_⟩
    rw [List.head?_append_of_ne_nil _ hne]
    exact fun c hc => hgap c (List.mem_of_mem_head? hc)

namespace Condition

section Words

variable {w word m gap rest written : Text} {words k : List Text}

/-- The first of several words is passed over with the blanks behind it. -/
theorem afterWords?_cons_cons (hm : m.map foldCase = w) (hgap : gap ≠ [])
    (hblank : ∀ c ∈ gap, isBlank c = true) (hrest : ∀ c ∈ rest.head?, isBlank c = false) :
    afterWords? (w :: word :: words) (m ++ (gap ++ rest)) = afterWords? (word :: words) rest := by
  have hblanks : Text.afterBlanks? (gap ++ rest) = some rest :=
    Text.afterBlanks?_eq_some_iff.2 ⟨gap, rfl, hgap, hblank, hrest⟩
  rw [← hm, afterWords?, afterFolded?_map_append, Option.bind_some, hblanks, Option.bind_some]
  simp

variable (hrest : ∀ c ∈ rest.head?, isBlank c = true)

include hrest

/-- The words of an operator are passed over where they are spelled, up to a blank. -/
theorem afterWords?_of_spells (h : Keyword.Spells k written) (hk : Keyword.IsLetters k) :
    afterWords? (k.map (·.map Char.toLower)) (written ++ rest) = some rest := by
  induction h with
  | @word w m hm =>
    have hends : endsTextWord rest = true := by
      cases rest with
      | nil => rfl
      | cons c rest => simp [endsTextWord, isTextWordChar_of_isBlank (hrest c rfl)]
    rw [List.map_singleton, afterWords?, ← map_foldCase_of_map_toLower hm (hk.2 w (by simp)).2,
      afterFoldedWord?, afterFolded?_map_append, Option.filter_some, if_pos hends]
  | @cons w w' m gap m' words hm hne hgap hrest' ih =>
    have hk' : Keyword.IsLetters (w' :: words) := ⟨by simp, fun v hv => hk.2 v (by simp [hv])⟩
    -- The next word starts with a letter, so all blanks in front of it are dropped.
    have hhead : ∀ c ∈ (m' ++ rest).head?, isBlank c = false := by
      obtain ⟨c, r, rfl, hc⟩ := hrest'.exists_cons hk'
      simpa using isBlank_of_isAlpha hc
    rw [List.append_assoc, List.append_assoc, List.map_cons, List.map_cons, afterWords?_cons_cons
      (map_foldCase_of_map_toLower hm (hk.2 w (by simp)).2) hne hgap hhead]
    exact ih hk'

/-- Words are not matched where the first word that is spelled does not start with theirs. -/
theorem afterWords?_eq_none (h : Keyword.Spells (w :: k) written)
    (hw : ∀ c ∈ w, c.isAlpha = true) (hword : ∀ c ∈ word, c.isAlpha = true)
    (hne : ¬ word <+: w.map Char.toLower) :
    afterWords? (word :: words) (written ++ rest) = none := by
  obtain ⟨m, rest', rfl, hm, hrest'⟩ := h.exists_first hw
  have hblank : ∀ c ∈ (rest' ++ rest).head?, isBlank c = true := by
    cases rest' with
    | nil => exact hrest
    | cons d rest' => exact hrest'
  have hnone : afterFolded? word (m ++ (rest' ++ rest)) = none :=
    afterFolded?_eq_none_of_not_prefix hword (by rwa [hm]) hblank
  rw [List.append_assoc]
  cases words with
  | nil => rw [afterWords?, afterFoldedWord?, hnone, Option.filter_none]
  | cons word' words =>
    rw [afterWords?, hnone, Option.bind_none]
    simp

omit hrest in
/-- Several operators are not matched, if none of them starts with a start of the first word. -/
theorem forall_afterWords?_eq_none {operators : List (List Text)}
    (hrest : ∀ c ∈ rest.head?, isBlank c = true) (h : Keyword.Spells (w :: k) written)
    (hw : ∀ c ∈ w, c.isAlpha = true)
    (hoperators : ∀ ws ∈ operators, ws ≠ [] ∧ ∀ word ∈ ws.head?,
      (∀ c ∈ word, c.isAlpha = true) ∧ ¬ word <+: w.map Char.toLower) :
    ∀ ws ∈ operators, afterWords? ws (written ++ rest) = none := by
  intro ws hws
  obtain ⟨hne, hfirst⟩ := hoperators ws hws
  obtain ⟨word, words, rfl⟩ := List.exists_cons_of_ne_nil hne
  exact afterWords?_eq_none hrest h hw (hfirst word rfl).1 (hfirst word rfl).2

end Words

/-! ### Told apart -/

section Value

variable {written v : Text}

/-- The operator that is tried first of those that match is told apart from the value. -/
theorem findSome?_withValue? (hne : v ≠ []) (htrim : v.trim = v) {α : Type} {a : α}
    {operators later : List α} (earlier : List α) {after? : α → Text → Option Text}
    (hoperators : operators = earlier ++ a :: later)
    (hafter : after? a (written ++ ' ' :: v) = some (' ' :: v))
    (hearlier : ∀ b ∈ earlier, after? b (written ++ ' ' :: v) = none) :
    (operators.findSome? fun b => withValue? (after? b) (written ++ ' ' :: v)) =
      some (written, v) := by
  refine List.findSome?_eq_some_iff.2 ⟨earlier, a, later, hoperators, ?_, fun b hb => ?_⟩
  · have hblank : Text.isBlankOnly (' ' :: v) = false := by
      obtain ⟨c, v, rfl⟩ := List.exists_cons_of_ne_nil hne
      have hc := Text.trimStart_eq_self_iff.1 (Text.trim_eq_self_iff.1 htrim).1 c rfl
      simp [Text.isBlankOnly, hc]
    have hvalue : Text.trim (' ' :: v) = v := by
      rw [← List.singleton_append, Text.trim_blank_append (by decide), htrim]
    rw [withValue?, hafter, Option.bind_some, if_neg (by simp [hblank]), Text.before_append, hvalue]
  · rw [withValue?, hearlier b hb, Option.bind_none]

/-- A symbol is told apart from the value. -/
theorem findSome?_symbols (hne : v ≠ []) (htrim : v.trim = v) {symbol : Text}
    (hsymbol : symbol ∈ symbols) :
    (symbols.findSome? fun s => withValue? (afterText? s) (symbol ++ ' ' :: v)) =
      some (symbol, v) := by
  obtain ⟨earlier, later, hsymbols, hearlier⟩ : ∃ earlier later,
      symbols = earlier ++ symbol :: later ∧
        ∀ s ∈ earlier, afterText? s (symbol ++ ' ' :: v) = none := by
    -- The longer symbols come first, so none of those in front of this one starts it.
    simp only [symbols, List.mem_cons, List.not_mem_nil, or_false] at hsymbol
    rcases hsymbol with rfl | rfl | rfl | rfl | rfl | rfl | rfl
    · exact ⟨[], _, rfl, by simp⟩
    · exact ⟨symbols.take 1, _, rfl, by simp [symbols, afterText?]⟩
    · exact ⟨symbols.take 2, _, rfl, by simp [symbols, afterText?]⟩
    · exact ⟨symbols.take 3, _, rfl, by simp [symbols, afterText?]⟩
    · exact ⟨symbols.take 4, _, rfl, by simp [symbols, afterText?]⟩
    · exact ⟨symbols.take 5, _, rfl, by simp [symbols, afterText?]⟩
    · exact ⟨symbols.take 6, _, rfl, by simp [symbols, afterText?]⟩
  exact findSome?_withValue? hne htrim earlier hsymbols (afterText?_append _ _) hearlier

theorem symbols_spec : ∀ s ∈ symbols,
    s ≠ [] ∧ ∀ c ∈ s, c.isAlpha = false ∧ isBlank c = false ∧ c ≠ '.' := by
  decide

/-- No symbol stands where a letter does. -/
theorem findSome?_symbols_eq_none {c : Char} (hc : c.isAlpha = true) (t : Text) :
    (symbols.findSome? fun s => withValue? (afterText? s) (c :: t)) = none := by
  refine List.findSome?_eq_none_iff.2 fun s hs => ?_
  obtain ⟨hne, hletters⟩ := symbols_spec s hs
  obtain ⟨d, s, rfl⟩ := List.exists_cons_of_ne_nil hne
  have hcd : c ≠ d := by
    rintro rfl
    rw [(hletters c (by simp)).1] at hc
    cases hc
  rw [withValue?, afterText?, if_neg hcd, Option.bind_none]

/-- A word operator is told apart from the value, if the word NOT behind IS is no part of it. -/
theorem findSome?_wordOperators (hne : v ≠ []) (htrim : v.trim = v) {op : Operator}
    (hop : Keyword.IsLetters op.words) (h : Keyword.Spells op.words written)
    (hnot : op = .is → afterFoldedWord? "not".toList v = none) :
    (wordOperators.findSome? fun ws => withValue? (afterWords? ws) (written ++ ' ' :: v)) =
      some (written, v) := by
  have hspace : ∀ c ∈ (' ' :: v).head?, isBlank c = true := by simp [isBlank]
  have hvalue := Text.trimStart_eq_self_iff.1 (Text.trim_eq_self_iff.1 htrim).1
  have hafter := afterWords?_of_spells hspace h hop
  -- The word at the head rules out all operators that are tried earlier, but for one with the same
  -- first word: `IS NOT` in front of `IS`, and `NOT IN` in front of `NOT LIKE`.
  cases op with
  | isNot => exact findSome?_withValue? hne htrim [] rfl hafter (by simp)
  | notIn =>
    exact findSome?_withValue? hne htrim (wordOperators.take 1) rfl hafter
      (forall_afterWords?_eq_none hspace h (by decide) (by decide))
  | notLike =>
    refine findSome?_withValue? hne htrim (wordOperators.take 2) rfl hafter ?_
    refine List.forall_mem_cons.2 ⟨?_, List.forall_mem_singleton.2 ?_⟩
    · exact afterWords?_eq_none hspace h (by decide) (by decide) (by decide)
    · cases h with
      | cons hm hgap hblank hlike =>
        obtain ⟨c, r, rfl, hc⟩ := hlike.exists_cons ⟨by decide, by decide⟩
        have hfold := map_foldCase_of_map_toLower hm (by decide)
        rw [List.append_assoc, List.append_assoc, afterWords?_cons_cons (w := "not".toList) hfold
          hgap hblank (by simpa using isBlank_of_isAlpha hc)]
        exact afterWords?_eq_none hspace hlike (by decide) (by decide) (by decide)
  | is =>
    refine findSome?_withValue? hne htrim (wordOperators.take 3) rfl hafter ?_
    refine List.forall_mem_cons.2
      ⟨?_, forall_afterWords?_eq_none hspace h (by decide) (by decide)⟩
    cases h with
    | word hm =>
      have hfold := map_foldCase_of_map_toLower hm (by decide)
      have hstep : afterWords? ["is".toList, "not".toList] (written ++ ([' '] ++ v)) =
          afterWords? ["not".toList] v :=
        afterWords?_cons_cons hfold (by simp) (by decide) hvalue
      exact hstep.trans (hnot rfl)
  | isIn =>
    exact findSome?_withValue? hne htrim (wordOperators.take 4) rfl hafter
      (forall_afterWords?_eq_none hspace h (by decide) (by decide))
  | like =>
    exact findSome?_withValue? hne htrim (wordOperators.take 5) rfl hafter
      (forall_afterWords?_eq_none hspace h (by decide) (by decide))
  | _ => exact absurd (hop.2 _ (List.mem_singleton_self _)).2 (by decide)

/-- An operator is written as one of the symbols, or it is made of words. -/
theorem mem_symbols_or_isLetters {op : Operator} (h : Keyword.Spells op.words written) :
    written ∈ symbols ∨ Keyword.IsLetters op.words := by
  have hwords : (∃ s ∈ symbols, op.words = [s]) ∨ Keyword.IsLetters op.words := by
    cases op
    case like | isIn | is | isNot | notIn | notLike => exact .inr ⟨by decide, by decide⟩
    all_goals exact .inl ⟨_, by decide, rfl⟩
  rcases hwords with ⟨s, hs, hop⟩ | hletters
  · rw [hop] at h
    cases h with
    | word hm =>
      left
      rwa [eq_of_map_toLower hm fun c hc => ((symbols_spec s hs).2 c hc).1]
  · exact .inr hletters

/-- An operator starts with neither a blank nor a dot. -/
theorem exists_cons_of_spells {op : Operator} (h : Keyword.Spells op.words written) :
    ∃ c r, written = c :: r ∧ isBlank c = false ∧ c ≠ '.' := by
  rcases mem_symbols_or_isLetters h with hsymbol | hletters
  · obtain ⟨hne, hspec⟩ := symbols_spec written hsymbol
    obtain ⟨c, r, rfl⟩ := List.exists_cons_of_ne_nil hne
    exact ⟨c, r, rfl, (hspec c (by simp)).2⟩
  · obtain ⟨c, r, rfl, hc⟩ := h.exists_cons hletters
    refine ⟨c, r, rfl, isBlank_of_isAlpha hc, ?_⟩
    rintro rfl
    cases hc

/-- The operator and the value are told apart, if the word NOT behind IS is no part of the
operator. -/
theorem operatorAndValue?_of_spells (hne : v ≠ []) (htrim : v.trim = v) {op : Operator}
    (h : Keyword.Spells op.words written)
    (hnot : op = .is → afterFoldedWord? "not".toList v = none) :
    operatorAndValue? (' ' :: (written ++ ' ' :: v)) = some (written, v) := by
  obtain ⟨c, r, hcons, hc, -⟩ := exists_cons_of_spells h
  have hstart : Text.trimStart (' ' :: (written ++ ' ' :: v)) = written ++ ' ' :: v := by
    have hspace : isBlank ' ' = true := rfl
    rw [hcons]
    simp [Text.trimStart, hspace, hc]
  rw [operatorAndValue?, hstart]
  -- The symbols are tried before the words, and no symbol starts with a letter.
  rcases mem_symbols_or_isLetters h with hsymbol | hletters
  · rw [findSome?_symbols hne htrim hsymbol, Option.orElse_some]
  · have hnone : (symbols.findSome? fun s => withValue? (afterText? s) (written ++ ' ' :: v)) =
        none := by
      obtain ⟨d, m, rfl, hd⟩ := h.exists_cons hletters
      exact findSome?_symbols_eq_none hd _
    have hblanks : Text.afterBlanks? (' ' :: (written ++ ' ' :: v)) = some (written ++ ' ' :: v) :=
      Text.afterBlanks?_eq_some_iff.2 ⟨[' '], rfl, by simp, by decide, by simpa [hcons] using hc⟩
    rw [hnone, Option.orElse_none, hblanks, Option.bind_some,
      findSome?_wordOperators hne htrim hletters h hnot]

end Value

/-- The word NOT is matched only where its letters stand, since no other character folds to one of
them. -/
theorem afterFoldedWord?_not {v : Text} (h : Keyword.afterWord? "NOT".toList v = none) :
    afterFoldedWord? "not".toList v = none := by
  rw [afterFoldedWord?, Option.filter_eq_none_iff]
  intro rest hrest
  obtain ⟨m, rfl, hm⟩ := exists_of_afterFolded? hrest
  have hlower : m.map Char.toLower = "NOT".toList.map Char.toLower := by
    -- Only two signs outside ASCII fold to a letter, to an s and to a k, and NOT has neither.
    have hfold : ∀ c ∈ m, foldCase c = c.toLower := by
      intro c hc
      have hmem : foldCase c ∈ "not".toList := by
        rw [← hm]
        exact List.mem_map_of_mem hc
      rw [foldCase] at hmem ⊢
      split at hmem
      · exact absurd hmem (by decide)
      · split at hmem
        · exact absurd hmem (by decide)
        · next hs hk => rw [if_neg hs, if_neg hk]
    rw [← List.map_congr_left hfold]
    exact hm
  rw [Keyword.afterWord?_append_of_map_toLower hlower] at h
  cases h

/-- A column in delimiters, an operator with its words in any case and any blanks between them, and
a value are read back, whatever the parts of the column and the value hold. Only behind IS the value
must not start with NOT, which would be taken for a part of the operator. The column is reported
without an alias. -/
theorem parse?_written (name : QualifiedName) (hparts : ∀ p ∈ name.parts, p ≠ [])
    (delimiters : List Delimiter) (hdelimiters : delimiters.length = name.parts.length)
    {op : Operator} {written : Text} (hwritten : Keyword.Spells op.words written)
    (v : Text) (hne : v ≠ []) (htrim : v.trim = v)
    (hnot : op = .is → Keyword.afterWord? "NOT".toList v = none) :
    let t := name.render delimiters ++ ' ' :: (written ++ ' ' :: v)
    parse? t = some ⟨Text.joinWith ['.'] name.parts, op, v⟩ ∧
      (parse? t).map JsonValue.ofCondition = some (.object
        [("column".toList, .named (Text.joinWith ['.'] name.parts) none),
          ("operator".toList, .string op.text), ("value".toList, .string v)]) := by
  intro t
  have hchain : Chain.after? isFoldedBareStart t = some (' ' :: (written ++ ' ' :: v)) := by
    obtain ⟨c, r, rfl, hc, hdot⟩ := exists_cons_of_spells hwritten
    have hspace : isBlank ' ' = true := rfl
    refine Chain.after?_wrapped (Chain.isWrapped_of_mem_zipWith hparts)
      (by simp [isAroundDot, isDotPadding]) ?_ ?_
    · rw [ne_eq, List.zipWith_eq_nil_iff, ← List.length_eq_zero_iff, hdelimiters,
        List.length_eq_zero_iff, or_self]
      exact List.ne_nil_of_length_pos name.isPartList.1
    · simp [afterSpacedDot?, Text.trimStart, hspace, hc, hdot]
  have hcolumn : QualifiedName.parse? (name.render delimiters) = some name :=
    name.parse?_joinWith (QualifiedName.forall₂_isToken_zipWith hdelimiters)
  have hsplit := operatorAndValue?_of_spells hne htrim hwritten fun hop =>
    afterFoldedWord?_not (hnot hop)
  have hread : parse? t = some ⟨Text.joinWith ['.'] name.parts, op, v⟩ := by
    have hoperator := Operator.ofText?_of_spells hwritten
    simp [parse?, hchain, hsplit, t, Text.before_append, hcolumn, hoperator]
  exact ⟨hread, by rw [hread]; rfl⟩

/-- Marks, an operator and a dot in the parts, an operator of two words, and a value that looks like
another condition. -/
theorem parse?_written_marks :
    parse? "[a]] IS b].\"c\"\" = .d\" iS\t nOt [x] >= NOT NULL".toList =
        some ⟨"a] IS b.c\" = .d".toList, .isNot, "[x] >= NOT NULL".toList⟩ ∧
      parse? "[x] is NULL".toList = some ⟨['x'], .is, "NULL".toList⟩ := by
  let name : QualifiedName := ⟨["a] IS b".toList, "c\" = .d".toList], by decide⟩
  have hwritten : Keyword.Spells Operator.isNot.words
      ("iS".toList ++ ("\t ".toList ++ "nOt".toList)) :=
    .cons (by decide) (by decide) (by decide) (.word (by decide))
  have htwo := parse?_written name (by decide) [.bracket, .quote] rfl hwritten
    "[x] >= NOT NULL".toList (by decide) (by decide) (by decide)
  have hword : Keyword.Spells Operator.is.words "is".toList := .word (by decide)
  have hone := parse?_written ⟨[['x']], by decide⟩ (by decide) [.bracket] rfl hword
    "NULL".toList (by decide) (by decide) (by decide)
  exact ⟨htwo.1, hone.1⟩

end Condition

end LooseSql
