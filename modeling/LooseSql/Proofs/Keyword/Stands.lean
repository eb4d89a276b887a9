import LooseSql.Proofs.Keyword.Spans

/-!
# Where a keyword stands

A keyword stands at a place of a text if its words are spelled there, in any case of their letters
and with blanks between them, as whole words and outside parentheses and quotes. `Keyword.StandsAt`
says this without a search, and the searches are told by it:

* `Keyword.afterWords?_eq_some_iff`: the words that are matched are those that are spelled;
* `exists_standsAt_iff`: the keywords of a text stand where `keywordSpans` starts a span;
* `isFirst_of_findAnyKeyword`, `findAnyKeyword_eq_none_iff`: a search finds the first of several
  keywords, or else none of them stands from its start on.
-/

namespace LooseSql

/-- A run of blanks is read in front of a text that does not start with one. -/
theorem Text.afterBlanks?_eq_some_iff {t rest : Text} : afterBlanks? t = some rest ↔
    ∃ ws : Text, t = ws ++ rest ∧ ws ≠ [] ∧ (∀ c ∈ ws, isBlank c) ∧
      ∀ c ∈ rest.head?, isBlank c = false := by
  rw [afterBlanks?_eq]
  constructor
  · intro h
    split at h
    · next hfirst =>
      obtain rfl := Option.some.inj h
      obtain ⟨ws, hws, hsplit⟩ := exists_blank_append_trimStart t
      have hhead := isBlank_head?_trimStart t
      refine ⟨ws, hsplit.symm, ?_, hws, hhead⟩
      rintro rfl
      -- Without a blank in front the text would start with none.
      rw [List.nil_append] at hsplit
      rw [hsplit] at hhead
      obtain ⟨c, hc, hblank⟩ := (Option.any_eq_true ..).1 hfirst
      exact absurd hblank (by simp [hhead c hc])
    · cases h
  · rintro ⟨ws, rfl, hne, hws, hhead⟩
    obtain ⟨c, ws, rfl⟩ := List.exists_cons_of_ne_nil hne
    rw [trimStart_append_of_blank hws, trimStart_eq_self_iff.2 hhead, if_pos]
    simpa using hws c (by simp)

namespace Keyword

/-! ## The words of a keyword -/

/-- The text is made of the words of the keyword in any case of their letters, with blanks between
each two of them. -/
inductive Spells : Keyword → Text → Prop where
  /-- The only word. -/
  | word {w m : Text} (h : m.map Char.toLower = w.map Char.toLower) : Spells [w] m
  /-- The first of several words. -/
  | cons {w w' m gap m' : Text} {words : Keyword} (h : m.map Char.toLower = w.map Char.toLower)
    (hne : gap ≠ []) (hgap : ∀ c ∈ gap, isBlank c) (hrest : Spells (w' :: words) m') :
    Spells (w :: w' :: words) (m ++ (gap ++ m'))

/-- A word is matched in any case of its letters. -/
theorem afterWord?_append_of_map_toLower {word m : Text}
    (h : m.map Char.toLower = word.map Char.toLower) (rest : Text) :
    afterWord? word (m ++ rest) = some rest := by
  induction word generalizing m with
  | nil =>
    obtain rfl : m = [] := by simpa using h
    rfl
  | cons w word ih =>
    obtain ⟨c, m, rfl⟩ : ∃ c m', m = c :: m' := by
      cases m with
      | nil => simp at h
      | cons c m => exact ⟨c, m, rfl⟩
    rw [List.map_cons, List.map_cons, List.cons.injEq] at h
    rw [List.cons_append, afterWord?, if_pos h.1, ih h.2]

/-- The words of the keyword are made of letters. -/
def IsLetters (k : Keyword) : Prop := k ≠ [] ∧ ∀ w ∈ k, w ≠ [] ∧ ∀ c ∈ w, c.isAlpha = true

theorem IsPlain.isLetters {k : Keyword} (h : k.IsPlain) : k.IsLetters := ⟨h.1, h.2.1⟩

/-- A keyword starts with a letter. -/
theorem Spells.exists_cons {k : Keyword} {m : Text} (h : k.Spells m) (hk : k.IsLetters) :
    ∃ c m', m = c :: m' ∧ c.isAlpha = true := by
  have hfirst : ∀ {w m : Text}, m.map Char.toLower = w.map Char.toLower → w ≠ [] →
      (∀ c ∈ w, c.isAlpha = true) → ∃ c m', m = c :: m' ∧ c.isAlpha = true := by
    intro w m hm hne hw
    cases m with
    | nil => exact absurd (by simpa using hm.symm) hne
    | cons c m => exact ⟨c, m, rfl, isAlpha_of_map_toLower_eq hm hw c (by simp)⟩
  cases h with
  | @word w _ h =>
    obtain ⟨hne, hw⟩ := hk.2 w (by simp)
    exact hfirst h hne hw
  | @cons w _ _ _ _ _ h _ _ _ =>
    obtain ⟨hne, hw⟩ := hk.2 w (by simp)
    obtain ⟨c, m, rfl, hc⟩ := hfirst h hne hw
    exact ⟨c, _, rfl, hc⟩

/-- The words that are matched at the head of a text are spelled there. -/
theorem exists_spells_of_afterWords? {k : Keyword} (hk : k ≠ []) {t rest : Text}
    (h : k.afterWords? t = some rest) : ∃ m : Text, t = m ++ rest ∧ k.Spells m := by
  induction k generalizing t with
  | nil => exact absurd rfl hk
  | cons w words ih =>
    cases words with
    | nil =>
      obtain ⟨m, ht, hm⟩ := exists_of_afterWord? h
      exact ⟨m, ht, .word hm⟩
    | cons w' words =>
      rw [afterWords?_cons_cons] at h
      obtain ⟨r, hr, h'⟩ := Option.bind_eq_some_iff.1 h
      obtain ⟨r', hr', hrest⟩ := Option.bind_eq_some_iff.1 h'
      obtain ⟨m, rfl, hm⟩ := exists_of_afterWord? hr
      -- The words of a keyword stand apart by one blank or more.
      obtain ⟨gap, rfl, hne, hgap, -⟩ := Text.afterBlanks?_eq_some_iff.1 hr'
      obtain ⟨m', rfl, hm'⟩ := ih (by simp) hrest
      exact ⟨m ++ (gap ++ m'), by simp, .cons hm hne hgap hm'⟩

/-- The words of a keyword are matched where they are spelled. -/
theorem Spells.afterWords?_append {k : Keyword} (hk : k.IsLetters) {m : Text} (h : k.Spells m)
    (rest : Text) : k.afterWords? (m ++ rest) = some rest := by
  induction h with
  | word h => exact afterWord?_append_of_map_toLower h rest
  | @cons _ w' m gap m' words h hne hgap hrest ih =>
    have hk' : IsLetters (w' :: words) := ⟨by simp, fun w hw => hk.2 w (by simp [hw])⟩
    obtain ⟨c, m'', rfl, hc⟩ := hrest.exists_cons hk'
    -- The next word starts with a letter, so all blanks in front of it are dropped.
    have hblanks : Text.afterBlanks? (gap ++ (c :: m'' ++ rest)) = some (c :: m'' ++ rest) :=
      Text.afterBlanks?_eq_some_iff.2 ⟨gap, rfl, hne, hgap, by
        rintro _ ⟨⟩
        exact isBlank_of_isAlpha hc⟩
    rw [afterWords?_cons_cons, List.append_assoc, List.append_assoc,
      afterWord?_append_of_map_toLower h, Option.bind_some, hblanks, Option.bind_some]
    exact ih hk'

/-- The words that are matched at the head of a text are those that are spelled there. -/
theorem afterWords?_eq_some_iff {k : Keyword} (hk : k.IsLetters) {t rest : Text} :
    k.afterWords? t = some rest ↔ ∃ m : Text, t = m ++ rest ∧ k.Spells m := by
  constructor
  · exact exists_spells_of_afterWords? hk.1
  · rintro ⟨m, rfl, hm⟩
    exact hm.afterWords?_append hk rest

/-! ## Places -/

/-- The keyword is spelled as `m` between `u` and `v`: outside parentheses and quotes, and no word
goes on from it on either side. -/
structure StandsBetween (k : Keyword) (u m v : Text) : Prop where
  /-- The text in front ends at the top level. -/
  closed : u.IsClosed
  /-- The words are spelled. -/
  spells : k.Spells m
  /-- No word goes on into the keyword. -/
  before : ∀ c ∈ u.getLast?, isWordChar c = false
  /-- No word goes on behind the keyword. -/
  behind : ∀ c ∈ v.head?, isWordChar c = false

/-- The keyword stands at the place `i` of the text. -/
def StandsAt (k : Keyword) (t : Text) (i : Nat) : Prop :=
  ∃ u m v : Text, t = u ++ (m ++ v) ∧ u.length = i ∧ k.StandsBetween u m v

/-- A keyword that is recognised behind a closed text stands there. -/
theorem exists_standsBetween_of_after? {k : Keyword} (hk : k ≠ []) {u t rest : Text}
    (hu : u.IsClosed) (h : k.after? u.getLast? t = some rest) :
    ∃ m : Text, t = m ++ rest ∧ k.StandsBetween u m rest := by
  obtain ⟨hbefore, hwords, hbehind⟩ := after?_eq_some_iff.1 h
  obtain ⟨m, ht, hm⟩ := exists_spells_of_afterWords? hk hwords
  exact ⟨m, ht, hu, hm, (Option.any_eq_false ..).1 hbefore, (Option.any_eq_false ..).1 hbehind⟩

theorem standsBetween_iff {k : Keyword} (hk : k.IsLetters) {u m v : Text} :
    k.StandsBetween u m v ↔ u.IsClosed ∧ k.after? u.getLast? (m ++ v) = some v := by
  constructor
  · intro h
    exact ⟨h.closed, after?_eq_some_iff.2 ⟨(Option.any_eq_false ..).2 h.before,
      h.spells.afterWords?_append hk v, (Option.any_eq_false ..).2 h.behind⟩⟩
  · rintro ⟨hclosed, hafter⟩
    obtain ⟨m', hm, hstands⟩ := exists_standsBetween_of_after? hk.1 hclosed hafter
    rwa [List.append_cancel_right hm]

end Keyword

/-- The keywords of a text stand at the starts of their spans. -/
theorem exists_standsAt_iff {ks : List Keyword} (hks : ArePlain ks) {t : Text} {i : Nat} :
    (∃ k ∈ ks, k.StandsAt t i) ↔ ∃ r ∈ keywordSpans ks .top 0 none t, r.start = i := by
  constructor
  · rintro ⟨k, hk, u, m, v, rfl, rfl, hstands⟩
    have hletters := (hks k hk).isLetters
    obtain ⟨hclosed, hafter⟩ := (Keyword.standsBetween_iff hletters).1 hstands
    obtain ⟨n, others, hspans⟩ := keywordSpans_of_after? hks hk hafter u.length
    rw [keywordSpans_append hks (seam_of_after? (hks k hk) hafter), hclosed.scan_eq,
      Option.or_none, Nat.zero_add, hspans]
    exact ⟨⟨u.length, n⟩, by simp, rfl⟩
  · rintro ⟨r, hr, rfl⟩
    obtain ⟨u, m, v, rfl, rfl, hscan, ⟨k, hk, hafter⟩, -⟩ := exists_of_mem_keywordSpans hks hr
    rw [Option.or_none] at hafter
    exact ⟨k, hk, u, m, v, rfl, (Nat.zero_add _).symm,
      (Keyword.standsBetween_iff (hks k hk).isLetters).2 ⟨hscan, hafter⟩⟩

/-! ## Searches -/

/-- None of the keywords starts in the span. -/
def IsFree (ks : List Keyword) (t : Text) (s : Span) : Prop :=
  ∀ k ∈ ks, ∀ i, s.start ≤ i → i < s.stop → ¬ k.StandsAt t i

/-- The place `i` is the first one from `start` on at which one of the keywords stands. -/
structure IsFirst (ks : List Keyword) (t : Text) (start i : Nat) : Prop where
  /-- The place is not in front of the start. -/
  le : start ≤ i
  /-- One of the keywords stands there. -/
  stands : ∃ k ∈ ks, k.StandsAt t i
  /-- None of them stands earlier. -/
  isFree : IsFree ks t ⟨start, i⟩

/-- The keywords of a text come in its order. -/
theorem pairwise_keywordSpans (ks : List Keyword) (s : ScanState) (i : Nat) (before : Option Char)
    (t : Text) : (keywordSpans ks s i before t).Pairwise fun r r' => r.start < r'.start := by
  refine (pairwise_topLevelFrom s i before t).filterMap _ ?_
  have hstart : ∀ (p : Place) (r : Span), (if p.char.isAlpha then ks.findSome? fun k => k.at? p
      else none) = some r → r.start = p.index := by
    intro p r hr
    split at hr
    · obtain ⟨k, -, hat⟩ := List.exists_of_findSome?_eq_some hr
      exact start_at? hat
    · cases hr
  intro p q hpq r hr r' hr'
  rw [hstart p r hr, hstart q r' hr']
  exact hpq

/-- A search finds the first of the keywords. -/
theorem isFirst_of_findAnyKeyword {ks : List Keyword} (hks : ArePlain ks) {t : Text} {start : Nat}
    {r : Span} (h : findAnyKeyword t start ks = some r) : IsFirst ks t start r.start := by
  rw [findAnyKeyword_eq, List.find?_eq_some_iff_append] at h
  obtain ⟨hstart, earlier, later, hspans, hearlier⟩ := h
  have hpairwise := pairwise_keywordSpans ks .top 0 none t
  rw [hspans, List.pairwise_append, List.pairwise_cons] at hpairwise
  refine ⟨by simpa using hstart, ?_, ?_⟩
  · refine (exists_standsAt_iff hks).2 ⟨r, ?_, rfl⟩
    rw [hspans]
    simp
  · intro k hk i hle hlt hstands
    obtain ⟨r', hr', rfl⟩ := (exists_standsAt_iff hks).1 ⟨k, hk, hstands⟩
    rw [hspans, List.mem_append, List.mem_cons] at hr'
    -- What stands in front of the span that is found does not stand behind the start.
    rcases hr' with hr' | rfl | hr'
    · exact absurd hle (by simpa using hearlier r' hr')
    · exact absurd hlt (Nat.lt_irrefl _)
    · exact absurd hlt (Nat.not_lt_of_lt (hpairwise.2.1.1 r' hr'))

/-- A search that finds nothing has seen that none of the keywords stands from its start on. -/
theorem findAnyKeyword_eq_none_iff {ks : List Keyword} (hks : ArePlain ks) {t : Text}
    {start : Nat} : findAnyKeyword t start ks = none ↔
      ∀ k ∈ ks, ∀ i, start ≤ i → ¬ k.StandsAt t i := by
  rw [findAnyKeyword_eq, List.find?_eq_none]
  constructor
  · intro h k hk i hle hstands
    obtain ⟨r, hr, rfl⟩ := (exists_standsAt_iff hks).1 ⟨k, hk, hstands⟩
    exact absurd hle (by simpa using h r hr)
  · intro h r hr hle
    obtain ⟨k, hk, hstands⟩ := (exists_standsAt_iff hks).2 ⟨r, hr, rfl⟩
    exact h k hk r.start (by simpa using hle) hstands

end LooseSql
