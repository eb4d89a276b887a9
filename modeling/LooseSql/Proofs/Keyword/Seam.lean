import LooseSql.Keyword
import LooseSql.Proofs.Text.CharClass
import LooseSql.Proofs.Text.Trim

/-!
# Keywords and seams

Where a text is put together of two parts, a keyword could be recognised across the seam that is in
neither of them. `Seam u w` rules this out: no word goes on from `u` into `w`, and the first word of
`w` is not BY, the only word that continues a keyword (`Keyword.IsPlain`), unless `u` ends in
another letter than the words in front of a BY do.

* `Keyword.after?_append`: a keyword that starts in `u` is recognised in `u ++ w` exactly when it
  is recognised in `u`;
* `Keyword.exists_of_after?`: what a recognised keyword is made of;
* `seam_of_after?`: a text that starts with a keyword makes a seam with what stands before it.
-/

namespace LooseSql

namespace Keyword

/-- The last letters of ORDER and GROUP, the words in front of a BY. -/
def byLetters : Text := ['r', 'p']

/-- A keyword of SQL that the library looks for: its words are made of letters, the first one does
not start with a B, and only BY stands behind it, where it ends like ORDER or GROUP. -/
def IsPlain (k : Keyword) : Prop :=
  k ≠ [] ∧ (∀ w ∈ k, w ≠ [] ∧ ∀ c ∈ w, c.isAlpha = true) ∧ (k.tail = [] ∨ k.tail = [['B', 'Y']]) ∧
    ∀ w ∈ k.head?, (∀ c ∈ w.head?, c.toLower ≠ 'b') ∧
      (k.tail ≠ [] → ∀ c ∈ w.getLast?, c.toLower ∈ byLetters)

instance (k : Keyword) : Decidable k.IsPlain :=
  inferInstanceAs (Decidable (_ ∧ _ ∧ _ ∧ _))

/-! ## Words -/

/-- A word is recognised by its letters. -/
theorem exists_of_afterWord? {word t rest : Text} (h : afterWord? word t = some rest) :
    ∃ m : Text, t = m ++ rest ∧ m.map Char.toLower = word.map Char.toLower := by
  induction word generalizing t with
  | nil =>
    rw [afterWord?, Option.some.injEq] at h
    exact ⟨[], h, rfl⟩
  | cons w word ih =>
    cases t with
    | nil => simp [afterWord?] at h
    | cons c t =>
      rw [afterWord?] at h
      by_cases hc : c.toLower = w.toLower
      · rw [if_pos hc] at h
        obtain ⟨m, ht, hm⟩ := ih h
        exact ⟨c :: m, by rw [ht, List.cons_append], by rw [List.map_cons, List.map_cons, hc, hm]⟩
      · simp [hc] at h

/-- A word is recognised at the head of a text. -/
theorem afterWord?_append_self (word rest : Text) : afterWord? word (word ++ rest) = some rest := by
  induction word with
  | nil => rfl
  | cons w word ih => rw [List.cons_append, afterWord?, if_pos rfl, ih]

/-- The letters of a word that is recognised are letters. -/
theorem isAlpha_of_map_toLower_eq {m word : Text}
    (h : m.map Char.toLower = word.map Char.toLower) (hword : ∀ c ∈ word, c.isAlpha = true) :
    ∀ c ∈ m, c.isAlpha = true := by
  intro c hc
  have hmem : c.toLower ∈ word.map Char.toLower := by
    rw [← h]
    exact List.mem_map_of_mem hc
  obtain ⟨w, hw, heq⟩ := List.mem_map.1 hmem
  exact isAlpha_of_toLower_eq heq.symm (hword w hw)

end Keyword

/-- No keyword is recognised across the seam of the text `u ++ w`: no word goes on from `u` into
`w`, and `w` does not start with the word BY or else `u` ends in no letter in front of a BY, blanks
apart. -/
structure Seam (u w : Text) : Prop where
  /-- The characters at the two sides of the seam do not belong to one word. -/
  apart : ∀ c ∈ u.getLast?, ∀ d ∈ w.head?, isWordChar c = true → isWordChar d = false
  /-- The second part does not continue a keyword. -/
  not_by : Keyword.afterWord? ['B', 'Y'] w.trimStart = none ∨
    ∀ c ∈ u.trimEnd.getLast?, c.toLower ∉ Keyword.byLetters

namespace Seam

/-- A seam stays one when the first part is cut at its start. -/
theorem of_append {u v w : Text} (h : Seam (u ++ v) w) : Seam v w where
  apart := by
    intro c hc
    apply h.apart c
    rw [List.getLast?_append, Option.mem_def.1 hc]
    rfl
  not_by := by
    refine h.not_by.imp_right fun hlast c hc => hlast c ?_
    have hv : v.trimEnd ≠ [] := by
      intro hnil
      simp [hnil] at hc
    rw [Text.trimEnd_append u hv, List.getLast?_append, Option.mem_def.1 hc]
    rfl

/-- Nothing makes a seam with any text. -/
theorem nil_right (u : Text) : Seam u [] where
  apart := by simp
  not_by := Or.inl rfl

end Seam

namespace Keyword

/-- A word that starts in the first part is recognised there. -/
theorem afterWord?_append {word u w : Text} (h : Seam u w) (hu : u ≠ [])
    (hword : ∀ c ∈ word, c.isAlpha = true) :
    afterWord? word (u ++ w) = (afterWord? word u).map (· ++ w) := by
  induction word generalizing u with
  | nil => rfl
  | cons a word ih =>
    cases u with
    | nil => exact absurd rfl hu
    | cons c u =>
      rw [List.cons_append, afterWord?, afterWord?]
      by_cases hc : c.toLower = a.toLower
      · rw [if_pos hc, if_pos hc]
        have halpha : ∀ d ∈ word, d.isAlpha = true := fun d hd => hword d (by simp [hd])
        by_cases hnil : u = []
        · -- The word would go on into the second part.
          subst hnil
          cases word with
          | nil => rfl
          | cons b word =>
            cases w with
            | nil => rfl
            | cons d w =>
              have hletter : isWordChar c = true :=
                isWordChar_of_isAlpha (isAlpha_of_toLower_eq hc (hword a (by simp)))
              have hd : isWordChar d = false := h.apart c (by simp) d (by simp) hletter
              have hne : d.toLower ≠ b.toLower := by
                intro heq
                rw [isWordChar_of_isAlpha (isAlpha_of_toLower_eq heq (halpha b (by simp)))] at hd
                exact absurd hd (by simp)
              simp [afterWord?, hne]
        · exact ih (h.of_append (u := [c])) hnil halpha
      · rw [if_neg hc, if_neg hc]
        rfl

/-! ## Keywords -/

theorem afterWords?_cons_cons (word word' : Text) (words : Keyword) (t : Text) :
    afterWords? (word :: word' :: words) t = (afterWord? word t).bind fun rest =>
      (Text.afterBlanks? rest).bind (afterWords? (word' :: words)) := by
  rw [afterWords?]
  simp

/-- What a word is made of that is recognised: it starts like the word and holds letters only. -/
theorem letters_of_afterWord? {word t r : Text} (hne : word ≠ [])
    (halpha : ∀ c ∈ word, c.isAlpha = true) (h : afterWord? word t = some r) :
    ∃ m : Text, t = m ++ r ∧
      (∃ c ∈ m.head?, ∃ a ∈ word.head?, c.toLower = a.toLower ∧ c.isAlpha = true) ∧
      (∃ c ∈ m.getLast?, c.isAlpha = true) ∧ ∀ c ∈ m, c.isAlpha = true := by
  obtain ⟨m, ht, hm⟩ := exists_of_afterWord? h
  have hletters := isAlpha_of_map_toLower_eq hm halpha
  obtain ⟨a, word, rfl⟩ := List.exists_cons_of_ne_nil hne
  obtain ⟨c, m, rfl⟩ : ∃ c m', m = c :: m' := by
    cases m with
    | nil => simp at hm
    | cons c m => exact ⟨c, m, rfl⟩
  obtain ⟨d, hd⟩ : ∃ d, (c :: m).getLast? = some d := ⟨_, List.getLast?_cons⟩
  rw [List.map_cons, List.map_cons, List.cons.injEq] at hm
  exact ⟨c :: m, ht, ⟨c, rfl, a, rfl, hm.1, hletters c (by simp)⟩,
    ⟨d, hd, hletters d (List.mem_of_getLast? hd)⟩, hletters⟩

/-- What a keyword is made of that is recognised: it starts like its first word, it ends in a
letter, and it holds letters and blanks only. -/
theorem exists_of_afterWords? {k : Keyword} {t rest : Text} (hk : k ≠ [])
    (hwords : ∀ w ∈ k, w ≠ [] ∧ ∀ c ∈ w, c.isAlpha = true) (h : k.afterWords? t = some rest) :
    ∃ m : Text, t = m ++ rest ∧ (∃ c ∈ m.head?, ∃ w ∈ k.head?, ∃ a ∈ w.head?,
      c.toLower = a.toLower ∧ c.isAlpha = true) ∧ (∃ c ∈ m.getLast?, c.isAlpha = true) ∧
      ∀ c ∈ m, c.isAlpha = true ∨ isBlank c = true := by
  induction k generalizing t with
  | nil => exact absurd rfl hk
  | cons word words ih =>
    obtain ⟨hword, halpha⟩ := hwords word (by simp)
    cases words with
    | nil =>
      obtain ⟨m, ht, ⟨c, hc, a, ha, heq⟩, hlast, hletters⟩ := letters_of_afterWord? hword halpha h
      exact ⟨m, ht, ⟨c, hc, word, rfl, a, ha, heq⟩, hlast, fun c hc => Or.inl (hletters c hc)⟩
    | cons word' words =>
      obtain ⟨r, hr, h⟩ := Option.bind_eq_some_iff.1 (afterWords?_cons_cons .. ▸ h)
      obtain ⟨r', hr', h⟩ := Option.bind_eq_some_iff.1 h
      obtain ⟨m, ht, ⟨c, hc, a, ha, heq⟩, -, hletters⟩ := letters_of_afterWord? hword halpha hr
      obtain ⟨ws, hsplit, hws⟩ := Text.exists_of_afterBlanks? hr'
      obtain ⟨m', hm', -, ⟨d, hd, hdalpha⟩, hm'letters⟩ :=
        ih (by simp) (fun w hw => hwords w (by simp [hw])) h
      -- The first word, the blanks behind it and the words that follow.
      refine ⟨m ++ (ws ++ m'), ?_, ⟨c, ?_, word, rfl, a, ha, heq⟩, ⟨d, ?_, hdalpha⟩, ?_⟩
      · rw [ht, hsplit, hm', List.append_assoc, List.append_assoc]
      · rw [List.head?_append, Option.mem_def.1 hc]
        rfl
      · rw [← List.append_assoc, List.getLast?_append, Option.mem_def.1 hd]
        rfl
      · intro e he
        rcases List.mem_append.1 he with he | he
        · exact Or.inl (hletters e he)
        · rcases List.mem_append.1 he with he | he
          · exact Or.inr (hws e he)
          · exact hm'letters e he

/-- The last letter of a word that is recognised agrees with the last letter of the word. -/
theorem getLast?_of_map_toLower_eq {m word : Text}
    (h : m.map Char.toLower = word.map Char.toLower) {c : Char} (hc : c ∈ m.getLast?) :
    ∃ a ∈ word.getLast?, c.toLower = a.toLower := by
  have hlast : (word.map Char.toLower).getLast? = some c.toLower := by
    rw [← h, List.getLast?_map, Option.mem_def.1 hc, Option.map_some]
  rw [List.getLast?_map, Option.map_eq_some_iff] at hlast
  obtain ⟨a, ha, heq⟩ := hlast
  exact ⟨a, ha, heq.symm⟩

/-- No BY follows a first part that ends with the first word of ORDER BY or GROUP BY. -/
theorem afterWord?_by_eq_none {m r w word : Text} (h : Seam (m ++ r) w)
    (hm : m.map Char.toLower = word.map Char.toLower)
    (hword : word ≠ [] ∧ ∀ c ∈ word, c.isAlpha = true)
    (hlast : ∀ c ∈ word.getLast?, c.toLower ∈ byLetters) (hr : ∀ c ∈ r, isBlank c) :
    afterWord? ['B', 'Y'] w.trimStart = none := by
  refine h.not_by.resolve_right fun hnot => ?_
  have hne : m ≠ [] := by
    rintro rfl
    exact hword.1 (by simpa using hm.symm)
  obtain ⟨c, hc⟩ : ∃ c, m.getLast? = some c := ⟨_, List.getLast?_eq_some_getLast hne⟩
  have halpha := isAlpha_of_map_toLower_eq hm hword.2 c (List.mem_of_getLast? hc)
  obtain ⟨a, ha, heq⟩ := getLast?_of_map_toLower_eq hm hc
  -- The blanks are trimmed, so the last character is the last letter of the word.
  have hend : Text.trimEnd (m ++ r) = m := by
    rw [Text.trimEnd_append_of_blank m hr, Text.trimEnd_eq_self_iff, hc]
    rintro _ ⟨⟩
    exact isBlank_of_isAlpha halpha
  rw [hend] at hnot
  exact heq ▸ hnot c hc <| hlast a ha

/-- The words of a keyword that starts in the first part are recognised there. -/
theorem afterWords?_append {k : Keyword} (hk : k.IsPlain) {u w : Text} (h : Seam u w)
    (hu : u ≠ []) : k.afterWords? (u ++ w) = (k.afterWords? u).map (· ++ w) := by
  obtain ⟨hne, hwords, htail, hfirst⟩ := hk
  obtain ⟨word, words, rfl⟩ := List.exists_cons_of_ne_nil hne
  have hword := afterWord?_append h hu (hwords word (by simp)).2
  rcases htail with htail | htail
  · obtain rfl : words = [] := htail
    exact hword
  · obtain rfl : words = [['B', 'Y']] := htail
    rw [afterWords?_cons_cons, afterWords?_cons_cons, hword]
    cases hr : afterWord? word u with
    | none => rfl
    | some r =>
      obtain ⟨m, rfl, hm⟩ := exists_of_afterWord? hr
      simp only [Option.map_some, Option.bind_some, Text.afterBlanks?_eq]
      by_cases hblank : Text.trimStart r = []
      · -- The first part ends behind the first word, and BY does not follow.
        have hblanks := Text.trimStart_eq_nil_iff.1 hblank
        have hby := afterWord?_by_eq_none h hm (hwords word (by simp))
          ((hfirst word rfl).2 (by simp)) hblanks
        have hnone : afterWords? [['B', 'Y']] (Text.trimStart (r ++ w)) = none := by
          rw [Text.trimStart_append_of_blank hblanks]
          exact hby
        have hnil : afterWords? [['B', 'Y']] [] = none := rfl
        rw [hblank]
        split <;> split <;> simp [hnone, hnil]
      · have hr : r ≠ [] := by
          rintro rfl
          exact hblank rfl
        obtain ⟨ws, -, hsplit⟩ := Text.exists_blank_append_trimStart r
        have hseam : Seam (Text.trimStart r) w := by
          rw [← hsplit, ← List.append_assoc] at h
          exact h.of_append
        rw [List.head?_append_of_ne_nil _ hr, Text.trimStart_append hblank]
        split
        · exact afterWord?_append hseam hblank (hwords _ (by simp)).2
        · rfl

theorem after?_eq_some_iff {k : Keyword} {before : Option Char} {t rest : Text} :
    k.after? before t = some rest ↔ before.any isWordChar = false ∧
      k.afterWords? t = some rest ∧ startsWithWordChar rest = false := by
  rw [after?]
  cases before.any isWordChar with
  | true => simp
  | false => simp [Option.filter_eq_some_iff]

/-- The character in front counts only as one that goes on in the keyword or not. -/
theorem after?_congr {before before' : Option Char}
    (h : before.any isWordChar = before'.any isWordChar) (k : Keyword) (t : Text) :
    k.after? before t = k.after? before' t := by
  rw [after?, after?, h]

/-- What a keyword is made of that is recognised. -/
theorem exists_of_after? {k : Keyword} (hk : k.IsPlain) {before : Option Char} {t rest : Text}
    (h : k.after? before t = some rest) :
    ∃ m : Text, t = m ++ rest ∧ (∃ c ∈ m.head?, ∃ w ∈ k.head?, ∃ a ∈ w.head?,
      c.toLower = a.toLower ∧ c.isAlpha = true) ∧ (∃ c ∈ m.getLast?, c.isAlpha = true) ∧
      ∀ c ∈ m, c.isAlpha = true ∨ isBlank c = true :=
  exists_of_afterWords? hk.1 hk.2.1 (after?_eq_some_iff.1 h).2.1

/-- A keyword that starts in the first part is recognised there. -/
theorem after?_append {k : Keyword} (hk : k.IsPlain) {u w : Text} (h : Seam u w) (hu : u ≠ [])
    (before : Option Char) :
    k.after? before (u ++ w) = (k.after? before u).map (· ++ w) := by
  rw [after?, after?, afterWords?_append hk h hu]
  split
  · rfl
  · cases hr : k.afterWords? u with
    | none => rfl
    | some r =>
      -- A keyword that ends with the first part ends in a letter, so no word goes on there.
      have hnext : startsWithWordChar (r ++ w) = startsWithWordChar r := by
        obtain ⟨m, rfl, -, ⟨c, hc, halpha⟩, -⟩ := exists_of_afterWords? hk.1 hk.2.1 hr
        cases r with
        | cons d r => rfl
        | nil =>
          rw [List.append_nil] at h
          cases w with
          | nil => rfl
          | cons d w =>
            simpa [startsWithWordChar] using
              h.apart c hc d rfl (isWordChar_of_isAlpha halpha)
      rw [Option.map_some, Option.filter_some, Option.filter_some, hnext]
      split <;> rfl

end Keyword

/-- A text that starts with a keyword does not start with BY. -/
theorem afterWord?_by_of_after? {k : Keyword} (hk : k.IsPlain) {before : Option Char}
    {w rest : Text} (h : k.after? before w = some rest) :
    Keyword.afterWord? ['B', 'Y'] w.trimStart = none := by
  obtain ⟨m, rfl, ⟨c, hc, v, hv, a, ha, heq, halpha⟩, -⟩ := Keyword.exists_of_after? hk h
  obtain ⟨m, rfl⟩ := List.head?_eq_some_iff.1 (Option.mem_def.1 hc)
  have hstart : Text.trimStart (c :: m ++ rest) = c :: m ++ rest := by
    rw [Text.trimStart_eq_self_iff]
    rintro _ ⟨⟩
    exact isBlank_of_isAlpha halpha
  have hb : c.toLower ≠ 'B'.toLower := by
    rw [heq]
    exact (hk.2.2.2 v hv).1 a ha
  rw [hstart, List.cons_append, Keyword.afterWord?, if_neg hb]

/-- A text that starts with a keyword makes a seam with what stands before it. -/
theorem seam_of_after? {k : Keyword} (hk : k.IsPlain) {u w rest : Text}
    (h : k.after? u.getLast? w = some rest) : Seam u w := by
  refine ⟨?_, Or.inl (afterWord?_by_of_after? hk h)⟩
  intro d hd e _ hword
  have hlast := (Keyword.after?_eq_some_iff.1 h).1
  rw [Option.mem_def.1 hd, Option.any_some, hword] at hlast
  exact absurd hlast (by simp)

end LooseSql
