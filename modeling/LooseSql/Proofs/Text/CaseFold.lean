import LooseSql.Proofs.Text.CharClass
import LooseSql.Proofs.Text.Trim

/-!
# Folded words in a text of two parts

A word that is matched by folding its letters is found in `x ++ v` as it is found in `x`, provided
that `v` does not go on with a letter of the word (`afterFolded?_append`) and that no word of text
matching goes on from `x` into `v` (`afterFoldedWord?_append`). `afterBlanks?_bind_append` carries
such a statement over to what follows a run of blanks.

Where a whole word is looked for anywhere in a text, a character that no word holds parts the text:
the word stands in front of it or behind it (`containsFoldedWord_append_cons`).
-/

namespace LooseSql

/-- A word is matched by characters that fold to its letters. -/
theorem exists_of_afterFolded? {word t rest : Text} (h : afterFolded? word t = some rest) :
    ∃ m : Text, t = m ++ rest ∧ m.map foldCase = word := by
  induction word generalizing t with
  | nil =>
    rw [afterFolded?, Option.some.injEq] at h
    exact ⟨[], h, rfl⟩
  | cons w word ih =>
    cases t with
    | nil => simp [afterFolded?] at h
    | cons c t =>
      rw [afterFolded?] at h
      by_cases hc : foldCase c = w
      · rw [if_pos hc] at h
        obtain ⟨m, ht, hm⟩ := ih h
        exact ⟨c :: m, by rw [ht, List.cons_append], by rw [List.map_cons, hc, hm]⟩
      · simp [hc] at h

/-- Characters that fold to the letters of a word are passed over. -/
theorem afterFolded?_map_append (m rest : Text) :
    afterFolded? (m.map foldCase) (m ++ rest) = some rest := by
  induction m with
  | nil => rfl
  | cons c m ih => rw [List.map_cons, List.cons_append, afterFolded?, if_pos rfl, ih]

/-- A text that starts with no letter of the word does not start with the word. -/
theorem afterFolded?_eq_none {word t : Text} (hword : word ≠ [])
    (ht : ∀ c ∈ t.head?, foldCase c ∉ word) : afterFolded? word t = none := by
  obtain ⟨w, word, rfl⟩ := List.exists_cons_of_ne_nil hword
  cases t with
  | nil => rfl
  | cons c t =>
    have hc : foldCase c ≠ w := fun h => ht c rfl (by simp [h])
    rw [afterFolded?, if_neg hc]

/-- A text starts with one of two words at most, if their first letters differ. -/
theorem afterFolded?_eq_none_of_ne {a b : Char} {word word' t rest : Text}
    (h : afterFolded? (a :: word) t = some rest) (hne : a ≠ b) :
    afterFolded? (b :: word') t = none := by
  cases t with
  | nil => rfl
  | cons c t =>
    rw [afterFolded?] at h
    split at h
    · next hc => rw [afterFolded?, if_neg (hc ▸ hne)]
    · cases h

/-- A blank matches no letter of a word. -/
theorem foldCase_not_mem_of_isBlank {c : Char} (hc : isBlank c) {word : Text}
    (hword : ∀ w ∈ word, w.isAlpha = true) : foldCase c ∉ word := by
  intro hmem
  rw [isBlank_of_isAlpha_foldCase (hword _ hmem)] at hc
  cases hc

/-- A character that is in no word matches no letter of one. -/
theorem foldCase_not_mem_of_isTextWordChar {c : Char} (hc : isTextWordChar c = false) {word : Text}
    (hword : ∀ w ∈ word, w.isAlpha = true) : foldCase c ∉ word := by
  intro hmem
  rw [isTextWordChar_of_isAlpha_foldCase (hword _ hmem)] at hc
  cases hc

/-- The characters that match the letters of a word are word characters. -/
theorem isWordChar_of_map_foldCase {m word : Text} (hm : m.map foldCase = word)
    (hword : ∀ c ∈ word, c.isAlpha = true) : ∀ c ∈ m, isWordChar c = true := by
  intro c hc
  refine isWordChar_of_isAlpha_foldCase (hword _ ?_)
  rw [← hm]
  exact List.mem_map_of_mem hc

section Parts

variable {word x v : Text}

/-- A word is matched in the first part if the second one does not go on with it. -/
theorem afterFolded?_append (hv : ∀ c ∈ v.head?, foldCase c ∉ word) :
    afterFolded? word (x ++ v) = (afterFolded? word x).map (· ++ v) := by
  induction word generalizing x with
  | nil => rfl
  | cons w word ih =>
    cases x with
    | nil => exact afterFolded?_eq_none (by simp) hv
    | cons c x =>
      rw [List.cons_append, afterFolded?, afterFolded?]
      by_cases hc : foldCase c = w
      · rw [if_pos hc, if_pos hc]
        exact ih fun d hd hmem => hv d hd (by simp [hmem])
      · rw [if_neg hc, if_neg hc]
        rfl

/-- A whole word is matched in the first part if the second one goes on with no word at all. -/
theorem afterFoldedWord?_append (hword : word ≠ []) (halpha : ∀ c ∈ word, c.isAlpha = true)
    (hv : ∀ c ∈ v.head?, foldCase c ∉ word)
    (hapart : ∀ c ∈ x.getLast?, isWordChar c = true → endsTextWord v = true) :
    afterFoldedWord? word (x ++ v) = (afterFoldedWord? word x).map (· ++ v) := by
  rw [afterFoldedWord?, afterFoldedWord?, afterFolded?_append hv]
  cases hr : afterFolded? word x with
  | none => rfl
  | some r =>
    -- The word may end with `x`: then `v` must not go on with it.
    have hends : endsTextWord (r ++ v) = endsTextWord r := by
      cases r with
      | cons c r => rfl
      | nil =>
        obtain ⟨m, rfl, hm⟩ := exists_of_afterFolded? hr
        have hne : m ≠ [] := by
          rintro rfl
          exact hword (by simpa using hm.symm)
        rw [List.append_nil] at hapart
        exact hapart _ (List.getLast?_eq_some_getLast hne)
          (isWordChar_of_map_foldCase hm halpha _ (List.getLast_mem hne))
    rw [Option.map_some, Option.filter_some, Option.filter_some, hends]
    split <;> rfl

/-- What is matched in the first part is matched there behind a run of blanks as well. -/
theorem afterBlanks?_bind_append {f : Text → Option Text} (hnil : f [] = none)
    (hv : f v.trimStart = none) (hf : ∀ y, y <:+ x → f (y ++ v) = (f y).map (· ++ v)) :
    (Text.afterBlanks? (x ++ v)).bind f = ((Text.afterBlanks? x).bind f).map (· ++ v) := by
  rw [Text.afterBlanks?_eq, Text.afterBlanks?_eq]
  by_cases hx : x = []
  · subst hx
    rw [List.nil_append, show ([] : Text).head?.any isBlank = false from rfl]
    split <;> simp [hv]
  · rw [List.head?_append_of_ne_nil _ hx]
    split
    · rw [Option.bind_some, Option.bind_some]
      -- If `x` is blank, the blanks go on into `v`.
      by_cases hblank : Text.trimStart x = []
      · rw [Text.trimStart_append_of_blank (Text.trimStart_eq_nil_iff.1 hblank), hv, hblank, hnil]
        rfl
      · rw [Text.trimStart_append hblank]
        exact hf _ (List.dropWhile_suffix isBlank)
    · rfl

end Parts

/-! ## Words anywhere in a text -/

/-- Of the character in front of a text only matters whether a word goes on from it. -/
theorem containsFoldedWord_congr {word : Text} {before before' : Option Char}
    (h : before.any isTextWordChar = before'.any isTextWordChar) (t : Text) :
    containsFoldedWord word before t = containsFoldedWord word before' t := by
  cases t with
  | nil => rfl
  | cons c t => rw [containsFoldedWord, containsFoldedWord, h]

/-- A character that is in no word parts a text: a word stands in front of it or behind it. -/
theorem containsFoldedWord_append_cons {word : Text} (hword : word ≠ [])
    (halpha : ∀ w ∈ word, w.isAlpha = true) {c : Char} (hc : isTextWordChar c = false)
    (before : Option Char) (u v : Text) :
    containsFoldedWord word before (u ++ c :: v) =
      (containsFoldedWord word before u || containsFoldedWord word none v) := by
  -- The separator is no letter of the word, so the word stands in front of it or behind it.
  have hfold : foldCase c ∉ word := foldCase_not_mem_of_isTextWordChar hc halpha
  induction u generalizing before with
  | nil =>
    have hnone : afterFoldedWord? word (c :: v) = none := by
      rw [afterFoldedWord?, afterFolded?_eq_none hword (by simpa using hfold), Option.filter_none]
    rw [List.nil_append, show containsFoldedWord word before [] = false from rfl,
      containsFoldedWord, hnone, Option.isSome_none, Bool.and_false]
    exact congrArg (false || ·) (containsFoldedWord_congr (by simp [hc]) v)
  | cons d u ih =>
    have hhead : (afterFoldedWord? word (d :: (u ++ c :: v))).isSome =
        (afterFoldedWord? word (d :: u)).isSome := by
      rw [← List.cons_append, afterFoldedWord?_append hword halpha (by simpa using hfold)
        (fun _ _ _ => by simp [endsTextWord, hc]), Option.isSome_map]
    rw [List.cons_append, containsFoldedWord, hhead, ih, containsFoldedWord, Bool.or_assoc]

end LooseSql
