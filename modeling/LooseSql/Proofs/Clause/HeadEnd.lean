import LooseSql.Proofs.Clause.Head

/-!
# Where a head ends

The modifiers of a statement end in a closing parenthesis, or else in a word that no letter goes on
with. So does the word SELECT. A keyword that follows without a blank in between is therefore seen
as a whole word, and no comment mark goes on from the head into the list.
-/

namespace LooseSql

/-- The text `rest` ends `t`, behind a closing parenthesis or behind a word that it does not go on
with. -/
def EndsAt (t rest : Text) : Prop :=
  ∃ raw : Text, t = raw ++ rest ∧
    ∃ c ∈ raw.getLast?, c = ')' ∨ isWordChar c = true ∧ ∀ d ∈ rest.head?, d.isAlpha = false

theorem EndsAt.of_suffix {t r rest : Text} (h : EndsAt r rest) (hr : r <:+ t) : EndsAt t rest := by
  obtain ⟨raw, rfl, c, hc, hend⟩ := h
  obtain ⟨u, rfl⟩ := hr
  refine ⟨u ++ raw, by simp, c, ?_, hend⟩
  rw [List.getLast?_append, Option.mem_def.1 hc]
  rfl

theorem EndsAt.suffix {t rest : Text} (h : EndsAt t rest) : rest <:+ t := by
  obtain ⟨raw, rfl, -⟩ := h
  exact List.suffix_append raw rest

/-- A word ends where text matching finds its end. -/
theorem endsAt_of_endsTextWord {raw rest : Text} (hne : raw ≠ [])
    (hraw : ∀ c ∈ raw, isWordChar c = true) (hrest : endsTextWord rest = true) :
    EndsAt (raw ++ rest) rest := by
  refine ⟨raw, rfl, _, List.getLast?_eq_some_getLast hne,
    Or.inr ⟨hraw _ (List.getLast_mem hne), ?_⟩⟩
  intro d hd
  by_contra halpha
  have htext := isTextWordChar_of_isAlpha (eq_true_of_ne_false halpha)
  rw [endsTextWord, Option.mem_def.1 hd, Option.any_some, htext] at hrest
  exact absurd hrest (by decide)

namespace Modifier

open Modifiers (letters)

variable {word t rest : Text}

theorem endsAt_of_afterFoldedWord? (hne : word ≠ []) (hword : word ⊆ letters)
    (h : afterFoldedWord? word t = some rest) : EndsAt t rest := by
  obtain ⟨hfolded, hends⟩ := Option.filter_eq_some_iff.1 h
  obtain ⟨m, rfl, hm⟩ := exists_of_afterFolded? hfolded
  refine endsAt_of_endsTextWord ?_ ?_ hends
  · rintro rfl
    exact hne (by simpa using hm.symm)
  · exact isWordChar_of_map_foldCase hm fun c hc => Modifiers.isAlpha_of_mem_letters c (hword hc)

theorem endsAt_of_afterSetWord? (h : afterSetWord? t = some rest) : EndsAt t rest := by
  rw [afterSetWord?] at h
  cases hr : afterFoldedWord? "distinct".toList t with
  | some r =>
    rw [hr] at h
    obtain rfl : r = rest := Option.some.inj h
    exact endsAt_of_afterFoldedWord? (by decide) (by decide) hr
  | none =>
    rw [hr] at h
    have hall : afterFoldedWord? "all".toList t = some rest := h
    exact endsAt_of_afterFoldedWord? (by decide) (by decide) hall

theorem endsAt_of_afterNumber? (h : afterNumber? t = some rest) : EndsAt t rest := by
  obtain ⟨digits, rfl, hne, hdigits, hends⟩ := exists_of_afterNumber? h
  exact endsAt_of_endsTextWord hne (fun c hc => isWordChar_of_isDecimalDigit (hdigits c hc)) hends

theorem endsAt_of_afterRowCount? (h : afterRowCount? t = some rest) : EndsAt t rest := by
  by_cases hopen : t.trimStart.head? = some '('
  · obtain ⟨r, hr⟩ := List.head?_eq_some_iff.1 hopen
    rw [afterRowCount?_of_open hr] at h
    obtain ⟨inner, -, rfl⟩ := afterNextMark?_eq_some_iff.1 h
    have hend : EndsAt (inner ++ ')' :: rest) rest :=
      ⟨inner ++ [')'], by simp, ')', by simp, Or.inl rfl⟩
    refine hend.of_suffix ((List.suffix_cons '(' _).trans ?_)
    rw [← hr]
    exact List.dropWhile_suffix isBlank
  · rw [afterRowCount?_of_not_open hopen] at h
    obtain ⟨r, hr, h⟩ := Option.bind_eq_some_iff.1 h
    exact (endsAt_of_afterNumber? h).of_suffix (Text.afterBlanks?_suffix hr)

/-- An optional word is not there, or the text ends behind it. -/
theorem afterOptionalWord_eq_or (hne : word ≠ []) (hword : word ⊆ letters) (t : Text) :
    afterOptionalWord word t = t ∨ EndsAt t (afterOptionalWord word t) := by
  rw [afterOptionalWord]
  cases h : (Text.afterBlanks? t).bind (afterFoldedWord? word) with
  | none => exact Or.inl rfl
  | some r =>
    obtain ⟨r', hr', h⟩ := Option.bind_eq_some_iff.1 h
    exact Or.inr ((endsAt_of_afterFoldedWord? hne hword h).of_suffix (Text.afterBlanks?_suffix hr'))

theorem endsAt_of_afterTies? (h : afterTies? t = some rest) : EndsAt t rest := by
  obtain ⟨r, hr, hties⟩ := Option.bind_eq_some_iff.1 h
  obtain ⟨r', hr', hword⟩ := Option.bind_eq_some_iff.1 hties
  obtain ⟨m, rfl, -⟩ := exists_of_afterFolded? hr
  exact (endsAt_of_afterFoldedWord? (by decide) (by decide) hword).of_suffix
    ((Text.afterBlanks?_suffix hr').trans (List.suffix_append m r))

theorem afterWithTies_eq_or (t : Text) : afterWithTies t = t ∨ EndsAt t (afterWithTies t) := by
  rw [afterWithTies_eq]
  cases h : (Text.afterBlanks? t).bind afterTies? with
  | none => exact Or.inl rfl
  | some r =>
    obtain ⟨r', hr', h⟩ := Option.bind_eq_some_iff.1 h
    exact Or.inr ((endsAt_of_afterTies? h).of_suffix (Text.afterBlanks?_suffix hr'))

theorem endsAt_of_afterTop? (h : afterTop? t = some rest) : EndsAt t rest := by
  obtain ⟨r, hr, h⟩ := Option.bind_eq_some_iff.1 h
  obtain ⟨r', hr', rfl⟩ := Option.map_eq_some_iff.1 h
  obtain ⟨m, rfl, -⟩ := exists_of_afterFolded? hr
  -- The limit ends with its count, or with one of the optional words behind it.
  have hcount : EndsAt (m ++ r) r' :=
    (endsAt_of_afterRowCount? hr').of_suffix (List.suffix_append m r)
  have hpercent : EndsAt (m ++ r) (afterOptionalWord "percent".toList r') := by
    rcases @afterOptionalWord_eq_or "percent".toList (by decide) (by decide) r' with h | h
    · rwa [h]
    · exact h.of_suffix hcount.suffix
  rcases afterWithTies_eq_or (afterOptionalWord "percent".toList r') with h | h
  · rwa [h]
  · exact h.of_suffix hpercent.suffix

theorem endsAt_of_read? {modifier : Modifier} (h : read? t = some (modifier, rest)) :
    EndsAt t rest := by
  have hsuffix : t.trimStart <:+ t := List.dropWhile_suffix isBlank
  rw [read?] at h
  cases hset : afterSetWord? t.trimStart with
  | some r =>
    simp only [hset, Option.some.injEq, Prod.mk.injEq] at h
    exact (endsAt_of_afterSetWord? (h.2 ▸ hset)).of_suffix hsuffix
  | none =>
    simp only [hset] at h
    obtain ⟨r, hr, h⟩ := Option.map_eq_some_iff.1 h
    exact (endsAt_of_afterTop? ((Prod.mk.inj h).2 ▸ hr)).of_suffix hsuffix

end Modifier

theorem Modifiers.Reads.eq_or_endsAt {modifiers modifiers' : Modifiers} {t t' : Text}
    (h : Reads modifiers t modifiers' t') : t' = t ∨ EndsAt t t' := by
  induction h with
  | stop => exact Or.inl rfl
  | step h hrest ih =>
    -- The last modifier of the run says where the text ends.
    have hends := Modifier.endsAt_of_read? h
    rcases ih with rfl | ih
    · exact Or.inr hends
    · exact Or.inr (ih.of_suffix hends.suffix)

/-- The words of a head end in a parenthesis or in a whole word. -/
theorem Head.Starts.endsAt {u body rest : Text} {head : Head} (h : head.Starts u body rest) :
    EndsAt u rest := by
  obtain ⟨-, hwords, hends⟩ := Keyword.after?_eq_some_iff.1 h.select
  obtain ⟨word, rfl, heq⟩ := Keyword.exists_of_afterWord? hwords
  rcases h.reads.eq_or_endsAt with rfl | hreads
  · -- Without modifiers the head ends with the word SELECT.
    have hne : word ≠ [] := by
      rintro rfl
      exact absurd heq (by decide)
    refine ⟨word, rfl, _, List.getLast?_eq_some_getLast hne, Or.inr ⟨?_, fun d hd => ?_⟩⟩
    · exact isWordChar_of_isAlpha
        (Keyword.isAlpha_of_map_toLower_eq heq (by decide) _ (List.getLast_mem hne))
    · by_contra halpha
      have hword := isWordChar_of_isAlpha (eq_true_of_ne_false halpha)
      rw [startsWithWordChar, Option.mem_def.1 hd, Option.any_some, hword] at hends
      exact absurd hends (by decide)
  · exact hreads.of_suffix (List.suffix_append word body)

end LooseSql
