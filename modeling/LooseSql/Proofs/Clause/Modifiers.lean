import LooseSql.Clause.Modifiers
import LooseSql.Proofs.Scan
import LooseSql.Proofs.Text.After
import LooseSql.Proofs.Text.CaseFold

/-!
# Modifiers in a text of two parts

Modifiers are read by matching words, numbers and parentheses, without regard to quotes. They are
read in `x ++ v` as they are in `x`, as long as `v` cannot go on with one (`Modifiers.Seam`) and no
parenthesis is left open in `x`.

* `Modifiers.Reads`: the modifiers that are read one after another, without a limit on their number
  (`Modifiers.read_eq_iff`);
* `Modifier.read?_append`: one modifier in a text of two parts;
* `Modifiers.Reads.congr`: all modifiers, when the second part is exchanged for another one;
* `Modifiers.Reads.exists_of_append`: they end in the first part, if the second one opens no
  parenthesis.
-/

namespace LooseSql

namespace Modifiers

/-- The letters of the words that modifiers are made of. -/
def letters : Text := "distinctalltoppercentwithties".toList

/-- No modifier is read across the seam of the text `x ++ v`: behind blanks, `v` starts with no
digit and no letter of a modifier, and no word goes on from `x` into `v`. -/
structure Seam (x v : Text) : Prop where
  /-- The second part does not start a word or a number of a modifier. -/
  first : ∀ c ∈ v.trimStart.head?, isDecimalDigit c = false ∧ foldCase c ∉ letters
  /-- A word that ends with the first part ends there. -/
  apart : ∀ c ∈ x.getLast?, isWordChar c = true → endsTextWord v = true

theorem isAlpha_of_mem_letters : ∀ c ∈ letters, c.isAlpha = true := by decide

namespace Seam

variable {x y v : Text}

theorem of_suffix (h : Seam x v) (hy : y <:+ x) : Seam y v where
  first := h.first
  apart := by
    intro c hc
    obtain ⟨u, rfl⟩ := hy
    refine h.apart c ?_
    rw [List.getLast?_append, Option.mem_def.1 hc]
    rfl

/-- The second part goes on with no word and no number of a modifier. -/
theorem head (h : Seam x v) : ∀ c ∈ v.head?, isDecimalDigit c = false ∧ foldCase c ∉ letters := by
  intro c hc
  by_cases hblank : isBlank c = true
  · have hword : isWordChar c ≠ true := by simp [isWordChar_of_isBlank hblank]
    refine ⟨?_, fun hmem => hword ?_⟩
    · by_contra hdigit
      exact hword (isWordChar_of_isDecimalDigit (by simpa using hdigit))
    · exact isWordChar_of_isAlpha_foldCase (isAlpha_of_mem_letters _ hmem)
  · refine h.first c ?_
    rwa [Text.trimStart_eq_self_iff.2]
    intro d hd
    obtain rfl : c = d := Option.mem_unique hc hd
    simpa using hblank

end Seam

end Modifiers

namespace Modifier

open Modifiers (letters)

variable {x v word : Text}

/-! ## Words -/

theorem afterFolded?_append_of_seam (hword : word ⊆ letters) (h : Modifiers.Seam x v) :
    afterFolded? word (x ++ v) = (afterFolded? word x).map (· ++ v) :=
  afterFolded?_append fun c hc hmem => (h.head c hc).2 (hword hmem)

theorem afterFoldedWord?_append_of_seam (hne : word ≠ []) (hword : word ⊆ letters)
    (h : Modifiers.Seam x v) :
    afterFoldedWord? word (x ++ v) = (afterFoldedWord? word x).map (· ++ v) :=
  afterFoldedWord?_append hne (fun c hc => Modifiers.isAlpha_of_mem_letters c (hword hc))
    (fun c hc hmem => (h.head c hc).2 (hword hmem)) h.apart

theorem afterFolded?_trimStart_of_seam (hne : word ≠ []) (hword : word ⊆ letters)
    (h : Modifiers.Seam x v) : afterFolded? word v.trimStart = none :=
  afterFolded?_eq_none hne fun c hc hmem => (h.first c hc).2 (hword hmem)

theorem afterFoldedWord?_trimStart_of_seam (hne : word ≠ []) (hword : word ⊆ letters)
    (h : Modifiers.Seam x v) : afterFoldedWord? word v.trimStart = none := by
  rw [afterFoldedWord?, afterFolded?_trimStart_of_seam hne hword h]
  rfl

theorem afterFoldedWord?_nil (hne : word ≠ []) : afterFoldedWord? word [] = none := by
  rw [afterFoldedWord?, afterFolded?_eq_none hne (by simp)]
  rfl

/-- A word behind blanks is matched in the first part. -/
theorem afterBlanks?_bind_word_append (hne : word ≠ []) (hword : word ⊆ letters)
    (h : Modifiers.Seam x v) :
    (Text.afterBlanks? (x ++ v)).bind (afterFoldedWord? word) =
      ((Text.afterBlanks? x).bind (afterFoldedWord? word)).map (· ++ v) :=
  afterBlanks?_bind_append (afterFoldedWord?_nil hne)
    (afterFoldedWord?_trimStart_of_seam hne hword h)
    fun _ hy => afterFoldedWord?_append_of_seam hne hword (h.of_suffix hy)

theorem afterOptionalWord_append (hne : word ≠ []) (hword : word ⊆ letters)
    (h : Modifiers.Seam x v) :
    afterOptionalWord word (x ++ v) = afterOptionalWord word x ++ v := by
  rw [afterOptionalWord, afterOptionalWord, afterBlanks?_bind_word_append hne hword h]
  cases (Text.afterBlanks? x).bind (afterFoldedWord? word) <;> rfl

/-- What follows the words `WITH TIES` at the head of a text. -/
def afterTies? (t : Text) : Option Text :=
  (afterFolded? "with".toList t).bind fun rest =>
    (Text.afterBlanks? rest).bind (afterFoldedWord? "ties".toList)

theorem afterWithTies_eq (t : Text) :
    afterWithTies t = ((Text.afterBlanks? t).bind afterTies?).getD t := rfl

theorem afterTies?_append (h : Modifiers.Seam x v) :
    afterTies? (x ++ v) = (afterTies? x).map (· ++ v) := by
  rw [afterTies?, afterTies?, afterFolded?_append_of_seam (by decide) h]
  cases hr : afterFolded? "with".toList x with
  | none => rfl
  | some r =>
    obtain ⟨m, rfl, -⟩ := exists_of_afterFolded? hr
    exact afterBlanks?_bind_word_append (by decide) (by decide)
      (h.of_suffix (List.suffix_append m r))

theorem afterWithTies_append (h : Modifiers.Seam x v) :
    afterWithTies (x ++ v) = afterWithTies x ++ v := by
  have hnone : afterTies? v.trimStart = none := by
    rw [afterTies?, afterFolded?_trimStart_of_seam (by decide) (by decide) h]
    rfl
  have hblanks := afterBlanks?_bind_append (x := x) rfl hnone fun y hy =>
    afterTies?_append (h.of_suffix hy)
  rw [afterWithTies_eq, afterWithTies_eq, hblanks]
  cases (Text.afterBlanks? x).bind afterTies? <;> rfl

theorem afterSetWord?_append (h : Modifiers.Seam x v) :
    afterSetWord? (x ++ v) = (afterSetWord? x).map (· ++ v) := by
  rw [afterSetWord?, afterSetWord?, afterFoldedWord?_append_of_seam (by decide) (by decide) h,
    afterFoldedWord?_append_of_seam (by decide) (by decide) h]
  cases afterFoldedWord? "distinct".toList x <;> rfl

/-! ## Row counts -/

/-- What follows a number that is a whole word. -/
def afterNumber? (t : Text) : Option Text :=
  if t.head?.any isDecimalDigit then
    if endsTextWord (t.dropWhile isDecimalDigit) then some (t.dropWhile isDecimalDigit) else none
  else none

/-- A number is a run of digits, and no word goes on behind it. -/
theorem exists_of_afterNumber? {t rest : Text} (h : afterNumber? t = some rest) :
    ∃ digits : Text, t = digits ++ rest ∧ digits ≠ [] ∧
      (∀ c ∈ digits, isDecimalDigit c = true) ∧ endsTextWord rest = true := by
  rw [afterNumber?] at h
  split at h
  · next hdigit =>
    split at h
    · next hends =>
      obtain rfl := Option.some.inj h
      -- The number is the whole run of digits.
      refine ⟨t.takeWhile isDecimalDigit, List.takeWhile_append_dropWhile.symm, ?_,
        fun c hc => List.mem_takeWhile_imp hc, hends⟩
      cases t with
      | nil => cases hdigit
      | cons c t =>
        rw [List.takeWhile_cons_of_pos (by simpa using hdigit)]
        exact List.cons_ne_nil _ _
    · cases h
  · cases h

theorem afterRowCount?_of_open {t r : Text} (ht : t.trimStart = '(' :: r) :
    afterRowCount? t = afterNextMark? ')' r := by
  rw [afterRowCount?, ht, afterNextMark?_eq_dropWhile]
  cases h : r.dropWhile (· != ')') <;> simp [h]

theorem afterRowCount?_of_not_open {t : Text} (ht : t.trimStart.head? ≠ some '(') :
    afterRowCount? t = (Text.afterBlanks? t).bind afterNumber? := by
  rw [afterRowCount?]
  split
  · rename_i r hr
    exact absurd (by rw [hr]; rfl) ht
  · rfl

theorem afterNumber?_append (h : Modifiers.Seam x v) :
    afterNumber? (x ++ v) = (afterNumber? x).map (· ++ v) := by
  have hv : v.head?.any isDecimalDigit = false := by
    cases hc : v.head? with
    | none => rfl
    | some c => exact (h.head c hc).1
  by_cases hx : x = []
  · subst hx
    simp [afterNumber?, hv]
  · rw [afterNumber?, afterNumber?, List.head?_append_of_ne_nil _ hx]
    split
    · by_cases hdrop : x.dropWhile isDecimalDigit = []
      · -- The number goes up to the end of the first part, and `v` does not go on with it.
        have hdigits := List.dropWhile_eq_nil_iff.1 hdrop
        have hvdrop : v.dropWhile isDecimalDigit = v := by
          cases v with
          | nil => rfl
          | cons c v => exact List.dropWhile_cons_of_neg (by simpa using hv)
        have hends : endsTextWord v = true :=
          h.apart _ (List.getLast?_eq_some_getLast hx)
            (isWordChar_of_isDecimalDigit (hdigits _ (List.getLast_mem hx)))
        rw [List.dropWhile_append_of_pos hdigits, hvdrop, if_pos hends, hdrop]
        rfl
      · have happend : (x ++ v).dropWhile isDecimalDigit = x.dropWhile isDecimalDigit ++ v := by
          rw [List.dropWhile_append, if_neg (by rwa [List.isEmpty_iff])]
        have hends : endsTextWord (x.dropWhile isDecimalDigit ++ v) =
            endsTextWord (x.dropWhile isDecimalDigit) := by
          rw [endsTextWord, endsTextWord, List.head?_append_of_ne_nil _ hdrop]
        rw [happend, hends]
        split <;> rfl
    · rfl

/-- The row count that starts in the first part is complete there. -/
def CountFits (x v : Text) : Prop :=
  (x.trimStart = [] → v.trimStart.head? ≠ some '(') ∧ ∀ r, x.trimStart = '(' :: r → ')' ∈ r

theorem afterRowCount?_append (h : Modifiers.Seam x v) (hcount : CountFits x v) :
    afterRowCount? (x ++ v) = (afterRowCount? x).map (· ++ v) := by
  have hnumber : (Text.afterBlanks? (x ++ v)).bind afterNumber? =
      ((Text.afterBlanks? x).bind afterNumber?).map (· ++ v) := by
    refine afterBlanks?_bind_append rfl ?_ fun y hy => afterNumber?_append (h.of_suffix hy)
    rw [afterNumber?, if_neg]
    cases hc : v.trimStart.head? with
    | none => simp
    | some c => simpa using (h.first c hc).1
  by_cases hblank : x.trimStart = []
  · -- The count starts behind the first part, if at all, and no parenthesis opens it there.
    have hopen : (x ++ v).trimStart.head? ≠ some '(' := by
      rw [Text.trimStart_append_of_blank (Text.trimStart_eq_nil_iff.1 hblank)]
      exact hcount.1 hblank
    rw [afterRowCount?_of_not_open hopen, hnumber, afterRowCount?_of_not_open (by simp [hblank])]
  · have htrim := Text.trimStart_append hblank v
    obtain ⟨c, r, hx⟩ := List.exists_cons_of_ne_nil hblank
    by_cases hc : c = '('
    · -- A count in parentheses ends in the first part.
      subst hc
      have hopen : (x ++ v).trimStart = '(' :: (r ++ v) := by rw [htrim, hx, List.cons_append]
      rw [afterRowCount?_of_open hopen, afterRowCount?_of_open hx,
        afterNextMark?_append (hcount.2 r hx)]
    · have hopen : (x ++ v).trimStart.head? ≠ some '(' := by
        rw [htrim, hx]
        simpa using hc
      rw [afterRowCount?_of_not_open hopen, hnumber,
        afterRowCount?_of_not_open (by simpa [hx] using hc)]

/-! ## Extent -/

theorem afterRowCount?_suffix {t rest : Text} (h : afterRowCount? t = some rest) :
    ∃ raw : Text, t = raw ++ rest ∧ ((∀ c ∈ raw, isScanMark c = false) ∨ ∃ ws inner : Text,
      raw = ws ++ '(' :: (inner ++ [')']) ∧ (∀ c ∈ ws, isBlank c) ∧ ')' ∉ inner) := by
  -- The count stands in parentheses, or blanks lead to a number.
  by_cases hopen : t.trimStart.head? = some '('
  · obtain ⟨r, hr⟩ := List.head?_eq_some_iff.1 hopen
    obtain ⟨ws, hws, hsplit⟩ := Text.exists_blank_append_trimStart t
    rw [afterRowCount?_of_open hr] at h
    obtain ⟨inner, hinner, rfl⟩ := afterNextMark?_eq_some_iff.1 h
    refine ⟨ws ++ '(' :: (inner ++ [')']), ?_, Or.inr ⟨ws, inner, rfl, hws, hinner⟩⟩
    rw [← hsplit, hr]
    simp
  · rw [afterRowCount?_of_not_open hopen] at h
    obtain ⟨r, hr, hnumber⟩ := Option.bind_eq_some_iff.1 h
    obtain ⟨ws, rfl, hws⟩ := Text.exists_of_afterBlanks? hr
    obtain ⟨digits, rfl, -, hdigits, -⟩ := exists_of_afterNumber? hnumber
    refine ⟨ws ++ digits, by rw [List.append_assoc], Or.inl fun c hc => ?_⟩
    rcases List.mem_append.1 hc with hc | hc
    · exact isScanMark_of_isBlank (hws c hc)
    · exact isScanMark_of_isWordChar (isWordChar_of_isDecimalDigit (hdigits c hc))

/-- A word is made of no marks. -/
theorem isScanMark_of_map_foldCase (hword : word ⊆ letters) {m : Text}
    (hm : m.map foldCase = word) : ∀ c ∈ m, isScanMark c = false := fun c hc =>
  isScanMark_of_isWordChar (isWordChar_of_map_foldCase hm
    (fun d hd => Modifiers.isAlpha_of_mem_letters d (hword hd)) c hc)

theorem afterFoldedWord?_suffix (hword : word ⊆ letters) {t rest : Text}
    (h : afterFoldedWord? word t = some rest) :
    ∃ raw : Text, t = raw ++ rest ∧ raw.length = word.length ∧
      ∀ c ∈ raw, isScanMark c = false := by
  obtain ⟨m, ht, hm⟩ := exists_of_afterFolded? (Option.filter_eq_some_iff.1 h).1
  exact ⟨m, ht, by rw [← hm, List.length_map], isScanMark_of_map_foldCase hword hm⟩

theorem afterBlanks?_bind_suffix {f : Text → Option Text} {t rest : Text}
    (hf : ∀ r r', f r = some r' → ∃ raw : Text, r = raw ++ r' ∧ ∀ c ∈ raw, isScanMark c = false)
    (h : (Text.afterBlanks? t).bind f = some rest) :
    ∃ raw : Text, t = raw ++ rest ∧ ∀ c ∈ raw, isScanMark c = false := by
  obtain ⟨r, hr, h⟩ := Option.bind_eq_some_iff.1 h
  obtain ⟨raw, rfl, hraw⟩ := hf r rest h
  obtain ⟨ws, rfl, hws⟩ := Text.exists_of_afterBlanks? hr
  refine ⟨ws ++ raw, by rw [List.append_assoc], fun c hc => ?_⟩
  rcases List.mem_append.1 hc with hc | hc
  · exact isScanMark_of_isBlank (hws c hc)
  · exact hraw c hc

/-- A word behind blanks is made of no marks. -/
theorem afterBlanks?_bind_word_suffix (hword : word ⊆ letters) {t rest : Text}
    (h : (Text.afterBlanks? t).bind (afterFoldedWord? word) = some rest) :
    ∃ raw : Text, t = raw ++ rest ∧ ∀ c ∈ raw, isScanMark c = false := by
  refine afterBlanks?_bind_suffix (fun r r' hr => ?_) h
  obtain ⟨raw, hsplit, -, hraw⟩ := afterFoldedWord?_suffix hword hr
  exact ⟨raw, hsplit, hraw⟩

theorem afterOptionalWord_suffix (hword : word ⊆ letters) (t : Text) :
    ∃ raw : Text, t = raw ++ afterOptionalWord word t ∧ ∀ c ∈ raw, isScanMark c = false := by
  rw [afterOptionalWord]
  cases h : (Text.afterBlanks? t).bind (afterFoldedWord? word) with
  | none => exact ⟨[], rfl, by simp⟩
  | some rest => exact afterBlanks?_bind_word_suffix hword h

theorem afterTies?_suffix {t rest : Text} (h : afterTies? t = some rest) :
    ∃ raw : Text, t = raw ++ rest ∧ ∀ c ∈ raw, isScanMark c = false := by
  obtain ⟨r, hwith, hties⟩ := Option.bind_eq_some_iff.1 h
  obtain ⟨m, rfl, hm⟩ := exists_of_afterFolded? hwith
  obtain ⟨raw, rfl, hraw⟩ := afterBlanks?_bind_word_suffix (by decide) hties
  refine ⟨m ++ raw, by simp, fun c hc => ?_⟩
  rcases List.mem_append.1 hc with hc | hc
  · exact isScanMark_of_map_foldCase (by decide) hm c hc
  · exact hraw c hc

theorem afterWithTies_suffix (t : Text) :
    ∃ raw : Text, t = raw ++ afterWithTies t ∧ ∀ c ∈ raw, isScanMark c = false := by
  rw [afterWithTies_eq]
  cases h : (Text.afterBlanks? t).bind afterTies? with
  | none => exact ⟨[], rfl, by simp⟩
  | some rest => exact afterBlanks?_bind_suffix (fun _ _ hties => afterTies?_suffix hties) h

/-- The words behind a row count hold no marks. -/
theorem afterOptionalWords_suffix (t : Text) :
    ∃ raw : Text, t = raw ++ afterWithTies (afterOptionalWord "percent".toList t) ∧
      ∀ c ∈ raw, isScanMark c = false := by
  obtain ⟨percent, hpercent, hpercentmarks⟩ :=
    @afterOptionalWord_suffix "percent".toList (by decide) t
  obtain ⟨ties, hties, htiesmarks⟩ := afterWithTies_suffix (afterOptionalWord "percent".toList t)
  refine ⟨percent ++ ties, by rw [List.append_assoc, ← hties, ← hpercent], fun c hc => ?_⟩
  exact (List.mem_append.1 hc).elim (hpercentmarks c) (htiesmarks c)

/-! ## One modifier -/

/-- The row count of a limit that starts in the first part is complete there. -/
def TopFits (x v : Text) : Prop :=
  ∀ r, afterFolded? "top".toList x.trimStart = some r → CountFits r v

theorem afterTop?_append (h : Modifiers.Seam x v)
    (htop : ∀ r, afterFolded? "top".toList x = some r → CountFits r v) :
    afterTop? (x ++ v) = (afterTop? x).map (· ++ v) := by
  rw [afterTop?, afterTop?, afterFolded?_append_of_seam (by decide) h]
  cases hr : afterFolded? "top".toList x with
  | none => rfl
  | some r =>
    -- Each step reads a part of `x` and leaves a seam in front of `v`.
    obtain ⟨m, rfl, -⟩ := exists_of_afterFolded? hr
    have hseam : Modifiers.Seam r v := h.of_suffix (List.suffix_append m r)
    rw [Option.map_some, Option.bind_some, Option.bind_some,
      afterRowCount?_append hseam (htop r hr)]
    cases hr' : afterRowCount? r with
    | none => rfl
    | some r' =>
      obtain ⟨count, hcount, -⟩ := afterRowCount?_suffix hr'
      obtain ⟨percent, hpercent, -⟩ :=
        @afterOptionalWord_suffix "percent".toList (by decide) r'
      have hseam' : Modifiers.Seam r' v := hseam.of_suffix (hcount ▸ List.suffix_append count r')
      have hseam'' : Modifiers.Seam (afterOptionalWord "percent".toList r') v :=
        hseam'.of_suffix ⟨percent, hpercent.symm⟩
      simp only [Option.map_some]
      rw [afterOptionalWord_append (by decide) (by decide) hseam', afterWithTies_append hseam'']

/-- One modifier is read in a text of two parts as it is read in the first part. -/
theorem read?_append (h : Modifiers.Seam x v) (htop : TopFits x v) :
    read? (x ++ v) = (read? x).map fun p => (p.1, p.2 ++ v) := by
  rw [read?, read?]
  by_cases hblank : x.trimStart = []
  · -- The first part is blank, and no modifier starts the second one.
    have hset : afterSetWord? v.trimStart = none := by
      rw [afterSetWord?, afterFoldedWord?_trimStart_of_seam (by decide) (by decide) h,
        afterFoldedWord?_trimStart_of_seam (by decide) (by decide) h]
      rfl
    have hlimit : afterTop? v.trimStart = none := by
      rw [afterTop?, afterFolded?_trimStart_of_seam (by decide) (by decide) h]
      rfl
    rw [Text.trimStart_append_of_blank (Text.trimStart_eq_nil_iff.1 hblank), hblank]
    simp only [hset, hlimit]
    rfl
  · have hseam : Modifiers.Seam x.trimStart v := h.of_suffix (List.dropWhile_suffix isBlank)
    rw [Text.trimStart_append hblank]
    simp only [afterSetWord?_append hseam, afterTop?_append hseam htop]
    cases afterSetWord? x.trimStart with
    | some r => simp [Text.before_append_append]
    | none =>
      cases afterTop? x.trimStart with
      | none => rfl
      | some r => simp [Text.before_append_append]

/-! ## The text of a modifier -/

/-- The text of one modifier: it holds no marks, or one parenthesis up to the next closing one. -/
def IsRaw (raw : Text) : Prop :=
  (∀ c ∈ raw, isScanMark c = false) ∨ ∃ u inner w : Text, raw = u ++ '(' :: (inner ++ ')' :: w) ∧
    (∀ c ∈ u, isScanMark c = false) ∧ ')' ∉ inner ∧ ∀ c ∈ w, isScanMark c = false

/-- No marks stand around the parentheses of a modifier. -/
theorem IsRaw.append {u raw w : Text} (hu : ∀ c ∈ u, isScanMark c = false) (h : IsRaw raw)
    (hw : ∀ c ∈ w, isScanMark c = false) : IsRaw (u ++ (raw ++ w)) := by
  rcases h with h | ⟨u', inner, w', rfl, hu', hinner, hw'⟩
  · refine Or.inl fun c hc => ?_
    simp only [List.mem_append] at hc
    rcases hc with hc | hc | hc
    exacts [hu c hc, h c hc, hw c hc]
  · refine Or.inr ⟨u ++ u', inner, w' ++ w, by simp, fun c hc => ?_, hinner, fun c hc => ?_⟩
    · exact (List.mem_append.1 hc).elim (hu c) (hu' c)
    · exact (List.mem_append.1 hc).elim (hw' c) (hw c)

theorem afterTop?_suffix {t rest : Text} (h : afterTop? t = some rest) :
    ∃ raw : Text, t = raw ++ rest ∧ raw ≠ [] ∧ IsRaw raw := by
  obtain ⟨r, hr, h⟩ := Option.bind_eq_some_iff.1 h
  obtain ⟨r', hr', rfl⟩ := Option.map_eq_some_iff.1 h
  obtain ⟨m, rfl, hm⟩ := exists_of_afterFolded? hr
  obtain ⟨count, rfl, hcount⟩ := afterRowCount?_suffix hr'
  obtain ⟨words, hwords, hmarks⟩ := afterOptionalWords_suffix r'
  -- Of all that TOP reads only the count can hold marks, and then it stands in parentheses.
  have hraw : IsRaw count := by
    rcases hcount with hcount | ⟨ws, inner, rfl, hws, hinner⟩
    · exact Or.inl hcount
    · exact Or.inr ⟨ws, inner, [], rfl, fun c hc => isScanMark_of_isBlank (hws c hc), hinner,
        by simp⟩
  refine ⟨m ++ (count ++ words), ?_, ?_,
    hraw.append (isScanMark_of_map_foldCase (by decide) hm) hmarks⟩
  · rw [List.append_assoc, List.append_assoc, ← hwords]
  · rintro hnil
    obtain ⟨rfl, -⟩ := List.append_eq_nil_iff.1 hnil
    simp at hm

theorem afterSetWord?_suffix {t rest : Text} (h : afterSetWord? t = some rest) :
    ∃ raw : Text, t = raw ++ rest ∧ raw ≠ [] ∧ IsRaw raw := by
  have hraw : ∀ word : Text, word ≠ [] → word ⊆ letters → afterFoldedWord? word t = some rest →
      ∃ raw : Text, t = raw ++ rest ∧ raw ≠ [] ∧ IsRaw raw := by
    intro word hne hword h
    obtain ⟨raw, hsplit, hlen, hmarks⟩ := afterFoldedWord?_suffix hword h
    refine ⟨raw, hsplit, ?_, Or.inl hmarks⟩
    rintro rfl
    exact hne (List.length_eq_zero_iff.1 hlen.symm)
  rw [afterSetWord?] at h
  cases hd : afterFoldedWord? "distinct".toList t with
  | none => exact hraw "all".toList (by decide) (by decide) (by rwa [hd] at h)
  | some r => exact hraw "distinct".toList (by decide) (by decide) (by rw [← h, hd]; rfl)

/-- A modifier that is read takes up some characters. -/
theorem read?_suffix {t rest : Text} {modifier : Modifier} (h : read? t = some (modifier, rest)) :
    ∃ raw : Text, t = raw ++ rest ∧ raw ≠ [] ∧ IsRaw raw := by
  obtain ⟨ws, hws, hsplit⟩ := Text.exists_blank_append_trimStart t
  -- Blanks come first, then a word of its own or a row limit.
  have hraw : ∃ raw : Text, t.trimStart = raw ++ rest ∧ raw ≠ [] ∧ IsRaw raw := by
    rw [read?] at h
    cases hset : afterSetWord? t.trimStart with
    | some r =>
      simp only [hset, Option.some.injEq, Prod.mk.injEq] at h
      exact afterSetWord?_suffix (h.2 ▸ hset)
    | none =>
      simp only [hset] at h
      obtain ⟨r, hr, h⟩ := Option.map_eq_some_iff.1 h
      exact afterTop?_suffix ((Prod.mk.inj h).2 ▸ hr)
  obtain ⟨raw, hraw, hne, hisRaw⟩ := hraw
  refine ⟨ws ++ (raw ++ []), ?_, by simp [hne],
    hisRaw.append (fun c hc => isScanMark_of_isBlank (hws c hc)) (by simp)⟩
  rw [List.append_nil, List.append_assoc, ← hraw, hsplit]

/-! ## Parentheses -/

/-- A state in which a closing parenthesis has still to come behind an opening one, also where the
opening one stands in a quote. -/
def Watches (s : ScanState) : Prop := s.quote = none ∨ 0 < s.depth

theorem depth_pos_of_watches {s : ScanState} (hs : Watches s) : 0 < (s.step '(').depth := by
  unfold ScanState.step
  rcases hq : s.quote with _ | q
  · simp [Quote.ofOpener?]
  · have hdepth : 0 < s.depth := hs.resolve_left (by simp [hq])
    cases q <;> simpa [Quote.closer] using hdepth

/-- A parenthesis that a modifier opens is closed if the text comes back to the top level. -/
theorem mem_of_scan_eq_top {s : ScanState} (hs : Watches s) {u r : Text}
    (hu : ∀ c ∈ u, isScanMark c = false) (h : scan s (u ++ '(' :: r) = .top) : ')' ∈ r := by
  by_contra hr
  -- Without a closing parenthesis the depth would stay above zero.
  have hdepth := depth_le_depth_scan hr (s.step '(')
  rw [scan_append, scan_of_not_mark hu, scan_cons] at h
  rw [h] at hdepth
  exact absurd (depth_pos_of_watches hs) (by simpa [ScanState.top] using hdepth)

theorem IsRaw.watches_scan {raw : Text} (h : IsRaw raw) {s : ScanState} (hs : Watches s) :
    Watches (scan s raw) := by
  rcases h with h | ⟨u, inner, w, rfl, hu, hinner, hw⟩
  · rwa [scan_of_not_mark h]
  · have hdepth : 0 < (scan (s.step '(') inner).depth :=
      Nat.lt_of_lt_of_le (depth_pos_of_watches hs) (depth_le_depth_scan hinner _)
    rw [scan_append, scan_of_not_mark hu, scan_cons, scan_append, scan_cons, scan_of_not_mark hw]
    generalize scan (s.step '(') inner = s' at hdepth
    unfold ScanState.step
    rcases hq : s'.quote with _ | q
    · exact Or.inl (by simp [Quote.ofOpener?])
    · exact Or.inr (by cases q <;> simpa [Quote.closer] using hdepth)

/-- A text that starts with TOP starts with neither DISTINCT nor ALL. -/
theorem afterSetWord?_eq_none_of_top {t r : Text} (h : afterFolded? "top".toList t = some r) :
    afterSetWord? t = none := by
  have hdistinct : afterFolded? "distinct".toList t = none :=
    afterFolded?_eq_none_of_ne (a := 't') (b := 'd') h (by decide)
  have hall : afterFolded? "all".toList t = none :=
    afterFolded?_eq_none_of_ne (a := 't') (b := 'a') h (by decide)
  rw [afterSetWord?, afterFoldedWord?, afterFoldedWord?, hdistinct, hall]
  rfl

/-- The word TOP and a row count are read, with PERCENT and WITH TIES behind them. -/
theorem exists_read?_of_top {t r r' : Text} (htop : afterFolded? "top".toList t.trimStart = some r)
    (hcount : afterRowCount? r = some r') :
    ∃ modifier, read? t =
      some (modifier, afterWithTies (afterOptionalWord "percent".toList r')) := by
  have hlimit : afterTop? t.trimStart =
      some (afterWithTies (afterOptionalWord "percent".toList r')) := by
    rw [afterTop?, htop, Option.bind_some, hcount, Option.map_some]
  rw [read?]
  simp only [afterSetWord?_eq_none_of_top htop, hlimit]
  exact ⟨_, rfl⟩

/-- The word TOP takes an opening parenthesis that stands behind blanks, and all up to the closing
one with it. -/
theorem read?_of_open {x v r : Text} (hr : afterFolded? "top".toList x.trimStart = some r)
    (hblank : r.trimStart = []) (hopen : v.trimStart.head? = some '(') (hclose : ')' ∈ v) :
    ∃ modifier rest, read? (x ++ v) = some (modifier, rest) ∧ rest.length < v.length := by
  obtain ⟨v₁, hv₁⟩ := List.head?_eq_some_iff.1 hopen
  obtain ⟨ws, hws, hsplit⟩ := Text.exists_blank_append_trimStart v
  rw [hv₁] at hsplit
  have hclose' : ')' ∈ v₁ := by
    rw [← hsplit] at hclose
    rcases List.mem_append.1 hclose with hmem | hmem
    · exact absurd (hws _ hmem) (by decide)
    · simpa using hmem
  obtain ⟨r', hr'⟩ := Option.isSome_iff_exists.1 (afterNextMark?_isSome_iff.2 hclose')
  have htop : afterFolded? "top".toList (x ++ v).trimStart = some (r ++ v) := by
    obtain ⟨m, hx, hm⟩ := exists_of_afterFolded? hr
    have hne : x.trimStart ≠ [] := by
      rintro hnil
      rw [hnil] at hr
      cases hr
    rw [Text.trimStart_append hne, hx, List.append_assoc, ← hm]
    exact afterFolded?_map_append m (r ++ v)
  -- Behind it, the parenthesis that opens the second part is the row count.
  have hcount : afterRowCount? (r ++ v) = some r' := by
    rw [afterRowCount?_of_open (r := v₁), hr']
    rw [Text.trimStart_append_of_blank (Text.trimStart_eq_nil_iff.1 hblank), hv₁]
  obtain ⟨modifier, hread⟩ := exists_read?_of_top htop hcount
  refine ⟨modifier, _, hread, ?_⟩
  -- What is left stands behind that parenthesis, so it is shorter than the second part.
  obtain ⟨inner, -, rfl⟩ := afterNextMark?_eq_some_iff.1 hr'
  obtain ⟨words, hwords, -⟩ := afterOptionalWords_suffix r'
  calc (afterWithTies (afterOptionalWord "percent".toList r')).length
      ≤ r'.length := by
        rw [congrArg List.length hwords, List.length_append]
        exact Nat.le_add_left _ _
    _ < (ws ++ '(' :: (inner ++ ')' :: r')).length := by
        simp only [List.length_append, List.length_cons]
        omega
    _ = v.length := congrArg List.length hsplit

/-- A row limit that starts in the first part is complete there, if the first part comes back to the
top level and what is read leaves the second part alone. -/
theorem topFits_of_scan {x v : Text} {s : ScanState} (hs : Watches s) (hx : scan s x = .top)
    (hclose : v.trimStart.head? = some '(' → ')' ∈ v)
    (hlen : ∀ modifier rest, read? (x ++ v) = some (modifier, rest) → v.length ≤ rest.length) :
    TopFits x v := by
  intro r hr
  refine ⟨fun hblank hopen => ?_, fun r' hr' => ?_⟩
  · -- A count that opens in the second part would take some of it along.
    obtain ⟨modifier, rest, hread, hlt⟩ := read?_of_open hr hblank hopen (hclose hopen)
    exact absurd (hlen _ _ hread) (Nat.not_le_of_lt hlt)
  · obtain ⟨m, hm, hfold⟩ := exists_of_afterFolded? hr
    obtain ⟨ws, hws, hsplit⟩ := Text.exists_blank_append_trimStart x
    obtain ⟨ws', hws', hsplit'⟩ := Text.exists_blank_append_trimStart r
    refine mem_of_scan_eq_top hs (u := ws ++ (m ++ ws')) (fun c hc => ?_) ?_
    · simp only [List.mem_append] at hc
      rcases hc with hc | hc | hc
      · exact isScanMark_of_isBlank (hws c hc)
      · exact isScanMark_of_map_foldCase (by decide) hfold c hc
      · exact isScanMark_of_isBlank (hws' c hc)
    · rw [← hx, ← hsplit, hm, ← hsplit', hr']
      simp

/-- A row limit that starts in the first part is complete there, if the first part comes back to the
top level and the second part opens no parenthesis. -/
theorem topFits_of_not_open {x v : Text} {s : ScanState} (hs : Watches s) (hx : scan s x = .top)
    (hopen : v.trimStart.head? ≠ some '(') : TopFits x v := by
  have hfits : TopFits x [] :=
    topFits_of_scan hs hx (fun heq => absurd heq (by decide)) fun _ _ _ => Nat.zero_le _
  exact fun r hr => ⟨fun _ => hopen, (hfits r hr).2⟩

end Modifier

namespace Modifiers

/-! ## All modifiers -/

/-- The modifiers at the head of a text are read one after another and added to those so far, until
none follows. -/
inductive Reads : Modifiers → Text → Modifiers → Text → Prop where
  /-- No modifier follows. -/
  | stop {modifiers : Modifiers} {t : Text} (h : Modifier.read? t = Option.none) :
    Reads modifiers t modifiers t
  /-- One modifier is read, and then the others. -/
  | step {modifiers modifiers' : Modifiers} {t rest t' : Text} {modifier : Modifier}
    (h : Modifier.read? t = some (modifier, rest))
    (hrest : Reads (modifier.addTo modifiers) rest modifiers' t') :
    Reads modifiers t modifiers' t'

variable {modifiers modifiers' : Modifiers} {t t' : Text}

/-- The limit on the number of modifiers is high enough. -/
theorem reads_readFrom (modifiers : Modifiers) {limit : Nat} {t : Text} (ht : t.length ≤ limit) :
    Reads modifiers t (readFrom modifiers limit t).1 (readFrom modifiers limit t).2 := by
  induction limit generalizing modifiers t with
  | zero =>
    obtain rfl : t = [] := by simpa using ht
    exact Reads.stop rfl
  | succ limit ih =>
    rw [readFrom]
    cases h : Modifier.read? t with
    | none => exact Reads.stop h
    | some p =>
      obtain ⟨modifier, rest⟩ := p
      obtain ⟨raw, rfl, hraw, -⟩ := Modifier.read?_suffix h
      have hpos := List.length_pos_iff.2 hraw
      rw [List.length_append] at ht
      exact Reads.step h (ih _ (by omega))

theorem Reads.readFrom_eq (h : Reads modifiers t modifiers' t') {limit : Nat}
    (ht : t.length ≤ limit) : readFrom modifiers limit t = (modifiers', t') := by
  induction h generalizing limit with
  | stop h =>
    cases limit with
    | zero => rfl
    | succ limit => rw [readFrom, h]
  | @step _ _ t _ _ _ h _ ih =>
    obtain ⟨raw, rfl, hraw, -⟩ := Modifier.read?_suffix h
    have hpos := List.length_pos_iff.2 hraw
    rw [List.length_append] at ht
    cases limit with
    | zero => omega
    | succ limit =>
      rw [readFrom, h]
      exact ih (by omega)

theorem read_eq_iff : read t = (modifiers, t') ↔ Reads none t modifiers t' := by
  constructor
  · intro h
    have hreads := reads_readFrom none (Nat.le_refl t.length)
    rw [read] at h
    rwa [h] at hreads
  · intro h
    exact h.readFrom_eq (Nat.le_refl _)

theorem reads_read (t : Text) : Reads none t (read t).1 (read t).2 := read_eq_iff.1 rfl

theorem Reads.suffix (h : Reads modifiers t modifiers' t') : t' <:+ t := by
  induction h with
  | stop => exact List.suffix_rfl
  | step h _ ih =>
    obtain ⟨raw, rfl, -⟩ := Modifier.read?_suffix h
    exact ih.trans (List.suffix_append _ _)

/-- The modifiers of a text in two parts do not depend on the second part, as long as they leave it
alone. -/
theorem Reads.congr {x v v' : Text} (h : Reads modifiers (x ++ v) modifiers' t')
    (hlen : v.length ≤ t'.length) (hv : Seam x v) (hv' : Seam x v')
    (hopen : v'.trimStart.head? = some '(' → v.trimStart.head? = some '(')
    (hclose : v.trimStart.head? = some '(' → ')' ∈ v) {s : ScanState} (hs : Modifier.Watches s)
    (hx : scan s x = .top) :
    ∃ y, y <:+ x ∧ t' = y ++ v ∧ Reads modifiers (x ++ v') modifiers' (y ++ v') := by
  -- The state in which a modifier starts may be inside a quote, but then inside parentheses too.
  generalize ht : x ++ v = t at h
  induction h generalizing x s with
  | stop h =>
    subst ht
    have hfits : Modifier.TopFits x v :=
      Modifier.topFits_of_scan hs hx hclose fun _ _ hread => by simp [h] at hread
    have hfits' : Modifier.TopFits x v' := fun r hr =>
      ⟨fun hblank hopen' => (hfits r hr).1 hblank (hopen hopen'), (hfits r hr).2⟩
    rw [Modifier.read?_append hv hfits, Option.map_eq_none_iff] at h
    refine ⟨x, List.suffix_rfl, rfl, Reads.stop ?_⟩
    rw [Modifier.read?_append hv' hfits', h]
    rfl
  | @step _ _ _ rest t' modifier h hrest ih =>
    subst ht
    have hle : v.length ≤ rest.length := hlen.trans hrest.suffix.length_le
    have hfits : Modifier.TopFits x v :=
      Modifier.topFits_of_scan hs hx hclose fun _ rest' hread => by
        rw [h, Option.some.injEq, Prod.mk.injEq] at hread
        rwa [← hread.2]
    have hfits' : Modifier.TopFits x v' := fun r hr =>
      ⟨fun hblank hopen' => (hfits r hr).1 hblank (hopen hopen'), (hfits r hr).2⟩
    rw [Modifier.read?_append hv hfits, Option.map_eq_some_iff] at h
    obtain ⟨⟨modifier', y⟩, hread, heq⟩ := h
    obtain ⟨rfl, rfl⟩ : modifier' = modifier ∧ y ++ v = rest := by simpa using heq
    -- What was read leaves the scan in a state that watches its parentheses as well.
    obtain ⟨raw, hraw, -, hisRaw⟩ := Modifier.read?_suffix hread
    have hsuffix : y <:+ x := ⟨raw, hraw.symm⟩
    rw [hraw, scan_append] at hx
    obtain ⟨z, hz, ht', hreads⟩ := ih hlen (hv.of_suffix hsuffix) (hv'.of_suffix hsuffix)
      (hisRaw.watches_scan hs) hx rfl
    refine ⟨z, hz.trans hsuffix, ht', Reads.step ?_ hreads⟩
    rw [Modifier.read?_append hv' hfits', hread]
    rfl

/-- Modifiers that start in the first part of a text in two parts are read there. -/
theorem Reads.exists_of_append {x v : Text} (h : Reads modifiers (x ++ v) modifiers' t')
    (hv : Seam x v) (hopen : v.trimStart.head? ≠ some '(') {s : ScanState}
    (hs : Modifier.Watches s) (hx : scan s x = .top) :
    ∃ y, t' = y ++ v ∧ Reads modifiers x modifiers' y := by
  -- Induction on the reading; what is left of `x` is still read from a state that watches for
  -- marks.
  generalize ht : x ++ v = t at h
  induction h generalizing x s with
  | stop h =>
    subst ht
    rw [Modifier.read?_append hv (Modifier.topFits_of_not_open hs hx hopen),
      Option.map_eq_none_iff] at h
    exact ⟨x, rfl, Reads.stop h⟩
  | step h _ ih =>
    subst ht
    rw [Modifier.read?_append hv (Modifier.topFits_of_not_open hs hx hopen),
      Option.map_eq_some_iff] at h
    obtain ⟨⟨modifier, y⟩, hread, heq⟩ := h
    obtain ⟨rfl, rfl⟩ := Prod.mk.inj heq
    obtain ⟨raw, hraw, -, hisRaw⟩ := Modifier.read?_suffix hread
    rw [hraw, scan_append] at hx
    obtain ⟨z, ht', hreads⟩ :=
      ih (hv.of_suffix ⟨raw, hraw.symm⟩) (hisRaw.watches_scan hs) hx rfl
    exact ⟨z, ht', Reads.step hread hreads⟩

end Modifiers

end LooseSql
