import LooseSql.Text.Blank
import LooseSql.Text.CaseFold
import Mathlib.Data.List.Basic

/-!
# Characters

How the classes of characters lie to one another: a letter from `A` to `z`, a decimal digit, and
whatever folds to a letter are word characters, and a blank is none of these.
-/

namespace LooseSql

/-! ## Statements on all characters of a text

A statement on the characters of a text is decided along the text, and not by going through all
characters there are. -/

instance (priority := high) decidableForallMemText {p : Char → Prop} [DecidablePred p]
    (t : List Char) : Decidable (∀ c ∈ t, p c) :=
  List.decidableBAll p t

instance (priority := high) decidableForallMemChar? {p : Char → Prop} [DecidablePred p]
    (c? : Option Char) : Decidable (∀ c ∈ c?, p c) :=
  Option.decidableForallMem c?

/-! ## Letters and blanks -/

theorem toNat_lt_of_isAlpha {c : Char} (hc : c.isAlpha) : c.toNat < 128 := by
  rcases Bool.or_eq_true_iff.1 hc with hupper | hlower
  · have h := (of_decide_eq_true hupper).2
    exact Nat.lt_of_le_of_lt (UInt32.le_iff_toNat_le.1 h) (by decide)
  · have h := of_decide_eq_true (Bool.and_eq_true_iff.1 hlower).2
    exact Nat.lt_of_le_of_lt (UInt32.le_iff_toNat_le.1 h) (by decide)

/-- Only a letter from `A` to `Z` has another lower case. -/
theorem isAlpha_or_toLower_eq (c : Char) : c.isAlpha ∨ c.toLower = c := by
  by_cases hc : c.isUpper = true
  · exact .inl (Bool.or_eq_true_iff.2 (.inl hc))
  · exact .inr (dif_neg fun h => hc (decide_eq_true h))

/-- A letter from `A` to `z` is a word character. -/
theorem isWordChar_of_isAlpha {c : Char} (hc : c.isAlpha) : isWordChar c = true := by
  simp [isWordChar, isAlphanumeric, isAlphabetic, isTextLetter, toNat_lt_of_isAlpha hc, hc]

theorem isAlpha_toLower {c : Char} (hc : c.isAlpha) : c.toLower.isAlpha = true := by
  have h : ∀ n < 128, (Char.ofNat n).isAlpha → (Char.ofNat n).toLower.isAlpha = true := by decide
  simpa using h c.toNat (toNat_lt_of_isAlpha hc) (by simpa using hc)

/-- The upper case of a character is that of its lower case. -/
theorem toUpper_toLower (c : Char) : c.toLower.toUpper = c.toUpper := by
  rcases isAlpha_or_toLower_eq c with halpha | hself
  · have h : ∀ n < 128, (Char.ofNat n).toLower.toUpper = (Char.ofNat n).toUpper := by decide
    rw [← Char.ofNat_toNat c]
    exact h c.toNat (toNat_lt_of_isAlpha halpha)
  · rw [hself]

theorem isBlank_of_isAlpha {c : Char} (hc : c.isAlpha) : isBlank c = false := by
  have h : ∀ n < 128, (Char.ofNat n).isAlpha → isBlank (Char.ofNat n) = false := by decide
  simpa using h c.toNat (toNat_lt_of_isAlpha hc) (by simpa using hc)

/-- The code points of the blanks. -/
def blankCodes : List Nat :=
  [0x20, 0x85, 0xA0, 0x1680, 0x2028, 0x2029, 0x202F, 0x205F, 0x3000] ++ List.range' 9 5
    ++ List.range' 0x2000 11

theorem toNat_mem_blankCodes {c : Char} (hc : isBlank c) : c.toNat ∈ blankCodes := by
  simp only [isBlank, Bool.or_eq_true, Bool.and_eq_true, decide_eq_true_eq, beq_iff_eq] at hc
  simp only [blankCodes, List.mem_append, List.mem_cons, List.not_mem_nil, List.mem_range'_1]
  omega

/-- A blank is no word character. -/
theorem isWordChar_of_isBlank {c : Char} (hc : isBlank c) : isWordChar c = false := by
  have h : ∀ n ∈ blankCodes, isWordChar (Char.ofNat n) = false := by decide +kernel
  simpa using h c.toNat (toNat_mem_blankCodes hc)

/-- A blank is no word character of text matching. -/
theorem isTextWordChar_of_isBlank {c : Char} (hc : isBlank c) : isTextWordChar c = false := by
  have h : ∀ n ∈ blankCodes, isTextWordChar (Char.ofNat n) = false := by decide +kernel
  simpa using h c.toNat (toNat_mem_blankCodes hc)

/-- A letter from `A` to `z` is a word character of text matching. -/
theorem isTextWordChar_of_isAlpha {c : Char} (hc : c.isAlpha) : isTextWordChar c = true := by
  simp [isTextWordChar, toNat_lt_of_isAlpha hc, hc]

/-- What agrees with a letter up to its case is a letter. -/
theorem isAlpha_of_toLower_eq {c w : Char} (h : c.toLower = w.toLower) (hw : w.isAlpha) :
    c.isAlpha := by
  rcases isAlpha_or_toLower_eq c with hc | hself
  · exact hc
  · rw [← hself, h]
    exact isAlpha_toLower hw

/-! ## Digits and folded letters -/

/-- A decimal digit is a word character. -/
theorem isWordChar_of_isDecimalDigit {c : Char} (hc : isDecimalDigit c) : isWordChar c = true := by
  simp [isWordChar, isAlphanumeric, isNumeric, hc]

/-- A digit from `0` to `9` is a decimal digit. -/
theorem isDecimalDigit_of_isDigit {c : Char} (hc : c.isDigit) : isDecimalDigit c = true := by
  have hlt : c.toNat < 128 := by
    simp only [Char.isDigit, Bool.and_eq_true, decide_eq_true_eq] at hc
    exact Nat.lt_of_le_of_lt (UInt32.le_iff_toNat_le.1 hc.2) (by decide)
  simp [isDecimalDigit, hlt, hc]

theorem isDecimalDigit_of_isAlpha {c : Char} (hc : c.isAlpha) : isDecimalDigit c = false := by
  have h : ∀ n < 128, (Char.ofNat n).isAlpha → isDecimalDigit (Char.ofNat n) = false := by
    decide +kernel
  simpa using h c.toNat (toNat_lt_of_isAlpha hc) (by simpa using hc)

/-- A letter from `A` to `z` folds to its lower case. -/
theorem foldCase_of_isAlpha {c : Char} (hc : c.isAlpha) : foldCase c = c.toLower := by
  have hlt := toNat_lt_of_isAlpha hc
  have hs : c.toNat ≠ 0x17F := by omega
  have hk : c.toNat ≠ 0x212A := by omega
  simp [foldCase, hs, hk]

/-- Besides the letters from `A` to `z`, two characters fold to a letter: the long s and the Kelvin
sign. -/
theorem isAlpha_or_of_isAlpha_foldCase {c : Char} (hc : (foldCase c).isAlpha) :
    c.isAlpha ∨ c.toNat = 0x17F ∨ c.toNat = 0x212A := by
  by_cases hs : c.toNat = 0x17F
  · exact .inr (.inl hs)
  · by_cases hk : c.toNat = 0x212A
    · exact .inr (.inr hk)
    · have hlower : foldCase c = c.toLower := by simp [foldCase, hs, hk]
      rw [hlower] at hc
      rcases isAlpha_or_toLower_eq c with halpha | hself
      · exact .inl halpha
      · exact .inl (by rwa [hself] at hc)

/-- A character that folds to a letter is a word character. -/
theorem isWordChar_of_isAlpha_foldCase {c : Char} (hc : (foldCase c).isAlpha) :
    isWordChar c = true := by
  have hfold : ∀ n ∈ [0x17F, 0x212A], isWordChar (Char.ofNat n) = true := by decide +kernel
  rcases isAlpha_or_of_isAlpha_foldCase hc with halpha | hcode
  · exact isWordChar_of_isAlpha halpha
  · simpa using hfold c.toNat (by simpa using hcode)

/-- A character that folds to a letter is a word character of text matching. -/
theorem isTextWordChar_of_isAlpha_foldCase {c : Char} (hc : (foldCase c).isAlpha) :
    isTextWordChar c = true := by
  have hfold : ∀ n ∈ [0x17F, 0x212A], isTextWordChar (Char.ofNat n) = true := by decide +kernel
  rcases isAlpha_or_of_isAlpha_foldCase hc with halpha | hcode
  · exact isTextWordChar_of_isAlpha halpha
  · simpa using hfold c.toNat (by simpa using hcode)

/-- A character that folds to a letter is no blank. -/
theorem isBlank_of_isAlpha_foldCase {c : Char} (hc : (foldCase c).isAlpha) : isBlank c = false := by
  by_contra hblank
  have hword := isWordChar_of_isAlpha_foldCase hc
  rw [isWordChar_of_isBlank (by simpa using hblank)] at hword
  cases hword

end LooseSql
