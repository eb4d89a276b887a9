import LooseSql.Text.After
import Mathlib.Data.List.Basic

/-!
# What follows a mark in a text of two parts

`afterNextMark?` stops at the first mark, so what stands behind a text that holds the mark does not
matter to it (`afterNextMark?_append`).
-/

namespace LooseSql

namespace Text

theorem before_append (raw rest : Text) : before (raw ++ rest) rest = raw := by
  rw [before, List.length_append, Nat.add_sub_cancel, List.take_left]

/-- The part in front of the rest is the same with more text behind both. -/
theorem before_append_append (t rest v : Text) : before (t ++ v) (rest ++ v) = t.before rest := by
  rw [before, before, List.length_append, List.length_append, Nat.add_sub_add_right,
    List.take_append_of_le_length (Nat.sub_le _ _)]

/-- A run of characters of one class ends where a character of another class follows. -/
theorem span_append {inRun : Char → Bool} {t rest : Text} (ht : ∀ c ∈ t, inRun c = true)
    (hrest : ∀ c ∈ rest.head?, inRun c = false) :
    (t ++ rest).takeWhile inRun = t ∧ (t ++ rest).dropWhile inRun = rest := by
  rw [List.takeWhile_append_of_pos ht, List.dropWhile_append_of_pos ht]
  cases rest with
  | nil => simp
  | cons c rest => simp [hrest c rfl]

/-- A list of texts that are joined is the first one, and each other one with the gap before it. -/
theorem joinWith_cons (gap t : Text) (ts : List Text) :
    joinWith gap (t :: ts) = t ++ ts.flatMap (gap ++ ·) := by
  induction ts generalizing t with
  | nil => simp [joinWith]
  | cons u ts ih =>
    have h := ih u
    rw [joinWith] at h
    rw [joinWith, List.intersperse_cons_cons, List.flatten_cons, List.flatten_cons, h,
      List.flatMap_cons, List.append_assoc]

end Text

variable {mark : Char}

/-- What stands in front of the next mark holds no mark. -/
theorem afterNextMark?_eq_some_iff {t rest : Text} : afterNextMark? mark t = some rest ↔
    ∃ inner : Text, mark ∉ inner ∧ t = inner ++ mark :: rest := by
  induction t with
  | nil => simp [afterNextMark?]
  | cons c t ih =>
    rw [afterNextMark?]
    -- The first mark ends what is passed over.
    by_cases hc : c = mark
    · subst hc
      rw [if_pos rfl, Option.some.injEq]
      constructor
      · rintro rfl
        exact ⟨[], by simp, rfl⟩
      · rintro ⟨inner, hinner, ht⟩
        cases inner with
        | nil => simpa using ht
        | cons d inner => exact absurd (by simp_all) hinner
    · rw [if_neg hc, ih]
      constructor
      · rintro ⟨inner, hinner, rfl⟩
        exact ⟨c :: inner, by simp [hinner, Ne.symm hc], rfl⟩
      · rintro ⟨inner, hinner, ht⟩
        cases inner with
        | nil => exact absurd (by simpa using congrArg List.head? ht) hc
        | cons d inner =>
          obtain ⟨rfl, rfl⟩ : c = d ∧ t = inner ++ mark :: rest := by simpa using ht
          exact ⟨inner, fun hmem => hinner (by simp [hmem]), rfl⟩

theorem afterNextMark?_isSome_iff {t : Text} : (afterNextMark? mark t).isSome ↔ mark ∈ t := by
  induction t with
  | nil => simp [afterNextMark?]
  | cons c t ih =>
    rw [afterNextMark?]
    by_cases hc : c = mark
    · simp [hc]
    · rw [if_neg hc, ih]
      simp [Ne.symm hc]

theorem afterNextMark?_eq_none_iff {t : Text} : afterNextMark? mark t = none ↔ mark ∉ t := by
  rw [← afterNextMark?_isSome_iff, Option.not_isSome_iff_eq_none]

/-- A mark in the first part is found there. -/
theorem afterNextMark?_append {x : Text} (hx : mark ∈ x) (v : Text) :
    afterNextMark? mark (x ++ v) = (afterNextMark? mark x).map (· ++ v) := by
  obtain ⟨rest, hrest⟩ := Option.isSome_iff_exists.1 (afterNextMark?_isSome_iff.2 hx)
  rw [hrest, Option.map_some]
  obtain ⟨inner, hinner, rfl⟩ := afterNextMark?_eq_some_iff.1 hrest
  exact afterNextMark?_eq_some_iff.2 ⟨inner, hinner, by simp⟩

/-- The next mark stands where the longest stretch without marks ends. -/
theorem afterNextMark?_eq_dropWhile (t : Text) :
    afterNextMark? mark t = match t.dropWhile (· != mark) with
      | _ :: rest => some rest
      | [] => none := by
  induction t with
  | nil => rfl
  | cons c t ih =>
    rw [afterNextMark?]
    by_cases hc : c = mark
    · rw [if_pos hc, List.dropWhile_cons_of_neg (by simp [hc])]
    · rw [if_neg hc, ih, List.dropWhile_cons_of_pos (by simp [hc])]

end LooseSql
