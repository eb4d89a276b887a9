import LooseSql.Text.Offset
import Mathlib.Data.List.Basic

/-!
# Places and bytes

Places and byte offsets are in the same order, and every place of a text is found again from its
byte offset (`Text.placeOfByte?_byteOffset`): a byte offset that comes from a place never falls
inside a character.
-/

namespace LooseSql.Text

@[simp]
theorem byteLength_nil : byteLength [] = 0 := rfl

@[simp]
theorem byteLength_cons (c : Char) (t : Text) :
    byteLength (c :: t) = c.utf8Size + byteLength t := rfl

@[simp]
theorem byteLength_append (u w : Text) : byteLength (u ++ w) = byteLength u + byteLength w := by
  induction u with
  | nil => rw [List.nil_append, byteLength_nil, Nat.zero_add]
  | cons c u ih => rw [List.cons_append, byteLength_cons, ih, byteLength_cons, Nat.add_assoc]

/-- The bytes in front of a place, counted in two parts. -/
theorem byteOffset_add (t : Text) (i n : Nat) :
    byteOffset t (i + n) = byteOffset t i + byteLength ((t.drop i).take n) := by
  rw [byteOffset, List.take_add, byteLength_append]
  rfl

/-- A text that is not empty takes some bytes. -/
theorem byteLength_pos {t : Text} (ht : t ≠ []) : 0 < byteLength t := by
  cases t with
  | nil => exact absurd rfl ht
  | cons c t => exact Nat.add_pos_left c.utf8Size_pos _

/-- Characters below 128 take one byte each. -/
theorem byteLength_eq_length {t : Text} (ht : ∀ c ∈ t, c.toNat < 128) :
    byteLength t = t.length := by
  induction t with
  | nil => rfl
  | cons c t ih =>
    have hc : c.utf8Size = 1 := by
      rw [Char.utf8Size, if_pos]
      exact UInt32.le_iff_toNat_le.2 (Nat.le_of_lt_succ (ht c (by simp)))
    rw [byteLength_cons, hc, ih fun d hd => ht d (by simp [hd]), List.length_cons, Nat.add_comm]

/-- Two places of a text are in the same order as their bytes. -/
theorem byteOffset_lt_byteOffset {t : Text} {i j : Nat} (hij : i < j) (hj : j ≤ t.length) :
    byteOffset t i < byteOffset t j := by
  obtain ⟨n, rfl⟩ := Nat.exists_eq_add_of_lt hij
  rw [Nat.add_assoc, byteOffset_add]
  refine Nat.lt_add_of_pos_right (byteLength_pos ?_)
  intro hnil
  have hlen := congrArg List.length hnil
  rw [List.length_take, List.length_drop, List.length_nil] at hlen
  omega

theorem byteOffset_le_byteLength (t : Text) (i : Nat) : byteOffset t i ≤ byteLength t := by
  have hsplit : byteLength t = byteLength (t.take i) + byteLength (t.drop i) := by
    rw [← byteLength_append, List.take_append_drop]
  rw [hsplit]
  exact Nat.le_add_right _ _

/-- A character starts, or the text ends, at the byte offset of every place. -/
theorem placeOfByte?_byteOffset {t : Text} {i : Nat} (hi : i ≤ t.length) :
    placeOfByte? t (byteOffset t i) = some i := by
  induction t generalizing i with
  | nil =>
    obtain rfl : i = 0 := by simpa using hi
    rfl
  | cons c t ih =>
    cases i with
    | zero => rfl
    | succ i =>
      have hoffset : byteOffset (c :: t) (i + 1) = c.utf8Size + byteOffset t i := rfl
      obtain ⟨n, hn⟩ := Nat.exists_eq_add_one_of_ne_zero
        (Nat.ne_of_gt (Nat.add_pos_left c.utf8Size_pos (byteOffset t i)))
      rw [hoffset, hn, placeOfByte?, if_pos (by omega), ← hn, Nat.add_sub_cancel_left,
        ih (by simpa using hi)]
      rfl

end LooseSql.Text
