import LooseSql.Scan
import LooseSql.Text.Blank

/-!
# Redundant parentheses

An expression such as `((u.Name))` is wrapped as a whole. `stripParentheses` takes such wrappings
off, together with the blanks inside them.
-/

namespace LooseSql

/-- The text is wrapped as a whole: it starts with `(`, ends with `)`, and nothing but its first
character stands at the top level. -/
def isWrapped (t : Text) : Bool :=
  t.head? == some '(' && t.getLast? == some ')' && (topLevel t).all fun p => p.index == 0

/-- The text without the parentheses that wrap it as a whole. -/
def stripParentheses (t : Text) : Text :=
  if _h : isWrapped t then stripParentheses (Text.trim t.tail.dropLast) else t
  termination_by t.length
  decreasing_by
    have hne : t ≠ [] := by rintro rfl; simp [isWrapped] at _h
    have hpos := List.length_pos_iff.2 hne
    have := Text.length_trim_le t.tail.dropLast
    simp only [List.length_dropLast, List.length_tail] at this
    omega

theorem length_stripParentheses_le (t : Text) : (stripParentheses t).length ≤ t.length := by
  fun_induction stripParentheses t with
  | case1 t h ih =>
    have := Text.length_trim_le t.tail.dropLast
    simp only [List.length_dropLast, List.length_tail] at this
    omega
  | case2 => exact Nat.le_refl _

end LooseSql
