import LooseSql.Column.Parentheses
import LooseSql.Condition.Basic
import LooseSql.Split.Predicates

/-!
# The conditions of a WHERE clause

A WHERE clause joins predicates by AND and OR. `Condition.collect` gives those that are simple
conditions, in order. A predicate in parentheses that joins others is opened; a predicate of any
other kind (`NOT (..)`, `EXISTS (..)`, `a BETWEEN 1 AND 2`) is left out.
-/

namespace LooseSql

namespace Condition

/-- The predicate is a group: in redundant parentheses it joins several predicates. -/
def IsGroup (predicate : Text) : Prop :=
  (stripParentheses predicate).length < predicate.length ∧
    1 < (predicates (stripParentheses predicate)).length

instance (predicate : Text) : Decidable (IsGroup predicate) :=
  inferInstanceAs (Decidable (_ ∧ _))

/-- The simple conditions in a text of predicates that are joined by AND and OR, in order. -/
def collect (t : Text) : List Condition :=
  (predicates t).attach.flatMap fun ⟨predicate, _mem⟩ =>
    if _h : IsGroup predicate then collect (stripParentheses predicate)
    else (parse? (stripParentheses predicate)).toList
  termination_by t.length
  decreasing_by exact Nat.lt_of_lt_of_le _h.1 (length_le_of_mem_predicates _mem)

end Condition

end LooseSql
