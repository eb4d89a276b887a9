import LooseSql.Proofs.Normalize.Prologue
import Mathlib.Logic.Function.Iterate

/-!
# Normal forms of normal forms

Each step of `normalize` is taken once, and a later step can uncover what an earlier one would have
taken out: of two `USE` statements on one line only the first stands at the start of the line, and a
batch separator in front of the line end `\r\n` has the line for itself only once the text is
trimmed. So the normal form of a text need not be in normal form itself (`normalize_normalize_ne`).

* `trim_normalize`, `afterCtePrologue?_normalize`: no blanks and no prologue are left;
* `normalize_normalize_eq_iff`: what can be left are comments, and commands at the start of a line;
* `exists_normalize_iterate`: repeated, `normalize` comes to rest.
-/

namespace LooseSql

/-! ## What is left in a normal form -/

theorem afterCtePrologue?_normalize (t : Text) : afterCtePrologue? (normalize t) = none := by
  rw [normalize]
  generalize stripBatchSeparators (stripUse (stripComments t)) = x
  rw [stripCtePrologue]
  cases h : afterCtePrologue? x.trim with
  | none => rwa [Option.getD_none, Text.trim_trim]
  | some rest =>
    -- A prologue is taken out up to a word SELECT, so the rest has no blank at its head.
    have hhead := head?_of_afterCtePrologue? h
    have hstart : rest.trimStart = rest := Text.trimStart_eq_self_iff.2 fun c hc =>
      isBlank_of_isAlpha_foldCase (by rw [hhead c hc]; decide)
    rw [Option.getD_some, Text.trim, hstart]
    exact afterCtePrologue?_eq_none fun c hc => hhead c (Text.mem_head?_of_mem_head?_trimEnd hc)

theorem trim_normalize (t : Text) : (normalize t).trim = normalize t :=
  Text.trim_trim _

/-- The normal form of a text is in normal form exactly where no comments are left in it, and no
commands at the start of a line. -/
theorem normalize_normalize_eq_iff (t : Text) :
    normalize (normalize t) = normalize t ↔
      IsUncommented (normalize t) ∧ HasNoCommands true (normalize t) := by
  constructor
  · intro h
    have hcanonical := IsCanonical.of_normalize h
    exact ⟨hcanonical.uncommented, fun y hy =>
      ⟨hcanonical.use_eq y hy, hcanonical.separator_eq y hy⟩⟩
  · -- Blanks around the text and a prologue are never left.
    rintro ⟨huncommented, hcommands⟩
    refine IsCanonical.normalize_eq ⟨huncommented, fun y hy => (hcommands y hy).1,
      fun y hy => (hcommands y hy).2, trim_normalize t⟩ (afterCtePrologue?_normalize t)

/-- Of two `USE` statements on one line the second is left. -/
theorem normalize_normalize_ne :
    normalize (normalize "USE a; USE b; SELECT 1".toList) ≠
      normalize "USE a; USE b; SELECT 1".toList := by
  decide +kernel

/-! ## Repeated normal forms -/

/-- Repeated, `normalize` comes to rest after no more runs than the text has characters. -/
theorem exists_normalize_iterate (t : Text) :
    ∃ n ≤ t.length, normalize (normalize^[n] t) = normalize^[n] t := by
  induction hn : t.length using Nat.strong_induction_on generalizing t with
  | _ n ih =>
    subst hn
    by_cases hfix : normalize t = t
    · exact ⟨0, Nat.zero_le _, hfix⟩
    · -- The normal form is shorter, and its repetitions are those of the text.
      have hlt := length_normalize_lt hfix
      obtain ⟨n, hle, hrest⟩ := ih _ hlt _ rfl
      exact ⟨n + 1, by omega, by simpa only [Function.iterate_succ_apply] using hrest⟩

end LooseSql
