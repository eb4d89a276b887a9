import LooseSql.Split.Items
import LooseSql.Text.CharClass

/-!
# Predicates of a condition

A condition is cut at the words AND and OR that stand at its top level. A connective is a whole
word with a blank or an end of the text on both sides, so that `x=1 AND(y=2)` stays whole. The
AND that belongs to a BETWEEN is not a connective: after a BETWEEN the next AND is passed over.
-/

namespace LooseSql

/-- The words that matter to the cutting of a condition. -/
inductive PredicateWord where
  | between
  | and
  | or
  deriving DecidableEq, Repr

/-- The meaning of a word, in any case of its letters. -/
def PredicateWord.ofText? (word : Text) : Option PredicateWord :=
  if word.sameIgnoringCase "BETWEEN".toList then some .between
  else if word.sameIgnoringCase "AND".toList then some .and
  else if word.sameIgnoringCase "OR".toList then some .or
  else none

/-- The word that starts at a place: a letter with no word character before it, and the word
characters that follow. -/
def Place.word? (p : Place) : Option Text :=
  if isAlphabetic p.char && !p.before.any isWordChar then some (p.rest.takeWhile isWordChar)
  else none

/-- A blank or an end of the text stands on both sides of the word that starts at the place. -/
def Place.isSpaced (p : Place) (word : Text) : Bool :=
  p.before.all isBlank && (p.rest.drop word.length).head?.all isBlank

/-- The spans of the connectives among the places, in order. `passed` is the place up to which
words have been read, and `pending` tells that a BETWEEN waits for its AND. -/
def connectivesFrom (passed : Nat) (pending : Bool) : List Place → List Span
  | [] => []
  | p :: places =>
    -- Places inside a word that was read already start no word of their own.
    match if p.index < passed then none else p.word? with
    | none => connectivesFrom passed pending places
    | some word =>
      let next := p.index + word.length
      match PredicateWord.ofText? word with
      | none => connectivesFrom next pending places
      | some .between => connectivesFrom next true places
      | some w =>
        -- A word that is not spaced leaves a pending BETWEEN as it is.
        if !p.isSpaced word then connectivesFrom next pending places
        else if w = .and ∧ pending then connectivesFrom next false places
        else ⟨p.index, next⟩ :: connectivesFrom next false places

/-- The connectives of a condition: the spans of the AND and OR words that join its
predicates. -/
def connectives (t : Text) : List Span := connectivesFrom 0 false (topLevel t)

/-- The pieces of `t` from the place `start` on that lie between the spans. -/
def piecesBetween (t : Text) (start : Nat) : List Span → List Text
  | [] => [t.drop start]
  | cut :: cuts => Span.slice ⟨start, cut.start⟩ t :: piecesBetween t cut.stop cuts

theorem length_le_of_mem_piecesBetween {t piece : Text} {start : Nat} {cuts : List Span}
    (h : piece ∈ piecesBetween t start cuts) : piece.length ≤ t.length := by
  induction cuts generalizing start with
  | nil => simp only [piecesBetween, List.mem_singleton] at h; subst h; simp
  | cons cut cuts ih =>
    simp only [piecesBetween, List.mem_cons] at h
    rcases h with rfl | h
    · simp only [Span.slice, List.length_take, List.length_drop]
      omega
    · exact ih h

/-- The pieces of a condition between its connectives, as they stand in the text. -/
def rawPredicates (t : Text) : List Text := piecesBetween t 0 (connectives t)

/-- The predicates of a condition: its pieces, trimmed, without the blank ones. -/
def predicates (t : Text) : List Text := fragments (rawPredicates t)

theorem length_le_of_mem_predicates {t predicate : Text} (h : predicate ∈ predicates t) :
    predicate.length ≤ t.length := by
  simp only [predicates, fragments, List.mem_filter, List.mem_map] at h
  obtain ⟨⟨piece, hpiece, rfl⟩, -⟩ := h
  exact Nat.le_trans (Text.length_trim_le piece) (length_le_of_mem_piecesBetween hpiece)

end LooseSql
