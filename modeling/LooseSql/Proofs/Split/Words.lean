import LooseSql.Proofs.Keyword.Seam
import LooseSql.Proofs.Scan
import LooseSql.Split.Predicates

/-!
# Words of a condition

Where the words BETWEEN, AND and OR stand in a text, told without a run over its places
(`PredicateWord.StandsAt`): in any case of their letters, at the top level, BETWEEN as a whole word
and the other two with blanks or the ends of the text around them.

* `PredicateWord.StandsAt.stop_le_start`: these words do not overlap;
* `PredicateWord.StandsAt.word_eq`: one word stands at a span;
* `PredicateWord.standsAt_append_iff`: a word in a part of a longer text, with blanks around it.
-/

namespace LooseSql

namespace PredicateWord

/-- The word in capitals. -/
def spelling : PredicateWord → Text
  | between => "BETWEEN".toList
  | and => "AND".toList
  | or => "OR".toList

/-- What may stand next to the word: no word character next to BETWEEN, and only a blank or an end
of the text next to AND and OR. -/
def mayTouch : PredicateWord → Option Char → Bool
  | between, c? => !c?.any isWordChar
  | _, c? => c?.all isBlank

/-- The word stands in the text at the span: in any case of its letters, at the top level, and with
nothing next to it that it may not touch. -/
def StandsAt (w : PredicateWord) (t : Text) (s : Span) : Prop :=
  ∃ u word v : Text, t = u ++ (word ++ v) ∧ s = ⟨u.length, u.length + word.length⟩ ∧
    word.sameIgnoringCase w.spelling = true ∧ u.IsClosed ∧ w.mayTouch u.getLast? = true ∧
    w.mayTouch v.head? = true

theorem ofText?_eq_some_iff {word : Text} {w : PredicateWord} :
    ofText? word = some w ↔ word.sameIgnoringCase w.spelling = true := by
  constructor
  · intro h
    unfold ofText? at h
    split at h
    · next hword => cases h; exact hword
    · split at h
      · next hword => cases h; exact hword
      · split at h
        · next hword => cases h; exact hword
        · cases h
  · intro h
    have hword : word.map Char.toLower = w.spelling.map Char.toLower := beq_iff_eq.1 h
    -- The three words differ, so only its own test succeeds.
    unfold ofText? Text.sameIgnoringCase
    rw [hword]
    cases w <;> decide

variable {w w' : PredicateWord} {c? : Option Char} {word : Text}

theorem isAlpha_of_sameIgnoringCase (h : word.sameIgnoringCase w.spelling = true) :
    ∀ c ∈ word, c.isAlpha = true := by
  refine Keyword.isAlpha_of_map_toLower_eq (beq_iff_eq.1 h) ?_
  cases w <;> decide

theorem ne_nil_of_sameIgnoringCase (h : word.sameIgnoringCase w.spelling = true) : word ≠ [] := by
  rintro rfl
  revert h
  cases w <;> decide

theorem mayTouch_of_blank (h : c?.all isBlank = true) : w.mayTouch c? = true := by
  cases w with
  | between =>
    cases c? with
    | none => rfl
    | some c => simp [mayTouch, isWordChar_of_isBlank h]
  | and => exact h
  | or => exact h

theorem blank_of_mayTouch (hw : w ≠ .between) (h : w.mayTouch c? = true) :
    c?.all isBlank = true := by
  cases w with
  | between => exact absurd rfl hw
  | and => exact h
  | or => exact h

theorem isWordChar_of_mayTouch (h : w.mayTouch c? = true) : c?.any isWordChar = false := by
  by_cases hw : w = .between
  · subst hw
    simpa [mayTouch] using h
  · have hblank := blank_of_mayTouch hw h
    cases c? with
    | none => rfl
    | some c => exact isWordChar_of_isBlank hblank

namespace StandsAt

variable {t : Text} {s s' : Span}

theorem start_lt_stop (h : w.StandsAt t s) : s.start < s.stop := by
  obtain ⟨u, word, v, -, rfl, hword, -⟩ := h
  exact Nat.lt_add_of_pos_right (List.length_pos_iff.2 (ne_nil_of_sameIgnoringCase hword))

theorem stop_le_length (h : w.StandsAt t s) : s.stop ≤ t.length := by
  obtain ⟨u, word, v, rfl, rfl, -⟩ := h
  simp only [List.length_append]
  omega

theorem isClosed_start (h : w.StandsAt t s) : Text.IsClosed (t.take s.start) := by
  obtain ⟨u, word, v, rfl, rfl, -, hu, -⟩ := h
  rwa [List.take_left]

theorem isClosed_stop (h : w.StandsAt t s) : Text.IsClosed (t.take s.stop) := by
  obtain ⟨u, word, v, rfl, rfl, hword, hu, -⟩ := h
  rw [← List.append_assoc, List.take_left' (by simp), Text.IsClosed, scan_append, hu.scan_eq]
  exact scan_of_not_mark (fun c hc =>
    isScanMark_of_isAlpha (isAlpha_of_sameIgnoringCase hword c hc)) .top

/-- Two words do not overlap: no word starts inside another one. -/
theorem stop_le_start (h : w.StandsAt t s) (h' : w'.StandsAt t s') (hlt : s.start < s'.start) :
    s.stop ≤ s'.start := by
  obtain ⟨u, word, v, ht, rfl, hword, -⟩ := h
  obtain ⟨u', word', v', ht', rfl, -, -, htouch, -⟩ := h'
  by_contra hle
  -- The second word starts behind a part of the first one, so behind a letter.
  obtain ⟨a, rfl⟩ : ∃ a, u' = u ++ a := by
    rcases List.append_eq_append_iff.1 (ht.symm.trans ht') with ⟨a, ha, -⟩ | ⟨a, rfl, -⟩
    · exact ⟨a, ha⟩
    · simp only [List.length_append] at hlt
      omega
  rw [ht, List.append_assoc] at ht'
  simp only [List.length_append] at hlt hle
  rcases List.append_eq_append_iff.1 (List.append_cancel_left ht') with ⟨b, rfl, -⟩ | ⟨b, rfl, -⟩
  · simp only [List.length_append] at hle
    omega
  · have hne : a ≠ [] := by
      rintro rfl
      simp at hlt
    have hletter := isAlpha_of_sameIgnoringCase hword (a.getLast hne)
      (List.mem_append_left b (List.getLast_mem hne))
    have hblank := isWordChar_of_mayTouch htouch
    rw [List.getLast?_append, List.getLast?_eq_some_getLast hne] at hblank
    simp [isWordChar_of_isAlpha hletter] at hblank

/-- One word stands at a span. -/
theorem word_eq (h : w.StandsAt t s) (h' : w'.StandsAt t s) : w = w' := by
  obtain ⟨u, word, v, ht, rfl, hword, -⟩ := h
  obtain ⟨u', word', v', ht', hs, hword', -⟩ := h'
  simp only [Span.mk.injEq] at hs
  obtain ⟨rfl, htail⟩ := List.append_inj (ht.symm.trans ht') hs.1
  obtain ⟨rfl, -⟩ := List.append_inj htail (by omega)
  exact Option.some.inj
    ((ofText?_eq_some_iff.2 hword).symm.trans (ofText?_eq_some_iff.2 hword'))

/-- A word does not start in blanks. -/
theorem length_le_start {a ws z : Text} (h : w.StandsAt (a ++ (ws ++ z)) s)
    (hws : ∀ c ∈ ws, isBlank c = true) (hs : a.length ≤ s.start) : (a ++ ws).length ≤ s.start := by
  obtain ⟨u, word, v, ht, rfl, hword, -⟩ := h
  by_contra hlt
  simp only [List.length_append] at hs hlt
  obtain ⟨c, word, rfl⟩ := List.exists_cons_of_ne_nil (ne_nil_of_sameIgnoringCase hword)
  have hchar : (a ++ (ws ++ z))[u.length]? = some c := by simp [ht]
  rw [List.getElem?_append_right hs, List.getElem?_append_left (by omega)] at hchar
  have hblank := hws c (List.mem_of_getElem? hchar)
  have hletter := isAlpha_of_sameIgnoringCase hword c List.mem_cons_self
  rw [isBlank_of_isAlpha hletter] at hblank
  cases hblank

theorem mayTouch_getLast? (h : w.StandsAt t s) : w.mayTouch (t.take s.start).getLast? = true := by
  obtain ⟨u, word, v, rfl, rfl, -, -, htouch, -⟩ := h
  rwa [List.take_left]

theorem mayTouch_head? (h : w.StandsAt t s) : w.mayTouch (t.drop s.stop).head? = true := by
  obtain ⟨u, word, v, rfl, rfl, -, -, -, htouch⟩ := h
  rwa [← List.append_assoc, List.drop_left' (by simp)]

variable {a f b : Text} (ha : a.IsClosed)

include ha

/-- A word of a part with blanks around it stands in the whole text. -/
theorem append (h : w.StandsAt f s) (hfront : a.getLast?.all isBlank = true)
    (hback : b.head?.all isBlank = true) :
    w.StandsAt (a ++ (f ++ b)) (s.map (a.length + ·)) := by
  obtain ⟨u, word, v, rfl, rfl, hword, hu, htouch, htouch'⟩ := h
  refine ⟨a ++ u, word, v ++ b, by simp, by simp [Span.map, Nat.add_assoc], hword, ?_, ?_, ?_⟩
  · rw [Text.IsClosed, scan_append, ha.scan_eq, hu.scan_eq]
  · rw [List.getLast?_append]
    cases hlast : u.getLast? with
    | none => exact mayTouch_of_blank hfront
    | some c => rwa [hlast] at htouch
  · rw [List.head?_append]
    cases hhead : v.head? with
    | none => exact mayTouch_of_blank hback
    | some c => rwa [hhead] at htouch'

/-- A word of the whole text that lies in a part stands in the part. -/
theorem of_append (h : w.StandsAt (a ++ (f ++ b)) (s.map (a.length + ·)))
    (hstop : s.stop ≤ f.length) : w.StandsAt f s := by
  obtain ⟨u, word, v, ht, hs, hword, hu, htouch, htouch'⟩ := h
  obtain ⟨start, stop⟩ := s
  simp only [Span.map, Span.mk.injEq] at hs hstop
  -- What stands in front of the word and behind it goes beyond the part.
  obtain ⟨u, rfl⟩ : ∃ x, u = a ++ x := by
    rcases List.append_eq_append_iff.1 ht with ⟨x, hx, -⟩ | ⟨x, rfl, -⟩
    · exact ⟨x, hx⟩
    · rw [List.length_append] at hs
      exact ⟨[], by simp [List.length_eq_zero_iff.1 (show x.length = 0 by omega)]⟩
  rw [List.append_assoc] at ht
  have hpart := List.append_cancel_left ht
  rw [← List.append_assoc] at hpart
  simp only [List.length_append] at hs
  obtain ⟨v, rfl, rfl⟩ : ∃ x, f = (u ++ word) ++ x ∧ v = x ++ b := by
    rcases List.append_eq_append_iff.1 hpart with ⟨x, hx, rfl⟩ | ⟨x, hx, hv⟩
    · have hlen := congrArg List.length hx
      simp only [List.length_append] at hlen
      obtain rfl : x = [] := List.length_eq_zero_iff.1 (by omega)
      exact ⟨[], by simpa using hx.symm, rfl⟩
    · exact ⟨x, hx, hv⟩
  refine ⟨u, word, v, by simp, ?_, hword, ?_, ?_, ?_⟩
  · simp only [Span.mk.injEq]
    omega
  · rwa [Text.IsClosed, scan_append, ha.scan_eq] at hu
  · cases hlast : u.getLast? with
    | none => exact mayTouch_of_blank rfl
    | some c => rwa [List.getLast?_append, hlast] at htouch
  · cases hhead : v.head? with
    | none => exact mayTouch_of_blank rfl
    | some c => rwa [List.head?_append, hhead] at htouch'

end StandsAt

/-- A word of a longer text stands in a part of it just as it does in the whole, if the text in
front of the part is closed and blanks stand around the part. -/
theorem standsAt_append_iff {a f b : Text} (ha : a.IsClosed)
    (hfront : a.getLast?.all isBlank = true) (hback : b.head?.all isBlank = true) {s : Span} :
    w.StandsAt f s ↔
      w.StandsAt (a ++ (f ++ b)) (s.map (a.length + ·)) ∧ s.stop ≤ f.length :=
  ⟨fun h => ⟨h.append ha hfront hback, h.stop_le_length⟩, fun h => h.1.of_append ha h.2⟩

end PredicateWord

end LooseSql
