import LooseSql.Proofs.Split.Connectives

/-!
# Predicates between connectives

The run that cuts a condition remembers a pending BETWEEN. Which words cut can be told without it,
by where the words stand in the text: an OR always cuts, and an AND does unless a BETWEEN stands in
front of it with no other AND or OR between the two (`mem_connectives_iff`).

Where a word stands does not depend on the blanks around a text, and a connective ends what waited
in front of it. So a predicate has no connective of its own, and predicates that are joined by OR
come back when the text is cut again (`predicates_partition`).

* `marks`: the words that matter to the cutting, in order;
* `connectives_eq_cutsAmong`: the run is told by the marks;
* `betweenWaits_of_append`: what waits at a place of a predicate stands in the predicate.
-/

namespace LooseSql

/-! ## Marks -/

/-- A word with the span that it stands at. -/
abbrev Mark := PredicateWord × Span

/-- The word that starts at the place, if it matters to the cutting: a BETWEEN, or an AND or OR with
a blank or an end of the text on both sides. -/
def Place.mark? (p : Place) : Option Mark :=
  p.word?.bind fun word =>
    ((PredicateWord.ofText? word).filter fun w => w == .between || p.isSpaced word).map fun w =>
      (w, ⟨p.index, p.index + word.length⟩)

/-- The words of a text that matter to the cutting, in order. -/
def marks (t : Text) : List Mark := (topLevel t).filterMap Place.mark?

/-- A BETWEEN is pending behind the marks: the last one is a BETWEEN, or there is none and a BETWEEN
was pending before. -/
def pendingBehind (pending : Bool) (marks : List Mark) : Bool :=
  marks.getLast?.elim pending fun mark => decide (mark.1 = .between)

/-- The words among the marks that cut, behind a BETWEEN that is pending or not. -/
def cutsAmong (pending : Bool) : List Mark → List Span
  | [] => []
  | (w, s) :: marks =>
    let others := cutsAmong (decide (w = .between)) marks
    if w = .between ∨ w = .and ∧ pending then others else s :: others

namespace Splitter

/-- Where the splitter reads the word at a place, its step is told by the mark there. -/
theorem cuts_cons_of_word?_eq {s : Splitter} {p : Place} (h : s.word? p = p.word?)
    (places : List Place) {others : List Mark}
    (hothers : (s.step p).cuts places = cutsAmong (s.step p).pending others) :
    s.cuts (p :: places) = cutsAmong s.pending (p.mark?.toList ++ others) := by
  rw [cuts_cons, hothers, cut?, step, h, Place.mark?]
  cases p.word? with
  | none => rfl
  | some word =>
    rw [Option.filter_some, Option.elim_some, Option.bind_some, pendingAfter, cuts?]
    rcases hword : PredicateWord.ofText? word with _ | _ | _ | _
    · simp
    · simp [Option.filter_some, cutsAmong]
    · cases hspaced : p.isSpaced word <;> cases hpending : s.pending <;>
        simp [Option.filter_some, cutsAmong]
    · cases hspaced : p.isSpaced word <;> simp [Option.filter_some, cutsAmong]

/-- The words that have been read end in front of the text, or the last one goes on into it. -/
def EndsBefore (s : Splitter) (i : Nat) (before : Option Char) (t : Text) : Prop :=
  s.passed ≤ i ∨ before.any isWordChar = true ∧ s.passed ≤ i + (t.takeWhile isWordChar).length

section EndsBefore

variable {s : Splitter} {i : Nat} {before : Option Char} {c : Char} {t : Text}

/-- What has been read hides no word: none starts inside a word. -/
theorem word?_eq_of_endsBefore (h : s.EndsBefore i before (c :: t)) :
    s.word? ⟨i, before, c, t⟩ = Place.word? ⟨i, before, c, t⟩ := by
  rw [word?]
  split
  · next hlt =>
    have hbefore := (h.resolve_left (Nat.not_le.2 hlt)).1
    simp [Place.word?, hbefore]
  · rfl

theorem EndsBefore.tail (h : s.EndsBefore i before (c :: t)) : s.EndsBefore (i + 1) (some c) t := by
  rcases h with h | ⟨-, h⟩
  · exact .inl (Nat.le_succ_of_le h)
  · cases hc : isWordChar c with
    | true =>
      rw [List.takeWhile_cons_of_pos hc, List.length_cons] at h
      exact .inr ⟨hc, by omega⟩
    | false =>
      rw [List.takeWhile_cons_of_neg (by simp [hc]), List.length_nil] at h
      exact .inl (by omega)

theorem EndsBefore.step (h : s.EndsBefore i before (c :: t)) :
    (s.step ⟨i, before, c, t⟩).EndsBefore (i + 1) (some c) t := by
  rw [Splitter.step, word?_eq_of_endsBefore h]
  cases hword : Place.word? ⟨i, before, c, t⟩ with
  | none => exact h.tail
  | some word =>
    -- The word that is read is the run of word characters from here on.
    obtain ⟨⟨hletter, -⟩, rfl⟩ := Place.word?_eq_some_iff.1 hword
    have hc : isWordChar c = true := by
      change isAlphabetic c = true at hletter
      simp [isWordChar, isAlphanumeric, hletter]
    refine .inr ⟨hc, ?_⟩
    simp only [Option.elim_some, Place.rest, List.takeWhile_cons_of_pos hc, List.length_cons]
    omega

end EndsBefore

/-- A run is told by the marks: it reads every word that starts at one of its places. -/
theorem cuts_eq_cutsAmong {s : Splitter} (state : ScanState) {i : Nat} {before : Option Char}
    {t : Text} (h : s.EndsBefore i before t) : s.cuts (topLevelFrom state i before t) =
      cutsAmong s.pending ((topLevelFrom state i before t).filterMap Place.mark?) := by
  induction t generalizing state i before s with
  | nil => rfl
  | cons c t ih =>
    rw [topLevelFrom]
    split
    · rw [cuts_cons_of_word?_eq (word?_eq_of_endsBefore h) _ (ih _ h.step), List.filterMap_cons]
      cases Place.mark? ⟨i, before, c, t⟩ <;> rfl
    · exact ih _ h.tail

end Splitter

theorem connectives_eq_cutsAmong (t : Text) : connectives t = cutsAmong false (marks t) :=
  Splitter.cuts_eq_cutsAmong (s := .start) .top (.inl (Nat.le_refl 0))

theorem cutsAmong_sublist (pending : Bool) (marks : List Mark) :
    (cutsAmong pending marks).Sublist (marks.map Prod.snd) := by
  induction marks generalizing pending with
  | nil => exact List.Sublist.refl []
  | cons mark marks ih =>
    rw [cutsAmong, List.map_cons]
    split
    · exact (ih _).cons mark.2
    · exact (ih _).cons_cons mark.2

theorem pendingBehind_cons (pending : Bool) (mark : Mark) (marks : List Mark) :
    pendingBehind pending (mark :: marks) =
      pendingBehind (decide (mark.1 = .between)) marks := by
  rw [pendingBehind, pendingBehind, List.getLast?_cons]
  cases marks.getLast? <;> rfl

/-- The first mark cuts unless it is a BETWEEN, or an AND while a BETWEEN is pending. -/
theorem mem_cutsAmong_cons {pending : Bool} {mark : Mark} {marks : List Mark} {s : Span} :
    s ∈ cutsAmong pending (mark :: marks) ↔
      (mark.2 = s ∧ mark.1 ≠ .between ∧ (mark.1 = .and → pending = false)) ∨
        s ∈ cutsAmong (decide (mark.1 = .between)) marks := by
  rw [cutsAmong]
  split
  · next h =>
    refine (or_iff_right fun hcut => ?_).symm
    rcases h with h | ⟨h, hpending⟩
    · exact hcut.2.1 h
    · exact absurd (hpending.symm.trans (hcut.2.2 h)) (by decide)
  · next h =>
    rw [List.mem_cons, eq_comm]
    refine or_congr_left (iff_self_and.2 fun _ => ⟨fun hw => h (.inl hw), fun hw => ?_⟩)
    exact Bool.eq_false_iff.2 fun hpending => h (.inr ⟨hw, hpending⟩)

/-- A word among the marks cuts unless it is a BETWEEN, or an AND with a BETWEEN as its neighbour in
front. -/
theorem mem_cutsAmong {pending : Bool} {marks : List Mark} {s : Span} :
    s ∈ cutsAmong pending marks ↔ ∃ front w back, marks = front ++ (w, s) :: back ∧ w ≠ .between ∧
      (w = .and → pendingBehind pending front = false) := by
  induction marks generalizing pending with
  | nil => simp [cutsAmong]
  | cons mark marks ih =>
    rw [mem_cutsAmong_cons, ih]
    -- A mark that cuts is the first one, or stands among the others with the first one in front.
    constructor
    · rintro (⟨rfl, hw, hand⟩ | ⟨front, w, back, rfl, hw, hand⟩)
      · exact ⟨[], mark.1, marks, rfl, hw, hand⟩
      · exact ⟨mark :: front, w, back, rfl, hw, by rwa [pendingBehind_cons]⟩
    · rintro ⟨front, w, back, hmarks, hw, hand⟩
      cases front with
      | nil =>
        obtain ⟨rfl, -⟩ := List.cons.inj hmarks
        exact .inl ⟨rfl, hw, hand⟩
      | cons mark' front =>
        obtain ⟨rfl, rfl⟩ := List.cons.inj hmarks
        exact .inr ⟨front, w, back, rfl, hw, by rwa [pendingBehind_cons] at hand⟩

/-- A place holds a mark if a word stands there. -/
theorem standsAt_of_mark? {t : Text} {p : Place} (hp : p ∈ topLevel t) {w : PredicateWord}
    {s : Span} (hmark : p.mark? = some (w, s)) : w.StandsAt t s := by
  obtain ⟨word, hword, hmark⟩ := Option.bind_eq_some_iff.1 hmark
  obtain ⟨w', hfilter, heq⟩ := Option.map_eq_some_iff.1 hmark
  obtain ⟨rfl, rfl⟩ := Prod.mk.inj heq
  obtain ⟨hmeaning, htouch⟩ := Option.filter_eq_some_iff.1 hfilter
  obtain ⟨u, ht, hindex, hbefore, hshows⟩ := mem_topLevel_iff.1 hp
  obtain ⟨⟨-, hstart⟩, htake⟩ := Place.word?_eq_some_iff.1 hword
  have hrest : p.rest = word ++ p.rest.dropWhile isWordChar := by
    rw [← htake, List.takeWhile_append_dropWhile]
  have hdrop : p.rest.drop word.length = p.rest.dropWhile isWordChar := by
    conv_lhs => rw [hrest]
    rw [List.drop_left]
  refine ⟨u, word, p.rest.dropWhile isWordChar, by rw [← hrest, ← ht], by rw [hindex],
    PredicateWord.ofText?_eq_some_iff.1 hmeaning, ScanState.eq_top_of_shows hshows, ?_⟩
  simp only [Place.isSpaced, hdrop, hbefore, Bool.or_eq_true, beq_iff_eq,
    Bool.and_eq_true] at htouch hstart
  rcases htouch with rfl | ⟨hfront, hback⟩
  · -- Of a BETWEEN it is enough that it is a whole word.
    refine ⟨by simp [PredicateWord.mayTouch, hstart], ?_⟩
    have hnot := List.head?_dropWhile_not isWordChar p.rest
    cases hhead : (p.rest.dropWhile isWordChar).head? with
    | none => rfl
    | some c =>
      rw [hhead] at hnot
      simpa [PredicateWord.mayTouch] using hnot
  · exact ⟨PredicateWord.mayTouch_of_blank hfront, PredicateWord.mayTouch_of_blank hback⟩

/-- Where a word stands there is a place with its mark. -/
theorem exists_mark?_of_standsAt {t : Text} {w : PredicateWord} {s : Span} (h : w.StandsAt t s) :
    ∃ p ∈ topLevel t, p.mark? = some (w, s) := by
  obtain ⟨u, word, v, rfl, rfl, hword, hu, htouch, htouch'⟩ := h
  have halpha := PredicateWord.isAlpha_of_sameIgnoringCase hword
  have hmeaning := PredicateWord.ofText?_eq_some_iff.2 hword
  obtain ⟨d, word, rfl⟩ :=
    List.exists_cons_of_ne_nil (PredicateWord.ne_nil_of_sameIgnoringCase hword)
  have hd : d.isAlpha = true := halpha d List.mem_cons_self
  refine ⟨⟨u.length, u.getLast?, d, word ++ v⟩,
    mem_topLevel_of_isClosed hu (isScanMark_of_isAlpha hd) (word ++ v), ?_⟩
  have hread : Place.word? ⟨u.length, u.getLast?, d, word ++ v⟩ = some (d :: word) :=
    Place.word?_of_isAlpha halpha (PredicateWord.isWordChar_of_mayTouch htouch)
      (PredicateWord.isWordChar_of_mayTouch htouch')
  -- BETWEEN need not be spaced; the two connectives are.
  have hspaced : (w == .between ||
      Place.isSpaced ⟨u.length, u.getLast?, d, word ++ v⟩ (d :: word)) = true := by
    rw [Place.isSpaced, Place.rest, ← List.cons_append, List.drop_left]
    cases w with
    | between => rfl
    | and => exact Bool.and_eq_true_iff.2 ⟨htouch, htouch'⟩
    | or => exact Bool.and_eq_true_iff.2 ⟨htouch, htouch'⟩
  rw [Place.mark?, hread, Option.bind_some, hmeaning, Option.filter_some, if_pos hspaced]
  rfl

/-- The marks are the words that stand in the text. -/
theorem mem_marks_iff {t : Text} {w : PredicateWord} {s : Span} :
    (w, s) ∈ marks t ↔ w.StandsAt t s := by
  rw [marks, List.mem_filterMap]
  exact ⟨fun ⟨_, hp, hmark⟩ => standsAt_of_mark? hp hmark, exists_mark?_of_standsAt⟩

/-- The marks come in the order of the text and do not overlap. -/
theorem pairwise_marks (t : Text) : (marks t).Pairwise fun a b => a.2.stop ≤ b.2.start := by
  rw [marks, List.pairwise_filterMap]
  refine (pairwise_topLevelFrom .top 0 none t).imp_of_mem ?_
  intro p q hp hq hlt a ha b hb
  have hstart : ∀ {p : Place} {mark : Mark}, p.mark? = some mark → mark.2.start = p.index := by
    intro p mark hmark
    obtain ⟨word, -, hmark⟩ := Option.bind_eq_some_iff.1 hmark
    obtain ⟨w, -, rfl⟩ := Option.map_eq_some_iff.1 hmark
    rfl
  have ha' : a.1.StandsAt t a.2 := mem_marks_iff.1 (List.mem_filterMap.2 ⟨p, hp, ha⟩)
  have hb' : b.1.StandsAt t b.2 := mem_marks_iff.1 (List.mem_filterMap.2 ⟨q, hq, hb⟩)
  exact ha'.stop_le_start hb' (by rwa [hstart ha, hstart hb])

/-! ## Connectives by where they stand -/

/-- A BETWEEN stands in front of the place `i`, and behind it no AND or OR that ends in front of the
place. -/
def BetweenWaits (t : Text) (i : Nat) : Prop :=
  ∃ b, PredicateWord.between.StandsAt t b ∧ b.stop ≤ i ∧
    ∀ w s, w ≠ .between → PredicateWord.StandsAt w t s → s.stop ≤ i → s.stop ≤ b.start

section Marks

variable {t : Text} {w : PredicateWord} {s : Span} {front back : List Mark}
  (h : marks t = front ++ (w, s) :: back)

include h

/-- The marks in front of a word are the words that end in front of it. -/
theorem mem_front_iff {w' : PredicateWord} {s' : Span} :
    (w', s') ∈ front ↔ w'.StandsAt t s' ∧ s'.stop ≤ s.start := by
  have hpairwise := h ▸ pairwise_marks t
  have hword : w.StandsAt t s := mem_marks_iff.1 (h ▸ by simp)
  constructor
  · intro hmem
    exact ⟨mem_marks_iff.1 (h ▸ List.mem_append_left _ hmem),
      (List.pairwise_append.1 hpairwise).2.2 (w', s') hmem (w, s) List.mem_cons_self⟩
  · -- The marks stand in the order of the text, so one in front of the word is among the first.
    rintro ⟨hstands, hstop⟩
    have hlt := hstands.start_lt_stop
    have hlt' := hword.start_lt_stop
    rcases List.mem_append.1 (h ▸ mem_marks_iff.2 hstands) with hfront | hback
    · exact hfront
    · rcases List.mem_cons.1 hback with heq | hback
      · obtain rfl : s' = s := congrArg Prod.snd heq
        omega
      · have hle : s.stop ≤ s'.start :=
          (List.pairwise_cons.1 (List.pairwise_append.1 hpairwise).2.1).1 (w', s') hback
        omega

/-- A BETWEEN waits in front of a word exactly if the word before it is a BETWEEN. -/
theorem betweenWaits_iff : BetweenWaits t s.start ↔ pendingBehind false front = true := by
  rcases List.eq_nil_or_concat front with rfl | ⟨others, ⟨w', s'⟩, rfl⟩
  · refine iff_of_false ?_ (by simp [pendingBehind])
    rintro ⟨b, hb, hstop, -⟩
    exact absurd ((mem_front_iff h).2 ⟨hb, hstop⟩) List.not_mem_nil
  · rw [List.concat_eq_append] at h
    obtain ⟨hlast, hlastStop⟩ : w'.StandsAt t s' ∧ s'.stop ≤ s.start :=
      (mem_front_iff h).1 (by simp)
    have hothers : ∀ mark ∈ others, mark.2.stop ≤ s'.start := by
      have hpairwise := (List.pairwise_append.1 (h ▸ pairwise_marks t)).1
      exact fun mark hmark => (List.pairwise_append.1 hpairwise).2.2 mark hmark (w', s') (by simp)
    simp only [pendingBehind, List.concat_eq_append, List.getLast?_concat, Option.elim_some,
      decide_eq_true_eq]
    constructor
    · rintro ⟨b, hb, hstop, hnone⟩
      -- Any other word would be an AND or OR behind the BETWEEN.
      by_contra hne
      have hle := hnone w' s' hne hlast hlastStop
      rcases List.mem_append.1 ((mem_front_iff h).2 ⟨hb, hstop⟩) with hmem | hmem
      · have hbefore : b.stop ≤ s'.start := hothers _ hmem
        have hlt := hb.start_lt_stop
        have hlt' := hlast.start_lt_stop
        omega
      · exact hne (congrArg Prod.fst (List.mem_singleton.1 hmem)).symm
    · rintro rfl
      refine ⟨s', hlast, hlastStop, fun w'' s'' hne hstands hstop => ?_⟩
      rcases List.mem_append.1 ((mem_front_iff h).2 ⟨hstands, hstop⟩) with hmem | hmem
      · exact hothers _ hmem
      · exact absurd (congrArg Prod.fst (List.mem_singleton.1 hmem)) hne

end Marks

section Connectives

variable {t : Text}

/-- Every OR cuts, and every AND for which no BETWEEN waits. -/
theorem mem_connectives_iff {s : Span} : s ∈ connectives t ↔ ∃ w, w ≠ .between ∧
    PredicateWord.StandsAt w t s ∧ (w = .and → ¬BetweenWaits t s.start) := by
  rw [connectives_eq_cutsAmong, mem_cutsAmong]
  constructor
  · rintro ⟨front, w, back, hmarks, hw, hand⟩
    refine ⟨w, hw, mem_marks_iff.1 (hmarks ▸ by simp), fun h => ?_⟩
    rw [betweenWaits_iff hmarks, hand h]
    exact Bool.false_ne_true
  · rintro ⟨w, hw, hstands, hand⟩
    obtain ⟨front, back, hmarks⟩ := List.append_of_mem (mem_marks_iff.2 hstands)
    refine ⟨front, w, back, hmarks, hw, fun h => ?_⟩
    rw [Bool.eq_false_iff, ne_eq, ← betweenWaits_iff hmarks]
    exact hand h

/-- Only an AND for which a BETWEEN waits does not cut. -/
theorem betweenWaits_of_not_mem {w : PredicateWord} {s : Span} (hw : w ≠ .between)
    (hs : w.StandsAt t s) (h : s ∉ connectives t) : w = .and ∧ BetweenWaits t s.start := by
  by_contra hnot
  exact h (mem_connectives_iff.2 ⟨w, hw, hs, fun hand hwaits => hnot ⟨hand, hwaits⟩⟩)

theorem isCutting_connectives (t : Text) : IsCutting t (connectives t) where
  pairwise := by
    rw [connectives_eq_cutsAmong]
    refine List.Pairwise.sublist (cutsAmong_sublist false (marks t)) ?_
    rw [List.pairwise_map]
    exact pairwise_marks t
  start_lt := by
    intro cut hcut
    obtain ⟨w, -, hstands, -⟩ := mem_connectives_iff.1 hcut
    exact hstands.start_lt_stop
  stop_le := by
    intro cut hcut
    obtain ⟨w, -, hstands, -⟩ := mem_connectives_iff.1 hcut
    exact hstands.stop_le_length
  isClosed_start := by
    intro cut hcut
    obtain ⟨w, -, hstands, -⟩ := mem_connectives_iff.1 hcut
    exact hstands.isClosed_start
  isClosed_stop := by
    intro cut hcut
    obtain ⟨w, -, hstands, -⟩ := mem_connectives_iff.1 hcut
    exact hstands.isClosed_stop

/-- Blanks or the ends of the text stand around a predicate. -/
theorem blank_around {u ws f ws' v : Text} (ht : t = (u ++ ws) ++ (f ++ (ws' ++ v)))
    (hws : ∀ c ∈ ws, isBlank c = true) (hws' : ∀ c ∈ ws', isBlank c = true) (hf : f ≠ [])
    (htrim : f.trim = f) (hu : u.length = 0 ∨ ∃ cut ∈ connectives t, cut.stop = u.length)
    (hv : v = [] ∨ ∃ cut ∈ connectives t, cut.start = u.length + (ws ++ (f ++ ws')).length) :
    (u ++ ws).getLast?.all isBlank = true ∧ (ws' ++ v).head?.all isBlank = true := by
  obtain ⟨hstart, hend⟩ := Text.trim_eq_self_iff.1 htrim
  constructor
  · rcases List.eq_nil_or_concat ws with rfl | ⟨others, c, rfl⟩
    · rcases hu with hu | ⟨cut, hcut, hu⟩
      · rw [List.length_eq_zero_iff.1 hu]
        rfl
      · -- A connective right in front of the predicate would touch it.
        obtain ⟨w, hw, hstands, -⟩ := mem_connectives_iff.1 hcut
        obtain ⟨c, f, rfl⟩ := List.exists_cons_of_ne_nil hf
        have hblank := PredicateWord.blank_of_mayTouch hw hstands.mayTouch_head?
        rw [hu, ht, List.append_nil, List.drop_left, List.cons_append] at hblank
        have hsolid := Text.trimStart_eq_self_iff.1 hstart c rfl
        rw [show isBlank c = true from hblank] at hsolid
        cases hsolid
    · rw [List.concat_eq_append, ← List.append_assoc, List.getLast?_concat]
      exact hws c (by simp)
  · cases ws' with
    | nil =>
      rcases hv with rfl | ⟨cut, hcut, hv⟩
      · rfl
      · obtain ⟨w, hw, hstands, -⟩ := mem_connectives_iff.1 hcut
        have hblank := PredicateWord.blank_of_mayTouch hw hstands.mayTouch_getLast?
        have hfront : t = ((u ++ ws) ++ f) ++ v := by rw [ht]; simp
        rw [hv, hfront, List.take_left' (by simp), List.getLast?_append,
          List.getLast?_eq_some_getLast hf] at hblank
        have hsolid := Text.trimEnd_eq_self_iff.1 hend (f.getLast hf)
          (List.getLast?_eq_some_getLast hf)
        rw [show isBlank (f.getLast hf) = true from hblank] at hsolid
        cases hsolid
    | cons c ws' => exact hws' c List.mem_cons_self

/-- What waits at a place of a predicate waits there in the predicate by itself: the connective in
front of it ends what waited before. -/
theorem betweenWaits_of_append {u ws f v : Text} (ht : t = (u ++ ws) ++ (f ++ v))
    (hclosed : Text.IsClosed (u ++ ws)) (hfront : (u ++ ws).getLast?.all isBlank = true)
    (hback : v.head?.all isBlank = true) (hws : ∀ c ∈ ws, isBlank c = true)
    (hu : u.length = 0 ∨ ∃ cut ∈ connectives t, cut.stop = u.length) {i : Nat} (hi : i ≤ f.length)
    (h : BetweenWaits t ((u ++ ws).length + i)) : BetweenWaits f i := by
  obtain ⟨b, hb, hstop, hnone⟩ := h
  -- The connective in front of the predicate ends in front of the BETWEEN, and no word starts in
  -- the blanks.
  have hstart : (u ++ ws).length ≤ b.start := by
    rw [ht, List.append_assoc] at hb
    refine hb.length_le_start hws ?_
    rcases hu with hu | ⟨cut, hcut, hu⟩
    · rw [hu]
      exact Nat.zero_le _
    · obtain ⟨w, hw, hcut', -⟩ := mem_connectives_iff.1 hcut
      have hle := hnone w cut hw hcut' (by simp only [List.length_append]; omega)
      omega
  have hlt := hb.start_lt_stop
  have hshift : ∀ {n}, (u ++ ws).length ≤ n → (u ++ ws).length + (n - (u ++ ws).length) = n :=
    fun hle => Nat.add_sub_cancel' hle
  refine ⟨⟨b.start - (u ++ ws).length, b.stop - (u ++ ws).length⟩, ?_, ?_,
    fun w j hw hj hjstop => ?_⟩
  · refine (PredicateWord.standsAt_append_iff hclosed hfront hback).2 ⟨?_, ?_⟩
    · rw [Span.map, hshift hstart, hshift (hstart.trans hlt.le), ← ht]
      exact hb
    · simp only
      omega
  · simp only
    omega
  · have hj' := ((PredicateWord.standsAt_append_iff hclosed hfront hback).1 hj).1
    have hle := hnone w _ hw (ht ▸ hj') (Nat.add_le_add_left hjstop _)
    simp only [Span.map] at hle
    simp only
    omega

/-- A predicate has no connective. -/
theorem connectives_eq_nil_of_mem_predicates {f : Text} (hf : f ∈ predicates t) :
    connectives f = [] := by
  obtain ⟨⟨piece, hpiece, rfl⟩, hne⟩ := mem_fragments.1 hf
  have hcutting := isCutting_connectives t
  obtain ⟨u, v, ht, -, hu, hv, haside⟩ :=
    exists_of_mem_piecesBetween hcutting (fun _ _ => Nat.zero_le _) (Nat.zero_le _) hpiece
  obtain ⟨ws, ws', hws, hws', htrim⟩ := piece.exists_trim_eq
  have hwhole : t = (u ++ ws) ++ (piece.trim ++ (ws' ++ v)) := by
    rw [ht]
    conv_lhs => rw [htrim]
    simp only [List.append_assoc]
  have hclosed : Text.IsClosed (u ++ ws) := by
    rw [Text.IsClosed, scan_append, (hcutting.isClosed_front ht hu).scan_eq, scan_of_blank hws]
  obtain ⟨hfront, hback⟩ :=
    blank_around hwhole hws hws' hne (Text.trim_trim piece) hu (by rwa [← htrim])
  refine List.eq_nil_iff_forall_not_mem.2 fun s hs => ?_
  obtain ⟨w, hw, hstands, hand⟩ := mem_connectives_iff.1 hs
  obtain ⟨hstands', hstop⟩ := (PredicateWord.standsAt_append_iff hclosed hfront hback).1 hstands
  rw [← hwhole] at hstands'
  have hlt := hstands.start_lt_stop
  -- No connective of the whole condition touches the predicate, so the word is an AND that a
  -- BETWEEN waits for.
  have hnot : s.map ((u ++ ws).length + ·) ∉ connectives t := by
    intro hmem
    have hplace := haside _ hmem
    have hlen := congrArg List.length htrim
    simp only [Span.map, List.length_append] at hplace hlen
    omega
  obtain ⟨rfl, hwaits⟩ := betweenWaits_of_not_mem hw hstands' hnot
  exact hand rfl (betweenWaits_of_append hwhole hclosed hfront hback hws hu (by omega) hwaits)

theorem predicates_of_mem_predicates {f : Text} (hf : f ∈ predicates t) : predicates f = [f] := by
  obtain ⟨⟨piece, -, rfl⟩, hne⟩ := mem_fragments.1 hf
  exact (fragments_eq_singleton_iff (isCutting_connectives _) (Text.trim_trim piece) hne).2
    (connectives_eq_nil_of_mem_predicates hf)

/-- All predicates but the last one end at the top level. -/
theorem isClosed_of_mem_dropLast_predicates {f : Text} (hf : f ∈ (predicates t).dropLast) :
    f.IsClosed :=
  isClosed_of_mem_dropLast_fragments (isClosed_of_mem_dropLast_pieces (isCutting_connectives t)
    (fun _ _ => Nat.zero_le _) rfl) f hf

/-- An AND or OR that does not cut is an AND, and a BETWEEN stands in front of it with no cut and no
other AND that is passed over between the two. -/
theorem not_mem_connectives_iff {w : PredicateWord} {s : Span} (hw : w ≠ .between)
    (hs : w.StandsAt t s) : s ∉ connectives t ↔ w = .and ∧ ∃ b,
      PredicateWord.between.StandsAt t b ∧ b.stop ≤ s.start ∧
        (∀ cut ∈ connectives t, cut.stop ≤ s.start → cut.stop ≤ b.start) ∧
        ∀ passed, PredicateWord.and.StandsAt t passed → passed ∉ connectives t →
          passed.stop ≤ s.start → passed.stop ≤ b.start := by
  constructor
  · intro hnot
    obtain ⟨rfl, b, hb, hstop, hnone⟩ := betweenWaits_of_not_mem hw hs hnot
    refine ⟨rfl, b, hb, hstop, fun cut hcut => ?_, fun passed hpassed _ => ?_⟩
    · obtain ⟨w', hw', hcut', -⟩ := mem_connectives_iff.1 hcut
      exact hnone w' cut hw' hcut'
    · exact hnone .and passed (by decide) hpassed
  · rintro ⟨rfl, b, hb, hstop, hcuts, hpassed⟩ hmem
    obtain ⟨w', -, hs', hand⟩ := mem_connectives_iff.1 hmem
    refine hand (hs'.word_eq hs) ⟨b, hb, hstop, fun w'' j hw'' hj hjstop => ?_⟩
    -- Each AND or OR in front is a connective or is passed over.
    by_cases hcut : j ∈ connectives t
    · exact hcuts j hcut hjstop
    · obtain ⟨rfl, -⟩ := betweenWaits_of_not_mem hw'' hj hcut
      exact hpassed j hj hcut hjstop

/-- The connectives of a condition are the words AND and OR at its top level that have a blank or an
end of the text on both sides, other than an AND that a BETWEEN takes: one with a BETWEEN in front
of it, behind the last connective and the last AND that was taken. Pieces and connectives in turn
are the condition. The predicates are the pieces, trimmed and without the blank ones. Each of them
is a condition of this one predicate, and they are the predicates of the condition that they are
joined to by OR. -/
theorem predicates_partition (t : Text) :
    (∀ cut ∈ connectives t, ∃ w, w ≠ .between ∧ PredicateWord.StandsAt w t cut) ∧
      (∀ w s, w ≠ .between → PredicateWord.StandsAt w t s → (s ∉ connectives t ↔ w = .and ∧ ∃ b,
        PredicateWord.between.StandsAt t b ∧ b.stop ≤ s.start ∧
          (∀ cut ∈ connectives t, cut.stop ≤ s.start → cut.stop ≤ b.start) ∧
          ∀ taken, PredicateWord.and.StandsAt t taken → taken ∉ connectives t →
            taken.stop ≤ s.start → taken.stop ≤ b.start)) ∧
      (connectives t).Pairwise (fun a b => a.stop ≤ b.start) ∧
      (List.zipWith (· ++ ·) (piecesBetween t 0 (connectives t))
        ((connectives t).map (Span.slice · t) ++ [[]])).flatten = t ∧
      predicates t = fragments (piecesBetween t 0 (connectives t)) ∧
      (∀ f ∈ predicates t, predicates f = [f]) ∧
      predicates (Text.joinWith " OR ".toList (predicates t)) = predicates t := by
  have hcutting := isCutting_connectives t
  refine ⟨fun cut hcut => ?_, fun w s hw hs => not_mem_connectives_iff hw hs, hcutting.pairwise,
    flatten_piecesBetween hcutting fun _ _ => Nat.zero_le _, rfl,
    fun f hf => predicates_of_mem_predicates hf, ?_⟩
  · obtain ⟨w, hw, hstands, -⟩ := mem_connectives_iff.1 hcut
    exact ⟨w, hw, hstands⟩
  · -- A BETWEEN that waits at the end of a predicate does not take an OR.
    have happend : ∀ u v : Text, u.IsClosed →
        predicates (u ++ (" OR ".toList ++ v)) = predicates u ++ predicates v := fun u v hu =>
      predicates_append_connective hu (c := .spaced "OR".toList (.inr (by decide)))
        (fun _ => by decide) v
    exact split_joinWith (by decide) happend (fun f hf => predicates_of_mem_predicates hf)
      fun f hf => isClosed_of_mem_dropLast_predicates hf

end Connectives

end LooseSql
