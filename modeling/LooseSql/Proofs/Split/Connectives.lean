import LooseSql.Proofs.Split.Pieces
import LooseSql.Proofs.Split.Words

/-!
# Conditions in parts

A condition is cut at its connectives in one run over the places at its top level. The run remembers
two things (`Splitter`): how far words have been read, and whether a BETWEEN waits for its AND.

A condition of two parts with a connective between them is cut at the connectives of the first part,
at the one in the middle, and at those of the second part, provided that the first part ends at the
top level and leaves no BETWEEN pending, which an OR would pass over. So its predicates are those of
the two parts (`predicates_append_connective`).

* `Splitter.cuts_append`: a run over two stretches of places is two runs;
* `Splitter.cuts_shift`: the run does not see what stands in front of the text and behind it;
* `Connective`: the word AND or OR with blanks around it.
-/

namespace LooseSql

/-! ## The run over the places -/

/-- What the cutting of a condition remembers from place to place. -/
structure Splitter where
  /-- The place up to which words have been read. -/
  passed : Nat
  /-- A BETWEEN waits for its AND. -/
  pending : Bool

namespace Splitter

/-- Nothing has been read. -/
def start : Splitter := ⟨0, false⟩

/-- The word that starts at the place, unless it belongs to a word that was read already. -/
def word? (s : Splitter) (p : Place) : Option Text := if p.index < s.passed then none else p.word?

/-- A BETWEEN waits for its AND behind a word. -/
def pendingAfter (s : Splitter) (p : Place) (word : Text) : Bool :=
  match PredicateWord.ofText? word with
  | none => s.pending
  | some .between => true
  | some _ => s.pending && !p.isSpaced word

/-- The state behind one more place. -/
def step (s : Splitter) (p : Place) : Splitter :=
  (s.word? p).elim s fun word => ⟨p.index + word.length, s.pendingAfter p word⟩

/-- The word is a connective that cuts the condition. -/
def cuts? (s : Splitter) (p : Place) (word : Text) : Bool :=
  match PredicateWord.ofText? word with
  | none => false
  | some .between => false
  | some w => p.isSpaced word && !(w == .and && s.pending)

/-- The span of the connective at the place, if one cuts the condition there. -/
def cut? (s : Splitter) (p : Place) : Option Span :=
  ((s.word? p).filter (s.cuts? p)).map fun word => ⟨p.index, p.index + word.length⟩

/-- The state behind a stretch of places. -/
def run (s : Splitter) (places : List Place) : Splitter := places.foldl step s

/-- The cuts in a stretch of places. -/
def cuts (s : Splitter) (places : List Place) : List Span :=
  connectivesFrom s.passed s.pending places

variable {s : Splitter} {p : Place} {places others : List Place}

@[simp]
theorem run_nil (s : Splitter) : s.run [] = s := rfl

@[simp]
theorem run_cons (s : Splitter) (p : Place) (places : List Place) :
    s.run (p :: places) = (s.step p).run places := rfl

theorem run_append (s : Splitter) (places others : List Place) :
    s.run (places ++ others) = (s.run places).run others := List.foldl_append

@[simp]
theorem cuts_nil (s : Splitter) : s.cuts [] = [] := rfl

/-- One step of the cutting. -/
theorem cuts_cons (s : Splitter) (p : Place) (places : List Place) :
    s.cuts (p :: places) = (s.cut? p).toList ++ (s.step p).cuts places := by
  have hread : (if p.index < s.passed then none else p.word?) = s.word? p := rfl
  rw [cuts, connectivesFrom, hread, cut?, step]
  cases s.word? p with
  | none => rfl
  | some word =>
    -- Only AND can be spaced and still not cut: then it belongs to a BETWEEN.
    rcases hword : PredicateWord.ofText? word with _ | _ | _ | _
    · simp [pendingAfter, cuts?, hword, cuts, Option.filter_some]
    · simp [pendingAfter, cuts?, hword, cuts, Option.filter_some]
    · cases hspaced : p.isSpaced word <;> cases hpending : s.pending <;>
        simp [pendingAfter, cuts?, hword, cuts, hspaced, hpending, Option.filter_some]
    · cases hspaced : p.isSpaced word <;>
        simp [pendingAfter, cuts?, hword, cuts, hspaced, Option.filter_some]

/-- A run over two stretches of places is two runs. -/
theorem cuts_append (s : Splitter) (places others : List Place) :
    s.cuts (places ++ others) = s.cuts places ++ (s.run places).cuts others := by
  induction places generalizing s with
  | nil => rfl
  | cons p places ih =>
    rw [List.cons_append, cuts_cons, cuts_cons, ih, run_cons, List.append_assoc]

theorem step_of_word?_eq_none (h : s.word? p = none) : s.step p = s := by
  rw [step, h]
  rfl

theorem cut?_of_word?_eq_none (h : s.word? p = none) : s.cut? p = none := by
  rw [cut?, h]
  rfl

/-- Places at which no word starts are passed over. -/
theorem cuts_of_idle (h : ∀ p ∈ places, s.word? p = none) :
    s.cuts places = [] ∧ s.run places = s := by
  induction places with
  | nil => exact ⟨rfl, rfl⟩
  | cons p places ih =>
    obtain ⟨hcuts, hrun⟩ := ih fun q hq => h q (by simp [hq])
    have hp := h p (by simp)
    rw [cuts_cons, run_cons, step_of_word?_eq_none hp, cut?_of_word?_eq_none hp]
    exact ⟨hcuts, hrun⟩

/-- No word that is read and no cut ends behind the place `n`, if no word among the places does. -/
theorem bounds_of_words {n : Nat} (hs : s.passed ≤ n)
    (h : ∀ p ∈ places, ∀ word, p.word? = some word → p.index + word.length ≤ n) :
    (s.run places).passed ≤ n ∧ ∀ cut ∈ s.cuts places, cut.start ≤ n ∧ cut.stop ≤ n := by
  induction places generalizing s with
  | nil => exact ⟨hs, by simp⟩
  | cons p places ih =>
    have hword : ∀ word, s.word? p = some word → p.index + word.length ≤ n := by
      intro word hword
      rw [word?] at hword
      split at hword
      · cases hword
      · exact h p (by simp) word hword
    have hpassed : (s.step p).passed ≤ n := by
      rw [step]
      cases hw : s.word? p with
      | none => exact hs
      | some word => exact hword word hw
    -- What has been passed stays in front of the end of the last word that was read.
    obtain ⟨hrun, hcuts⟩ := ih hpassed fun q hq => h q (by simp [hq])
    rw [cuts_cons, run_cons]
    refine ⟨hrun, fun cut hcut => ?_⟩
    rcases List.mem_append.1 hcut with hcut | hcut
    · rw [Option.mem_toList, cut?, Option.map_eq_some_iff] at hcut
      obtain ⟨word, hw, rfl⟩ := hcut
      have hle := hword word (Option.filter_eq_some_iff.1 hw).1
      exact ⟨(Nat.le_add_right _ _).trans hle, hle⟩
    · exact hcuts cut hcut

/-- A run does not see words that end in front of all its places. -/
theorem cuts_of_le {m n : Nat} (pending : Bool) (hm : ∀ p ∈ places, m ≤ p.index)
    (hn : ∀ p ∈ places, n ≤ p.index) :
    (mk m pending).cuts places = (mk n pending).cuts places ∧
      ((mk m pending).run places).pending = ((mk n pending).run places).pending := by
  induction places with
  | nil => exact ⟨rfl, rfl⟩
  | cons p places ih =>
    have hword : (mk m pending).word? p = (mk n pending).word? p := by
      rw [word?, word?, if_neg (Nat.not_lt.2 (hm p (by simp))),
        if_neg (Nat.not_lt.2 (hn p (by simp)))]
    rw [cuts_cons, cuts_cons, run_cons, run_cons]
    cases hw : (mk n pending).word? p with
    | none =>
      rw [hw] at hword
      rw [step_of_word?_eq_none hw, step_of_word?_eq_none hword, cut?_of_word?_eq_none hw,
        cut?_of_word?_eq_none hword]
      exact ih (fun q hq => hm q (by simp [hq])) fun q hq => hn q (by simp [hq])
    | some word =>
      -- Behind a word the state is made of the word alone.
      have hstep : (mk m pending).step p = (mk n pending).step p := by
        rw [step, step, hword, hw]
        rfl
      have hcut : (mk m pending).cut? p = (mk n pending).cut? p := by
        rw [cut?, cut?, hword, hw]
        rfl
      rw [hstep, hcut]
      exact ⟨rfl, rfl⟩

end Splitter

/-! ## A text inside a longer one -/

namespace Place

variable {v : Text}

/-- A word does not go on into a text that starts with a blank or is empty. -/
theorem takeWhile_append_of_blank (hv : v.head?.all isBlank = true) (t : Text) :
    (t ++ v).takeWhile isWordChar = t.takeWhile isWordChar := by
  have hnone : v.takeWhile isWordChar = [] := by
    cases v with
    | nil => rfl
    | cons c v => exact List.takeWhile_cons_of_neg (by simp [isWordChar_of_isBlank hv])
  rw [List.takeWhile_append]
  split
  · next hall =>
    rw [hnone, List.append_nil]
    exact ((List.takeWhile_prefix _).eq_of_length hall).symm
  · rfl

/-- Where only the index and the blank in front differ, and blanks or nothing are added behind the
text, the same word starts. -/
theorem word?_congr {p q : Place} (hchar : q.char = p.char) (hafter : q.after = p.after ++ v)
    (hbefore : q.before.any isWordChar = p.before.any isWordChar)
    (hv : v.head?.all isBlank = true) : q.word? = p.word? := by
  have hrest : q.rest = p.rest ++ v := by rw [rest, rest, hchar, hafter, List.cons_append]
  rw [word?, word?, hchar, hbefore, hrest, takeWhile_append_of_blank hv]

theorem word?_eq_some_iff {p : Place} {word : Text} : p.word? = some word ↔
    (isAlphabetic p.char = true ∧ p.before.any isWordChar = false) ∧
      p.rest.takeWhile isWordChar = word := by
  rw [word?, Option.ite_none_right_eq_some, Option.some.injEq, Bool.and_eq_true,
    Bool.not_eq_true']

/-- A word of letters from `A` to `z` is read where no word character stands next to it. -/
theorem word?_of_isAlpha {i : Nat} {before : Option Char} {d : Char} {word v : Text}
    (hword : ∀ c ∈ d :: word, c.isAlpha = true) (hbefore : before.any isWordChar = false)
    (hv : v.head?.any isWordChar = false) :
    Place.word? ⟨i, before, d, word ++ v⟩ = some (d :: word) := by
  have hd := hword d List.mem_cons_self
  refine word?_eq_some_iff.2 ⟨⟨?_, hbefore⟩, ?_⟩
  · simp [isAlphabetic, isTextLetter, toNat_lt_of_isAlpha hd, hd]
  · rw [rest, ← List.cons_append]
    refine (Text.span_append (fun c hc => isWordChar_of_isAlpha (hword c hc)) ?_).1
    intro c hc
    rwa [Option.mem_def.1 hc] at hv

/-- The word of a place stands at the head of the text from there on. -/
theorem length_le_of_word? {p : Place} {word : Text} (h : p.word? = some word) :
    word.length ≤ p.rest.length := by
  rw [← (word?_eq_some_iff.1 h).2]
  exact (List.takeWhile_sublist _).length_le

/-- Blanks that are added behind the text leave a word spaced or not as it was. -/
theorem isSpaced_congr {p q : Place} {word : Text} (hrest : q.rest = p.rest ++ v)
    (hbefore : q.before.all isBlank = p.before.all isBlank) (hv : v.head?.all isBlank = true)
    (hword : word.length ≤ p.rest.length) : q.isSpaced word = p.isSpaced word := by
  rw [isSpaced, isSpaced, hbefore, hrest, List.drop_append_of_le_length hword]
  cases p.rest.drop word.length with
  | nil => simp [hv]
  | cons c t => rfl

end Place

namespace Splitter

/-- The state behind `k` more characters. -/
def shift (k : Nat) (s : Splitter) : Splitter := { s with passed := s.passed + k }

variable {v : Text}

section Step

variable {k i : Nat} {b b' : Option Char} {c : Char} {t : Text}
  (hb : b' = b ∨ b.all isBlank = true ∧ b'.all isBlank = true)
  (hv : v.head?.all isBlank = true) (s : Splitter)

include hb hv

/-- The word of a place is the same behind `k` more characters. -/
theorem word?_shift : (s.shift k).word? ⟨i + k, b', c, t ++ v⟩ = s.word? ⟨i, b, c, t⟩ := by
  have hblank : ∀ {b : Option Char}, b.all isBlank = true → b.any isWordChar = false := by
    intro b hb
    cases b with
    | none => rfl
    | some c => exact isWordChar_of_isBlank hb
  have hplace : Place.word? ⟨i + k, b', c, t ++ v⟩ = Place.word? ⟨i, b, c, t⟩ := by
    refine Place.word?_congr rfl rfl ?_ hv
    rcases hb with rfl | ⟨hb, hb'⟩
    · rfl
    · exact (hblank hb').trans (hblank hb).symm
  rw [word?, word?, hplace]
  exact if_congr (by simp [shift]) rfl rfl

/-- A word is spaced behind `k` more characters if it is spaced as it stands. -/
theorem isSpaced_shift {word : Text} (hw : s.word? ⟨i, b, c, t⟩ = some word) :
    Place.isSpaced ⟨i + k, b', c, t ++ v⟩ word = Place.isSpaced ⟨i, b, c, t⟩ word := by
  refine Place.isSpaced_congr rfl ?_ hv (Place.length_le_of_word? ?_)
  · rcases hb with rfl | ⟨hb, hb'⟩
    · rfl
    · exact hb'.trans hb.symm
  · rw [word?] at hw
    split at hw
    · cases hw
    · exact hw

/-- A step does not see `k` characters in front of the text, blanks in front of the place, and
blanks behind the text. -/
theorem step_shift : (s.shift k).step ⟨i + k, b', c, t ++ v⟩ = (s.step ⟨i, b, c, t⟩).shift k ∧
    (s.shift k).cut? ⟨i + k, b', c, t ++ v⟩ = (s.cut? ⟨i, b, c, t⟩).map (Span.map (· + k)) := by
  rw [step, step, cut?, cut?, s.word?_shift hb hv]
  cases hw : s.word? ⟨i, b, c, t⟩ with
  | none => exact ⟨rfl, rfl⟩
  | some word =>
    have hspaced := s.isSpaced_shift (k := k) hb hv hw
    have hpending : (s.shift k).pendingAfter ⟨i + k, b', c, t ++ v⟩ word =
        s.pendingAfter ⟨i, b, c, t⟩ word := by
      rw [pendingAfter, pendingAfter, hspaced]
      rfl
    have hcuts : (s.shift k).cuts? ⟨i + k, b', c, t ++ v⟩ word = s.cuts? ⟨i, b, c, t⟩ word := by
      rw [cuts?, cuts?, hspaced]
      rfl
    rw [Option.elim_some, Option.elim_some, hpending, Option.filter_some, Option.filter_some, hcuts]
    refine ⟨by simp only [shift, Nat.add_right_comm], ?_⟩
    split <;> simp [Span.map, Nat.add_right_comm]

end Step

/-- A run does not see what stands in front of the text and behind it, as long as blanks stand
next to it. -/
theorem cuts_shift (hv : v.head?.all isBlank = true) (k : Nat) (state : ScanState) (i : Nat)
    {b b' : Option Char} (hb : b' = b ∨ b.all isBlank = true ∧ b'.all isBlank = true) (t : Text)
    (s : Splitter) :
    (s.shift k).cuts ((topLevelFrom state (i + k) b' t).map (Place.extend v)) =
        (s.cuts (topLevelFrom state i b t)).map (Span.map (· + k)) ∧
      (s.shift k).run ((topLevelFrom state (i + k) b' t).map (Place.extend v)) =
        (s.run (topLevelFrom state i b t)).shift k := by
  induction t generalizing state i b b' s with
  | nil => exact ⟨rfl, rfl⟩
  | cons c t ih =>
    rw [topLevelFrom, topLevelFrom, Nat.add_right_comm]
    -- A place that is not at the top level is no step of the splitter.
    split
    · obtain ⟨hstep, hcut⟩ := step_shift (k := k) (i := i) (c := c) (t := t) hb hv s
      obtain ⟨hcuts, hrun⟩ := ih (state.step c) (i + 1) (.inl rfl) (s.step ⟨i, b, c, t⟩)
      rw [List.map_cons, Place.extend, cuts_cons, cuts_cons, run_cons, run_cons, hstep, hcut, hcuts,
        hrun, List.map_append, Option.toList_map]
      exact ⟨rfl, rfl⟩
    · exact ih (state.step c) (i + 1) (.inl rfl) s

end Splitter

/-- A BETWEEN in the condition still waits for its AND at the end. -/
def leavesBetween (t : Text) : Bool := (Splitter.start.run (topLevel t)).pending

section Inside

variable {u v : Text}

/-- Inside a longer text a condition is cut as it is by itself. -/
theorem cuts_inside {k m : Nat} {b : Option Char} (hm : m ≤ k) (hb : b.all isBlank = true)
    (hv : v.head?.all isBlank = true) (t : Text) :
    (Splitter.mk m false).cuts ((topLevelFrom .top k b t).map (Place.extend v)) =
        (connectives t).map (Span.map (· + k)) ∧
      ((Splitter.mk m false).run ((topLevelFrom .top k b t).map (Place.extend v))).pending =
        leavesBetween t := by
  have hindex : ∀ p ∈ (topLevelFrom .top k b t).map (Place.extend v), k ≤ p.index := by
    intro p hp
    obtain ⟨q, hq, rfl⟩ := List.mem_map.1 hp
    obtain ⟨w, -, hindex, -⟩ := exists_of_mem_topLevelFrom hq
    exact (Nat.le_add_right k _).trans_eq hindex.symm
  -- The run is moved to its place and then started where words have been read up to `m`.
  obtain ⟨hcuts, hrun⟩ := Splitter.cuts_shift hv k .top 0 (b := none) (.inr ⟨rfl, hb⟩) t .start
  rw [Nat.zero_add, Splitter.start, Splitter.shift, Nat.zero_add] at hcuts hrun
  obtain ⟨hcuts', hrun'⟩ := Splitter.cuts_of_le false (fun p hp => hm.trans (hindex p hp)) hindex
  have hpending := congrArg Splitter.pending hrun
  exact ⟨hcuts'.trans hcuts, hrun'.trans hpending⟩

/-- The words and the cuts of a condition end inside it, whatever stands behind. -/
theorem bounds_connectives (hv : v.head?.all isBlank = true) (t : Text) :
    (Splitter.start.run ((topLevel t).map (Place.extend v))).passed ≤ t.length ∧
      ∀ cut ∈ connectives t, cut.start ≤ t.length ∧ cut.stop ≤ t.length := by
  have hword : ∀ p ∈ topLevel t, ∀ word, p.word? = some word →
      p.index + word.length ≤ t.length := by
    intro p hp word hword
    obtain ⟨w, ht, hindex, -⟩ := exists_of_mem_topLevelFrom hp
    have hle := Place.length_le_of_word? hword
    have hlen := congrArg List.length ht
    rw [List.length_append] at hlen
    omega
  refine ⟨(Splitter.bounds_of_words (Nat.zero_le _) fun p hp word hp' => ?_).1,
    (Splitter.bounds_of_words (s := .start) (Nat.zero_le _) hword).2⟩
  obtain ⟨q, hq, rfl⟩ := List.mem_map.1 hp
  have hextend : (Place.extend v q).word? = q.word? := Place.word?_congr rfl rfl rfl hv
  exact hword q hq word (hextend.symm.trans hp')

end Inside

/-! ## Connectives -/

/-- The word AND or OR, in any case, with blanks on both sides. -/
structure Connective where
  /-- The blanks in front of the word. -/
  before : Text
  /-- The word. -/
  word : Text
  /-- The blanks behind the word. -/
  after : Text
  /-- There are blanks in front of the word. -/
  before_ne : before ≠ []
  /-- Only blanks stand in front of the word. -/
  isBlank_before : ∀ c ∈ before, isBlank c = true
  /-- The word is one of the two. -/
  isWord : word.sameIgnoringCase "AND".toList ∨ word.sameIgnoringCase "OR".toList
  /-- There are blanks behind the word. -/
  after_ne : after ≠ []
  /-- Only blanks stand behind the word. -/
  isBlank_after : ∀ c ∈ after, isBlank c = true

namespace Connective

variable (c : Connective)

/-- The word with one space on each side. -/
def spaced (word : Text)
    (h : word.sameIgnoringCase "AND".toList ∨ word.sameIgnoringCase "OR".toList) : Connective where
  before := [' ']
  word := word
  after := [' ']
  before_ne := by decide
  isBlank_before := by decide
  isWord := h
  after_ne := by decide
  isBlank_after := by decide

/-- The connective as it stands in a condition. -/
def text : Text := c.before ++ (c.word ++ c.after)

/-- The word is a connective to the cutting. -/
theorem ofText?_word :
    PredicateWord.ofText? c.word = some .and ∨ PredicateWord.ofText? c.word = some .or :=
  c.isWord.imp PredicateWord.ofText?_eq_some_iff.2 PredicateWord.ofText?_eq_some_iff.2

/-- The connective cuts where a BETWEEN is pending or not: only an AND belongs to a BETWEEN. -/
def CutsBehind (pending : Bool) : Prop :=
  pending = true → PredicateWord.ofText? c.word = some .or

theorem cutsBehind_of_eq_false {pending : Bool} (h : pending = false) : c.CutsBehind pending :=
  fun hpending => absurd (hpending.symm.trans h) (by decide)

theorem isAlpha_word : ∀ d ∈ c.word, d.isAlpha = true := by
  rcases c.isWord with h | h
  · exact PredicateWord.isAlpha_of_sameIgnoringCase (w := .and) h
  · exact PredicateWord.isAlpha_of_sameIgnoringCase (w := .or) h

theorem word_ne : c.word ≠ [] := by
  rcases c.isWord with h | h
  · exact PredicateWord.ne_nil_of_sameIgnoringCase (w := .and) h
  · exact PredicateWord.ne_nil_of_sameIgnoringCase (w := .or) h

theorem isScanMark_text : ∀ d ∈ c.text, isScanMark d = false := by
  intro d hd
  rcases List.mem_append.1 hd with hd | hd
  · exact isScanMark_of_isBlank (c.isBlank_before d hd)
  · rcases List.mem_append.1 hd with hd | hd
    · exact isScanMark_of_isAlpha (c.isAlpha_word d hd)
    · exact isScanMark_of_isBlank (c.isBlank_after d hd)

/-- No word starts at a blank. -/
theorem word?_of_isBlank {s : Splitter} {ws : Text} (hws : ∀ d ∈ ws, isBlank d = true)
    (state : ScanState) (i : Nat) (b : Option Char) (v : Text) :
    ∀ p ∈ (topLevelFrom state i b ws).map (Place.extend v), s.word? p = none := by
  intro p hp
  obtain ⟨q, hq, rfl⟩ := List.mem_map.1 hp
  obtain ⟨u, hu, -⟩ := exists_of_mem_topLevelFrom hq
  have hblank : isBlank q.char = true := hws _ (by rw [hu]; simp [Place.rest])
  have halpha : isAlphabetic q.char = false := by
    have hword := isWordChar_of_isBlank hblank
    simp only [isWordChar, isAlphanumeric, Bool.or_eq_false_iff] at hword
    exact hword.1.1
  rw [Splitter.word?, Place.word?, Place.extend]
  simp [halpha]

/-- The connective cuts the condition at its word, unless it is an AND and a BETWEEN is pending. -/
theorem step_word {pending : Bool} (hpending : c.CutsBehind pending) {m n : Nat} (hm : m ≤ n)
    {e d : Char} (he : isBlank e = true) {w v : Text} (hword : c.word = d :: w) :
    (Splitter.mk m pending).cut? ⟨n, some e, d, w ++ (c.after ++ v)⟩ =
        some ⟨n, n + c.word.length⟩ ∧
      (Splitter.mk m pending).step ⟨n, some e, d, w ++ (c.after ++ v)⟩ =
        ⟨n + c.word.length, false⟩ := by
  obtain ⟨f, after, hafter⟩ := List.exists_cons_of_ne_nil c.after_ne
  have hf : isBlank f = true := c.isBlank_after f (by simp [hafter])
  have hread : (Splitter.mk m pending).word? ⟨n, some e, d, w ++ (c.after ++ v)⟩ =
      some c.word := by
    rw [Splitter.word?, if_neg (Nat.not_lt.2 hm), hword]
    refine Place.word?_of_isAlpha (hword ▸ c.isAlpha_word) (isWordChar_of_isBlank he) ?_
    rw [hafter]
    exact isWordChar_of_isBlank hf
  have hspaced : Place.isSpaced ⟨n, some e, d, w ++ (c.after ++ v)⟩ c.word = true := by
    have hdrop : (d :: (w ++ (c.after ++ v))).drop c.word.length = c.after ++ v := by
      rw [← List.cons_append, ← hword, List.drop_left]
    rw [Place.isSpaced, Place.rest, hdrop, hafter]
    simp [he, hf]
  rw [Splitter.cut?, Splitter.step, hread, Option.filter_some, Option.elim_some,
    Splitter.pendingAfter, Splitter.cuts?]
  -- An AND cuts if no BETWEEN waits for it; an OR cuts in any case.
  rcases c.ofText?_word with h | h
  · have hnone : pending = false := by
      cases pending with
      | false => rfl
      | true => exact absurd (h.symm.trans (hpending rfl)) (by decide)
    simp [h, hspaced, hnone]
  · simp [h, hspaced]

/-- No word starts inside a word that was read. -/
theorem word?_of_passed {s : Splitter} {i : Nat} {t : Text} (h : i + t.length ≤ s.passed)
    (state : ScanState) (b : Option Char) (v : Text) :
    ∀ p ∈ (topLevelFrom state i b t).map (Place.extend v), s.word? p = none := by
  intro p hp
  obtain ⟨q, hq, rfl⟩ := List.mem_map.1 hp
  obtain ⟨u, hu, hindex, -⟩ := exists_of_mem_topLevelFrom hq
  have hlt := congrArg List.length hu
  rw [List.length_append, Place.rest, List.length_cons] at hlt
  rw [Splitter.word?, if_pos]
  simp only [Place.extend, hindex]
  omega

/-- The places of a connective: the blanks in front of the word, its first letter, its other letters
and the blanks behind it. -/
theorem topLevelFrom_text_append (i : Nat) (b : Option Char) (v : Text) {e d : Char} {w : Text}
    (he : c.before.getLast? = some e) (hword : c.word = d :: w) :
    topLevelFrom .top i b (c.text ++ v) =
      (topLevelFrom .top i b c.before).map (Place.extend (c.word ++ (c.after ++ v))) ++
        ⟨i + c.before.length, some e, d, w ++ (c.after ++ v)⟩ ::
          ((topLevelFrom .top (i + c.before.length + 1) (some d) w).map
              (Place.extend (c.after ++ v)) ++
            ((topLevelFrom .top (i + c.before.length + 1 + w.length) (w.getLast?.or (some d))
                c.after).map (Place.extend v) ++
              topLevelFrom .top (i + c.text.length) c.after.getLast? v)) := by
  -- The word has letters only, so each of its characters stands at the top level.
  have hmark : ∀ g ∈ d :: w, isScanMark g = false := by
    intro g hg
    rw [← hword] at hg
    exact isScanMark_of_isAlpha (c.isAlpha_word g hg)
  have hshows : ScanState.top.shows d = true := ScanState.top_shows (hmark d (by simp))
  have hlen : i + c.text.length = i + c.before.length + 1 + w.length + c.after.length := by
    simp only [text, List.length_append, hword, List.length_cons]
    omega
  obtain ⟨f, hf⟩ : ∃ f, c.after.getLast? = some f :=
    ⟨_, List.getLast?_eq_some_getLast c.after_ne⟩
  rw [text, List.append_assoc, List.append_assoc, topLevelFrom_append,
    scan_of_blank c.isBlank_before, he, Option.some_or, hword, List.cons_append, topLevelFrom,
    if_pos hshows, ScanState.step_of_not_mark (hmark d (by simp)), topLevelFrom_append,
    scan_of_not_mark fun g hg => hmark g (by simp [hg]), topLevelFrom_append,
    scan_of_blank c.isBlank_after, hf, Option.some_or, ← hword, ← text, hlen]

/-- A run over a connective cuts there, and goes on behind it as if nothing had been read. -/
theorem cuts_text_append {pending : Bool} (hpending : c.CutsBehind pending) {m i : Nat}
    (hm : m ≤ i) (b : Option Char) (v : Text) :
    ∃ m' ≤ i + c.text.length,
      (Splitter.mk m pending).cuts (topLevelFrom .top i b (c.text ++ v)) =
        ⟨i + c.before.length, i + c.before.length + c.word.length⟩ ::
          (Splitter.mk m' false).cuts
            (topLevelFrom .top (i + c.text.length) c.after.getLast? v) ∧
      ((Splitter.mk m pending).run (topLevelFrom .top i b (c.text ++ v))).pending =
        ((Splitter.mk m' false).run
          (topLevelFrom .top (i + c.text.length) c.after.getLast? v)).pending := by
  obtain ⟨d, w, hword⟩ := List.exists_cons_of_ne_nil c.word_ne
  obtain ⟨e, he⟩ : ∃ e, c.before.getLast? = some e :=
    ⟨_, List.getLast?_eq_some_getLast c.before_ne⟩
  have hblank : isBlank e = true := c.isBlank_before e (List.mem_of_getLast? he)
  obtain ⟨hcut, hstep⟩ := c.step_word hpending (v := v) (Nat.le_add_right_of_le hm) hblank hword
  have hsplit := c.topLevelFrom_text_append i b v he hword
  -- Only the first letter of the word starts a word.
  have hbefore := Splitter.cuts_of_idle (s := ⟨m, pending⟩)
    (word?_of_isBlank c.isBlank_before .top i b (c.word ++ (c.after ++ v)))
  have hpassed : i + c.before.length + 1 + w.length ≤ i + c.before.length + c.word.length := by
    rw [hword, List.length_cons]
    omega
  have hinner := Splitter.cuts_of_idle (s := ⟨i + c.before.length + c.word.length, false⟩)
    (word?_of_passed hpassed .top (some d) (c.after ++ v))
  have hafter := Splitter.cuts_of_idle (s := ⟨i + c.before.length + c.word.length, false⟩)
    (word?_of_isBlank c.isBlank_after .top (i + c.before.length + 1 + w.length)
      (w.getLast?.or (some d)) v)
  refine ⟨i + c.before.length + c.word.length, ?_, ?_, ?_⟩
  · simp only [text, List.length_append]
    omega
  · rw [hsplit, Splitter.cuts_append, hbefore.1, hbefore.2, Splitter.cuts_cons, hcut, hstep,
      Splitter.cuts_append, hinner.1, hinner.2, Splitter.cuts_append, hafter.1, hafter.2]
    rfl
  · rw [hsplit, Splitter.run_append, hbefore.2, Splitter.run_cons, hstep, Splitter.run_append,
      hinner.2, Splitter.run_append, hafter.2]

end Connective

section Join

variable {u : Text} (hu : u.IsClosed) {c : Connective}
  (hpending : c.CutsBehind (leavesBetween u)) (v : Text)

include hu hpending

/-- A condition of two parts is cut in the first part, at the connective and in the second part. -/
theorem connectives_append :
    connectives (u ++ (c.text ++ v)) = connectives u ++
      ⟨u.length + c.before.length, u.length + c.before.length + c.word.length⟩ ::
        (connectives v).map (Span.map (· + (u.length + c.text.length))) ∧
      leavesBetween (u ++ (c.text ++ v)) = leavesBetween v := by
  obtain ⟨e, before, hbefore⟩ := List.exists_cons_of_ne_nil c.before_ne
  have hhead : (c.text ++ v).head?.all isBlank = true := by
    simp [Connective.text, hbefore, c.isBlank_before e (by simp [hbefore])]
  have hlast : c.after.getLast?.all isBlank = true := by
    rw [List.getLast?_eq_some_getLast c.after_ne]
    exact c.isBlank_after _ (List.getLast_mem c.after_ne)
  have hsplit : topLevel (u ++ (c.text ++ v)) = (topLevel u).map (Place.extend (c.text ++ v)) ++
      topLevelFrom .top u.length u.getLast? (c.text ++ v) := by
    rw [topLevel, topLevelFrom_append, hu.scan_eq, Nat.zero_add, Option.or_none]
    rfl
  obtain ⟨hcuts, hstate⟩ := cuts_inside (Nat.le_refl 0) (b := none) rfl hhead u
  have hpassed := (bounds_connectives hhead u).1
  obtain ⟨m, hm⟩ : ∃ m, Splitter.start.run ((topLevel u).map (Place.extend (c.text ++ v))) =
      ⟨m, leavesBetween u⟩ := ⟨_, congrArg (Splitter.mk _) hstate⟩
  rw [hm] at hpassed
  -- Whatever is pending behind the first part, the connective cuts and ends it.
  obtain ⟨m', hm', htext, htextRun⟩ := c.cuts_text_append hpending hpassed u.getLast? v
  have hcuts₀ : Splitter.start.cuts ((topLevel u).map (Place.extend (c.text ++ v))) =
      connectives u := hcuts.trans (List.map_id _)
  obtain ⟨hright, hrightRun⟩ := cuts_inside (v := []) hm' hlast rfl v
  have hextend : (topLevelFrom .top (u.length + c.text.length) c.after.getLast? v).map
      (Place.extend []) = topLevelFrom .top (u.length + c.text.length) c.after.getLast? v := by
    refine (List.map_congr_left fun p _ => ?_).trans (List.map_id _)
    simp [Place.extend]
  rw [hextend] at hright hrightRun
  constructor
  · change Splitter.start.cuts (topLevel _) = _
    rw [hsplit, Splitter.cuts_append, hcuts₀, hm, htext, hright]
  · rw [leavesBetween, hsplit, Splitter.run_append, hm, htextRun, hrightRun]

end Join

/-! ## Predicates -/

/-- The pieces of the second part of a text. -/
theorem piecesBetween_append_right (a z : Text) (j : Nat) (cuts : List Span) :
    piecesBetween (a ++ z) (a.length + j) (cuts.map (Span.map (a.length + ·))) =
      piecesBetween z j cuts := by
  induction cuts generalizing j with
  | nil => rw [List.map_nil, piecesBetween, piecesBetween, List.drop_length_add_append]
  | cons cut cuts ih =>
    rw [List.map_cons, piecesBetween, piecesBetween]
    exact congrArg₂ _ (Span.slice_append_right ⟨j, cut.start⟩ a z) (ih cut.stop)

/-- The pieces of the first part of a text, in front of a cut with blanks before it. -/
theorem fragments_piecesBetween_append {u ws : Text} (hws : ∀ c ∈ ws, isBlank c = true) (w : Text)
    {j : Nat} (hj : j ≤ u.length) (stop : Nat) (others : List Span) {cuts : List Span}
    (hcuts : ∀ cut ∈ cuts, cut.start ≤ u.length ∧ cut.stop ≤ u.length) :
    fragments (piecesBetween (u ++ (ws ++ w)) j (cuts ++ ⟨u.length + ws.length, stop⟩ :: others)) =
      fragments (piecesBetween u j cuts) ++
        fragments (piecesBetween (u ++ (ws ++ w)) stop others) := by
  induction cuts generalizing j with
  | nil =>
    -- The last piece of `u` takes in the blanks, and they are trimmed off.
    have hslice : Span.slice ⟨j, u.length + ws.length⟩ (u ++ (ws ++ w)) = u.drop j ++ ws :=
      Span.slice_of_eq_append (a := u.take j) (b := w)
        (by simp only [← List.append_assoc, List.take_append_drop])
        (by simp [hj]) (by simp; omega)
    rw [List.nil_append, piecesBetween, piecesBetween, hslice, fragments_cons,
      fragments_cons_congr (Text.trim_append_of_blank _ hws)]
  | cons cut cuts ih =>
    obtain ⟨hstart, hstop⟩ := hcuts cut (by simp)
    rw [List.cons_append, piecesBetween, piecesBetween, fragments_cons,
      ih hstop fun cut hcut => hcuts cut (by simp [hcut]), Span.slice_append_left hstart,
      ← List.append_assoc, ← fragments_cons]

/-- Blanks in front of a condition do not change its predicates. -/
theorem fragments_piecesBetween_blank {ws : Text} (hws : ∀ c ∈ ws, isBlank c = true) (v : Text)
    (cuts : List Span) :
    fragments (piecesBetween (ws ++ v) 0 (cuts.map (Span.map (ws.length + ·)))) =
      fragments (piecesBetween v 0 cuts) := by
  cases cuts with
  | nil => exact fragments_cons_congr (Text.trim_blank_append hws v) []
  | cons cut cuts =>
    have hslice : Span.slice ⟨0, ws.length + cut.start⟩ (ws ++ v) =
        ws ++ Span.slice ⟨0, cut.start⟩ v := by
      simp [Span.slice, List.take_length_add_append]
    rw [List.map_cons, piecesBetween, piecesBetween]
    simp only [Span.map]
    rw [hslice, piecesBetween_append_right, fragments_cons_congr (Text.trim_blank_append hws _)]

/-- The predicates of a condition of two parts are those of the parts, if the first one ends at the
top level and leaves no BETWEEN pending or the connective is OR. -/
theorem predicates_append_connective {u : Text} (hu : u.IsClosed) {c : Connective}
    (hpending : c.CutsBehind (leavesBetween u)) (v : Text) :
    predicates (u ++ (c.text ++ v)) = predicates u ++ predicates v := by
  have hcuts := (bounds_connectives (v := []) rfl u).2
  have hlen : u.length + c.before.length + c.word.length =
      (u ++ (c.before ++ c.word)).length := by
    simp only [List.length_append, Nat.add_assoc]
  have hright : (connectives v).map (Span.map (· + (u.length + c.text.length))) =
      ((connectives v).map (Span.map (c.after.length + ·))).map
        (Span.map ((u ++ (c.before ++ c.word)).length + ·)) := by
    rw [List.map_map]
    refine List.map_congr_left fun cut _ => ?_
    simp only [Span.map, Function.comp_apply, Connective.text, List.length_append, Span.mk.injEq]
    omega
  have htext : u ++ (c.text ++ v) = u ++ (c.before ++ (c.word ++ (c.after ++ v))) := by
    simp [Connective.text]
  -- The cuts of `v` are counted from behind the word, so its pieces start with the blanks of
  -- `c.after`.
  have hpieces : piecesBetween (u ++ (c.before ++ (c.word ++ (c.after ++ v))))
      (u ++ (c.before ++ c.word)).length (((connectives v).map
        (Span.map (c.after.length + ·))).map (Span.map ((u ++ (c.before ++ c.word)).length + ·))) =
      piecesBetween (c.after ++ v) 0 ((connectives v).map (Span.map (c.after.length + ·))) := by
    have h := piecesBetween_append_right (u ++ (c.before ++ c.word)) (c.after ++ v) 0
      ((connectives v).map (Span.map (c.after.length + ·)))
    simpa only [List.append_assoc, Nat.add_zero] using h
  rw [predicates, rawPredicates, (connectives_append hu hpending v).1, htext,
    fragments_piecesBetween_append c.isBlank_before _ (Nat.zero_le _) _ _ hcuts, hright, hlen,
    hpieces, fragments_piecesBetween_blank c.isBlank_after]
  rfl

end LooseSql
