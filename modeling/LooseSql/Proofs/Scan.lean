import LooseSql.Proofs.Text.CharClass
import LooseSql.Proofs.Text.Trim
import LooseSql.Scan

/-!
# The scan of a text in parts

A scan of two texts one after another goes on in the second one from the state in which it leaves
the first. The places at the top level behave alike: those of the first text are kept, with more
text behind them, and those of the second one follow.

* `isScanMark`: the characters that a scan reacts to;
* `ScanState.Quotes`: the characters that a scan reads as part of a quote;
* `topLevelFrom_append`: the places of a text in two parts;
* `exists_of_mem_topLevelFrom`: what is known about a place at the top level.
-/

namespace LooseSql

/-- A character that can change the state of a scan: a quote or a parenthesis. -/
def isScanMark (c : Char) : Bool :=
  c == '\'' || c == '"' || c == '[' || c == ']' || c == '(' || c == ')'

theorem isScanMark_of_isBlank {c : Char} (hc : isBlank c) : isScanMark c = false := by
  by_contra h
  simp only [isScanMark, Bool.not_eq_false, Bool.or_eq_true, beq_iff_eq] at h
  rcases h with ((((rfl | rfl) | rfl) | rfl) | rfl) | rfl <;> exact absurd hc (by decide)

theorem isScanMark_of_isWordChar {c : Char} (hc : isWordChar c) : isScanMark c = false := by
  by_contra h
  simp only [isScanMark, Bool.not_eq_false, Bool.or_eq_true, beq_iff_eq] at h
  rcases h with ((((rfl | rfl) | rfl) | rfl) | rfl) | rfl <;> exact absurd hc (by decide)

/-- A letter from `A` to `z` is no mark. -/
theorem isScanMark_of_isAlpha {c : Char} (hc : c.isAlpha) : isScanMark c = false :=
  isScanMark_of_isWordChar (isWordChar_of_isAlpha hc)

namespace ScanState

/-- A character that is no mark leaves every state as it is. -/
theorem step_of_not_mark {c : Char} (hc : isScanMark c = false) (s : ScanState) : s.step c = s := by
  simp only [isScanMark, Bool.or_eq_false_iff, beq_eq_false_iff_ne] at hc
  obtain ⟨⟨⟨⟨⟨h₁, h₂⟩, h₃⟩, h₄⟩, h₅⟩, h₆⟩ := hc
  rcases s with ⟨depth, quote⟩
  cases quote with
  | none => simp [step, Quote.ofOpener?, h₁, h₂, h₃, h₅, h₆]
  | some q => cases q <;> simp [step, Quote.closer, h₁, h₂, h₄]

/-- At the top level a character that is no mark is shown. -/
theorem top_shows {c : Char} (hc : isScanMark c = false) : top.shows c = true := by
  simp only [isScanMark, Bool.or_eq_false_iff, beq_eq_false_iff_ne] at hc
  simp [shows, top, hc.2]

/-- The closing mark ends the quote. -/
theorem quote_step_closer {s : ScanState} {q : Quote} (hs : s.quote = some q) :
    (s.step q.closer).quote = none := by
  unfold step
  simp [hs]

/-- Inside a quote only its closing mark counts. -/
theorem step_of_ne_closer {s : ScanState} {q : Quote} (hs : s.quote = some q) {c : Char}
    (hc : c ≠ q.closer) : s.step c = s := by
  unfold step
  simp [hs, hc]

/-- The opening mark starts the quote. -/
theorem quote_step_opener {s : ScanState} (hs : s.quote = none) (q : Quote) :
    (s.step q.opener).quote = some q := by
  unfold step
  cases q <;> simp [hs, Quote.opener, Quote.ofOpener?]

/-- A character that opens no quote starts none. -/
theorem quote_step_of_not_opener {s : ScanState} (hs : s.quote = none) {c : Char}
    (hc : Quote.ofOpener? c = none) : (s.step c).quote = none := by
  unfold step
  simp only [hs, hc]
  split
  · rfl
  · split
    · rfl
    · exact hs

/-- The scan reads the character as part of a quote. -/
inductive Quotes (s : ScanState) (c : Char) : Prop where
  /-- The character opens a quote. -/
  | opening {q : Quote} (hbefore : s.quote = none) (hafter : (s.step c).quote = some q)
  /-- The character stands inside a quote. -/
  | content {q : Quote} (hbefore : s.quote = some q) (hafter : (s.step c).quote = some q)
  /-- The character closes a quote. -/
  | closing {q : Quote} (hbefore : s.quote = some q) (hafter : (s.step c).quote = none)

/-- In a quote every character is part of it, the closing mark too. -/
theorem quotes_of_quote {s : ScanState} {q : Quote} (hs : s.quote = some q) (c : Char) :
    s.Quotes c := by
  by_cases hc : c = q.closer
  · rw [hc]
    exact .closing hs (quote_step_closer hs)
  · exact .content hs (by rw [step_of_ne_closer hs hc, hs])

/-- Outside quotes only an opening mark is part of one. -/
theorem not_quotes {s : ScanState} (hs : s.quote = none) {c : Char}
    (hc : Quote.ofOpener? c = none) : ¬ s.Quotes c := by
  have hstep := quote_step_of_not_opener hs hc
  rintro (⟨-, hafter⟩ | ⟨hbefore, -⟩ | ⟨hbefore, -⟩) <;> simp_all

/-- The scan reads every character of the text as part of a quote. -/
def QuotesAll (s : ScanState) : Text → Prop
  | [] => True
  | c :: t => s.Quotes c ∧ QuotesAll (s.step c) t

/-- A text that holds the closing mark at its end only lies in the quote. -/
theorem quotesAll_append_closer {s : ScanState} {q : Quote} (hs : s.quote = some q) {t : Text}
    (ht : q.closer ∉ t) : s.QuotesAll (t ++ [q.closer]) := by
  induction t with
  | nil => exact ⟨quotes_of_quote hs _, trivial⟩
  | cons c t ih =>
    refine ⟨quotes_of_quote hs c, ?_⟩
    rw [step_of_ne_closer hs fun hc => ht (by simp [hc])]
    exact ih fun hmem => ht (by simp [hmem])

end ScanState

/-! ## States -/

@[simp]
theorem scan_nil (s : ScanState) : scan s [] = s := rfl

@[simp]
theorem scan_cons (s : ScanState) (c : Char) (t : Text) : scan s (c :: t) = scan (s.step c) t := rfl

@[simp]
theorem scan_append (s : ScanState) (u v : Text) : scan s (u ++ v) = scan (scan s u) v :=
  List.foldl_append

/-- Behind a closed text a scan is where it was in front of it. -/
theorem Text.IsClosed.scan_eq {t : Text} (h : t.IsClosed) : scan .top t = .top := h

theorem Text.IsClosed.quote_eq {t : Text} (h : t.IsClosed) : (scan .top t).quote = none := by
  rw [h.scan_eq]
  rfl

/-- A text without marks leaves every state as it is. -/
theorem scan_of_not_mark {t : Text} (ht : ∀ c ∈ t, isScanMark c = false) (s : ScanState) :
    scan s t = s := by
  induction t with
  | nil => rfl
  | cons c t ih =>
    rw [scan_cons, ScanState.step_of_not_mark (ht c (by simp)), ih fun d hd => ht d (by simp [hd])]

/-- Blanks leave every state as it is. -/
theorem scan_of_blank {ws : Text} (hws : ∀ c ∈ ws, isBlank c) (s : ScanState) : scan s ws = s :=
  scan_of_not_mark (fun c hc => isScanMark_of_isBlank (hws c hc)) s

/-- A text without the closing mark of a quote stays in the quote. -/
theorem scan_of_not_closer {s : ScanState} {q : Quote} (hs : s.quote = some q) {t : Text}
    (ht : q.closer ∉ t) : scan s t = s := by
  induction t with
  | nil => rfl
  | cons c t ih =>
    rw [scan_cons, ScanState.step_of_ne_closer hs fun h => ht (by simp [h]),
      ih fun h => ht (by simp [h])]

/-- A text without a closing parenthesis does not lower the depth. -/
theorem depth_le_depth_scan {t : Text} (ht : ')' ∉ t) (s : ScanState) :
    s.depth ≤ (scan s t).depth := by
  induction t generalizing s with
  | nil => exact Nat.le_refl _
  | cons c t ih =>
    have hc : c ≠ ')' := fun h => ht (by simp [h])
    refine Nat.le_trans ?_ (ih (fun hmem => ht (by simp [hmem])) (s.step c))
    -- Only a closing parenthesis outside quotes takes the depth down.
    unfold ScanState.step
    cases s.quote with
    | some q =>
      simp only
      split <;> exact Nat.le_refl _
    | none =>
      cases Quote.ofOpener? c with
      | some q => exact Nat.le_refl _
      | none =>
        simp only [hc, if_false]
        split
        · exact Nat.le_succ _
        · exact Nat.le_refl _

/-! ## Places -/

/-- The place with `v` behind the text that it stands in. -/
def Place.extend (v : Text) (p : Place) : Place := { p with after := p.after ++ v }

/-- The last character in front of what follows `c :: u`. -/
theorem getLast?_cons_or (c : Char) (u : Text) (before : Option Char) :
    (c :: u).getLast?.or before = u.getLast?.or (some c) := by
  rw [List.getLast?_cons]
  cases u.getLast? <;> rfl

/-- The places of a text in two parts. -/
theorem topLevelFrom_append (s : ScanState) (i : Nat) (before : Option Char) (u v : Text) :
    topLevelFrom s i before (u ++ v) = (topLevelFrom s i before u).map (Place.extend v) ++
      topLevelFrom (scan s u) (i + u.length) (u.getLast?.or before) v := by
  induction u generalizing s i before with
  | nil => simp [topLevelFrom]
  | cons c u ih =>
    have hlen : i + 1 + u.length = i + (c :: u).length := by simp; omega
    rw [List.cons_append, topLevelFrom, topLevelFrom, ih, getLast?_cons_or, hlen, scan_cons]
    split <;> simp [Place.extend]

/-- What is known about a place at the top level: which text stands in front of it, and that the
scan of this text ends at the top level. -/
theorem exists_of_mem_topLevelFrom {s : ScanState} {i : Nat} {before : Option Char} {t : Text}
    {p : Place} (hp : p ∈ topLevelFrom s i before t) :
    ∃ u : Text, t = u ++ p.rest ∧ p.index = i + u.length ∧ p.before = u.getLast?.or before ∧
      (scan s u).shows p.char = true := by
  induction t generalizing s i before with
  | nil => simp [topLevelFrom] at hp
  | cons c t ih =>
    rw [topLevelFrom] at hp
    -- A place of the rest has one more character in front of it.
    have hrest : p ∈ topLevelFrom (s.step c) (i + 1) (some c) t → ∃ u : Text,
        c :: t = u ++ p.rest ∧ p.index = i + u.length ∧ p.before = u.getLast?.or before ∧
          (scan s u).shows p.char = true := by
      intro hmem
      obtain ⟨u, hu, hindex, hbefore, hshows⟩ := ih hmem
      refine ⟨c :: u, by rw [hu, List.cons_append], by simp [hindex]; omega, ?_, hshows⟩
      rw [hbefore, getLast?_cons_or]
    by_cases hc : s.shows c = true
    · rw [if_pos hc] at hp
      rcases List.mem_cons.1 hp with rfl | hp
      · exact ⟨[], rfl, rfl, rfl, hc⟩
      · exact hrest hp
    · rw [if_neg hc] at hp
      exact hrest hp

/-- The scan shows a character only outside parentheses and quotes. -/
theorem ScanState.eq_top_of_shows {s : ScanState} {c : Char} (h : s.shows c = true) : s = .top := by
  rcases s with ⟨depth, quote⟩
  simp only [shows, Bool.and_eq_true, Option.isNone_iff_eq_none, beq_iff_eq] at h
  rw [ScanState.top, ← h.1.1, ← h.1.2]

/-- A place stands at the top level of a text if the scan of what is in front of it shows its
character. -/
theorem mem_topLevel_iff {t : Text} {p : Place} : p ∈ topLevel t ↔ ∃ u : Text, t = u ++ p.rest ∧
    p.index = u.length ∧ p.before = u.getLast? ∧ (scan .top u).shows p.char = true := by
  constructor
  · intro hp
    simpa using exists_of_mem_topLevelFrom hp
  · rintro ⟨u, ht, hindex, hbefore, hshows⟩
    have hplace : p = ⟨u.length, u.getLast?, p.char, p.after⟩ := by rw [← hindex, ← hbefore]
    rw [topLevel, ht, topLevelFrom_append, Place.rest, topLevelFrom, if_pos hshows, Nat.zero_add,
      Option.or_none, ← hplace]
    exact List.mem_append_right _ List.mem_cons_self

/-- Behind a closed text a character that is no mark stands at the top level. -/
theorem mem_topLevel_of_isClosed {u : Text} (hu : u.IsClosed) {c : Char}
    (hc : isScanMark c = false) (v : Text) :
    ⟨u.length, u.getLast?, c, v⟩ ∈ topLevel (u ++ c :: v) := by
  refine mem_topLevel_iff.2 ⟨u, rfl, rfl, rfl, ?_⟩
  rw [hu.scan_eq]
  exact ScanState.top_shows hc

/-- The places at the top level come in the order of the text. -/
theorem pairwise_topLevelFrom (s : ScanState) (i : Nat) (before : Option Char) (t : Text) :
    (topLevelFrom s i before t).Pairwise fun p q => p.index < q.index := by
  induction t generalizing s i before with
  | nil => exact List.Pairwise.nil
  | cons c t ih =>
    rw [topLevelFrom]
    split
    · refine List.pairwise_cons.2 ⟨fun q hq => ?_, ih ..⟩
      obtain ⟨u, -, hindex, -⟩ := exists_of_mem_topLevelFrom hq
      exact Nat.lt_of_lt_of_le (Nat.lt_succ_self i) (hindex ▸ Nat.le_add_right _ _)
    · exact ih ..

end LooseSql
