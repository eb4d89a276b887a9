import LooseSql.Normalize
import LooseSql.Proofs.Comment
import LooseSql.Proofs.Text.CaseFold

/-!
# Texts in normal form

No step of `normalize` makes a text longer, so a text is in normal form only if every step leaves it
as it is (`IsCanonical.of_normalize`): there are no comments in it, no `USE` and no batch separator
at the start of a line, and no blanks around it. A text of this kind that has no prologue is in
normal form (`IsCanonical.normalize_eq`).

The steps that work line by line look at the texts that start with a line (`lineStarts`). Behind a
stretch that stays, a line is read the same way whatever follows (`afterUse?_eq_none_of`,
`afterBatchSeparator?_eq_none_of`).
-/

namespace LooseSql

/-! ## Suffixes -/

section Suffix

variable {t rest : Text}

theorem afterMark?_suffix {mark : Char} (h : afterMark? mark t = some rest) : rest <:+ t := by
  cases t with
  | nil => simp [afterMark?] at h
  | cons c t =>
    rw [afterMark?] at h
    split at h
    · exact Option.some.inj h ▸ List.suffix_cons c t
    · exact absurd h (by simp)

theorem afterOptionalMark_suffix (mark : Char) (t : Text) : afterOptionalMark mark t <:+ t := by
  rw [afterOptionalMark]
  cases h : afterMark? mark t with
  | none => exact List.suffix_rfl
  | some rest => exact afterMark?_suffix h

theorem afterNextMark?_suffix {mark : Char} (h : afterNextMark? mark t = some rest) :
    rest <:+ t := by
  obtain ⟨inner, -, rfl⟩ := afterNextMark?_eq_some_iff.1 h
  exact ⟨inner ++ [mark], by simp⟩

theorem afterRun?_suffix {inRun : Char → Bool} (h : afterRun? inRun t = some rest) :
    rest <:+ t := by
  cases t with
  | nil => simp [afterRun?] at h
  | cons c t =>
    rw [afterRun?] at h
    split at h
    · exact Option.some.inj h ▸ (List.dropWhile_suffix inRun).trans (List.suffix_cons c t)
    · exact absurd h (by simp)

theorem afterFolded?_suffix {word : Text} (h : afterFolded? word t = some rest) : rest <:+ t := by
  obtain ⟨m, rfl, -⟩ := exists_of_afterFolded? h
  exact List.suffix_append m rest

theorem fromOuterSelect?_suffix (h : fromOuterSelect? t = some rest) : rest <:+ t := by
  induction t with
  | nil => simp [fromOuterSelect?] at h
  | cons c t ih =>
    rw [fromOuterSelect?] at h
    split at h
    · exact Option.some.inj h ▸ (List.dropWhile_suffix isBlank).trans (List.suffix_cons c t)
    · exact (ih h).trans (List.suffix_cons c t)

theorem afterCteName?_suffix (h : afterCteName? t = some rest) : rest <:+ t := by
  have hquoted : ∀ {t : Text} {p : Char → Bool} {mark c : Char},
      (afterRun? p t).bind (afterMark? mark) = some rest → rest <:+ c :: t := by
    intro t p mark c h
    obtain ⟨r, hr, h⟩ := Option.bind_eq_some_iff.1 h
    exact (afterMark?_suffix h).trans ((afterRun?_suffix hr).trans (List.suffix_cons c t))
  unfold afterCteName? at h
  split at h
  · exact hquoted h
  · exact hquoted h
  · exact afterRun?_suffix h

/-- Behind the head of a prologue the text is searched for its outer SELECT. -/
theorem exists_body_of_afterCtePrologue? (h : afterCtePrologue? t = some rest) :
    ∃ r : Text, r <:+ t ∧ fromOuterSelect? r = some rest := by
  -- Each reader of the prologue leaves a suffix of what the one in front of it leaves.
  obtain ⟨r₁, h₁, h⟩ := Option.bind_eq_some_iff.1 h
  obtain ⟨r₂, h₂, h⟩ := Option.bind_eq_some_iff.1 h
  obtain ⟨r₃, h₃, h⟩ := Option.bind_eq_some_iff.1 h
  obtain ⟨r₄, h₄, h⟩ := Option.bind_eq_some_iff.1 h
  obtain ⟨r₅, h₅, h⟩ := Option.bind_eq_some_iff.1 h
  obtain ⟨r₆, h₆, h⟩ := Option.bind_eq_some_iff.1 h
  have hcolumns : (afterCteColumns? r₃).getD r₃ <:+ r₃ := by
    cases hc : afterCteColumns? r₃ with
    | none => exact List.suffix_rfl
    | some r =>
      obtain ⟨r', hr', hr⟩ := Option.bind_eq_some_iff.1 hc
      exact (afterNextMark?_suffix hr).trans
        ((afterMark?_suffix hr').trans (List.dropWhile_suffix isBlank))
  have hname : r₃ <:+ t := (afterCteName?_suffix h₃).trans <| (Text.afterBlanks?_suffix h₂).trans <|
    (afterFolded?_suffix h₁).trans <| (List.dropWhile_suffix isBlank).trans <|
      afterOptionalMark_suffix ';' t
  have hbody : r₆ <:+ (afterCteColumns? r₃).getD r₃ := (afterMark?_suffix h₆).trans <|
    (List.dropWhile_suffix isBlank).trans <| (afterFolded?_suffix h₅).trans <|
      Text.afterBlanks?_suffix h₄
  exact ⟨r₆, hbody.trans (hcolumns.trans hname), h⟩

/-- What follows a prologue ends the text. -/
theorem afterCtePrologue?_suffix (h : afterCtePrologue? t = some rest) : rest <:+ t := by
  obtain ⟨r, hr, hselect⟩ := exists_body_of_afterCtePrologue? h
  exact (fromOuterSelect?_suffix hselect).trans hr

end Suffix

/-! ## Starts of lines -/

/-- The texts that start with a line of the text. `lineStart` tells that a line starts at its
head. -/
def lineStarts (lineStart : Bool) : Text → List Text
  | [] => []
  | c :: t => (if lineStart then [c :: t] else []) ++ lineStarts (c == '\n') t

/-- A line starts behind the text. `lineStart` tells it of a text that is empty. -/
def endsLine (lineStart : Bool) (t : Text) : Bool := t.getLast?.elim lineStart (· == '\n')

theorem lineStarts_append (lineStart : Bool) (u v : Text) :
    lineStarts lineStart (u ++ v) =
      (lineStarts lineStart u).map (· ++ v) ++ lineStarts (endsLine lineStart u) v := by
  induction u generalizing lineStart with
  | nil => rfl
  | cons c u ih =>
    have hends : endsLine lineStart (c :: u) = endsLine (c == '\n') u := by
      rw [endsLine, List.getLast?_cons, endsLine]
      cases u.getLast? <;> rfl
    rw [List.cons_append, lineStarts, lineStarts, ih, hends]
    cases lineStart <;> simp

/-- No line starts inside a line. -/
theorem lineStarts_of_not_mem {t : Text} (ht : '\n' ∉ t) : lineStarts false t = [] := by
  induction t with
  | nil => rfl
  | cons c t ih =>
    have hc : (c == '\n') = false := by
      rw [beq_eq_false_iff_ne]
      rintro rfl
      exact ht (by simp)
    rw [lineStarts, hc, ih fun h => ht (by simp [h])]
    rfl

theorem mem_lineStarts_of_false {lineStart : Bool} {t y : Text} (h : y ∈ lineStarts false t) :
    y ∈ lineStarts lineStart t := by
  cases t with
  | nil => exact h
  | cons c t =>
    rw [lineStarts] at h ⊢
    exact List.mem_append_right _ (by simpa using h)

/-- A text that starts with a line is not empty, and it ends the whole text. -/
theorem exists_of_mem_lineStarts {lineStart : Bool} {t y : Text} (h : y ∈ lineStarts lineStart t) :
    y <:+ t ∧ y ≠ [] := by
  induction t generalizing lineStart with
  | nil => simp [lineStarts] at h
  | cons c t ih =>
    rw [lineStarts, List.mem_append] at h
    rcases h with h | h
    · cases lineStart with
      | false => simp at h
      | true =>
        obtain rfl : y = c :: t := by simpa using h
        exact ⟨List.suffix_rfl, by simp⟩
    · exact ⟨(ih h).1.trans (List.suffix_cons c t), (ih h).2⟩

section Erase

variable {after? : Text → Option Text}

/-- Taking out what stands at the start of a line does not make a text longer. Where its length
stays, there was nothing to take out. -/
theorem length_eraseAtLineStarts_le (lineStart : Bool) (t : Text) :
    (eraseAtLineStarts after? lineStart t).length ≤ t.length ∧
      ((eraseAtLineStarts after? lineStart t).length = t.length →
        ∀ y ∈ lineStarts lineStart t, after? y = none) := by
  -- Induction on the length, since a command is taken out as a whole.
  induction hn : t.length using Nat.strong_induction_on generalizing t lineStart with
  | _ n ih =>
    subst hn
    rcases t with _ | ⟨c, t⟩
    · simp [eraseAtLineStarts, lineStarts]
    rw [eraseAtLineStarts]
    cases hafter : if lineStart then after? (c :: t) else none with
    | some rest =>
      -- The head of the line is taken out, so the text gets shorter.
      obtain ⟨hle, -⟩ := ih (t.drop (t.length - rest.length)).length
        (by simp only [List.length_drop, List.length_cons]; omega) false _ rfl
      have hdrop : (t.drop (t.length - rest.length)).length ≤ t.length := by simp
      simp only [List.length_cons]
      exact ⟨by omega, fun h => by omega⟩
    | none =>
      obtain ⟨hle, heq⟩ := ih t.length (by simp) (c == '\n') t rfl
      simp only [List.length_cons]
      refine ⟨by omega, fun h y hy => ?_⟩
      rw [lineStarts, List.mem_append] at hy
      rcases hy with hy | hy
      · cases lineStart with
        | false => simp at hy
        | true =>
          obtain rfl : y = c :: t := by simpa using hy
          simpa using hafter
      · exact heq (by omega) y hy

/-- A text stays as it is if there is nothing to take out. -/
theorem eraseAtLineStarts_eq_self {lineStart : Bool} {t : Text}
    (h : ∀ y ∈ lineStarts lineStart t, after? y = none) :
    eraseAtLineStarts after? lineStart t = t := by
  induction t generalizing lineStart with
  | nil => rw [eraseAtLineStarts]
  | cons c t ih =>
    have hnone : (if lineStart then after? (c :: t) else none) = none := by
      cases lineStart with
      | false => rfl
      | true => exact h _ (by simp [lineStarts])
    rw [eraseAtLineStarts, hnone]
    simp only [List.cons.injEq, true_and]
    exact ih fun y hy => h y (by rw [lineStarts]; exact List.mem_append_right _ hy)

/-- Nothing is taken out inside a line. -/
theorem eraseAtLineStarts_append {u : Text} (hu : '\n' ∉ u) (v : Text) :
    eraseAtLineStarts after? false (u ++ v) = u ++ eraseAtLineStarts after? false v := by
  induction u with
  | nil => rfl
  | cons c u ih =>
    have hc : (c == '\n') = false := by
      rw [beq_eq_false_iff_ne]
      rintro rfl
      exact hu (by simp)
    rw [List.cons_append, eraseAtLineStarts, hc, ih fun h => hu (by simp [h])]
    rfl

/-- A text whose first line starts with nothing to take out is read as from inside a line. -/
theorem eraseAtLineStarts_true {t : Text} (h : after? t = none) :
    eraseAtLineStarts after? true t = eraseAtLineStarts after? false t := by
  cases t with
  | nil => rw [eraseAtLineStarts, eraseAtLineStarts]
  | cons c t =>
    rw [eraseAtLineStarts, if_pos rfl, h, eraseAtLineStarts]
    rfl

/-- What is left stands in the text in the same order. -/
theorem eraseAtLineStarts_sublist (lineStart : Bool) (t : Text) :
    (eraseAtLineStarts after? lineStart t).Sublist t := by
  induction hn : t.length using Nat.strong_induction_on generalizing t lineStart with
  | _ n ih =>
    subst hn
    rcases t with _ | ⟨c, t⟩
    · rw [eraseAtLineStarts]
    rw [eraseAtLineStarts]
    cases if lineStart then after? (c :: t) else none with
    | some rest =>
      have hlen : (t.drop (t.length - rest.length)).length < (c :: t).length := by
        simp only [List.length_drop, List.length_cons]
        omega
      exact (ih _ hlen false _ rfl).trans
        ((List.drop_sublist _ t).trans (List.sublist_cons_self c t))
    | none => exact (ih t.length (by simp) (c == '\n') t rfl).cons_cons c

/-- The last character stays if no command takes it in. -/
theorem getLast?_eraseAtLineStarts {mark : Char} (hmark : after? [mark] = none)
    (hlast : ∀ t rest, after? t = some rest → t.getLast? = some mark → rest ≠ [])
    (lineStart : Bool) {t : Text} (ht : t.getLast? = some mark) :
    (eraseAtLineStarts after? lineStart t).getLast? = some mark := by
  induction hn : t.length using Nat.strong_induction_on generalizing t lineStart with
  | _ n ih =>
    subst hn
    rcases t with _ | ⟨c, _ | ⟨d, t⟩⟩
    · cases ht
    · obtain rfl : c = mark := Option.some.inj ht
      have hnone : (if lineStart then after? [c] else none) = none := by
        cases lineStart with
        | false => rfl
        | true => exact hmark
      rw [eraseAtLineStarts, hnone, eraseAtLineStarts]
      rfl
    · have htail : (d :: t).getLast? = some mark := by rwa [List.getLast?_cons_cons] at ht
      rw [eraseAtLineStarts]
      cases hafter : if lineStart then after? (c :: d :: t) else none with
      | some rest =>
        have hrest : after? (c :: d :: t) = some rest := by
          cases lineStart with
          | false => cases hafter
          | true => exact hafter
        -- Some of the text is left behind the command, and it ends as the text does.
        have hpos := List.length_pos_iff.2 (hlast _ _ hrest ht)
        refine ih _ ?_ false ?_ rfl
        · simp only [List.length_drop, List.length_cons]
          omega
        · rw [List.getLast?_drop, if_neg (by simp only [List.length_cons]; omega), htail]
      | none =>
        have h := ih (d :: t).length (by simp) (c == '\n') htail rfl
        have hne : eraseAtLineStarts after? (c == '\n') (d :: t) ≠ [] := by
          intro hnil
          rw [hnil] at h
          cases h
        exact (List.getLast?_append_of_ne_nil [c] hne).trans h

end Erase

/-! ## Lines in a text of two parts -/

section Parts

variable {x v v' : Text}

/-- A run stops in the first part at a character that is not of its class. -/
theorem dropWhile_append_of_mem {p : Char → Bool} {c : Char} (hc : c ∈ x) (hp : p c = false)
    (v : Text) : (x ++ v).dropWhile p = x.dropWhile p ++ v ∧ c ∈ x.dropWhile p := by
  have hmem : c ∈ x.dropWhile p := by
    rw [← List.takeWhile_append_dropWhile (p := p) (l := x), List.mem_append] at hc
    rcases hc with hc | hc
    · exact absurd (List.mem_takeWhile_imp hc) (by simp [hp])
    · exact hc
  refine ⟨?_, hmem⟩
  rw [List.dropWhile_append, if_neg]
  rw [List.isEmpty_iff]
  exact List.ne_nil_of_mem hmem

/-- A word stops in the first part at a character that it does not hold. -/
theorem afterFolded?_append_of_mem (word : Text) {c : Char} (hc : c ∈ x) (hword : foldCase c ∉ word)
    (v : Text) : afterFolded? word (x ++ v) = (afterFolded? word x).map (· ++ v) ∧
      ∀ r ∈ afterFolded? word x, c ∈ r := by
  induction word generalizing x with
  | nil => exact ⟨rfl, fun r hr => by rw [← Option.some.inj hr]; exact hc⟩
  | cons w word ih =>
    rcases x with _ | ⟨d, x⟩
    · simp at hc
    rw [List.cons_append, afterFolded?, afterFolded?]
    by_cases hd : foldCase d = w
    · rw [if_pos hd, if_pos hd]
      -- The character is no letter of the word, so it stands behind the one that matches.
      refine ih ?_ fun hmem => hword (by simp [hmem])
      rcases List.mem_cons.1 hc with rfl | hc
      · exact absurd (by simp [hd]) hword
      · exact hc
    · rw [if_neg hd, if_neg hd]
      exact ⟨rfl, by simp⟩

theorem afterRun?_append_of_mem {inRun : Char → Bool} {c : Char} (hc : c ∈ x)
    (hp : inRun c = false) (v : Text) :
    afterRun? inRun (x ++ v) = (afterRun? inRun x).map (· ++ v) ∧
      ∀ r ∈ afterRun? inRun x, c ∈ r := by
  rcases x with _ | ⟨d, x⟩
  · simp at hc
  rw [List.cons_append, afterRun?, afterRun?]
  by_cases hd : inRun d = true
  · have hx : c ∈ x := by
      rcases List.mem_cons.1 hc with rfl | hc
      · exact absurd hd (by simp [hp])
      · exact hc
    -- The run ends in `x` at the latest at `c`.
    obtain ⟨hdrop, hmem⟩ := dropWhile_append_of_mem hx hp v
    rw [if_pos hd, if_pos hd, hdrop]
    exact ⟨rfl, fun r hr => by rw [← Option.some.inj hr]; exact hmem⟩
  · rw [if_neg hd, if_neg hd]
    exact ⟨rfl, by simp⟩

theorem afterOptionalMark_append_of_mem (mark : Char) {c : Char} (hc : c ∈ x) (hne : c ≠ mark)
    (v : Text) :
    afterOptionalMark mark (x ++ v) = afterOptionalMark mark x ++ v ∧
      c ∈ afterOptionalMark mark x := by
  rcases x with _ | ⟨d, x⟩
  · simp at hc
  rw [List.cons_append, afterOptionalMark, afterOptionalMark, afterMark?, afterMark?]
  by_cases hd : d = mark
  · rw [if_pos hd, if_pos hd]
    refine ⟨rfl, ?_⟩
    rcases List.mem_cons.1 hc with rfl | hc
    · exact absurd hd hne
    · exact hc
  · rw [if_neg hd, if_neg hd]
    exact ⟨rfl, hc⟩

/-! ### Batch separators -/

/-- What follows the word of a batch separator and its count, with the blanks and the semicolon
behind them. -/
def afterSeparatorWord (t : Text) : Text :=
  (afterOptionalMark ';' (((afterBatchCount? t).getD t).dropWhile isSpaceOrTab)).dropWhile
    isSpaceOrTab

theorem afterBatchSeparator?_eq (t : Text) : afterBatchSeparator? t =
    ((afterFolded? "go".toList (t.dropWhile isSpaceOrTab)).map afterSeparatorWord).filter
      fun rest => rest.head?.all (· == '\n') := by
  rw [afterBatchSeparator?]
  cases afterFolded? "go".toList (t.dropWhile isSpaceOrTab) with
  | none => rfl
  | some r =>
    rw [Option.map_some, Option.filter_some]
    rfl

theorem afterBatchCount?_append_of_mem (hx : '\n' ∈ x) (v : Text) :
    afterBatchCount? (x ++ v) = (afterBatchCount? x).map (· ++ v) ∧
      ∀ r ∈ afterBatchCount? x, '\n' ∈ r := by
  obtain ⟨hblanks, hmem⟩ :=
    @afterRun?_append_of_mem x isSpaceOrTab '\n' hx (by decide) v
  rw [afterBatchCount?, afterBatchCount?, hblanks]
  cases hr : afterRun? isSpaceOrTab x with
  | none => exact ⟨rfl, by simp⟩
  | some r => exact afterRun?_append_of_mem (hmem r hr) (by decide) v

theorem afterSeparatorWord_append_of_mem (hx : '\n' ∈ x) (v : Text) :
    afterSeparatorWord (x ++ v) = afterSeparatorWord x ++ v ∧ '\n' ∈ afterSeparatorWord x := by
  have hcount : (afterBatchCount? (x ++ v)).getD (x ++ v) =
      (afterBatchCount? x).getD x ++ v ∧ '\n' ∈ (afterBatchCount? x).getD x := by
    obtain ⟨heq, hmem⟩ := afterBatchCount?_append_of_mem hx v
    rw [heq]
    cases hr : afterBatchCount? x with
    | none => exact ⟨rfl, hx⟩
    | some r => exact ⟨rfl, hmem r hr⟩
  obtain ⟨hblanks, hmem⟩ := dropWhile_append_of_mem (p := isSpaceOrTab) hcount.2 (by decide) v
  obtain ⟨hmark, hmem⟩ := afterOptionalMark_append_of_mem ';' hmem (by decide) v
  rw [afterSeparatorWord, afterSeparatorWord, hcount.1, hblanks, hmark]
  exact dropWhile_append_of_mem hmem (by decide) v

/-- A line that ends in the first part is a batch separator there or not at all. -/
theorem afterBatchSeparator?_append_of_mem (hx : '\n' ∈ x) (v : Text) :
    afterBatchSeparator? (x ++ v) = (afterBatchSeparator? x).map (· ++ v) := by
  obtain ⟨hblanks, hmem⟩ := dropWhile_append_of_mem (p := isSpaceOrTab) hx (by decide) v
  obtain ⟨hword, hmem⟩ := afterFolded?_append_of_mem "go".toList hmem (by decide) v
  rw [afterBatchSeparator?_eq, afterBatchSeparator?_eq, hblanks, hword]
  cases hr : afterFolded? "go".toList (x.dropWhile isSpaceOrTab) with
  | none => rfl
  | some r =>
    obtain ⟨htail, hmem⟩ := afterSeparatorWord_append_of_mem (hmem r hr) v
    have hhead : (afterSeparatorWord r ++ v).head? = (afterSeparatorWord r).head? :=
      List.head?_append_of_ne_nil _ (List.ne_nil_of_mem hmem)
    rw [Option.map_some, Option.map_some, Option.map_some, htail, Option.filter_some,
      Option.filter_some, hhead]
    split <;> rfl

/-- What stands at the end of a text behind characters of one class. -/
def Passes (p : Char → Prop) (t rest : Text) : Prop := ∃ m : Text, t = m ++ rest ∧ ∀ c ∈ m, p c

theorem Passes.trans {p : Char → Prop} {t r rest : Text} (h : Passes p t r) (h' : Passes p r rest) :
    Passes p t rest := by
  obtain ⟨m, rfl, hm⟩ := h
  obtain ⟨m', rfl, hm'⟩ := h'
  exact ⟨m ++ m', by simp, fun c hc => (List.mem_append.1 hc).elim (hm c) (hm' c)⟩

theorem passes_dropWhile {p : Char → Prop} {q : Char → Bool} (h : ∀ c, q c = true → p c)
    (t : Text) :
    Passes p t (t.dropWhile q) :=
  ⟨t.takeWhile q, List.takeWhile_append_dropWhile.symm,
    fun c hc => h c (List.mem_takeWhile_imp hc)⟩

theorem passes_afterRun? {p : Char → Prop} {q : Char → Bool} (h : ∀ c, q c = true → p c)
    {t rest : Text} (hrest : afterRun? q t = some rest) : Passes p t rest := by
  rcases t with _ | ⟨c, t⟩
  · simp [afterRun?] at hrest
  rw [afterRun?] at hrest
  split at hrest
  · rename_i hc
    have hdrop := passes_dropWhile h (c :: t)
    rwa [List.dropWhile_cons_of_pos hc, Option.some.inj hrest] at hdrop
  · exact absurd hrest (by simp)

/-- The characters of a batch separator in front of the line end. -/
def InSeparator (c : Char) : Prop :=
  isSpaceOrTab c = true ∨ foldCase c ∈ "go".toList ∨ isDecimalDigit c = true ∨ c = ';'

instance (c : Char) : Decidable (InSeparator c) :=
  inferInstanceAs (Decidable (_ ∨ _ ∨ _ ∨ _))

theorem passes_afterSeparatorWord (t : Text) : Passes InSeparator t (afterSeparatorWord t) := by
  have hblanks : ∀ t : Text, Passes InSeparator t (t.dropWhile isSpaceOrTab) :=
    passes_dropWhile fun c hc => Or.inl hc
  have hcount : Passes InSeparator t ((afterBatchCount? t).getD t) := by
    cases hr : afterBatchCount? t with
    | none => exact ⟨[], rfl, by simp⟩
    | some r =>
      obtain ⟨r', hr', hr⟩ := Option.bind_eq_some_iff.1 hr
      exact (passes_afterRun? (fun c hc => Or.inl hc) hr').trans
        (passes_afterRun? (fun c hc => Or.inr (Or.inr (Or.inl hc))) hr)
  have hmark : ∀ t : Text, Passes InSeparator t (afterOptionalMark ';' t) := by
    intro t
    rw [afterOptionalMark]
    rcases t with _ | ⟨c, t⟩
    · exact ⟨[], rfl, by simp⟩
    rw [afterMark?]
    split
    · rename_i hc
      exact ⟨[c], rfl, by simp [InSeparator, hc]⟩
    · exact ⟨[], rfl, by simp⟩
  -- A count, blanks, a semicolon, blanks: each passes over such characters only.
  exact hcount.trans ((hblanks _).trans ((hmark _).trans (hblanks _)))

/-- A batch separator has its line for itself. -/
theorem passes_afterBatchSeparator? {t rest : Text} (h : afterBatchSeparator? t = some rest) :
    Passes InSeparator t rest ∧ ∀ c ∈ rest.head?, c = '\n' := by
  rw [afterBatchSeparator?_eq, Option.filter_eq_some_iff, Option.map_eq_some_iff] at h
  obtain ⟨⟨r, hr, rfl⟩, hhead⟩ := h
  obtain ⟨m, hsplit, hm⟩ := exists_of_afterFolded? hr
  have hword : Passes InSeparator (t.dropWhile isSpaceOrTab) r := by
    refine ⟨m, hsplit, fun c hc => Or.inr (Or.inl ?_)⟩
    rw [← hm]
    exact List.mem_map_of_mem hc
  refine ⟨(passes_dropWhile (fun c hc => Or.inl hc) t).trans
    (hword.trans (passes_afterSeparatorWord r)), fun c hc => ?_⟩
  rw [Option.mem_def.1 hc] at hhead
  simpa using hhead

/-- A stretch in front of a line that holds something else is no batch separator, if it is none in
another text. -/
theorem afterBatchSeparator?_eq_none_of {b r : Text} {c : Char} (hv' : v' = b ++ c :: r)
    (hb : '\n' ∉ b) (hc : ¬ InSeparator c) (hne : c ≠ '\n')
    (h : afterBatchSeparator? (x ++ v) = none) : afterBatchSeparator? (x ++ v') = none := by
  by_cases hx : '\n' ∈ x
  · rw [afterBatchSeparator?_append_of_mem hx, Option.map_eq_none_iff] at h ⊢
    exact h
  · rw [Option.eq_none_iff_forall_ne_some]
    intro rest hrest
    obtain ⟨⟨m, hsplit, hm⟩, hhead⟩ := passes_afterBatchSeparator? hrest
    rw [hv', ← List.append_assoc] at hsplit
    -- The separator would have to go on over the other character, or to stop in front of it.
    rcases List.append_eq_append_iff.1 hsplit with ⟨a, hm', hrest'⟩ | ⟨a, hfront, rfl⟩
    · rcases a with _ | ⟨d, a⟩
      · rw [List.nil_append] at hrest'
        exact hne (hhead c (by rw [← hrest']; rfl))
      · obtain ⟨rfl, -⟩ := List.cons.inj hrest'
        exact hc (hm c (by rw [hm']; simp))
    · rcases a with _ | ⟨d, a⟩
      · exact hne (hhead c rfl)
      · obtain rfl := hhead d rfl
        have hmem : '\n' ∈ x ++ b := by rw [hfront]; simp
        rcases List.mem_append.1 hmem with hmem | hmem
        · exact hx hmem
        · exact hb hmem

/-! ### USE -/

theorem afterUse?_eq (t : Text) : afterUse? t =
    ((afterFolded? "use".toList (t.dropWhile isSpaceOrTab)).bind fun rest =>
      (Text.afterBlanks? rest).bind afterDatabaseName?).map fun rest =>
        afterOptionalMark ';' (rest.dropWhile isSpaceOrTab) := by
  rw [afterUse?]
  cases afterFolded? "use".toList (t.dropWhile isSpaceOrTab) with
  | none => rfl
  | some r =>
    cases hr : Text.afterBlanks? r with
    | none => simp [hr]
    | some r' =>
      cases hr' : afterDatabaseName? r' <;> simp [hr, hr']

/-- Whether a name follows is seen from the first character, and for a quoted name from the marks
that close it. -/
theorem afterDatabaseName?_eq_none_of {c : Char} {z : Text} (hbracket : ']' ∈ v' → ']' ∈ v)
    (hquote : '"' ∈ v' → '"' ∈ v) (h : afterDatabaseName? (c :: (z ++ v)) = none) :
    afterDatabaseName? (c :: (z ++ v')) = none := by
  have hmark : ∀ mark : Char, (mark ∈ v' → mark ∈ v) → afterNextMark? mark (z ++ v) = none →
      afterNextMark? mark (z ++ v') = none := by
    intro mark hmark h
    rw [afterNextMark?_eq_none_iff, List.mem_append] at h ⊢
    exact fun hmem => h (hmem.imp_right hmark)
  -- The first character says what is looked for: a closing bracket, a double quote or the end of a
  -- bare name.
  by_cases hopen : c = '['
  · subst hopen
    exact hmark ']' hbracket h
  · by_cases hdouble : c = '"'
    · subst hdouble
      exact hmark '"' hquote h
    · have hbare : ∀ t : Text, afterDatabaseName? (c :: t) = afterRun? isBareChar (c :: t) := by
        intro t
        unfold afterDatabaseName?
        split
        · exact absurd (List.cons.inj ‹_›).1 hopen
        · exact absurd (List.cons.inj ‹_›).1 hdouble
        · rfl
      rw [hbare, afterRun?] at h ⊢
      split at h
      · exact absurd h (by simp)
      · rw [if_neg ‹_›]

/-- A name behind blanks is looked for in the same way, if the blanks end in the first part. -/
theorem afterBlanks?_bind_databaseName_eq_none_of {y : Text} {d : Char} (hd : d ∈ y)
    (hblank : isBlank d = false) (hbracket : ']' ∈ v' → ']' ∈ v) (hquote : '"' ∈ v' → '"' ∈ v)
    (h : (Text.afterBlanks? (y ++ v)).bind afterDatabaseName? = none) :
    (Text.afterBlanks? (y ++ v')).bind afterDatabaseName? = none := by
  have hdrop := fun w => dropWhile_append_of_mem hd hblank w
  obtain ⟨c, z, hz⟩ := List.exists_cons_of_ne_nil (List.ne_nil_of_mem (hdrop []).2)
  rw [Text.afterBlanks?_eq, List.head?_append_of_ne_nil _ (List.ne_nil_of_mem hd)] at h ⊢
  split at h
  · rw [if_pos ‹_›, Option.bind_some, Text.trimStart, (hdrop _).1, hz, List.cons_append]
    rw [Option.bind_some, Text.trimStart, (hdrop _).1, hz, List.cons_append] at h
    exact afterDatabaseName?_eq_none_of hbracket hquote h
  · rw [if_neg ‹_›]
    rfl

/-- A stretch is no `USE` statement, whatever follows, if it is none in another text and the name of
the database does not stand behind it. -/
theorem afterUse?_eq_none_of (hx : x ≠ []) (hsolid : Text.trimEnd x = x)
    (hv : ∀ c ∈ v.head?, foldCase c ∉ "use".toList)
    (hv' : ∀ c ∈ v'.head?, foldCase c ∉ "use".toList)
    (hbracket : ']' ∈ v' → ']' ∈ v) (hquote : '"' ∈ v' → '"' ∈ v)
    (hname : (∀ c ∈ x.getLast?, isWordChar c = true) →
      (Text.afterBlanks? v).bind afterDatabaseName? = none →
        (Text.afterBlanks? v').bind afterDatabaseName? = none)
    (h : afterUse? (x ++ v) = none) : afterUse? (x ++ v') = none := by
  -- The last character of the stretch is no blank, so runs of blanks stop in front of it.
  obtain ⟨d, hd⟩ : ∃ d, x.getLast? = some d := ⟨_, List.getLast?_eq_some_getLast hx⟩
  have hblank : isBlank d = false := Text.trimEnd_eq_self_iff.1 hsolid d hd
  have hspace : isSpaceOrTab d = false := by
    by_contra hd'
    simp only [isSpaceOrTab, Bool.not_eq_false, Bool.or_eq_true, beq_iff_eq] at hd'
    rcases hd' with rfl | rfl <;> exact absurd hblank (by decide)
  have hdrop := fun w => dropWhile_append_of_mem (List.mem_of_getLast? hd) hspace w
  have hlast : (x.dropWhile isSpaceOrTab).getLast? = some d := by
    obtain ⟨w, hw⟩ := List.dropWhile_suffix (l := x) isSpaceOrTab
    rwa [← hw, List.getLast?_append_of_ne_nil _ (List.ne_nil_of_mem (hdrop []).2)] at hd
  rw [afterUse?_eq, Option.map_eq_none_iff] at h ⊢
  rw [(hdrop _).1, afterFolded?_append hv] at h
  rw [(hdrop _).1, afterFolded?_append hv']
  cases hr : afterFolded? "use".toList (x.dropWhile isSpaceOrTab) with
  | none => rfl
  | some y =>
    rw [hr, Option.map_some, Option.bind_some] at h
    rw [Option.map_some, Option.bind_some]
    obtain ⟨m, hsplit, hm⟩ := exists_of_afterFolded? hr
    rw [hsplit] at hlast
    cases y with
    | nil =>
      -- The word USE ends the stretch.
      rw [List.append_nil] at hlast
      refine hname (fun c hc => ?_) h
      obtain rfl := Option.mem_unique hd hc
      exact isWordChar_of_map_foldCase hm (by decide) d (List.mem_of_getLast? hlast)
    | cons e y =>
      rw [List.getLast?_append_of_ne_nil _ (List.cons_ne_nil e y)] at hlast
      exact afterBlanks?_bind_databaseName_eq_none_of (List.mem_of_getLast? hlast) hblank hbracket
        hquote h

end Parts

/-! ## Normal forms -/

/-- Nothing is taken out at the start of a line: there is no `USE` and no batch separator.
`lineStart` tells that a line starts at the head of the text. -/
def HasNoCommands (lineStart : Bool) (t : Text) : Prop :=
  ∀ y ∈ lineStarts lineStart t, afterUse? y = none ∧ afterBatchSeparator? y = none

/-- There are no comments in the text, nothing to take out at the start of a line, and no blanks
around it. -/
structure IsCanonical (t : Text) : Prop where
  /-- There are no comments. -/
  uncommented : IsUncommented t
  /-- There is no `USE` at the start of a line. -/
  use_eq : ∀ y ∈ lineStarts true t, afterUse? y = none
  /-- There is no batch separator. -/
  separator_eq : ∀ y ∈ lineStarts true t, afterBatchSeparator? y = none
  /-- There are no blanks around the text. -/
  trim_eq : t.trim = t

theorem stripCtePrologue_suffix (t : Text) : stripCtePrologue t <:+ t := by
  rw [stripCtePrologue]
  cases h : afterCtePrologue? t with
  | none => exact List.suffix_rfl
  | some rest => exact afterCtePrologue?_suffix h

/-- The normal form is not longer than the text, and every step of `normalize` leaves a text alone
whose normal form is not shorter. -/
theorem length_normalize_le (t : Text) : (normalize t).length ≤ t.length ∧
    (t.length ≤ (normalize t).length → IsCanonical t ∧ stripCtePrologue t = t) := by
  -- None of the five steps makes the text longer.
  obtain ⟨hcomments, huncommented⟩ := length_stripComments_le t
  obtain ⟨huse, huseNone⟩ := @length_eraseAtLineStarts_le afterUse? true (stripComments t)
  obtain ⟨hbatch, hbatchNone⟩ :=
    @length_eraseAtLineStarts_le afterBatchSeparator? true (stripUse (stripComments t))
  rw [← stripUse] at huse huseNone
  rw [← stripBatchSeparators] at hbatch hbatchNone
  have htrim := Text.length_trim_le (stripBatchSeparators (stripUse (stripComments t)))
  have houter := Text.length_trim_le
    (stripCtePrologue (stripBatchSeparators (stripUse (stripComments t))).trim)
  have hinner :=
    (stripCtePrologue_suffix (stripBatchSeparators (stripUse (stripComments t))).trim).length_le
  rw [← normalize] at houter
  refine ⟨by omega, fun hlen => ?_⟩
  -- All steps keep the length, so from the first to the last one nothing is taken out.
  have hcommentsEq : stripComments t = t := stripComments_eq_self_iff.2 (huncommented (by omega))
  rw [hcommentsEq] at huse huseNone hbatch hbatchNone htrim hinner houter
  have huseLines := huseNone (by omega)
  have huseEq : stripUse t = t := eraseAtLineStarts_eq_self huseLines
  rw [huseEq] at hbatch hbatchNone htrim hinner houter
  have hbatchLines := hbatchNone (by omega)
  have hbatchEq : stripBatchSeparators t = t := eraseAtLineStarts_eq_self hbatchLines
  rw [hbatchEq] at htrim hinner houter
  have htrimEq : t.trim = t := Text.trim_eq_self_of_length (by omega)
  rw [htrimEq] at hinner houter
  exact ⟨⟨huncommented (by rw [hcommentsEq]), huseLines, hbatchLines, htrimEq⟩,
    (stripCtePrologue_suffix t).eq_of_length (by omega)⟩

/-- Every step of `normalize` leaves a text in normal form as it is. -/
theorem IsCanonical.of_normalize {t : Text} (h : normalize t = t) : IsCanonical t :=
  ((length_normalize_le t).2 (by rw [h])).1

/-- A text of this kind is in normal form up to its prologue. -/
theorem IsCanonical.normalize_eq_trim {t : Text} (h : IsCanonical t) :
    normalize t = (stripCtePrologue t).trim := by
  rw [normalize, stripComments_eq_self_iff.2 h.uncommented, stripUse,
    eraseAtLineStarts_eq_self h.use_eq, stripBatchSeparators,
    eraseAtLineStarts_eq_self h.separator_eq, h.trim_eq]

/-- A text of this kind without a prologue is in normal form. -/
theorem IsCanonical.normalize_eq {t : Text} (h : IsCanonical t)
    (hprologue : afterCtePrologue? t = none) : normalize t = t := by
  rw [h.normalize_eq_trim, stripCtePrologue, hprologue, Option.getD_none, h.trim_eq]

/-- A line that starts with none of the commands, holds no mark of a quote or a comment and has no
blanks around it is in normal form. -/
theorem normalize_eq_self_of_plain {t : Text} (hmark : ∀ c ∈ t, c ∉ pieceMarks) (hline : '\n' ∉ t)
    (htrim : t.trim = t) (huse : afterUse? t = none) (hseparator : afterBatchSeparator? t = none)
    (hprologue : afterCtePrologue? t = none) : normalize t = t := by
  have hlines : ∀ y ∈ lineStarts true t, y = t := by
    cases t with
    | nil => simp [lineStarts]
    | cons c t =>
      have hc : (c == '\n') = false := by
        rw [beq_eq_false_iff_ne]
        rintro rfl
        exact hline (by simp)
      rw [lineStarts, hc, lineStarts_of_not_mem fun h => hline (by simp [h])]
      simp
  refine IsCanonical.normalize_eq ⟨isUncommented_of_not_mem hmark, ?_, ?_, htrim⟩ hprologue
  · exact fun y hy => hlines y hy ▸ huse
  · exact fun y hy => hlines y hy ▸ hseparator

/-- A text that is not in normal form is longer than its normal form. -/
theorem length_normalize_lt {t : Text} (h : normalize t ≠ t) :
    (normalize t).length < t.length := by
  obtain ⟨hle, hkept⟩ := length_normalize_le t
  refine Nat.lt_of_le_of_ne hle fun hlen => h ?_
  obtain ⟨hcanonical, hprologue⟩ := hkept (by omega)
  rw [hcanonical.normalize_eq_trim, hprologue, hcanonical.trim_eq]

end LooseSql
