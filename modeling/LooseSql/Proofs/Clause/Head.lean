import LooseSql.Proofs.Clause.Modifiers
import LooseSql.Proofs.Clause.Search

/-!
# The head of a statement

The head of a SELECT statement is read in its own text: what follows the statement does not matter
to it (`Head.locate?_append`). `Head.Starts` says what a head is made of, the word SELECT, the
modifiers, and the text behind them.
-/

namespace LooseSql

namespace Head

/-- The head of the statement `u`: the word SELECT is followed by `body`, which starts with the
modifiers of the head and then goes on with `rest`. -/
structure Starts (u body rest : Text) (head : Head) : Prop where
  /-- The word SELECT stands in front. -/
  select : Keyword.after? .select none u = some body
  /-- The modifiers follow. -/
  reads : Modifiers.Reads .none body head.modifiers rest
  /-- The head ends in front of the rest. -/
  start_eq : head.start = u.length - rest.length
  /-- The statement is the whole of `u`. -/
  stop_eq : head.stop = u.length

/-- The word SELECT takes up six characters. -/
theorem exists_of_after?_select {u body : Text} (h : Keyword.after? .select none u = some body) :
    ∃ word : Text, u = word ++ body ∧ word.length = 6 := by
  obtain ⟨word, hu, heq⟩ := Keyword.exists_of_afterWord? (Keyword.after?_eq_some_iff.1 h).2.1
  exact ⟨word, hu, by simpa using congrArg List.length heq⟩

/-- The word SELECT of a text stands in its first statement. -/
theorem after?_select_append {u w : Text} (h : IsStatement u w) :
    Keyword.after? .select none (u ++ w) = (Keyword.after? .select none u).map (· ++ w) := by
  by_cases hu : u = []
  · subst hu
    have hnil : Keyword.after? .select none [] = none := rfl
    rw [hnil, List.nil_append, Option.map_none, Option.eq_none_iff_forall_ne_some]
    intro body hbody
    obtain ⟨m, rfl, ⟨c, hc, -, -, -, -, -, halpha⟩, -⟩ :=
      Keyword.exists_of_after? (by decide) hbody
    -- An empty statement has only blanks and a semicolon behind it, and no word.
    obtain ⟨-, -, ws, r, hsplit, hws, hr⟩ := h
    have hhead : (ws ++ r).head? = some c := by
      rw [← hsplit, List.head?_append, Option.mem_def.1 hc]
      rfl
    cases ws with
    | cons d ws =>
      obtain rfl : d = c := by simpa using hhead
      exact absurd (hws d (by simp)) (by simp [isBlank_of_isAlpha halpha])
    | nil =>
      rcases hr with rfl | ⟨r', rfl, -⟩
      · simp at hhead
      · obtain rfl : ';' = c := by simpa using hhead
        exact absurd halpha (by decide)
  · exact Keyword.after?_append (by decide) h.seam hu none

/-- The head of a text is the head of its first statement. -/
theorem locate?_eq_some_iff {u w : Text} (h : IsStatement u w) {head : Head} :
    locate? (u ++ w) = some head ↔ ∃ body rest, head.Starts u body rest := by
  rw [locate?, h.statementStop_eq, after?_select_append h, Option.map_map, Option.map_eq_some_iff]
  -- What is read as modifiers ends with the statement: the text behind the end is taken off again.
  have htake : ∀ body, Keyword.after? .select none u = some body →
      (body ++ w).take (u.length - ((u ++ w).length - (body ++ w).length)) = body := by
    intro body hbody
    obtain ⟨word, rfl, -⟩ := exists_of_after?_select hbody
    simp only [List.length_append, Nat.add_sub_add_right]
    rw [Nat.add_sub_cancel, Nat.add_sub_cancel_left, List.take_left]
  constructor
  · rintro ⟨body, hbody, rfl⟩
    refine ⟨body, (Modifiers.read body).2, hbody, ?_, ?_, rfl⟩
    · simp only [Function.comp_apply, htake body hbody]
      exact Modifiers.reads_read body
    · simp only [Function.comp_apply, htake body hbody]
  · rintro ⟨body, rest, hbody, hreads, hstart, hstop⟩
    refine ⟨body, hbody, ?_⟩
    simp only [Function.comp_apply, htake body hbody, Modifiers.read_eq_iff.2 hreads]
    cases head
    simp_all

/-- What follows the first statement of a text does not matter to its head. -/
theorem locate?_append {u w : Text} (h : IsStatement u w) : locate? (u ++ w) = locate? u := by
  have hu : IsStatement u [] := isStatement_nil h.trimEnd_eq h.semicolon_eq
  ext head
  rw [locate?_eq_some_iff h, ← List.append_nil u, locate?_eq_some_iff hu, List.append_nil]

/-- A head that is found is the head of the first statement. -/
theorem exists_of_locate? {t : Text} {head : Head} (h : locate? t = some head) :
    ∃ u w body rest, t = u ++ w ∧ IsStatement u w ∧ head.Starts u body rest := by
  have hstatement := isStatement_take_drop t
  rw [← List.take_append_drop (statementStop t) t, locate?_eq_some_iff hstatement] at h
  obtain ⟨body, rest, hstarts⟩ := h
  exact ⟨_, _, body, rest, (List.take_append_drop _ _).symm, hstatement, hstarts⟩

/-- The word FROM starts with the letter F. -/
theorem exists_cons_of_source {before : Option Char} {v rest : Text}
    (h : Keyword.after? .source before v = some rest) :
    ∃ (c : Char) (z : Text), v = c :: z ∧ c.isAlpha = true ∧ c.toLower = 'f' := by
  obtain ⟨m, rfl, ⟨c, hc, w, hw, a, ha, heq, halpha⟩, -⟩ :=
    Keyword.exists_of_after? (by decide) h
  obtain rfl : "FROM".toList = w := by simpa [Keyword.source] using hw
  obtain rfl : 'F' = a := by simpa using ha
  obtain ⟨m, rfl⟩ := List.head?_eq_some_iff.1 (Option.mem_def.1 hc)
  exact ⟨c, m ++ rest, rfl, halpha, heq⟩

/-- No modifier is read across the word FROM or blanks in front of it, and no row count opens with
it. -/
theorem modifiersSeam_of_source {x v rest : Text} (ws : Text) (hws : ∀ c ∈ ws, isBlank c)
    (h : Keyword.after? .source (x ++ ws).getLast? v = some rest) :
    Modifiers.Seam x (ws ++ v) ∧ (ws ++ v).trimStart.head? ≠ some '(' := by
  obtain ⟨c, z, rfl, halpha, hfold⟩ := exists_cons_of_source h
  have htrim : Text.trimStart (ws ++ c :: z) = c :: z := by
    rw [Text.trimStart_append_of_blank hws, Text.trimStart_eq_self_iff]
    intro d hd
    obtain rfl : c = d := by simpa using hd
    exact isBlank_of_isAlpha halpha
  refine ⟨⟨fun d hd => ?_, fun d hd hword => ?_⟩, ?_⟩
  · rw [htrim] at hd
    obtain rfl : c = d := by simpa using hd
    rw [foldCase_of_isAlpha halpha, hfold]
    exact ⟨isDecimalDigit_of_isAlpha halpha, by decide⟩
  · rcases ws with _ | ⟨e, ws⟩
    · -- FROM is a whole word, so no word character stands in front of it.
      have hlast := (Keyword.after?_eq_some_iff.1 h).1
      rw [List.append_nil, Option.mem_def.1 hd, Option.any_some, hword] at hlast
      exact absurd hlast (by simp)
    · simp [endsTextWord, isTextWordChar_of_isBlank (hws e (by simp))]
  · rw [htrim]
    intro heq
    obtain rfl : c = '(' := by simpa using heq
    exact absurd halpha (by decide)

namespace Starts

variable {u body rest : Text} {head : Head}

/-- The head ends behind the word SELECT and inside the statement. -/
theorem bounds (h : head.Starts u body rest) : 6 ≤ head.start ∧ head.start ≤ head.stop := by
  obtain ⟨word, rfl, hword⟩ := exists_of_after?_select h.select
  have hle := h.reads.suffix.length_le
  rw [h.start_eq, h.stop_eq, List.length_append]
  omega

theorem rest_eq (h : head.Starts u body rest) : u.drop head.start = rest := by
  obtain ⟨word, rfl, -⟩ := exists_of_after?_select h.select
  obtain ⟨read, rfl⟩ := h.reads.suffix
  rw [h.start_eq, ← List.append_assoc, List.length_append, Nat.add_sub_cancel, List.drop_left]

/-- The head does not see what stands behind it: of a text in two parts, the second one may be
exchanged if the head ends in the first one, which comes back to the top level. -/
theorem congr {x v v' : Text} (h : head.Starts (x ++ v) body rest) (hstart : head.start ≤ x.length)
    (hx : Text.IsClosed x) (hseam : Seam x v) (hseam' : Seam x v') (hmod : Modifiers.Seam x v)
    (hmod' : Modifiers.Seam x v')
    (hopen : v'.trimStart.head? = some '(' → v.trimStart.head? = some '(')
    (hclose : v.trimStart.head? = some '(' → ')' ∈ v) : ∃ body' rest',
      (Head.mk head.start (x ++ v').length head.modifiers).Starts (x ++ v') body' rest' := by
  have hplain : Keyword.select.IsPlain := by decide
  have hbounds := h.bounds
  obtain ⟨hselect, hreads, hstarteq, -⟩ := h
  have hne : x ≠ [] := by
    rintro rfl
    rw [List.length_nil] at hstart
    omega
  rw [Keyword.after?_append hplain hseam hne, Option.map_eq_some_iff] at hselect
  obtain ⟨y, hy, rfl⟩ := hselect
  obtain ⟨word, rfl, -⟩ := exists_of_after?_select hy
  have hsuffix : y <:+ word ++ y := List.suffix_append word y
  -- The word SELECT holds no marks, so the modifiers start at the top level.
  have hscan : scan .top y = .top := by
    obtain ⟨m, hm, -, -, hletters⟩ := Keyword.exists_of_after? hplain hy
    obtain rfl := List.append_cancel_right hm
    have hmarks : ∀ c ∈ word, isScanMark c = false := by
      intro c hc
      rcases hletters c hc with halpha | hblank
      · exact isScanMark_of_isAlpha halpha
      · exact isScanMark_of_isBlank hblank
    rwa [Text.IsClosed, scan_append, scan_of_not_mark hmarks] at hx
  -- The modifiers end in the first part, as the head does.
  have hlen : v.length ≤ rest.length := by
    have hle := hreads.suffix.length_le
    simp only [List.length_append] at hle hstart hstarteq ⊢
    omega
  obtain ⟨z, hz, rfl, hreads'⟩ := hreads.congr hlen (hmod.of_suffix hsuffix)
    (hmod'.of_suffix hsuffix) hopen hclose (Or.inl rfl) hscan
  refine ⟨y ++ v', z ++ v', ?_, hreads', ?_, rfl⟩
  · rw [Keyword.after?_append hplain hseam' hne, hy]
    rfl
  · rw [hstarteq]
    simp only [List.length_append]
    omega

/-- The head does not see what stands behind FROM. -/
theorem congr_source {x v v' : Text} (h : head.Starts (x ++ v) body rest)
    (hstart : head.start ≤ x.length) (hx : Text.IsClosed x)
    (hv : (Keyword.after? .source x.getLast? v).isSome)
    (hv' : (Keyword.after? .source x.getLast? v').isSome) : ∃ body' rest',
      (Head.mk head.start (x ++ v').length head.modifiers).Starts (x ++ v') body' rest' := by
  obtain ⟨r, hr⟩ := Option.isSome_iff_exists.1 hv
  obtain ⟨r', hr'⟩ := Option.isSome_iff_exists.1 hv'
  rw [← List.append_nil x] at hr hr'
  obtain ⟨hmod, hopen⟩ := modifiersSeam_of_source [] (by simp) hr
  obtain ⟨hmod', hopen'⟩ := modifiersSeam_of_source [] (by simp) hr'
  rw [List.append_nil] at hr hr'
  exact h.congr hstart hx (seam_of_after? (by decide) hr) (seam_of_after? (by decide) hr') hmod
    hmod'
    (fun heq => absurd heq hopen') fun heq => absurd heq hopen

end Starts

end Head

end LooseSql
