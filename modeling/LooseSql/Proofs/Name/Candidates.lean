import LooseSql.Name.Template
import LooseSql.Proofs.Scan
import LooseSql.Proofs.Text.CaseFold
import LooseSql.Proofs.Text.Doubled
import Mathlib.Data.List.Infix

/-!
# Candidates in a text of two parts

A template reads a text from left to right. Its candidates in `u ++ v` are those of `u` and those of
`v`, if a match that starts in `u` is the same whether or not `v` follows, and if `u` does not hide
a match at the head of `v` (`Template.candidates_append`).

* `Template.lengths_of_match?`: a match takes up some of the text, so that every candidate has a
  keyword in front of a name, and a name that is not empty (`Candidate.IsWithin`);
* `Template.exists_match?_of_mem`: a candidate is a match at a suffix of the text;
* `Template.KeepsApart`: what has to hold of the two parts.
-/

namespace LooseSql

/-! ## What a match takes up -/

theorem Shape.length_afterLast?_lt {shape : Shape} {start : Char → Bool} {t rest : Text}
    (h : shape.afterLast? start t = some rest) : rest.length < t.length := by
  cases t with
  | nil => cases h
  | cons c t =>
    simp only [afterLast?] at h
    split at h
    · cases h
    · split at h
      · exact (Doubled.length_afterSome?_lt h).trans (by simp)
      · split at h
        · rw [← Option.some.inj h]
          exact Nat.lt_succ_of_le (List.dropWhile_sublist _).length_le
        · cases h

theorem length_lt_of_afterBlanks? {t rest : Text} (h : Text.afterBlanks? t = some rest) :
    rest.length < t.length := by
  cases t with
  | nil => cases h
  | cons c t =>
    rw [Text.afterBlanks?] at h
    split at h
    · rw [← Option.some.inj h]
      exact Nat.lt_succ_of_le (Text.length_trimStart_le t)
    · cases h

namespace Family

variable {family : Family} {t rest : Text}

/-- A keyword and blanks stand in front of what is introduced. -/
theorem exists_of_afterIntroduction? (h : family.afterIntroduction? t = some rest) :
    ∃ word ∈ family.keywords, ∃ m r : Text, t = m ++ r ∧ m.map foldCase = word ∧
      Text.afterBlanks? r = some rest := by
  obtain ⟨r, hr, hrest⟩ := Option.bind_eq_some_iff.1 h
  obtain ⟨word, hword, hafter⟩ := List.exists_of_findSome?_eq_some hr
  obtain ⟨m, rfl, hm⟩ := exists_of_afterFolded? hafter
  exact ⟨word, hword, m, r, rfl, hm, hrest⟩

theorem suffix_of_afterIntroduction? (h : family.afterIntroduction? t = some rest) :
    rest <:+ t := by
  obtain ⟨-, -, m, r, rfl, -, hrest⟩ := exists_of_afterIntroduction? h
  exact (Text.afterBlanks?_suffix hrest).trans (List.suffix_append m r)

theorem length_afterIntroduction?_lt (h : family.afterIntroduction? t = some rest) :
    rest.length < t.length := by
  obtain ⟨-, -, m, r, rfl, -, hrest⟩ := exists_of_afterIntroduction? h
  have := length_lt_of_afterBlanks? hrest
  rw [List.length_append]
  omega

end Family

namespace Template

variable {template : Template}

theorem length_afterFurtherParts?_le {shape : Shape} {count : Nat} {t rest : Text}
    (h : afterFurtherParts? shape count t = some rest) : rest.length ≤ t.length := by
  induction count using Nat.strongRecOn generalizing t with
  | _ count ih =>
    match count with
    | 0 => rw [← Option.some.inj h]
    | 1 =>
      obtain ⟨r, hr, hlast⟩ := Option.bind_eq_some_iff.1 h
      have := length_afterSpacedDot?_lt hr
      have := Shape.length_afterLast?_lt hlast
      omega
    | count + 2 =>
      obtain ⟨r, hr, hfurther⟩ := Option.bind_eq_some_iff.1 h
      have hdot := length_afterSpacedDot?_lt hr
      have hle := ih (count + 1) (Nat.lt_succ_self _) hfurther
      -- A part that is missing takes up nothing, but the dot in front of it does.
      cases hinner : shape.afterInner? isFoldedBareStart r with
      | none =>
        rw [hinner, Option.getD_none] at hle
        omega
      | some r' =>
        have hpart := Shape.length_afterInner?_lt hinner
        rw [hinner, Option.getD_some] at hle
        omega

theorem length_afterName?_lt {t rest : Text} (h : template.afterName? t = some rest) :
    rest.length < t.length := by
  rw [afterName?] at h
  split at h
  · cases h
  · exact Shape.length_afterLast?_lt h
  · obtain ⟨r, hr, hfurther⟩ := Option.bind_eq_some_iff.1 h
    exact (length_afterFurtherParts?_le hfurther).trans_lt (Shape.length_afterInner?_lt hr)

/-- A match introduces a name and reads it. -/
theorem of_match? {before : Option Char} {t name rest : Text}
    (h : template.match? before t = some (name, rest)) :
    template.family.afterIntroduction? t = some name ∧ template.afterName? name = some rest := by
  rw [match?] at h
  split at h
  · cases h
  · obtain ⟨r, hr, hname⟩ := Option.bind_eq_some_iff.1 h
    obtain ⟨r', hr', hpair⟩ := Option.map_eq_some_iff.1 hname
    obtain ⟨rfl, rfl⟩ : r = name ∧ r' = rest := by simpa using hpair
    exact ⟨hr, hr'⟩

/-- A match has a keyword in front of the name, and a name that is not empty. -/
theorem lengths_of_match? {before : Option Char} {t name rest : Text}
    (h : template.match? before t = some (name, rest)) :
    rest.length < name.length ∧ name.length < t.length := by
  obtain ⟨hintroduced, hname⟩ := of_match? h
  exact ⟨length_afterName?_lt hname, Family.length_afterIntroduction?_lt hintroduced⟩

/-- Nothing matches where nothing is introduced. -/
theorem match?_eq_none {t : Text} (h : template.family.afterIntroduction? t = none)
    (before : Option Char) : template.match? before t = none := by
  rw [match?, h]
  split <;> rfl

/-- Of the character in front, a match only sees whether a word goes on from it. -/
theorem match?_congr {before before' : Option Char} (t : Text)
    (h : before.any isTextWordChar = before'.any isTextWordChar) :
    template.match? before t = template.match? before' t := by
  rw [match?, match?, h]

end Template

/-! ## Places -/

namespace Candidate

/-- The candidate in a text with `k` more characters in front. -/
def shift (k : Nat) (c : Candidate) : Candidate := ⟨k + c.keyword, c.name.map (k + ·)⟩

/-- The candidate stands between the places `i` and `n`, with its keyword in front of its name, and
the name is not empty. -/
structure IsWithin (i n : Nat) (c : Candidate) : Prop where
  /-- The keyword starts where the text does, or behind. -/
  le_keyword : i ≤ c.keyword
  /-- The keyword is in front of the name. -/
  keyword_lt : c.keyword < c.name.start
  /-- The name is not empty. -/
  start_lt : c.name.start < c.name.stop
  /-- The name ends where the text does, or in front. -/
  stop_le : c.name.stop ≤ n

end Candidate

namespace Template

variable (template : Template)

theorem candidatesFrom_zero (index : Nat) (before : Option Char) (c : Char) (t : Text) :
    template.candidatesFrom 0 index before (c :: t) =
      (template.match? before (c :: t)).elim (template.candidatesFrom 0 (index + 1) (some c) t)
        fun found => ⟨index, index + (t.length + 1) - found.1.length,
            index + (t.length + 1) - found.2.length⟩ ::
          template.candidatesFrom (t.length - found.2.length) (index + 1) (some c) t := by
  rw [candidatesFrom]
  cases template.match? before (c :: t) with
  | none => rfl
  | some found => rfl

variable {template}

/-- A search that starts further on finds the candidates further on. -/
theorem candidatesFrom_add (k skip index : Nat) (before : Option Char) (t : Text) :
    template.candidatesFrom skip (k + index) before t =
      (template.candidatesFrom skip index before t).map (Candidate.shift k) := by
  induction t generalizing skip index before with
  | nil => rfl
  | cons c t ih =>
    cases skip with
    | succ skip => exact ih skip (index + 1) (some c)
    | zero =>
      rw [candidatesFrom_zero, candidatesFrom_zero]
      cases hmatch : template.match? before (c :: t) with
      | none => exact ih 0 (index + 1) (some c)
      | some found =>
        obtain ⟨hrest, hname⟩ := lengths_of_match? hmatch
        rw [List.length_cons] at hname
        -- The places count back from the end of the text, and that end is shifted too.
        have hplaces : (⟨k + index, k + index + (t.length + 1) - found.1.length,
            k + index + (t.length + 1) - found.2.length⟩ : Candidate) =
              Candidate.shift k ⟨index, index + (t.length + 1) - found.1.length,
                index + (t.length + 1) - found.2.length⟩ := by
          simp only [Candidate.shift, Span.map, Candidate.mk.injEq, Span.mk.injEq, true_and]
          omega
        rw [Option.elim_some, Option.elim_some, List.map_cons, hplaces]
        exact congrArg _ (ih _ (index + 1) (some c))

/-- A candidate is a match at a suffix of the text. Its places count from the end of the text. -/
theorem exists_match?_of_mem {skip index : Nat} {before : Option Char} {t : Text} {c : Candidate}
    (hc : c ∈ template.candidatesFrom skip index before t) :
    ∃ (front w : Text) (before' : Option Char) (name rest : Text), t = front ++ w ∧
      template.match? before' w = some (name, rest) ∧
      c = ⟨index + front.length, index + t.length - name.length,
        index + t.length - rest.length⟩ := by
  induction t generalizing skip index before with
  | nil => cases hc
  | cons d t ih =>
    -- A candidate of the rest has one more character in front of it.
    have hrest : ∀ skip, c ∈ template.candidatesFrom skip (index + 1) (some d) t →
        ∃ (front w : Text) (before' : Option Char) (name rest : Text), d :: t = front ++ w ∧
          template.match? before' w = some (name, rest) ∧
          c = ⟨index + front.length, index + (d :: t).length - name.length,
            index + (d :: t).length - rest.length⟩ := by
      intro skip hmem
      obtain ⟨front, w, before', name, rest, hsplit, hmatch, rfl⟩ := ih hmem
      refine ⟨d :: front, w, before', name, rest, by rw [hsplit, List.cons_append], hmatch, ?_⟩
      simp only [List.length_cons, Candidate.mk.injEq, Span.mk.injEq]
      omega
    cases skip with
    | succ skip => exact hrest skip hc
    | zero =>
      rw [candidatesFrom_zero] at hc
      cases hmatch : template.match? before (d :: t) with
      | none =>
        rw [hmatch] at hc
        exact hrest 0 hc
      | some found =>
        rw [hmatch, Option.elim_some] at hc
        rcases List.mem_cons.1 hc with rfl | hc
        · exact ⟨[], d :: t, before, found.1, found.2, rfl, hmatch, rfl⟩
        · exact hrest _ hc

theorem isWithin_of_mem {skip index : Nat} {before : Option Char} {t : Text} {c : Candidate}
    (hc : c ∈ template.candidatesFrom skip index before t) :
    c.IsWithin index (index + t.length) := by
  obtain ⟨front, w, _, name, rest, rfl, hmatch, rfl⟩ := exists_match?_of_mem hc
  obtain ⟨hrest, hname⟩ := lengths_of_match? hmatch
  refine ⟨Nat.le_add_right _ _, ?_, ?_, ?_⟩ <;> simp only [List.length_append] <;> omega

/-- The character in front of the text matters to a match at its head only. -/
theorem candidatesFrom_congr {before before' : Option Char} {t : Text}
    (h : template.match? before t = template.match? before' t) (index : Nat) :
    template.candidatesFrom 0 index before t = template.candidatesFrom 0 index before' t := by
  cases t with
  | nil => rfl
  | cons c t => rw [candidatesFrom_zero, candidatesFrom_zero, h]

/-- A text where nothing matches has no candidates. -/
theorem candidatesFrom_eq_nil {t : Text}
    (h : ∀ w, w <:+ t → w ≠ [] → ∀ before, template.match? before w = none) (skip index : Nat)
    (before : Option Char) : template.candidatesFrom skip index before t = [] := by
  induction t generalizing skip index before with
  | nil => rfl
  | cons c t ih =>
    have hrest := ih fun w hw => h w (hw.trans (List.suffix_cons c t))
    cases skip with
    | succ skip => exact hrest skip (index + 1) (some c)
    | zero =>
      rw [candidatesFrom_zero, h _ (List.suffix_refl _) (by simp)]
      exact hrest 0 (index + 1) (some c)

/-! ## Two parts -/

/-- What the template matches in `u` it matches there in front of `v` too, and `u` in front does not
change what it matches at the head of `v`. -/
structure KeepsApart (template : Template) (u v : Text) : Prop where
  /-- A match that starts in `u` ends there, and does not see what follows. -/
  match_append : ∀ w, w <:+ u → w ≠ [] → ∀ before,
    template.match? before (w ++ v) = (template.match? before w).map (Prod.map (· ++ v) (· ++ v))
  /-- The end of `u` is no part of a word that `v` goes on with, or nothing matches there. -/
  match_head : template.match? u.getLast? v = template.match? none v

theorem candidatesFrom_append {u v : Text}
    (h : ∀ w, w <:+ u → w ≠ [] → ∀ before, template.match? before (w ++ v) =
      (template.match? before w).map (Prod.map (· ++ v) (· ++ v))) {skip : Nat}
    (hskip : skip ≤ u.length) (index : Nat) (before : Option Char) :
    template.candidatesFrom skip index before (u ++ v) =
      template.candidatesFrom skip index before u ++
        template.candidatesFrom 0 (index + u.length) (u.getLast?.or before) v := by
  induction u generalizing skip index before with
  | nil =>
    obtain rfl : skip = 0 := Nat.le_zero.1 hskip
    rfl
  | cons c u ih =>
    have hrest : ∀ skip ≤ u.length, template.candidatesFrom skip (index + 1) (some c) (u ++ v) =
        template.candidatesFrom skip (index + 1) (some c) u ++
          template.candidatesFrom 0 (index + (c :: u).length) ((c :: u).getLast?.or before) v := by
      intro skip hskip
      have hlen : index + 1 + u.length = index + (c :: u).length := by
        rw [List.length_cons]
        omega
      rw [ih (fun w hw => h w (hw.trans (List.suffix_cons c u))) hskip, hlen, getLast?_cons_or]
    cases skip with
    | succ skip => exact hrest skip (Nat.le_of_succ_le_succ hskip)
    | zero =>
      have happend := h (c :: u) (List.suffix_refl _) (by simp) before
      rw [List.cons_append] at happend
      rw [List.cons_append, candidatesFrom_zero, candidatesFrom_zero, happend]
      cases hmatch : template.match? before (c :: u) with
      | none => exact hrest 0 (Nat.zero_le _)
      | some found =>
        obtain ⟨hlt, hname⟩ := lengths_of_match? hmatch
        rw [List.length_cons] at hname
        -- The places count from the end of the text, which is further off by the length of `v`.
        have hskip' : (u ++ v).length - (found.2 ++ v).length = u.length - found.2.length := by
          simp only [List.length_append]
          omega
        have hplaces : (⟨index, index + ((u ++ v).length + 1) - (found.1 ++ v).length,
            index + ((u ++ v).length + 1) - (found.2 ++ v).length⟩ : Candidate) =
              ⟨index, index + (u.length + 1) - found.1.length,
                index + (u.length + 1) - found.2.length⟩ := by
          simp only [List.length_append, Candidate.mk.injEq, Span.mk.injEq, true_and]
          omega
        rw [Option.map_some, Option.elim_some, Option.elim_some, Prod.map_fst, Prod.map_snd,
          hplaces, hskip', hrest _ (Nat.sub_le _ _), List.cons_append]

/-- The candidates in a text of two parts are those in the parts. -/
theorem candidates_append {u v : Text} (h : template.KeepsApart u v) :
    template.candidates (u ++ v) =
      template.candidates u ++ (template.candidates v).map (Candidate.shift u.length) := by
  rw [candidates, candidatesFrom_append h.match_append (Nat.zero_le _), Option.or_none,
    Nat.zero_add, candidatesFrom_congr h.match_head, candidates, candidates,
    ← candidatesFrom_add u.length 0 0, Nat.add_zero]

end Template

/-! ## The word SELECT -/

/-- Nothing is introduced in the word SELECT or in the blank behind it. -/
theorem Family.afterIntroduction?_select (family : Family) {c : Char} (hc : c ∈ ['\'', '*'])
    {w : Text} (hw : w <:+ "SELECT ".toList ++ [c]) (hne : w ≠ []) (v : Text) :
    family.afterIntroduction? (w ++ v) = none := by
  have hmem : w ∈ ["SELECT ".toList ++ [c], "ELECT ".toList ++ [c], "LECT ".toList ++ [c],
      "ECT ".toList ++ [c], "CT ".toList ++ [c], "T ".toList ++ [c], [' ', c], [c], []] :=
    (List.mem_tails w _).2 hw
  simp only [List.mem_cons, List.not_mem_nil, or_false, hne] at hmem hc
  rcases hc with rfl | rfl <;> cases family <;>
    rcases hmem with rfl | rfl | rfl | rfl | rfl | rfl | rfl | rfl <;> rfl

/-- The head of a query is set apart from what follows, and it has no candidates of its own. -/
theorem Template.keepsApart_select (template : Template) {c : Char} (hc : c ∈ ['\'', '*'])
    (v : Text) : template.KeepsApart ("SELECT ".toList ++ [c]) v ∧
      template.candidates ("SELECT ".toList ++ [c]) = [] := by
  -- No part of the word SELECT introduces a name, whatever follows.
  have hnone : ∀ w, w <:+ "SELECT ".toList ++ [c] → w ≠ [] → ∀ before v,
      template.match? before (w ++ v) = none := fun w hw hne before v =>
    match?_eq_none (template.family.afterIntroduction?_select hc hw hne v) before
  have hword : (some c).any isTextWordChar = false := by
    simp only [List.mem_cons, List.not_mem_nil, or_false] at hc
    rcases hc with rfl | rfl <;> decide
  refine ⟨⟨fun w hw hne before => ?_, ?_⟩,
    candidatesFrom_eq_nil (fun w hw hne before => ?_) 0 0 none⟩
  · have h := hnone w hw hne before []
    rw [List.append_nil] at h
    rw [hnone w hw hne before v, h]
    rfl
  · rw [List.getLast?_concat]
    exact match?_congr v hword
  · have h := hnone w hw hne before []
    rwa [List.append_nil] at h

end LooseSql
