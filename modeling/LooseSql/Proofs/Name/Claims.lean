import LooseSql.Analysis
import LooseSql.Proofs.Name.Candidates
import Mathlib.Data.List.Pairwise

/-!
# The names in a text of two parts

The templates of a cascade compete for the spans of a text, so what is claimed in one place depends
on all candidates there. Candidates in different parts of a text do not compete: `claim` can be
followed on the candidates of one side alone (`claim_filter`). Claimed spans do not overlap, hence
no two of them start at one place and sorting them leaves no choice.

So the names in `u ++ v` are the names in `u` followed by those in `v` (`matchNames_append`), if the
seam between the two goes unseen (`NameSeam`). The databases and the first table follow.
-/

namespace LooseSql

/-! ## Claiming -/

namespace Template

theorem eq_of_admit? {template : Template} {t : Text} {c : Candidate} {found : NameMatch}
    (h : template.admit? t c = some found) :
    found.span = c.name ∧ found.template = template ∧ found.name.parts.length = template.rank ∧
      QualifiedName.parse? (c.name.slice t) = some found.name ∧
        continuesWithDot t c.name.stop = false := by
  rw [admit?] at h
  split at h
  · cases h
  · next hfit =>
    obtain ⟨name, hname, hfound⟩ := Option.bind_eq_some_iff.1 h
    split at hfound
    · next hrank =>
      rw [← Option.some.inj hfound]
      simp only [Bool.or_eq_true, not_or, Bool.not_eq_true] at hfit
      exact ⟨rfl, rfl, hrank, hname, hfit.1⟩
    · cases hfound

end Template

section Claim

variable {t : Text} {claimed : List NameMatch} {ranked : List (Template × Candidate)}

/-- What a candidate adds to the names that are claimed: itself, if its span is free and it is
admitted. -/
def claimOne (t : Text) (claimed : List NameMatch) (x : Template × Candidate) : Option NameMatch :=
  if claimed.any (·.span.overlaps x.2.name) then none else x.1.admit? t x.2

theorem claim_cons (x : Template × Candidate) :
    claim t claimed (x :: ranked) = claim t (claimed ++ (claimOne t claimed x).toList) ranked := by
  rw [claim, claimOne]
  split
  · rw [Option.toList_none, List.append_nil]
  · cases x.1.admit? t x.2 with
    | none => rw [Option.toList_none, List.append_nil]
    | some found => rfl

theorem claimOne_eq_some_iff {x : Template × Candidate} {found : NameMatch} :
    claimOne t claimed x = some found ↔
      claimed.any (·.span.overlaps x.2.name) = false ∧ x.1.admit? t x.2 = some found := by
  simp [claimOne]

/-- A candidate is claimed with its own span. -/
theorem span_of_mem_claimOne {x : Template × Candidate} {found : NameMatch}
    (h : found ∈ (claimOne t claimed x).toList) : found.span = x.2.name :=
  (Template.eq_of_admit? (claimOne_eq_some_iff.1 (Option.mem_toList.1 h)).2).1

/-- What is claimed in the end was claimed before or is a candidate that was admitted. -/
theorem mem_of_mem_claim {found : NameMatch} (h : found ∈ claim t claimed ranked) :
    found ∈ claimed ∨ ∃ x ∈ ranked, x.1.admit? t x.2 = some found := by
  induction ranked generalizing claimed with
  | nil => exact .inl h
  | cons x ranked ih =>
    rw [claim_cons] at h
    rcases ih h with hmem | ⟨x', hx', hadmit⟩
    · refine (List.mem_append.1 hmem).imp_right fun hone => ⟨x, List.mem_cons_self, ?_⟩
      exact (claimOne_eq_some_iff.1 (Option.mem_toList.1 hone)).2
    · exact .inr ⟨x', List.mem_cons_of_mem x hx', hadmit⟩

/-- The spans that are claimed do not overlap. -/
theorem pairwise_claim
    (h : claimed.Pairwise fun a b => a.span.overlaps b.span = false) :
    (claim t claimed ranked).Pairwise fun a b => a.span.overlaps b.span = false := by
  induction ranked generalizing claimed with
  | nil => exact h
  | cons x ranked ih =>
    rw [claim_cons]
    refine ih (List.pairwise_append.2 ⟨h, ?_, fun a ha b hb => ?_⟩)
    · cases claimOne t claimed x <;> simp
    · -- The candidate has its own span, and that overlaps none claimed before.
      have hfree := (claimOne_eq_some_iff.1 (Option.mem_toList.1 hb)).1
      rw [span_of_mem_claimOne hb]
      simpa using List.any_eq_false.1 hfree a ha

/-- Claiming sees the text only where candidates are admitted. -/
theorem claim_congr {t' : Text} (h : ∀ x ∈ ranked, x.1.admit? t x.2 = x.1.admit? t' x.2) :
    claim t claimed ranked = claim t' claimed ranked := by
  induction ranked generalizing claimed with
  | nil => rfl
  | cons x ranked ih =>
    rw [claim_cons, claim_cons, claimOne, claimOne, h x List.mem_cons_self]
    exact ih fun x' hx' => h x' (List.mem_cons_of_mem x hx')

section Filter

variable {P : Span → Bool} {Q : Span → Prop}
  (hPQ : ∀ a b, Q a → Q b → a.overlaps b = true → P a = P b)
  (hclaimed : ∀ found ∈ claimed, Q found.span)

theorem filter_claimOne (x : Template × Candidate) :
    (claimOne t claimed x).toList.filter (fun found => P found.span) =
      if P x.2.name then (claimOne t claimed x).toList else [] := by
  rw [List.filter_congr fun found hfound => by rw [span_of_mem_claimOne hfound]]
  cases P x.2.name <;> simp

include hPQ hclaimed

/-- What overlaps a candidate with the property is claimed on its side. -/
theorem claimOne_filter {x : Template × Candidate} (hx : Q x.2.name) (hP : P x.2.name = true) :
    claimOne t (claimed.filter fun found => P found.span) x = claimOne t claimed x := by
  have hany : (claimed.filter fun found => P found.span).any (·.span.overlaps x.2.name) =
      claimed.any (·.span.overlaps x.2.name) := by
    rw [List.any_filter, Bool.eq_iff_iff, List.any_eq_true, List.any_eq_true]
    refine exists_congr fun f => and_congr_right fun hf => ?_
    rw [Bool.and_eq_true]
    exact and_iff_right_of_imp fun hoverlap =>
      (hPQ _ _ (hclaimed f hf) hx hoverlap).trans hP
  rw [claimOne, claimOne, hany]

/-- What is claimed among the spans with a property `P` can be told from the candidates with this
property, if no span with it overlaps one without it. -/
theorem claim_filter (hranked : ∀ x ∈ ranked, Q x.2.name) :
    (claim t claimed ranked).filter (fun found => P found.span) =
      claim t (claimed.filter fun found => P found.span)
        (ranked.filter fun x => P x.2.name) := by
  induction ranked generalizing claimed with
  | nil => rfl
  | cons x ranked ih =>
    have hx : Q x.2.name := hranked x List.mem_cons_self
    have hmore : ∀ found ∈ claimed ++ (claimOne t claimed x).toList, Q found.span := by
      intro found hfound
      rcases List.mem_append.1 hfound with hfound | hfound
      · exact hclaimed found hfound
      · rwa [span_of_mem_claimOne hfound]
    rw [claim_cons, ih hmore fun x' hx' => hranked x' (List.mem_cons_of_mem _ hx'),
      List.filter_append, filter_claimOne, List.filter_cons]
    cases hP : P x.2.name with
    | true => rw [if_pos rfl, if_pos rfl, claim_cons, claimOne_filter hPQ hclaimed hx hP]
    | false =>
      -- The candidate is not followed, and if it is claimed it is filtered out again.
      rw [if_neg Bool.false_ne_true, if_neg Bool.false_ne_true, List.append_nil]

end Filter

end Claim

/-! ## Candidates of a family -/

section Ranked

variable {templates : List Template} {budget : Budget} {t : Text}

theorem Template.mem_candidatesWithin {template : Template} {c : Candidate} :
    c ∈ template.candidatesWithin budget t ↔
      budget.isSpent = false ∧ c ∈ template.candidates t := by
  rw [candidatesWithin]
  cases budget.isSpent <;> simp

theorem mem_rankedCandidates {x : Template × Candidate} :
    x ∈ rankedCandidates templates budget t ↔
      x.1 ∈ templates ∧ budget.isSpent = false ∧ x.2 ∈ x.1.candidates t := by
  rw [rankedCandidates, List.mem_flatMap, ← Template.mem_candidatesWithin]
  constructor
  · rintro ⟨template, htemplate, hx⟩
    obtain ⟨c, hc, rfl⟩ := List.mem_map.1 hx
    exact ⟨htemplate, hc⟩
  · rintro ⟨htemplate, hc⟩
    exact ⟨x.1, htemplate, List.mem_map.2 ⟨x.2, hc, rfl⟩⟩

theorem isWithin_of_mem_rankedCandidates {x : Template × Candidate}
    (hx : x ∈ rankedCandidates templates budget t) : x.2.IsWithin 0 t.length := by
  have hwithin := Template.isWithin_of_mem (mem_rankedCandidates.1 hx).2.2
  rwa [Nat.zero_add] at hwithin

/-- The spans that are claimed lie in the text and are not empty. -/
theorem bounds_of_mem_claim {t' : Text} {found : NameMatch}
    (h : found ∈ claim t' [] (rankedCandidates templates budget t)) :
    found.span.start < found.span.stop ∧ found.span.stop ≤ t.length := by
  obtain ⟨x, hx, hadmit⟩ := (mem_of_mem_claim h).resolve_left (by simp)
  have hwithin := isWithin_of_mem_rankedCandidates hx
  rw [(Template.eq_of_admit? hadmit).1]
  exact ⟨hwithin.start_lt, hwithin.stop_le⟩

/-- No two claimed spans start at one place. -/
theorem eq_of_start_eq {t' : Text} {a b : NameMatch}
    (ha : a ∈ claim t' [] (rankedCandidates templates budget t))
    (hb : b ∈ claim t' [] (rankedCandidates templates budget t))
    (hstart : a.span.start = b.span.start) : a = b := by
  by_contra hne
  have hsymm : Std.Symm fun a b : NameMatch => a.span.overlaps b.span = false := by
    refine ⟨fun a b h => ?_⟩
    simp only [Span.overlaps, decide_eq_false_iff_not] at h ⊢
    exact fun ⟨h₁, h₂⟩ => h ⟨h₂, h₁⟩
  -- Two spans that are not empty overlap if they start at one place.
  have hfree := (pairwise_claim List.Pairwise.nil).forall ha hb hne
  have hpos := (bounds_of_mem_claim ha).1
  have hpos' := (bounds_of_mem_claim hb).1
  simp only [Span.overlaps, decide_eq_false_iff_not] at hfree
  omega

theorem perm_matchNames (templates : List Template) (budget : Budget) (t : Text) :
    (matchNames templates budget t).Perm (claim t [] (rankedCandidates templates budget t)) :=
  List.mergeSort_perm _ _

/-- The names are given in the order of the text. -/
theorem pairwise_matchNames (templates : List Template) (budget : Budget) (t : Text) :
    (matchNames templates budget t).Pairwise fun a b => a.span.start ≤ b.span.start := by
  have h : (matchNames templates budget t).Pairwise
      fun a b => decide (a.span.start ≤ b.span.start) = true :=
    List.pairwise_mergeSort
      (fun a b c hab hbc => decide_eq_true
        ((of_decide_eq_true hab).trans (of_decide_eq_true hbc)))
      (fun a b => by simpa only [Bool.or_eq_true, decide_eq_true_eq] using Nat.le_total _ _) _
  exact h.imp fun hle => of_decide_eq_true hle

/-- Of the budget it matters only whether it is spent. -/
theorem matchNames_congr {budget' : Budget} (h : budget.isSpent = budget'.isSpent)
    (templates : List Template) (t : Text) :
    matchNames templates budget t = matchNames templates budget' t := by
  have hwithin : ∀ template : Template,
      template.candidatesWithin budget t = template.candidatesWithin budget' t := by
    intro template
    rw [Template.candidatesWithin, h, Template.candidatesWithin]
  rw [matchNames, rankedCandidates, matchNames, rankedCandidates]
  simp only [hwithin]

/-- A text without candidates has no names. -/
theorem matchNames_eq_nil (h : ∀ template ∈ templates, template.candidates t = []) :
    matchNames templates budget t = [] := by
  have hranked : rankedCandidates templates budget t = [] := by
    refine List.eq_nil_iff_forall_not_mem.2 fun x hx => ?_
    obtain ⟨htemplate, -, hc⟩ := mem_rankedCandidates.1 hx
    rw [h x.1 htemplate] at hc
    cases hc
  rw [matchNames, hranked, claim, List.mergeSort_nil]

/-- A span that a template finds lies in the text. -/
theorem stop_le_of_mem_matchNames {found : NameMatch}
    (h : found ∈ matchNames templates budget t) : found.span.stop ≤ t.length :=
  (bounds_of_mem_claim ((perm_matchNames ..).mem_iff.1 h)).2

end Ranked

/-! ## Two parts of a text -/

/-- Blanks apart, a text goes on with a character or not, whatever stands behind it, if what stands
behind does not start with this character. -/
theorem head?_trimStart_append {v : Text} {c : Char} (hv : v.trimStart.head? ≠ some c) (x : Text) :
    ((Text.trimStart (x ++ v)).head? == some c) = ((Text.trimStart x).head? == some c) := by
  by_cases hx : Text.trimStart x = []
  · rw [Text.trimStart_append_of_blank (Text.trimStart_eq_nil_iff.1 hx), hx]
    simpa using hv
  · rw [Text.trimStart_append hx, List.head?_append_of_ne_nil _ hx]

/-- The text ends in a part and a dot, blanks apart. -/
def endsDotted (t : Text) : Bool :=
  match (Text.trimEnd t).reverse with
  | '.' :: before => Chain.endsWithPart (Text.trimEnd before.reverse)
  | _ => false

theorem isChainTail_eq (t : Text) (n : Nat) :
    isChainTail t n = endsDotted ((t.take n).drop (n - lookback)) := by
  unfold isChainTail endsDotted
  rewrite [Text.trimEnd, List.reverse_reverse]
  rfl

theorem endsDotted_of_eq {t x : Text} (h : t.trimEnd = x ++ ['.']) :
    endsDotted t = Chain.endsWithPart x.trimEnd := by
  unfold endsDotted
  rw [h, List.reverse_append, List.reverse_singleton, List.singleton_append]
  exact congrArg (fun x => Chain.endsWithPart (Text.trimEnd x)) x.reverse_reverse

theorem endsDotted_eq_false {t : Text} (h : t.trimEnd.getLast? ≠ some '.') :
    endsDotted t = false := by
  unfold endsDotted
  split
  · next before hbefore =>
    rw [List.getLast?_eq_head?_reverse, hbefore] at h
    exact absurd rfl h
  · rfl

/-- A keyword with anything but a dot in front of it is no tail of a dotted name. -/
theorem isChainTail_eq_false {t : Text} {n : Nat}
    (h : (Text.trimEnd (t.take n)).getLast? ≠ some '.') : isChainTail t n = false := by
  rw [isChainTail_eq]
  refine endsDotted_eq_false fun hlast => h ?_
  -- The window that is looked at ends the text in front of the keyword.
  have hne : Text.trimEnd ((t.take n).drop (n - lookback)) ≠ [] := by
    intro hnil
    rw [hnil] at hlast
    cases hlast
  rw [← List.take_append_drop (n - lookback) (t.take n), Text.trimEnd_append _ hne,
    List.getLast?_append_of_ne_nil _ hne, hlast]

namespace NameMatch

/-- The name in a text with `k` more characters in front. -/
def shift (k : Nat) (found : NameMatch) : NameMatch :=
  { found with span := found.span.map (k + ·) }

theorem isCall_append_left {found : NameMatch} {u v : Text} (hstop : found.span.stop ≤ u.length)
    (hv : v.trimStart.head? ≠ some '(') : found.isCall (u ++ v) = found.isCall u := by
  rw [isCall, isCall, List.drop_append_of_le_length hstop, head?_trimStart_append hv]

theorem isCall_append_right (found : NameMatch) (u v : Text) :
    (found.shift u.length).isCall (u ++ v) = found.isCall v := by
  rw [isCall, isCall, shift, Span.map, List.drop_length_add_append]

end NameMatch

namespace Template

variable {template : Template} {c : Candidate} {u v : Text}

theorem admit?_append_left (hc : c.IsWithin 0 u.length) (hv : v.trimStart.head? ≠ some '.') :
    template.admit? (u ++ v) c = template.admit? u c := by
  have hkeyword : c.keyword ≤ u.length :=
    ((hc.keyword_lt.trans hc.start_lt).trans_le hc.stop_le).le
  have htail : isChainTail (u ++ v) c.keyword = isChainTail u c.keyword := by
    rw [isChainTail_eq, isChainTail_eq, List.take_append_of_le_length hkeyword]
  rw [admit?, admit?, continuesWithDot, continuesWithDot, htail,
    List.drop_append_of_le_length hc.stop_le, head?_trimStart_append hv,
    Span.slice_append_left hc.stop_le]

theorem admit?_append_right
    (hchain : isChainTail (u ++ v) (u.length + c.keyword) = isChainTail v c.keyword) :
    template.admit? (u ++ v) (c.shift u.length) =
      (template.admit? v c).map (NameMatch.shift u.length) := by
  have hdot : continuesWithDot (u ++ v) (u.length + c.name.stop) =
      continuesWithDot v c.name.stop := by
    rw [continuesWithDot, continuesWithDot, List.drop_length_add_append]
  rw [admit?, admit?, Candidate.shift, Span.slice_append_right]
  simp only [Span.map, hdot, hchain]
  split
  · rfl
  · cases QualifiedName.parse? (c.name.slice v) with
    | none => rfl
    | some name =>
      rw [Option.bind_some, Option.bind_some]
      split <;> rfl

end Template

/-- The templates see the two parts of a text as two texts. -/
structure NameSeam (templates : List Template) (u v : Text) : Prop where
  /-- No match goes over the seam. -/
  keepsApart : ∀ template ∈ templates, template.KeepsApart u v
  /-- What is found in `u` is not the head of a longer name and no call, whatever `v` is. -/
  head : ∀ template ∈ templates, template.candidates u ≠ [] →
    v.trimStart.head? ≠ some '.' ∧ v.trimStart.head? ≠ some '('
  /-- What is found in `v` is the tail of a dotted name or not, whatever `u` is. -/
  tail : ∀ template ∈ templates, ∀ c ∈ template.candidates v,
    isChainTail (u ++ v) (u.length + c.keyword) = isChainTail v c.keyword

namespace NameSeam

variable {templates : List Template} {u v : Text} (h : NameSeam templates u v) (budget : Budget)

include h

/-- The candidates on the left side of the seam. -/
theorem filter_left : (rankedCandidates templates budget (u ++ v)).filter
    (fun x => decide (x.2.name.stop ≤ u.length)) = rankedCandidates templates budget u := by
  rw [rankedCandidates, rankedCandidates, List.filter_flatMap]
  refine List.flatMap_congr fun template htemplate => ?_
  rw [Template.candidatesWithin, Template.candidatesWithin]
  split
  · rfl
  · rw [Template.candidates_append (h.keepsApart template htemplate), List.map_append,
      List.filter_append, List.filter_eq_self.2, List.filter_eq_nil_iff.2, List.append_nil]
    · -- A name of `v` ends beyond `u`, and one of `u` does not.
      intro x hx
      simp only [List.mem_map] at hx
      obtain ⟨-, ⟨c, hc, rfl⟩, rfl⟩ := hx
      have hlt := (Template.isWithin_of_mem hc).start_lt
      have hplace : ¬ u.length + c.name.stop ≤ u.length := by omega
      exact fun hle => hplace (of_decide_eq_true hle)
    · intro x hx
      obtain ⟨c, hc, rfl⟩ := List.mem_map.1 hx
      have hstop := (Template.isWithin_of_mem hc).stop_le
      simpa using hstop

/-- The candidates on the right side of the seam. -/
theorem filter_right : (rankedCandidates templates budget (u ++ v)).filter
    (fun x => !decide (x.2.name.stop ≤ u.length)) =
      (rankedCandidates templates budget v).map (Prod.map id (Candidate.shift u.length)) := by
  rw [rankedCandidates, rankedCandidates, List.filter_flatMap, List.map_flatMap]
  refine List.flatMap_congr fun template htemplate => ?_
  rw [Template.candidatesWithin, Template.candidatesWithin]
  split
  · rfl
  · rw [Template.candidates_append (h.keepsApart template htemplate), List.map_append,
      List.filter_append, List.filter_eq_nil_iff.2, List.nil_append, List.filter_eq_self.2]
    · simp only [List.map_map]
      rfl
    · intro x hx
      simp only [List.mem_map] at hx
      obtain ⟨-, ⟨c, hc, rfl⟩, rfl⟩ := hx
      have hlt := (Template.isWithin_of_mem hc).start_lt
      have hplace : ¬ u.length + c.name.stop ≤ u.length := by omega
      exact congrArg not (decide_eq_false hplace)
    · intro x hx
      obtain ⟨c, hc, rfl⟩ := List.mem_map.1 hx
      have hstop := (Template.isWithin_of_mem hc).stop_le
      simpa using hstop

/-- On the left side of the seam the same is claimed as in `u` alone. -/
theorem claim_left : claim (u ++ v) [] (rankedCandidates templates budget u) =
    claim u [] (rankedCandidates templates budget u) := by
  refine claim_congr fun x hx => ?_
  obtain ⟨htemplate, -, hc⟩ := mem_rankedCandidates.1 hx
  exact Template.admit?_append_left (isWithin_of_mem_rankedCandidates hx)
    (h.head x.1 htemplate (List.ne_nil_of_mem hc)).1

/-- On the right side of the seam a candidate is claimed as in `v` alone, further on. -/
theorem claimOne_right (claimed : List NameMatch) {x : Template × Candidate}
    (hx : x ∈ rankedCandidates templates budget v) :
    claimOne (u ++ v) (claimed.map (NameMatch.shift u.length))
      (Prod.map id (Candidate.shift u.length) x) =
        (claimOne v claimed x).map (NameMatch.shift u.length) := by
  obtain ⟨template, c⟩ := x
  obtain ⟨htemplate, -, hc⟩ := mem_rankedCandidates.1 hx
  have hany : (claimed.map (NameMatch.shift u.length)).any
      (·.span.overlaps (c.shift u.length).name) = claimed.any (·.span.overlaps c.name) := by
    rw [List.any_map]
    refine congrArg _ (funext fun found => ?_)
    simp only [Function.comp_apply, NameMatch.shift, Candidate.shift, Span.map, Span.overlaps,
      Nat.add_lt_add_iff_left]
  rw [Prod.map_apply, id, claimOne, claimOne, hany,
    Template.admit?_append_right (h.tail template htemplate c hc)]
  split <;> rfl

/-- On the right side of the seam the same is claimed as in `v` alone, further on. -/
theorem claim_right (claimed : List NameMatch) {ranked : List (Template × Candidate)}
    (hranked : ∀ x ∈ ranked, x ∈ rankedCandidates templates budget v) :
    claim (u ++ v) (claimed.map (NameMatch.shift u.length))
      (ranked.map (Prod.map id (Candidate.shift u.length))) =
        (claim v claimed ranked).map (NameMatch.shift u.length) := by
  induction ranked generalizing claimed with
  | nil => rfl
  | cons x ranked ih =>
    rw [List.map_cons, claim_cons, claim_cons,
      h.claimOne_right budget claimed (hranked x List.mem_cons_self), Option.toList_map,
      ← List.map_append]
    exact ih _ fun x' hx' => hranked x' (List.mem_cons_of_mem _ hx')

/-- A candidate stands on one side of the seam. -/
theorem stop_le_or_le_start {x : Template × Candidate}
    (hx : x ∈ rankedCandidates templates budget (u ++ v)) :
    x.2.name.stop ≤ u.length ∨ u.length ≤ x.2.name.start := by
  by_cases hstop : x.2.name.stop ≤ u.length
  · exact .inl hstop
  · have hmem : x ∈ (rankedCandidates templates budget (u ++ v)).filter
        (fun x => !decide (x.2.name.stop ≤ u.length)) := List.mem_filter.2 ⟨hx, by simp [hstop]⟩
    rw [h.filter_right] at hmem
    obtain ⟨y, -, rfl⟩ := List.mem_map.1 hmem
    exact .inr (Nat.le_add_right _ _)

/-- The two sides of the seam do not compete for spans. -/
theorem claim_perm : (claim (u ++ v) [] (rankedCandidates templates budget (u ++ v))).Perm
    (claim u [] (rankedCandidates templates budget u) ++
      (claim v [] (rankedCandidates templates budget v)).map (NameMatch.shift u.length)) := by
  have hoverlaps : ∀ a b : Span, (a.stop ≤ u.length ∨ u.length ≤ a.start) →
      (b.stop ≤ u.length ∨ u.length ≤ b.start) → a.overlaps b = true →
        decide (a.stop ≤ u.length) = decide (b.stop ≤ u.length) := by
    intro a b ha hb hoverlap
    simp only [Span.overlaps, decide_eq_true_eq] at hoverlap
    rw [decide_eq_decide]
    omega
  have hnone : ∀ found ∈ ([] : List NameMatch),
      found.span.stop ≤ u.length ∨ u.length ≤ found.span.start := by simp
  have haside := fun x (hx : x ∈ rankedCandidates templates budget (u ++ v)) =>
    h.stop_le_or_le_start budget hx
  have hleft := claim_filter (t := u ++ v) (P := fun s => decide (s.stop ≤ u.length)) hoverlaps
    hnone haside
  have hright := claim_filter (t := u ++ v) (P := fun s => !decide (s.stop ≤ u.length))
    (fun a b ha hb hab => congrArg not (hoverlaps a b ha hb hab)) hnone haside
  have hshifted := h.claim_right budget []
    fun x (hx : x ∈ rankedCandidates templates budget v) => hx
  rw [List.map_nil] at hshifted
  -- What is claimed on each side is what is claimed in that part of the text alone.
  rw [h.filter_left, List.filter_nil, h.claim_left] at hleft
  rw [h.filter_right, List.filter_nil, hshifted] at hright
  have hparts := List.filter_append_perm (fun found => decide (found.span.stop ≤ u.length))
    (claim (u ++ v) [] (rankedCandidates templates budget (u ++ v)))
  rw [hleft, hright] at hparts
  exact hparts.symm

/-- The names in a text of two parts are those in the parts. -/
theorem matchNames_append : matchNames templates budget (u ++ v) =
    matchNames templates budget u ++
      (matchNames templates budget v).map (NameMatch.shift u.length) := by
  -- Both sides are sorted and hold the same names, and no two of them start at one place.
  have hperm : (matchNames templates budget (u ++ v)).Perm (matchNames templates budget u ++
      (matchNames templates budget v).map (NameMatch.shift u.length)) :=
    (perm_matchNames ..).trans ((h.claim_perm budget).trans
      ((perm_matchNames ..).symm.append ((perm_matchNames ..).symm.map _)))
  have hright : ((matchNames templates budget v).map (NameMatch.shift u.length)).Pairwise
      fun a b => a.span.start ≤ b.span.start := by
    rw [List.pairwise_map]
    exact (pairwise_matchNames templates budget v).imp fun hle => Nat.add_le_add_left hle _
  refine hperm.eq_of_pairwise (fun a b ha hb hab hba => ?_) (pairwise_matchNames ..)
    (List.pairwise_append.2 ⟨pairwise_matchNames .., hright, fun a ha b hb => ?_⟩)
  · exact eq_of_start_eq ((perm_matchNames ..).mem_iff.1 ha)
      ((perm_matchNames ..).mem_iff.1 (hperm.mem_iff.2 hb)) (Nat.le_antisymm hab hba)
  · have hstop := bounds_of_mem_claim ((perm_matchNames ..).mem_iff.1 ha)
    obtain ⟨found, -, rfl⟩ := List.mem_map.1 hb
    simp only [NameMatch.shift, Span.map]
    omega

end NameSeam

/-! ## Databases and the first table -/

section Answers

variable {u v : Text} (budget : Budget)

/-- The databases of a text of two parts are those of the first part and then the new ones of the
second. -/
theorem databasesIn_append (h : NameSeam Family.database.templates u v) :
    databasesIn budget (u ++ v) =
      ((matchNames Family.database.templates budget v).filterMap (·.database?)).foldl addNewName
        (databasesIn budget u) := by
  rw [databasesIn, h.matchNames_append, List.filterMap_append, List.filterMap_map,
    List.foldl_append]
  rfl

/-- The first table of a text of two parts is that of the first part, or else that of the
second. -/
theorem firstTableIn_append (h : NameSeam Family.table.templates u v) :
    firstTableIn budget (u ++ v) = (firstTableIn budget u).or (firstTableIn budget v) := by
  have hleft : ∀ found ∈ matchNames Family.table.templates budget u,
      (!found.isCall (u ++ v)) = !found.isCall u := by
    intro found hfound
    obtain ⟨x, hx, -⟩ := (mem_of_mem_claim ((perm_matchNames ..).mem_iff.1 hfound)).resolve_left
      (by simp)
    obtain ⟨htemplate, -, hc⟩ := mem_rankedCandidates.1 hx
    rw [NameMatch.isCall_append_left (stop_le_of_mem_matchNames hfound)
      (h.head x.1 htemplate (List.ne_nil_of_mem hc)).2]
  -- Whether a name is that of a call is seen in its own part of the text.
  have hfind : (matchNames Family.table.templates budget u).find? (!·.isCall (u ++ v)) =
      (matchNames Family.table.templates budget u).find? (!·.isCall u) := by
    rw [← List.head?_filter, ← List.head?_filter, List.filter_congr hleft]
  have hright : (fun found : NameMatch => !found.isCall (u ++ v)) ∘ NameMatch.shift u.length =
      fun found => !found.isCall v :=
    funext fun found => congrArg not (found.isCall_append_right u v)
  rw [firstTableIn, h.matchNames_append, List.find?_append, List.find?_map, hright, hfind,
    firstTableIn, firstTableIn, Option.map_or, Option.map_map]
  rfl

end Answers

end LooseSql
