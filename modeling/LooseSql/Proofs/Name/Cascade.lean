import LooseSql.Proofs.Name.Claims

/-!
# What the cascade claims

The templates of a family are tried one after another, and each claims what it finds unless the
span is taken. The outcome is ordered, free of overlaps and as large as it can be: a candidate that
is fit to be claimed stays out only if a template in front of its own took some of its span
(`matchNames_maximal`). So no name gives way to a reading with fewer parts.

* `Template.Fits`: what is checked of a candidate, other claims apart;
* `Template.pairwise_candidates`: the candidates of one template do not compete;
* `mem_claim_or_overlaps`: a candidate that fits is claimed in its turn, or it was taken before;
* `claim_append`: trying two rows of candidates is trying the first one and then the second.
-/

namespace LooseSql

/-! ## Candidates of one template -/

namespace Template

variable {template : Template}

/-- The next `skip` characters belong to a name in front, so no keyword starts there. -/
theorem le_keyword_of_mem {skip index : Nat} {before : Option Char} {t : Text} {c : Candidate}
    (hc : c ∈ template.candidatesFrom skip index before t) : index + skip ≤ c.keyword := by
  induction t generalizing skip index before with
  | nil => cases hc
  | cons d t ih =>
    cases skip with
    | succ skip =>
      have hle : index + 1 + skip ≤ c.keyword := ih hc
      omega
    | zero => exact (isWithin_of_mem hc).le_keyword

theorem pairwise_candidatesFrom (skip index : Nat) (before : Option Char) (t : Text) :
    (template.candidatesFrom skip index before t).Pairwise
      fun a b => a.name.stop ≤ b.keyword := by
  induction t generalizing skip index before with
  | nil => exact List.Pairwise.nil
  | cons d t ih =>
    cases skip with
    | succ skip => exact ih skip (index + 1) (some d)
    | zero =>
      rw [candidatesFrom_zero]
      cases hmatch : template.match? before (d :: t) with
      | none => exact ih 0 (index + 1) (some d)
      | some found =>
        rw [Option.elim_some]
        refine List.pairwise_cons.2 ⟨fun c hc => ?_, ih _ (index + 1) (some d)⟩
        -- The characters up to the end of the name are skipped.
        obtain ⟨hrest, hname⟩ := lengths_of_match? hmatch
        rw [List.length_cons] at hname
        have hkeyword := le_keyword_of_mem hc
        simp only
        omega

/-- The names that a template finds stand one behind the other, each with its keyword in front. -/
theorem pairwise_candidates (template : Template) (t : Text) :
    (template.candidates t).Pairwise fun a b => a.name.stop ≤ b.keyword :=
  pairwise_candidatesFrom 0 0 none t

/-- A candidate is told by the span of its name. -/
theorem eq_of_name_eq {t : Text} {a b : Candidate} (ha : a ∈ template.candidates t)
    (hb : b ∈ template.candidates t) (hname : a.name = b.name) : a = b := by
  by_contra hne
  have hapart : (template.candidates t).Pairwise fun a b => a.name ≠ b.name := by
    refine (List.Pairwise.and_mem.1 (template.pairwise_candidates t)).imp ?_
    rintro a b ⟨-, hb, hab⟩ hname
    obtain ⟨-, hkeyword, hstart, -⟩ := isWithin_of_mem hb
    rw [hname] at hab
    omega
  have hsymm : Std.Symm fun a b : Candidate => a.name ≠ b.name := ⟨fun _ _ h => h.symm⟩
  exact hapart.forall ha hb hne hname

/-- What is checked of a candidate, other claims apart: the tokenizer reads it as the name and
finds as many parts as the template says, no dot follows, and the keyword in front is not itself the
tail of a dotted name. -/
structure Fits (template : Template) (t : Text) (c : Candidate) (name : QualifiedName) : Prop where
  /-- The whole span is read as the name. -/
  parse?_eq : QualifiedName.parse? (c.name.slice t) = some name
  /-- The name has as many parts as the template says. -/
  length_parts : name.parts.length = template.rank
  /-- The span is not the head of a longer name. -/
  continuesWithDot_eq : continuesWithDot t c.name.stop = false
  /-- The keyword is not the tail of a dotted name. -/
  isChainTail_eq : isChainTail t c.keyword = false

theorem admit?_eq_some_iff {t : Text} {c : Candidate} {found : NameMatch} :
    template.admit? t c = some found ↔
      template.Fits t c found.name ∧ found.span = c.name ∧ found.template = template := by
  constructor
  · intro h
    obtain ⟨hspan, htemplate, hrank, hparse, hdot⟩ := eq_of_admit? h
    refine ⟨⟨hparse, hrank, hdot, ?_⟩, hspan, htemplate⟩
    rw [admit?, hdot, Bool.false_or] at h
    split at h
    · cases h
    · next htail => exact eq_false_of_ne_true htail
  · rintro ⟨hfits, hspan, htemplate⟩
    have hfound : found = ⟨c.name, found.name, template⟩ := by rw [← hspan, ← htemplate]
    rw [admit?, hfits.continuesWithDot_eq, hfits.isChainTail_eq, if_neg (by decide),
      hfits.parse?_eq, Option.bind_some, if_pos hfits.length_parts, ← hfound]

end Template

/-! ## Claiming in turn -/

section Turn

variable {t : Text} {claimed : List NameMatch}

/-- Trying two rows of candidates is trying the first one and then the second. -/
theorem claim_append (front back : List (Template × Candidate)) :
    claim t claimed (front ++ back) = claim t (claim t claimed front) back := by
  induction front generalizing claimed with
  | nil => rfl
  | cons x front ih =>
    rw [List.cons_append, claim_cons, claim_cons]
    exact ih

/-- What is claimed stays claimed. -/
theorem mem_claim {found : NameMatch} (h : found ∈ claimed) (ranked : List (Template × Candidate)) :
    found ∈ claim t claimed ranked := by
  induction ranked generalizing claimed with
  | nil => exact h
  | cons x ranked ih =>
    rw [claim_cons]
    exact ih (List.mem_append_left _ h)

/-- A candidate that is admitted is claimed when its turn comes, or its span was taken before. -/
theorem mem_claim_or_overlaps {x : Template × Candidate} {found : NameMatch}
    (hx : x.1.admit? t x.2 = some found) (front back : List (Template × Candidate)) :
    found ∈ claim t claimed (front ++ x :: back) ∨
      ∃ other ∈ claim t claimed front, other.span.overlaps x.2.name = true := by
  rw [claim_append, claim_cons, claimOne]
  split
  · next htaken => exact .inr (List.any_eq_true.1 htaken)
  · rw [hx]
    exact .inl (mem_claim (List.mem_append_right _ (List.mem_singleton.2 rfl)) back)

end Turn

/-! ## The cascade of a family -/

/-- The templates of a family come by descending part count. -/
theorem Family.pairwise_templates (family : Family) :
    family.templates.Pairwise fun a b => b.rank ≤ a.rank := by
  cases family <;> decide

/-- The candidates of one template come behind those of the templates in front of it. -/
theorem rankedCandidates_eq {templates : List Template} {i : Nat} {template : Template}
    (h : templates[i]? = some template) (budget : Budget) (t : Text) :
    rankedCandidates templates budget t = rankedCandidates (templates.take i) budget t ++
      ((template.candidatesWithin budget t).map (fun c => (template, c)) ++
        rankedCandidates (templates.drop (i + 1)) budget t) := by
  obtain ⟨hi, rfl⟩ := List.getElem?_eq_some_iff.1 h
  unfold rankedCandidates
  conv_lhs => rw [← List.take_append_drop i templates, List.flatMap_append,
    List.drop_eq_getElem_cons hi, List.flatMap_cons]

section Claimed

variable {templates : List Template} {budget : Budget} {t : Text}

/-- A claimed name is a candidate of its template that fits. -/
theorem exists_fits_of_mem_matchNames {found : NameMatch}
    (h : found ∈ matchNames templates budget t) : found.template ∈ templates ∧
      ∃ c ∈ found.template.candidates t, c.name = found.span ∧
        found.template.Fits t c found.name := by
  obtain ⟨x, hx, hadmit⟩ := (mem_of_mem_claim ((perm_matchNames ..).mem_iff.1 h)).resolve_left
    (by simp)
  obtain ⟨htemplate, -, hc⟩ := mem_rankedCandidates.1 hx
  obtain ⟨hfits, hspan, heq⟩ := Template.admit?_eq_some_iff.1 hadmit
  rw [heq]
  exact ⟨htemplate, x.2, hc, hspan.symm, hfits⟩

/-- The claimed names stand one behind the other. -/
theorem pairwise_stop_le_matchNames (templates : List Template) (budget : Budget) (t : Text) :
    (matchNames templates budget t).Pairwise
      fun a b => a.span.start < b.span.start ∧ a.span.stop ≤ b.span.start := by
  have hapart : (matchNames templates budget t).Pairwise
      fun a b => a.span.overlaps b.span = false := by
    refine (perm_matchNames templates budget t).symm.pairwise (pairwise_claim List.Pairwise.nil) ?_
    intro a b h
    simp only [Span.overlaps, decide_eq_false_iff_not] at h ⊢
    exact fun hoverlaps => h hoverlaps.symm
  refine (List.Pairwise.and_mem.1 ((pairwise_matchNames templates budget t).and hapart)).imp ?_
  rintro a b ⟨ha, hb, hle, hfree⟩
  -- Spans that are not empty and do not overlap are told apart by their starts.
  have hpos := (bounds_of_mem_claim ((perm_matchNames ..).mem_iff.1 ha)).1
  have hpos' := (bounds_of_mem_claim ((perm_matchNames ..).mem_iff.1 hb)).1
  simp only [Span.overlaps, decide_eq_false_iff_not] at hfree
  omega

/-- A candidate that fits is claimed, or a template in front of its own took some of its span. -/
theorem mem_matchNames_or_overlaps (hbudget : budget.isSpent = false) {i : Nat}
    {template : Template} (htemplate : templates[i]? = some template) {c : Candidate}
    (hc : c ∈ template.candidates t) {name : QualifiedName} (hfits : template.Fits t c name) :
    ⟨c.name, name, template⟩ ∈ matchNames templates budget t ∨
      ∃ found ∈ matchNames templates budget t, found.span.overlaps c.name = true ∧
        ∃ j < i, templates[j]? = some found.template := by
  have hadmit : template.admit? t c = some ⟨c.name, name, template⟩ :=
    Template.admit?_eq_some_iff.2 ⟨hfits, rfl, rfl⟩
  obtain ⟨front, back, hcandidates⟩ := List.append_of_mem hc
  -- The candidates that are tried before: those of the templates in front, and those of the
  -- template itself that stand in front in the text.
  obtain ⟨others, hranked⟩ : ∃ others, rankedCandidates templates budget t =
      (rankedCandidates (templates.take i) budget t ++ front.map fun c => (template, c)) ++
        (template, c) :: others := by
    rw [rankedCandidates_eq htemplate, Template.candidatesWithin, hbudget, if_neg (by decide),
      hcandidates, List.map_append, List.map_cons, List.append_assoc, List.cons_append,
      ← List.append_assoc]
    exact ⟨_, rfl⟩
  have hmem : ∀ {found}, found ∈ claim t [] (rankedCandidates templates budget t) →
      found ∈ matchNames templates budget t := (perm_matchNames ..).mem_iff.2
  rw [hranked] at hmem
  rcases mem_claim_or_overlaps (x := (template, c)) hadmit _ others with
    hclaimed | ⟨other, hother, hoverlaps⟩
  · exact .inl (hmem hclaimed)
  · refine .inr ⟨other, hmem ?_, hoverlaps, ?_⟩
    · rw [claim_append]
      exact mem_claim hother _
    · obtain ⟨y, hy, hyadmit⟩ := (mem_of_mem_claim hother).resolve_left (by simp)
      obtain ⟨-, hspan, heq⟩ := Template.admit?_eq_some_iff.1 hyadmit
      rcases List.mem_append.1 hy with hy | hy
      · obtain ⟨j, hj, hget⟩ := List.mem_iff_getElem.1 (mem_rankedCandidates.1 hy).1
        rw [List.length_take] at hj
        refine ⟨j, by omega, ?_⟩
        rw [heq, ← hget, List.getElem_take, List.getElem?_eq_getElem]
      · -- Two candidates of one template do not overlap.
        obtain ⟨c', hc', rfl⟩ := List.mem_map.1 hy
        have hpairs := template.pairwise_candidates t
        rw [hcandidates, List.pairwise_append] at hpairs
        have hle := hpairs.2.2 c' hc' c List.mem_cons_self
        have hkeyword := (Template.isWithin_of_mem hc).keyword_lt
        rw [hspan, Span.overlaps, decide_eq_true_eq] at hoverlaps
        exact absurd hoverlaps.2 (Nat.not_lt.2 (hle.trans hkeyword.le))

end Claimed

/-- The names of a text stand one behind the other. Each of them is a candidate of its template, and
the only one there, that the tokenizer reads with as many parts as the template has; no dot follows
it and its keyword is no tail of a dotted name. And a candidate that is fit in this way is among
them, or a template in front of its own, which looks for no fewer parts, took some of its span. -/
theorem matchNames_maximal (family : Family) {budget : Budget} (hbudget : budget.isSpent = false)
    (t : Text) :
    ((matchNames family.templates budget t).Pairwise
      fun a b => a.span.start < b.span.start ∧ a.span.stop ≤ b.span.start) ∧
    (∀ found ∈ matchNames family.templates budget t, found.template ∈ family.templates ∧
      ∃ c ∈ found.template.candidates t, c.name = found.span ∧
        found.template.Fits t c found.name ∧
        ∀ c' ∈ found.template.candidates t, c'.name = found.span → c' = c) ∧
    ∀ (i : Nat) (template : Template), family.templates[i]? = some template →
      ∀ c ∈ template.candidates t, ∀ name, template.Fits t c name →
        ⟨c.name, name, template⟩ ∈ matchNames family.templates budget t ∨
          ∃ found ∈ matchNames family.templates budget t, found.span.overlaps c.name = true ∧
            template.rank ≤ found.template.rank ∧
              ∃ j < i, family.templates[j]? = some found.template := by
  refine ⟨pairwise_stop_le_matchNames .., fun found hfound => ?_,
    fun i template htemplate c hc name hfits => ?_⟩
  · obtain ⟨htemplate, c, hc, hname, hfits⟩ := exists_fits_of_mem_matchNames hfound
    exact ⟨htemplate, c, hc, hname, hfits,
      fun c' hc' hname' => Template.eq_of_name_eq hc' hc (hname'.trans hname.symm)⟩
  · refine (mem_matchNames_or_overlaps hbudget htemplate hc hfits).imp_right ?_
    rintro ⟨found, hfound, hoverlaps, j, hj, hget⟩
    refine ⟨found, hfound, hoverlaps, ?_, j, hj, hget⟩
    obtain ⟨hi, rfl⟩ := List.getElem?_eq_some_iff.1 htemplate
    obtain ⟨hj', hget⟩ := List.getElem?_eq_some_iff.1 hget
    rw [← hget]
    exact List.pairwise_iff_getElem.1 family.pairwise_templates j i hj' hi hj

/-- A bracketed name that holds a JOIN and two more parts gives way to the longer name inside it:
the template for a single bracketed part stands at place 12, behind all those for two parts. -/
theorem matchNames_maximal_nested :
    Budget.default.isSpent = false ∧
      ∃ found ∈ matchNames Family.table.templates .default "FROM [a JOIN b.c]".toList,
        found.span.overlaps ⟨5, 17⟩ = true ∧ 1 ≤ found.template.rank ∧
          ∃ j < 12, Family.table.templates[j]? = some found.template := by
  have hbudget : Budget.default.isSpent = false := by decide
  obtain ⟨-, -, hmaximal⟩ := matchNames_maximal .table hbudget "FROM [a JOIN b.c]".toList
  have hfits : Template.Fits ⟨.table, 1, .bracket⟩ "FROM [a JOIN b.c]".toList ⟨0, ⟨5, 17⟩⟩
      ⟨["a JOIN b.c".toList], by decide⟩ :=
    ⟨by decide +kernel, by decide, by decide +kernel, by decide +kernel⟩
  have houtcome := hmaximal 12 ⟨.table, 1, .bracket⟩ (by decide) ⟨0, ⟨5, 17⟩⟩ (by decide +kernel) _
    hfits
  refine ⟨hbudget, houtcome.resolve_left ?_⟩
  rw [(perm_matchNames ..).mem_iff]
  decide +kernel

end LooseSql
