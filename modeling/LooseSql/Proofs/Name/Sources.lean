import LooseSql.Proofs.Name.Claims
import LooseSql.Proofs.Name.Written

/-!
# One source of a query

A source is FROM or JOIN with a written name behind it. What the templates of a family find there is
the name, with a template that counts its parts (`Source.exists_matchNames_eq`), or nothing, if the
family has no such template (`Source.matchNames_eq_nil`).

Behind the word all candidates start at the same place, so the first one that is admitted keeps the
others from being claimed (`Source.matchNames_eq_findSome?`). A template that counts too few parts
stops in front of a dot, one that counts too many does not match, and one that counts the parts of
the name is admitted (`Source.admit?_candidate`).
-/

namespace LooseSql

/-! ## Candidates that start at one place -/

section Claim

variable {t : Text} {ranked : List (Template × Candidate)} {n : Nat}
  (h : ∀ x ∈ ranked, x.2.name.start = n ∧ n < x.2.name.stop)

include h

/-- Once one of them is claimed, the others are passed over. -/
theorem claim_singleton {found : NameMatch} (hfound : found.span.start = n ∧ n < found.span.stop) :
    claim t [found] ranked = [found] := by
  induction ranked with
  | nil => rfl
  | cons x ranked ih =>
    obtain ⟨hstart, hstop⟩ := h x List.mem_cons_self
    have hoverlaps : [found].any (·.span.overlaps x.2.name) = true := by
      rw [List.any_cons, Bool.or_eq_true]
      refine .inl (decide_eq_true ?_)
      omega
    rw [claim_cons, claimOne, if_pos hoverlaps]
    exact ih fun x' hx' => h x' (List.mem_cons_of_mem x hx')

/-- Of candidates that start at one place, the first one that is admitted is claimed. -/
theorem claim_of_start_eq :
    claim t [] ranked = (ranked.findSome? fun x => x.1.admit? t x.2).toList := by
  induction ranked with
  | nil => rfl
  | cons x ranked ih =>
    have hrest := fun x' hx' => h x' (List.mem_cons_of_mem x hx')
    rw [claim_cons, claimOne, if_neg (by simp), List.findSome?_cons]
    cases hadmit : x.1.admit? t x.2 with
    | none => exact ih hrest
    | some found =>
      refine claim_singleton hrest ?_
      rw [(Template.eq_of_admit? hadmit).1]
      exact h x List.mem_cons_self

end Claim

theorem Family.mem_templates {family : Family} {template : Template} :
    template ∈ family.templates ↔ template.family = family ∧ template.rank ∈ family.ranks := by
  simp only [templates, List.mem_flatMap, List.mem_map]
  constructor
  · rintro ⟨rank, hrank, shape, -, rfl⟩
    exact ⟨rfl, hrank⟩
  · rintro ⟨rfl, hrank⟩
    exact ⟨template.rank, hrank, template.shape, by cases template.shape <;> decide, rfl⟩

/-! ## Written names as text -/

namespace WrittenName

theorem isBlank_of_mem_part {p : DelimitedPart} {c : Char} (hc : c ∈ p.text) :
    isBlank c = false := by
  by_cases hp : p.part = []
  · rw [DelimitedPart.text, if_pos hp] at hc
    cases hc
  · rw [DelimitedPart.text_eq hp] at hc
    simp only [List.mem_cons, List.mem_append, List.not_mem_nil, or_false] at hc
    rcases hc with rfl | hc | rfl
    · cases p.delimiter <;> decide
    · exact (p.isPlain c hc).1
    · cases p.delimiter <;> decide

theorem isBlank_of_mem_furtherText {parts : List DelimitedPart} {c : Char}
    (hc : c ∈ furtherText parts) : isBlank c = false := by
  obtain ⟨p, -, hc⟩ := List.mem_flatMap.1 hc
  rcases List.mem_cons.1 hc with rfl | hc
  · decide
  · exact isBlank_of_mem_part hc

/-- No blank stands in a written name. -/
theorem isBlank_of_mem {n : WrittenName} {c : Char} (hc : c ∈ n.text) : isBlank c = false := by
  rw [text_eq] at hc
  rcases List.mem_append.1 hc with hc | hc
  · exact isBlank_of_mem_part hc
  · exact isBlank_of_mem_furtherText hc

theorem exists_getLast?_parts {p : DelimitedPart} {parts : List DelimitedPart}
    (h : EndsWritten (p :: parts)) :
    ∃ d : Delimiter, (p.text ++ furtherText parts).getLast? = some d.closing := by
  induction parts generalizing p with
  | nil =>
    have hp : p.part ≠ [] := h p rfl
    refine ⟨p.delimiter, ?_⟩
    rw [furtherText, List.flatMap_nil, List.append_nil, DelimitedPart.text_eq hp,
      ← List.cons_append, List.getLast?_concat]
  | cons q parts ih =>
    obtain ⟨d, hd⟩ := ih h.tail
    -- The parts that follow are written, so the text does not end with the first one.
    have hne : q.text ++ furtherText parts ≠ [] := by
      intro hnil
      rw [hnil] at hd
      cases hd
    refine ⟨d, ?_⟩
    rw [furtherText_cons, List.append_cons, List.getLast?_append_of_ne_nil _ hne, hd]

/-- A written name ends in a closing mark. -/
theorem exists_getLast? (n : WrittenName) : ∃ d : Delimiter, n.text.getLast? = some d.closing := by
  rw [text_eq]
  exact exists_getLast?_parts n.endsWritten

theorem text_ne_nil (n : WrittenName) : n.text ≠ [] := by
  obtain ⟨d, hd⟩ := n.exists_getLast?
  intro hnil
  rw [hnil] at hd
  cases hd

/-- What a template leaves of a name ends its text. -/
theorem exists_text_eq {n : WrittenName} {template : Template} {rest : List DelimitedPart}
    (h : n.remaining? template = some rest) : ∃ x, n.text = x ++ furtherText rest := by
  obtain ⟨hpos, -, hrest⟩ := remaining?_eq_some h
  obtain ⟨k, hk⟩ := Nat.exists_eq_add_of_lt hpos
  rw [Nat.zero_add] at hk
  rw [hk, List.drop_succ_cons] at hrest
  refine ⟨n.first.text ++ furtherText (n.others.take k), ?_⟩
  rw [text_eq, hrest, List.append_assoc, furtherText, furtherText, furtherText,
    ← List.flatMap_append, List.take_append_drop]

end WrittenName

/-- Nothing is introduced in a text without blanks that ends in no letter. -/
theorem Family.afterIntroduction?_eq_none (family : Family) {w : Text} {d : Char}
    (hblank : ∀ c ∈ w, isBlank c = false) (hlast : w.getLast? = some d)
    (hd : (foldCase d).isAlpha = false) (v : Text) : family.afterIntroduction? (w ++ v) = none := by
  refine Option.eq_none_iff_forall_ne_some.2 fun rest hrest => ?_
  obtain ⟨word, hword, m, r, hsplit, hm, hr⟩ := exists_of_afterIntroduction? hrest
  have halpha : ∀ word ∈ family.keywords, ∀ c ∈ word, c.isAlpha = true := by
    cases family <;> decide
  -- The keyword would end inside the text, in front of a blank, or take in its last character.
  have hnot : d ∉ m := by
    intro hmem
    have hletter := halpha word hword (foldCase d) (by rw [← hm]; exact List.mem_map_of_mem hmem)
    rw [hd] at hletter
    cases hletter
  rcases List.append_eq_append_iff.1 hsplit with ⟨a, rfl, -⟩ | ⟨a, rfl, rfl⟩
  · exact hnot (List.mem_append_left _ (List.mem_of_getLast? hlast))
  · cases a with
    | nil =>
      rw [List.append_nil] at hlast
      exact hnot (List.mem_of_getLast? hlast)
    | cons c a =>
      have hc := hblank c (by simp)
      rw [List.cons_append, Text.afterBlanks?, hc] at hr
      cases hr

/-! ## One source -/

/-- The word that introduces a table. -/
inductive SourceWord where
  /-- FROM, in front of the first table. -/
  | first
  /-- JOIN, in front of each further table. -/
  | further
  deriving DecidableEq, Repr

/-- The word as it is written. -/
def SourceWord.text : SourceWord → Text
  | first => "FROM".toList
  | further => "JOIN".toList

/-- The word, and the space around it, introduce a name from the word's start on only. -/
theorem SourceWord.afterIntroduction?_suffix (word : SourceWord) (family : Family) {r : Text}
    (hr : r <:+ ' ' :: word.text) (hne : r ≠ word.text) (t : Text) :
    family.afterIntroduction? (r ++ ' ' :: t) = none := by
  -- The suffixes are few, and only the whole word introduces a name.
  have hmem := (List.mem_tails r _).2 hr
  cases word with
  | first =>
    have htails : r ∈ [" FROM".toList, "FROM".toList, "ROM".toList, "OM".toList, "M".toList, []] :=
      hmem
    simp only [List.mem_cons, List.not_mem_nil, or_false] at htails
    rcases htails with rfl | rfl | rfl | rfl | rfl | rfl
    case inr.inl => exact absurd rfl hne
    all_goals cases family <;> rfl
  | further =>
    have htails : r ∈ [" JOIN".toList, "JOIN".toList, "OIN".toList, "IN".toList, "N".toList, []] :=
      hmem
    simp only [List.mem_cons, List.not_mem_nil, or_false] at htails
    rcases htails with rfl | rfl | rfl | rfl | rfl | rfl
    case inr.inl => exact absurd rfl hne
    all_goals cases family <;> rfl

/-- A table of a query, with the word that introduces it. -/
structure Source where
  /-- The word. -/
  word : SourceWord
  /-- The name of the table. -/
  name : WrittenName

namespace Source

variable (s : Source)

/-- The word and the name, behind a space each. -/
def text : Text := ' ' :: (s.word.text ++ ' ' :: s.name.text)

/-- The text in front of the name. -/
def front : Text := ' ' :: (s.word.text ++ [' '])

theorem text_eq : s.text = s.front ++ s.name.text := by simp [text, front]

theorem length_front : s.front.length = 6 := by
  rw [front]
  cases s.word <;> rfl

theorem length_text : s.text.length = 6 + s.name.text.length := by
  rw [text_eq, List.length_append, length_front]

theorem exists_getLast? : ∃ d : Delimiter, s.text.getLast? = some d.closing := by
  obtain ⟨d, hd⟩ := s.name.exists_getLast?
  exact ⟨d, by rw [text_eq, List.getLast?_append_of_ne_nil _ s.name.text_ne_nil, hd]⟩

theorem trimEnd_text : s.text.trimEnd = s.text := by
  obtain ⟨d, hd⟩ := s.exists_getLast?
  refine Text.trimEnd_eq_self_of_getLast? hd ?_
  cases d <;> decide

/-- In a source only its word introduces anything. -/
theorem afterIntroduction?_suffix (family : Family) {w : Text} (hw : w <:+ s.text) (hne : w ≠ [])
    (hword : w ≠ s.word.text ++ ' ' :: s.name.text) (v : Text) :
    family.afterIntroduction? (w ++ v) = none := by
  have hname : w <:+ s.name.text → family.afterIntroduction? (w ++ v) = none := by
    rintro ⟨u, hu⟩
    obtain ⟨d, hd⟩ := s.name.exists_getLast?
    refine family.afterIntroduction?_eq_none (d := d.closing) (fun c hc => ?_) ?_ ?_ v
    · exact WrittenName.isBlank_of_mem (n := s.name) (by rw [← hu]; simp [hc])
    · rwa [← hu, List.getLast?_append_of_ne_nil _ hne] at hd
    · cases d <;> decide
  -- The text starts in the word, in the blank behind it, or in the name.
  have hcases : (∃ r, r <:+ ' ' :: s.word.text ∧ w = r ++ ' ' :: s.name.text) ∨
      w <:+ s.name.text := by
    obtain ⟨u, hu⟩ := hw
    rw [text, ← List.cons_append] at hu
    rcases List.append_eq_append_iff.1 hu with ⟨r, hr, rfl⟩ | ⟨r, -, hr⟩
    · exact .inl ⟨r, ⟨u, hr.symm⟩, rfl⟩
    · cases r with
      | nil => exact .inl ⟨[], List.nil_suffix, hr.symm⟩
      | cons c r => exact .inr ⟨r, (List.cons.inj hr).2.symm⟩
  rcases hcases with ⟨r, hr, rfl⟩ | hsuffix
  · rw [List.append_assoc, List.cons_append]
    refine s.word.afterIntroduction?_suffix family hr ?_ (s.name.text ++ v)
    rintro rfl
    exact hword rfl
  · exact hname hsuffix

/-- A template matches nowhere in a source but at its word. -/
theorem match?_eq_none (template : Template) {w : Text} (hw : w <:+ s.text) (hne : w ≠ [])
    (hword : w ≠ s.word.text ++ ' ' :: s.name.text) (before : Option Char) (v : Text) :
    template.match? before (w ++ v) = none :=
  Template.match?_eq_none (s.afterIntroduction?_suffix template.family hw hne hword v) before

/-- A template matches at the word of a source as it reads the name. -/
theorem match?_word (template : Template) {before : Option Char}
    (hbefore : before.any isTextWordChar = false) {v : Text} (hv : EndsName v) :
    template.match? before (s.word.text ++ ' ' :: s.name.text ++ v) =
      (s.name.remaining? template).map fun rest => (s.name.text ++ v, furtherText rest ++ v) := by
  have hsolid : Text.trimStart (s.name.text ++ v) = s.name.text ++ v := by
    refine Text.trimStart_eq_self_iff.2 fun c hc => ?_
    rw [List.head?_append_of_ne_nil _ s.name.text_ne_nil] at hc
    exact WrittenName.isBlank_of_mem (List.mem_of_mem_head? hc)
  -- The word is taken and then the blank; the name starts with none.
  have hintroduced : template.family.afterIntroduction?
      (s.word.text ++ ' ' :: s.name.text ++ v) = some (s.name.text ++ v) := by
    have h : template.family.afterIntroduction? (s.word.text ++ ' ' :: s.name.text ++ v) =
        Text.afterBlanks? (' ' :: (s.name.text ++ v)) := by
      cases s.word <;> cases template.family <;> rfl
    exact h.trans (congrArg some hsolid)
  rw [Template.match?, hbefore, if_neg Bool.false_ne_true, hintroduced, Option.bind_some,
    Template.afterName?_text template s.name hv, Option.map_map]
  rfl

/-- A source is set apart from text that ends its name. -/
theorem keepsApart (template : Template) {v : Text} (hv : EndsName v) :
    template.KeepsApart s.text v where
  match_append w hw hne before := by
    -- A name is read only from where the word stands, and there it is read the same with `v` behind
    -- it.
    by_cases hword : w = s.word.text ++ ' ' :: s.name.text
    · cases hbefore : before.any isTextWordChar with
      | true => rw [Template.match?, Template.match?, hbefore]; rfl
      | false =>
        have h := s.match?_word template hbefore .nil
        rw [List.append_nil] at h
        rw [hword, s.match?_word template hbefore hv, h, Option.map_map]
        simp [Function.comp_def]
    · have h := s.match?_eq_none template hw hne hword
      have hnil := h before []
      rw [List.append_nil] at hnil
      rw [h, hnil]
      rfl
  match_head := by
    obtain ⟨d, hd⟩ := s.exists_getLast?
    refine Template.match?_congr v ?_
    rw [hd]
    cases d <;> decide

/-- The candidate of a template that leaves `rest` of the name. -/
def candidate (rest : List DelimitedPart) : Candidate :=
  ⟨1, 6, s.text.length - (furtherText rest).length⟩

/-- A template has one candidate in a source, if it matches the name. -/
theorem candidates_text (template : Template) :
    template.candidates s.text = ((s.name.remaining? template).map s.candidate).toList := by
  have hnone : ∀ w, w <:+ s.text → w ≠ [] → w ≠ s.word.text ++ ' ' :: s.name.text → ∀ before,
      template.match? before w = none := by
    intro w hw hne hword before
    have h := s.match?_eq_none template hw hne hword before []
    rwa [List.append_nil] at h
  obtain ⟨c, t, ht⟩ : ∃ c t, s.word.text ++ ' ' :: s.name.text = c :: t :=
    List.exists_cons_of_ne_nil (by simp)
  have htext : s.text = ' ' :: c :: t := by rw [text, ht]
  -- Behind the first letter of the word nothing matches any more.
  have hrest : ∀ skip before, template.candidatesFrom skip 2 before t = [] := by
    refine fun skip before => Template.candidatesFrom_eq_nil (fun w hw hne => ?_) skip 2 before
    refine hnone w ?_ hne ?_
    · rw [htext]
      exact hw.trans ((List.suffix_cons c t).trans (List.suffix_cons _ _))
    · intro hword
      have hle := hw.length_le
      rw [hword, ht, List.length_cons] at hle
      omega
  have hspace : template.match? none s.text = none :=
    hnone s.text List.suffix_rfl (by simp [text]) (by simp [text]) none
  have hspace' : (some ' ').any isTextWordChar = false := by decide
  have hmatch := s.match?_word template hspace' .nil
  rw [List.append_nil, ht] at hmatch
  have hlength := s.length_text
  rw [htext, List.length_cons, List.length_cons] at hlength
  rw [Template.candidates, htext, Template.candidatesFrom_zero, ← htext, hspace, Option.elim_none,
    Template.candidatesFrom_zero, hmatch]
  cases hremaining : s.name.remaining? template with
  | none => exact hrest 0 (some c)
  | some rest =>
    simp only [Option.map_some, Option.elim_some, hrest, Option.toList_some, candidate, htext,
      List.append_nil, List.length_cons]
    congr 3
    · omega
    · omega

/-- The name as a template finds it. -/
def found (template : Template) : NameMatch := ⟨⟨6, s.text.length⟩, s.name.name, template⟩

/-- A template that leaves nothing of the name counts its parts. -/
theorem rank_eq {template : Template} (h : s.name.remaining? template = some []) :
    template.rank = s.name.parts.length := by
  obtain ⟨-, hle, hrest⟩ := WrittenName.remaining?_eq_some h
  have hdrop := List.drop_eq_nil_iff.1 hrest.symm
  rw [WrittenName.length_parts] at hle ⊢
  rw [List.length_cons] at hdrop
  omega

/-- A candidate is admitted if it takes in the whole name. Else a dot follows. -/
theorem admit?_candidate {template : Template} {rest : List DelimitedPart}
    (h : s.name.remaining? template = some rest) :
    template.admit? s.text (s.candidate rest) =
      if rest = [] then some (s.found template) else none := by
  cases rest with
  | nil =>
    have hdot : continuesWithDot s.text s.text.length = false := by
      rw [continuesWithDot, List.drop_length]
      rfl
    have htail : isChainTail s.text 1 = false := isChainTail_eq_false (by
      change (Text.trimEnd [' ']).getLast? ≠ some '.'
      decide)
    have hslice : (Span.mk 6 s.text.length).slice s.text = s.name.text :=
      Span.slice_of_eq_append (a := s.front) (b := []) (by rw [List.append_nil, text_eq])
        s.length_front.symm s.length_text
    have hcandidate : s.candidate [] = ⟨1, 6, s.text.length⟩ := rfl
    rw [hcandidate, Template.admit?, hdot, htail, hslice, s.name.parse?_text, Option.bind_some,
      if_pos rfl, s.rank_eq h]
    exact if_pos rfl
  | cons p rest =>
    -- The candidate ends in front of the dot of the first part that is left.
    obtain ⟨x, hx⟩ := WrittenName.exists_text_eq h
    have htext : s.text = s.front ++ x ++ furtherText (p :: rest) := by
      rw [text_eq, hx, List.append_assoc]
    have hstop : s.text.length - (furtherText (p :: rest)).length = (s.front ++ x).length := by
      rw [htext, List.length_append]
      omega
    have hdot : continuesWithDot s.text (s.text.length - (furtherText (p :: rest)).length) =
        true := by
      rw [hstop, htext, continuesWithDot, List.drop_left]
      rfl
    rw [candidate, Template.admit?, hdot]
    rfl

section Names

variable {s : Source} {family : Family} {budget : Budget}

/-- The candidates in a source are those of the templates that match its name. -/
theorem exists_of_mem_rankedCandidates {x : Template × Candidate}
    (hx : x ∈ rankedCandidates family.templates budget s.text) : x.1 ∈ family.templates ∧
      ∃ rest, s.name.remaining? x.1 = some rest ∧ x.2 = s.candidate rest := by
  obtain ⟨htemplate, -, hmem⟩ := mem_rankedCandidates.1 hx
  rw [candidates_text, Option.mem_toList, Option.map_eq_some_iff] at hmem
  obtain ⟨rest, hrest, hx⟩ := hmem
  exact ⟨htemplate, rest, hrest, hx.symm⟩

/-- What is admitted in a source is its name. -/
theorem eq_found_of_admit? {x : Template × Candidate}
    (hx : x ∈ rankedCandidates family.templates budget s.text) {found : NameMatch}
    (hfound : x.1.admit? s.text x.2 = some found) :
    found = s.found x.1 ∧ x.1.rank = s.name.parts.length ∧ x.1.rank ∈ family.ranks := by
  obtain ⟨htemplate, rest, hrest, hcandidate⟩ := exists_of_mem_rankedCandidates hx
  rw [hcandidate, s.admit?_candidate hrest] at hfound
  split at hfound
  · next hnil =>
    rw [hnil] at hrest
    exact ⟨(Option.some.inj hfound).symm, s.rank_eq hrest, (Family.mem_templates.1 htemplate).2⟩
  · cases hfound

variable (s family budget)

/-- All candidates start where the name does, so the first one that is admitted is claimed. -/
theorem matchNames_eq_findSome? : matchNames family.templates budget s.text =
    ((rankedCandidates family.templates budget s.text).findSome?
      fun x => x.1.admit? s.text x.2).toList := by
  have hstart : ∀ x ∈ rankedCandidates family.templates budget s.text,
      x.2.name.start = 6 ∧ 6 < x.2.name.stop := by
    intro x hx
    obtain ⟨-, rest, -, hrest⟩ := exists_of_mem_rankedCandidates hx
    have hlt := (isWithin_of_mem_rankedCandidates hx).start_lt
    rw [hrest] at hlt ⊢
    exact ⟨rfl, hlt⟩
  rw [matchNames, claim_of_start_eq hstart]
  cases (rankedCandidates family.templates budget s.text).findSome?
      fun x => x.1.admit? s.text x.2 with
  | none => exact List.mergeSort_nil
  | some found => exact List.mergeSort_singleton found

/-- A family without a template for as many parts finds nothing in a source. -/
theorem matchNames_eq_nil (hrank : s.name.parts.length ∉ family.ranks) :
    matchNames family.templates budget s.text = [] := by
  have hnone : (rankedCandidates family.templates budget s.text).findSome?
      (fun x => x.1.admit? s.text x.2) = none := by
    refine List.findSome?_eq_none_iff.2 fun x hx => Option.eq_none_iff_forall_ne_some.2 ?_
    intro found hfound
    obtain ⟨-, hlength, hmem⟩ := eq_found_of_admit? hx hfound
    exact hrank (hlength ▸ hmem)
  rw [matchNames_eq_findSome?, hnone]
  rfl

variable {budget}

/-- A family with a template for as many parts finds the name, with such a template. -/
theorem exists_matchNames_eq (hbudget : budget.isSpent = false)
    (hrank : s.name.parts.length ∈ family.ranks) : ∃ template : Template,
      template.rank = s.name.parts.length ∧
        matchNames family.templates budget s.text = [s.found template] := by
  -- The template for mixed shapes takes in the whole name, so something is admitted.
  have hmixed : s.name.remaining? ⟨family, s.name.parts.length, .mixed⟩ = some [] :=
    WrittenName.remaining?_mixed rfl rfl
  have hmem : (⟨family, s.name.parts.length, .mixed⟩, s.candidate []) ∈
      rankedCandidates family.templates budget s.text := by
    refine mem_rankedCandidates.2 ⟨Family.mem_templates.2 ⟨rfl, hrank⟩, hbudget, ?_⟩
    rw [candidates_text, hmixed]
    exact List.mem_singleton_self _
  rw [matchNames_eq_findSome?]
  cases hfind : (rankedCandidates family.templates budget s.text).findSome?
      fun x => x.1.admit? s.text x.2 with
  | none =>
    have hnone := List.findSome?_eq_none_iff.1 hfind _ hmem
    rw [s.admit?_candidate hmixed, if_pos rfl] at hnone
    cases hnone
  | some found =>
    obtain ⟨x, hx, hfound⟩ := List.exists_of_findSome?_eq_some hfind
    obtain ⟨rfl, hlength, -⟩ := eq_found_of_admit? hx hfound
    exact ⟨x.1, hlength, rfl⟩

end Names

end Source

end LooseSql
