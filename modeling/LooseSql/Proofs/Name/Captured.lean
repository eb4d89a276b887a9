import LooseSql.Proofs.Name.Cascade
import LooseSql.Proofs.Name.Grammar
import LooseSql.Proofs.Name.Sources

/-!
# What the templates capture

A template reads a name its own way: it looks for the end of a part in running text, and it lets a
part in the middle be missing. What it captures is nevertheless a dotted name to the tokenizer, with
as many parts as the template says (`Template.parse?_candidate`), as long as both know the same
blanks and the same word characters in the text (`ReadsAlike`).

* `Shape.exists_token_of_afterInner?`, `Shape.exists_token_of_afterLast?`: a part that is read is a
  token of a part that is not empty, also where a quote is closed in the middle of a doubled mark;
* `Template.exists_writes_of_afterFurtherParts?`: the further parts with their dots write as many
  parts, whatever token stands in front of them;
* `Template.exists_of_mem_candidates`: a candidate is what the template reads at a suffix of the
  text.
-/

namespace LooseSql

/-- Templates and tokenizer see the text alike: its blanks may stand around a dot, and its
characters of a bare part continue a word. -/
structure ReadsAlike (t : Text) : Prop where
  /-- A blank may stand around a dot. -/
  isDotPadding : ∀ c ∈ t, isBlank c = true → isDotPadding c = true
  /-- A character of a bare part continues a word. -/
  isWordChar : ∀ c ∈ t, isBareChar c = true → isWordChar c = true

theorem ReadsAlike.of_suffix {t u : Text} (h : ReadsAlike t) (hu : u <:+ t) : ReadsAlike u :=
  ⟨fun c hc => h.isDotPadding c (hu.subset hc), fun c hc => h.isWordChar c (hu.subset hc)⟩

theorem ReadsAlike.of_append {u v : Text} (h : ReadsAlike (u ++ v)) : ReadsAlike v :=
  h.of_suffix (List.suffix_append u v)

/-- The name signs are word characters to both, so it takes the blanks and the other word
characters. -/
theorem readsAlike_of {t : Text} (hblank : ∀ c ∈ t, isBlank c = true → isDotPadding c = true)
    (hword : ∀ c ∈ t, isTextWordChar c = true → isAlphanumeric c = true ∨ c = '_') :
    ReadsAlike t := by
  refine ⟨hblank, fun c hc hbare => ?_⟩
  simp only [isBareChar, Bool.or_eq_true, beq_iff_eq] at hbare
  rcases hbare with ((htext | rfl) | rfl) | rfl
  · rcases hword c hc htext with halnum | rfl
    · rw [isWordChar, halnum, Bool.true_or]
    · decide
  -- the signs `@`, `#` and `$`
  all_goals decide

/-! ## One part -/

/-- A bare part starts with a word character, whatever the text. -/
theorem isWordChar_of_isFoldedBareStart {c : Char} (hc : isFoldedBareStart c = true) :
    isWordChar c = true := by
  simp only [isFoldedBareStart, isBareStart, isFoldedBareStart.foldedLetters, Bool.or_eq_true,
    beq_iff_eq, List.contains_iff_mem, List.mem_cons, List.not_mem_nil, or_false] at hc
  rcases hc with (((halpha | rfl) | rfl) | rfl) | rfl | rfl
  · exact isWordChar_of_isAlpha halpha
  -- the signs, and the two letters that only fold to ASCII
  all_goals decide +kernel

/-- A bare part is a word. -/
theorem exists_token_of_bare {c : Char} {t : Text} (ht : ReadsAlike (c :: t))
    (hc : isFoldedBareStart c = true) : ∃ part token : Text, Part.IsToken part token ∧ part ≠ [] ∧
      c :: t = token ++ t.dropWhile isBareChar := by
  refine ⟨c :: t.takeWhile isBareChar, _, .word (List.cons_ne_nil _ _) ?_, List.cons_ne_nil _ _, ?_⟩
  · rintro d (_ | ⟨_, hd⟩)
    · exact isWordChar_of_isFoldedBareStart hc
    · have hmem : d ∈ t := (List.takeWhile_prefix _).subset hd
      exact ht.isWordChar d (List.mem_cons_of_mem c hmem) (List.mem_takeWhile_imp hd)
  · rw [List.cons_append, List.takeWhile_append_dropWhile]

/-- Whatever finds the end of a part in delimiters, what is read is a token, if it is the encoding
of an inside that is not empty. -/
theorem exists_token_of_either {c : Char} {t rest : Text} (ht : ReadsAlike (c :: t))
    {admitted : Bool} {afterQuoted? : Delimiter → Option Text}
    (hquoted : ∀ d, afterQuoted? d = some rest →
      ∃ inside : Text, inside ≠ [] ∧ t = Doubled.encode d.closing inside ++ rest)
    (h : (if !admitted then none
      else match Delimiter.ofOpening? c with
        | some d => afterQuoted? d
        | none => if isFoldedBareStart c then some (t.dropWhile isBareChar) else none) =
          some rest) :
    ∃ part token : Text, Part.IsToken part token ∧ part ≠ [] ∧ c :: t = token ++ rest := by
  rw [Option.ite_none_left_eq_some] at h
  -- The part opens with a delimiter, or it is a bare word.
  cases hopening : Delimiter.ofOpening? c with
  | some d =>
    rw [hopening] at h
    obtain ⟨inside, hne, hsplit⟩ := hquoted d h.2
    refine ⟨inside, d.wrap inside, .delimited d inside, hne, ?_⟩
    rw [Delimiter.ofOpening?_eq_some_iff.1 hopening, hsplit]
    rfl
  | none =>
    rw [hopening] at h
    obtain ⟨hstart, hrest⟩ := Option.ite_none_right_eq_some.1 h.2
    rw [← Option.some.inj hrest]
    exact exists_token_of_bare ht hstart

namespace Shape

variable {shape : Shape} {t rest : Text}

/-- A part that something has to follow is a token of a part that is not empty. -/
theorem exists_token_of_afterInner? (ht : ReadsAlike t)
    (h : shape.afterInner? isFoldedBareStart t = some rest) :
    ∃ part token : Text, Part.IsToken part token ∧ part ≠ [] ∧ t = token ++ rest := by
  cases t with
  | nil => cases h
  | cons c t =>
    refine exists_token_of_either ht (fun d hd => ?_) h
    simp only [Option.map_eq_some_iff, Option.filter_eq_some_iff] at hd
    obtain ⟨⟨inside, rest'⟩, ⟨hread, hne⟩, rfl⟩ := hd
    exact ⟨inside, by simpa using hne, (Doubled.eq_encode_append_of_decode? hread).1⟩

/-- A part that nothing has to follow is a token of a part that is not empty. -/
theorem exists_token_of_afterLast? (ht : ReadsAlike t)
    (h : shape.afterLast? isFoldedBareStart t = some rest) :
    ∃ part token : Text, Part.IsToken part token ∧ part ≠ [] ∧ t = token ++ rest := by
  cases t with
  | nil => cases h
  | cons c t =>
    exact exists_token_of_either ht (fun d hd => Doubled.exists_encode_of_afterSome? hd) h

/-- Where no part is read the part in the middle is missing. -/
theorem exists_token_of_afterInner?_getD (shape : Shape) (ht : ReadsAlike t) :
    ∃ part token : Text, Part.IsToken part token ∧
      t = token ++ (shape.afterInner? isFoldedBareStart t).getD t := by
  cases h : shape.afterInner? isFoldedBareStart t with
  | none => exact ⟨[], [], .missing, rfl⟩
  | some rest =>
    obtain ⟨part, token, htoken, -, hsplit⟩ := exists_token_of_afterInner? ht h
    exact ⟨part, token, htoken, hsplit⟩

end Shape

/-- A dot with blanks around it is one with padding around it. -/
theorem exists_isSpacedDot_of_afterSpacedDot? {t rest : Text} (ht : ReadsAlike t)
    (h : afterSpacedDot? t = some rest) :
    ∃ dot, QualifiedName.IsSpacedDot dot ∧ t = dot ++ rest := by
  rw [afterSpacedDot?] at h
  split at h
  · next r hr =>
    obtain rfl : Text.trimStart r = rest := by simpa using h
    -- The blanks that are dropped on the two sides of the dot.
    have hr' : t = t.takeWhile isBlank ++ '.' :: (r.takeWhile isBlank ++ Text.trimStart r) := by
      rw [Text.trimStart, List.takeWhile_append_dropWhile, ← hr]
      exact List.takeWhile_append_dropWhile.symm
    refine ⟨t.takeWhile isBlank ++ '.' :: r.takeWhile isBlank, ⟨_, _, rfl, ?_, ?_⟩, ?_⟩
    · exact fun c hc => ht.isDotPadding c ((List.takeWhile_prefix _).subset hc)
        (List.mem_takeWhile_imp hc)
    · intro c hc
      refine ht.isDotPadding c ?_ (List.mem_takeWhile_imp hc)
      rw [hr']
      simp [hc]
    · rwa [List.append_assoc, List.cons_append]
  · cases h

/-! ## Whole names -/

/-- The last part of a name is not empty. -/
theorem QualifiedName.exists_getElem?_last (name : QualifiedName) :
    ∃ part, name.parts[name.parts.length - 1]? = some part ∧ part ≠ [] := by
  obtain ⟨hpos, -, -, hlast⟩ := name.isPartList
  have hne : name.parts ≠ [] := List.ne_nil_of_length_pos hpos
  have hget := List.getLast?_eq_some_getLast hne
  refine ⟨name.parts.getLast hne, by rw [← List.getLast?_eq_getElem?, hget], fun hnil => hlast ?_⟩
  rw [hget, hnil]

/-- No template looks for more parts than a name can have. -/
theorem Family.rank_le_maxParts (family : Family) {template : Template}
    (h : template ∈ family.templates) : template.rank ≤ maxParts := by
  have hranks : ∀ rank ∈ family.ranks, rank ≤ maxParts := by
    cases family <;> decide
  exact hranks _ (Family.mem_templates.1 h).2

namespace Template

open QualifiedName (Writes)

/-- The further parts are written with their dots, the last one not empty. Whatever token stands in
front of them, they go on with its part. -/
theorem exists_writes_of_afterFurtherParts? {shape : Shape} {count : Nat} {t rest : Text}
    (ht : ReadsAlike t) (h : afterFurtherParts? shape (count + 1) t = some rest) :
    ∃ (written : Text) (parts : List Text), t = written ++ rest ∧ parts.length = count + 1 ∧
      parts.getLast? ≠ some [] ∧
      ∀ part token, Part.IsToken part token → Writes (token ++ written) (part :: parts) := by
  -- `Writes` takes a token with the dot behind it, but here each dot comes with the token behind
  -- it. So the token in front is left open, and the step puts the next one there.
  induction count generalizing t with
  | zero =>
    obtain ⟨r, hdot, hlast⟩ := Option.bind_eq_some_iff.1 h
    obtain ⟨dot, hspaced, rfl⟩ := exists_isSpacedDot_of_afterSpacedDot? ht hdot
    obtain ⟨part, token, htoken, hne, rfl⟩ := Shape.exists_token_of_afterLast? ht.of_append hlast
    exact ⟨dot ++ token, [part], by rw [List.append_assoc], rfl, by simpa using hne,
      fun _ _ hfirst => .cons hfirst hspaced (.last htoken)⟩
  | succ count ih =>
    obtain ⟨r, hdot, hfurther⟩ := Option.bind_eq_some_iff.1 h
    obtain ⟨dot, hspaced, rfl⟩ := exists_isSpacedDot_of_afterSpacedDot? ht hdot
    -- The part behind this dot is read or missing, and a dot follows in either case.
    obtain ⟨part, token, htoken, hr⟩ := Shape.exists_token_of_afterInner?_getD shape ht.of_append
    generalize (shape.afterInner? isFoldedBareStart r).getD r = r' at hfurther hr
    subst hr
    obtain ⟨written, parts, rfl, hlength, hlast, hwrites⟩ := ih ht.of_append.of_append hfurther
    refine ⟨dot ++ (token ++ written), part :: parts, by simp only [List.append_assoc],
      by rw [List.length_cons, hlength], ?_, fun _ _ hfirst =>
        .cons hfirst hspaced (hwrites part token htoken)⟩
    rwa [List.getLast?_cons_of_ne_nil (List.ne_nil_of_length_eq_add_one hlength)]

variable {template : Template}

/-- What a template reads off the head of a text writes the parts of a name, as many as the template
says. -/
theorem exists_writes_of_afterName? {t rest : Text} (ht : ReadsAlike t)
    (h : template.afterName? t = some rest) :
    ∃ (captured : Text) (parts : List Text), t = captured ++ rest ∧ Writes captured parts ∧
      parts.length = template.rank ∧ parts.head? ≠ some [] ∧ parts.getLast? ≠ some [] := by
  rw [afterName?] at h
  split at h
  · cases h
  · next hrank =>
    obtain ⟨part, token, htoken, hne, hsplit⟩ := Shape.exists_token_of_afterLast? ht h
    exact ⟨token, [part], hsplit, .last htoken, hrank.symm, by simpa using hne, by simpa using hne⟩
  · -- A first part with a dot behind it, and then the further parts.
    next rank hrank =>
    obtain ⟨r, hfirst, hfurther⟩ := Option.bind_eq_some_iff.1 h
    obtain ⟨part, token, htoken, hne, rfl⟩ := Shape.exists_token_of_afterInner? ht hfirst
    obtain ⟨written, parts, rfl, hlength, hlast, hwrites⟩ :=
      exists_writes_of_afterFurtherParts? ht.of_append hfurther
    refine ⟨token ++ written, part :: parts, by rw [List.append_assoc], hwrites part token htoken,
      by rw [List.length_cons, hlength, hrank], by simpa using hne, ?_⟩
    rwa [List.getLast?_cons_of_ne_nil (List.ne_nil_of_length_eq_add_one hlength)]

/-- A candidate is the name that the template reads at a suffix of the text. -/
theorem exists_of_mem_candidates {t : Text} {c : Candidate} (hc : c ∈ template.candidates t) :
    ∃ name rest, name <:+ t ∧ template.afterName? name = some rest ∧
      c.name = ⟨t.length - name.length, t.length - rest.length⟩ := by
  obtain ⟨front, w, _, name, rest, rfl, hmatch, rfl⟩ := exists_match?_of_mem hc
  obtain ⟨hintroduced, hafter⟩ := of_match? hmatch
  have hsuffix : name <:+ front ++ w :=
    (Family.suffix_of_afterIntroduction? hintroduced).trans (List.suffix_append front w)
  exact ⟨name, rest, hsuffix, hafter, by simp⟩

/-- The tokenizer reads what a candidate spans as a name with as many parts as the template says. -/
theorem exists_parse?_of_mem_candidates {t : Text} (ht : ReadsAlike t) {c : Candidate}
    (hc : c ∈ template.candidates t) (hrank : template.rank ≤ maxParts) :
    ∃ name, QualifiedName.parse? (c.name.slice t) = some name ∧
      name.parts.length = template.rank := by
  obtain ⟨suffix, rest, ⟨front, rfl⟩, hafter, hspan⟩ := exists_of_mem_candidates hc
  obtain ⟨captured, parts, rfl, hwrites, hlength, hfirst, hlast⟩ :=
    exists_writes_of_afterName? ht.of_append hafter
  have hslice : c.name.slice (front ++ (captured ++ rest)) = captured := by
    rw [hspan]
    refine Span.slice_of_eq_append rfl ?_ ?_ <;>
      · simp only [List.length_append]
        omega
  -- The template asks for the first part and for the last one, so both are there.
  have hparts : IsPartList parts := by
    refine ⟨?_, hlength ▸ hrank, hfirst, hlast⟩
    cases hwrites <;> simp
  refine ⟨⟨parts, hparts⟩, ?_, hlength⟩
  rw [hslice, QualifiedName.parse?_eq_some_iff, hwrites.trim_eq hparts]
  exact hwrites

/-- In a text whose blanks may all stand around a dot, and whose word characters are letters,
numbers and low lines, every candidate of a template is read as a name with as many parts as the
template says, and the part for the table is not empty. So a candidate that is neither the head of a
longer name nor behind the tail of a dotted one is admitted, and it is claimed unless its span is
taken. -/
theorem parse?_candidate {t : Text} (hblank : ∀ c ∈ t, isBlank c = true → isDotPadding c = true)
    (hword : ∀ c ∈ t, isTextWordChar c = true → isAlphanumeric c = true ∨ c = '_')
    {family : Family} (htemplate : template ∈ family.templates) {budget : Budget} {c : Candidate}
    (hc : c ∈ template.candidatesWithin budget t) :
    ∃ name, QualifiedName.parse? (c.name.slice t) = some name ∧
      name.parts.length = template.rank ∧
      (∃ part, name.parts[template.tableIndex]? = some part ∧ part ≠ []) ∧
      (template.admit? t c = if continuesWithDot t c.name.stop || isChainTail t c.keyword then none
        else some ⟨c.name, name, template⟩) ∧
      (continuesWithDot t c.name.stop = false → isChainTail t c.keyword = false →
        ⟨c.name, name, template⟩ ∈ matchNames family.templates budget t ∨
          ∃ found ∈ matchNames family.templates budget t,
            found.span.overlaps c.name = true) := by
  obtain ⟨hbudget, hcandidate⟩ := mem_candidatesWithin.1 hc
  obtain ⟨name, hparse, hlength⟩ :=
    exists_parse?_of_mem_candidates (readsAlike_of hblank hword) hcandidate
      (family.rank_le_maxParts htemplate)
  refine ⟨name, hparse, hlength, ?_, ?_, fun hdot htail => ?_⟩
  · rw [tableIndex, ← hlength]
    exact name.exists_getElem?_last
  · rw [admit?, hparse, Option.bind_some, if_pos hlength]
  · -- The candidate fits, so only a name that was claimed before can keep it out.
    obtain ⟨i, hi⟩ := List.getElem?_of_mem htemplate
    have hfits : template.Fits t c name := ⟨hparse, hlength, hdot, htail⟩
    refine (mem_matchNames_or_overlaps hbudget hi hcandidate hfits).imp_right ?_
    rintro ⟨found, hfound, hoverlaps, -⟩
    exact ⟨found, hfound, hoverlaps⟩

/-- A name of four parts: doubled marks in the first and the third, the second one missing, and the
last one closed in the middle of a doubled mark. -/
theorem parse?_candidate_marks :
    let t := "FROM [a]]b] . .\"c\"\"d\".[e]]".toList
    let template : Template := ⟨.table, 4, .mixed⟩
    ((∀ c ∈ t, isBlank c = true → isDotPadding c = true) ∧
      ∀ c ∈ t, isTextWordChar c = true → isAlphanumeric c = true ∨ c = '_') ∧
      template ∈ Family.table.templates ∧
      ⟨0, ⟨5, 25⟩⟩ ∈ template.candidatesWithin .default t ∧
      ∃ name, QualifiedName.parse? (Span.slice ⟨5, 25⟩ t) = some name ∧ name.parts.length = 4 ∧
        ∃ part, name.parts[3]? = some part ∧ part ≠ [] := by
  intro t template
  have hblank : ∀ c ∈ t, isBlank c = true → isDotPadding c = true := by decide +kernel
  have hword : ∀ c ∈ t, isTextWordChar c = true → isAlphanumeric c = true ∨ c = '_' := by
    decide +kernel
  have htemplate : template ∈ Family.table.templates := by decide
  have hc : ⟨0, ⟨5, 25⟩⟩ ∈ template.candidatesWithin .default t := by decide +kernel
  obtain ⟨name, hparse, hlength, htable, -⟩ := parse?_candidate hblank hword htemplate hc
  exact ⟨⟨hblank, hword⟩, htemplate, hc, name, hparse, hlength, htable⟩

end Template

end LooseSql
