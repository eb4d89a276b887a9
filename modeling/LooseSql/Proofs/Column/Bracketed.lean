import LooseSql.Column.Resolve
import LooseSql.Proofs.Column.Alias
import LooseSql.Proofs.Condition.Tree
import Mathlib.Data.List.Forall2

/-!
# Columns written in brackets

A column reference of one to five parts, each in brackets, stands for the column that the places of
its parts tell (`Column.positional`), with one reservation. Two searches do not stop at brackets:
the one for the words SELECT, CASE and WHEN, and the one for an alias without AS. The first finds
these words in a part, the second finds `[name]` behind a blank in the last part. Whether the
reference is resolved by its places is decided by these two alone (`Column.resolve?_dotted_iff`).

* `exists_part_of_dotted`: a blank in the reference is a blank in one of its parts;
* `isComputed_dotted`: a word is found in the reference if it is found in one of its parts;
* `implicit?_dotted_isSome_iff`: the aliases that are cut off inside the last part.
-/

namespace LooseSql

/-! ## Dotted brackets -/

/-- The parts in brackets with a dot between each two of them. -/
def dotted (parts : List Text) : Text := Text.joinWith ['.'] (parts.map bracketed)

/-- Further parts in brackets, each behind its dot. -/
def further (parts : List Text) : Text := parts.flatMap fun part => '.' :: bracketed part

/-- Parts in brackets, each with a dot behind it. -/
def leading (parts : List Text) : Text := parts.flatMap fun part => bracketed part ++ ['.']

section Dotted

variable {part : Text} {parts : List Text}

theorem dotted_cons (part : Text) (parts : List Text) :
    dotted (part :: parts) = '[' :: (part ++ ']' :: further parts) := by
  rw [dotted, List.map_cons, Text.joinWith_cons, List.flatMap_map, bracketed, List.cons_append,
    List.append_assoc]
  rfl

theorem further_cons (part : Text) (parts : List Text) :
    further (part :: parts) = '.' :: dotted (part :: parts) := by
  rw [further, List.flatMap_cons, dotted_cons, bracketed]
  simp [further]

theorem leading_cons (part : Text) (parts : List Text) :
    leading (part :: parts) = '[' :: (part ++ ']' :: '.' :: leading parts) := by
  simp [leading, bracketed]

theorem dotted_append_singleton (init : List Text) (part : Text) :
    dotted (init ++ [part]) = leading init ++ bracketed part := by
  induction init with
  | nil => rw [List.nil_append, dotted_cons]; rfl
  | cons first init ih =>
    obtain ⟨next, others, hnext⟩ := List.exists_cons_of_ne_nil (l := init ++ [part]) (by simp)
    rw [List.cons_append, dotted_cons, hnext, further_cons, ← hnext, ih, leading_cons]
    simp

/-- A closing bracket does not follow a closing bracket. -/
theorem head?_further (parts : List Text) : (further parts).head? ≠ some ']' := by
  cases parts with
  | nil => simp [further]
  | cons part parts => simp [further_cons]

theorem getLast?_further (parts : List Text) : (']' :: further parts).getLast? = some ']' := by
  induction parts with
  | nil => rfl
  | cons part parts ih =>
    rw [further_cons, dotted_cons, show ']' :: '.' :: '[' :: (part ++ ']' :: further parts) =
      (']' :: '.' :: '[' :: part) ++ (']' :: further parts) by simp,
      List.getLast?_append_of_ne_nil _ (by simp), ih]

/-- A blank in a reference is a blank in one of its parts. -/
theorem exists_part_of_dotted {u w : Text} {c : Char} (h : dotted parts = u ++ c :: w)
    (hc : isBlank c = true) : ∃ init q r others, parts = init ++ (q ++ c :: r) :: others ∧
      u = leading init ++ '[' :: q ∧ w = r ++ ']' :: further others := by
  have hmark : c ≠ '[' ∧ c ≠ ']' ∧ c ≠ '.' := by
    refine ⟨?_, ?_, ?_⟩ <;> rintro rfl <;> exact absurd hc (by decide)
  induction parts generalizing u with
  | nil => simp [dotted, Text.joinWith] at h
  | cons part parts ih =>
    rw [dotted_cons] at h
    cases u with
    | nil => exact absurd (List.cons.inj h).1.symm hmark.1
    | cons d u =>
      obtain ⟨rfl, htail⟩ := List.cons.inj h
      rcases List.append_eq_append_iff.1 htail with ⟨a, rfl, ha⟩ | ⟨a, rfl, ha⟩
      · -- The blank stands behind the first part.
        cases a with
        | nil => exact absurd (List.cons.inj ha).1.symm hmark.2.1
        | cons e a =>
          obtain ⟨rfl, hfurther⟩ := List.cons.inj ha
          cases parts with
          | nil => simp [further] at hfurther
          | cons next parts =>
            rw [further_cons] at hfurther
            cases a with
            | nil => exact absurd (List.cons.inj hfurther).1.symm hmark.2.2
            | cons e a =>
              obtain ⟨rfl, hdotted⟩ := List.cons.inj hfurther
              obtain ⟨init, q, r, others, hparts, rfl, hw⟩ := ih hdotted
              exact ⟨part :: init, q, r, others, by rw [hparts, List.cons_append],
                by simp [leading_cons], hw⟩
      · -- The blank stands in the first part.
        cases a with
        | nil => exact absurd (List.cons.inj ha).1 hmark.2.1
        | cons e r =>
          obtain ⟨rfl, rfl⟩ := List.cons.inj ha
          exact ⟨[], u, r, parts, rfl, rfl, rfl⟩

end Dotted

/-! ## What the searches see of a reference -/

section Searches

variable {parts : List Text}

theorem isComputed_append_cons {c : Char} (hc : isTextWordChar c = false) (u v : Text) :
    isComputed (u ++ c :: v) = (isComputed u || isComputed v) := by
  rw [isComputed, containsFoldedWord_append_cons (by decide) (by decide) hc,
    containsFoldedWord_append_cons (by decide) (by decide) hc,
    containsFoldedWord_append_cons (by decide) (by decide) hc, isComputed, isComputed]
  ac_rfl

theorem isComputed_further (parts : List Text) :
    isComputed (further parts) = parts.any isComputed := by
  induction parts with
  | nil => rfl
  | cons part parts ih =>
    have hmarks : isTextWordChar '.' = false ∧ isTextWordChar '[' = false ∧
        isTextWordChar ']' = false := by decide
    have hempty : isComputed [] = false := rfl
    calc isComputed (further (part :: parts))
        = isComputed ([] ++ '.' :: ([] ++ '[' :: (part ++ ']' :: further parts))) := by
          rw [further_cons, dotted_cons, List.nil_append, List.nil_append]
      _ = (isComputed part || isComputed (further parts)) := by
          rw [isComputed_append_cons hmarks.1, isComputed_append_cons hmarks.2.1,
            isComputed_append_cons hmarks.2.2, hempty, Bool.false_or, Bool.false_or]
      _ = (part :: parts).any isComputed := by rw [ih, List.any_cons]

/-- A subquery or a CASE expression is seen in a reference if one is seen in a part of it. -/
theorem isComputed_dotted (parts : List Text) :
    isComputed (dotted parts) = parts.any isComputed := by
  cases parts with
  | nil => rfl
  | cons part parts =>
    have hdot : isComputed ([] ++ '.' :: dotted (part :: parts)) =
        isComputed (dotted (part :: parts)) := by
      rw [isComputed_append_cons (by decide), show isComputed [] = false from rfl, Bool.false_or]
    rw [← hdot, List.nil_append, ← further_cons, isComputed_further]

/-- A reference is no literal. -/
theorem isLiteral_opening (t : Text) : isLiteral ('[' :: t) = false := by
  have hdigit : isDecimalDigit '[' = false := by decide
  simp [isLiteral, Literal.isNumber, Literal.afterDigits?, afterRun?, hdigit, Literal.isString,
    Text.sameIgnoringCase, Literal.isBinary]

/-- The text ends at the top level, and no keyword stands there. -/
structure IsWordless (t : Text) : Prop where
  /-- The text ends at the top level. -/
  closed : t.IsClosed
  /-- No keyword stands at the top level. -/
  spans : ∀ ks, ArePlain ks → keywordSpans ks .top 0 none t = []

/-- A part in brackets shows no keyword. -/
theorem IsWordless.bracketed_append {a part rest : Text} (hrest : IsWordless rest)
    (ha : ∀ c ∈ a, c.isAlpha = false ∧ isScanMark c = false) (hpart : ']' ∉ part) :
    IsWordless (a ++ (bracketed part ++ rest)) := by
  have hfits : (Enclosure.quote .bracket).Fits part := hpart
  have hclosed : a.IsClosed := scan_of_not_mark (fun c hc => (ha c hc).2) _
  have hwrap : bracketed part = (Enclosure.quote .bracket).wrap part := rfl
  constructor
  · rw [Text.IsClosed, scan_append, scan_append, hclosed.scan_eq, hwrap,
      Enclosure.scan_wrap hfits, hrest.closed.scan_eq]
  · intro ks hks
    -- A bracket breaks words, so the rest is read as at the start of a text.
    have hword : (some ']').any isWordChar = (none : Option Char).any isWordChar := by decide
    have hbehind : keywordSpans ks .top 0 (some ']') rest = [] := by
      rw [keywordSpans_congr hword, hrest.spans ks hks]
    rw [hwrap, Enclosure.keywordSpans_enclosed hks hclosed hfits,
      keywordSpans_of_not_alpha fun c hc => (ha c hc).1,
      show (Enclosure.quote .bracket).closer = ']' from rfl, hbehind]
    rfl

theorem isWordless_further (h : ∀ p ∈ parts, ']' ∉ p) : IsWordless (further parts) := by
  induction parts with
  | nil => exact ⟨rfl, fun _ _ => rfl⟩
  | cons part parts ih =>
    obtain ⟨hpart, hparts⟩ := List.forall_mem_cons.1 h
    have hdot : ∀ c ∈ ['.'], c.isAlpha = false ∧ isScanMark c = false := by decide
    exact (ih hparts).bracketed_append hdot hpart

/-- No keyword stands at the top level of a reference. -/
theorem isWordless_dotted (h : ∀ p ∈ parts, ']' ∉ p) : IsWordless (dotted parts) := by
  cases parts with
  | nil => exact ⟨rfl, fun _ _ => rfl⟩
  | cons part parts =>
    obtain ⟨hpart, hparts⟩ := List.forall_mem_cons.1 h
    have heq : dotted (part :: parts) = [] ++ (bracketed part ++ further parts) := by
      rw [dotted_cons, bracketed, List.nil_append, List.cons_append, List.append_assoc]
      rfl
    rw [heq]
    exact (isWordless_further hparts).bracketed_append (by simp) hpart

end Searches

/-! ## Aliases inside the last part -/

section HidesAlias

variable {parts : List Text}

/-- `[name]` behind a blank in the last part looks like an alias without AS: the last such name in
the part is not empty, and what stands in front of it ends like a column. -/
def HidesAlias (parts : List Text) : Prop :=
  ∃ init u c name, parts = init ++ [u ++ c :: '[' :: name] ∧ isBlank c = true ∧ name ≠ [] ∧
    (∀ u' c' name', name = u' ++ c' :: '[' :: name' → isBlank c' = true → name' = []) ∧
    Alias.endsLikeColumn (Text.trimEnd (leading init ++ '[' :: u)) = true

/-- What follows a blank in a reference can be an alias only up to the end of the last part. -/
theorem isImplicit_append_iff {q : Text} (hq : ']' ∉ q) (others : List Text) :
    Alias.isImplicit (q ++ ']' :: further others) = true ↔
      ∃ name, name ≠ [] ∧ q = '[' :: name ∧ others = [] := by
  rw [Alias.isImplicit_iff]
  constructor
  · rintro (⟨d, name, hname, heq⟩ | ⟨c, r, heq, hc, hr⟩)
    · have hlast : (q ++ ']' :: further others).getLast? = some d.closing := by
        rw [heq, Delimiter.wrap_eq, ← List.cons_append, List.getLast?_concat]
      rw [List.getLast?_append_of_ne_nil _ (by simp), getLast?_further] at hlast
      -- The delimiters are brackets, and the first closing one ends the name.
      cases d with
      | quote => exact absurd hlast (by decide)
      | bracket =>
        cases q with
        | nil => exact absurd (List.cons.inj heq).1 (by decide)
        | cons c q =>
          obtain ⟨rfl, htail⟩ := List.cons.inj heq
          have hq' : ']' ∉ q := fun hmem => hq (.tail _ hmem)
          have hencode : Doubled.encode ']' q ++ further others = Doubled.encode ']' name := by
            rw [Doubled.encode_of_not_mem fun hmem => hq (.tail _ hmem), List.append_assoc]
            exact htail
          have hdecode := Doubled.decode?_encode_append q (head?_further others)
          rw [hencode, Doubled.decode?_encode, Option.some.injEq, Prod.mk.injEq] at hdecode
          obtain ⟨rfl, hothers⟩ := hdecode
          refine ⟨name, hname, rfl, ?_⟩
          cases others with
          | nil => rfl
          | cons part others => simp [further_cons] at hothers
    · -- No closing bracket stands in a bare name.
      have hmem : ']' ∈ c :: r := by simp [← heq]
      rcases List.mem_cons.1 hmem with rfl | hmem
      · exact absurd hc (by decide)
      · exact absurd (hr _ hmem) (by decide)
  · rintro ⟨name, hname, rfl, rfl⟩
    exact .inl ⟨.bracket, name, hname, (wrap_bracket fun h => hq (.tail _ h)).symm⟩

theorem not_reserved_opening (t : Text) :
    Alias.reserved.any (Text.sameIgnoringCase ('[' :: t)) = false := by
  have hhead : ∀ word ∈ Alias.reserved, (word.map Char.toLower).head? ≠ some '[' := by decide
  refine List.any_eq_false.2 fun word hword hsame => hhead word hword ?_
  rw [← beq_iff_eq.1 hsame]
  rfl

/-- An alias is cut off inside the last part exactly if the part hides one. -/
theorem implicit?_dotted_isSome_iff (h : ∀ p ∈ parts, ']' ∉ p) :
    (Alias.implicit? (dotted parts)).isSome ↔ HidesAlias parts := by
  simp only [Alias.implicit?_isSome_iff, Alias.lastImplicitFrom_eq_some_iff, List.reverse_nil,
    List.nil_append]
  constructor
  · rintro ⟨_, written, ⟨himplicit, hlast, u, c, hcut, hc, rfl⟩, -, -, hends⟩
    obtain ⟨init, q, r, others, rfl, rfl, rfl⟩ := exists_part_of_dotted hcut hc
    have hr : ']' ∉ r := fun hmem => h (q ++ c :: r) (by simp) (by simp [hmem])
    obtain ⟨name, hname, rfl, rfl⟩ := (isImplicit_append_iff hr others).1 himplicit
    refine ⟨init, q, c, name, rfl, hc, hname, fun u' c' name' hsplit hc' => ?_, hends⟩
    by_contra hname'
    -- A later cut would leave an alias as well.
    have hlater : Alias.isImplicit (('[' :: name') ++ ']' :: further []) = false := by
      refine hlast ('[' :: u') c' _ ?_ hc'
      rw [hsplit]
      simp
    have hbracket : ']' ∉ '[' :: name' := fun hmem =>
      hr (.tail _ (hsplit ▸ List.mem_append_right u' (.tail _ hmem)))
    rw [(isImplicit_append_iff hbracket []).2 ⟨name', hname', rfl, rfl⟩] at hlater
    cases hlater
  · rintro ⟨init, q, c, name, rfl, hc, hname, hlast, hends⟩
    have hpart : ']' ∉ q ++ c :: '[' :: name := h _ (by simp)
    have hbracket : ']' ∉ '[' :: name := fun hmem =>
      hpart (List.mem_append_right q (.tail _ hmem))
    refine ⟨_, bracketed name, ⟨?_, ?_, leading init ++ '[' :: q, c, ?_, hc, rfl⟩, ?_,
      not_reserved_opening _, hends⟩
    · exact (isImplicit_append_iff hbracket []).2 ⟨name, hname, rfl, rfl⟩
    · intro u' c' w hsplit hc'
      obtain ⟨init', q', r, others, hinit, rfl, rfl⟩ :=
        exists_part_of_dotted ((dotted_cons name []).trans hsplit) hc'
      obtain ⟨rfl, rfl⟩ : name = q' ++ c' :: r ∧ others = [] := by
        cases init' with
        | nil => exact ⟨(List.cons.inj hinit).1, (List.cons.inj hinit).2.symm⟩
        | cons part init' => simp at hinit
      by_contra himplicit
      have hr : ']' ∉ r := fun hmem =>
        hbracket (.tail _ (List.mem_append_right q' (.tail _ hmem)))
      obtain ⟨name', hname', rfl, -⟩ := (isImplicit_append_iff hr []).1 (by simpa using himplicit)
      exact hname' (hlast q' c' name' rfl hc')
    · rw [dotted_append_singleton]
      simp [bracketed]
    · intro hblank
      exact absurd (Text.trimEnd_eq_nil_iff.1 hblank '[' (by simp)) (by decide)

end HidesAlias

namespace Column

/-! ## The column that a reference stands for -/

/-- The column that one to five parts stand for: the last part is its name, the one before it the
table, and the first of three parts or more the database. -/
def positional : List Text → Option Text → Option Column
  | [p₁], aliasName => some ⟨none, none, p₁, aliasName⟩
  | [p₁, p₂], aliasName => some ⟨none, some p₁, p₂, aliasName⟩
  | [p₁, p₂, p₃], aliasName => some ⟨some p₁, some p₂, p₃, aliasName⟩
  | [p₁, _, p₃, p₄], aliasName => some ⟨some p₁, some p₃, p₄, aliasName⟩
  | [p₁, _, _, p₄, p₅], aliasName => some ⟨some p₁, some p₄, p₅, aliasName⟩
  | _, _ => none

/-- A name without empty parts stands for its column by position. -/
theorem ofName_eq_positional (name : QualifiedName) (h : ∀ p ∈ name.parts, p ≠ [])
    (aliasName : Option Text) : positional name.parts aliasName = some (ofName name aliasName) := by
  obtain ⟨parts, hpos, hlength, hends⟩ := name
  rcases parts with _ | ⟨p₁, _ | ⟨p₂, _ | ⟨p₃, _ | ⟨p₄, _ | ⟨p₅, _ | ⟨p₆, parts⟩⟩⟩⟩⟩⟩
  · cases hpos
  case cons.cons.cons.cons.cons.cons =>
    simp only [List.length_cons, maxParts] at hlength
    omega
  all_goals
    simp only [List.forall_mem_cons] at h
    simp [positional, ofName, QualifiedName.columnDatabase?, QualifiedName.databaseIndex?,
      QualifiedName.columnTable?, QualifiedName.tableIndex?, QualifiedName.part?,
      QualifiedName.last, Option.filter_some, h]

/-- A column of an expression with an alias has that alias. -/
theorem aliasName_of_ofExpression? {body name : Text} {column : Column}
    (h : ofExpression? body (some name) = some column) : column.aliasName = some name := by
  rw [ofExpression?] at h
  split at h
  · cases h
  · split at h
    · -- A subquery or a CASE expression.
      rw [← Option.some.inj h]
      rfl
    · split at h
      · -- A name.
        rw [← Option.some.inj h]
        rfl
      · split at h
        · -- Arithmetic, with or without a dotted name in it.
          rw [Option.bind_some, ofArithmetic?] at h
          split at h
          · obtain ⟨_, -, rfl⟩ := Option.map_eq_some_iff.1 h
            rfl
          · rw [← Option.some.inj h]
            rfl
        · -- A function call.
          obtain ⟨_, -, rfl⟩ := Option.map_eq_some_iff.1 h
          rfl

/-- A column known by its alias only is the column of a single part with that name. -/
theorem positional_eq_ofAlias_iff {parts : List Text} {name : Text} :
    positional parts (some name) = some (ofAlias name) ↔ parts = [name] := by
  unfold positional
  split
  case h_6 hsingle _ _ _ _ => exact iff_of_false (by simp) (hsingle name)
  all_goals simp [ofAlias, plain]

section Reference

variable (name : QualifiedName) (h : ∀ p ∈ name.parts, p ≠ [] ∧ ']' ∉ p)

include h

theorem forall₂_isToken_bracketed :
    List.Forall₂ Part.IsToken name.parts (name.parts.map bracketed) := by
  refine List.forall₂_map_right_iff.2 (List.forall₂_same.2 fun p hp => ?_)
  rw [← wrap_bracket (h p hp).2]
  exact .delimited .bracket p

/-- A reference starts with a bracket, and is a trimmed text without parentheses around it. -/
theorem dotted_spec : (∃ rest, dotted name.parts = '[' :: rest) ∧
    (dotted name.parts).trim = dotted name.parts ∧
      stripParentheses (dotted name.parts) = dotted name.parts := by
  have hne := List.ne_nil_of_length_pos name.isPartList.1
  have hwrites := QualifiedName.writes_joinWith (forall₂_isToken_bracketed name h) hne
  obtain ⟨first, others, hparts⟩ := List.exists_cons_of_ne_nil hne
  refine ⟨⟨_, by rw [hparts, dotted_cons]⟩, hwrites.trim_eq name.isPartList, ?_⟩
  rw [stripParentheses_eq_self_iff, isWrapped, hparts, dotted_cons]
  rfl

/-- What a reference stands for, once its alias is cut off: for its alias, if a subquery or a CASE
expression is seen in it, and else for the column of its places. -/
theorem ofExpression?_dotted (aliasName : Option Text) :
    ofExpression? (dotted name.parts) aliasName =
      if name.parts.any isComputed then aliasName.map ofAlias
      else positional name.parts aliasName := by
  obtain ⟨⟨rest, hrest⟩, -⟩ := dotted_spec name h
  have hhead : (dotted name.parts).isEmpty = false ∧ isLiteral (dotted name.parts) = false := by
    rw [hrest]
    exact ⟨rfl, isLiteral_opening _⟩
  have hparse : QualifiedName.parse? (dotted name.parts) = some name :=
    name.parse?_joinWith (forall₂_isToken_bracketed name h)
  rw [ofExpression?, hhead.1, hhead.2, isComputed_dotted, hparse,
    ofName_eq_positional name fun p hp => (h p hp).1]
  rfl

/-- An alias behind AS is cut off from a reference. -/
theorem resolve?_dotted_as {new : Text} (hne : new ≠ []) (hclosing : ']' ∉ new) :
    resolve? (dotted name.parts ++ (" AS ".toList ++ bracketed new)) =
      ofExpression? (dotted name.parts) (some new) := by
  obtain ⟨⟨rest, hrest⟩, htrim, hstrip⟩ := dotted_spec name h
  have hclosed := (isWordless_dotted fun p hp => (h p hp).2).closed
  have hitem : Text.trim (dotted name.parts ++ (" AS ".toList ++ bracketed new)) =
      dotted name.parts ++ (" AS ".toList ++ bracketed new) := by
    refine Text.trim_eq_self_iff.2 ⟨Text.trimStart_eq_self_iff.2 ?_, ?_⟩
    · rw [hrest]
      simp [isBlank]
    · refine Text.trimEnd_eq_self_of_getLast? (c := ']') ?_ (by decide)
      rw [bracketed, ← List.cons_append, ← List.append_assoc, ← List.append_assoc,
        List.getLast?_concat]
  have hexplicit := Alias.explicit?_append hclosed (by rw [htrim, hrest]; simp) hne hclosing
  rw [resolve?, splitAlias, hitem, hexplicit, htrim, Option.orElse_some]
  exact congrArg (ofExpression? · (some new)) hstrip

/-- Without AS only an alias inside the last part is cut off from a reference. -/
theorem splitAlias_dotted : splitAlias (dotted name.parts) =
    (Alias.implicit? (dotted name.parts)).elim (dotted name.parts, none)
      fun p => (p.1, some p.2) := by
  have hexplicit : Alias.explicit? (dotted name.parts) = none :=
    Alias.explicit?_eq_none ((isWordless_dotted fun p hp => (h p hp).2).spans _ (by decide))
  rw [splitAlias, (dotted_spec name h).2.1, hexplicit, Option.orElse_none]
  cases Alias.implicit? (dotted name.parts) <;> rfl

/-- A reference is resolved by its places exactly if no alias is cut off inside its last part, since
places tell no alias, and no subquery and no CASE expression is seen in it. -/
theorem resolve?_dotted_eq_positional_iff :
    resolve? (dotted name.parts) = positional name.parts none ↔
      name.parts.any isComputed = false ∧ ¬ (Alias.implicit? (dotted name.parts)).isSome := by
  have hpositional := ofName_eq_positional name (fun p hp => (h p hp).1) none
  rw [resolve?, splitAlias_dotted name h]
  cases Alias.implicit? (dotted name.parts) with
  | none =>
    rw [Option.elim_none, (dotted_spec name h).2.2, ofExpression?_dotted name h]
    cases name.parts.any isComputed with
    | false => simp
    | true => simp [hpositional]
  | some p =>
    refine iff_of_false (fun heq => ?_) (by simp)
    -- The column would have the alias that was cut off, and none by its places.
    have halias := aliasName_of_ofExpression? (heq.trans hpositional)
    cases halias

end Reference

/-- A reference of one to five parts in brackets is resolved by the places of its parts if and only
if neither the words SELECT, CASE and WHEN are seen in a part nor an alias in the last one. With an
alias behind AS it is so if and only if these words are not seen, except for a column under its own
name, which the alias alone tells as well. -/
theorem resolve?_dotted_iff {parts : List Text} (hpos : 0 < parts.length)
    (hlength : parts.length ≤ maxParts) (hparts : ∀ p ∈ parts, p ≠ [] ∧ ']' ∉ p) {new : Text}
    (hnew : new ≠ [] ∧ ']' ∉ new) :
    (resolve? (dotted parts) = positional parts none ↔
      (∀ p ∈ parts, isComputed p = false) ∧ ¬ HidesAlias parts) ∧
    (resolve? (dotted parts ++ (" AS ".toList ++ bracketed new)) = positional parts (some new) ↔
      (∀ p ∈ parts, isComputed p = false) ∨ parts = [new]) := by
  have hends : IsPartList parts := by
    refine ⟨hpos, hlength, fun hhead => ?_, fun hlast => ?_⟩
    · exact (hparts [] (List.mem_of_mem_head? hhead)).1 rfl
    · exact (hparts [] (List.mem_of_mem_getLast? hlast)).1 rfl
  obtain ⟨name, rfl⟩ : ∃ name : QualifiedName, name.parts = parts := ⟨⟨parts, hends⟩, rfl⟩
  have hseen : name.parts.any isComputed = false ↔ ∀ p ∈ name.parts, isComputed p = false := by
    simp
  rw [← hseen, ← implicit?_dotted_isSome_iff fun p hp => (hparts p hp).2]
  refine ⟨resolve?_dotted_eq_positional_iff name hparts, ?_⟩
  rw [resolve?_dotted_as name hparts hnew.1 hnew.2, ofExpression?_dotted name hparts]
  cases name.parts.any isComputed with
  | false => simp
  | true => simp [← positional_eq_ofAlias_iff, eq_comm]

/-- Blanks, a dot, the word AS, a quote mark and a parenthesis in the parts, CASE as the alias. -/
theorem resolve?_dotted_iff_marks :
    let parts := ["My Db".toList, "a.b".toList, "x AS 'y (z".toList]
    resolve? (dotted parts) =
        some ⟨some "My Db".toList, some "a.b".toList, "x AS 'y (z".toList, none⟩ ∧
      resolve? (dotted parts ++ (" AS ".toList ++ bracketed "Case".toList)) =
        some ⟨some "My Db".toList, some "a.b".toList, "x AS 'y (z".toList, some "Case".toList⟩ := by
  intro parts
  have hhides : ¬ HidesAlias parts := by
    rintro ⟨init, u, c, name, hparts, -⟩
    -- The last part holds no opening bracket.
    have hlast : some "x AS 'y (z".toList = some (u ++ c :: '[' :: name) :=
      (congrArg List.getLast? hparts).trans List.getLast?_concat
    have hmem : '[' ∈ "x AS 'y (z".toList := by simp [Option.some.inj hlast]
    exact absurd hmem (by decide)
  have hseen : ∀ p ∈ parts, isComputed p = false := by decide
  obtain ⟨hplain, has⟩ :=
    @resolve?_dotted_iff parts (by decide) (by decide) (by decide) "Case".toList (by decide)
  exact ⟨hplain.2 ⟨hseen, hhides⟩, has.2 (.inl hseen)⟩

/-- A table called `Case` is taken for a CASE expression, and a bracket behind a blank in a name of
one part is taken for an alias. -/
theorem resolve?_dotted_ne :
    resolve? (dotted ["Case".toList, "Id".toList]) ≠
        positional ["Case".toList, "Id".toList] none ∧
      resolve? (dotted ["Net (EUR) [x".toList]) ≠ positional ["Net (EUR) [x".toList] none := by
  decide +kernel

end Column

end LooseSql
