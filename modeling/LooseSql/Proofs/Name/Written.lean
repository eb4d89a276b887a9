import LooseSql.Proofs.Name.Candidates
import LooseSql.Proofs.Name.Grammar
import Mathlib.Data.List.Forall2

/-!
# Names as a query writes them

A name of a query is written in delimiters: `[part]` or `"part"` in any mix, with a dot between each
two parts, and nothing at all for an empty part in the middle (`WrittenName`).

A template reads such a name from its first part on, part by part. How far it comes is told by the
parts alone (`Shape.remaining?`): it leaves the parts behind those that it counts, or it does not
match (`Template.afterName?_text`). So a template that matches leaves nothing exactly when it counts
as many parts as the name has, and of these templates the one for mixed shapes always matches.
-/

namespace LooseSql

/-! ## Parts in delimiters -/

/-- A part of a name with the delimiter that it is written in. -/
structure DelimitedPart where
  /-- How the part is written. -/
  delimiter : Delimiter
  /-- The part. -/
  part : Text
  /-- There are no blanks in the part, and no marks that close a delimiter. -/
  isPlain : ∀ c ∈ part, isBlank c = false ∧ c ≠ ']' ∧ c ≠ '"'

namespace DelimitedPart

variable (p : DelimitedPart)

/-- The part in its delimiter. An empty part is not written. -/
def text : Text := if p.part = [] then [] else p.delimiter.wrap p.part

theorem closing_not_mem : p.delimiter.closing ∉ p.part := by
  intro hmem
  obtain ⟨-, hbracket, hquote⟩ := p.isPlain _ hmem
  cases hd : p.delimiter with
  | bracket => exact hbracket (by rw [hd]; rfl)
  | quote => exact hquote (by rw [hd]; rfl)

theorem isToken : Part.IsToken p.part p.text := by
  by_cases hp : p.part = []
  · rw [text, if_pos hp, hp]
    exact .missing
  · rw [text, if_neg hp]
    exact .delimited _ _

variable {p} (hp : p.part ≠ [])

include hp

theorem text_eq : p.text = p.delimiter.opening :: (p.part ++ [p.delimiter.closing]) := by
  rw [text, if_neg hp, Delimiter.wrap, Doubled.encode_of_not_mem p.closing_not_mem]

variable {y : Text} (hy : y.head? ≠ some p.delimiter.closing) (shape : Shape) (start : Char → Bool)

include hy

/-- A part is read up to its closing mark, by a template for its shape. -/
theorem afterInner?_text : shape.afterInner? start (p.text ++ y) =
    if shape.admits (some p.delimiter) then some y else none := by
  have hdecode : Doubled.decode? p.delimiter.closing (p.part ++ [p.delimiter.closing] ++ y) =
      some (p.part, y) := by
    rw [← Doubled.encode_of_not_mem p.closing_not_mem]
    exact Doubled.decode?_encode_append p.part hy
  rw [text_eq hp, List.cons_append, Shape.afterInner?,
    Delimiter.ofOpening?_eq_some_iff.2 rfl]
  simp only [hdecode]
  cases shape.admits (some p.delimiter) with
  | false => rfl
  | true => simp [Option.filter_some, hp]

/-- The last part is read in the same way. -/
theorem afterLast?_text : shape.afterLast? start (p.text ++ y) =
    if shape.admits (some p.delimiter) then some y else none := by
  have hafter : Doubled.afterSome? p.delimiter.closing (p.part ++ [p.delimiter.closing] ++ y) =
      some y := by
    have hmem := p.closing_not_mem
    -- The reader asks for one character at least, and the part has one.
    obtain ⟨c, part, hpart⟩ := List.exists_cons_of_ne_nil hp
    rw [hpart] at hmem ⊢
    have hc : c ≠ p.delimiter.closing := fun h => hmem (by simp [h])
    obtain ⟨d, r, hr⟩ : ∃ d r, part ++ p.delimiter.closing :: y = d :: r :=
      List.exists_cons_of_ne_nil (by simp)
    rw [List.append_assoc, List.singleton_append, List.cons_append, hr,
      Doubled.afterSome?_cons_cons, if_neg hc, ← hr]
    exact Doubled.after?_append_mark (fun h => hmem (by simp [h])) hy
  rw [text_eq hp, List.cons_append, Shape.afterLast?, Delimiter.ofOpening?_eq_some_iff.2 rfl]
  simp only [hafter]
  cases shape.admits (some p.delimiter) <;> rfl

end DelimitedPart

/-! ## Further parts -/

/-- Text behind a name: it is empty or starts with a blank, and no dot goes on with the name. -/
structure EndsName (v : Text) : Prop where
  /-- A blank stands behind the name, or nothing. -/
  isBlank_head : ∀ c ∈ v.head?, isBlank c = true
  /-- The name does not go on behind blanks. -/
  not_dot : v.trimStart.head? ≠ some '.'

theorem EndsName.nil : EndsName [] := ⟨by simp, by decide⟩

/-- Parts with the dots in front of them. -/
def furtherText (parts : List DelimitedPart) : Text := parts.flatMap fun p => '.' :: p.text

theorem furtherText_cons (p : DelimitedPart) (parts : List DelimitedPart) :
    furtherText (p :: parts) = '.' :: (p.text ++ furtherText parts) := List.flatMap_cons

/-- The last of the parts is not empty. -/
def EndsWritten (parts : List DelimitedPart) : Prop := ∀ p ∈ parts.getLast?, p.part ≠ []

instance (parts : List DelimitedPart) : Decidable (EndsWritten parts) :=
  inferInstanceAs (Decidable (∀ p ∈ parts.getLast?, p.part ≠ []))

theorem EndsWritten.tail {p : DelimitedPart} {parts : List DelimitedPart}
    (h : EndsWritten (p :: parts)) : EndsWritten parts := by
  intro q hq
  refine h q ?_
  rw [List.getLast?_cons, Option.mem_def.1 hq]
  rfl

/-- A dot is read up to the part behind it, or up to the next dot if that part is empty. -/
theorem afterSpacedDot?_cons {p : DelimitedPart} {parts : List DelimitedPart}
    (h : EndsWritten (p :: parts)) (v : Text) :
    afterSpacedDot? (furtherText (p :: parts) ++ v) =
      some (p.text ++ (furtherText parts ++ v)) := by
  have hsolid : Text.trimStart (p.text ++ (furtherText parts ++ v)) =
      p.text ++ (furtherText parts ++ v) := by
    refine Text.trimStart_eq_self_iff.2 fun c hc => ?_
    by_cases hp : p.part = []
    · -- The part is not written, so it is not the last one.
      cases parts with
      | nil => exact absurd hp (h p rfl)
      | cons q parts =>
        rw [DelimitedPart.text, if_pos hp] at hc
        obtain rfl : '.' = c := Option.some.inj hc
        decide
    · rw [DelimitedPart.text_eq hp] at hc
      obtain rfl : p.delimiter.opening = c := Option.some.inj hc
      cases p.delimiter <;> decide
  rw [furtherText_cons, List.cons_append, List.append_assoc]
  exact congrArg some hsolid

section Further

variable {v : Text} (hv : EndsName v)

include hv

/-- No closing mark stands behind a part. -/
theorem head?_furtherText_ne (d : Delimiter) (parts : List DelimitedPart) :
    (furtherText parts ++ v).head? ≠ some d.closing := by
  intro hhead
  cases parts with
  | nil =>
    have hblank := hv.isBlank_head _ hhead
    cases d <;> exact absurd hblank (by decide)
  | cons p parts => cases d <;> exact absurd (Option.some.inj hhead) (by decide)

theorem afterSpacedDot?_end : afterSpacedDot? v = none := by
  unfold afterSpacedDot?
  split
  · next rest hrest =>
    exact absurd (by rw [hrest]; rfl) hv.not_dot
  · rfl

end Further

/-- No part starts with a dot. -/
theorem Shape.afterInner?_dot (shape : Shape) (t : Text) :
    shape.afterInner? isFoldedBareStart ('.' :: t) = none ∧
      shape.afterLast? isFoldedBareStart ('.' :: t) = none := by
  have hopening : Delimiter.ofOpening? '.' = none := by decide
  have hstart : isFoldedBareStart '.' = false := by decide
  rw [afterInner?, afterLast?, hopening, hstart]
  simp

/-- The parts that a template for the shape leaves when it has read `count` of them, all but the
last of which may be empty. -/
def Shape.remaining? (shape : Shape) : Nat → List DelimitedPart → Option (List DelimitedPart)
  | 0, parts => some parts
  | _ + 1, [] => none
  | 1, p :: parts => if p.part ≠ [] ∧ shape.admits (some p.delimiter) then some parts else none
  | count + 2, p :: parts =>
    if p.part = [] ∨ shape.admits (some p.delimiter) then shape.remaining? (count + 1) parts
    else none

namespace Template

/-- The further parts of a name are read as their delimiters say. -/
theorem afterFurtherParts?_text (shape : Shape) (count : Nat) {parts : List DelimitedPart}
    (hparts : EndsWritten parts) {v : Text} (hv : EndsName v) :
    afterFurtherParts? shape count (furtherText parts ++ v) =
      (shape.remaining? count parts).map (furtherText · ++ v) := by
  induction parts generalizing count with
  | nil =>
    have hnone : afterSpacedDot? (furtherText [] ++ v) = none := afterSpacedDot?_end hv
    match count with
    | 0 => rfl
    | 1 => rw [afterFurtherParts?, hnone]; rfl
    | count + 2 => rw [afterFurtherParts?, hnone]; rfl
  | cons p parts ih =>
    have hdot := afterSpacedDot?_cons hparts v
    have hclosing := head?_furtherText_ne hv p.delimiter parts
    -- An empty part is followed by a dot, which starts no part.
    have hempty : p.part = [] → ∃ t, p.text ++ (furtherText parts ++ v) = '.' :: t := by
      intro hp
      cases parts with
      | nil => exact absurd hp (hparts p rfl)
      | cons q parts =>
        rw [DelimitedPart.text, if_pos hp, furtherText, List.flatMap_cons]
        exact ⟨_, rfl⟩
    match count with
    | 0 => rfl
    | 1 =>
      rw [afterFurtherParts?, hdot, Option.bind_some, Shape.remaining?]
      by_cases hp : p.part = []
      · obtain ⟨t, ht⟩ := hempty hp
        rw [ht, (shape.afterInner?_dot t).2, if_neg fun h => h.1 hp]
        rfl
      · rw [DelimitedPart.afterLast?_text hp hclosing]
        by_cases hadmits : shape.admits (some p.delimiter) <;> simp [hp, hadmits]
    | count + 2 =>
      rw [afterFurtherParts?, hdot, Option.bind_some, Shape.remaining?]
      by_cases hp : p.part = []
      · obtain ⟨t, ht⟩ := hempty hp
        have hrest : p.text ++ (furtherText parts ++ v) = furtherText parts ++ v := by
          rw [DelimitedPart.text, if_pos hp, List.nil_append]
        rw [if_pos (.inl hp), ← ih (count + 1) hparts.tail, ht, (shape.afterInner?_dot t).1, ← ht,
          Option.getD_none, hrest]
      · rw [DelimitedPart.afterInner?_text hp hclosing]
        by_cases hadmits : shape.admits (some p.delimiter)
        · rw [if_pos hadmits, if_pos (.inr hadmits), Option.getD_some, ih (count + 1) hparts.tail]
        · -- The part is not of the shape, so a dot is looked for in front of it.
          have hnone : afterSpacedDot? (p.text ++ (furtherText parts ++ v)) = none := by
            rw [DelimitedPart.text_eq hp]
            cases p.delimiter <;> rfl
          rw [if_neg hadmits, if_neg (by simp [hp, hadmits]), Option.getD_none]
          cases count with
          | zero => rw [afterFurtherParts?, hnone]; rfl
          | succ count => rw [afterFurtherParts?, hnone]; rfl

end Template

/-! ## Names -/

/-- A name as a query writes it: one to four parts in delimiters, the first and the last not
empty. -/
structure WrittenName where
  /-- The first part. -/
  first : DelimitedPart
  /-- The parts behind it. -/
  others : List DelimitedPart
  /-- There are no more than four parts. -/
  length_le : others.length ≤ 3
  /-- The first part is not empty. -/
  first_ne : first.part ≠ []
  /-- The last part is not empty. -/
  endsWritten : EndsWritten (first :: others)

namespace WrittenName

variable (n : WrittenName)

/-- The parts of the name, without delimiters. -/
def parts : List Text := (n.first :: n.others).map DelimitedPart.part

/-- The name as it is written, with a dot between each two parts. -/
def text : Text := Text.joinWith ['.'] ((n.first :: n.others).map DelimitedPart.text)

/-- The part of the name that is a database: the second of four parts, the first of three, if it is
not empty. -/
def database? : Option Text :=
  match n.parts with
  | [_, database, _, _] => if database = [] then none else some database
  | [database, _, _] => some database
  | _ => none

theorem text_eq : n.text = n.first.text ++ furtherText n.others := by
  rw [text, List.map_cons, Text.joinWith_cons, List.flatMap_map]
  rfl

theorem length_parts : n.parts.length = n.others.length + 1 := by
  rw [parts, List.length_map, List.length_cons]

theorem isPartList : IsPartList n.parts := by
  refine ⟨by simp [length_parts], ?_, ?_, ?_⟩
  · have := n.length_le
    rw [length_parts, maxParts]
    omega
  · simpa [parts] using n.first_ne
  · rw [parts, List.getLast?_map]
    intro h
    obtain ⟨p, hp, hempty⟩ := Option.map_eq_some_iff.1 h
    exact n.endsWritten p hp hempty

/-- The name that is written. -/
def name : QualifiedName := ⟨n.parts, n.isPartList⟩

/-- A written name is read back. -/
theorem parse?_text : QualifiedName.parse? n.text = some n.name := by
  have htokens : List.Forall₂ Part.IsToken ((n.first :: n.others).map DelimitedPart.part)
      ((n.first :: n.others).map DelimitedPart.text) := by
    rw [List.forall₂_map_left_iff, List.forall₂_map_right_iff, List.forall₂_same]
    exact fun p _ => p.isToken
  exact n.name.parse?_joinWith htokens

/-- The parts that a template leaves of a name. -/
def remaining? (template : Template) : Option (List DelimitedPart) :=
  match template.rank with
  | 0 => none
  | rank + 1 =>
    if template.shape.admits (some n.first.delimiter) then template.shape.remaining? rank n.others
    else none

end WrittenName

/-- A template reads a written name as its delimiters say. -/
theorem Template.afterName?_text (template : Template) (n : WrittenName) {v : Text}
    (hv : EndsName v) :
    template.afterName? (n.text ++ v) = (n.remaining? template).map (furtherText · ++ v) := by
  have hclosing := head?_furtherText_ne hv n.first.delimiter n.others
  have hothers : EndsWritten n.others := n.endsWritten.tail
  rw [afterName?, n.text_eq, List.append_assoc, WrittenName.remaining?]
  -- The template asks for no part, for the last one alone, or for a first one and further ones.
  split
  · next hrank => rw [hrank]; rfl
  · next hrank =>
    rw [hrank, DelimitedPart.afterLast?_text n.first_ne hclosing]
    split <;> rfl
  · next rank hrank =>
    rw [hrank, DelimitedPart.afterInner?_text n.first_ne hclosing]
    simp only
    split
    · exact afterFurtherParts?_text template.shape (rank + 1) hothers hv
    · rfl

/-- What is left of the parts are those behind the ones that were read. -/
theorem Shape.remaining?_eq_some {shape : Shape} {count : Nat} {parts rest : List DelimitedPart}
    (h : shape.remaining? count parts = some rest) :
    count ≤ parts.length ∧ rest = parts.drop count := by
  induction parts generalizing count with
  | nil =>
    match count with
    | 0 => exact ⟨Nat.le_refl _, (Option.some.inj h).symm⟩
    | 1 => cases h
    | count + 2 => cases h
  | cons p parts ih =>
    match count with
    | 0 => exact ⟨Nat.zero_le _, (Option.some.inj h).symm⟩
    | 1 =>
      rw [remaining?] at h
      split at h
      · exact ⟨by simp, (Option.some.inj h).symm⟩
      · cases h
    | count + 2 =>
      rw [remaining?] at h
      split at h
      · obtain ⟨hle, hrest⟩ := ih h
        exact ⟨Nat.succ_le_succ hle, hrest⟩
      · cases h

/-- A template for mixed shapes reads any name to its end. -/
theorem Shape.remaining?_mixed {parts : List DelimitedPart} (h : EndsWritten parts) :
    mixed.remaining? parts.length parts = some [] := by
  induction parts with
  | nil => rfl
  | cons p parts ih =>
    cases parts with
    | nil => exact if_pos ⟨h p rfl, rfl⟩
    | cons q parts =>
      have hrest := ih h.tail
      rw [List.length_cons] at hrest
      rw [List.length_cons, List.length_cons, remaining?, if_pos (.inr rfl), hrest]

namespace WrittenName

variable {n : WrittenName} {template : Template}

theorem remaining?_eq_some {rest : List DelimitedPart} (h : n.remaining? template = some rest) :
    0 < template.rank ∧ template.rank ≤ n.parts.length ∧
      rest = (n.first :: n.others).drop template.rank := by
  rw [remaining?] at h
  split at h
  · cases h
  · next rank hrank =>
    split at h
    · obtain ⟨hle, hrest⟩ := Shape.remaining?_eq_some h
      rw [hrank, length_parts]
      exact ⟨Nat.succ_pos _, Nat.succ_le_succ hle, hrest⟩
    · cases h

theorem remaining?_mixed (hshape : template.shape = .mixed)
    (hrank : template.rank = n.parts.length) : n.remaining? template = some [] := by
  rw [remaining?, hrank, length_parts, hshape]
  exact (if_pos rfl).trans (Shape.remaining?_mixed n.endsWritten.tail)

end WrittenName

end LooseSql
