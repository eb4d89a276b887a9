import LooseSql.Name.Basic
import LooseSql.Proofs.Text.After
import LooseSql.Proofs.Text.CharClass
import LooseSql.Proofs.Text.Doubled
import LooseSql.Proofs.Text.Trim

/-!
# The grammar of dotted names

A dotted name is written as one token for each part, with a dot between each two tokens.

* `Part.IsToken`: the tokens of a part;
* `QualifiedName.Writes`: the texts that write a list of parts;
* `QualifiedName.parse?_eq_some_iff`: `parse?` accepts these texts, blanks around them apart, and
  reads the parts that they write;
* `QualifiedName.parse?_joinWith`: in particular it reads back a name from any tokens of its parts.

That a text has one reading only (`QualifiedName.Writes.unique`) follows, since reading is a
function.
-/

namespace LooseSql

/-! ## Tokens -/

/-- A token of a part: the part in delimiters, or bare if it is a star or a run of word characters.
An empty part may also be left out. -/
inductive Part.IsToken : (part token : Text) → Prop where
  /-- `[part]` or `"part"`, with the closing mark doubled inside. -/
  | delimited (d : Delimiter) (part : Text) : IsToken part (d.wrap part)
  /-- `*` -/
  | star : IsToken ['*'] ['*']
  /-- A word. -/
  | word {part : Text} (hne : part ≠ []) (hword : ∀ c ∈ part, isWordChar c = true) :
    IsToken part part
  /-- Nothing. -/
  | missing : IsToken [] []

/-- The part in delimiters, written out. -/
theorem Delimiter.wrap_eq (d : Delimiter) (part : Text) :
    d.wrap part = d.opening ::
      (part.flatMap (fun c => if c = d.closing then [c, c] else [c]) ++ [d.closing]) := by
  rw [wrap, Doubled.encode_eq]

theorem Delimiter.ofOpening?_eq_some_iff {c : Char} {d : Delimiter} :
    ofOpening? c = some d ↔ c = d.opening := by
  constructor
  · intro h
    rw [ofOpening?] at h
    split at h
    · next hc => rw [← Option.some.inj h, hc]; rfl
    · split at h
      · next hc => rw [← Option.some.inj h, hc]; rfl
      · cases h
  · rintro rfl
    cases d <;> rfl

/-- A character that may stand behind a token: the dot, or the padding in front of it. -/
def isAroundDot (c : Char) : Bool := c == '.' || isDotPadding c

theorem isBlank_of_isDotPadding {c : Char} (hc : isDotPadding c) : isBlank c = true := by
  have h : ∀ d ∈ [' ', '\t', '\r', '\n'], isBlank d = true := by decide
  exact h c (by simpa [isDotPadding, or_assoc] using hc)

theorem isWordChar_of_isAroundDot {c : Char} (hc : isAroundDot c) : isWordChar c = false := by
  rcases Bool.or_eq_true_iff.1 hc with hdot | hpadding
  · rw [eq_of_beq hdot]
    decide
  · exact isWordChar_of_isBlank (isBlank_of_isDotPadding hpadding)

namespace Part

/-- A mark that opens a delimited part is no word character. -/
theorem isWordChar_opening (d : Delimiter) : isWordChar d.opening = false := by
  cases d <;> decide

/-- A bare part is a star or the run of word characters at the head of the text. -/
theorem readBare?_cons (c : Char) (t : Text) :
    readBare? (c :: t) =
      if c = '*' then some (['*'], t)
      else if isWordChar c then some ((c :: t).takeWhile isWordChar, (c :: t).dropWhile isWordChar)
      else none := by
  by_cases hstar : c = '*'
  · rw [hstar]
    rfl
  · have hdrop : ((c :: t).takeWhile isWordChar ++ (c :: t).dropWhile isWordChar).drop
        ((c :: t).takeWhile isWordChar).length = (c :: t).dropWhile isWordChar := List.drop_left
    rw [List.takeWhile_append_dropWhile] at hdrop
    rw [readBare?, if_neg hstar, hdrop]
    · cases hc : isWordChar c <;> simp [hc]
    · rintro rest ⟨⟩
      exact hstar rfl

/-- A part that is read stands in front of the rest, as one of its tokens. -/
theorem exists_token_of_read? {t part rest : Text} (h : read? t = some (part, rest)) :
    ∃ token, IsToken part token ∧ t = token ++ rest := by
  cases t with
  | nil => simp [read?] at h
  | cons c t =>
    rw [read?] at h
    cases hopening : Delimiter.ofOpening? c with
    | some d =>
      rw [hopening] at h
      -- What is decoded up to the closing mark encodes to what was read.
      obtain ⟨ht, -⟩ := Doubled.eq_encode_append_of_decode? h
      refine ⟨d.wrap part, .delimited d part, ?_⟩
      rw [Delimiter.ofOpening?_eq_some_iff.1 hopening, ht]
      rfl
    | none =>
      rw [hopening] at h
      replace h : readBare? (c :: t) = some (part, rest) := h
      rw [readBare?_cons] at h
      split at h
      · next hstar =>
        obtain ⟨rfl, rfl⟩ : ['*'] = part ∧ t = rest := by simpa using h
        exact ⟨['*'], .star, by rw [hstar]; rfl⟩
      · split at h
        · next hc =>
          obtain ⟨rfl, rfl⟩ : (c :: t).takeWhile isWordChar = part ∧
              (c :: t).dropWhile isWordChar = rest := by simpa using h
          exact ⟨_, .word (by simp [hc]) fun d hd => List.mem_takeWhile_imp hd,
            List.takeWhile_append_dropWhile.symm⟩
        · cases h

/-- Every token but the missing one is read back, if no character follows that would go on with
it. -/
theorem read?_append {part token rest : Text} (h : IsToken part token) (hne : token ≠ [])
    (hrest : ∀ c ∈ rest.head?, isAroundDot c = true) :
    read? (token ++ rest) = some (part, rest) := by
  cases h with
  | delimited d =>
    -- A closing mark behind the token would be read as the second half of a doubled one.
    have hclosing : rest.head? ≠ some d.closing := by
      intro hhead
      have hdot := hrest _ hhead
      cases d <;> exact absurd hdot (by decide)
    rw [Delimiter.wrap, List.cons_append, read?, Delimiter.ofOpening?_eq_some_iff.2 rfl]
    exact Doubled.decode?_encode_append part hclosing
  | star => rfl
  | word _ hword =>
    obtain ⟨c, t, rfl⟩ := List.exists_cons_of_ne_nil hne
    have hc : isWordChar c = true := hword c (by simp)
    have hstar : c ≠ '*' := by
      rintro rfl
      exact absurd hc (by decide)
    have hopening : Delimiter.ofOpening? c = none := by
      refine Option.eq_none_iff_forall_ne_some.2 fun d hd => ?_
      rw [Delimiter.ofOpening?_eq_some_iff.1 hd, isWordChar_opening] at hc
      cases hc
    -- The run of word characters ends where the token does.
    obtain ⟨htake, hdrop⟩ :=
      Text.span_append hword fun d hd => isWordChar_of_isAroundDot (hrest d hd)
    rw [List.cons_append, read?, hopening]
    change readBare? (c :: (t ++ rest)) = _
    rw [readBare?_cons, if_neg hstar, if_pos hc, ← List.cons_append, htake, hdrop]
  | missing => exact absurd rfl hne

/-- No part is read where only a dot can stand. -/
theorem read?_eq_none {rest : Text} (hrest : ∀ c ∈ rest.head?, isAroundDot c = true) :
    read? rest = none := by
  cases rest with
  | nil => rfl
  | cons c rest =>
    have hc : isAroundDot c = true := hrest c rfl
    -- Neither a blank nor a dot opens a part, nor is it the star.
    have hopening : Delimiter.ofOpening? c = none := by
      refine Option.eq_none_iff_forall_ne_some.2 fun d hd => ?_
      rw [Delimiter.ofOpening?_eq_some_iff.1 hd] at hc
      cases d <;> exact absurd hc (by decide)
    have hstar : c ≠ '*' := by
      rintro rfl
      exact absurd hc (by decide)
    rw [read?, hopening]
    change readBare? (c :: rest) = none
    rw [readBare?_cons, if_neg hstar, if_neg]
    simp [isWordChar_of_isAroundDot hc]

/-- The token of a part that is not empty neither starts nor ends with a blank. -/
theorem IsToken.trim_eq {part token : Text} (h : IsToken part token) (hpart : part ≠ []) :
    token ≠ [] ∧ token.trimStart = token ∧ token.trimEnd = token := by
  rw [Text.trimStart_eq_self_iff, Text.trimEnd_eq_self_iff]
  cases h with
  | delimited d =>
    rw [Delimiter.wrap_eq]
    -- The token starts and ends with a mark, whatever the part is.
    cases d <;> simp [Delimiter.opening, Delimiter.closing, List.getLast?_cons, isBlank]
  | star => decide
  | word _ hword =>
    have hblank : ∀ c ∈ part, isBlank c = false := by
      intro c hc
      by_contra hblank
      have hnot := isWordChar_of_isBlank (c := c) (by simpa using hblank)
      rw [hword c hc] at hnot
      cases hnot
    exact ⟨hpart, fun c hc => hblank c (List.mem_of_mem_head? hc),
      fun c hc => hblank c (List.mem_of_mem_getLast? hc)⟩
  | missing => exact absurd rfl hpart

/-- A token is unwrapped to its part. -/
theorem IsToken.unwrap_eq {part token : Text} (h : IsToken part token) (hpart : part ≠ []) :
    unwrap token = part := by
  obtain ⟨hne, htrim⟩ := h.trim_eq hpart
  have hread : read? (token ++ []) = some (part, []) := read?_append h hne (by simp)
  rw [List.append_nil] at hread
  rw [unwrap, Text.trim_eq_self_iff.2 htrim, hread]

/-- No token starts with what stands around a dot. -/
theorem IsToken.isAroundDot_head? {part token : Text} (h : IsToken part token) :
    ∀ c ∈ token.head?, isAroundDot c = false := by
  cases h with
  | delimited d => cases d <;> simp [Delimiter.wrap, Delimiter.opening, isAroundDot, isDotPadding]
  | star => decide
  | word _ hword =>
    intro c hc
    by_contra haround
    have hnot := isWordChar_of_isAroundDot (c := c) (by simpa using haround)
    rw [hword c (List.mem_of_mem_head? hc)] at hnot
    cases hnot
  | missing => simp

end Part

/-! ## Texts that write parts -/

namespace QualifiedName

/-- A dot with padding around it. -/
def IsSpacedDot (dot : Text) : Prop :=
  ∃ before after : Text, dot = before ++ '.' :: after ∧
    (∀ c ∈ before, isDotPadding c = true) ∧ ∀ c ∈ after, isDotPadding c = true

/-- The text writes the parts: one token for each of them, with a dot between each two tokens. -/
inductive Writes : (t : Text) → (parts : List Text) → Prop where
  /-- The last part, or the only one. -/
  | last {part token : Text} (htoken : Part.IsToken part token) : Writes token [part]
  /-- A part with further ones behind it. -/
  | cons {part token dot rest : Text} {parts : List Text} (htoken : Part.IsToken part token)
    (hdot : IsSpacedDot dot) (hrest : Writes rest parts) :
    Writes (token ++ (dot ++ rest)) (part :: parts)

theorem isSpacedDot_dot : IsSpacedDot ['.'] := ⟨[], [], rfl, by simp, by simp⟩

theorem IsSpacedDot.isAroundDot_head? {dot : Text} (h : IsSpacedDot dot) (rest : Text) :
    ∀ c ∈ (dot ++ rest).head?, isAroundDot c = true := by
  obtain ⟨before, after, rfl, hbefore, -⟩ := h
  cases before with
  | nil => simp [isAroundDot]
  | cons d before => simp [isAroundDot, hbefore d (by simp)]

/-! ## Reading one part and one dot -/

theorem exists_token_append_readPart (t : Text) :
    ∃ token, Part.IsToken (readPart t).1 token ∧ t = token ++ (readPart t).2 := by
  rw [readPart]
  cases hread : Part.read? t with
  | none => exact ⟨[], .missing, rfl⟩
  | some p => exact Part.exists_token_of_read? hread

theorem readPart_append {part token rest : Text} (h : Part.IsToken part token)
    (hrest : ∀ c ∈ rest.head?, isAroundDot c = true) :
    readPart (token ++ rest) = (part, rest) := by
  by_cases hne : token = []
  · -- only the missing token is empty
    obtain rfl : part = [] := by
      cases h with
      | delimited d => simp [Delimiter.wrap] at hne
      | star => simp at hne
      | word => exact hne
      | missing => rfl
    rw [hne, List.nil_append, readPart, Part.read?_eq_none hrest]
    rfl
  · rw [readPart, Part.read?_append h hne hrest]
    rfl

theorem exists_isSpacedDot_of_afterDot? {t rest : Text} (h : afterDot? t = some rest) :
    ∃ dot, IsSpacedDot dot ∧ t = dot ++ rest := by
  rw [afterDot?] at h
  split at h
  · next r hr =>
    obtain rfl : r.dropWhile isDotPadding = rest := by simpa using h
    have hspaced : IsSpacedDot (t.takeWhile isDotPadding ++ '.' :: r.takeWhile isDotPadding) :=
      ⟨_, _, rfl, fun _ hc => List.mem_takeWhile_imp hc, fun _ hc => List.mem_takeWhile_imp hc⟩
    refine ⟨_, hspaced, ?_⟩
    rw [List.append_assoc, List.cons_append, List.takeWhile_append_dropWhile, ← hr,
      List.takeWhile_append_dropWhile]
  · cases h

theorem IsSpacedDot.afterDot?_append {dot : Text} (h : IsSpacedDot dot) (rest : Text) :
    afterDot? (dot ++ rest) = some (rest.dropWhile isDotPadding) := by
  obtain ⟨before, after, rfl, hbefore, hafter⟩ := h
  have hdrop : (before ++ '.' :: after ++ rest).dropWhile isDotPadding =
      '.' :: (after ++ rest) := by
    rw [List.append_assoc, List.dropWhile_append_of_pos hbefore]
    rfl
  rw [afterDot?, hdrop]
  exact congrArg some (List.dropWhile_append_of_pos hafter)

/-! ## Reading all parts -/

theorem readParts?_succ (limit : Nat) (t : Text) :
    readParts? (limit + 1) t =
      if (readPart t).2.isEmpty then some [(readPart t).1]
      else (afterDot? (readPart t).2).bind fun rest =>
        (readParts? limit rest).map ((readPart t).1 :: ·) :=
  rfl

/-- The parts that are read are written by the text. -/
theorem writes_of_readParts? {limit : Nat} {t : Text} {parts : List Text}
    (h : readParts? limit t = some parts) : Writes t parts := by
  induction limit generalizing t parts with
  | zero => cases h
  | succ limit ih =>
    obtain ⟨token, htoken, ht⟩ := exists_token_append_readPart t
    rw [readParts?_succ] at h
    -- The part that was read and the text behind it make up `t`.
    generalize readPart t = p at h htoken ht
    subst ht
    split at h
    · next hend =>
      obtain rfl : [p.1] = parts := by simpa using h
      rw [List.isEmpty_iff.1 hend, List.append_nil]
      exact .last htoken
    · obtain ⟨rest, hdot, hmap⟩ := Option.bind_eq_some_iff.1 h
      obtain ⟨tail, htail, rfl⟩ := Option.map_eq_some_iff.1 hmap
      obtain ⟨dot, hspaced, hrest⟩ := exists_isSpacedDot_of_afterDot? hdot
      rw [hrest]
      exact .cons htoken hspaced (ih htail)

theorem dropWhile_isDotPadding_append {token : Text} (rest : Text) (hne : token ≠ [])
    (htoken : ∀ c ∈ token.head?, isAroundDot c = false) :
    (token ++ rest).dropWhile isDotPadding = token ++ rest := by
  obtain ⟨c, token, rfl⟩ := List.exists_cons_of_ne_nil hne
  have hc : isDotPadding c = false := (Bool.or_eq_false_iff.1 (htoken c rfl)).2
  rw [List.cons_append, List.dropWhile_cons_of_neg (by simp [hc])]

/-- Padding in front of a dot can be left out. -/
theorem IsSpacedDot.exists_dropWhile_append {dot : Text} (h : IsSpacedDot dot) (rest : Text) :
    ∃ dot', IsSpacedDot dot' ∧ (dot ++ rest).dropWhile isDotPadding = dot' ++ rest := by
  obtain ⟨before, after, rfl, hbefore, hafter⟩ := h
  refine ⟨'.' :: after, ⟨[], after, rfl, by simp, hafter⟩, ?_⟩
  rw [List.append_assoc, List.dropWhile_append_of_pos hbefore]
  rfl

/-- The parts that a text writes are read from it. The padding at its head is dropped as it is
behind a dot, where a missing part would leave the padding of the next dot. -/
theorem readParts?_of_writes {t : Text} {parts : List Text} (h : Writes t parts) {limit : Nat}
    (hlimit : parts.length ≤ limit) :
    readParts? limit (t.dropWhile isDotPadding) = some parts := by
  -- Induction on the text, since one more part takes one more of the limit.
  induction h generalizing limit with
  | @last part token htoken =>
    obtain ⟨limit, rfl⟩ := Nat.exists_eq_add_of_le' hlimit
    have hread : readPart (token ++ []) = (part, []) := readPart_append htoken (by simp)
    rw [List.append_nil] at hread
    have hdrop : token.dropWhile isDotPadding = token := by
      by_cases hne : token = []
      · rw [hne]
        rfl
      · simpa using dropWhile_isDotPadding_append [] hne htoken.isAroundDot_head?
    rw [hdrop, List.length_singleton, readParts?_succ, hread]
    rfl
  | @cons part token dot rest parts htoken hdot hrest ih =>
    obtain ⟨limit, rfl⟩ := Nat.exists_eq_add_of_le' hlimit
    -- A token that is not missing keeps the padding away from the head of the text.
    obtain ⟨dot', hdot', hdrop⟩ : ∃ dot', IsSpacedDot dot' ∧
        (token ++ (dot ++ rest)).dropWhile isDotPadding = token ++ (dot' ++ rest) := by
      by_cases hne : token = []
      · rw [hne]
        exact hdot.exists_dropWhile_append rest
      · exact ⟨dot, hdot, dropWhile_isDotPadding_append _ hne htoken.isAroundDot_head?⟩
    have hmore : (dot' ++ rest).isEmpty = false := by
      obtain ⟨before, after, rfl, -⟩ := hdot'
      simp
    rw [hdrop, List.length_cons, ← Nat.add_assoc, readParts?_succ,
      readPart_append htoken (hdot'.isAroundDot_head? rest)]
    simp only [hmore, hdot'.afterDot?_append, Option.bind_some]
    rw [if_neg (by simp), ih (by simp), Option.map_some]

/-- A text writes one list of parts only. -/
theorem Writes.unique {t : Text} {parts parts' : List Text} (h : Writes t parts)
    (h' : Writes t parts') : parts = parts' := by
  have hread := readParts?_of_writes h (Nat.le_max_left _ parts'.length)
  rw [readParts?_of_writes h' (Nat.le_max_right _ _)] at hread
  exact (Option.some.inj hread).symm

/-! ## Whole names -/

theorem Writes.trimStart_eq {t : Text} {parts : List Text} (h : Writes t parts)
    (hfirst : parts.head? ≠ some []) : t.trimStart = t := by
  cases h with
  | last htoken => exact (htoken.trim_eq (by simpa using hfirst)).2.1
  | cons htoken _ _ =>
    obtain ⟨hne, hstart, -⟩ := htoken.trim_eq (by simpa using hfirst)
    rw [Text.trimStart_append (by rwa [hstart]), hstart]

theorem Writes.trimEnd_eq {t : Text} {parts : List Text} (h : Writes t parts)
    (hlast : parts.getLast? ≠ some []) : t ≠ [] ∧ t.trimEnd = t := by
  induction h with
  | last htoken =>
    obtain ⟨hne, -, hend⟩ := htoken.trim_eq (by simpa using hlast)
    exact ⟨hne, hend⟩
  | @cons part token dot rest parts htoken hdot hrest ih =>
    -- The text ends with the token of its last part.
    have hparts : parts ≠ [] := by
      cases hrest <;> simp
    obtain ⟨hne, hend⟩ := ih (by rwa [List.getLast?_cons_of_ne_nil hparts] at hlast)
    refine ⟨by simp [hne], ?_⟩
    rwa [← List.append_assoc, Text.trimEnd_append_eq_self_iff _ hne]

/-- A text that writes the parts of a name has no blanks around it. -/
theorem Writes.trim_eq {t : Text} {parts : List Text} (h : Writes t parts)
    (hparts : IsPartList parts) : t.trim = t :=
  Text.trim_eq_self_iff.2 ⟨h.trimStart_eq hparts.2.2.1, (h.trimEnd_eq hparts.2.2.2).2⟩

/-- The name that a text is read as is the one whose parts the text writes, blanks around it
apart. -/
theorem parse?_eq_some_iff {t : Text} {name : QualifiedName} :
    parse? t = some name ↔ Writes t.trim name.parts := by
  constructor
  · intro h
    obtain ⟨parts, hread, hname⟩ := Option.bind_eq_some_iff.1 h
    rw [ofParts?] at hname
    split at hname
    · rw [← Option.some.inj hname]
      exact writes_of_readParts? hread
    · cases hname
  · intro h
    -- `readParts?_of_writes` drops padding at the head, but a trimmed text has none.
    have hpadding : t.trim.dropWhile isDotPadding = t.trim := by
      have hstart := Text.trimStart_eq_self_iff.1 (h.trimStart_eq name.isPartList.2.2.1)
      cases ht : t.trim with
      | nil => rfl
      | cons c u =>
        rw [ht] at hstart
        refine List.dropWhile_cons_of_neg fun hc => ?_
        exact absurd (isBlank_of_isDotPadding hc) (by simp [hstart c rfl])
    rw [parse?, ← hpadding, readParts?_of_writes h name.isPartList.2.1, Option.bind_some, ofParts?,
      dif_pos name.isPartList]

/-! ## Rendered names -/

/-- The name with each part in the delimiter chosen for it. -/
def render (name : QualifiedName) (delimiters : List Delimiter) : Text :=
  Text.joinWith ['.'] (List.zipWith Delimiter.wrap delimiters name.parts)

/-- Tokens with dots between them write their parts. -/
theorem writes_joinWith {parts tokens : List Text} (h : List.Forall₂ Part.IsToken parts tokens)
    (hne : parts ≠ []) : Writes (Text.joinWith ['.'] tokens) parts := by
  induction h with
  | nil => exact absurd rfl hne
  | @cons part token parts tokens htoken htokens ih =>
    cases htokens with
    | nil => simpa [Text.joinWith] using Writes.last htoken
    | cons htoken' htokens =>
      exact .cons htoken isSpacedDot_dot (ih (by simp))

theorem forall₂_isToken_zipWith {delimiters : List Delimiter} {parts : List Text}
    (h : delimiters.length = parts.length) :
    List.Forall₂ Part.IsToken parts (List.zipWith Delimiter.wrap delimiters parts) := by
  induction parts generalizing delimiters with
  | nil => simp
  | cons part parts ih =>
    cases delimiters with
    | nil => simp at h
    | cons d delimiters =>
      exact .cons (.delimited d part) (ih (by simpa using h))

/-- A name is read back from its tokens. -/
theorem parse?_joinWith (name : QualifiedName) {tokens : List Text}
    (h : List.Forall₂ Part.IsToken name.parts tokens) :
    parse? (Text.joinWith ['.'] tokens) = some name := by
  have hwrites := writes_joinWith h (List.ne_nil_of_length_pos name.isPartList.1)
  rw [parse?_eq_some_iff, hwrites.trim_eq name.isPartList]
  exact hwrites

/-- `parse?` accepts exactly the texts that write the parts of a name, blanks around them apart, and
reads these parts. So a name is read back from its parts in any delimiters. -/
theorem parse?_grammar :
    (∀ (t : Text) (parts : List Text),
      (∃ name, parse? t = some name ∧ name.parts = parts) ↔
        IsPartList parts ∧ Writes t.trim parts) ∧
    ∀ (name : QualifiedName) (delimiters : List Delimiter),
      delimiters.length = name.parts.length → parse? (name.render delimiters) = some name := by
  refine ⟨fun t parts => ⟨?_, ?_⟩, fun name delimiters hlength => ?_⟩
  · rintro ⟨name, hname, rfl⟩
    exact ⟨name.isPartList, parse?_eq_some_iff.1 hname⟩
  · rintro ⟨hparts, hwrites⟩
    exact ⟨⟨parts, hparts⟩, parse?_eq_some_iff.2 hwrites, rfl⟩
  · exact name.parse?_joinWith (forall₂_isToken_zipWith hlength)

/-- Both marks in the parts of a name, a part that is left out, and a star. -/
theorem parse?_grammar_marks :
    let parts := ["a]b".toList, "c\"d".toList, [], ['*']]
    Writes (Text.trim " [a]]b] . \"c\"\"d\"..* ".toList) parts ∧
      (parse? "[a]]b].\"c\"\"d\".[].\"*\"".toList).map QualifiedName.parts = some parts := by
  let name : QualifiedName := ⟨["a]b".toList, "c\"d".toList, [], ['*']], by decide⟩
  have hread : ∃ name', parse? " [a]]b] . \"c\"\"d\"..* ".toList = some name' ∧
      name'.parts = name.parts := by
    refine Option.map_eq_some_iff.1 ?_
    decide +kernel
  have hrender := parse?_grammar.2 name [.bracket, .quote, .bracket, .quote] rfl
  exact ⟨((parse?_grammar.1 _ _).1 hread).2, congrArg (Option.map QualifiedName.parts) hrender⟩

end QualifiedName

end LooseSql
