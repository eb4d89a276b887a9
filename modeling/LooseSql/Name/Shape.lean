import LooseSql.Name.Part

/-!
# Shapes of parts

Templates look for names in running text, where the end of a name is not known beforehand. They
accept parts of one shape, or of any shape in a mix. Two ways to find the end of a part matter:

* `Shape.afterInner?` reads a part that something has to follow, a dot or a parenthesis. It ends at
  the first closing mark that is not doubled.
* `Shape.afterLast?` reads a part that nothing has to follow. A part that is never closed that way
  still ends at the first half of its last doubled mark.

The bare shape starts with a character of a given class, since some templates disregard case and
others do not.
-/

namespace LooseSql

/-- How the parts of a name are written. -/
inductive Shape where
  /-- `[name]` -/
  | bracket
  /-- `"name"` -/
  | quoted
  /-- `name` -/
  | bare
  /-- Any mix of the three. -/
  | mixed
  deriving DecidableEq, Repr

/-- A bare part starts with an ASCII letter or one of `_ @ #`. -/
def isBareStart (c : Char) : Bool := c.isAlpha || c == '_' || c == '@' || c == '#'

/-- A bare part of a template that disregards case also starts with a character that folds to an
ASCII letter. -/
def isFoldedBareStart (c : Char) : Bool := isBareStart c || (foldedLetters.contains c)
where
  /-- The long s and the Kelvin sign. -/
  foldedLetters : List Char := ['\u017F', '\u212A']

namespace Shape

/-- All shapes, in the order in which templates try them. -/
def all : List Shape := [bracket, quoted, bare, mixed]

/-- The shape's word in the name of a template. -/
def label : Shape → String
  | bracket => "bracket"
  | quoted => "quoted"
  | bare => "bare"
  | mixed => "mixed"

/-- The shape admits a part that is written with this delimiter, or without one. -/
def admits : Shape → Option Delimiter → Bool
  | bracket, d => d == some .bracket
  | quoted, d => d == some .quote
  | bare, d => d.isNone
  | mixed, _ => true

/-- What follows the part at the head of a text, when something has to follow it. Parts in
delimiters are not empty. -/
def afterInner? (shape : Shape) (start : Char → Bool) : Text → Option Text
  | [] => none
  | c :: t =>
    let delimiter := Delimiter.ofOpening? c
    if !shape.admits delimiter then none
    else match delimiter with
      | some d => ((Doubled.decode? d.closing t).filter fun p => !p.1.isEmpty).map (·.2)
      | none => if start c then some (t.dropWhile isBareChar) else none

/-- What follows the part at the head of a text, when nothing has to follow it. -/
def afterLast? (shape : Shape) (start : Char → Bool) : Text → Option Text
  | [] => none
  | c :: t =>
    let delimiter := Delimiter.ofOpening? c
    if !shape.admits delimiter then none
    else match delimiter with
      | some d => Doubled.afterSome? d.closing t
      | none => if start c then some (t.dropWhile isBareChar) else none

theorem length_afterInner?_lt {shape : Shape} {start : Char → Bool} {t rest : Text}
    (h : shape.afterInner? start t = some rest) : rest.length < t.length := by
  cases t with
  | nil => simp [afterInner?] at h
  | cons c t =>
    have hdrop : (t.dropWhile isBareChar).length ≤ t.length :=
      (List.dropWhile_sublist _).length_le
    simp only [afterInner?] at h
    split at h
    · simp at h
    · split at h
      · simp only [Option.map_eq_some_iff, Option.filter_eq_some_iff] at h
        obtain ⟨p, ⟨hp, -⟩, rfl⟩ := h
        have := Doubled.length_decode?_lt hp
        simp only [List.length_cons]
        omega
      · split at h
        · simp only [Option.some.injEq] at h
          subst h
          simp only [List.length_cons]
          omega
        · simp at h

end Shape

/-- What follows a dot with blanks around it. -/
def afterSpacedDot? (t : Text) : Option Text :=
  match t.trimStart with
  | '.' :: rest => some (Text.trimStart rest)
  | _ => none

theorem length_afterSpacedDot?_lt {t rest : Text} (h : afterSpacedDot? t = some rest) :
    rest.length < t.length := by
  have h₁ := Text.length_trimStart_le t
  unfold afterSpacedDot? at h
  split at h
  · rename_i r hr
    have h₂ := Text.length_trimStart_le r
    simp only [Option.some.injEq] at h
    subst h
    rw [hr] at h₁
    simp only [List.length_cons] at h₁
    omega
  · simp at h

/-!
## Chains

A chain is a row of parts of any shape with dots between them, as it stands in an expression.
-/

namespace Chain

/-- What follows all the further parts of a chain, each with its dot. -/
def afterParts (start : Char → Bool) (t : Text) : Text :=
  match _hdot : afterSpacedDot? t with
  | none => t
  | some rest =>
    match _hpart : Shape.mixed.afterInner? start rest with
    | none => t
    | some rest' => afterParts start rest'
  termination_by t.length
  decreasing_by
    have := length_afterSpacedDot?_lt _hdot
    have := Shape.length_afterInner?_lt _hpart
    omega

/-- What follows the chain at the head of a text. Something has to follow it there. -/
def after? (start : Char → Bool) (t : Text) : Option Text :=
  (Shape.mixed.afterInner? start t).map (afterParts start)

/-- What follows the chain of at least two parts at the head of a text. Nothing has to follow it,
so its last part may be one that is closed in the middle of a doubled mark. -/
def afterQualified? (t : Text) : Option Text :=
  (Shape.mixed.afterInner? isBareStart t).bind fun first =>
    let inner := afterParts isBareStart first
    let rest := ((afterSpacedDot? inner).bind (Shape.mixed.afterLast? isBareStart)).getD inner
    if rest.length < first.length then some rest else none

/-- The chains of at least two parts in a text, from left to right and without overlap. The next
`skip` characters belong to the chain before. -/
def qualifiedFrom : (skip : Nat) → Text → List Text
  | _, [] => []
  | skip + 1, _ :: t => qualifiedFrom skip t
  | 0, c :: t =>
    match afterQualified? (c :: t) with
    | some rest => Text.before (c :: t) rest :: qualifiedFrom (t.length - rest.length) t
    | none => qualifiedFrom 0 t

/-- The chains of at least two parts in a text, from left to right and without overlap. -/
def qualified (t : Text) : List Text := qualifiedFrom 0 t

/-- Some end of the text is one part. -/
def endsWithPart : Text → Bool
  | [] => false
  | c :: t => Shape.mixed.afterInner? isBareStart (c :: t) == some [] || endsWithPart t

end Chain

end LooseSql
