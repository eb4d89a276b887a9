import LooseSql.Proofs.Normalize

/-!
# The prologue that is taken off

`stripCtePrologue` takes one stretch off the head of a text. The stretch ends in front of the word
SELECT behind the first closing parenthesis that such a word follows, whatever is opened and closed
before (`fromOuterSelect?_eq_some_iff`). A text that starts with SELECT has no prologue, so a second
run takes nothing off.
-/

namespace LooseSql

/-! ## The outer SELECT -/

/-- The text is the whole word SELECT with blanks in front of it and anything behind it. -/
def LeadsToSelect (t : Text) : Prop :=
  (afterFoldedWord? "select".toList t.trimStart).isSome = true

instance (t : Text) : Decidable (LeadsToSelect t) := inferInstanceAs (Decidable (_ = true))

/-- No closing parenthesis of the text has blanks and the whole word SELECT behind it. -/
def IsCteBody (t : Text) : Prop := ∀ u v : Text, t = u ++ ')' :: v → ¬ LeadsToSelect v

theorem isCteBody_nil : IsCteBody [] := by
  intro u v hsplit
  simp at hsplit

theorem isCteBody_cons {c : Char} {t : Text} :
    IsCteBody (c :: t) ↔ ¬ (c = ')' ∧ LeadsToSelect t) ∧ IsCteBody t := by
  constructor
  · intro h
    refine ⟨?_, fun u v ht => h (c :: u) v (by rw [ht, List.cons_append])⟩
    rintro ⟨rfl, hselect⟩
    exact h [] t rfl hselect
  · rintro ⟨hhead, htail⟩ u v hsplit
    cases u with
    | nil =>
      obtain ⟨hc, rfl⟩ := List.cons.inj hsplit
      exact fun hselect => hhead ⟨hc, hselect⟩
    | cons d u => exact htail u v (List.cons.inj hsplit).2

/-- A closing parenthesis is no part of the word SELECT, and the word may end in front of it. -/
theorem leadsToSelect_append (w v : Text) : LeadsToSelect (w ++ ')' :: v) ↔ LeadsToSelect w := by
  have hletter : foldCase ')' ∉ "select".toList := by decide
  rw [LeadsToSelect, LeadsToSelect]
  by_cases hblank : Text.trimStart w = []
  · have hclosing : Text.trimStart (w ++ ')' :: v) = ')' :: v :=
      Text.trimStart_append_of_blank (Text.trimStart_eq_nil_iff.1 hblank) (')' :: v)
    have hnone : afterFolded? "select".toList (')' :: v) = none :=
      afterFolded?_eq_none (by decide) (by simpa using hletter)
    rw [hblank, hclosing, afterFoldedWord?, hnone]
    exact Iff.rfl
  · rw [Text.trimStart_append hblank, afterFoldedWord?_append (by decide) (by decide)
      (by simpa using hletter) (fun _ _ _ => rfl), Option.isSome_map]

theorem fromOuterSelect?_cons (c : Char) (t : Text) : fromOuterSelect? (c :: t) =
    if c = ')' ∧ LeadsToSelect t then some t.trimStart else fromOuterSelect? t := by
  rw [fromOuterSelect?]
  exact ite_congr (by simp [LeadsToSelect]) (fun _ => rfl) fun _ => rfl

/-- The search finds nothing where no closing parenthesis leads to SELECT. -/
theorem fromOuterSelect?_eq_none_iff {t : Text} : fromOuterSelect? t = none ↔ IsCteBody t := by
  induction t with
  | nil => exact ⟨fun _ => isCteBody_nil, fun _ => rfl⟩
  | cons c t ih =>
    rw [fromOuterSelect?_cons, isCteBody_cons, ← ih]
    split <;> simp_all

instance (t : Text) : Decidable (IsCteBody t) := decidable_of_iff _ fromOuterSelect?_eq_none_iff

/-- The search stops behind the first closing parenthesis that leads to SELECT. -/
theorem fromOuterSelect?_eq_some_iff {t rest : Text} : fromOuterSelect? t = some rest ↔
    ∃ body v : Text, t = body ++ ')' :: v ∧ IsCteBody body ∧ LeadsToSelect v ∧
      v.trimStart = rest := by
  constructor
  · intro h
    induction t with
    | nil => cases h
    | cons c t ih =>
      rw [fromOuterSelect?_cons] at h
      split at h
      · next hselect =>
        obtain ⟨rfl, hleads⟩ := hselect
        exact ⟨[], t, rfl, isCteBody_nil, hleads, Option.some.inj h⟩
      · next hselect =>
        obtain ⟨body, v, rfl, hbody, hleads, hrest⟩ := ih h
        -- A parenthesis of the body that leads to SELECT would do so in the whole text.
        rw [leadsToSelect_append] at hselect
        exact ⟨c :: body, v, rfl, isCteBody_cons.2 ⟨hselect, hbody⟩, hleads, hrest⟩
  · rintro ⟨body, v, rfl, hbody, hleads, rfl⟩
    induction body with
    | nil => rw [List.nil_append, fromOuterSelect?_cons, if_pos ⟨rfl, hleads⟩]
    | cons c body ih =>
      obtain ⟨hhead, hbody⟩ := isCteBody_cons.1 hbody
      rw [← leadsToSelect_append body v] at hhead
      rw [List.cons_append, fromOuterSelect?_cons, if_neg hhead, ih hbody]

/-- What leads to SELECT goes on, blanks apart, with the letter `s` in some case. -/
theorem LeadsToSelect.head? {t : Text} (h : LeadsToSelect t) :
    ∀ c ∈ t.trimStart.head?, foldCase c = 's' := by
  obtain ⟨r, hr⟩ := Option.isSome_iff_exists.1 h
  obtain ⟨m, hm, hword⟩ := exists_of_afterFolded? (Option.filter_eq_some_iff.1 hr).1
  rw [hm]
  cases m with
  | nil => cases hword
  | cons d m =>
    intro c hc
    obtain rfl : d = c := by simpa using hc
    exact (List.cons.inj hword).1

/-- The word SELECT with a blank in front of it, in front of anything that does not go on with the
word. -/
theorem leadsToSelect_select {rest : Text} (hrest : endsTextWord rest = true) :
    LeadsToSelect (" SELECT".toList ++ rest) := by
  have hword : afterFolded? "select".toList ("SELECT".toList ++ rest) = some rest :=
    afterFolded?_map_append "SELECT".toList rest
  have hstart : Text.trimStart (" SELECT".toList ++ rest) = "SELECT".toList ++ rest := rfl
  rw [LeadsToSelect, hstart, afterFoldedWord?, hword, Option.filter_some, if_pos hrest]
  rfl

/-! ## The head of a prologue -/

/-- What follows a prologue is the word SELECT. -/
theorem exists_leadsToSelect_of_afterCtePrologue? {t rest : Text}
    (h : afterCtePrologue? t = some rest) : ∃ v : Text, LeadsToSelect v ∧ v.trimStart = rest := by
  obtain ⟨r, -, hselect⟩ := exists_body_of_afterCtePrologue? h
  obtain ⟨-, v, -, -, hleads, hrest⟩ := fromOuterSelect?_eq_some_iff.1 hselect
  exact ⟨v, hleads, hrest⟩

theorem head?_of_afterCtePrologue? {t rest : Text} (h : afterCtePrologue? t = some rest) :
    ∀ c ∈ rest.head?, foldCase c = 's' := by
  obtain ⟨v, hleads, rfl⟩ := exists_leadsToSelect_of_afterCtePrologue? h
  exact hleads.head?

/-- A text that starts with the letter `s` has no prologue. -/
theorem afterCtePrologue?_eq_none {t : Text} (h : ∀ c ∈ t.head?, foldCase c = 's') :
    afterCtePrologue? t = none := by
  cases t with
  | nil => rfl
  | cons c t =>
    have hc : foldCase c = 's' := h c rfl
    have hmark : c ≠ ';' := by
      rintro rfl
      exact absurd hc (by decide)
    have hblank : isBlank c = false := isBlank_of_isAlpha_foldCase (by rw [hc]; decide)
    -- WITH starts with a w, and what folds to an s is neither that nor a semicolon.
    have hwith : afterFolded? "with".toList (c :: t) = none := by
      rw [show "with".toList = 'w' :: "ith".toList from rfl, afterFolded?, if_neg]
      rw [hc]
      decide
    rw [afterCtePrologue?]
    simp only [afterOptionalMark, afterMark?, if_neg hmark, Option.getD_none, Text.trimStart,
      List.dropWhile_cons, hblank, Bool.false_eq_true, if_false, hwith]
    rfl

theorem isBareChar_of_isAlpha {c : Char} (hc : c.isAlpha) : isBareChar c = true := by
  simp [isBareChar, isTextWordChar_of_isAlpha hc]

/-- Behind WITH and a name of letters the body of the expression is searched for its end. -/
theorem afterCtePrologue?_with {name : Text} (hne : name ≠ [])
    (halpha : ∀ c ∈ name, c.isAlpha = true) (t : Text) :
    afterCtePrologue? ("WITH ".toList ++ (name ++ (" AS (".toList ++ t))) =
      fromOuterSelect? t := by
  obtain ⟨c, u, rfl⟩ := List.exists_cons_of_ne_nil hne
  have hc : c.isAlpha = true := halpha c List.mem_cons_self
  have hu : ∀ d ∈ u, isBareChar d = true := fun d hd =>
    isBareChar_of_isAlpha (halpha d (List.mem_cons_of_mem c hd))
  have hblanks : Text.afterBlanks? (' ' :: (c :: u ++ (" AS (".toList ++ t))) =
      some (c :: u ++ (" AS (".toList ++ t)) := by
    have hsolid : Text.trimStart (c :: u ++ (" AS (".toList ++ t)) =
        c :: u ++ (" AS (".toList ++ t) :=
      Text.trimStart_eq_self_iff.2 (by simpa using isBlank_of_isAlpha hc)
    exact congrArg some hsolid
  have hname : afterCteName? (c :: u ++ (" AS (".toList ++ t)) = some (" AS (".toList ++ t) := by
    -- A letter opens no quoted name, and the run of letters ends at the blank.
    have hquote : c ≠ '[' ∧ c ≠ '"' := by
      constructor <;> rintro rfl <;> exact absurd hc (by decide)
    have hrun : afterRun? isBareChar (c :: (u ++ (" AS (".toList ++ t))) =
        some (" AS (".toList ++ t) := by
      rw [afterRun?, if_pos (isBareChar_of_isAlpha hc), (Text.span_append hu ?_).2]
      rintro d ⟨⟩
      rfl
    rw [List.cons_append, afterCteName?]
    · exact hrun
    · rintro r ⟨⟩
      exact hquote.1 rfl
    · rintro r ⟨⟩
      exact hquote.2 rfl
  have hcolumns : afterCteColumns? (" AS (".toList ++ t) = none := rfl
  have hopen : (Text.afterBlanks? (" AS (".toList ++ t)).bind (fun rest =>
      (afterFolded? "as".toList rest).bind fun rest =>
        (afterMark? '(' rest.trimStart).bind fromOuterSelect?) = fromOuterSelect? t := rfl
  calc afterCtePrologue? ("WITH ".toList ++ (c :: u ++ (" AS (".toList ++ t)))
      = (Text.afterBlanks? (' ' :: (c :: u ++ (" AS (".toList ++ t)))).bind fun rest =>
          (afterCteName? rest).bind fun rest =>
            (Text.afterBlanks? ((afterCteColumns? rest).getD rest)).bind fun rest =>
              (afterFolded? "as".toList rest).bind fun rest =>
                (afterMark? '(' rest.trimStart).bind fromOuterSelect? := rfl
    _ = fromOuterSelect? t := by
      rw [hblanks, Option.bind_some, hname, Option.bind_some, hcolumns, Option.getD_none, hopen]

/-- One prefix is taken off a text, up to its outer SELECT, and nothing the second time. Behind WITH
and a name the outer SELECT is the one behind the first closing parenthesis that leads to such a
word, so the body may hold parentheses and further expressions. -/
theorem stripCtePrologue_outer :
    (∀ t : Text, stripCtePrologue t <:+ t ∧
      (stripCtePrologue t = t ∨
        (afterFoldedWord? "select".toList (stripCtePrologue t)).isSome = true) ∧
      stripCtePrologue (stripCtePrologue t) = stripCtePrologue t) ∧
    ∀ name body rest : Text, name ≠ [] → (∀ c ∈ name, c.isAlpha = true) → IsCteBody body →
      endsTextWord rest = true →
      stripCtePrologue ("WITH ".toList ++ name ++ " AS (".toList ++ body ++ ") SELECT".toList
        ++ rest) = "SELECT".toList ++ rest := by
  constructor
  · intro t
    cases h : afterCtePrologue? t with
    | none =>
      have hkept : stripCtePrologue t = t := by rw [stripCtePrologue, h, Option.getD_none]
      rw [hkept]
      exact ⟨List.suffix_rfl, .inl rfl, hkept⟩
    | some rest =>
      have hcut : stripCtePrologue t = rest := by rw [stripCtePrologue, h, Option.getD_some]
      -- The rest starts with the letter `s`, and no prologue does.
      have hnone : afterCtePrologue? rest = none :=
        afterCtePrologue?_eq_none (head?_of_afterCtePrologue? h)
      rw [hcut]
      refine ⟨afterCtePrologue?_suffix h, .inr ?_, by rw [stripCtePrologue, hnone]; rfl⟩
      obtain ⟨v, hleads, rfl⟩ := exists_leadsToSelect_of_afterCtePrologue? h
      exact hleads
  · intro name body rest hne halpha hbody hrest
    have hend : fromOuterSelect? (body ++ ')' :: (" SELECT".toList ++ rest)) =
        some ("SELECT".toList ++ rest) :=
      fromOuterSelect?_eq_some_iff.2 ⟨body, _, rfl, hbody, leadsToSelect_select hrest, rfl⟩
    have htext : "WITH ".toList ++ name ++ " AS (".toList ++ body ++ ") SELECT".toList ++ rest =
        "WITH ".toList ++ (name ++ (" AS (".toList ++
          (body ++ ')' :: (" SELECT".toList ++ rest)))) := by
      simp only [List.append_assoc]
      rfl
    rw [htext, stripCtePrologue, afterCtePrologue?_with hne halpha, hend, Option.getD_some]

/-- A body with parentheses inside parentheses, a second expression behind it, and a SELECT that
goes on as another word. -/
theorem stripCtePrologue_outer_nested :
    let body := "SELECT 1 AS x), b AS (SELECT (x) selected FROM a".toList
    IsCteBody body ∧ endsTextWord " x FROM b".toList = true ∧
      stripCtePrologue ("WITH ".toList ++ ['a'] ++ " AS (".toList ++ body ++ ") SELECT".toList
        ++ " x FROM b".toList) = "SELECT".toList ++ " x FROM b".toList := by
  have hbody : IsCteBody "SELECT 1 AS x), b AS (SELECT (x) selected FROM a".toList := by decide
  exact ⟨hbody, by decide,
    stripCtePrologue_outer.2 ['a'] _ _ (by decide) (by decide) hbody (by decide)⟩

end LooseSql
