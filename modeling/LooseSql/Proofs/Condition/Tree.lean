import LooseSql.Condition.Collect
import LooseSql.Proofs.Clause.Enclosure
import LooseSql.Proofs.Split.Connectives

/-!
# Conditions as trees

A WHERE clause is a tree: predicates that AND and OR join, and groups of them in parentheses, at any
depth (`ConditionTree`). For predicates that are written properly (`Text.IsPredicate`), the simple
conditions of the clause are those of its predicates from left to right, whatever the groups are
(`Condition.collect_text`).

* `Text.IsBalanced.append`, `Text.IsBalanced.wrap`: the text of a tree is balanced, because its
  parts are;
* `ConditionTree.predicates_text`: the first cutting finds the parts of the tree that no parentheses
  enclose;
* `Condition.collectOpened`: what becomes of a part whose parentheses are off.
-/

namespace LooseSql

/-! ## Balanced texts -/

namespace Text

/-- A text is balanced if a scan comes back to the top level and finds a parenthesis to close at
each closing one. -/
theorem isBalanced_iff {x : Text} : x.IsBalanced ↔ x.IsClosed ∧
    ∀ u v, x = u ++ ')' :: v → (scan .top u).quote = none → 0 < (scan .top u).depth := by
  refine ⟨fun hx => ⟨hx.1, fun u v huv => hx.depth_pos huv⟩, fun ⟨hclosed, hx⟩ => ⟨hclosed, ?_⟩⟩
  intro i hi hchar
  have hget : x[i] = ')' := by simpa [List.getElem?_eq_getElem hi] using hchar
  refine hx (x.take i) (x.drop (i + 1)) ?_
  rw [← hget, List.getElem_cons_drop, List.take_append_drop]

theorem IsBalanced.isClosed {x : Text} (hx : x.IsBalanced) : x.IsClosed := hx.1

/-- Two balanced texts are balanced one after the other. -/
theorem IsBalanced.append {x y : Text} (hx : x.IsBalanced) (hy : y.IsBalanced) :
    IsBalanced (x ++ y) := by
  refine isBalanced_iff.2 ⟨?_, fun u v huv => ?_⟩
  · rw [IsClosed, scan_append, hx.isClosed.scan_eq, hy.isClosed.scan_eq]
  · rcases List.append_eq_append_iff.1 huv with ⟨w, rfl, hw⟩ | ⟨w, hw, hv⟩
    · rw [scan_append, hx.isClosed.scan_eq]
      exact hy.depth_pos hw
    · cases w with
      | nil =>
        -- The parenthesis is the first character of the second text.
        rw [List.append_nil] at hw
        rw [← hw, hx.isClosed.scan_eq]
        exact hy.depth_pos (u := []) hv.symm
      | cons c w =>
        obtain ⟨rfl, -⟩ := List.cons.inj hv
        exact hx.depth_pos hw

/-- A text without marks is balanced. -/
theorem isBalanced_of_not_mark {x : Text} (hx : ∀ c ∈ x, isScanMark c = false) : x.IsBalanced := by
  refine isBalanced_iff.2 ⟨scan_of_not_mark hx _, fun u v huv => ?_⟩
  exact absurd (hx ')' (by simp [huv])) (by decide)

/-- A balanced text in parentheses is balanced. -/
theorem IsBalanced.wrap {x : Text} (hx : x.IsBalanced) :
    IsBalanced (Enclosure.parentheses.wrap x) := by
  refine isBalanced_iff.2 ⟨Enclosure.scan_wrap (e := .parentheses) hx, fun u v huv _ => ?_⟩
  cases u with
  | nil => exact absurd (List.cons.inj huv).1 (by decide)
  | cons c u =>
    obtain ⟨rfl, hu⟩ := List.cons.inj huv
    -- In front of the parenthesis the scan is one level deeper than it is in the text alone.
    obtain ⟨w, hw⟩ : ∃ w, x = u ++ w := by
      rcases List.append_eq_append_iff.1 hu with ⟨w, hw, hclose⟩ | ⟨w, hw, -⟩
      · cases w with
        | nil => exact ⟨[], by rw [hw, List.append_nil, List.append_nil]⟩
        | cons c w => simp at hclose
      · exact ⟨w, hw⟩
    have hdeeper := (Enclosure.scan_deeper (x := u) (s := .top) fun u' v' huv' =>
      hx.depth_pos (v := v' ++ w) (by rw [hw, huv', List.append_assoc, List.cons_append])).1
    change 0 < (scan (Enclosure.deeper .top) u).depth
    rw [hdeeper]
    exact Nat.succ_pos _

end Text

/-! ## Trees -/

/-- A condition, as the predicates, connectives and parentheses that it is made of. -/
inductive ConditionTree where
  /-- A predicate. -/
  | leaf (predicate : Text)
  /-- Two conditions with AND or OR between them. -/
  | join (left : ConditionTree) (connective : Connective) (right : ConditionTree)
  /-- A condition in parentheses. -/
  | group (inner : ConditionTree)

namespace ConditionTree

/-- The condition as it is written. -/
def text : ConditionTree → Text
  | leaf predicate => predicate
  | join left connective right => left.text ++ (connective.text ++ right.text)
  | group inner => Enclosure.parentheses.wrap inner.text

/-- The predicates of the condition, from left to right. -/
def leaves : ConditionTree → List Text
  | leaf predicate => [predicate]
  | join left _ right => left.leaves ++ right.leaves
  | group inner => inner.leaves

/-- The parts of the condition that AND and OR join outside all parentheses. -/
def parts : ConditionTree → List Text
  | leaf predicate => [predicate]
  | join left _ right => left.parts ++ right.parts
  | group inner => [Enclosure.parentheses.wrap inner.text]

/-- The second tree is the first one with one more pair of parentheses somewhere. -/
inductive Regrouped : ConditionTree → ConditionTree → Prop where
  /-- The whole condition is put in parentheses. -/
  | here (tree : ConditionTree) : Regrouped tree (group tree)
  /-- The parentheses are put in the condition on the left. -/
  | left {left left' : ConditionTree} (connective : Connective) (right : ConditionTree) :
      Regrouped left left' → Regrouped (join left connective right) (join left' connective right)
  /-- The parentheses are put in the condition on the right. -/
  | right (left : ConditionTree) (connective : Connective) {right right' : ConditionTree} :
      Regrouped right right' → Regrouped (join left connective right) (join left connective right')
  /-- The parentheses are put in a group. -/
  | inner {inner inner' : ConditionTree} : Regrouped inner inner' →
      Regrouped (group inner) (group inner')

/-- More parentheses leave the predicates as they are. -/
theorem Regrouped.leaves_eq {tree tree' : ConditionTree} (h : Regrouped tree tree') :
    tree'.leaves = tree.leaves := by
  induction h with
  | here tree => rfl
  | left connective right _ ih => rw [leaves, leaves, ih]
  | right left connective _ ih => rw [leaves, leaves, ih]
  | inner _ ih => exact ih

end ConditionTree

/-- The text is one predicate, without blanks around it and with no parentheses to take off. It ends
where it starts, outside parentheses and quotes, and leaves no BETWEEN without its AND. -/
structure Text.IsPredicate (t : Text) : Prop where
  /-- No blank stands at either end. -/
  trim_eq : t.trim = t
  /-- Parentheses and quotes close one another. -/
  isBalanced : t.IsBalanced
  /-- No connective cuts the text. -/
  predicates_eq : predicates t = [t]
  /-- No BETWEEN is pending at the end. -/
  leavesBetween_eq : leavesBetween t = false
  /-- No parentheses wrap the text as a whole. -/
  stripParentheses_eq : stripParentheses t = t

theorem Text.IsPredicate.ne_nil {t : Text} (h : t.IsPredicate) : t ≠ [] := by
  rintro rfl
  exact absurd h.predicates_eq (by decide)

/-- A text stays as it is exactly if no parentheses wrap it as a whole. -/
theorem stripParentheses_eq_self_iff {t : Text} : stripParentheses t = t ↔ isWrapped t = false := by
  by_cases h : isWrapped t
  · have hne : t ≠ [] := by
      rintro rfl
      exact absurd h (by decide)
    refine iff_of_false (fun heq => ?_) (by simp [h])
    -- The parentheses that come off make the text shorter.
    rw [stripParentheses, dif_pos h] at heq
    have hlen := congrArg List.length heq
    have hstrip := length_stripParentheses_le (Text.trim t.tail.dropLast)
    have htrim := Text.length_trim_le t.tail.dropLast
    have hpos := List.length_pos_iff.2 hne
    rw [List.length_dropLast, List.length_tail] at htrim
    omega
  · rw [stripParentheses, dif_neg h]
    exact iff_of_true rfl (by simpa using h)

theorem Text.isPredicate_iff {t : Text} : t.IsPredicate ↔ t.trim = t ∧ t.IsBalanced ∧
    predicates t = [t] ∧ leavesBetween t = false ∧ isWrapped t = false := by
  rw [← stripParentheses_eq_self_iff]
  exact ⟨fun ⟨h₁, h₂, h₃, h₄, h₅⟩ => ⟨h₁, h₂, h₃, h₄, h₅⟩,
    fun ⟨h₁, h₂, h₃, h₄, h₅⟩ => ⟨h₁, h₂, h₃, h₄, h₅⟩⟩

instance (t : Text) : Decidable t.IsPredicate := decidable_of_iff _ Text.isPredicate_iff.symm

/-! ## Texts in parentheses -/

section Wrapped

variable {x : Text} (hx : x.IsBalanced)

include hx

/-- Parentheses around a text come off with the blanks inside them. -/
theorem stripParentheses_wrap :
    stripParentheses (Enclosure.parentheses.wrap x) = stripParentheses x.trim := by
  have hplaces : topLevel (Enclosure.parentheses.wrap x) = [⟨0, none, '(', x ++ [')']⟩] :=
    Enclosure.topLevelFrom_wrap (e := .parentheses) hx 0 none
  have hlast : (Enclosure.parentheses.wrap x).getLast? = some ')' :=
    List.getLast?_concat (l := '(' :: x)
  have hwrapped : isWrapped (Enclosure.parentheses.wrap x) = true := by
    rw [isWrapped, hplaces, hlast]
    rfl
  have hinner : (Enclosure.parentheses.wrap x).tail.dropLast = x := List.dropLast_concat
  rw [stripParentheses, dif_pos hwrapped, hinner]

/-- A text in parentheses is one predicate, and it leaves no BETWEEN pending. -/
theorem predicates_wrap :
    predicates (Enclosure.parentheses.wrap x) = [Enclosure.parentheses.wrap x] ∧
      leavesBetween (Enclosure.parentheses.wrap x) = false := by
  have hplaces : topLevel (Enclosure.parentheses.wrap x) = [⟨0, none, '(', x ++ [')']⟩] :=
    Enclosure.topLevelFrom_wrap (e := .parentheses) hx 0 none
  -- The only place at the top level is the opening parenthesis, and no word starts there.
  have hidle : Splitter.start.cuts (topLevel (Enclosure.parentheses.wrap x)) = [] ∧
      Splitter.start.run (topLevel (Enclosure.parentheses.wrap x)) = .start := by
    refine Splitter.cuts_of_idle fun p hp => ?_
    rw [hplaces, List.mem_singleton] at hp
    rw [hp]
    rfl
  have htrim : Text.trim (Enclosure.parentheses.wrap x) = Enclosure.parentheses.wrap x :=
    Text.trim_eq_self_iff.2 ⟨Enclosure.trimStart_wrap _ x, Enclosure.trimEnd_wrap _ x⟩
  constructor
  · have hcuts : connectives (Enclosure.parentheses.wrap x) = [] := hidle.1
    rw [predicates, rawPredicates, hcuts, piecesBetween, List.drop_zero, fragments, List.map_cons,
      htrim]
    rfl
  · rw [leavesBetween, hidle.2]
    rfl

end Wrapped

/-- A condition of two parts is not in parentheses as a whole: the connective stands outside. -/
theorem stripParentheses_append_connective {u : Text} (hu : u.IsClosed) (hne : u ≠ [])
    (c : Connective) (v : Text) :
    stripParentheses (u ++ (c.text ++ v)) = u ++ (c.text ++ v) := by
  obtain ⟨d, before, hbefore⟩ := List.exists_cons_of_ne_nil c.before_ne
  have hd : isBlank d = true := c.isBlank_before d (by simp [hbefore])
  have hshows : ScanState.top.shows d = true := ScanState.top_shows (isScanMark_of_isBlank hd)
  have hwrapped : isWrapped (u ++ (c.text ++ v)) = false := by
    have hmem : ∃ p ∈ topLevel (u ++ (c.text ++ v)), p.index = u.length := by
      rw [topLevel, topLevelFrom_append, hu.scan_eq, Connective.text, hbefore, List.cons_append,
        List.cons_append, topLevelFrom, if_pos hshows]
      exact ⟨_, List.mem_append_right _ List.mem_cons_self, Nat.zero_add _⟩
    obtain ⟨p, hp, hindex⟩ := hmem
    have hpos : (p.index == 0) = false := by simp [hindex, hne]
    rw [isWrapped, Bool.and_eq_false_iff]
    exact .inr (List.all_eq_false.2 ⟨p, hp, by simp [hpos]⟩)
  exact stripParentheses_eq_self_iff.2 hwrapped

/-! ## The text of a tree -/

namespace ConditionTree

variable {tree : ConditionTree}

/-- The text of a tree of predicates has no blank at its ends, is balanced, and leaves no BETWEEN
pending. -/
theorem text_spec (h : ∀ t ∈ tree.leaves, t.IsPredicate) :
    tree.text ≠ [] ∧ tree.text.trim = tree.text ∧ tree.text.IsBalanced ∧
      leavesBetween tree.text = false := by
  induction tree with
  | leaf predicate =>
    have hp := h predicate (by simp [leaves])
    exact ⟨hp.ne_nil, hp.trim_eq, hp.isBalanced, hp.leavesBetween_eq⟩
  | join left c right ihleft ihright =>
    obtain ⟨hne, htrim, hbalanced, hpending⟩ := ihleft fun t ht => h t (by simp [leaves, ht])
    obtain ⟨hne', htrim', hbalanced', hpending'⟩ := ihright fun t ht => h t (by simp [leaves, ht])
    have hstart := (Text.trim_eq_self_iff.1 htrim).1
    have hend := (Text.trim_eq_self_iff.1 htrim').2
    refine ⟨by simp [text, hne], Text.trim_eq_self_iff.2 ⟨?_, ?_⟩,
      hbalanced.append ((Text.isBalanced_of_not_mark c.isScanMark_text).append hbalanced'), ?_⟩
    · rw [text, Text.trimStart_append (by rwa [hstart]), hstart]
    · rw [text, ← List.append_assoc, Text.trimEnd_append _ (by rwa [hend]), hend]
    · -- No BETWEEN waits for its AND on either side, so none does in the whole text.
      rw [text, (connectives_append hbalanced.isClosed (c.cutsBehind_of_eq_false hpending) _).2,
        hpending']
  | group inner ih =>
    obtain ⟨-, -, hbalanced, -⟩ := ih h
    exact ⟨Enclosure.wrap_ne_nil _ _,
      Text.trim_eq_self_iff.2 ⟨Enclosure.trimStart_wrap _ _, Enclosure.trimEnd_wrap _ _⟩,
      hbalanced.wrap, (predicates_wrap hbalanced).2⟩

/-- A condition is cut into its parts. -/
theorem predicates_text (h : ∀ t ∈ tree.leaves, t.IsPredicate) :
    predicates tree.text = tree.parts := by
  induction tree with
  | leaf predicate => exact (h predicate (by simp [leaves])).predicates_eq
  | join left c right ihleft ihright =>
    have hleft : ∀ t ∈ left.leaves, t.IsPredicate := fun t ht => h t (by simp [leaves, ht])
    obtain ⟨-, -, hbalanced, hpending⟩ := text_spec hleft
    rw [text, predicates_append_connective hbalanced.isClosed (c.cutsBehind_of_eq_false hpending),
      ihleft hleft, ihright fun t ht => h t (by simp [leaves, ht]), parts]
  | group inner ih =>
    have hinner : ∀ t ∈ inner.leaves, t.IsPredicate := h
    obtain ⟨-, -, hbalanced, -⟩ := text_spec hinner
    exact (predicates_wrap hbalanced).1

theorem parts_ne_nil (tree : ConditionTree) : tree.parts ≠ [] := by
  induction tree with
  | leaf predicate => simp [parts]
  | join left c right ih _ => simp [parts, ih]
  | group inner _ => simp [parts]

end ConditionTree

/-! ## Collecting -/

namespace Condition

/-- The simple conditions in a predicate whose parentheses are off: it is opened if it joins several
predicates, and read as it stands otherwise. -/
def collectOpened (t : Text) : List Condition :=
  if 1 < (predicates t).length then collect t else (parse? t).toList

/-- The simple conditions in one predicate of a condition. -/
def collectPredicate (predicate : Text) : List Condition :=
  if IsGroup predicate then collect (stripParentheses predicate)
  else (parse? (stripParentheses predicate)).toList

/-- The simple conditions of a text are those of its predicates, in order. -/
theorem collect_eq (t : Text) : collect t = (predicates t).flatMap collectPredicate := by
  conv_rhs => rw [← List.attach_map_subtype_val (predicates t), List.flatMap_map]
  rw [collect]
  exact List.flatMap_congr fun ⟨predicate, _⟩ _ => dite_eq_ite

/-- A predicate in parentheses is opened. -/
theorem collectPredicate_wrap {x : Text} (hx : x.IsBalanced) :
    collectPredicate (Enclosure.parentheses.wrap x) = collectOpened (stripParentheses x.trim) := by
  -- A group is opened only if its text gets shorter, as it does here.
  have hlen : (stripParentheses x.trim).length < (Enclosure.parentheses.wrap x).length := by
    have hstrip := length_stripParentheses_le x.trim
    have htrim := x.length_trim_le
    rw [Enclosure.length_wrap]
    omega
  rw [collectPredicate, stripParentheses_wrap hx, collectOpened]
  refine if_congr ?_ rfl rfl
  unfold IsGroup
  rw [stripParentheses_wrap hx]
  exact and_iff_right hlen

/-- The simple conditions of a tree are those of its leaves, both when its text is read as it stands
and when it has come out of parentheses. -/
theorem collect_and_collectOpened {tree : ConditionTree} (h : ∀ t ∈ tree.leaves, t.IsPredicate) :
    collect tree.text = tree.leaves.filterMap parse? ∧
      collectOpened (stripParentheses tree.text) = tree.leaves.filterMap parse? := by
  induction tree with
  | leaf predicate =>
    have hp := h predicate (by simp [ConditionTree.leaves])
    have hleaf : [predicate].filterMap parse? = (parse? predicate).toList := by
      cases hparse : parse? predicate <;> simp [hparse]
    -- A leaf is no group, since nothing comes off it.
    have hgroup : ¬ IsGroup predicate := fun hgroup =>
      absurd hgroup.1 (by simp [hp.stripParentheses_eq])
    rw [ConditionTree.text, ConditionTree.leaves, hp.stripParentheses_eq, hleaf, collect_eq,
      hp.predicates_eq, List.flatMap_singleton, collectPredicate, if_neg hgroup,
      hp.stripParentheses_eq, collectOpened, hp.predicates_eq]
    exact ⟨rfl, rfl⟩
  | join left c right ihleft ihright =>
    have hleft : ∀ t ∈ left.leaves, t.IsPredicate := fun t ht =>
      h t (by simp [ConditionTree.leaves, ht])
    have hright : ∀ t ∈ right.leaves, t.IsPredicate := fun t ht =>
      h t (by simp [ConditionTree.leaves, ht])
    obtain ⟨hne, -, hbalanced, hleaves⟩ := ConditionTree.text_spec hleft
    have hpending := c.cutsBehind_of_eq_false hleaves
    have hcollect : collect (left.text ++ (c.text ++ right.text)) =
        (left.leaves ++ right.leaves).filterMap parse? := by
      rw [List.filterMap_append, ← (ihleft hleft).1, ← (ihright hright).1, collect_eq,
        predicates_append_connective hbalanced.isClosed hpending, List.flatMap_append, ← collect_eq,
        ← collect_eq]
    -- Each side has a part, so the text is cut again when its parentheses are off.
    have htwo : 1 < (predicates (left.text ++ (c.text ++ right.text))).length := by
      have hl := List.length_pos_iff.2 left.parts_ne_nil
      have hr := List.length_pos_iff.2 right.parts_ne_nil
      rw [predicates_append_connective hbalanced.isClosed hpending, List.length_append,
        ConditionTree.predicates_text hleft, ConditionTree.predicates_text hright]
      omega
    rw [ConditionTree.text, ConditionTree.leaves,
      stripParentheses_append_connective hbalanced.isClosed hne, collectOpened, if_pos htwo]
    exact ⟨hcollect, hcollect⟩
  | group inner ih =>
    have hinner : ∀ t ∈ inner.leaves, t.IsPredicate := h
    obtain ⟨-, htrim, hbalanced, -⟩ := ConditionTree.text_spec hinner
    obtain ⟨-, hopened⟩ := ih hinner
    -- One pair of parentheses or several, what is inside comes out.
    rw [ConditionTree.text, ConditionTree.leaves, collect_eq, (predicates_wrap hbalanced).1,
      List.flatMap_singleton, collectPredicate_wrap hbalanced, stripParentheses_wrap hbalanced,
      htrim]
    exact ⟨hopened, hopened⟩

/-- The simple conditions of a tree are those of its predicates from left to right, and parentheses
around any part of it change nothing. -/
theorem collect_text (tree : ConditionTree) (h : ∀ t ∈ tree.leaves, t.IsPredicate) :
    collect tree.text = tree.leaves.filterMap parse? ∧
      ∀ tree', tree.Regrouped tree' → collect tree'.text = collect tree.text := by
  refine ⟨(collect_and_collectOpened h).1, fun tree' htree => ?_⟩
  rw [(collect_and_collectOpened h).1,
    (collect_and_collectOpened (by rwa [htree.leaves_eq])).1, htree.leaves_eq]

/-- A group in parentheses is opened, one that holds a single predicate too, and a BETWEEN is left
out. The literal keeps its AND, and a second pair of parentheses makes no difference. -/
theorem collect_text_nested :
    collect "(a = 1 AND b BETWEEN 2 AND 3) or ((c LIKE 'x and y'))".toList =
        [⟨"a".toList, .eq, "1".toList⟩, ⟨"c".toList, .like, "'x and y'".toList⟩] ∧
      collect "((a = 1 AND b BETWEEN 2 AND 3)) or ((c LIKE 'x and y'))".toList =
        [⟨"a".toList, .eq, "1".toList⟩, ⟨"c".toList, .like, "'x and y'".toList⟩] := by
  have h := collect_text
    (.join (.group (.join (.leaf "a = 1".toList) (.spaced "AND".toList (by decide))
        (.leaf "b BETWEEN 2 AND 3".toList))) (.spaced "or".toList (by decide))
      (.group (.group (.leaf "c LIKE 'x and y'".toList)))) (by decide +kernel)
  exact ⟨h.1.trans (by decide +kernel),
    (h.2 _ (.left _ _ (.here _))).trans (h.1.trans (by decide +kernel))⟩

end Condition

end LooseSql
