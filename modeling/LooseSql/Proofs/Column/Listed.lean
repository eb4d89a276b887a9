import LooseSql.Analysis
import LooseSql.Proofs.Keyword.Stands
import LooseSql.Proofs.Selection.Parts
import LooseSql.Proofs.Split.Quoted

/-!
# Columns of a list that is put together of items

A SELECT list is put together of items with a comma and a space between each two of them. An item
may hold calls, subqueries and quotes, as long as the commas, semicolons and FROMs in it stand
inside of these (`Text.IsItem`). Then the list goes up to the FROM behind it, it has these items,
and the columns of the statement are those that the items stand for, in their order:
`columnDetails_listed`.

Two items with a comma between them make up a list that can be put behind SELECT
(`IsListPiece.append`), so a list of any length does (`isListPiece_joinWith`).
-/

namespace LooseSql

/-- A text is an item of a SELECT list: it is trimmed and not empty, a scan of it comes back to the
top level, and no comma, no semicolon and no word FROM stands at the top level in it. -/
structure Text.IsItem (t : Text) : Prop where
  /-- The item is not empty. -/
  ne_nil : t ≠ []
  /-- There are no blanks around it. -/
  trim_eq : t.trim = t
  /-- A scan comes back to the top level. -/
  closed : t.IsClosed
  /-- No comma and no semicolon stands at the top level. -/
  no_mark : ∀ p ∈ topLevel t, p.char ≠ ',' ∧ p.char ≠ ';'
  /-- The word FROM does not stand at the top level. -/
  no_source : ∀ i, ¬ Keyword.source.StandsAt t i

/-- A list of items, or a part of it: a piece of a statement without the word FROM. -/
structure IsListPiece (y : Text) : Prop extends IsPiece y where
  /-- The word FROM does not stand in the list. -/
  source_eq : keywordSpans [.source] .top 0 none y = []

theorem semicolonFrom?_eq_none_iff {t : Text} :
    semicolonFrom? .top 0 t = none ↔ ∀ p ∈ topLevel t, p.char ≠ ';' := by
  rw [← find?_semicolon_topLevelFrom .top 0 none t, Option.map_eq_none_iff, List.find?_eq_none]
  simp [topLevel]

theorem keywordSpans_source_eq_nil_iff {t : Text} :
    keywordSpans [.source] .top 0 none t = [] ↔ ∀ i, ¬ Keyword.source.StandsAt t i := by
  have hstands (i : Nat) : (∃ k ∈ [Keyword.source], k.StandsAt t i) ↔
      ∃ r ∈ keywordSpans [.source] .top 0 none t, r.start = i :=
    exists_standsAt_iff (by decide)
  simp only [List.mem_singleton, exists_eq_left] at hstands
  simp only [hstands, List.eq_nil_iff_forall_not_mem]
  exact ⟨fun h i ⟨r, hr, _⟩ => h r hr, fun h r hr => h r.start ⟨r, hr, rfl⟩⟩

/-- An item is a part of a list without a comma. -/
theorem Text.isItem_iff {t : Text} : t.IsItem ↔ IsListPiece t ∧ commas t = [] := by
  constructor
  · intro h
    exact ⟨⟨⟨h.ne_nil, h.trim_eq, h.closed,
      semicolonFrom?_eq_none_iff.2 fun p hp => (h.no_mark p hp).2⟩,
      keywordSpans_source_eq_nil_iff.2 h.no_source⟩,
      commas_eq_nil_iff.2 fun p hp => (h.no_mark p hp).1⟩
  · rintro ⟨h, hcommas⟩
    exact ⟨h.ne_nil, h.trim_eq, h.closed, fun p hp => ⟨commas_eq_nil_iff.1 hcommas p hp,
      semicolonFrom?_eq_none_iff.1 h.semicolon_eq p hp⟩,
      keywordSpans_source_eq_nil_iff.1 h.source_eq⟩

/-- An item is the only item of the list that it makes up. -/
theorem Text.IsItem.items_eq {t : Text} (h : t.IsItem) : items t = [t] := by
  rw [items, rawItems_eq]
  exact (fragments_eq_singleton_iff (isCutting_commas t) h.trim_eq h.ne_nil).2
    (Text.isItem_iff.1 h).2

namespace IsListPiece

variable {x y : Text}

/-- Two parts of a list with a comma between them are a part of a list. -/
theorem append (hx : IsListPiece x) (hy : IsListPiece y) :
    IsListPiece (x ++ (", ".toList ++ y)) where
  ne_nil := by simp [hx.ne_nil]
  trim_eq := by
    have hstart : Text.trimStart x ≠ [] := by
      rw [hx.trimStart_eq]
      exact hx.ne_nil
    have hend : Text.trimEnd y ≠ [] := by
      rw [hy.trimEnd_eq]
      exact hy.ne_nil
    refine Text.trim_eq_self_iff.2 ⟨?_, ?_⟩
    · rw [Text.trimStart_append hstart, hx.trimStart_eq]
    · rw [← List.append_assoc, Text.trimEnd_append _ hend, hy.trimEnd_eq]
  closed := by
    rw [Text.IsClosed, scan_append, hx.closed.scan_eq]
    exact hy.closed
  semicolon_eq := by
    have hnone : semicolonFrom? .top (0 + x.length) (", ".toList ++ y) = none :=
      semicolonFrom?_eq_none_of_zero hy.semicolon_eq _
    rw [semicolonFrom?_append, hx.semicolon_eq, hx.closed.scan_eq, hnone]
    rfl
  source_eq := by
    have hseam : Seam x (", ".toList ++ y) := by
      refine ⟨fun c _ d hd _ => ?_, .inl rfl⟩
      obtain rfl : ',' = d := Option.some.inj hd
      decide
    -- Neither the comma nor the space is the start of a FROM.
    have hcomma (i : Nat) (before : Option Char) :
        keywordSpans [.source] .top i before (", ".toList ++ y) = [] := by
      have hspace := keywordSpans_space_cons [.source] (i + 1) (some ',') y
      rw [hy.source_eq] at hspace
      exact (keywordSpans_cons ..).trans hspace
    rw [keywordSpans_append (by decide) hseam, hx.source_eq, hx.closed.scan_eq, hcomma]
    rfl

/-- A part of a list that does not start with a modifier is a list in front of FROM. -/
theorem isList (h : IsListPiece y) (hread : Modifier.read? y = none) : IsList y where
  toIsPiece := h.toIsPiece
  source_eq := h.source_eq
  read_eq r hr := by
    obtain ⟨rest, hrest⟩ := Option.isSome_iff_exists.1 hr
    -- No modifier goes on from the list into the word FROM.
    obtain ⟨hseam, hopen⟩ :=
      Head.modifiersSeam_of_source (x := y) [' '] (by decide) (by simpa using hrest)
    have hend : Modifiers.Seam y [] := ⟨by simp [Text.trimStart], fun _ _ _ => rfl⟩
    refine Modifier.read?_eq_none_of_seam h.closed hend hseam (by decide) hopen ?_
    rwa [List.append_nil]

end IsListPiece

/-- Items with commas between them are a part of a list, and the items of it. -/
theorem isListPiece_joinWith {fs : List Text} (hne : fs ≠ []) (hfs : ∀ f ∈ fs, f.IsItem) :
    IsListPiece (Text.joinWith ", ".toList fs) ∧ items (Text.joinWith ", ".toList fs) = fs := by
  constructor
  · induction fs with
    | nil => exact absurd rfl hne
    | cons f fs ih =>
      have hf := (Text.isItem_iff.1 (hfs f (by simp))).1
      cases fs with
      | nil => simpa [Text.joinWith] using hf
      | cons g fs =>
        have hrest := ih (by simp) fun f' hf' => hfs f' (by simp [hf'])
        rw [Text.joinWith_cons] at hrest ⊢
        rw [List.flatMap_cons, List.append_assoc]
        exact hf.append hrest
  · -- A comma with a space behind it separates, as long as nothing is open in front of it.
    refine split_joinWith rfl (fun u v hu => ?_) (fun f hf => (hfs f hf).items_eq) fun f hf => ?_
    · exact @items_append u hu [' '] (by decide) v
    · exact (hfs f ((List.dropLast_sublist fs).subset hf)).closed

/-- The columns of a list are those of its items. -/
theorem columnDetails_listed {fs : List Text} (hne : fs ≠ []) (hfs : ∀ f ∈ fs, f.IsItem)
    (rest : Text) :
    let list := Text.joinWith ", ".toList fs
    let sql := "SELECT ".toList ++ list ++ " FROM ".toList ++ rest
    normalize sql = sql → Modifier.read? list = none →
      ∃ layout, Layout.locate? sql = some layout ∧
        layout.source = some ("SELECT ".toList ++ list ++ [' ']).length ∧
        layout.list = ⟨"SELECT ".toList.length, ("SELECT ".toList ++ list).length⟩ ∧
        layout.list.slice sql = list ∧
        selectClause? sql = some list ∧
        columnDetails sql = fs.filterMap Column.resolve? := by
  intro list sql hnormal hread
  obtain ⟨hpiece, hitems⟩ := isListPiece_joinWith hne hfs
  have hlist : IsList list := hpiece.isList hread
  have hsql : sql = "SELECT".toList ++ ' ' :: (list ++ ' ' :: ("FROM ".toList ++ rest)) := by
    simp [sql]
  have hsource : (Keyword.after? .source (some ' ') ("FROM ".toList ++ rest)).isSome := rfl
  obtain ⟨layout, hlayout, hspan, hplace, -⟩ := (leads_select hlist).exists_layout hlist hsource
  rw [← hsql] at hlayout
  have hslice : layout.list.slice sql = list := by
    rw [hspan]
    exact Span.slice_of_eq_append (a := "SELECT ".toList) (m := list) hsql rfl rfl
  have hs := Statement.ofScript?_eq hnormal hlayout
  refine ⟨layout, hlayout, ?_, ?_, hslice, ?_, ?_⟩
  · rw [hplace, List.length_append, List.length_append]
    rfl
  · rw [hspan, List.length_append]
    rfl
  · rw [selectClause?, hs, Option.bind_some, Statement.clause?, Option.map_some, hslice]
    simp [Option.filter_some, hlist.ne_nil]
  · rw [columnDetails, hs, Option.elim_some, Statement.columns, Statement.list, hslice, hitems]

/-- A subquery with a list and a FROM of its own, a literal, which stands for no column, and marks
in brackets. -/
theorem columnDetails_listed_nested :
    let sql := "SELECT u.Id, (SELECT MAX(x), 1 FROM o) AS m, 1, [a, b].[FROM;] FROM u".toList
    selectClause? sql = some "u.Id, (SELECT MAX(x), 1 FROM o) AS m, 1, [a, b].[FROM;]".toList ∧
      columnDetails sql = [⟨none, some ['u'], "Id".toList, none⟩, .ofAlias ['m'],
        ⟨none, some "a, b".toList, "FROM;".toList, none⟩] := by
  have hitems : ∀ f ∈ ["u.Id".toList, "(SELECT MAX(x), 1 FROM o) AS m".toList, ['1'],
      "[a, b].[FROM;]".toList], Text.IsItem f := by
    intro f hf
    refine Text.isItem_iff.2 ⟨⟨⟨?_, ?_, ?_, ?_⟩, ?_⟩, ?_⟩
    all_goals
      revert f
      decide +kernel
  obtain ⟨-, -, -, -, -, hclause, hcolumns⟩ := columnDetails_listed (by simp) hitems ['u']
    (by decide +kernel) (by decide +kernel)
  exact ⟨hclause, hcolumns.trans (by decide +kernel)⟩

end LooseSql
