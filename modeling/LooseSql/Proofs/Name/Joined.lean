import LooseSql.Proofs.Clause.Enclosure
import LooseSql.Proofs.Name.Sources
import LooseSql.Proofs.Selection.Variants

/-!
# The names of joined tables

In `SELECT * FROM n₁ JOIN n₂ ..`, every name that is written in delimiters is found with all its
parts, in the order of the text. The first table is the last part of `n₁`, and the databases are
those of the names, each in its first spelling (`names_joined`).

The text is taken apart source by source: a source is set apart from those behind it, and no keyword
in it is the tail of a name in front (`nameSeam_sources`). It is in normal form, since a delimiter
is a quote to the scan for comments as well (`isSettled_sources`).
-/

namespace LooseSql

/-! ## Sources in a row -/

/-- Sources one after another. -/
def sourcesText (sources : List Source) : Text := sources.flatMap Source.text

theorem sourcesText_cons (s : Source) (sources : List Source) :
    sourcesText (s :: sources) = s.text ++ sourcesText sources := List.flatMap_cons

/-- Sources end the name in front of them, and they are not taken for its arguments. -/
theorem endsName_sources (sources : List Source) : EndsName (sourcesText sources) ∧
    (sourcesText sources).trimStart.head? ≠ some '(' := by
  cases sources with
  | nil => exact ⟨.nil, by decide⟩
  | cons s sources =>
    -- A further source starts with the F of FROM or the J of JOIN.
    have htrim : ∃ c t, Text.trimStart (sourcesText (s :: sources)) = c :: t ∧ c ∈ ['F', 'J'] := by
      rw [sourcesText_cons, Source.text]
      cases s.word
      · exact ⟨'F', _, rfl, by decide⟩
      · exact ⟨'J', _, rfl, by decide⟩
    obtain ⟨c, t, ht, hc⟩ := htrim
    have hne : ∀ d ∈ ['.', '('], (Text.trimStart (sourcesText (s :: sources))).head? ≠ some d := by
      intro d hd hhead
      rw [ht] at hhead
      obtain rfl := Option.some.inj hhead
      exact absurd hd ((by decide : ∀ c ∈ ['F', 'J'], c ∉ ['.', '(']) c hc)
    refine ⟨⟨fun d hd => ?_, hne '.' (by decide)⟩, hne '(' (by decide)⟩
    obtain rfl : ' ' = d := Option.some.inj hd
    decide

/-- A text of two parts ends in a character, blanks apart, only if one of the parts does. -/
theorem getLast?_trimEnd_append_ne {u x : Text} {c : Char} (hu : u.trimEnd.getLast? ≠ some c)
    (hx : x.trimEnd.getLast? ≠ some c) : (Text.trimEnd (u ++ x)).getLast? ≠ some c := by
  by_cases hblank : x.trimEnd = []
  · rwa [Text.trimEnd_append_of_blank _ (Text.trimEnd_eq_nil_iff.1 hblank)]
  · rwa [Text.trimEnd_append _ hblank, List.getLast?_append_of_ne_nil _ hblank]

theorem Source.getLast?_trimEnd (s : Source) : s.text.trimEnd.getLast? ≠ some '.' := by
  obtain ⟨d, hd⟩ := s.exists_getLast?
  rw [s.trimEnd_text, hd]
  cases d <;> decide

/-- No dot stands in front of a keyword that a template finds in sources. -/
theorem getLast?_trimEnd_take (template : Template) (sources : List Source) :
    ∀ c ∈ template.candidates (sourcesText sources),
      (Text.trimEnd ((sourcesText sources).take c.keyword)).getLast? ≠ some '.' := by
  induction sources with
  | nil => exact fun c hc => absurd hc List.not_mem_nil
  | cons s sources ih =>
    intro c hc
    rw [sourcesText_cons] at hc ⊢
    rw [Template.candidates_append (s.keepsApart template (endsName_sources sources).1)] at hc
    rcases List.mem_append.1 hc with hc | hc
    · -- The keyword is the word of the first source, with a space in front.
      rw [s.candidates_text, Option.mem_toList, Option.map_eq_some_iff] at hc
      obtain ⟨rest, -, rfl⟩ := hc
      change (Text.trimEnd [' ']).getLast? ≠ some '.'
      decide
    · obtain ⟨c', hc', rfl⟩ := List.mem_map.1 hc
      rw [Candidate.shift, List.take_length_add_append]
      exact getLast?_trimEnd_append_ne s.getLast?_trimEnd (ih c' hc')

/-- Text without a dot at its end is set apart from sources. -/
theorem nameSeam_sources {templates : List Template} {u : Text} {sources : List Source}
    (hkeeps : ∀ template ∈ templates, template.KeepsApart u (sourcesText sources))
    (hu : u.trimEnd.getLast? ≠ some '.') : NameSeam templates u (sourcesText sources) where
  keepsApart := hkeeps
  head _ _ _ := ⟨(endsName_sources sources).1.not_dot, (endsName_sources sources).2⟩
  tail template _ c hc := by
    have htake := getLast?_trimEnd_take template sources c hc
    rw [isChainTail_eq_false htake, isChainTail_eq_false]
    rw [List.take_length_add_append]
    exact getLast?_trimEnd_append_ne hu htake

/-- A source is set apart from those behind it. -/
theorem Source.nameSeam (s : Source) (templates : List Template) (sources : List Source) :
    NameSeam templates s.text (sourcesText sources) :=
  nameSeam_sources (fun template _ => s.keepsApart template (endsName_sources sources).1)
    s.getLast?_trimEnd

/-- Some template for tables counts the parts of a name. -/
theorem WrittenName.length_parts_mem (n : WrittenName) :
    n.parts.length ∈ Family.table.ranks := by
  have hlength := n.length_parts
  have hle := n.length_le
  simp only [Family.ranks, List.mem_cons, List.not_mem_nil, or_false]
  omega

section Names

variable {budget : Budget} (hbudget : budget.isSpent = false)

include hbudget

/-- The templates of a family find the names of the sources in order: those with as many parts as
some template of the family counts. -/
theorem matchNames_sources (family : Family) (sources : List Source) :
    (matchNames family.templates budget (sourcesText sources)).map
      (fun found => (found.name, found.template.rank)) =
        (sources.filter fun s => decide (s.name.parts.length ∈ family.ranks)).map
          fun s => (s.name.name, s.name.parts.length) := by
  induction sources with
  | nil =>
    rw [matchNames_eq_nil fun template _ => rfl]
    rfl
  | cons s sources ih =>
    rw [sourcesText_cons, (s.nameSeam family.templates sources).matchNames_append,
      List.map_append, List.map_map]
    refine (congrArg _ ih).trans ?_
    -- The name is found if a template of the family has as many parts as it.
    by_cases hrank : s.name.parts.length ∈ family.ranks
    · obtain ⟨template, htemplate, hmatch⟩ := s.exists_matchNames_eq family hbudget hrank
      rw [hmatch, List.filter_cons, if_pos (decide_eq_true hrank), List.map_cons, List.map_cons,
        List.map_nil, List.singleton_append, Source.found, htemplate]
    · rw [s.matchNames_eq_nil family budget hrank, List.filter_cons, if_neg (by simpa using hrank),
        List.map_nil, List.nil_append]

/-- The first table of sources is that of the first one. -/
theorem firstTableIn_sources (s : Source) (sources : List Source) :
    firstTableIn budget (sourcesText (s :: sources)) = s.name.parts.getLast? := by
  obtain ⟨template, htemplate, hmatch⟩ :=
    s.exists_matchNames_eq .table hbudget s.name.length_parts_mem
  -- Nothing stands behind the name in its own source, so it is no function call.
  have hcall : (s.found template).isCall s.text = false := by
    rw [NameMatch.isCall, Source.found, List.drop_length]
    rfl
  have hne : s.name.parts ≠ [] := List.cons_ne_nil _ _
  have htable : (s.found template).table = s.name.parts.getLast hne := by
    rw [NameMatch.table, Source.found, Template.tableIndex, htemplate]
    change s.name.parts[s.name.parts.length - 1]?.getD [] = _
    rw [← List.getLast?_eq_getElem?, List.getLast?_eq_some_getLast hne]
    rfl
  rw [sourcesText_cons, firstTableIn_append _ (s.nameSeam _ sources), firstTableIn, hmatch,
    List.find?_cons_of_pos (by rw [hcall]; rfl), Option.map_some, htable,
    List.getLast?_eq_some_getLast hne]
  rfl

end Names

/-! ## Databases -/

theorem Text.sameIgnoringCase_comm (a b : Text) : a.sameIgnoringCase b = b.sameIgnoringCase a := by
  rw [sameIgnoringCase, sameIgnoringCase, BEq.comm]

/-- Names are added in order, without those that are there already or come again. -/
theorem foldl_addNewName (known names : List Text) : names.foldl addNewName known =
    known ++ (names.filter fun name => !known.any (·.sameIgnoringCase name)).eraseDupsBy
      Text.sameIgnoringCase := by
  induction names generalizing known with
  | nil => simp [List.eraseDupsBy, List.eraseDupsBy.loop]
  | cons name names ih =>
    rw [List.foldl_cons, addNewName, List.filter_cons]
    -- A name that is known is left out; a new one is known from there on.
    by_cases hknown : known.any (·.sameIgnoringCase name) = true
    · rw [if_pos hknown, ih, hknown]
      rfl
    · rw [if_neg hknown, ih, if_pos (by simpa using hknown), List.eraseDupsBy_cons,
        List.filter_filter, List.append_assoc, List.singleton_append]
      refine congrArg (fun l => known ++ name :: List.eraseDupsBy _ l) (List.filter_congr ?_)
      intro other _
      rw [List.any_append, List.any_cons, List.any_nil, Bool.or_false, Bool.not_or,
        Text.sameIgnoringCase_comm name]
      simp [Bool.and_comm]

/-- The part of a name that is a database, if it counts as having `rank` parts. -/
def QualifiedName.databaseAt? (name : QualifiedName) (rank : Nat) : Option Text :=
  (⟨.database, rank, .mixed⟩ : Template).databaseIndex?.bind name.part?

/-- The database of a name is the one that a template for its parts tells. -/
theorem WrittenName.database?_eq (n : WrittenName) :
    n.database? = n.name.databaseAt? n.parts.length := by
  have hle := n.length_le
  have hpart : ∀ i part, n.parts[i]? = some part →
      n.name.part? i = if part = [] then none else some part := by
    intro i part h
    change n.parts[i]?.filter _ = _
    rw [h, Option.filter_some]
    cases part <;> rfl
  have hparts : n.parts = n.first.part :: n.others.map DelimitedPart.part := rfl
  rw [QualifiedName.databaseAt?]
  -- A name has one to four parts, and only with three or four does it have a database.
  rcases hothers : n.others with _ | ⟨a, _ | ⟨b, _ | ⟨c, _ | ⟨d, others⟩⟩⟩⟩ <;>
    rw [hothers] at hparts hle
  case cons.cons.cons.cons =>
    simp only [List.length_cons] at hle
    omega
  case cons.cons.cons.nil =>
    have h := hpart 1 a.part (by rw [hparts]; rfl)
    simp only [database?, Template.databaseIndex?, hparts]
    exact h.symm
  case cons.cons.nil =>
    have h := hpart 0 n.first.part (by rw [hparts]; rfl)
    rw [if_neg n.first_ne] at h
    simp only [database?, Template.databaseIndex?, hparts]
    exact h.symm
  all_goals simp [database?, Template.databaseIndex?, hparts]

/-- The databases of sources are those of their names, in order. -/
theorem filterMap_database?_sources {budget : Budget} (hbudget : budget.isSpent = false)
    (sources : List Source) :
    (matchNames Family.database.templates budget (sourcesText sources)).filterMap (·.database?) =
      sources.filterMap (·.name.database?) := by
  -- Of the template only the number of parts is used, and that is what is known of it.
  have hfound : (fun found : NameMatch => found.database?) =
      (fun x : QualifiedName × Nat => x.1.databaseAt? x.2) ∘
        fun found => (found.name, found.template.rank) := rfl
  rw [hfound, ← List.filterMap_map, matchNames_sources hbudget, List.filterMap_map,
    List.filterMap_filter]
  refine List.filterMap_congr fun s _ => ?_
  rw [s.name.database?_eq]
  by_cases hrank : s.name.parts.length ∈ Family.database.ranks
  · rw [if_pos (decide_eq_true hrank)]
    rfl
  · -- A name of another number of parts has no database.
    rw [if_neg (by simpa using hrank)]
    simp only [Family.ranks, List.mem_cons, List.not_mem_nil, or_false, not_or] at hrank
    rw [QualifiedName.databaseAt?, Template.databaseIndex?, if_neg hrank.1, if_neg hrank.2]
    rfl

/-! ## Normal form -/

/-- The text leaves no quote open, and it holds no comment. -/
structure IsSettled (t : Text) : Prop where
  /-- A scan comes back to the top level. -/
  closed : t.IsClosed
  /-- There is no comment. -/
  uncommented : IsUncommented t

namespace IsSettled

theorem append {u v : Text} (hu : IsSettled u) (hv : IsSettled v)
    (h : (∀ c ∈ u.getLast?, c ∉ pieceMarks) ∨ ∀ d ∈ v.head?, d ∉ pieceMarks) :
    IsSettled (u ++ v) where
  closed := by
    change scan .top (u ++ v) = .top
    rw [scan_append, hu.closed.scan_eq, hv.closed.scan_eq]
  uncommented := (isUncommented_append_iff rfl hu.closed.quote_eq fun c hc d hd =>
    not_joins_of_not_mem (h.imp (· c hc) (· d hd))).2 ⟨hu.uncommented, hv.uncommented⟩

theorem of_not_mark {t : Text} (hscan : ∀ c ∈ t, isScanMark c = false)
    (hpiece : ∀ c ∈ t, c ∉ pieceMarks) : IsSettled t :=
  ⟨scan_of_not_mark hscan .top, isUncommented_of_not_mem hpiece⟩

end IsSettled

/-- A delimiter is a quote to a scan. -/
def Delimiter.toQuote : Delimiter → Quote
  | bracket => .bracket
  | quote => .double

theorem DelimitedPart.isSettled_text (p : DelimitedPart) : IsSettled p.text := by
  by_cases hp : p.part = []
  · rw [text, if_pos hp]
    exact .of_not_mark (by simp) (by simp)
  · -- The part holds no closing mark, so its delimiters hold it as a whole.
    have hmem := p.closing_not_mem
    have hafter : p.delimiter.toQuote.after? (p.part ++ [p.delimiter.closing] ++ []) = some [] := by
      rw [List.append_assoc]
      cases hd : p.delimiter with
      | bracket =>
        rw [hd] at hmem
        exact afterNextMark?_eq_some_iff.2 ⟨p.part, hmem, rfl⟩
      | quote =>
        rw [hd] at hmem
        exact Doubled.after?_append_mark hmem (by simp)
    have hopener : p.delimiter.opening = p.delimiter.toQuote.opener := by
      cases p.delimiter <;> rfl
    have hcloser : p.delimiter.closing = p.delimiter.toQuote.closer := by
      cases p.delimiter <;> rfl
    have huncommented := (isUncommented_quote hafter).2 isUncommented_nil
    rw [List.append_nil] at huncommented
    rw [text_eq hp, hopener]
    refine ⟨?_, huncommented⟩
    rw [hcloser] at hmem ⊢
    exact Enclosure.scan_wrap (e := .quote p.delimiter.toQuote) hmem

theorem isSettled_furtherText (parts : List DelimitedPart) : IsSettled (furtherText parts) := by
  induction parts with
  | nil => exact .of_not_mark (by simp [furtherText]) (by simp [furtherText])
  | cons p parts ih =>
    have hhead : ∀ c ∈ (furtherText parts).head?, c ∉ pieceMarks := by
      intro c hc
      cases parts with
      | nil => cases hc
      | cons q parts =>
        obtain rfl : '.' = c := Option.some.inj hc
        decide
    rw [furtherText_cons, ← List.singleton_append]
    exact .append (.of_not_mark (by decide) (by decide))
      (p.isSettled_text.append ih (.inr hhead)) (.inl (by decide))

theorem WrittenName.isSettled_text (n : WrittenName) : IsSettled n.text := by
  rw [text_eq]
  refine n.first.isSettled_text.append (isSettled_furtherText n.others) (.inr fun c hc => ?_)
  cases hothers : n.others with
  | nil => rw [hothers] at hc; cases hc
  | cons q parts =>
    rw [hothers] at hc
    obtain rfl : '.' = c := Option.some.inj hc
    decide

theorem Source.isSettled_text (s : Source) : IsSettled s.text := by
  rw [text_eq, front]
  refine .append (.of_not_mark ?_ ?_) s.name.isSettled_text (.inl ?_) <;> cases s.word <;> decide

/-- No quote is open behind sources, and they hold no comment. -/
theorem isSettled_sources (sources : List Source) : IsSettled (sourcesText sources) := by
  induction sources with
  | nil => exact .of_not_mark (by simp [sourcesText]) (by simp [sourcesText])
  | cons s sources ih =>
    rw [sourcesText_cons]
    refine s.isSettled_text.append ih (.inr fun c hc => ?_)
    have hblank := (endsName_sources sources).1.isBlank_head c hc
    exact not_mem_pieceMarks_of_isBlank hblank

/-- Sources stand on one line. -/
theorem not_mem_sources (sources : List Source) : '\n' ∉ sourcesText sources := by
  intro hmem
  obtain ⟨s, -, hmem⟩ := List.mem_flatMap.1 hmem
  rw [s.text_eq] at hmem
  rcases List.mem_append.1 hmem with hmem | hmem
  · rw [Source.front] at hmem
    revert hmem
    cases s.word <;> decide
  · exact absurd (WrittenName.isBlank_of_mem hmem) (by decide)

/-- The head of the query. -/
def selectStar : Text := "SELECT *".toList

/-- The query is in normal form. -/
theorem normalize_sources (s : Source) (sources : List Source) :
    normalize (selectStar ++ sourcesText (s :: sources)) =
      selectStar ++ sourcesText (s :: sources) := by
  have hstar : IsUncommented ('*' :: sourcesText (s :: sources)) := by
    rw [isUncommented_plain (by decide)]
    · exact (isSettled_sources _).uncommented
    · rintro d - (⟨hc, -⟩ | ⟨hc, -⟩) <;> exact absurd hc (by decide)
  have hlines : HasNoCommands false ('*' :: sourcesText (s :: sources)) := by
    intro y hy
    rw [lineStarts_of_not_mem] at hy
    · cases hy
    · intro hmem
      rcases List.mem_cons.1 hmem with hmem | hmem
      · exact absurd hmem (by decide)
      · exact not_mem_sources _ hmem
  have htrim : Text.trimEnd ('*' :: sourcesText (s :: sources)) =
      '*' :: sourcesText (s :: sources) := by
    -- The text ends as its last source does.
    obtain ⟨init, last, hlast⟩ : ∃ init last, s :: sources = init ++ [last] :=
      (List.eq_nil_or_concat' (s :: sources)).resolve_left (by simp)
    have hne : last.text ≠ [] := by simp [Source.text]
    have htext : '*' :: sourcesText (s :: sources) = ('*' :: sourcesText init) ++ last.text := by
      simp [hlast, sourcesText]
    rw [htext]
    exact (Text.trimEnd_append_eq_self_iff _ hne).2 last.trimEnd_text
  exact (isNewHead_of_words (t := []) (by simp)).normalize_eq hstar hlines (by simp) htrim

/-! ## The query -/

/-- The head of the query is set apart from its sources. -/
theorem nameSeam_selectStar (family : Family) (sources : List Source) :
    NameSeam family.templates selectStar (sourcesText sources) :=
  nameSeam_sources (fun template _ => (template.keepsApart_select (c := '*') (by decide) _).1)
    (by decide)

/-- The tables of a query, the first one behind FROM and each other one behind JOIN. -/
def joined : List WrittenName → List Source
  | [] => []
  | name :: names => ⟨.first, name⟩ :: names.map (⟨.further, ·⟩)

theorem map_name_joined (names : List WrittenName) : (joined names).map Source.name = names := by
  cases names with
  | nil => rfl
  | cons name names =>
    rw [joined, List.map_cons, List.map_map]
    exact congrArg (name :: ·) (List.map_id names)

theorem text_joined {names : List WrittenName} (hne : names ≠ []) :
    "SELECT * FROM ".toList ++ Text.joinWith " JOIN ".toList (names.map WrittenName.text) =
      selectStar ++ sourcesText (joined names) := by
  obtain ⟨name, names, rfl⟩ := List.exists_cons_of_ne_nil hne
  rw [List.map_cons, Text.joinWith_cons, List.flatMap_map, joined, sourcesText_cons, sourcesText,
    List.flatMap_map]
  rfl

/-- The names of joined tables are found: all of them in order, each with the template that counts
its parts. The first table is the last part of the first name. The databases are those of the names
in order, without those that come again in any case of their letters. -/
theorem names_joined {budget : Budget} (hbudget : budget.isSpent = false)
    {names : List WrittenName} (hne : names ≠ []) :
    let sql := "SELECT * FROM ".toList ++
      Text.joinWith " JOIN ".toList (names.map WrittenName.text)
    (matchNames Family.table.templates budget (normalize sql)).map
        (fun found => (found.name.parts, found.template.rank)) =
      names.map (fun name => (name.parts, name.parts.length)) ∧
    firstTableName? budget sql = names.head?.bind (·.parts.getLast?) ∧
    databaseNames budget sql =
      (names.filterMap (·.database?)).eraseDupsBy Text.sameIgnoringCase := by
  intro sql
  have hsql : normalize sql = selectStar ++ sourcesText (joined names) := by
    obtain ⟨name, others, rfl⟩ := List.exists_cons_of_ne_nil hne
    have htext : sql = _ := text_joined hne
    rw [htext, joined, normalize_sources]
  have hnone : ∀ family : Family, matchNames family.templates budget selectStar = [] :=
    fun family => matchNames_eq_nil fun template _ =>
      (template.keepsApart_select (c := '*') (by decide) []).2
  refine ⟨?_, ?_, ?_⟩
  · have hranks : ∀ s ∈ joined names,
        decide (s.name.parts.length ∈ Family.table.ranks) = true :=
      fun s _ => decide_eq_true s.name.length_parts_mem
    have hfound := congrArg (List.map fun x : QualifiedName × Nat => (x.1.parts, x.2))
      (matchNames_sources hbudget .table (joined names))
    rw [List.filter_eq_self.2 hranks, List.map_map, List.map_map] at hfound
    rw [hsql, (nameSeam_selectStar .table _).matchNames_append, hnone, List.nil_append,
      List.map_map]
    refine hfound.trans ?_
    conv_rhs => rw [← map_name_joined names, List.map_map]
    rfl
  · obtain ⟨name, others, rfl⟩ := List.exists_cons_of_ne_nil hne
    rw [firstTableName?, hsql, firstTableIn_append _ (nameSeam_selectStar .table _), firstTableIn,
      hnone, joined, firstTableIn_sources hbudget]
    rfl
  · have hhead : databasesIn budget selectStar = [] := by
      rw [databasesIn, hnone]
      rfl
    rw [databaseNames, hsql, databasesIn_append _ (nameSeam_selectStar .database _), hhead,
      filterMap_database?_sources hbudget, foldl_addNewName, List.nil_append,
      List.filter_eq_self.2 (by simp)]
    conv_rhs => rw [← map_name_joined names, List.filterMap_map]
    rfl

/-- A schema that is left out, both delimiters, and a database that comes again in other letters. -/
theorem names_joined_mixed :
    let sql := "SELECT * FROM [srv].[Db]..\"Users\" JOIN \"db\".[dbo].[Roles] JOIN [Log]".toList
    (matchNames Family.table.templates Budget.default (normalize sql)).map
        (fun found => (found.name.parts, found.template.rank)) =
      [(["srv".toList, "Db".toList, [], "Users".toList], 4),
        (["db".toList, "dbo".toList, "Roles".toList], 3), (["Log".toList], 1)] ∧
    firstTableName? Budget.default sql = some "Users".toList ∧
    databaseNames Budget.default sql = ["Db".toList] := by
  have h := @names_joined Budget.default rfl
    [⟨⟨.bracket, "srv".toList, by decide⟩, [⟨.bracket, "Db".toList, by decide⟩,
        ⟨.bracket, [], by decide⟩, ⟨.quote, "Users".toList, by decide⟩], by decide, by decide,
        by decide⟩,
      ⟨⟨.quote, "db".toList, by decide⟩, [⟨.bracket, "dbo".toList, by decide⟩,
        ⟨.bracket, "Roles".toList, by decide⟩], by decide, by decide, by decide⟩,
      ⟨⟨.bracket, "Log".toList, by decide⟩, [], by decide, by decide, by decide⟩] (by simp)
  exact h

end LooseSql
