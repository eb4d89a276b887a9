import LooseSql.Proofs.Text.After
import LooseSql.Proofs.Text.Trim
import LooseSql.Report.Basic
import Mathlib.Data.List.Forall2

/-!
# Tables are rectangular

Without colours the lines of a table are equally long, its columns start at the same places in all
of them, and every cell stands in its column whole, whatever is written in it. There are such lines
exactly if no cell is longer than `Table.maxWidth`; otherwise not even the first line can be made
(`Report.ofTable?_isRectangular_iff`).

* `Table.columnSpans`: where columns of given widths stand;
* `Table.IsLine`: a line with its cells and gaps in place;
* `Table.fits_widths`: no heading and no cell is longer than its column is wide;
* `Table.cellLine?_isSome_iff`: a line can be made if no column is too wide, whatever its cells are,
  so all lines of a table can be made or none.
-/

namespace LooseSql

/-! ## Lists made element by element -/

/-- A list is made if each of its elements is. -/
theorem mapM_isSome_iff {α β : Type} {f : α → Option β} {as : List α} :
    (as.mapM f).isSome ↔ ∀ a ∈ as, (f a).isSome := by
  induction as with
  | nil => simp
  | cons a as ih =>
    rw [List.mapM_cons, List.forall_mem_cons, ← ih]
    cases f a with
    | none => simp
    | some b => cases as.mapM f <;> simp

/-- The elements of a list that is made are made each from its own. -/
theorem forall₂_of_mapM {α β : Type} {f : α → Option β} {as : List α} {bs : List β}
    (h : as.mapM f = some bs) : List.Forall₂ (fun a b => f a = some b) as bs := by
  induction as generalizing bs with
  | nil =>
    obtain rfl : [] = bs := by simpa using h
    exact .nil
  | cons a as ih =>
    rw [List.mapM_cons] at h
    obtain ⟨b, hb, h⟩ := Option.bind_eq_some_iff.1 h
    obtain ⟨bs', hbs, h⟩ := Option.bind_eq_some_iff.1 h
    obtain rfl := Option.some.inj h
    exact .cons hb (ih hbs)

namespace Table

/-! ## Columns -/

/-- The spans of columns of these widths, with a gap of a given width between each two. The first
one starts at the place `start`. -/
def columnSpans (gap start : Nat) : (widths : List Nat) → List Span
  | [] => []
  | width :: widths => ⟨start, start + width⟩ :: columnSpans gap (start + width + gap) widths

theorem length_columnSpans (gap start : Nat) (widths : List Nat) :
    (columnSpans gap start widths).length = widths.length := by
  induction widths generalizing start with
  | nil => rfl
  | cons width widths ih => rw [columnSpans, List.length_cons, ih, List.length_cons]

/-- A column starts one gap behind the end of the column in front of it. -/
theorem start_eq_stop_add {gap start i : Nat} {widths : List Nat} {a b : Span}
    (ha : (columnSpans gap start widths)[i]? = some a)
    (hb : (columnSpans gap start widths)[i + 1]? = some b) : b.start = a.stop + gap := by
  induction widths generalizing start i with
  | nil => simp [columnSpans] at ha
  | cons width widths ih =>
    rw [columnSpans] at ha hb
    cases i with
    | succ i => exact ih ha hb
    | zero =>
      obtain rfl : ⟨start, start + width⟩ = a := Option.some.inj ha
      cases widths with
      | nil => simp [columnSpans] at hb
      | cons width' widths =>
        obtain rfl : ⟨start + width + gap, start + width + gap + width'⟩ = b := Option.some.inj hb
        rfl

theorem joinWith_cons_cons (gap f g : Text) (fields : List Text) :
    Text.joinWith gap (f :: g :: fields) = f ++ (gap ++ Text.joinWith gap (g :: fields)) := by
  simp [Text.joinWith_cons]

/-- A field of a joined line stands in its column, and the gap or the end of the line follows. -/
theorem exists_of_columnSpans (front : Text) {gap field : Text} {fields : List Text} {i : Nat}
    {column : Span}
    (hcolumn : (columnSpans gap.length front.length (fields.map List.length))[i]? = some column)
    (hfield : fields[i]? = some field) :
    ∃ a b : Text, front ++ Text.joinWith gap fields = a ++ (field ++ b) ∧
      column = ⟨a.length, a.length + field.length⟩ ∧
      if i + 1 = fields.length then b = [] else gap <+: b := by
  induction fields generalizing front i with
  | nil => cases hfield
  | cons f fields ih =>
    rw [List.map_cons, columnSpans] at hcolumn
    cases fields with
    | nil =>
      -- The only field of the line.
      cases i with
      | succ i => cases hcolumn
      | zero =>
        obtain rfl : f = field := Option.some.inj hfield
        refine ⟨front, [], ?_, (Option.some.inj hcolumn).symm, rfl⟩
        simp [Text.joinWith_cons]
    | cons g fields =>
      rw [joinWith_cons_cons]
      cases i with
      | zero =>
        obtain rfl : f = field := Option.some.inj hfield
        exact ⟨front, _, rfl, (Option.some.inj hcolumn).symm, List.prefix_append gap _⟩
      | succ i =>
        -- The column is one of the line behind the first field and its gap.
        have hlength : front.length + f.length + gap.length = (front ++ (f ++ gap)).length := by
          simp only [List.length_append, Nat.add_assoc]
        rw [List.getElem?_cons_succ, hlength] at hcolumn
        obtain ⟨a, b, hsplit, hspan, hnext⟩ := ih _ hcolumn hfield
        refine ⟨a, b, ?_, hspan, by simpa using hnext⟩
        rw [← hsplit]
        simp only [List.append_assoc]

/-! ## Lines -/

/-- The line shows the cells in the columns: each cell stands in its column whole, with nothing but
`fill` behind it, the gap stands between each two columns, and the line ends where the last column
does. -/
structure IsLine (columns : List Span) (fill : Char) (gap : Text) (cells : List Text)
    (line : Text) : Prop where
  /-- There is a cell for each column. -/
  length_cells : cells.length = columns.length
  /-- Each cell stands in its column. -/
  slice_cell : ∀ (i : Nat) (column : Span) (cell : Text), columns[i]? = some column →
    cells[i]? = some cell → ∃ n : Nat, column.slice line = cell ++ List.replicate n fill
  /-- The gap stands behind each column but the last. -/
  slice_gap : ∀ (i : Nat) (a b : Span), columns[i]? = some a → columns[i + 1]? = some b →
    Span.slice ⟨a.stop, b.start⟩ line = gap
  /-- The last column ends the line. -/
  stop_last : ∀ column ∈ columns.getLast?, column.stop = line.length

/-- Fields that are filled up to the widths make a line. -/
theorem isLine_joinWith (gap : Text) {fill : Char} {widths : List Nat} {cells fields : List Text}
    (hwidths : fields.map List.length = widths)
    (hfields : List.Forall₂ (fun cell field => ∃ n : Nat, field = cell ++ List.replicate n fill)
      cells fields) :
    IsLine (columnSpans gap.length 0 widths) fill gap cells (Text.joinWith gap fields) := by
  subst hwidths
  have hlength : (columnSpans gap.length 0 (fields.map List.length)).length = fields.length := by
    rw [length_columnSpans, List.length_map]
  have hcut : ∀ {i : Nat} {column : Span},
      (columnSpans gap.length 0 (fields.map List.length))[i]? = some column →
      ∃ (hi : i < fields.length) (a b : Text), Text.joinWith gap fields = a ++ (fields[i] ++ b) ∧
        column = ⟨a.length, a.length + fields[i].length⟩ ∧
        if i + 1 = fields.length then b = [] else gap <+: b := by
    intro i column hcolumn
    obtain ⟨hi, -⟩ := List.getElem?_eq_some_iff.1 hcolumn
    rw [hlength] at hi
    exact ⟨hi, exists_of_columnSpans [] hcolumn (List.getElem?_eq_getElem hi)⟩
  refine ⟨hfields.length_eq.trans hlength.symm, ?_, ?_, ?_⟩
  · -- The field in the column is the cell with what fills it up.
    intro i column cell hcolumn hcell
    obtain ⟨hi, a, b, hsplit, rfl, -⟩ := hcut hcolumn
    obtain ⟨hi', rfl⟩ := List.getElem?_eq_some_iff.1 hcell
    rw [Span.slice_of_eq_append hsplit rfl rfl]
    exact hfields.get hi' hi
  · intro i s s' hs hs'
    have hstart := start_eq_stop_add hs hs'
    obtain ⟨hi, a, b, hsplit, rfl, hnext⟩ := hcut hs
    obtain ⟨hi', -⟩ := List.getElem?_eq_some_iff.1 hs'
    rw [if_neg (by omega)] at hnext
    obtain ⟨rest, rfl⟩ := hnext
    rw [← List.append_assoc] at hsplit
    exact Span.slice_of_eq_append hsplit (by simp) hstart
  · intro column hcolumn
    rw [List.getLast?_eq_getElem?] at hcolumn
    obtain ⟨hi, a, b, hsplit, rfl, hnext⟩ := hcut hcolumn
    rw [if_pos (by omega)] at hnext
    rw [hsplit, hnext, List.append_nil, List.length_append]

/-! ## Widths -/

/-- No cell is longer than its column is wide. -/
def Fits (widths : List Nat) (cells : List Text) : Prop :=
  List.Forall₂ (fun width cell => cell.length ≤ width) widths cells

/-- The widths with those of one more row taken in. -/
def widen (widths : List Nat) (cells : List Text) : List Nat :=
  List.zipWith (fun width cell => max width cell.length) widths cells

theorem length_widen {widths : List Nat} {cells : List Text} (h : cells.length = widths.length) :
    (widen widths cells).length = widths.length := by
  rw [widen, List.length_zipWith, h, Nat.min_self]

/-- The row that is taken in fits, and so does every row that did before. -/
theorem fits_widen {widths : List Nat} {cells : List Text} (h : cells.length = widths.length) :
    Fits (widen widths cells) cells ∧
      ∀ {others : List Text}, Fits widths others → Fits (widen widths cells) others := by
  induction widths generalizing cells with
  | nil =>
    obtain rfl : cells = [] := List.length_eq_zero_iff.1 h
    exact ⟨.nil, id⟩
  | cons width widths ih =>
    cases cells with
    | nil => cases h
    | cons cell cells =>
      obtain ⟨hself, hothers⟩ := ih (Nat.succ.inj h)
      refine ⟨.cons (Nat.le_max_right _ _) hself, ?_⟩
      rintro _ (_ | ⟨hother, hrest⟩)
      exact .cons (hother.trans (Nat.le_max_left _ _)) (hothers hrest)

/-- Rows that are as long as the widths are so once the first of them is taken in. -/
theorem length_eq_length_widen {widths : List Nat} {row : List Text} {rows : List (List Text)}
    (h : ∀ r ∈ row :: rows, r.length = widths.length) :
    ∀ r ∈ rows, r.length = (widen widths row).length := by
  intro r hr
  rw [length_widen (h row List.mem_cons_self)]
  exact h r (List.mem_cons_of_mem row hr)

/-- Once all rows are taken in, each of them fits. -/
theorem fits_foldl_widen {widths : List Nat} {rows : List (List Text)}
    (h : ∀ row ∈ rows, row.length = widths.length) {cells : List Text}
    (hcells : Fits widths cells ∨ cells ∈ rows) : Fits (rows.foldl widen widths) cells := by
  induction rows generalizing widths with
  | nil => exact hcells.resolve_right (by simp)
  | cons row rows ih =>
    obtain ⟨hself, hothers⟩ := fits_widen (h row List.mem_cons_self)
    rw [List.foldl_cons]
    refine ih (length_eq_length_widen h) ?_
    -- The widths take in this row and keep what they had taken in before.
    rcases hcells with hfits | hmem
    · exact .inl (hothers hfits)
    · rcases List.mem_cons.1 hmem with rfl | hmem
      · exact .inl hself
      · exact .inr hmem

theorem length_row (table : Table) :
    ∀ row ∈ table.rows, row.length = (table.headings.map List.length).length := by
  intro row hrow
  rw [table.length_eq row hrow, List.length_map]

/-- The headings and the rows fit the widths of the table. -/
theorem fits_widths (table : Table) {cells : List Text}
    (h : cells = table.headings ∨ cells ∈ table.rows) : Fits table.widths cells := by
  refine fits_foldl_widen table.length_row (h.imp_left ?_)
  rintro rfl
  exact List.forall₂_map_left_iff.2 (List.forall₂_same.2 fun _ _ => Nat.le_refl _)

/-- The widths are bounded by what bounds the widths before and the row that is taken in. -/
theorem forall_mem_widen_iff {widths : List Nat} {cells : List Text} {n : Nat}
    (h : cells.length = widths.length) :
    (∀ width ∈ widen widths cells, width ≤ n) ↔
      (∀ width ∈ widths, width ≤ n) ∧ ∀ cell ∈ cells, cell.length ≤ n := by
  induction widths generalizing cells with
  | nil =>
    obtain rfl : cells = [] := List.length_eq_zero_iff.1 h
    simp [widen]
  | cons width widths ih =>
    cases cells with
    | nil => cases h
    | cons cell cells =>
      have hrest := ih (Nat.succ.inj h)
      rw [widen] at hrest ⊢
      rw [List.zipWith_cons_cons, List.forall_mem_cons, List.forall_mem_cons, List.forall_mem_cons,
        hrest, Nat.max_le, and_and_and_comm]

theorem forall_mem_foldl_widen_iff {widths : List Nat} {rows : List (List Text)} {n : Nat}
    (h : ∀ row ∈ rows, row.length = widths.length) :
    (∀ width ∈ rows.foldl widen widths, width ≤ n) ↔
      (∀ width ∈ widths, width ≤ n) ∧ ∀ row ∈ rows, ∀ cell ∈ row, cell.length ≤ n := by
  induction rows generalizing widths with
  | nil => simp
  | cons row rows ih =>
    rw [List.foldl_cons, ih (length_eq_length_widen h),
      forall_mem_widen_iff (h row List.mem_cons_self), List.forall_mem_cons, and_assoc]

/-- No column is wider than the longest heading and the longest cell. -/
theorem forall_mem_widths_iff (table : Table) {n : Nat} :
    (∀ width ∈ table.widths, width ≤ n) ↔
      (∀ heading ∈ table.headings, heading.length ≤ n) ∧
        ∀ row ∈ table.rows, ∀ cell ∈ row, cell.length ≤ n := by
  refine (forall_mem_foldl_widen_iff table.length_row).trans ?_
  rw [List.forall_mem_map]

/-! ## Lines of cells -/

theorem pad?_eq_some_iff {width : Nat} {t field : Text} : pad? width t = some field ↔
    width ≤ maxWidth ∧ t ++ List.replicate (width - t.length) ' ' = field := by
  rw [pad?, Option.ite_none_right_eq_some, Option.some.injEq]

/-- A line can be made if no column is too wide, whatever the cells are. -/
theorem cellLine?_isSome_iff {widths : List Nat} {cells : List Text}
    (h : cells.length = widths.length) :
    (cellLine? widths cells).isSome ↔ ∀ width ∈ widths, width ≤ maxWidth := by
  have hpad : ∀ (width : Nat) (cell : Text), (pad? width cell).isSome ↔ width ≤ maxWidth := by
    intro width cell
    simp [pad?]
  have hwidths : (widths.zip cells).map Prod.fst = widths := List.map_fst_zip h.ge
  rw [cellLine?, Option.isSome_map, mapM_isSome_iff]
  conv_rhs => rw [← hwidths, List.forall_mem_map]
  exact forall₂_congr fun field _ => hpad field.1 field.2

/-- Where the cells fit, a line that is made shows them. -/
theorem isLine_of_cellLine? {widths : List Nat} {cells : List Text} {line : Text}
    (hfits : Fits widths cells) (h : cellLine? widths cells = some line) :
    IsLine (columnSpans 3 0 widths) ' ' " │ ".toList cells line := by
  obtain ⟨fields, hfields, rfl⟩ := Option.map_eq_some_iff.1 h
  have hpadded := forall₂_of_mapM hfields
  clear h hfields
  suffices fields.map List.length = widths ∧
      List.Forall₂ (fun cell field => ∃ n : Nat, field = cell ++ List.replicate n ' ') cells
        fields from isLine_joinWith " │ ".toList this.1 this.2
  induction hfits generalizing fields with
  | nil =>
    cases hpadded
    exact ⟨rfl, .nil⟩
  | @cons width cell widths cells hfit _ ih =>
    obtain _ | ⟨hpad, hrest⟩ := hpadded
    obtain ⟨-, rfl⟩ := pad?_eq_some_iff.1 hpad
    obtain ⟨hlengths, hcells⟩ := ih _ hrest
    refine ⟨?_, .cons ⟨_, rfl⟩ hcells⟩
    rw [List.map_cons, hlengths, List.length_append, List.length_replicate,
      Nat.add_sub_cancel' hfit]

theorem isLine_ruleLine (widths : List Nat) :
    IsLine (columnSpans 3 0 widths) '─' "─┼─".toList (widths.map fun _ => [])
      (ruleLine widths) := by
  refine isLine_joinWith "─┼─".toList ?_ ?_
  · rw [List.map_map]
    exact List.map_id'' (fun width => List.length_replicate) widths
  · rw [List.forall₂_map_left_iff, List.forall₂_map_right_iff, List.forall₂_same]
    exact fun width _ => ⟨width, rfl⟩

/-! ## Whole tables -/

/-- The lines show the table in the columns: they are equally long, each row has a line, and the
headings and the cells stand in the columns whole. -/
structure IsRectangular (table : Table) (columns : List Span) (heading rule : Text)
    (rows : List Text) : Prop where
  /-- There is a column for each heading. -/
  length_columns : columns.length = table.headings.length
  /-- All lines are as long as the first one. -/
  length_eq : ∀ line ∈ rule :: rows, line.length = heading.length
  /-- The first line shows the headings. -/
  isLine_heading : IsLine columns ' ' " │ ".toList table.headings heading
  /-- The second line is ruled in every column. -/
  isLine_rule : IsLine columns '─' "─┼─".toList (columns.map fun _ => []) rule
  /-- The other lines show the rows, each its own. -/
  isLine_rows : List.Forall₂ (IsLine columns ' ' " │ ".toList) table.rows rows

/-- Two lines in the same columns are equally long. -/
theorem IsLine.length_eq {columns : List Span} {fill fill' : Char} {gap gap' : Text}
    {cells cells' : List Text} {line line' : Text} (hne : columns ≠ [])
    (h : IsLine columns fill gap cells line) (h' : IsLine columns fill' gap' cells' line') :
    line.length = line'.length := by
  have hlast := List.getLast?_eq_some_getLast hne
  rw [← h.stop_last _ hlast, ← h'.stop_last _ hlast]

/-- Lines that are made show the table in columns that are as wide as the widest of their cells. -/
theorem isRectangular_of_lines {table : Table} (hne : table.headings ≠ []) {heading : Text}
    {rows : List Text} (hheading : table.headingLine? = some heading)
    (hrows : table.rowLines? = some rows) :
    table.IsRectangular (columnSpans 3 0 table.widths) heading (ruleLine table.widths) rows := by
  have hlength : table.widths.length = table.headings.length :=
    (table.fits_widths (.inl rfl)).length_eq
  have hheading := isLine_of_cellLine? (table.fits_widths (.inl rfl)) hheading
  have hmade : List.Forall₂ (fun row line => row ∈ table.rows ∧
      cellLine? table.widths row = some line) table.rows rows :=
    (List.forall₂_and_left _ _).2 ⟨fun _ hrow => hrow, forall₂_of_mapM hrows⟩
  have hshown : List.Forall₂ (IsLine (columnSpans 3 0 table.widths) ' ' " │ ".toList) table.rows
      rows := hmade.imp fun row line h => isLine_of_cellLine? (table.fits_widths (.inr h.1)) h.2
  have hrule := isLine_ruleLine table.widths
  have hcolumns : columnSpans 3 0 table.widths ≠ [] := by
    rw [← List.length_pos_iff, length_columnSpans, hlength]
    exact List.length_pos_iff.2 hne
  refine ⟨?_, ?_, hheading, ?_, hshown⟩
  · rw [length_columnSpans, hlength]
  · intro line hline
    rcases List.mem_cons.1 hline with rfl | hline
    · exact hrule.length_eq hcolumns hheading
    · obtain ⟨i, hi, rfl⟩ := List.getElem_of_mem hline
      exact (hshown.get (hshown.length_eq ▸ hi) hi).length_eq hcolumns hheading
  · -- The rule is a line of empty cells.
    have hempty : (columnSpans 3 0 table.widths).map (fun _ => ([] : Text)) =
        table.widths.map fun _ => [] := by
      rw [List.map_const', List.map_const', length_columnSpans]
    rw [hempty]
    exact hrule

/-- The lines are those of the table and, behind an empty line, the number of its rows. -/
def IsShownBy (table : Table) (lines : List Text) : Prop :=
  ∃ (columns : List Span) (heading rule : Text) (rows : List Text),
    lines = heading :: rule :: rows ++
      [[], (toString table.rows.length).toList ++ " row(s)".toList] ∧
    table.IsRectangular columns heading rule rows

/-- No cell is longer than a column can be wide. -/
def IsNarrow (table : Table) : Prop := ∀ row ∈ table.rows, ∀ cell ∈ row, cell.length ≤ maxWidth

/-- No heading is longer than a column can be wide, so it is up to the cells whether the first line
can be made. -/
theorem headingLine?_isSome_iff {table : Table}
    (h : ∀ heading ∈ table.headings, heading.length ≤ maxWidth) :
    table.headingLine?.isSome ↔ table.IsNarrow := by
  rw [headingLine?, cellLine?_isSome_iff (table.fits_widths (.inl rfl)).length_eq.symm,
    forall_mem_widths_iff]
  exact and_iff_right h

/-- The other lines have the columns of the first one, so they can be made if it can. -/
theorem rowLines?_isSome {table : Table} (h : table.headingLine?.isSome) :
    table.rowLines?.isSome := by
  have hlength : ∀ {cells : List Text}, cells = table.headings ∨ cells ∈ table.rows →
      cells.length = table.widths.length := fun hcells =>
    (table.fits_widths hcells).length_eq.symm
  rw [headingLine?, cellLine?_isSome_iff (hlength (.inl rfl))] at h
  rw [rowLines?, mapM_isSome_iff]
  intro row hrow
  exact (cellLine?_isSome_iff (hlength (.inr hrow))).2 h

/-- The lines of a table can be made if it is narrow, whether they are coloured or not. -/
theorem lines?_isSome_iff {coloured : Bool} {table : Table}
    (h : ∀ heading ∈ table.headings, heading.length ≤ maxWidth) :
    (table.lines? coloured).isSome ↔ table.IsNarrow := by
  rw [← headingLine?_isSome_iff h, lines?]
  cases hheading : table.headingLine? with
  | none => simp
  | some heading =>
    obtain ⟨rows, hrows⟩ := Option.isSome_iff_exists.1 (rowLines?_isSome (by rw [hheading]; rfl))
    simp [hrows]

theorem ofTable?_isSome_iff {coloured : Bool} {table : Table}
    (h : ∀ heading ∈ table.headings, heading.length ≤ maxWidth) :
    (Report.ofTable? coloured table).isSome ↔ table.IsNarrow := by
  rw [Report.ofTable?]
  split
  case isTrue hempty =>
    -- A table without rows is not shown as one, and it has no cells.
    simp [IsNarrow, List.isEmpty_iff.1 hempty]
  case isFalse => rw [Option.isSome_map, lines?_isSome_iff h]

/-- A table with rows is shown exactly if it is narrow. Otherwise no line of it is written, since
the first one cannot be made. -/
theorem exists_isShownBy_iff {table : Table} (hne : table.headings ≠ [])
    (hrows : table.rows ≠ []) (h : ∀ heading ∈ table.headings, heading.length ≤ maxWidth) :
    ((∃ lines, Report.ofTable? false table = some lines ∧ table.IsShownBy lines) ↔
      table.IsNarrow) ∧
    (¬ table.IsNarrow → table.headingLine? = none ∧ Report.ofTable? false table = none) := by
  have hheading := headingLine?_isSome_iff h
  have hmade : (Report.ofTable? false table).isSome ↔ table.IsNarrow := ofTable?_isSome_iff h
  refine ⟨⟨?_, fun hnarrow => ?_⟩, fun hwide => ?_⟩
  · rintro ⟨lines, hlines, -⟩
    exact hmade.1 (by rw [hlines]; rfl)
  · obtain ⟨heading, hline⟩ := Option.isSome_iff_exists.1 (hheading.2 hnarrow)
    obtain ⟨rows, hmade⟩ := Option.isSome_iff_exists.1 (rowLines?_isSome (hheading.2 hnarrow))
    have hlines : table.lines? false = some (heading :: ruleLine table.widths :: rows) := by
      rw [lines?, hline, hmade]
      rfl
    rw [Report.ofTable?, if_neg (by simpa using hrows), hlines]
    exact ⟨_, rfl, _, _, _, _, rfl, isRectangular_of_lines hne hline hmade⟩
  · exact ⟨Option.not_isSome_iff_eq_none.1 (mt hheading.1 hwide),
      Option.not_isSome_iff_eq_none.1 (mt hmade.1 hwide)⟩

end Table

namespace Report

theorem length_le_of_mem_columnTable (columns : List Column) :
    ∀ heading ∈ (columnTable columns).headings, heading.length ≤ Table.maxWidth := by
  simp [columnTable, Table.maxWidth]

theorem length_le_of_mem_conditionTable (conditions : List Condition) :
    ∀ heading ∈ (conditionTable conditions).headings, heading.length ≤ Table.maxWidth := by
  simp [conditionTable, Table.maxWidth]

/-- Columns and conditions are shown as rectangular tables exactly if no cell is longer than a
column can be wide: all lines are equally long, the columns start at the same places in all of them,
and each cell stands in its column whole, whatever texts they hold. Otherwise nothing is written,
since the first line cannot be made. -/
theorem ofTable?_isRectangular_iff {table : Table}
    (h : (∃ columns : List Column, columns ≠ [] ∧ table = columnTable columns) ∨
      ∃ conditions : List Condition, conditions ≠ [] ∧ table = conditionTable conditions) :
    ((∃ lines, ofTable? false table = some lines ∧ table.IsShownBy lines) ↔ table.IsNarrow) ∧
    (¬ table.IsNarrow → table.headingLine? = none ∧ ofTable? false table = none) := by
  obtain ⟨columns, hne, rfl⟩ | ⟨conditions, hne, rfl⟩ := h
  · exact Table.exists_isShownBy_iff (List.cons_ne_nil _ _) (by simpa [columnTable] using hne)
      (length_le_of_mem_columnTable columns)
  · exact Table.exists_isShownBy_iff (List.cons_ne_nil _ _) (by simpa [conditionTable] using hne)
      (length_le_of_mem_conditionTable conditions)

/-- A cell with the gap and a line end in it, next to one that is wider in bytes than in
characters. -/
theorem ofTable?_isRectangular_marks :
    let columns : List Column :=
      [⟨none, some "größe │ é".toList, "a\nb".toList, none⟩, ⟨none, none, "日本語".toList, none⟩]
    columns ≠ [] ∧ (columnTable columns).IsNarrow ∧
      ∃ lines, ofTable? false (columnTable columns) = some lines ∧
        (columnTable columns).IsShownBy lines := by
  intro columns
  have hne : columns ≠ [] := List.cons_ne_nil _ _
  have hnarrow : (columnTable columns).IsNarrow := by
    unfold Table.IsNarrow
    decide
  exact ⟨hne, hnarrow, (ofTable?_isRectangular_iff (.inl ⟨columns, hne, rfl⟩)).1.2 hnarrow⟩

theorem not_isNarrow_of_value {conditions : List Condition} {condition : Condition}
    (hmem : condition ∈ conditions) (h : Table.maxWidth < condition.value.length) :
    ¬ (conditionTable conditions).IsNarrow := by
  intro hnarrow
  have hvalue := hnarrow _ (List.mem_map_of_mem hmem) condition.value (by simp)
  exact absurd hvalue (Nat.not_le.2 h)

/-- A comparison with a literal that is one character too long: the table is not shown, and not one
line of it can be made. -/
theorem ofTable?_not_isRectangular :
    let conditions : List Condition :=
      [⟨"note".toList, .eq, '\'' :: List.replicate 65534 'a' ++ ['\'']⟩]
    conditions ≠ [] ∧ ofTable? false (conditionTable conditions) = none ∧
      ¬ ∃ lines, ofTable? false (conditionTable conditions) = some lines ∧
        (conditionTable conditions).IsShownBy lines := by
  intro conditions
  have hne : conditions ≠ [] := List.cons_ne_nil _ _
  have hwide : ¬ (conditionTable conditions).IsNarrow := by
    refine not_isNarrow_of_value List.mem_cons_self ?_
    rw [List.length_append, List.length_cons, List.length_replicate]
    decide
  obtain ⟨hiff, hnone⟩ := Table.exists_isShownBy_iff (List.cons_ne_nil _ _)
    (List.cons_ne_nil _ _) (length_le_of_mem_conditionTable conditions)
  exact ⟨hne, (hnone hwide).2, fun hlines => hwide (hiff.1 hlines)⟩

example : ofTable? false (columnTable [⟨none, some "größe".toList, "é".toList, none⟩]) =
    some ["database │ table │ column │ alias".toList, "─────────┼───────┼────────┼──────".toList,
      "         │ größe │ é      │      ".toList, [], "1 row(s)".toList] := by
  decide

end Report

end LooseSql
