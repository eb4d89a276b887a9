import LooseSql.Proofs.Split.Pieces
import LooseSql.Split.Items

/-!
# Items of a comma list

The pieces of a comma list are what stands between the commas at its top level, and these commas
join the pieces to the list again. An item has no such comma of its own, so it is a list of one
item. A list that is put together of the items, with or without a space behind each comma, has the
same items (`items_partition`).

* `rawItemsFrom_cons`: how the pieces grow by one character;
* `rawItems_append`: a list in front of a comma and a list behind it;
* `mem_commas`: where the commas are that count;
* `commas_slice`: the commas of a stretch that starts at the top level.
-/

namespace LooseSql

/-! ## Commas at the top level -/

/-- The spans of the commas at the top level of a text, in order. -/
def commas (t : Text) : List Span :=
  ((topLevel t).filter fun p => p.char == ',').map fun p => ⟨p.index, p.index + 1⟩

/-- A comma counts if the text in front of it ends at the top level. -/
theorem mem_commas {t : Text} {s : Span} : s ∈ commas t ↔ ∃ u v : Text,
    t = u ++ ',' :: v ∧ u.IsClosed ∧ s = ⟨u.length, u.length + 1⟩ := by
  simp only [commas, List.mem_map, List.mem_filter, beq_iff_eq]
  constructor
  · rintro ⟨p, ⟨hp, hchar⟩, rfl⟩
    obtain ⟨u, ht, hindex, -, hshows⟩ := mem_topLevel_iff.1 hp
    rw [Place.rest, hchar] at ht
    exact ⟨u, p.after, ht, ScanState.eq_top_of_shows hshows, by rw [hindex]⟩
  · rintro ⟨u, v, rfl, hu, rfl⟩
    exact ⟨⟨u.length, u.getLast?, ',', v⟩, ⟨mem_topLevel_of_isClosed hu rfl v, rfl⟩, rfl⟩

theorem isCutting_commas (t : Text) : IsCutting t (commas t) where
  pairwise := by
    rw [commas, List.pairwise_map]
    exact ((pairwise_topLevelFrom .top 0 none t).filter _).imp fun hlt => hlt
  start_lt := by
    intro cut hcut
    obtain ⟨u, v, -, -, rfl⟩ := mem_commas.1 hcut
    exact Nat.lt_succ_self _
  stop_le := by
    intro cut hcut
    obtain ⟨u, v, rfl, -, rfl⟩ := mem_commas.1 hcut
    simp only [List.length_append, List.length_cons]
    omega
  isClosed_start := by
    intro cut hcut
    obtain ⟨u, v, rfl, hu, rfl⟩ := mem_commas.1 hcut
    rwa [List.take_left]
  isClosed_stop := by
    intro cut hcut
    obtain ⟨u, v, rfl, hu, rfl⟩ := mem_commas.1 hcut
    rw [List.append_cons, List.take_left' (by simp), Text.IsClosed, scan_append, hu.scan_eq]
    rfl

/-! ## Pieces between commas -/

theorem rawItemsFrom_ne_nil (s : ScanState) (t : Text) : rawItemsFrom s t ≠ [] := by
  cases t with
  | nil => simp [rawItemsFrom]
  | cons c t =>
    rw [rawItemsFrom]
    split
    · simp
    · split <;> simp

/-- A comma at the top level opens a new piece, and any other character goes to the first one. -/
theorem rawItemsFrom_cons (s : ScanState) (c : Char) (t : Text) :
    rawItemsFrom s (c :: t) = if s.shows c && c == ',' then [] :: rawItemsFrom (s.step c) t
      else (rawItemsFrom (s.step c) t).modifyHead (c :: ·) := by
  rw [rawItemsFrom]
  obtain ⟨piece, pieces, hpieces⟩ := List.exists_cons_of_ne_nil (rawItemsFrom_ne_nil (s.step c) t)
  rw [hpieces]
  rfl

/-- The pieces are what stands between the commas at the top level, the first one with the text
behind the comma in front. -/
theorem piecesBetween_commas (s : ScanState) (before : Option Char) (u t : Text) {i : Nat}
    (hi : i ≤ u.length) :
    piecesBetween (u ++ t) i (((topLevelFrom s u.length before t).filter
      fun p => p.char == ',').map fun p => ⟨p.index, p.index + 1⟩) =
        (rawItemsFrom s t).modifyHead (u.drop i ++ ·) := by
  induction t generalizing s before u i with
  | nil => simp [topLevelFrom, piecesBetween, rawItemsFrom]
  | cons c t ih =>
    have hlen : (u ++ [c]).length = u.length + 1 := by simp
    have hrest : ∀ {j}, j ≤ u.length + 1 → piecesBetween (u ++ c :: t) j
        (((topLevelFrom (s.step c) (u.length + 1) (some c) t).filter
          fun p => p.char == ',').map fun p => ⟨p.index, p.index + 1⟩) =
            (rawItemsFrom (s.step c) t).modifyHead ((u ++ [c]).drop j ++ ·) := by
      intro j hj
      rw [List.append_cons, ← hlen]
      exact ih (s.step c) (some c) (u ++ [c]) (by rwa [hlen])
    rw [topLevelFrom, rawItemsFrom_cons]
    -- A comma ends the piece in front of it; any other character goes on with that piece.
    by_cases hcomma : (s.shows c && c == ',') = true
    · obtain ⟨hshows, rfl⟩ : s.shows c = true ∧ c = ',' := by simpa using hcomma
      have hslice : Span.slice ⟨i, u.length⟩ (u ++ ',' :: t) = u.drop i := by
        rw [Span.slice_append_left (Nat.le_refl u.length), Span.slice_eq_drop_take,
          List.take_length]
      have hempty : (u ++ [',']).drop (u.length + 1) = [] := by simp
      rw [if_pos hshows, if_pos hcomma, List.filter_cons_of_pos (by simp), List.map_cons,
        piecesBetween, hslice, hrest (Nat.le_refl _), hempty, List.modifyHead_cons, List.append_nil]
      obtain ⟨piece, pieces, hpieces⟩ :=
        List.exists_cons_of_ne_nil (rawItemsFrom_ne_nil (s.step ',') t)
      rw [hpieces, List.modifyHead_cons, List.nil_append]
    · have hplaces : ((if s.shows c = true then ⟨u.length, before, c, t⟩ ::
          topLevelFrom (s.step c) (u.length + 1) (some c) t
          else topLevelFrom (s.step c) (u.length + 1) (some c) t).filter fun p => p.char == ',') =
            (topLevelFrom (s.step c) (u.length + 1) (some c) t).filter fun p => p.char == ',' := by
        split
        · next hshows =>
          rw [hshows, Bool.true_and] at hcomma
          exact List.filter_cons_of_neg hcomma
        · rfl
      rw [if_neg hcomma, hplaces, hrest (Nat.le_succ_of_le hi), List.modifyHead_modifyHead,
        List.drop_append_of_le_length hi]
      simp only [Function.comp_def, List.append_assoc, List.singleton_append]

theorem rawItems_eq (t : Text) : rawItems t = piecesBetween t 0 (commas t) := by
  have h := piecesBetween_commas .top none [] t (Nat.le_refl 0)
  obtain ⟨piece, pieces, hpieces⟩ := List.exists_cons_of_ne_nil (rawItemsFrom_ne_nil .top t)
  rw [List.length_nil, List.nil_append, hpieces, List.modifyHead_cons, List.drop_nil,
    List.nil_append] at h
  rw [rawItems, hpieces, ← h]
  rfl

/-- A comma behind a text that ends at the top level parts the pieces of what stands around it. -/
theorem rawItemsFrom_append {s : ScanState} {u : Text} (hu : scan s u = .top) (v : Text) :
    rawItemsFrom s (u ++ ',' :: v) = rawItemsFrom s u ++ rawItems v := by
  induction u generalizing s with
  | nil =>
    rw [scan_nil] at hu
    rw [List.nil_append, rawItemsFrom_cons, hu]
    rfl
  | cons c u ih =>
    rw [List.cons_append, rawItemsFrom_cons, rawItemsFrom_cons, ih hu]
    split
    · rfl
    · obtain ⟨piece, pieces, hpieces⟩ :=
        List.exists_cons_of_ne_nil (rawItemsFrom_ne_nil (s.step c) u)
      rw [hpieces, List.cons_append, List.modifyHead_cons, List.modifyHead_cons, List.cons_append]

/-! ## Commas of a part -/

/-- The spans of the commas at the top level, for a scan that is in state `s` at the start of the
text and has `i` characters behind it. -/
def commasFrom (s : ScanState) (i : Nat) : Text → List Span
  | [] => []
  | c :: t =>
    let others := commasFrom (s.step c) (i + 1) t
    if s.shows c && c == ',' then ⟨i, i + 1⟩ :: others else others

theorem map_topLevelFrom_eq_commasFrom (s : ScanState) (i : Nat) (before : Option Char) (t : Text) :
    (((topLevelFrom s i before t).filter fun p => p.char == ',').map fun p =>
      (⟨p.index, p.index + 1⟩ : Span)) = commasFrom s i t := by
  induction t generalizing s i before with
  | nil => rfl
  | cons c t ih =>
    rw [topLevelFrom, commasFrom, ← ih (s.step c) (i + 1) (some c)]
    cases s.shows c with
    | false => rfl
    | true =>
      by_cases hcomma : c = ','
      · simp [hcomma]
      · simp [hcomma]

theorem commas_eq_commasFrom (t : Text) : commas t = commasFrom .top 0 t :=
  map_topLevelFrom_eq_commasFrom .top 0 none t

theorem commasFrom_append (s : ScanState) (i : Nat) (u v : Text) :
    commasFrom s i (u ++ v) = commasFrom s i u ++ commasFrom (scan s u) (i + u.length) v := by
  induction u generalizing s i with
  | nil => rfl
  | cons c u ih =>
    have hlen : i + 1 + u.length = i + (c :: u).length := by simp; omega
    rw [List.cons_append, commasFrom, commasFrom, ih, hlen, scan_cons]
    split
    · rfl
    · rfl

/-- Moving a text moves its commas. -/
theorem commasFrom_add (s : ScanState) (i n : Nat) (t : Text) :
    commasFrom s (i + n) t = (commasFrom s i t).map (Span.map (· + n)) := by
  induction t generalizing s i with
  | nil => rfl
  | cons c t ih =>
    rw [commasFrom, commasFrom, Nat.add_right_comm, ih]
    split
    · rw [List.map_cons, Span.map, Nat.add_right_comm]
    · rfl

theorem bounds_of_mem_commasFrom {s : ScanState} {i : Nat} {t : Text} {r : Span}
    (hr : r ∈ commasFrom s i t) : i ≤ r.start ∧ r.stop = r.start + 1 ∧ r.stop ≤ i + t.length := by
  induction t generalizing s i with
  | nil => cases hr
  | cons c t ih =>
    have hrest : r ∈ commasFrom (s.step c) (i + 1) t →
        i ≤ r.start ∧ r.stop = r.start + 1 ∧ r.stop ≤ i + (c :: t).length := by
      intro hr
      have hbounds := ih hr
      rw [List.length_cons]
      omega
    rw [commasFrom] at hr
    split at hr
    · rcases List.mem_cons.1 hr with rfl | hr
      · refine ⟨Nat.le_refl i, rfl, ?_⟩
        simp only [List.length_cons]
        omega
      · exact hrest hr
    · exact hrest hr

/-- The commas of a text in three parts, if the first one ends at the top level. -/
theorem commas_append_append {u v w : Text} (hu : u.IsClosed) : commas (u ++ (v ++ w)) =
    commasFrom .top 0 u ++ (commasFrom .top u.length v ++
      commasFrom (scan .top v) (u.length + v.length) w) := by
  rw [commas_eq_commasFrom, commasFrom_append, commasFrom_append, hu.scan_eq, Nat.zero_add]

/-- Of the commas of a text, those that lie in a stretch from the top level on are the commas of the
stretch. -/
theorem filter_commas_eq_commasFrom {u v w : Text} (hu : u.IsClosed) :
    (commas (u ++ (v ++ w))).filter
        (fun c => decide (u.length ≤ c.start ∧ c.stop ≤ u.length + v.length)) =
      commasFrom .top u.length v := by
  -- The commas of the three parts are told apart by where they stand.
  have hleft : (commasFrom .top 0 u).filter
      (fun c => decide (u.length ≤ c.start ∧ c.stop ≤ u.length + v.length)) = [] := by
    rw [List.filter_eq_nil_iff]
    intro c hc
    have hbounds := bounds_of_mem_commasFrom hc
    simp only [decide_eq_true_eq]
    omega
  have hmiddle : (commasFrom .top u.length v).filter
      (fun c => decide (u.length ≤ c.start ∧ c.stop ≤ u.length + v.length)) =
        commasFrom .top u.length v := by
    rw [List.filter_eq_self]
    intro c hc
    have hbounds := bounds_of_mem_commasFrom hc
    simp only [decide_eq_true_eq]
    omega
  have hright : (commasFrom (scan .top v) (u.length + v.length) w).filter
      (fun c => decide (u.length ≤ c.start ∧ c.stop ≤ u.length + v.length)) = [] := by
    rw [List.filter_eq_nil_iff]
    intro c hc
    have hbounds := bounds_of_mem_commasFrom hc
    simp only [decide_eq_true_eq]
    omega
  rw [commas_append_append hu, List.filter_append, List.filter_append, hleft, hmiddle, hright,
    List.nil_append, List.append_nil]

/-- A stretch that starts at the top level of a text has the commas that stand in it there, and they
cut it into its pieces. -/
theorem commas_slice {t : Text} {s : Span} (hle : s.start ≤ s.stop) (hstop : s.stop ≤ t.length)
    (hclosed : Text.IsClosed (t.take s.start)) :
    (commas (s.slice t)).map (Span.map (· + s.start)) =
        (commas t).filter (fun c => decide (s.start ≤ c.start ∧ c.stop ≤ s.stop)) ∧
      rawItems (s.slice t) = piecesBetween (t.take s.stop) s.start
        ((commas t).filter fun c => decide (s.start ≤ c.start ∧ c.stop ≤ s.stop)) := by
  have hfront : (t.take s.start).length = s.start := List.length_take_of_le (hle.trans hstop)
  have hinside : (commas t).filter (fun c => decide (s.start ≤ c.start ∧ c.stop ≤ s.stop)) =
      commasFrom .top s.start (s.slice t) := by
    have hfilter := filter_commas_eq_commasFrom (v := s.slice t) (w := t.drop s.stop) hclosed
    rwa [Span.take_append_slice_append_drop hle, hfront, Span.length_slice hstop,
      Nat.add_sub_cancel' hle] at hfilter
  have hpieces := piecesBetween_commas .top none (t.take s.start) (s.slice t)
    (Nat.le_of_eq hfront.symm)
  have hdrop : (t.take s.start).drop s.start = [] :=
    List.drop_eq_nil_of_le (Nat.le_of_eq hfront)
  rw [map_topLevelFrom_eq_commasFrom, hfront, Span.take_append_slice hle, hdrop] at hpieces
  rw [hinside]
  refine ⟨?_, ?_⟩
  · rw [commas_eq_commasFrom, ← commasFrom_add, Nat.zero_add]
  · obtain ⟨piece, pieces, hraw⟩ :=
      List.exists_cons_of_ne_nil (rawItemsFrom_ne_nil .top (s.slice t))
    rw [hpieces, hraw, List.modifyHead_cons, List.nil_append, rawItems, hraw]

/-! ## Items -/

/-- Blanks in front of a list do not change its items. -/
theorem items_blank_append {ws : Text} (hws : ∀ c ∈ ws, isBlank c = true) (v : Text) :
    items (ws ++ v) = items v := by
  -- The blanks become part of the first piece.
  have hpieces : rawItems (ws ++ v) = (rawItems v).modifyHead (ws ++ ·) := by
    induction ws with
    | nil => exact (congrFun List.modifyHead_id (rawItems v)).symm
    | cons c ws ih =>
      have hc : isBlank c = true := hws c List.mem_cons_self
      have hcomma : c ≠ ',' := by
        rintro rfl
        exact absurd hc (by decide)
      have hrest := ih fun d hd => hws d (List.mem_cons_of_mem c hd)
      rw [rawItems] at hrest
      rw [rawItems, List.cons_append, rawItemsFrom_cons, if_neg (by simp [hcomma]),
        ScanState.step_of_not_mark (isScanMark_of_isBlank hc), hrest, List.modifyHead_modifyHead]
      rfl
  obtain ⟨piece, pieces, hv⟩ := List.exists_cons_of_ne_nil (rawItemsFrom_ne_nil .top v)
  rw [items, hpieces, items, rawItems, hv, List.modifyHead_cons,
    fragments_cons_congr (Text.trim_blank_append hws piece)]

/-- The items of two lists with a comma and blanks between them are those of the two lists. -/
theorem items_append {u : Text} (hu : u.IsClosed) {ws : Text} (hws : ∀ c ∈ ws, isBlank c = true)
    (v : Text) : items (u ++ (',' :: ws ++ v)) = items u ++ items v := by
  rw [List.cons_append, items, rawItems, rawItemsFrom_append hu, fragments_append, ← items,
    items_blank_append hws]
  rfl

/-- An item has no comma at its top level. -/
theorem commas_eq_nil_of_mem_items {t f : Text} (hf : f ∈ items t) : commas f = [] := by
  rw [items, rawItems_eq] at hf
  obtain ⟨⟨piece, hpiece, rfl⟩, -⟩ := mem_fragments.1 hf
  obtain ⟨u, v, ht, -, hu, -, haside⟩ := exists_of_mem_piecesBetween (isCutting_commas t)
    (fun _ _ => Nat.zero_le _) (Nat.zero_le _) hpiece
  have hclosed := (isCutting_commas t).isClosed_front ht hu
  obtain ⟨ws, ws', hws, -, htrim⟩ := piece.exists_trim_eq
  refine List.eq_nil_iff_forall_not_mem.2 fun s hs => ?_
  obtain ⟨a, b, hab, ha, -⟩ := mem_commas.1 hs
  -- A comma of the item is one of the list, and none of these touches the piece.
  have hcomma : ⟨(u ++ (ws ++ a)).length, (u ++ (ws ++ a)).length + 1⟩ ∈ commas t := by
    refine mem_commas.2 ⟨u ++ (ws ++ a), b ++ (ws' ++ v), ?_, ?_, rfl⟩
    · rw [ht]
      conv_lhs => rw [htrim, hab]
      simp only [List.append_assoc, List.cons_append]
    · rw [Text.IsClosed, scan_append, hclosed.scan_eq, scan_append, scan_of_blank hws, ha.scan_eq]
  have hlen := congrArg List.length htrim
  rw [hab] at hlen
  have hplace := haside _ hcomma
  simp only [List.length_append, List.length_cons] at hlen hplace
  omega

theorem items_of_mem_items {t f : Text} (hf : f ∈ items t) : items f = [f] := by
  obtain ⟨⟨piece, -, rfl⟩, hne⟩ := mem_fragments.1 hf
  rw [items, rawItems_eq]
  exact (fragments_eq_singleton_iff (isCutting_commas _) (Text.trim_trim piece) hne).2
    (commas_eq_nil_of_mem_items hf)

/-- All items but the last one end at the top level. -/
theorem isClosed_of_mem_dropLast_items {t f : Text} (hf : f ∈ (items t).dropLast) :
    f.IsClosed := by
  rw [items, rawItems_eq] at hf
  exact isClosed_of_mem_dropLast_fragments (isClosed_of_mem_dropLast_pieces (isCutting_commas t)
    (fun _ _ => Nat.zero_le _) rfl) f hf

/-- The commas at the top level cut a list into pieces, and they join the pieces to the list again.
The items are the pieces, trimmed and without the blank ones. Each of them is a list of this one
item, and they are the items of the list that they are joined to by commas, with a space behind or
without one. -/
theorem items_partition (t : Text) :
    Text.joinWith [','] (piecesBetween t 0 (commas t)) = t ∧
      items t = fragments (piecesBetween t 0 (commas t)) ∧
      (∀ f ∈ items t, items f = [f]) ∧
      items (Text.joinWith [','] (items t)) = items t ∧
      items (Text.joinWith ", ".toList (items t)) = items t := by
  have hgap : ∀ cut ∈ commas t, cut.slice t = [','] := by
    intro cut hcut
    obtain ⟨u, v, rfl, -, rfl⟩ := mem_commas.1 hcut
    exact Span.slice_of_eq_append (m := [',']) rfl rfl rfl
  have hjoin : ∀ ws : Text, (∀ c ∈ ws, isBlank c = true) →
      items (Text.joinWith (',' :: ws) (items t)) = items t := fun ws hws =>
    split_joinWith rfl (fun u v hu => items_append hu hws v) (fun f hf => items_of_mem_items hf)
      fun f hf => isClosed_of_mem_dropLast_items hf
  exact ⟨joinWith_piecesBetween (isCutting_commas t) (fun _ _ => Nat.zero_le _) hgap,
    by rw [items, rawItems_eq], fun f hf => items_of_mem_items hf, hjoin [] (by simp),
    hjoin [' '] (by decide)⟩

end LooseSql
