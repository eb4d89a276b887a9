import LooseSql.Proofs.Normalize
import LooseSql.Proofs.Selection.Basic

/-!
# What follows the first statement

Only the first statement of a text is looked at. A text that is closed and has a semicolon behind it
holds its first statement whole (`exists_isStatement_append`), so what stands behind the semicolon
changes nothing in the layout (`locate?_semicolon`). It is carried along: each variant of the longer
text is the variant of the shorter one with the same rest behind it (`Selection.Extends`).
-/

namespace LooseSql

/-! ## The first statement of a closed text -/

/-- The first statement of a closed text stays when a semicolon and more text follow. -/
theorem exists_isStatement_append {s : Text} (hs : s.IsClosed) :
    ∃ u x : Text, s = u ++ x ∧ ∀ r, IsStatement u (x ++ ';' :: r) := by
  cases h : semicolonFrom? .top 0 s with
  | none =>
    -- The whole text is the statement, its trailing blanks apart.
    obtain ⟨ws, hws, hsplit⟩ := Text.exists_trimEnd_append_blank s
    exact ⟨_, ws, hsplit.symm, fun r => isStatement_trimEnd hsplit hws h (.inr ⟨r, rfl, hs⟩)⟩
  | some n =>
    -- The statement ends at a semicolon of the text itself.
    obtain ⟨v, r', rfl, -, hclosed, hnone⟩ := exists_of_semicolonFrom? h
    obtain ⟨ws, hws, hsplit⟩ := Text.exists_trimEnd_append_blank v
    refine ⟨v.trimEnd, ws ++ ';' :: r', by rw [← List.append_assoc, hsplit], fun r => ?_⟩
    rw [List.append_assoc, List.cons_append]
    exact isStatement_trimEnd hsplit hws hnone (.inr ⟨_, rfl, hclosed⟩)

/-! ## Layouts -/

namespace Layout

/-- Byte offsets in the first part of a text do not depend on the second part. -/
theorem inBytes_append {u : Text} {layout : Layout} (hordered : layout.Ordered)
    (hstop : layout.stop ≤ u.length) (w : Text) : layout.inBytes (u ++ w) = layout.inBytes u := by
  refine map_congr fun n hn => ?_
  rw [Text.byteOffset, Text.byteOffset,
    List.take_append_of_le_length ((hordered.le_stop n hn).trans hstop)]

/-- The layout of a text, in places and in bytes, is the one of its first statement. -/
theorem locate?_inBytes_append {u w : Text} (h : IsStatement u w) :
    (locate? (u ++ w)).map (·.inBytes (u ++ w)) = (locate? u).map (·.inBytes u) := by
  rw [locate?_append h, locate?]
  cases hhead : Head.locate? u with
  | none => rfl
  | some head =>
    have hsound := Head.isSound_of_locate? hhead
    exact congrArg some (inBytes_append hsound.ordered_layout hsound.stop_le_length w)

/-- What stands behind a semicolon at the top level does not matter to the layout. -/
theorem locate?_semicolon {s : Text} (hs : s.IsClosed) (r₁ r₂ : Text) :
    locate? (s ++ ';' :: r₁) = locate? (s ++ ';' :: r₂) ∧
      (locate? (s ++ ';' :: r₁)).map (·.inBytes (s ++ ';' :: r₁)) =
        (locate? (s ++ ';' :: r₂)).map (·.inBytes (s ++ ';' :: r₂)) := by
  obtain ⟨u, x, rfl, hstatement⟩ := exists_isStatement_append hs
  rw [List.append_assoc, List.append_assoc]
  constructor
  · rw [locate?_append (hstatement r₁), locate?_append (hstatement r₂)]
  · rw [locate?_inBytes_append (hstatement r₁), locate?_inBytes_append (hstatement r₂)]

end Layout

/-! ## Variants -/

namespace Selection

/-- The selection `b` is the selection `a` with the text `w` behind it. -/
structure Extends (a b : Selection) (w : Text) : Prop where
  /-- The text goes on with `w`. -/
  text_eq : b.text = a.text ++ w
  /-- The clauses stand where they stood. -/
  layout_eq : b.layout = a.layout
  /-- The word FROM stands where it stood. -/
  sourceStart_eq : b.sourceStart = a.sourceStart
  /-- The statement ends where the shorter text does. -/
  stop_eq : a.layout.stop = a.text.length

namespace Extends

variable {a b : Selection} {w : Text} (h : a.Extends b w)

include h

theorem le_length {n : Nat} (hn : n ∈ a.layout.places) : n ≤ a.text.length :=
  h.stop_eq ▸ a.ordered.le_stop n hn

theorem slice_eq {span : Span} (hspan : some span ∈ a.layout.clauses) :
    span.slice b.text = span.slice a.text := by
  rw [h.text_eq]
  exact Span.slice_append_left
    (h.le_length (Layout.mem_places_of_mem_clauses hspan (by simp [Layout.endsOf]))) w

theorem list_eq : b.list = a.list := by
  rw [Statement.list, Statement.list, h.layout_eq]
  exact h.slice_eq (by simp [Layout.clauses])

theorem fromSource_eq : b.fromSource = a.fromSource ++ w := by
  have hle : a.sourceStart ≤ a.text.length :=
    h.le_length (by simp [Layout.places, a.source_eq])
  rw [fromSource, h.text_eq, h.sourceStart_eq, List.drop_append_of_le_length hle, fromSource]

theorem body_eq : b.body = a.body := by
  rw [body, body, h.layout_eq, h.text_eq, List.take_append_of_le_length (Nat.le_of_eq h.stop_eq)]

theorem remainder_eq : b.remainder = a.remainder ++ w := by
  rw [remainder, remainder, h.layout_eq, h.text_eq,
    List.drop_append_of_le_length (Nat.le_of_eq h.stop_eq)]

theorem toCount_eq : b.toCount = a.toCount ++ w := by
  rw [toCount, toCount, h.layout_eq]
  split
  · rw [h.body_eq, h.remainder_eq, List.append_assoc _ a.remainder]
  · rw [h.fromSource_eq, List.append_assoc]

/-- A new head in front of the list and of the text from FROM on. -/
theorem newHead_eq (pre : Text) : pre ++ b.list ++ [' '] ++ b.fromSource =
    pre ++ a.list ++ [' '] ++ a.fromSource ++ w := by
  rw [h.list_eq, h.fromSource_eq, List.append_assoc _ a.fromSource]

theorem toTop_eq (n : Int) : b.toTop n = a.toTop n ++ w := h.newHead_eq _

theorem toDistinct_eq : b.toDistinct = a.toDistinct ++ w := h.newHead_eq _

theorem toOrderBy_eq (order : Text) : b.toOrderBy order = a.toOrderBy order ++ w := by
  -- Paging and hints are cut out of the part that both texts share.
  have hkept : ∀ span ∈ a.layout.clauses,
      (span.elim [] fun r => ' ' :: r.slice b.text) =
        span.elim [] fun r => ' ' :: r.slice a.text := by
    intro span hspan
    cases span with
    | none => rfl
    | some r => rw [Option.elim_some, Option.elim_some, h.slice_eq hspan]
  have htake : b.text.take a.layout.suffixStart = a.text.take a.layout.suffixStart := by
    rw [h.text_eq, List.take_append_of_le_length (h.stop_eq ▸ a.suffixStart_le)]
  have hpaging := hkept a.layout.paging (by simp [Layout.clauses])
  have hhints := hkept a.layout.hints (by simp [Layout.clauses])
  simp only [toOrderBy, h.layout_eq, htake, h.remainder_eq, List.flatMap_cons, List.flatMap_nil,
    hpaging, hhints, List.append_assoc]

end Extends

/-- A selection in normal form, read by itself and with more text behind its statement. -/
theorem extends_of_ofScript? {s w : Text} (hs : normalize s = s) (hsw : normalize (s ++ w) = s ++ w)
    (h : IsStatement s w) {a b : Selection} (ha : ofScript? s = some a)
    (hb : ofScript? (s ++ w) = some b) : a.Extends b w := by
  have hatext : a.text = s := (text_of_ofScript? ha).trans hs
  have hbtext : b.text = s ++ w := (text_of_ofScript? hb).trans hsw
  -- Both texts have the layout of the statement that they share.
  have hlayout : b.layout = a.layout := by
    have hlocated := b.located
    rw [hbtext, Layout.locate?_append h, ← hatext, a.located] at hlocated
    exact (Option.some.inj hlocated).symm
  have hsource : b.sourceStart = a.sourceStart := by
    have hsource := b.source_eq
    rw [hlayout, a.source_eq] at hsource
    exact (Option.some.inj hsource).symm
  refine ⟨by rw [hbtext, hatext], hlayout, hsource, ?_⟩
  rw [← hlayout, b.stop_eq, hbtext, h.statementStop_eq, hatext]

/-- Whether a text in normal form comes down to a selection is told by its layout. -/
theorem isSome_ofScript?_iff {t : Text} (hnormal : normalize t = t) :
    (ofScript? t).isSome ↔ ∃ layout, Layout.locate? t = some layout ∧ layout.source.isSome ∧
      layout.list.isEmpty = false := by
  constructor
  · intro h
    obtain ⟨a, ha⟩ := Option.isSome_iff_exists.1 h
    have htext : a.text = t := (text_of_ofScript? ha).trans hnormal
    exact ⟨a.layout, htext ▸ a.located, by rw [a.source_eq]; rfl, a.list_nonempty⟩
  · rintro ⟨layout, hlayout, hsource, hlist⟩
    obtain ⟨f, hf⟩ := Option.isSome_iff_exists.1 hsource
    obtain ⟨a, ha, -⟩ := exists_of_locate? hnormal hlayout hf hlist
    rw [ha]
    rfl

/-- What is made of a selection is made of the longer text as well, with the rest behind it. -/
theorem map_ofScript?_append {s w : Text} (hs : normalize s = s)
    (hsw : normalize (s ++ w) = s ++ w) (h : IsStatement s w) {f : Selection → Text}
    (hf : ∀ a b, a.Extends b w → f b = f a ++ w) :
    (ofScript? (s ++ w)).map f = ((ofScript? s).map f).map (· ++ w) := by
  have hiff : (ofScript? (s ++ w)).isSome ↔ (ofScript? s).isSome := by
    rw [isSome_ofScript?_iff hs, isSome_ofScript?_iff hsw, Layout.locate?_append h]
  cases ha : ofScript? s with
  | none =>
    -- The layouts agree, so neither text comes down to a selection.
    rw [ha] at hiff
    rw [Option.not_isSome_iff_eq_none.1 (mt hiff.1 (by simp))]
    rfl
  | some a =>
    rw [ha] at hiff
    obtain ⟨b, hb⟩ := Option.isSome_iff_exists.1 (hiff.2 rfl)
    rw [hb, Option.map_some, hf a b (extends_of_ofScript? hs hsw h ha hb)]
    rfl

end Selection

/-- A text without a semicolon at the top level that is in normal form is a statement, and it stays
one with a semicolon behind it. -/
theorem isStatement_semicolon {s : Text} (hs : s.IsClosed)
    (hsemicolon : ∀ p ∈ topLevel s, p.char ≠ ';') (hnormal : normalize s = s) (r : Text) :
    IsStatement s (';' :: r) := by
  have hnone : semicolonFrom? .top 0 s = none := by
    rw [← find?_semicolon_topLevelFrom .top 0 none s, Option.map_eq_none_iff, List.find?_eq_none]
    intro p hp
    simpa using hsemicolon p hp
  have htrim : s.trimEnd = s :=
    (Text.trim_eq_self_iff.1 (IsCanonical.of_normalize hnormal).trim_eq).2
  exact ⟨htrim, hnone, [], ';' :: r, rfl, by simp, .inr ⟨r, rfl, hs⟩⟩

/-- Of a closed text with a semicolon behind it only the first statement is looked at, and what
stands behind the semicolon is carried along. -/
theorem first_statement_only {s : Text} (hs : s.IsClosed) :
    (∀ r₁ r₂ : Text,
      Layout.locate? (s ++ ';' :: r₁) = Layout.locate? (s ++ ';' :: r₂) ∧
      (Layout.locate? (s ++ ';' :: r₁)).map (·.inBytes (s ++ ';' :: r₁)) =
        (Layout.locate? (s ++ ';' :: r₂)).map (·.inBytes (s ++ ';' :: r₂))) ∧
    ∀ r : Text, (∀ p ∈ topLevel s, p.char ≠ ';') → normalize s = s →
      normalize (s ++ ';' :: r) = s ++ ';' :: r →
        toCount? (s ++ ';' :: r) = (toCount? s).map (· ++ ';' :: r) ∧
        (∀ n, toTop? n (s ++ ';' :: r) = (toTop? n s).map (· ++ ';' :: r)) ∧
        toDistinct? (s ++ ';' :: r) = (toDistinct? s).map (· ++ ';' :: r) ∧
        ∀ c, toOrderBy? c (s ++ ';' :: r) = (toOrderBy? c s).map (· ++ ';' :: r) := by
  refine ⟨Layout.locate?_semicolon hs, fun r hsemicolon hnormal hnormal' => ?_⟩
  have hstatement := isStatement_semicolon hs hsemicolon hnormal r
  -- Each variant is made of a selection, and carries along what stands behind the statement.
  have hmap {f : Selection → Text} (hf : ∀ a b, a.Extends b (';' :: r) → f b = f a ++ ';' :: r) :=
    Selection.map_ofScript?_append hnormal hnormal' hstatement hf
  refine ⟨hmap fun _ _ h => h.toCount_eq, fun n => ?_, hmap fun _ _ h => h.toDistinct_eq,
    fun c => ?_⟩
  · rw [toTop?, toTop?]
    split
    · rfl
    · exact hmap fun _ _ h => h.toTop_eq n
  · rw [toOrderBy?, toOrderBy?]
    split
    · rfl
    · exact hmap fun _ _ h => h.toOrderBy_eq (orderListOf c)

/-- Clauses of a second statement stay out of the first, and a quoted semicolon ends nothing. -/
theorem first_statement_only_quoted :
    let s := "SELECT DISTINCT a FROM t WHERE b = ';'".toList
    let r := " SELECT c FROM u UNION SELECT d FROM v ORDER BY d".toList
    Layout.locate? (s ++ ';' :: r) = Layout.locate? (s ++ [';']) ∧
      toTop? 5 (s ++ ';' :: r) =
        some ("SELECT TOP 5 a FROM t WHERE b = ';'".toList ++ ';' :: r) := by
  have hclosed : Text.IsClosed "SELECT DISTINCT a FROM t WHERE b = ';'".toList := by decide +kernel
  obtain ⟨hlocate, hvariants⟩ := first_statement_only hclosed
  have htop := (hvariants " SELECT c FROM u UNION SELECT d FROM v ORDER BY d".toList
    (by decide +kernel) (by decide +kernel) (by decide +kernel)).2.1 5
  refine ⟨(hlocate _ []).1, htop.trans ?_⟩
  have hshort : toTop? 5 "SELECT DISTINCT a FROM t WHERE b = ';'".toList =
      some "SELECT TOP 5 a FROM t WHERE b = ';'".toList := by decide +kernel
  rw [hshort]
  rfl

end LooseSql
