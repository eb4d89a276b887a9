import LooseSql.Proofs.Clause.Suffix

/-!
# The condition of a front

A text that starts with a front may go on in many ways. As long as it goes on with blanks and then
with a keyword that ends a condition, or not at all, its condition is the one of the front
(`GoesOn.condition_eq`). A statement goes on so behind its front, and so does a statement with a new
order.
-/

namespace LooseSql

namespace Head

variable {t : Text} {head : Head}

/-- The text of the condition, from the stretch that it is trimmed from. -/
theorem IsSound.condition?_map_slice (h : head.IsSound t) :
    (head.condition? t).map (·.slice t) =
      ((head.conditionStretch? t).map fun s => (s.slice t).trim).filter fun y => !y.isEmpty := by
  rw [condition?_eq]
  cases hs : head.conditionStretch? t with
  | none => rfl
  | some s =>
    obtain ⟨-, hle, hstop⟩ := h.conditionStretch?_bounds hs
    have hlen : ((s.trim t).slice t).length = (s.trim t).stop - (s.trim t).start :=
      Span.length_slice ((s.stop_trim_le_stop t hle).trans (hstop.trans h.stop_le_length))
    -- The span is empty exactly if its text is.
    have hempty : (s.trim t).isEmpty = ((s.trim t).slice t).isEmpty := by
      rw [Bool.eq_iff_iff, List.isEmpty_iff, ← List.length_eq_zero_iff, hlen, Span.isEmpty,
        decide_eq_true_eq]
      omega
    rw [Option.map_some, Option.map_some, Option.filter_some, Option.filter_some, hempty,
      Span.slice_trim]
    split
    · rw [Option.map_some, Span.slice_trim]
    · rfl

end Head

/-- The text `t` starts with the front `p`. From the place `b` on, behind blanks, it goes on with a
keyword that ends a condition, or not at all. -/
structure GoesOn (t p : Text) (b f : Nat) (head : Head) : Prop where
  /-- The head lies in front of the end of the statement. -/
  sound : head.IsSound t
  /-- FROM is the first one behind the modifiers. -/
  source_eq : head.source? t = some ⟨f, f + 4⟩
  /-- The part in front of the place is a front. -/
  front : IsFront p head.start f
  /-- Blanks stand between the front and the place. -/
  exists_blank : ∃ ws, (∀ c ∈ ws, isBlank c) ∧ t.take b = p ++ ws
  /-- No keyword crosses the place. -/
  cut : IsCut t b
  /-- The place lies inside the statement. -/
  le_stop : b ≤ head.stop
  /-- No condition goes on behind the place. -/
  ends : endBefore t b head.stop conditionEnds = b

namespace IsFront

variable {p : Text} {start f : Nat} (h : IsFront p start f)

include h

/-- The front is a statement by itself. -/
theorem isSound {modifiers : Modifiers} (hstart : 6 ≤ start) :
    (Head.mk start p.length modifiers).IsSound p := by
  have hle := (firstFrom_spec h.source_eq).2
  have hfour := h.source_add_four_le
  have hstatement := isStatement_nil h.body.trimEnd_eq h.body.semicolon_eq
  have hstop := hstatement.statementStop_eq
  rw [List.append_nil] at hstop
  refine ⟨hstart, ?_, hstop.symm⟩
  simp only at hle ⊢
  omega

theorem clausesStart_eq {modifiers : Modifiers} :
    (Head.mk start p.length modifiers).clausesStart p = f + 4 := by
  have hfour := h.source_add_four_le
  have hsource : (Head.mk start p.length modifiers).source? p = some ⟨f, f + 4⟩ := by
    rw [Head.source?, keywordBetween?_eq_firstFrom, h.source_eq, Option.filter_some, if_pos]
    simp only [decide_eq_true_eq]
    omega
  rw [Head.clausesStart, hsource]
  rfl

end IsFront

namespace GoesOn

variable {t p : Text} {b f : Nat} {head : Head} (h : GoesOn t p b f head)

include h

theorem length_le : p.length ≤ b := by
  obtain ⟨ws, -, hsplit⟩ := h.exists_blank
  have hlen := congrArg List.length hsplit
  rw [List.length_take, List.length_append] at hlen
  omega

theorem le_length : b ≤ t.length := h.le_stop.trans h.sound.stop_le_length

theorem clausesStart_eq : head.clausesStart t = f + 4 := by
  rw [Head.clausesStart, h.source_eq]
  rfl

/-- The keywords in front of the place are those of the front. -/
theorem keywordSpans_take {ks : List Keyword} (hks : ArePlain ks) :
    keywordSpans ks .top 0 none (t.take b) = keywordSpans ks .top 0 none p := by
  obtain ⟨ws, hws, hsplit⟩ := h.exists_blank
  rw [hsplit, keywordSpans_append_blank hks p hws]

/-- The end of a clause that starts in the front. -/
theorem endBefore_eq {ks : List Keyword} (hks : ArePlain ks) {a : Nat} (ha : a ≤ p.length) :
    endBefore t a head.stop ks = (firstFrom a (keywordSpans ks .top 0 none p)).elim
      (endBefore t b head.stop ks) (·.start) := by
  rw [endBefore_eq_elim hks h.cut h.le_length (ha.trans h.length_le) h.le_stop,
    h.keywordSpans_take hks]

variable (hword : ∀ word, firstFrom (f + 4) (keywordSpans [.condition] .top 0 none t) = some word →
  word.start < b)

include hword

/-- The first WHERE is the one of the front. -/
theorem firstFrom_condition :
    firstFrom (f + 4) (keywordSpans [.condition] .top 0 none t) =
      firstFrom (f + 4) (keywordSpans [.condition] .top 0 none p) := by
  obtain ⟨others, hspans, -, hothers⟩ :=
    @exists_keywordSpans_eq_take t b [.condition] (by decide) h.cut h.le_length
  rw [hspans, firstFrom_append, h.keywordSpans_take (by decide)] at hword ⊢
  cases hfront : firstFrom (f + 4) (keywordSpans [.condition] .top 0 none p) with
  | some word => rfl
  | none =>
    rw [hfront, Option.none_or] at hword
    rw [Option.none_or, Option.eq_none_iff_forall_ne_some]
    intro word hsome
    exact absurd (hword word hsome) (Nat.not_lt_of_le (hothers word (firstFrom_spec hsome).1))

theorem conditionWord?_eq :
    head.conditionWord? t = (Head.mk head.start p.length head.modifiers).conditionWord? p := by
  have hfour := h.front.source_add_four_le
  have hle := h.length_le
  rw [Head.conditionWord?, Head.conditionWord?, h.clausesStart_eq, h.front.clausesStart_eq,
    keywordBetween?_eq_firstFrom, keywordBetween?_eq_firstFrom, h.firstFrom_condition hword]
  have hoperators : ArePlain Keyword.setOperators := by decide
  rw [h.endBefore_eq hoperators hfour, endBefore_length hoperators hfour]
  cases hw : firstFrom (f + 4) (keywordSpans [.condition] .top 0 none p) with
  | none => rfl
  | some word =>
    rw [Option.filter_some, Option.filter_some]
    -- Either a set operator of the front ends both searches, or none does in front of the place.
    cases firstFrom (f + 4) (keywordSpans Keyword.setOperators .top 0 none p) with
    | some r => rfl
    | none =>
      have hbounds := bounds_of_mem_keywordSpans (by decide) (firstFrom_spec hw).1
      have hb := le_endBefore t h.le_stop Keyword.setOperators
      have hlt : word.start < endBefore t b head.stop Keyword.setOperators := by omega
      have hlt' : word.start < p.length := by omega
      rw [Option.elim_none, Option.elim_none, decide_eq_true hlt, decide_eq_true hlt']

/-- The condition is the one of the front. -/
theorem condition_eq : (head.condition? t).map (·.slice t) =
    ((Head.mk head.start p.length head.modifiers).condition? p).map (·.slice p) := by
  have hle := h.length_le
  have hsound : (Head.mk head.start p.length head.modifiers).IsSound p :=
    h.front.isSound h.sound.le_start
  rw [h.sound.condition?_map_slice, hsound.condition?_map_slice, Head.conditionStretch?,
    Head.conditionStretch?, h.conditionWord?_eq hword]
  congr 1
  cases hw : (Head.mk head.start p.length head.modifiers).conditionWord? p with
  | none => rfl
  | some word =>
    have hbounds := bounds_of_mem_keywordSpans (by decide) (mem_of_keywordBetween? hw).1
    have hstop : word.stop ≤ p.length := by omega
    obtain ⟨ws, hws, hsplit⟩ := h.exists_blank
    have ht : t = p ++ (ws ++ t.drop b) := by
      rw [← List.append_assoc, ← hsplit, List.take_append_drop]
    have hends : ArePlain conditionEnds := by decide
    simp only [Option.map_some, Option.some.injEq]
    rw [h.endBefore_eq hends hstop, endBefore_length hends hstop, h.ends]
    cases hr : firstFrom word.stop (keywordSpans conditionEnds .top 0 none p) with
    | some r =>
      -- The condition ends inside the front.
      have hr' := bounds_of_mem_keywordSpans (by decide) (firstFrom_spec hr).1
      rw [Option.elim_some, Option.elim_some, ht, Span.slice_append_left]
      simp only
      omega
    | none =>
      rw [Option.elim_none, Option.elim_none]
      have hslice : (Span.mk word.stop b).slice t =
          (Span.mk word.stop p.length).slice p ++ ws := by
        rw [Span.slice, Span.slice, ← List.drop_take, hsplit, List.drop_append_of_le_length hstop,
          ← List.drop_take, List.take_length]
      rw [hslice, Text.trim_append_of_blank _ hws]

end GoesOn

/-! ## Statements that go on behind a front -/

/-- A statement goes on behind its front with the part that orders the rows. -/
theorem Head.Selects.goesOn {u : Text} {head : Head} {f : Nat} (h : head.Selects u f) :
    GoesOn u (Text.trimEnd (u.take (head.layout u).suffixStart)) (head.layout u).suffixStart f
      head where
  sound := h.sound
  source_eq := h.source_eq
  front := h.isFront
  exists_blank := by
    obtain ⟨ws, hws, hsplit⟩ :=
      Text.exists_trimEnd_append_blank (u.take (head.layout u).suffixStart)
    exact ⟨ws, hws, hsplit.symm⟩
  cut := h.isCut_suffixStart
  le_stop := h.stop_eq ▸ h.suffixStart_le_length
  ends := h.endBefore_suffixStart

/-- A statement with a new order goes on behind its front with the words ORDER BY. -/
theorem IsReordered.goesOn {p c : Text} {paging hints : Option Text} {start f : Nat}
    (h : IsReordered p c paging hints start f) {head : Head}
    (hsound : head.IsSound (reordered p c paging hints)) (hstart : head.start = start)
    (hstop : head.stop = (reordered p c paging hints).length) :
    GoesOn (reordered p c paging hints) p (p.length + 1) f head := by
  obtain ⟨y, hsplit, hafter⟩ : ∃ y, reordered p c paging hints = (p ++ [' ']) ++ y ∧
      Keyword.after? .orderBy (p ++ [' ']).getLast? y =
        some (' ' :: c ++ kept paging ++ kept hints) := by
    refine ⟨"ORDER BY".toList ++ (' ' :: c ++ kept paging ++ kept hints), ?_, ?_⟩
    · simp [reordered]
    · rw [List.getLast?_concat]
      rfl
  have hlen : (p ++ [' ']).length = p.length + 1 := List.length_append
  have hclosed : Text.IsClosed (p ++ [' ']) := by
    rw [Text.IsClosed, scan_append, h.front.body.closed.scan_eq]
    rfl
  have hle := length_reordered p c paging hints
  have hsource := h.source?_eq hstart hstop
  -- The new clause starts where a keyword can start, and it ends the condition there.
  have hcut : IsCut (reordered p c paging hints) (p.length + 1) := by
    rw [hsplit, ← hlen]
    exact isCut_append (seam_of_after? (by decide) hafter)
  have hends : endBefore (reordered p c paging hints) (p.length + 1) head.stop conditionEnds =
      p.length + 1 := by
    rw [hsplit, ← hlen]
    exact endBefore_of_after? (by decide) (by decide) hclosed hafter (by omega)
  refine ⟨hsound, hsource, hstart ▸ h.front, ⟨[' '], by decide, ?_⟩, hcut, by omega, hends⟩
  rw [hsplit, ← hlen, List.take_left]

/-- The first WHERE of a statement with a new order is the one of its front, if the clauses that are
kept hold none. -/
theorem IsReordered.start_lt_of_condition {p c : Text} {paging hints : Option Text} {start f : Nat}
    (h : IsReordered p c paging hints start f)
    (hkept : firstFrom (f + 4) (keywordSpans [.condition] .top 0 none p) = none →
      (∀ y ∈ paging, keywordSpans [.condition] .top 0 none y = []) ∧
        ∀ y ∈ hints, keywordSpans [.condition] .top 0 none y = [])
    {word : Span} (hword : firstFrom (f + 4) (keywordSpans [.condition] .top 0 none
      (reordered p c paging hints)) = some word) : word.start < p.length + 1 := by
  have horder : keywordSpans [.condition] .top 0 none "ORDER BY".toList = [] := by decide
  rw [h.keywordSpans_eq (by decide)] at hword
  simp only [firstFrom_append] at hword
  -- A WHERE is one of the front, or else one of the clauses that were kept.
  cases hfront : firstFrom (f + 4) (keywordSpans [.condition] .top 0 none p) with
  | some r =>
    rw [hfront] at hword
    obtain rfl : r = word := by simpa using hword
    have hbounds := bounds_of_mem_keywordSpans (by decide) (firstFrom_spec hfront).1
    omega
  | none =>
    obtain ⟨hpaging, hhints⟩ := hkept hfront
    rw [hfront, horder, IsReordered.firstFrom_list h.orderList (by decide),
      keptSpans_eq_nil _ hpaging, keptSpans_eq_nil _ hhints] at hword
    simp at hword

/-- A statement keeps its condition in a new order, if WHERE stands in front of the old one. -/
theorem Head.Selects.condition_reordered {u c : Text} {head head' : Head} {f : Nat}
    (h : head.Selects u f) (hc : IsOrderList c) {v : Text}
    (hv : v = reordered (Text.trimEnd (u.take (head.layout u).suffixStart)) c
      ((head.layout u).paging.map (·.slice u)) ((head.layout u).hints.map (·.slice u)))
    (hsound : head'.IsSound v) (hstart : head'.start = head.start) (hstop : head'.stop = v.length)
    (hmodifiers : head'.modifiers = head.modifiers)
    (hword : ∀ word, firstFrom (f + 4) (keywordSpans [.condition] .top 0 none u) = some word →
      word.start < (head.layout u).suffixStart) :
    (head'.condition? v).map (·.slice v) = (head.condition? u).map (·.slice u) := by
  subst hv
  have hreordered := h.isReordered hc
  have hgoesOn := hreordered.goesOn hsound hstart hstop
  have hfirst := h.goesOn.firstFrom_condition hword
  -- A WHERE of a clause that is kept would be one of the statement.
  have hkept : firstFrom (f + 4) (keywordSpans [.condition] .top 0 none
      (Text.trimEnd (u.take (head.layout u).suffixStart))) = none →
      ∀ s, s ∈ head.paging? u ∨ s ∈ (head.layout u).hints →
        keywordSpans [.condition] .top 0 none (s.slice u) = [] := by
    intro hnone s hs
    rw [hnone, firstFrom_eq_none_iff] at hfirst
    rw [List.eq_nil_iff_forall_not_mem]
    intro q hq
    obtain ⟨n, hn, hmem⟩ := h.mem_keywordSpans_of_kept (by decide) hs hq
    have hlt := hfirst _ hmem
    simp only [Span.map] at hlt
    omega
  have hword' := fun word => @IsReordered.start_lt_of_condition _ _ _ _ _ _ hreordered
    (fun hnone => by
      constructor <;> intro y hy <;> obtain ⟨s, hs, rfl⟩ := Option.map_eq_some_iff.1 hy
      · exact hkept hnone s (Or.inl hs)
      · exact hkept hnone s (Or.inr hs)) word
  rw [h.goesOn.condition_eq hword, hgoesOn.condition_eq hword', hstart, hmodifiers]

end LooseSql
