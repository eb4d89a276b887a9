import LooseSql.Proofs.Clause.Bounds

/-!
# Changes of places

Two texts may hold the same clauses at different places. `Carries t t' stands f` says what has to be
known of such a change `f` of places: the keywords of `t'` are those of `t`, carried along by `f`,
up to others behind all places in question, and trimming cuts out the same.

* `Carries.layout_map`: the clauses are functions of just these, so each of them is carried along,
  and so is the layout as a whole;
* `Layout.locate?_append`: what follows the first statement of a text does not matter to it.
-/

namespace LooseSql

/-- The text `t'` looks like the text `t` after the change `f` of places, as far as the places in
`stands` go: all keywords of `t` stand there, in the same order, and trimming is the same. -/
structure Carries (t t' : Text) (stands : Nat → Prop) (f : Nat → Nat) : Prop where
  /-- The keywords are carried along. Others may stand behind all places in question. -/
  spans : ∀ ks, ArePlain ks → ∃ others,
    keywordSpans ks .top 0 none t' = (keywordSpans ks .top 0 none t).map (Span.map f) ++ others ∧
      ∀ r ∈ others, ∀ n, stands n → f n ≤ r.start
  /-- The keywords start and end at the places in question. -/
  stands_spans : ∀ ks, ArePlain ks → ∀ r ∈ keywordSpans ks .top 0 none t,
    stands r.start ∧ stands r.stop
  /-- The order of the places stays. -/
  le_iff : ∀ i j, stands i → stands j → (f i ≤ f j ↔ i ≤ j)
  /-- The trimmed spans are carried along. -/
  trim : ∀ s : Span, stands s.start → stands s.stop → s.start ≤ s.stop → s.stop ≤ t.length →
    (s.map f).trim t' = (s.trim t).map f
  /-- The trimmed spans start and end at the places in question. -/
  stands_trim : ∀ s : Span, stands s.start → stands s.stop → s.start ≤ s.stop →
    s.stop ≤ t.length → stands (s.trim t).start ∧ stands (s.trim t).stop

/-- The head with every place under `f`. -/
def Head.map (f : Nat → Nat) (head : Head) : Head :=
  { start := f head.start, stop := f head.stop, modifiers := head.modifiers }

namespace Carries

variable {t t' : Text} {stands : Nat → Prop} {f : Nat → Nat} {a b : Nat}

theorem lt_iff (h : Carries t t' stands f) (ha : stands a) (hb : stands b) :
    f a < f b ↔ a < b := by
  rw [← Nat.not_le, ← Nat.not_le, h.le_iff b a hb ha]

/-- The first keyword between two places is carried along, whichever keywords are looked for. -/
theorem search (h : Carries t t' stands f) {ks : List Keyword} (hks : ArePlain ks) (ha : stands a)
    (hb : stands b) :
    (findAnyKeyword t' (f a) ks).filter (fun word => decide (word.start < f b)) =
      ((findAnyKeyword t a ks).filter fun word => decide (word.start < b)).map (Span.map f) := by
  obtain ⟨others, hspans, hothers⟩ := h.spans ks hks
  have hstands : ∀ r ∈ keywordSpans ks .top 0 none t, stands r.start := fun r hr =>
    (h.stands_spans ks hks r hr).1
  rw [findAnyKeyword_eq, findAnyKeyword_eq, hspans, List.find?_append]
  generalize keywordSpans ks .top 0 none t = l at hstands
  induction l with
  | nil =>
    -- What stands behind all places in question is cut off by the limit of the search.
    rw [List.map_nil, List.find?_nil, Option.none_or, List.find?_nil, Option.filter_none,
      Option.map_none, Option.filter_eq_none_iff]
    intro r hr
    have hle := hothers r (List.mem_of_find?_eq_some hr) b hb
    simpa using hle
  | cons r l ih =>
    have hr := hstands r (by simp)
    have hle : f a ≤ f r.start ↔ a ≤ r.start := h.le_iff a r.start ha hr
    have hlt : f r.start < f b ↔ r.start < b := h.lt_iff hr hb
    have hmap : (r.map f).start = f r.start := rfl
    rw [List.map_cons, List.find?_cons, List.find?_cons, hmap]
    -- The span is past the start in both texts or in neither, and likewise past the limit.
    by_cases hstart : a ≤ r.start
    · rw [decide_eq_true hstart, decide_eq_true (hle.2 hstart), Option.some_or,
        Option.filter_some, Option.filter_some, hmap]
      by_cases hend : r.start < b
      · simp [hend, hlt.2 hend]
      · simp [hend, hlt]
    · simpa [hstart, hle] using ih fun r hr => hstands r (by simp [hr])

/-- A keyword between two places is carried along. -/
theorem keywordBetween? (h : Carries t t' stands f) {k : Keyword} (hk : k.IsPlain) (ha : stands a)
    (hb : stands b) : LooseSql.keywordBetween? t' (f a) (f b) k =
      (LooseSql.keywordBetween? t a b k).map (Span.map f) := by
  rw [LooseSql.keywordBetween?, LooseSql.keywordBetween?, findKeyword_eq_findAnyKeyword,
    findKeyword_eq_findAnyKeyword]
  exact h.search (by simpa [ArePlain] using hk) ha hb

theorem stands_keywordBetween? (h : Carries t t' stands f) {k : Keyword} (hk : k.IsPlain)
    {r : Span} (hr : LooseSql.keywordBetween? t a b k = some r) :
    stands r.start ∧ stands r.stop :=
  h.stands_spans [k] (by simpa [ArePlain] using hk) r (mem_of_keywordBetween? hr).1

/-- The end of a clause is carried along. -/
theorem endBefore (h : Carries t t' stands f) {ks : List Keyword} (hks : ArePlain ks)
    (ha : stands a) (hb : stands b) :
    LooseSql.endBefore t' (f a) (f b) ks = f (LooseSql.endBefore t a b ks) ∧
      stands (LooseSql.endBefore t a b ks) := by
  refine ⟨?_, ?_⟩
  · rw [LooseSql.endBefore, LooseSql.endBefore, h.search hks ha hb]
    cases (findAnyKeyword t a ks).filter fun word => decide (word.start < b) <;> rfl
  · rcases endBefore_eq_or t a b ks with heq | ⟨r, hr, -, -, heq⟩
    · rwa [heq]
    · rw [heq]
      exact (h.stands_spans ks hks r hr).1

/-- A trimmed stretch is carried along if the stretch is. -/
theorem trim_map (h : Carries t t' stands f) {s s' : Option Span}
    (hs' : s' = s.map (Span.map f))
    (hs : ∀ r, s = some r →
      stands r.start ∧ stands r.stop ∧ r.start ≤ r.stop ∧ r.stop ≤ t.length) :
    s'.map (Span.trim · t') = (s.map (Span.trim · t)).map (Span.map f) ∧
      ∀ r, s.map (Span.trim · t) = some r → stands r.start ∧ stands r.stop := by
  subst hs'
  cases s with
  | none => exact ⟨rfl, by simp⟩
  | some r =>
    obtain ⟨hr₁, hr₂, hle, hlen⟩ := hs r rfl
    refine ⟨by simp [h.trim r hr₁ hr₂ hle hlen], fun r' hr' => ?_⟩
    obtain rfl : r.trim t = r' := by simpa using hr'
    exact h.stands_trim r hr₁ hr₂ hle hlen

section Clauses

variable {head : Head} (h : Carries t t' stands f) (hstart : stands head.start)
  (hstop : stands head.stop)

include h hstart hstop

theorem source? : (head.map f).source? t' = (head.source? t).map (Span.map f) :=
  h.keywordBetween? (by decide) hstart hstop

theorem listStop : (head.map f).listStop t' = f (head.listStop t) ∧ stands (head.listStop t) := by
  rw [Head.listStop, Head.listStop, h.source? hstart hstop]
  cases hs : head.source? t with
  | none => exact h.endBefore (by decide) hstart hstop
  | some word => exact ⟨rfl, (h.stands_keywordBetween? (by decide) hs).1⟩

theorem clausesStart :
    (head.map f).clausesStart t' = f (head.clausesStart t) ∧ stands (head.clausesStart t) := by
  rw [Head.clausesStart, Head.clausesStart, h.source? hstart hstop]
  cases hs : head.source? t with
  | none => exact h.listStop hstart hstop
  | some word => exact ⟨rfl, (h.stands_keywordBetween? (by decide) hs).2⟩

theorem conditionWord? :
    (head.map f).conditionWord? t' = (head.conditionWord? t).map (Span.map f) := by
  have hclauses := h.clausesStart hstart hstop
  have hoperators : ArePlain Keyword.setOperators := by decide
  have hlimit := h.endBefore hoperators hclauses.2 hstop
  rw [Head.conditionWord?, Head.conditionWord?, hclauses.1]
  exact hlimit.1 ▸ h.keywordBetween? (by decide) hclauses.2 hlimit.2

theorem hintsWord? : (head.map f).hintsWord? t' = (head.hintsWord? t).map (Span.map f) := by
  have hclauses := h.clausesStart hstart hstop
  rw [Head.hintsWord?, Head.hintsWord?, hclauses.1]
  exact h.keywordBetween? (by decide) hclauses.2 hstop

theorem orderStop :
    (head.map f).orderStop t' = f (head.orderStop t) ∧ stands (head.orderStop t) := by
  rw [Head.orderStop, Head.orderStop, h.hintsWord? hstart hstop]
  cases hw : head.hintsWord? t with
  | none => exact ⟨rfl, hstop⟩
  | some word => exact ⟨rfl, (h.stands_keywordBetween? (by decide) hw).1⟩

theorem orderWords? : (head.map f).orderWords? t' = (head.orderWords? t).map (Span.map f) := by
  have hclauses := h.clausesStart hstart hstop
  have horder := h.orderStop hstart hstop
  rw [Head.orderWords?, Head.orderWords?, hclauses.1, horder.1]
  exact h.keywordBetween? (by decide) hclauses.2 horder.2

variable (hsound : head.IsSound t)

include hsound

theorem condition? : (head.map f).condition? t' = (head.condition? t).map (Span.map f) ∧
    ∀ r, head.condition? t = some r → stands r.start ∧ stands r.stop := by
  have hstretch : (head.map f).conditionStretch? t' =
      (head.conditionStretch? t).map (Span.map f) := by
    rw [Head.conditionStretch?, Head.conditionStretch?, h.conditionWord? hstart hstop]
    cases hw : head.conditionWord? t with
    | none => rfl
    | some word =>
      have hstands := (h.stands_keywordBetween? (by decide) hw).2
      have hends : ArePlain conditionEnds := by decide
      exact congrArg (fun stop => some (Span.mk (f word.stop) stop))
        (h.endBefore hends hstands hstop).1
  have hbounds : ∀ r, head.conditionStretch? t = some r →
      stands r.start ∧ stands r.stop ∧ r.start ≤ r.stop ∧ r.stop ≤ t.length := by
    intro r hr
    obtain ⟨-, hle, hend⟩ := hsound.conditionStretch?_bounds hr
    obtain ⟨word, hw, rfl⟩ := Option.map_eq_some_iff.1 hr
    have hstands := (h.stands_keywordBetween? (by decide) hw).2
    have hends : ArePlain conditionEnds := by decide
    exact ⟨hstands, (h.endBefore hends hstands hstop).2, hle, hend.trans hsound.stop_le_length⟩
  obtain ⟨hmap, hstands⟩ := h.trim_map hstretch hbounds
  rw [Head.condition?_eq, Head.condition?_eq, hmap]
  refine ⟨?_, fun r hr => hstands r (Option.filter_eq_some_iff.1 hr).1⟩
  -- The change of places is strictly increasing, so an empty stretch stays empty.
  cases hr : (head.conditionStretch? t).map (Span.trim · t) with
  | none => rfl
  | some r =>
    obtain ⟨hr₁, hr₂⟩ := hstands r hr
    have hempty : (r.map f).isEmpty = r.isEmpty := by
      simp [Span.isEmpty, Span.map, h.le_iff _ _ hr₂ hr₁]
    rw [Option.map_some, Option.filter_some, Option.filter_some, hempty]
    split <;> rfl

theorem paging? : (head.map f).paging? t' = (head.paging? t).map (Span.map f) ∧
    ∀ r, head.paging? t = some r → stands r.start ∧ stands r.stop := by
  have horder := h.orderStop hstart hstop
  have hstretch : (head.map f).pagingStretch? t' =
      (head.pagingStretch? t).map (Span.map f) := by
    rw [Head.pagingStretch?, Head.pagingStretch?, h.orderWords? hstart hstop]
    cases hw : head.orderWords? t with
    | none => rfl
    | some words =>
      have hstands := (h.stands_keywordBetween? (by decide) hw).2
      have hoffset : Keyword.offset.IsPlain := by decide
      have hword := h.keywordBetween? hoffset hstands horder.2
      rw [Option.map_some, Option.bind_some, Option.bind_some, horder.1,
        show (words.map f).stop = f words.stop from rfl, hword, Option.map_map, Option.map_map]
      rfl
  -- The stretch starts at a keyword and ends where the ORDER BY clause does.
  have hbounds : ∀ r, head.pagingStretch? t = some r →
      stands r.start ∧ stands r.stop ∧ r.start ≤ r.stop ∧ r.stop ≤ t.length := by
    intro r hr
    obtain ⟨words, hwords, hr'⟩ := Option.bind_eq_some_iff.1 hr
    obtain ⟨-, hle, hend⟩ := hsound.pagingStretch?_bounds hwords hr
    obtain ⟨word, hword, rfl⟩ := Option.map_eq_some_iff.1 hr'
    exact ⟨(h.stands_keywordBetween? (by decide) hword).1, horder.2, hle,
      hsound.orderStop_le_stop.trans hsound.stop_le_length⟩
  rw [Head.paging?_eq, Head.paging?_eq]
  exact h.trim_map hstretch hbounds

theorem orderList? : (head.map f).orderList? t' = (head.orderList? t).map (Span.map f) ∧
    ∀ r, head.orderList? t = some r → stands r.start ∧ stands r.stop := by
  obtain ⟨hpaging, hstands⟩ := h.paging? hstart hstop hsound
  have horder := h.orderStop hstart hstop
  have hstretch : (head.map f).orderListStretch? t' =
      (head.orderListStretch? t).map (Span.map f) := by
    rw [Head.orderListStretch?, Head.orderListStretch?, h.orderWords? hstart hstop, hpaging,
      horder.1]
    cases head.orderWords? t with
    | none => rfl
    | some words => cases head.paging? t <;> rfl
  -- The stretch starts behind a keyword and ends at the paging clause or where the ORDER BY clause
  -- does.
  have hbounds : ∀ r, head.orderListStretch? t = some r →
      stands r.start ∧ stands r.stop ∧ r.start ≤ r.stop ∧ r.stop ≤ t.length := by
    intro r hr
    obtain ⟨words, hwords, -⟩ := Option.map_eq_some_iff.1 hr
    obtain ⟨hfirst, hle, hlast, hend⟩ := hsound.orderListStretch?_bounds hwords hr
    refine ⟨?_, ?_, hle, hend.trans (hsound.orderStop_le_stop.trans hsound.stop_le_length)⟩
    · rw [hfirst]
      exact (h.stands_keywordBetween? (by decide) hwords).2
    · rw [hlast]
      cases hp : head.paging? t with
      | none => exact horder.2
      | some p => exact (hstands p hp).1
  rw [Head.orderList?_eq, Head.orderList?_eq]
  exact h.trim_map hstretch hbounds

theorem hints : ((head.map f).layout t').hints = (head.layout t).hints.map (Span.map f) ∧
    ∀ r, (head.layout t).hints = some r → stands r.start ∧ stands r.stop := by
  have hstretch : (head.map f).hintsStretch? t' = (head.hintsStretch? t).map (Span.map f) := by
    rw [Head.hintsStretch?, Head.hintsStretch?, h.hintsWord? hstart hstop]
    cases head.hintsWord? t <;> rfl
  have hbounds : ∀ r, head.hintsStretch? t = some r →
      stands r.start ∧ stands r.stop ∧ r.start ≤ r.stop ∧ r.stop ≤ t.length := by
    intro r hr
    obtain ⟨-, hle, hlast⟩ := hsound.hintsStretch?_bounds hr
    obtain ⟨word, hword, rfl⟩ := Option.map_eq_some_iff.1 hr
    exact ⟨(h.stands_keywordBetween? (by decide) hword).1, hstop, hle, hsound.stop_le_length⟩
  rw [Head.hints_eq, Head.hints_eq]
  exact h.trim_map hstretch hbounds

theorem list : ((head.map f).layout t').list = (head.layout t).list.map f ∧
    stands (head.layout t).list.start ∧ stands (head.layout t).list.stop := by
  have hstretch := h.listStop hstart hstop
  have hle := hsound.start_le_listStop
  have hlen := hsound.listStop_le_stop.trans hsound.stop_le_length
  have htrim := h.trim ⟨head.start, head.listStop t⟩ hstart hstretch.2 hle hlen
  refine ⟨?_, h.stands_trim ⟨head.start, head.listStop t⟩ hstart hstretch.2 hle hlen⟩
  rw [Head.layout, hstretch.1]
  exact htrim

/-- The layout of a statement is carried along with its head. -/
theorem layout_map : (head.map f).layout t' = (head.layout t).map f := by
  have hlist := (h.list hstart hstop hsound).1
  have hsource := h.source? hstart hstop
  have hcondition := (h.condition? hstart hstop hsound).1
  have horder := h.orderWords? hstart hstop
  have horderList := (h.orderList? hstart hstop hsound).1
  have hpaging := (h.paging? hstart hstop hsound).1
  have hhints := (h.hints hstart hstop hsound).1
  simp only [Head.layout] at hlist hhints
  simp only [Head.layout, Layout.map, hlist, hhints, hsource, hcondition, horder, horderList,
    hpaging, Option.map_map]
  rfl

/-- All places of the layout are among those in question. -/
theorem stands_of_mem_places {n : Nat} (hn : n ∈ (head.layout t).places) : stands n := by
  have hspan : ∀ span : Option Span, (∀ r, span = some r → stands r.start ∧ stands r.stop) →
      n ∈ Layout.endsOf span → stands n := by
    intro span hspan hn
    obtain ⟨r, hr, rfl | rfl⟩ := Layout.mem_endsOf.1 hn
    · exact (hspan r hr).1
    · exact (hspan r hr).2
  have hword : ∀ word : Option Span, (∀ r, word = some r → stands r.start) →
      n ∈ word.map (·.start) → stands n := by
    intro word hword hn
    obtain ⟨r, hr, rfl⟩ := Option.map_eq_some_iff.1 hn
    exact hword r hr
  -- Each place is the end of a span or the start of a word, and those have been followed one by
  -- one.
  have hlist := (h.list hstart hstop hsound).2
  simp only [Layout.places, Layout.suffixPlaces, List.mem_append, List.mem_cons,
    List.not_mem_nil, or_false, Option.mem_toList] at hn
  rcases hn with ((((rfl | rfl) | hn) | hn) | ((hn | hn) | hn) | hn) | rfl
  · exact hlist.1
  · exact hlist.2
  · exact hword _ (fun r hr => (h.stands_keywordBetween? (by decide) hr).1) hn
  · exact hspan _ (h.condition? hstart hstop hsound).2 hn
  · exact hword _ (fun r hr => (h.stands_keywordBetween? (by decide) hr).1) hn
  · exact hspan _ (h.orderList? hstart hstop hsound).2 hn
  · exact hspan _ (h.paging? hstart hstop hsound).2 hn
  · exact hspan _ (h.hints hstart hstop hsound).2 hn
  · exact hstop

end Clauses

end Carries

/-! ## The text behind a statement -/

/-- A statement is carried along without a change when text is put behind it. -/
theorem carries_append {u w : Text} (h : Seam u w) :
    Carries u (u ++ w) (· ≤ u.length) id where
  spans := by
    intro ks hks
    refine ⟨_, by rw [keywordSpans_append hks h, Span.map_id, List.map_id], ?_⟩
    intro r hr n hn
    have hbounds := (bounds_of_mem_keywordSpans hks hr).1
    exact hn.trans (by omega)
  stands_spans := by
    intro ks hks r hr
    have hbounds := bounds_of_mem_keywordSpans hks hr
    omega
  le_iff := fun _ _ _ _ => Iff.rfl
  trim := by
    intro s _ hstop _ _
    rw [Span.map_id]
    exact Span.trim_congr (Span.slice_append_left hstop w)
  stands_trim := by
    intro s _ hstop hle _
    -- Trimming goes inwards, so both ends stay in front of `w`.
    have hend := s.stop_trim_le_stop u hle
    have hstart := s.start_trim_le_stop_trim u
    omega

/-- The layout of a text is the layout of its first statement: what follows the statement does not
matter. -/
theorem Layout.locate?_append {u w : Text} (h : IsStatement u w) :
    Layout.locate? (u ++ w) = Layout.locate? u := by
  rw [Layout.locate?, Layout.locate?, Head.locate?_append h]
  cases hhead : Head.locate? u with
  | none => rfl
  | some head =>
    have hsound := Head.isSound_of_locate? hhead
    have hstart : head.start ≤ u.length := hsound.start_le_stop.trans hsound.stop_le_length
    -- Behind the statement nothing moves, so the map of places is the identity.
    have hmap := (carries_append h.seam).layout_map hstart hsound.stop_le_length hsound
    rw [Option.map_some, Option.map_some, ← Layout.map_id (head.layout u), ← hmap]
    rfl

end LooseSql
