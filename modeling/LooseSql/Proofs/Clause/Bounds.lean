import LooseSql.Proofs.Clause.Head
import LooseSql.Proofs.Text.Offset

/-!
# Bounds of the clauses

The places of a layout are found by searches that know nothing of each other. They are in order all
the same, so every stretch that is cut out of the text lies inside it.

* `Layout.Ordered`: the order of the places, kept by every change of the unit that is strictly
  increasing (`Layout.Ordered.map`);
* `Head.stretches`: the stretches that the clauses are trimmed from, all of them inside the
  statement (`Head.IsSound.stretches_le`);
* `Head.IsSound.ordered_layout`: the layout of a sound head is ordered;
* `Layout.ordered_of_locate?`: the same in places and in bytes, for every text.
-/

namespace LooseSql

theorem Span.map_id : Span.map id = id := rfl

namespace Layout

/-- The two ends of a span that may be missing. -/
def endsOf (span : Option Span) : List Nat := span.elim [] fun s => [s.start, s.stop]

/-- The places of the part that orders the rows, from left to right. -/
def suffixPlaces (layout : Layout) : List Nat :=
  layout.order.toList ++ endsOf layout.orderList ++ endsOf layout.paging ++ endsOf layout.hints

/-- All places of the layout. -/
def places (layout : Layout) : List Nat :=
  [layout.list.start, layout.list.stop] ++ layout.source.toList ++ endsOf layout.condition ++
    layout.suffixPlaces ++ [layout.stop]

/-- The clauses of the layout. All but the list may be missing. -/
def clauses (layout : Layout) : List (Option Span) :=
  [some layout.list, layout.condition, layout.orderList, layout.paging, layout.hints]

/-- The places of the layout are in the order in which the clauses stand in a statement. -/
structure Ordered (layout : Layout) : Prop where
  /-- The list does not end before its start. -/
  list_le : layout.list.start ≤ layout.list.stop
  /-- The list ends in front of FROM. -/
  list_stop_le : layout.list.stop ≤ layout.source.getD layout.stop
  /-- The clauses stand behind the word FROM. -/
  source_le : ∀ f ∈ layout.source, ∀ n ∈ endsOf layout.condition ++ layout.suffixPlaces, f + 4 ≤ n
  /-- The condition is not empty. -/
  condition_lt : ∀ s ∈ layout.condition, s.start < s.stop
  /-- The order, the paging and the hints follow one another. -/
  suffix_pairwise : layout.suffixPlaces.Pairwise (· ≤ ·)
  /-- The list behind ORDER BY starts behind the words. -/
  order_lt : ∀ o ∈ layout.order, ∀ s ∈ layout.orderList, o < s.start
  /-- There is a list behind ORDER BY exactly when ORDER BY is there. -/
  orderList_isSome : layout.orderList.isSome = layout.order.isSome
  /-- There is no paging without ORDER BY. -/
  order_isSome : layout.paging.isSome → layout.order.isSome
  /-- The hints end the statement. -/
  hints_stop : ∀ s ∈ layout.hints, s.stop = layout.stop
  /-- The part that orders the rows starts with ORDER BY, or else with the hints. -/
  suffixStart_eq :
    layout.suffixStart = layout.order.getD ((layout.hints.map (·.start)).getD layout.stop)
  /-- No place lies behind the end of the statement. -/
  le_stop : ∀ n ∈ layout.places, n ≤ layout.stop

theorem mem_endsOf {span : Option Span} {n : Nat} :
    n ∈ endsOf span ↔ ∃ s ∈ span, n = s.start ∨ n = s.stop := by
  cases span <;> simp [endsOf]

/-- The places follow one another from `a` to `b`. -/
structure Ascends (a b : Nat) (l : List Nat) : Prop where
  /-- Each place is followed by later ones only. -/
  pairwise : l.Pairwise (· ≤ ·)
  /-- The places lie between the two ends. -/
  bounds : ∀ n ∈ l, a ≤ n ∧ n ≤ b

namespace Ascends

variable {a b c : Nat}

theorem nil : Ascends a b [] := ⟨List.Pairwise.nil, by simp⟩

theorem singleton {n : Nat} (ha : a ≤ n) (hb : n ≤ b) : Ascends a b [n] :=
  ⟨List.pairwise_singleton _ n, by simpa using ⟨ha, hb⟩⟩

/-- Places up to `b` are followed by places from `b` on. -/
theorem append {l r : List Nat} (hl : Ascends a b l) (hr : Ascends b c r) (hab : a ≤ b)
    (hbc : b ≤ c) : Ascends a c (l ++ r) where
  pairwise := List.pairwise_append.2 ⟨hl.pairwise, hr.pairwise, fun i hi j hj =>
    (hl.bounds i hi).2.trans (hr.bounds j hj).1⟩
  bounds n hn := by
    rcases List.mem_append.1 hn with hn | hn
    · exact ⟨(hl.bounds n hn).1, (hl.bounds n hn).2.trans hbc⟩
    · exact ⟨hab.trans (hr.bounds n hn).1, (hr.bounds n hn).2⟩

theorem of_span {span : Option Span}
    (h : ∀ s ∈ span, a ≤ s.start ∧ s.start ≤ s.stop ∧ s.stop ≤ b) :
    Ascends a b (Layout.endsOf span) := by
  cases span with
  | none => exact nil
  | some s =>
    obtain ⟨ha, hle, hb⟩ := h s rfl
    exact (singleton ha hle).append (singleton (Nat.le_refl _) hb) (ha.trans hle) hb

end Ascends

theorem mem_places_of_mem_clauses {layout : Layout} {span : Option Span}
    (hspan : span ∈ layout.clauses) {n : Nat} (hn : n ∈ endsOf span) : n ∈ layout.places := by
  simp only [clauses, List.mem_cons, List.not_mem_nil, or_false] at hspan
  rcases hspan with rfl | rfl | rfl | rfl | rfl
  · simp only [endsOf, Option.elim_some, List.mem_cons, List.not_mem_nil, or_false] at hn
    simp only [places, List.mem_append, List.mem_cons]
    tauto
  all_goals simp [places, suffixPlaces, hn]

@[simp]
theorem endsOf_map (f : Nat → Nat) (span : Option Span) :
    endsOf (span.map (Span.map f)) = (endsOf span).map f := by
  cases span <;> rfl

@[simp]
theorem suffixPlaces_map (f : Nat → Nat) (layout : Layout) :
    (layout.map f).suffixPlaces = layout.suffixPlaces.map f := by
  cases h : layout.order <;> simp [suffixPlaces, map, h]

@[simp]
theorem places_map (f : Nat → Nat) (layout : Layout) :
    (layout.map f).places = layout.places.map f := by
  have hsuffix := suffixPlaces_map f layout
  cases h : layout.source <;> simp_all [places, map, Span.map]

theorem map_map (f g : Nat → Nat) (layout : Layout) :
    (layout.map f).map g = layout.map (g ∘ f) := by
  simp only [map, Option.map_map]
  rfl

@[simp]
theorem map_id (layout : Layout) : layout.map id = layout := by
  simp [map, Span.map_id]

/-- A change of places matters at the places of the layout only. -/
theorem map_congr {f g : Nat → Nat} {layout : Layout} (h : ∀ n ∈ layout.places, f n = g n) :
    layout.map f = layout.map g := by
  -- Each part of the layout is a span or a place, and it is made of the places that are listed.
  have hspan : ∀ span : Option Span, (∀ n ∈ endsOf span, f n = g n) →
      span.map (Span.map f) = span.map (Span.map g) := by
    intro span hspan
    cases span with
    | none => rfl
    | some s => simp [Span.map, hspan s.start (by simp [endsOf]), hspan s.stop (by simp [endsOf])]
  have hplace : ∀ place : Option Nat, (∀ n ∈ place, f n = g n) → place.map f = place.map g := by
    intro place hplace
    cases place with
    | none => rfl
    | some n => simp [hplace n rfl]
  simp only [places, suffixPlaces, List.mem_append, Option.mem_toList] at h
  have hlist : layout.list.map f = layout.list.map g := by
    rw [Span.map, Span.map, h layout.list.start (by simp), h layout.list.stop (by simp)]
  rw [map, map, hlist, hplace layout.source fun n hn => h n (by simp [Option.mem_def.1 hn]),
    hspan layout.condition fun n hn => h n (by simp [hn]),
    hplace layout.order fun n hn => h n (by simp [Option.mem_def.1 hn]),
    hspan layout.orderList fun n hn => h n (by simp [hn]),
    hspan layout.paging fun n hn => h n (by simp [hn]),
    hspan layout.hints fun n hn => h n (by simp [hn]), h layout.stop (by simp)]

/-- The start of the part that orders the rows, from the order of its places. -/
theorem suffixStart_of_pairwise {layout : Layout} (h : layout.suffixPlaces.Pairwise (· ≤ ·))
    (horder : layout.paging.isSome → layout.order.isSome) :
    layout.suffixStart = layout.order.getD ((layout.hints.map (·.start)).getD layout.stop) := by
  have hle : ∀ o ∈ layout.order, (∀ s ∈ layout.paging, o ≤ s.start) ∧
      ∀ s ∈ layout.hints, o ≤ s.start := by
    intro o ho
    rw [Option.mem_def] at ho
    simp only [suffixPlaces, ho, Option.toList_some, List.cons_append, List.nil_append,
      List.pairwise_cons] at h
    refine ⟨fun s hs => h.1 _ ?_, fun s hs => h.1 _ ?_⟩ <;>
      simp [mem_endsOf, Option.mem_def.1 hs]
  rw [suffixStart]
  cases ho : layout.order with
  | none =>
    -- Without ORDER BY there is no paging, so only the hints are left.
    have hpaging : layout.paging = none := by
      rw [← Option.not_isSome_iff_eq_none]
      intro hsome
      exact absurd (horder hsome) (by simp [ho])
    cases hh : layout.hints <;> simp [hpaging]
  | some o =>
    -- ORDER BY stands in front of the paging and of the hints, so it is the least of the three.
    obtain ⟨hpaging, hhints⟩ := hle o ho
    cases hp : layout.paging with
    | none =>
      cases hh : layout.hints with
      | none => simp
      | some s => simpa using Nat.min_eq_left (hhints s hh)
    | some p =>
      have hop := hpaging p hp
      cases hh : layout.hints with
      | none => simpa using Nat.min_eq_left hop
      | some s =>
        have hos := hhints s hh
        simp
        omega

/-- An order that holds in one unit of measure holds in every other one, if the change of unit is
strictly increasing and leaves the four letters of FROM as long as they are. -/
theorem Ordered.map {layout : Layout} (h : layout.Ordered) {f : Nat → Nat}
    (hf : ∀ i j, i < j → j ≤ layout.stop → f i < f j)
    (hsource : ∀ n ∈ layout.source, f (n + 4) = f n + 4) : (layout.map f).Ordered := by
  have hmono : ∀ i j, i ≤ j → j ≤ layout.stop → f i ≤ f j := by
    intro i j hij hj
    rcases Nat.eq_or_lt_of_le hij with rfl | hlt
    · exact Nat.le_refl _
    · exact Nat.le_of_lt (hf i j hlt hj)
  have hsuffix : ∀ n ∈ layout.suffixPlaces, n ≤ layout.stop := fun n hn =>
    h.le_stop n (by simp [places, hn])
  have hcondition : ∀ n ∈ endsOf layout.condition, n ≤ layout.stop := fun n hn =>
    h.le_stop n (by simp [places, hn])
  have hpairwise : (layout.map f).suffixPlaces.Pairwise (· ≤ ·) := by
    rw [suffixPlaces_map, List.pairwise_map]
    exact h.suffix_pairwise.imp_of_mem fun _ hj hij => hmono _ _ hij (hsuffix _ hj)
  have horder : (layout.map f).paging.isSome → (layout.map f).order.isSome := by
    simpa [Layout.map] using h.order_isSome
  constructor
  case list_le => exact hmono _ _ h.list_le (h.le_stop _ (by simp [places]))
  case list_stop_le =>
    have hle := h.list_stop_le
    cases hs : layout.source with
    | none =>
      rw [hs] at hle
      simpa [Layout.map, Span.map, hs] using hmono _ _ hle (Nat.le_refl _)
    | some n =>
      rw [hs] at hle
      simpa [Layout.map, Span.map, hs] using hmono _ _ hle (h.le_stop n (by simp [places, hs]))
  case source_le =>
    intro n' hn' m' hm'
    obtain ⟨n, hn, rfl⟩ : ∃ n ∈ layout.source, f n = n' := by simpa [Layout.map] using hn'
    have hmem : m' ∈ (endsOf layout.condition ++ layout.suffixPlaces).map f := by
      rw [suffixPlaces_map] at hm'
      simpa [Layout.map] using hm'
    obtain ⟨m, hm, rfl⟩ := List.mem_map.1 hmem
    -- FROM keeps its length, so its end goes to the end of what it goes to.
    rw [← hsource n hn]
    refine hmono _ _ (h.source_le n hn m hm) ?_
    rcases List.mem_append.1 hm with hm | hm
    · exact hcondition m hm
    · exact hsuffix m hm
  case condition_lt =>
    intro s' hs'
    obtain ⟨s, hs, rfl⟩ : ∃ s ∈ layout.condition, s.map f = s' := by simpa [Layout.map] using hs'
    exact hf _ _ (h.condition_lt s hs) (hcondition _ (mem_endsOf.2 ⟨s, hs, Or.inr rfl⟩))
  case suffix_pairwise => exact hpairwise
  case order_lt =>
    intro o' ho' s' hs'
    obtain ⟨o, ho, rfl⟩ : ∃ o ∈ layout.order, f o = o' := by simpa [Layout.map] using ho'
    obtain ⟨s, hs, rfl⟩ : ∃ s ∈ layout.orderList, s.map f = s' := by simpa [Layout.map] using hs'
    refine hf _ _ (h.order_lt o ho s hs) (hsuffix _ ?_)
    simp [suffixPlaces, Option.mem_def.1 hs, endsOf]
  case orderList_isSome => simpa [Layout.map] using h.orderList_isSome
  case order_isSome => exact horder
  case hints_stop =>
    intro s' hs'
    obtain ⟨s, hs, rfl⟩ : ∃ s ∈ layout.hints, s.map f = s' := by simpa [Layout.map] using hs'
    exact congrArg f (h.hints_stop s hs)
  case suffixStart_eq => exact suffixStart_of_pairwise hpairwise horder
  case le_stop =>
    intro n' hn'
    rw [places_map] at hn'
    obtain ⟨n, hn, rfl⟩ := List.mem_map.1 hn'
    exact hmono _ _ (h.le_stop n hn) (Nat.le_refl _)

end Layout

namespace Head

/-! ## Places of a layout -/

section Layout

variable (t : Text) (head : Head)

@[simp]
theorem layout_list : (head.layout t).list = Span.trim ⟨head.start, head.listStop t⟩ t := rfl

@[simp]
theorem layout_source : (head.layout t).source = (head.source? t).map (·.start) := rfl

@[simp]
theorem layout_condition : (head.layout t).condition = head.condition? t := rfl

@[simp]
theorem layout_order : (head.layout t).order = (head.orderWords? t).map (·.start) := rfl

@[simp]
theorem layout_orderList : (head.layout t).orderList = head.orderList? t := rfl

@[simp]
theorem layout_paging : (head.layout t).paging = head.paging? t := rfl

@[simp]
theorem layout_stop : (head.layout t).stop = head.stop := rfl

@[simp]
theorem layout_modifiers : (head.layout t).modifiers = head.modifiers := rfl

end Layout

/-! ## Stretches -/

variable (t : Text) (head : Head)

/-- The stretch between WHERE and the next clause. -/
def conditionStretch? : Option Span :=
  (head.conditionWord? t).map fun word =>
    ⟨word.stop, endBefore t word.stop head.stop conditionEnds⟩

/-- The stretch from OFFSET to the hints or the end of the statement. -/
def pagingStretch? : Option Span :=
  (head.orderWords? t).bind fun words =>
    (keywordBetween? t words.stop (head.orderStop t) .offset).map fun word =>
      ⟨word.start, head.orderStop t⟩

/-- The stretch between ORDER BY and the paging, the hints or the end of the statement. -/
def orderListStretch? : Option Span :=
  (head.orderWords? t).map fun words =>
    ⟨words.stop, (head.paging? t).elim (head.orderStop t) (·.start)⟩

/-- The stretch from OPTION to the end of the statement. -/
def hintsStretch? : Option Span :=
  (head.hintsWord? t).map fun word => ⟨word.start, head.stop⟩

/-- The stretches that are cut out of the text: those in which the modifiers are read, from the word
SELECT and from the last modifier on, and those that the clauses are trimmed from. -/
def stretches : List Span :=
  [⟨6, head.start⟩, ⟨head.start, head.stop⟩, ⟨head.start, head.listStop t⟩] ++
    (head.conditionStretch? t).toList ++ (head.pagingStretch? t).toList ++
    (head.orderListStretch? t).toList ++ (head.hintsStretch? t).toList

theorem condition?_eq : head.condition? t =
    ((head.conditionStretch? t).map (Span.trim · t)).filter fun s => !s.isEmpty := by
  rw [condition?, conditionStretch?, Option.map_map]
  rfl

theorem paging?_eq : head.paging? t = (head.pagingStretch? t).map (Span.trim · t) := by
  rw [paging?, pagingStretch?]
  cases head.orderWords? t with
  | none => rfl
  | some words =>
    rw [Option.bind_some, Option.bind_some, Option.map_map]
    rfl

theorem orderList?_eq : head.orderList? t = (head.orderListStretch? t).map (Span.trim · t) := by
  rw [orderList?, orderListStretch?, Option.map_map]
  rfl

theorem hints_eq :
    (head.layout t).hints = (head.hintsStretch? t).map (Span.trim · t) := by
  rw [hintsStretch?, Option.map_map]
  rfl

/-! ## Bounds -/

variable {t head}

/-- The head lies in front of the end of its statement. -/
structure IsSound (t : Text) (head : Head) : Prop where
  /-- The modifiers stand behind the six letters of SELECT. -/
  le_start : 6 ≤ head.start
  /-- The modifiers end inside the statement. -/
  start_le_stop : head.start ≤ head.stop
  /-- The statement ends where the first statement of the text does. -/
  stop_eq : head.stop = statementStop t

theorem isSound_of_locate? (h : locate? t = some head) : head.IsSound t := by
  obtain ⟨u, w, body, rest, rfl, hstatement, hstarts⟩ := exists_of_locate? h
  exact ⟨hstarts.bounds.1, hstarts.bounds.2,
    hstarts.stop_eq.trans hstatement.statementStop_eq.symm⟩

namespace IsSound

theorem isCut_stop (h : head.IsSound t) : IsCut t head.stop := by
  rw [h.stop_eq]
  exact isCut_statementStop t

theorem stop_le_length (h : head.IsSound t) : head.stop ≤ t.length := by
  rw [h.stop_eq]
  exact statementStop_le_length t

theorem source?_bounds (h : head.IsSound t) {word : Span} (hword : head.source? t = some word) :
    head.start ≤ word.start ∧ word.stop = word.start + 4 ∧ word.stop ≤ head.stop := by
  have hbounds := bounds_of_keywordBetween? (by decide) h.isCut_stop hword
  exact ⟨hbounds.1, (stop_of_mem_keywordSpans (by decide) (mem_of_keywordBetween? hword).1).1,
    hbounds.2.2⟩

theorem start_le_listStop (h : head.IsSound t) : head.start ≤ head.listStop t := by
  rw [listStop]
  cases hs : head.source? t with
  | none => exact le_endBefore t h.start_le_stop _
  | some word => exact (h.source?_bounds hs).1

theorem listStop_le_stop (h : head.IsSound t) : head.listStop t ≤ head.stop := by
  rw [listStop]
  cases hs : head.source? t with
  | none => exact endBefore_le _ _ _ _
  | some word =>
    have hbounds := h.source?_bounds hs
    simp only [Option.elim_some]
    omega

theorem clausesStart_le_stop (h : head.IsSound t) : head.clausesStart t ≤ head.stop := by
  have hlist := h.listStop_le_stop
  rw [clausesStart]
  cases hs : head.source? t with
  | none => exact hlist
  | some word => exact (h.source?_bounds hs).2.2

/-- The clauses are looked for behind the four letters of FROM. -/
theorem source_add_four (h : head.IsSound t) {f : Nat} (hf : f ∈ (head.layout t).source) :
    f + 4 = head.clausesStart t := by
  obtain ⟨word, hs, rfl⟩ := Option.map_eq_some_iff.1 hf
  rw [clausesStart, hs]
  exact (h.source?_bounds hs).2.1.symm

theorem hintsWord?_bounds (h : head.IsSound t) {word : Span}
    (hword : head.hintsWord? t = some word) :
    head.clausesStart t ≤ word.start ∧ word.start < word.stop ∧ word.stop ≤ head.stop :=
  bounds_of_keywordBetween? (by decide) h.isCut_stop hword

theorem clausesStart_le_orderStop (h : head.IsSound t) :
    head.clausesStart t ≤ head.orderStop t := by
  rw [orderStop]
  cases hw : head.hintsWord? t with
  | none => exact h.clausesStart_le_stop
  | some word => exact (h.hintsWord?_bounds hw).1

theorem orderStop_le_stop (h : head.IsSound t) : head.orderStop t ≤ head.stop := by
  rw [orderStop]
  cases hw : head.hintsWord? t with
  | none => exact Nat.le_refl _
  | some word =>
    have hbounds := h.hintsWord?_bounds hw
    simp only [Option.elim_some]
    omega

theorem isCut_orderStop (h : head.IsSound t) : IsCut t (head.orderStop t) := by
  rw [orderStop]
  cases hw : head.hintsWord? t with
  | none => exact h.isCut_stop
  | some word => exact isCut_of_keywordBetween? (by decide) hw

theorem orderWords?_bounds (h : head.IsSound t) {words : Span}
    (hwords : head.orderWords? t = some words) : head.clausesStart t ≤ words.start ∧
      words.start < words.stop ∧ words.stop ≤ head.orderStop t :=
  bounds_of_keywordBetween? (by decide) h.isCut_orderStop hwords

theorem conditionStretch?_bounds (h : head.IsSound t) {s : Span}
    (hs : head.conditionStretch? t = some s) :
    head.clausesStart t ≤ s.start ∧ s.start ≤ s.stop ∧ s.stop ≤ head.stop := by
  obtain ⟨word, hword, rfl⟩ := Option.map_eq_some_iff.1 hs
  have hlimit := endBefore_le t (head.clausesStart t) head.stop Keyword.setOperators
  have hbounds := bounds_of_keywordBetween? (by decide)
    (isCut_endBefore (by decide) h.isCut_stop _) hword
  have hstop : word.stop ≤ head.stop := hbounds.2.2.trans hlimit
  exact ⟨by simp only; omega, le_endBefore t hstop _, endBefore_le _ _ _ _⟩

theorem pagingStretch?_bounds (h : head.IsSound t) {words s : Span}
    (hwords : head.orderWords? t = some words) (hs : head.pagingStretch? t = some s) :
    words.stop ≤ s.start ∧ s.start ≤ s.stop ∧ s.stop = head.orderStop t := by
  rw [pagingStretch?, hwords, Option.bind_some] at hs
  obtain ⟨word, hword, rfl⟩ := Option.map_eq_some_iff.1 hs
  have hbounds := bounds_of_keywordBetween? (by decide) h.isCut_orderStop hword
  exact ⟨hbounds.1, by simp only; omega, rfl⟩

theorem paging?_bounds (h : head.IsSound t) {words s : Span}
    (hwords : head.orderWords? t = some words) (hs : head.paging? t = some s) :
    words.stop ≤ s.start ∧ s.start ≤ s.stop ∧ s.stop ≤ head.orderStop t := by
  rw [paging?_eq, Option.map_eq_some_iff] at hs
  obtain ⟨s, hs, rfl⟩ := hs
  obtain ⟨hstart, hle, hstop⟩ := h.pagingStretch?_bounds hwords hs
  exact ⟨hstart.trans (s.start_le_start_trim t), s.start_trim_le_stop_trim t,
    hstop ▸ s.stop_trim_le_stop t hle⟩

theorem orderListStretch?_bounds (h : head.IsSound t) {words s : Span}
    (hwords : head.orderWords? t = some words) (hs : head.orderListStretch? t = some s) :
    s.start = words.stop ∧ s.start ≤ s.stop ∧
      s.stop = (head.paging? t).elim (head.orderStop t) (·.start) ∧ s.stop ≤ head.orderStop t := by
  rw [orderListStretch?, hwords, Option.map_some, Option.some.injEq] at hs
  subst hs
  have hbounds := h.orderWords?_bounds hwords
  cases hp : head.paging? t with
  | none => exact ⟨rfl, hbounds.2.2, rfl, Nat.le_refl _⟩
  | some p =>
    have hpaging := h.paging?_bounds hwords hp
    exact ⟨rfl, hpaging.1, rfl, by simp only [Option.elim_some]; omega⟩

theorem hintsStretch?_bounds (h : head.IsSound t) {s : Span} (hs : head.hintsStretch? t = some s) :
    s.start = head.orderStop t ∧ s.start ≤ s.stop ∧ s.stop = head.stop := by
  obtain ⟨word, hword, rfl⟩ := Option.map_eq_some_iff.1 hs
  have hbounds := h.hintsWord?_bounds hword
  exact ⟨by rw [orderStop, hword]; rfl, by simp only; omega, rfl⟩

/-- The hints end where the statement does: a statement does not end in a blank. -/
theorem stop_hints (h : head.IsSound t) {s : Span} (hs : s ∈ (head.layout t).hints) :
    s.stop = head.stop := by
  rw [Option.mem_def, hints_eq, Option.map_eq_some_iff] at hs
  obtain ⟨s, hs, rfl⟩ := hs
  obtain ⟨-, hle, hstop⟩ := h.hintsStretch?_bounds hs
  have hlength : s.stop ≤ t.length := hstop ▸ h.stop_le_length
  rw [← hstop]
  refine Span.stop_trim_of_trimEnd hle hlength ?_
  -- A statement does not end in a blank, so trimming leaves its end where it is.
  have hend : Text.trimEnd (t.take head.stop) = t.take head.stop := by
    rw [h.stop_eq]
    exact (isStatement_take_drop t).trimEnd_eq
  have hslice : s.slice t = (t.take head.stop).drop s.start := by
    rw [Span.slice, hstop, List.drop_take]
  rw [Text.trimEnd_eq_self_iff] at hend ⊢
  intro c hc
  apply hend c
  rw [hslice, Option.mem_def, List.getLast?_drop] at hc
  split at hc
  · exact absurd hc (by simp)
  · exact hc

/-- Each stretch that is cut out of the text lies inside the statement. -/
theorem stretches_le (h : head.IsSound t) {s : Span} (hs : s ∈ head.stretches t) :
    s.start ≤ s.stop ∧ s.stop ≤ head.stop := by
  -- The paging clause and the list are looked for behind the words ORDER BY only.
  have horder : ∀ s, (head.pagingStretch? t = some s ∨ head.orderListStretch? t = some s) →
      ∃ words, head.orderWords? t = some words := by
    rintro s (hs | hs)
    · obtain ⟨words, hwords, -⟩ := Option.bind_eq_some_iff.1 hs
      exact ⟨words, hwords⟩
    · obtain ⟨words, hwords, -⟩ := Option.map_eq_some_iff.1 hs
      exact ⟨words, hwords⟩
  have hstop := h.orderStop_le_stop
  simp only [stretches, List.mem_append, List.mem_cons, List.not_mem_nil, or_false,
    Option.mem_toList] at hs
  rcases hs with ((((rfl | rfl | rfl) | hs) | hs) | hs) | hs
  · exact ⟨h.le_start, h.start_le_stop⟩
  · exact ⟨h.start_le_stop, Nat.le_refl _⟩
  · exact ⟨h.start_le_listStop, h.listStop_le_stop⟩
  · exact (h.conditionStretch?_bounds hs).2
  · obtain ⟨words, hwords⟩ := horder s (Or.inl hs)
    have hbounds := h.pagingStretch?_bounds hwords hs
    omega
  · obtain ⟨words, hwords⟩ := horder s (Or.inr hs)
    have hbounds := h.orderListStretch?_bounds hwords hs
    omega
  · have hbounds := h.hintsStretch?_bounds hs
    omega

/-- The places of ORDER BY, its list and the paging follow one another. -/
theorem rows_ascend (h : head.IsSound t) :
    Layout.Ascends (head.clausesStart t) (head.orderStop t)
      ((head.layout t).order.toList ++ Layout.endsOf (head.layout t).orderList ++
        Layout.endsOf (head.layout t).paging) := by
  rw [layout_order, layout_orderList, layout_paging]
  cases hwords : head.orderWords? t with
  | none =>
    -- Without ORDER BY there is no list and no paging.
    simpa [orderList?, paging?, hwords, Layout.endsOf] using Layout.Ascends.nil
  | some words =>
    have hbounds := h.orderWords?_bounds hwords
    obtain ⟨l, hl⟩ : ∃ l, head.orderListStretch? t = some l := by
      rw [orderListStretch?, hwords]
      exact ⟨_, rfl⟩
    obtain ⟨hfirst, hle, hlast, hstop⟩ := h.orderListStretch?_bounds hwords hl
    have horder : Layout.Ascends (head.clausesStart t) words.stop [words.start] :=
      .singleton hbounds.1 (Nat.le_of_lt hbounds.2.1)
    -- The list is trimmed inside its stretch, and the paging starts where the stretch ends.
    have hlist : Layout.Ascends words.stop l.stop (Layout.endsOf (head.orderList? t)) := by
      refine .of_span fun s hs => ?_
      rw [Option.mem_def, orderList?_eq, hl, Option.map_some, Option.some.injEq] at hs
      subst hs
      exact ⟨hfirst ▸ l.start_le_start_trim t, l.start_trim_le_stop_trim t,
        l.stop_trim_le_stop t hle⟩
    have hpaging : Layout.Ascends l.stop (head.orderStop t) (Layout.endsOf (head.paging? t)) := by
      refine .of_span fun p hp => ?_
      rw [Option.mem_def] at hp
      rw [hp, Option.elim_some] at hlast
      exact ⟨Nat.le_of_eq hlast, (h.paging?_bounds hwords hp).2⟩
    rw [Option.map_some, Option.toList_some]
    exact (horder.append hlist (by omega) (by omega)).append hpaging (by omega) hstop

/-- The hints stand behind the part that orders the rows. -/
theorem hints_ascend (h : head.IsSound t) :
    Layout.Ascends (head.orderStop t) head.stop (Layout.endsOf (head.layout t).hints) := by
  refine .of_span fun s hs => ?_
  have hstop := h.stop_hints hs
  rw [Option.mem_def, hints_eq, Option.map_eq_some_iff] at hs
  obtain ⟨s, hs, rfl⟩ := hs
  obtain ⟨hstart, -⟩ := h.hintsStretch?_bounds hs
  exact ⟨hstart ▸ s.start_le_start_trim t, s.start_trim_le_stop_trim t, Nat.le_of_eq hstop⟩

/-- The places of the part that orders the rows follow one another. -/
theorem suffix_ascends (h : head.IsSound t) :
    Layout.Ascends (head.clausesStart t) head.stop (head.layout t).suffixPlaces :=
  h.rows_ascend.append h.hints_ascend h.clausesStart_le_orderStop h.orderStop_le_stop

theorem condition?_bounds (h : head.IsSound t) {s : Span} (hs : head.condition? t = some s) :
    head.clausesStart t ≤ s.start ∧ s.start < s.stop ∧ s.stop ≤ head.stop := by
  rw [condition?_eq, Option.filter_eq_some_iff, Option.map_eq_some_iff] at hs
  obtain ⟨⟨s, hs, rfl⟩, hempty⟩ := hs
  obtain ⟨hstart, hle, hstop⟩ := h.conditionStretch?_bounds hs
  refine ⟨hstart.trans (s.start_le_start_trim t), by simpa [Span.isEmpty] using hempty,
    (s.stop_trim_le_stop t hle).trans hstop⟩

/-- There is no paging without ORDER BY. -/
theorem order_isSome_of_paging (hpaging : (head.layout t).paging.isSome) :
    (head.layout t).order.isSome := by
  obtain ⟨p, hp⟩ := Option.isSome_iff_exists.1 hpaging
  obtain ⟨words, hwords, -⟩ := Option.bind_eq_some_iff.1 hp
  rw [layout_order, hwords, Option.map_some, Option.isSome_some]

/-- The list is trimmed, which moves its ends inwards only. -/
theorem list_bounds (h : head.IsSound t) : (head.layout t).list.start ≤ (head.layout t).list.stop ∧
    (head.layout t).list.stop ≤ head.listStop t :=
  ⟨Span.start_trim_le_stop_trim _ t, Span.stop_trim_le_stop _ t h.start_le_listStop⟩

theorem condition_ascends (h : head.IsSound t) :
    Layout.Ascends (head.clausesStart t) head.stop (Layout.endsOf (head.layout t).condition) := by
  refine .of_span fun s hs => ?_
  obtain ⟨hstart, hlt, hstop⟩ := h.condition?_bounds hs
  exact ⟨hstart, Nat.le_of_lt hlt, hstop⟩

/-- No place of the layout lies behind the end of the statement. -/
theorem le_stop_of_mem_places (h : head.IsSound t) {n : Nat} (hn : n ∈ (head.layout t).places) :
    n ≤ head.stop := by
  simp only [Layout.places, List.mem_append, List.mem_cons, List.not_mem_nil, or_false,
    Option.mem_toList] at hn
  rcases hn with (((hlist | hsource) | hcondition) | hsuffix) | hstop
  · have hbounds := h.list_bounds
    have hle := h.listStop_le_stop
    omega
  · have hfour := h.source_add_four hsource
    have hle := h.clausesStart_le_stop
    omega
  · exact (h.condition_ascends.bounds n hcondition).2
  · exact (h.suffix_ascends.bounds n hsuffix).2
  · exact Nat.le_of_eq hstop

/-- The clauses of a statement are in order. -/
theorem ordered_layout (h : head.IsSound t) : (head.layout t).Ordered := by
  have hlist := h.list_bounds
  constructor
  case list_le => exact hlist.1
  case list_stop_le =>
    have hstop := h.listStop_le_stop
    rw [layout_source, layout_stop]
    cases hs : head.source? t with
    | none => exact hlist.2.trans hstop
    | some word =>
      rw [listStop, hs] at hlist
      exact hlist.2
  case source_le =>
    -- The clauses are looked for behind the four letters of FROM.
    intro f hf n hn
    rw [h.source_add_four hf]
    rcases List.mem_append.1 hn with hn | hn
    · exact (h.condition_ascends.bounds n hn).1
    · exact (h.suffix_ascends.bounds n hn).1
  case condition_lt => exact fun s hs => (h.condition?_bounds hs).2.1
  case suffix_pairwise => exact h.suffix_ascends.pairwise
  case order_lt =>
    intro o ho s hs
    obtain ⟨words, hwords, rfl⟩ := Option.map_eq_some_iff.1 ho
    rw [Option.mem_def, layout_orderList, orderList?_eq, Option.map_eq_some_iff] at hs
    obtain ⟨l, hl, rfl⟩ := hs
    have hbounds := h.orderWords?_bounds hwords
    have hstart := (h.orderListStretch?_bounds hwords hl).1
    have htrim := l.start_le_start_trim t
    omega
  case orderList_isSome => simp [orderList?]
  case order_isSome => exact order_isSome_of_paging
  case hints_stop => exact fun s hs => h.stop_hints hs
  case suffixStart_eq =>
    exact Layout.suffixStart_of_pairwise h.suffix_ascends.pairwise order_isSome_of_paging
  case le_stop => exact fun n hn => h.le_stop_of_mem_places hn

end IsSound

/-- The word FROM takes four bytes. -/
theorem byteOffset_source_add_four {f : Nat}
    (hf : f ∈ (head.layout t).source) : t.byteOffset (f + 4) = t.byteOffset f + 4 := by
  obtain ⟨word, hs, rfl⟩ := Option.map_eq_some_iff.1 hf
  have hmem := (mem_of_keywordBetween? hs).1
  obtain ⟨hstop, halpha⟩ := stop_of_mem_keywordSpans (by decide) hmem
  have hlen : (word.slice t).length = 4 := by
    rw [Span.length_slice, hstop, Nat.add_sub_cancel_left]
    · rfl
    · simpa using (bounds_of_mem_keywordSpans (by decide) hmem).2.2
  have hslice : (t.drop word.start).take 4 = word.slice t := by
    rw [Span.slice, hstop, Nat.add_sub_cancel_left]
    rfl
  -- Letters take one byte each.
  rw [Text.byteOffset_add, hslice,
    Text.byteLength_eq_length fun c hc => toNat_lt_of_isAlpha (halpha c hc), hlen]

end Head

/-! ## Main statement -/

/-- The places of a layout that is found are ordered, in characters and in bytes. A character starts
or the text ends at each of them, none lies behind the end of the statement, and the end of the
statement lies in the text. Each stretch that is cut out on the way lies in the text too. -/
theorem Layout.ordered_of_locate? {t : Text} {layout : Layout}
    (h : Layout.locate? t = some layout) :
    layout.Ordered ∧ layout.stop ≤ t.length ∧
      (layout.inBytes t).Ordered ∧ (layout.inBytes t).stop ≤ t.byteLength ∧
      (∀ n ∈ (layout.inBytes t).places, ∃ i ≤ t.length, t.placeOfByte? n = some i) ∧
      ∃ head : Head, Head.locate? t = some head ∧ layout = head.layout t ∧
        ∀ s ∈ head.stretches t, s.start ≤ s.stop ∧ s.stop ≤ t.length := by
  obtain ⟨head, hhead, rfl⟩ := Option.map_eq_some_iff.1 h
  have hsound := Head.isSound_of_locate? hhead
  have hordered := hsound.ordered_layout
  have hlength := hsound.stop_le_length
  refine ⟨hordered, hlength, ?_, Text.byteOffset_le_byteLength t _, ?_, head, hhead, rfl, ?_⟩
  · exact hordered.map
      (fun i j hij hj => Text.byteOffset_lt_byteOffset hij (hj.trans hlength))
      fun f hf => Head.byteOffset_source_add_four hf
  · intro n hn
    rw [inBytes, places_map] at hn
    obtain ⟨i, hi, rfl⟩ := List.mem_map.1 hn
    have hle : i ≤ t.length := (hordered.le_stop i hi).trans hlength
    exact ⟨i, hle, Text.placeOfByte?_byteOffset hle⟩
  · intro s hs
    have hbounds := hsound.stretches_le hs
    omega

/-- A statement with all clauses and with letters of two bytes. -/
theorem Layout.ordered_of_locate?_all_clauses :
    ∃ layout, Layout.locate?
        "SELECT é FROM t WHERE é = 1 ORDER BY é OFFSET 5 ROWS OPTION (x);".toList = some layout ∧
      layout.suffixPlaces = [28, 37, 38, 39, 52, 53, 63] ∧ layout.Ordered ∧
      (layout.inBytes
        "SELECT é FROM t WHERE é = 1 ORDER BY é OFFSET 5 ROWS OPTION (x);".toList).Ordered := by
  have h : Layout.locate?
      "SELECT é FROM t WHERE é = 1 ORDER BY é OFFSET 5 ROWS OPTION (x);".toList =
        some ⟨⟨7, 8⟩, some 9, some ⟨22, 27⟩, some 28, some ⟨37, 38⟩, some ⟨39, 52⟩,
          some ⟨53, 63⟩, 63, .none⟩ := by
    decide +kernel
  have hordered := Layout.ordered_of_locate? h
  exact ⟨_, h, rfl, hordered.1, hordered.2.2.1⟩

end LooseSql
