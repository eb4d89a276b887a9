import LooseSql.Proofs.Keyword.Stands
import Mathlib.Data.List.MinMax

/-!
# A search for several keywords

A search for several keywords goes over a text once and stops at the first place at which one of
them stands. It finds what comes out when each keyword is searched for on its own and the span that
starts first is taken, the one of the keyword listed first where several start at one place.

* `findSome?_or`: two searches in one, place by place along the scan of the text;
* `findAnyKeyword_cons`, `findAnyKeyword_eq_argmin`: one more keyword in the list, and all of them;
* `Keyword.StandsIn`: the keyword fills a span of the text, as whole words at the top level;
* `standsIn_of_findKeyword`, `exists_findKeyword_of_standsAt`: a search finds spans in which the
  keyword stands, and it passes over no place at which it stands;
* `findAnyKeyword_earliest`: the search for several keywords against the searches for each of them.
-/

namespace LooseSql

/-! ## Two searches in one -/

/-- The span that starts first, or `r` if both start at one place. -/
def Span.earlier (r r' : Span) : Span := if r'.start < r.start then r' else r

theorem Span.earlier_of_lt {r r' : Span} (h : r'.start < r.start) : r.earlier r' = r' := if_pos h

theorem Span.earlier_of_le {r r' : Span} (h : r.start ≤ r'.start) : r.earlier r' = r :=
  if_neg (Nat.not_lt.2 h)

/-- What is found at a place starts there. -/
def FindsAtPlace (f : Place → Option Span) : Prop := ∀ p r, f p = some r → r.start = p.index

theorem findsAtPlace_at? (k : Keyword) : FindsAtPlace k.at? := fun _ _ => start_at?

theorem findsAtPlace_findSome? (ks : List Keyword) :
    FindsAtPlace fun p => ks.findSome? fun k => k.at? p := by
  intro p r h
  obtain ⟨k, -, hat⟩ := List.exists_of_findSome?_eq_some h
  exact start_at? hat

section Places

variable {f g : Place → Option Span} {ps : List Place}

/-- A search finds nothing in front of the places that it goes over. -/
theorem FindsAtPlace.lt_start (hf : FindsAtPlace f) {i : Nat} (hps : ∀ p ∈ ps, i < p.index)
    {r : Span} (h : ps.findSome? f = some r) : i < r.start := by
  obtain ⟨p, hp, hfind⟩ := List.exists_of_findSome?_eq_some h
  rw [hf p r hfind]
  exact hps p hp

/-- A search that looks for two things at each place finds the earlier one of what the searches for
each of them find. -/
theorem findSome?_or (hf : FindsAtPlace f) (hg : FindsAtPlace g)
    (hps : ps.Pairwise fun p q => p.index < q.index) :
    (ps.findSome? fun p => (f p).or (g p)) =
      Option.merge Span.earlier (ps.findSome? f) (ps.findSome? g) := by
  induction ps with
  | nil => rfl
  | cons p ps ih =>
    obtain ⟨hlater, hps⟩ := List.pairwise_cons.1 hps
    rw [List.findSome?_cons, List.findSome?_cons, List.findSome?_cons]
    cases hfp : f p with
    | none =>
      cases hgp : g p with
      | none => exact ih hps
      | some r' =>
        -- The first search goes on, and all that it can still find comes later.
        cases hrest : ps.findSome? f with
        | none => rfl
        | some r =>
          have hlt : r'.start < r.start := by
            rw [hg p r' hgp]
            exact hf.lt_start hlater hrest
          exact congrArg some (Span.earlier_of_lt hlt).symm
    | some r =>
      have hstart : r.start = p.index := hf p r hfp
      cases hgp : g p with
      | some r' =>
        -- Both stop here, and the first search comes first.
        have hle : r.start ≤ r'.start := by rw [hstart, hg p r' hgp]
        exact congrArg some (Span.earlier_of_le hle).symm
      | none =>
        cases hrest : ps.findSome? g with
        | none => rfl
        | some r' =>
          have hle : r.start ≤ r'.start := by
            rw [hstart]
            exact Nat.le_of_lt (hg.lt_start hlater hrest)
          exact congrArg some (Span.earlier_of_le hle).symm

/-- A search passes over no place at which something is found. -/
theorem exists_findSome?_of_mem (hf : FindsAtPlace f)
    (hps : ps.Pairwise fun p q => p.index < q.index) {p : Place} (hp : p ∈ ps) {r : Span}
    (hr : f p = some r) : ∃ r', ps.findSome? f = some r' ∧ r'.start ≤ p.index := by
  induction ps with
  | nil => cases hp
  | cons q ps ih =>
    obtain ⟨hlater, hps⟩ := List.pairwise_cons.1 hps
    rw [List.findSome?_cons]
    cases hfq : f q with
    | some r' =>
      -- The search stops here, and `p` is this place or a later one.
      refine ⟨r', rfl, ?_⟩
      rw [hf q r' hfq]
      rcases List.mem_cons.1 hp with rfl | hp
      · exact Nat.le_refl _
      · exact Nat.le_of_lt (hlater p hp)
    | none =>
      rcases List.mem_cons.1 hp with rfl | hp
      · rw [hr] at hfq
        cases hfq
      · exact ih hps hp

end Places

/-! ## All keywords of a list -/

theorem pairwise_keywordPlaces (t : Text) (start : Nat) :
    (keywordPlaces t start).Pairwise fun p q => p.index < q.index :=
  (pairwise_topLevelFrom .top 0 none t).filter _

/-- With one more keyword in front a search finds that one, unless one of the others stands
earlier. -/
theorem findAnyKeyword_cons (t : Text) (start : Nat) (k : Keyword) (ks : List Keyword) :
    findAnyKeyword t start (k :: ks) =
      Option.merge Span.earlier (findKeyword t start k) (findAnyKeyword t start ks) := by
  have hor : ∀ p : Place, ((k :: ks).findSome? fun k => k.at? p) =
      (k.at? p).or (ks.findSome? fun k => k.at? p) := by
    intro p
    rw [List.findSome?_cons]
    cases k.at? p <;> rfl
  rw [findAnyKeyword, funext hor]
  exact findSome?_or (findsAtPlace_at? k) (findsAtPlace_findSome? ks)
    (pairwise_keywordPlaces t start)

theorem argmin_start_cons (r : Span) (rs : List Span) :
    (r :: rs).argmin Span.start = Option.merge Span.earlier (some r) (rs.argmin Span.start) := by
  rw [List.argmin_cons]
  cases rs.argmin Span.start with
  | none => rfl
  | some r' => exact (apply_ite some _ _ _).symm

/-- The search for several keywords takes the span that starts first from what the searches for each
of them find. Of several that start at one place it takes the one of the first keyword. -/
theorem findAnyKeyword_eq_argmin (t : Text) (start : Nat) (ks : List Keyword) :
    findAnyKeyword t start ks = (ks.filterMap (findKeyword t start)).argmin Span.start := by
  induction ks with
  | nil => exact List.findSome?_eq_none_iff.2 fun _ _ => rfl
  | cons k ks ih =>
    rw [findAnyKeyword_cons, ih, List.filterMap_cons]
    cases findKeyword t start k with
    | none => exact Option.merge_none_left
    | some r => exact (argmin_start_cons r _).symm

/-- ORDER and ORDER BY start at one place, and the one that is listed first gives the span. -/
example : findAnyKeyword "a ORDER  BY b FROM c".toList 0 [.source, ["ORDER".toList], .orderBy] =
    some ⟨2, 7⟩ := by decide

section Lists

variable {t : Text} {start : Nat} {ks : List Keyword}

theorem findAnyKeyword_eq_none_iff_findKeyword :
    findAnyKeyword t start ks = none ↔ ∀ k ∈ ks, findKeyword t start k = none := by
  rw [findAnyKeyword_eq_argmin, List.argmin_eq_none, List.filterMap_eq_nil_iff]

theorem exists_findKeyword_of_findAnyKeyword {r : Span} (h : findAnyKeyword t start ks = some r) :
    ∃ k ∈ ks, findKeyword t start k = some r := by
  rw [findAnyKeyword_eq_argmin] at h
  exact List.mem_filterMap.1 (List.argmin_mem h)

theorem start_le_of_findKeyword {r r' : Span} (h : findAnyKeyword t start ks = some r)
    {k : Keyword} (hk : k ∈ ks) (h' : findKeyword t start k = some r') : r.start ≤ r'.start := by
  rw [findAnyKeyword_eq_argmin] at h
  exact List.le_of_mem_argmin (List.mem_filterMap.2 ⟨k, hk, h'⟩) h

end Lists

/-! ## Where a keyword is found -/

namespace Keyword

/-- The keyword fills the span of the text, as whole words and outside parentheses and quotes. -/
structure StandsIn (k : Keyword) (t : Text) (r : Span) : Prop where
  /-- The span is not empty. -/
  lt : r.start < r.stop
  /-- The span lies in the text. -/
  le : r.stop ≤ t.length
  /-- The keyword is spelled between what is in front of the span and what is behind it. -/
  stands : k.StandsBetween (t.take r.start) (r.slice t) (t.drop r.stop)

/-- A keyword that is recognised at a letter takes up some of the text: it would end in front of a
letter otherwise. -/
theorem ne_of_after? {k : Keyword} {before : Option Char} {c : Char} (hc : c.isAlpha = true)
    {t rest : Text} (h : k.after? before (c :: t) = some rest) : rest ≠ c :: t := by
  rintro rfl
  have hends := (after?_eq_some_iff.1 h).2.2
  rw [startsWithWordChar, List.head?_cons, Option.any_some, isWordChar_of_isAlpha hc] at hends
  cases hends

/-- A keyword that is recognised at a letter has a word. -/
theorem ne_nil_of_after? {k : Keyword} {before : Option Char} {c : Char} (hc : c.isAlpha = true)
    {t rest : Text} (h : k.after? before (c :: t) = some rest) : k ≠ [] := by
  rintro rfl
  exact ne_of_after? hc h (Option.some.inj (after?_eq_some_iff.1 h).2.1).symm

end Keyword

/-- What is found at a place at the top level is the keyword in its span. -/
theorem standsIn_of_at? {k : Keyword} {t : Text} {p : Place} (hp : p ∈ topLevel t)
    (halpha : p.char.isAlpha = true) {r : Span} (h : k.at? p = some r) : k.StandsIn t r := by
  obtain ⟨u, rfl, hindex, hbefore, hshows⟩ := mem_topLevel_iff.1 hp
  obtain ⟨rest, hafter, rfl⟩ := Option.map_eq_some_iff.1 h
  rw [hbefore] at hafter
  obtain ⟨m, hm, hstands⟩ := Keyword.exists_standsBetween_of_after?
    (Keyword.ne_nil_of_after? halpha hafter) (ScanState.eq_top_of_shows hshows) hafter
  -- A keyword has a letter at least, so its span is not empty.
  have hpos : 0 < m.length := by
    refine List.length_pos_iff.2 ?_
    rintro rfl
    exact Keyword.ne_of_after? halpha hafter hm.symm
  have hstop : p.rest.length - rest.length = m.length := by simp [hm]
  rw [hindex, hstop, hm]
  refine ⟨Nat.lt_add_of_pos_right hpos, ?_, ?_⟩
  · simp only [List.length_append]
    omega
  · rw [Span.slice_of_eq_append rfl rfl rfl, List.take_left, ← List.drop_drop, List.drop_left,
      List.drop_left]
    exact hstands

/-- A search finds the keyword at its start or behind it. -/
theorem standsIn_of_findKeyword {t : Text} {start : Nat} {k : Keyword} {r : Span}
    (h : findKeyword t start k = some r) : start ≤ r.start ∧ k.StandsIn t r := by
  obtain ⟨p, hp, hat⟩ := List.exists_of_findSome?_eq_some h
  rw [keywordPlaces, List.mem_filter, Bool.and_eq_true, decide_eq_true_eq] at hp
  obtain ⟨hmem, hle, halpha⟩ := hp
  exact ⟨start_at? hat ▸ hle, standsIn_of_at? hmem halpha hat⟩

/-- A search passes over no place at which the keyword stands. -/
theorem exists_findKeyword_of_standsAt {k : Keyword} (hk : k.IsLetters) {t : Text} {start i : Nat}
    (hle : start ≤ i) (h : k.StandsAt t i) :
    ∃ r, findKeyword t start k = some r ∧ r.start ≤ i := by
  obtain ⟨u, m, v, rfl, rfl, hstands⟩ := h
  obtain ⟨hclosed, hafter⟩ := (Keyword.standsBetween_iff hk).1 hstands
  obtain ⟨c, m, rfl, hc⟩ := hstands.spells.exists_cons hk
  have hp : ⟨u.length, u.getLast?, c, m ++ v⟩ ∈ keywordPlaces (u ++ (c :: m ++ v)) start := by
    rw [keywordPlaces, List.mem_filter]
    exact ⟨mem_topLevel_of_isClosed hclosed (isScanMark_of_isAlpha hc) _, by simp [hle, hc]⟩
  have hat : k.at? ⟨u.length, u.getLast?, c, m ++ v⟩ =
      some ⟨u.length, u.length + ((c :: m ++ v).length - v.length)⟩ := by
    rw [Keyword.at?, Place.rest, ← List.cons_append, hafter]
    rfl
  exact exists_findSome?_of_mem (findsAtPlace_at? k) (pairwise_keywordPlaces _ start) hp hat

/-- A search for several keywords passes over no place at which one of them stands. -/
theorem exists_findAnyKeyword_of_standsAt {ks : List Keyword} {k : Keyword} (hk : k ∈ ks)
    (hletters : k.IsLetters) {t : Text} {start i : Nat} (hle : start ≤ i) (h : k.StandsAt t i) :
    ∃ r, findAnyKeyword t start ks = some r ∧ r.start ≤ i := by
  obtain ⟨r', hr', hi⟩ := exists_findKeyword_of_standsAt hletters hle h
  cases hr : findAnyKeyword t start ks with
  | none =>
    rw [findAnyKeyword_eq_none_iff_findKeyword.1 hr k hk] at hr'
    cases hr'
  | some r => exact ⟨r, rfl, (start_le_of_findKeyword hr hk hr').trans hi⟩

/-! ## The searches compared -/

/-- The search for several keywords finds nothing exactly if none of the searches for each of them
finds anything. Otherwise it finds one of the spans that these find, and none of them starts
earlier. In every span that is found, by the one search or by the others, one of the keywords stands
as whole words at the top level, at the start of the search or behind it. No place at which one of
them stands is passed over. -/
theorem findAnyKeyword_earliest (t : Text) (start : Nat) (ks : List Keyword) :
    (findAnyKeyword t start ks = none ↔ ∀ k ∈ ks, findKeyword t start k = none) ∧
      (∀ r, findAnyKeyword t start ks = some r →
        (∃ k ∈ ks, findKeyword t start k = some r) ∧
          ∀ k ∈ ks, ∀ r', findKeyword t start k = some r' → r.start ≤ r'.start) ∧
      (∀ r, findAnyKeyword t start ks = some r →
        start ≤ r.start ∧ ∃ k ∈ ks, k.StandsIn t r) ∧
      (∀ k ∈ ks, ∀ r, findKeyword t start k = some r → start ≤ r.start ∧ k.StandsIn t r) ∧
      ∀ k ∈ ks, k.IsLetters → ∀ i, start ≤ i → k.StandsAt t i →
        ∃ r, findAnyKeyword t start ks = some r ∧ r.start ≤ i := by
  refine ⟨findAnyKeyword_eq_none_iff_findKeyword, ?_, ?_, ?_, ?_⟩
  · intro r hr
    exact ⟨exists_findKeyword_of_findAnyKeyword hr, fun k hk r' => start_le_of_findKeyword hr hk⟩
  · intro r hr
    obtain ⟨k, hk, hfind⟩ := exists_findKeyword_of_findAnyKeyword hr
    obtain ⟨hle, hstands⟩ := standsIn_of_findKeyword hfind
    exact ⟨hle, k, hk, hstands⟩
  · intro k _ r hr
    exact standsIn_of_findKeyword hr
  · intro k hk hletters i hle hstands
    exact exists_findAnyKeyword_of_standsAt hk hletters hle hstands

/-- Behind a quote and parentheses that hold a FROM each, a search for two keywords finds ORDER BY
with two blanks in it. -/
theorem findAnyKeyword_earliest_enclosed :
    findAnyKeyword "é [from] (from b) ORDER  BY c from d".toList 3 [.source, .orderBy] =
        some ⟨18, 27⟩ ∧
      (∃ k ∈ [Keyword.source, .orderBy],
        findKeyword "é [from] (from b) ORDER  BY c from d".toList 3 k = some ⟨18, 27⟩) ∧
      (∃ k ∈ [Keyword.source, .orderBy],
        k.StandsIn "é [from] (from b) ORDER  BY c from d".toList ⟨18, 27⟩) ∧
      findKeyword "é [from] (from b) ORDER  BY c from d".toList 3 .source = some ⟨30, 34⟩ ∧
      18 ≤ 30 := by
  have hany : findAnyKeyword "é [from] (from b) ORDER  BY c from d".toList 3
      [.source, .orderBy] = some ⟨18, 27⟩ := by decide +kernel
  have hsource : findKeyword "é [from] (from b) ORDER  BY c from d".toList 3 .source =
      some ⟨30, 34⟩ := by decide +kernel
  obtain ⟨-, hfound, hstands, -⟩ := findAnyKeyword_earliest
    "é [from] (from b) ORDER  BY c from d".toList 3 [.source, .orderBy]
  obtain ⟨hmem, hmin⟩ := hfound _ hany
  exact ⟨hany, hmem, (hstands _ hany).2, hsource, hmin .source (by simp) _ hsource⟩

end LooseSql
