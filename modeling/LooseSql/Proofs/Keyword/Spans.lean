import LooseSql.Proofs.Keyword.Seam
import LooseSql.Proofs.Scan

/-!
# The keywords at the top level of a text

`keywordSpans` lists all spans at which one of several keywords stands at the top level of a text.
The searches of the library take the first of them from some place on (`findAnyKeyword_eq`,
`findKeyword_eq`).

* `keywordSpans_append`: in a text with a seam the spans of the two parts stand one after another;
* `keywordSpans_add`, `keywordSpans_congr`: they do not depend on where a text stands and on what is
  in front of it, unless a word goes on there;
* `exists_of_mem_keywordSpans`: what is known about such a span.
-/

namespace LooseSql

/-- The spans at which one of the keywords stands at the top level of `t`, for a scan that is in
state `s` at its start and has `i` characters behind it, of which `before` is the last. -/
def keywordSpans (ks : List Keyword) (s : ScanState) (i : Nat) (before : Option Char) (t : Text) :
    List Span :=
  (topLevelFrom s i before t).filterMap fun p =>
    if p.char.isAlpha then ks.findSome? fun k => k.at? p else none

/-- All keywords of the list are plain. -/
def ArePlain (ks : List Keyword) : Prop := ∀ k ∈ ks, k.IsPlain

instance (ks : List Keyword) : Decidable (ArePlain ks) :=
  inferInstanceAs (Decidable (∀ k ∈ ks, k.IsPlain))

theorem start_at? {k : Keyword} {p : Place} {r : Span} (h : k.at? p = some r) :
    r.start = p.index := by
  obtain ⟨rest, -, rfl⟩ := Option.map_eq_some_iff.1 h
  rfl

/-! ## Searches -/

theorem findAnyKeyword_eq (t : Text) (start : Nat) (ks : List Keyword) :
    findAnyKeyword t start ks =
      (keywordSpans ks .top 0 none t).find? fun r => decide (start ≤ r.start) := by
  rw [findAnyKeyword, keywordPlaces, topLevel, keywordSpans]
  induction topLevelFrom .top 0 none t with
  | nil => rfl
  | cons p ps ih =>
    -- The search asks for the place before it asks for the keyword; the spans ask the other way
    -- around.
    by_cases halpha : p.char.isAlpha = true
    · cases hk : ks.findSome? fun k => k.at? p with
      | none =>
        rw [List.filterMap_cons_none (by simp [halpha, hk]), ← ih, List.filter_cons]
        split <;> simp [hk]
      | some r =>
        obtain ⟨k, -, hr⟩ := List.exists_of_findSome?_eq_some hk
        rw [List.filterMap_cons_some (by rw [if_pos halpha]; exact hk), List.filter_cons,
          List.find?_cons, start_at? hr, ← ih]
        by_cases hstart : start ≤ p.index <;> simp [halpha, hstart, hk]
    · rw [List.filterMap_cons_none (by simp [halpha]), ← ih,
        List.filter_cons_of_neg (by simp [halpha])]

theorem findKeyword_eq_findAnyKeyword (t : Text) (start : Nat) (k : Keyword) :
    findKeyword t start k = findAnyKeyword t start [k] := by
  rw [findKeyword, findAnyKeyword]
  congr 1
  funext p
  cases h : k.at? p <;> simp [h]

/-! ## The spans of a text in parts -/

theorem keywordSpans_cons (ks : List Keyword) (s : ScanState) (i : Nat) (before : Option Char)
    (c : Char) (t : Text) :
    keywordSpans ks s i before (c :: t) =
      (if s.shows c && c.isAlpha then ks.findSome? fun k => k.at? ⟨i, before, c, t⟩
        else none).toList ++ keywordSpans ks (s.step c) (i + 1) (some c) t := by
  rw [keywordSpans, topLevelFrom]
  cases s.shows c with
  | false => rfl
  | true =>
    simp only [↓reduceIte, Bool.true_and, List.filterMap_cons]
    split <;> simp_all [keywordSpans]

theorem findSome?_congr {α β : Type} {f g : α → Option β} {l : List α} (h : ∀ a ∈ l, f a = g a) :
    l.findSome? f = l.findSome? g := by
  induction l with
  | nil => rfl
  | cons a l ih =>
    rw [List.findSome?_cons, List.findSome?_cons, h a (by simp), ih fun b hb => h b (by simp [hb])]

/-- A keyword at a place is the same with more text behind it, as long as none crosses the seam. -/
theorem at?_extend {k : Keyword} (hk : k.IsPlain) {p : Place} {w : Text} (h : Seam p.rest w) :
    k.at? (p.extend w) = k.at? p := by
  have hafter : k.after? p.before (p.extend w).rest = (k.after? p.before p.rest).map (· ++ w) :=
    Keyword.after?_append hk h (by simp [Place.rest]) p.before
  rw [Keyword.at?, Keyword.at?, show (p.extend w).before = p.before from rfl, hafter,
    Option.map_map]
  congr 1
  funext rest
  have hlen : (p.extend w).rest.length = p.rest.length + w.length := by
    simp [Place.extend, Place.rest]
    omega
  rw [Function.comp_apply, hlen, List.length_append, Nat.add_sub_add_right]
  rfl

/-- The keywords of a text in two parts are those of the first part and those of the second. -/
theorem keywordSpans_append {ks : List Keyword} (hks : ArePlain ks) {u w : Text} (h : Seam u w)
    (s : ScanState) (i : Nat) (before : Option Char) :
    keywordSpans ks s i before (u ++ w) = keywordSpans ks s i before u ++
      keywordSpans ks (scan s u) (i + u.length) (u.getLast?.or before) w := by
  rw [keywordSpans, topLevelFrom_append, List.filterMap_append, List.filterMap_map, keywordSpans,
    keywordSpans]
  congr 1
  apply List.filterMap_congr
  intro p hp
  obtain ⟨v, rfl, -⟩ := exists_of_mem_topLevelFrom hp
  -- A place of the first part sees more text behind it, but no keyword across the seam.
  have hat : ∀ k ∈ ks, k.at? (p.extend w) = k.at? p := fun k hk => at?_extend (hks k hk) h.of_append
  change (if p.char.isAlpha then ks.findSome? fun k => k.at? (p.extend w) else none) = _
  rw [findSome?_congr hat]

/-- Moving a text moves its keywords. -/
theorem keywordSpans_add (ks : List Keyword) (s : ScanState) (i n : Nat) (before : Option Char)
    (t : Text) : keywordSpans ks s (i + n) before t =
      (keywordSpans ks s i before t).map (Span.map (· + n)) := by
  induction t generalizing s i before with
  | nil => rfl
  | cons c t ih =>
    -- A place is read from the text behind it, whatever its number is.
    have hat : ∀ k : Keyword, k.at? ⟨i + n, before, c, t⟩ =
        (k.at? ⟨i, before, c, t⟩).map (Span.map (· + n)) := by
      intro k
      rw [Keyword.at?, Keyword.at?, Option.map_map]
      congr 1
      funext rest
      exact congrArg (Span.mk _) (Nat.add_right_comm i n _)
    have hfind : (ks.findSome? fun k => k.at? ⟨i + n, before, c, t⟩) =
        (ks.findSome? fun k => k.at? ⟨i, before, c, t⟩).map (Span.map (· + n)) := by
      rw [List.map_findSome?, findSome?_congr fun k _ => hat k]
      rfl
    rw [keywordSpans_cons, keywordSpans_cons, Nat.add_right_comm, ih, hfind, List.map_append]
    congr 1
    split
    · exact Option.toList_map
    · rfl

/-- The keywords of a text depend on the character in front of it only as far as a word could go on
from there. -/
theorem keywordSpans_congr {before before' : Option Char}
    (h : before.any isWordChar = before'.any isWordChar) (ks : List Keyword) (s : ScanState)
    (i : Nat) (t : Text) : keywordSpans ks s i before t = keywordSpans ks s i before' t := by
  cases t with
  | nil => rfl
  | cons c t =>
    have hat : ∀ k : Keyword, k.at? ⟨i, before, c, t⟩ = k.at? ⟨i, before', c, t⟩ := by
      intro k
      rw [Keyword.at?, Keyword.at?, Keyword.after?_congr h]
      rfl
    simp only [keywordSpans_cons, hat]

/-- A text without letters has no keywords. -/
theorem keywordSpans_of_not_alpha {t : Text} (ht : ∀ c ∈ t, c.isAlpha = false)
    (ks : List Keyword) (s : ScanState) (i : Nat) (before : Option Char) :
    keywordSpans ks s i before t = [] := by
  induction t generalizing s i before with
  | nil => rfl
  | cons c t ih =>
    rw [keywordSpans_cons, ht c (by simp), Bool.and_false, ih fun d hd => ht d (by simp [hd])]
    rfl

/-! ## One span -/

/-- What is known about the span of a keyword: the text in front of it ends at the top level, and
the keyword starts and ends with a letter. -/
theorem exists_of_mem_keywordSpans {ks : List Keyword} (hks : ArePlain ks) {s : ScanState} {i : Nat}
    {before : Option Char} {t : Text} {r : Span} (hr : r ∈ keywordSpans ks s i before t) :
    ∃ u m rest : Text, t = u ++ (m ++ rest) ∧ r = ⟨i + u.length, i + u.length + m.length⟩ ∧
      scan s u = .top ∧ (∃ k ∈ ks, k.after? (u.getLast?.or before) (m ++ rest) = some rest) ∧
      (∃ c ∈ m.head?, c.isAlpha = true) ∧ (∃ c ∈ m.getLast?, c.isAlpha = true) := by
  obtain ⟨p, hp, hfind⟩ := List.mem_filterMap.1 hr
  obtain ⟨u, rfl, hindex, hbefore, hshows⟩ := exists_of_mem_topLevelFrom hp
  by_cases halpha : p.char.isAlpha = true
  · rw [if_pos halpha] at hfind
    obtain ⟨k, hk, hat⟩ := List.exists_of_findSome?_eq_some hfind
    obtain ⟨rest, hafter, rfl⟩ := Option.map_eq_some_iff.1 hat
    obtain ⟨m, hm, ⟨c, hc, _, _, _, _, _, hcalpha⟩, hlast, -⟩ :=
      Keyword.exists_of_after? (hks k hk) hafter
    refine ⟨u, m, rest, by rw [hm], ?_, ScanState.eq_top_of_shows hshows,
      ⟨k, hk, by rw [← hm, ← hbefore]; exact hafter⟩, ⟨c, hc, hcalpha⟩, hlast⟩
    simp [hindex, hm]
  · simp [halpha] at hfind

/-- A text that starts with a keyword has it as its first one. -/
theorem keywordSpans_of_after? {ks : List Keyword} {k : Keyword} (hks : ArePlain ks) (hk : k ∈ ks)
    {before : Option Char} {y rest : Text} (h : k.after? before y = some rest) (i : Nat) :
    ∃ n others, keywordSpans ks .top i before y = ⟨i, n⟩ :: others := by
  obtain ⟨m, rfl, ⟨c, hc, -, -, -, -, -, halpha⟩, -⟩ := Keyword.exists_of_after? (hks k hk) h
  obtain ⟨m, rfl⟩ := List.head?_eq_some_iff.1 (Option.mem_def.1 hc)
  have hshows : ScanState.top.shows c = true :=
    ScanState.top_shows (isScanMark_of_isAlpha halpha)
  -- Another keyword of the list may start here as well, but one of them does.
  obtain ⟨r, hr⟩ : ∃ r, ks.findSome? (fun k => k.at? ⟨i, before, c, m ++ rest⟩) = some r := by
    rw [← Option.isSome_iff_exists, List.findSome?_isSome_iff]
    refine ⟨k, hk, ?_⟩
    rw [Keyword.at?, show (Place.mk i before c (m ++ rest)).rest = c :: m ++ rest from rfl, h]
    rfl
  obtain ⟨k', -, hat⟩ := List.exists_of_findSome?_eq_some hr
  obtain rfl : r.start = i := start_at? hat
  rw [List.cons_append, keywordSpans_cons, hshows, halpha, hr]
  exact ⟨r.stop, _, rfl⟩

/-- A keyword of one word is as long as the word and made of letters. -/
theorem stop_of_mem_keywordSpans {word : Text} (hword : Keyword.IsPlain [word]) {s : ScanState}
    {before : Option Char} {t : Text} {r : Span}
    (hr : r ∈ keywordSpans [[word]] s 0 before t) :
    r.stop = r.start + word.length ∧ ∀ c ∈ r.slice t, c.isAlpha = true := by
  obtain ⟨u, m, rest, rfl, rfl, -, ⟨k, hk, hafter⟩, -⟩ :=
    exists_of_mem_keywordSpans (by simpa [ArePlain] using hword) hr
  obtain rfl : k = [word] := by simpa using hk
  obtain ⟨m', hm', heq⟩ := Keyword.exists_of_afterWord? (Keyword.after?_eq_some_iff.1 hafter).2.1
  obtain rfl : m = m' := List.append_cancel_right hm'
  have hlen : m.length = word.length := by simpa using congrArg List.length heq
  have hslice : Span.slice ⟨0 + u.length, 0 + u.length + m.length⟩ (u ++ (m ++ rest)) = m := by
    rw [Span.slice, Nat.zero_add, List.drop_left, Nat.add_sub_cancel_left, List.take_left]
  refine ⟨by rw [hlen], ?_⟩
  rw [hslice]
  exact Keyword.isAlpha_of_map_toLower_eq heq (hword.2.1 word (by simp)).2

/-- The span of a keyword lies inside the text and is not empty. -/
theorem bounds_of_mem_keywordSpans {ks : List Keyword} (hks : ArePlain ks) {s : ScanState} {i : Nat}
    {before : Option Char} {t : Text} {r : Span} (hr : r ∈ keywordSpans ks s i before t) :
    i ≤ r.start ∧ r.start < r.stop ∧ r.stop ≤ i + t.length := by
  obtain ⟨u, m, rest, rfl, rfl, -, -, ⟨c, hc, -⟩, -⟩ := exists_of_mem_keywordSpans hks hr
  have hm : 0 < m.length := List.length_pos_iff.2 fun h => by simp [h] at hc
  simp only [List.length_append]
  omega

end LooseSql
