import LooseSql.Text.Blank
import Mathlib.Data.List.DropRight

/-!
# Blanks at the ends of a text

How trimming acts on a text that is put together of parts, and where the trimmed span of a stretch
lies. A text has no blank at its start or its end exactly when trimming leaves it as it is.

* `Text.trimStart_append`, `Text.trimEnd_append`: a part that is not blank shields the other one;
* `Span.slice_trim`: the trimmed span holds the trimmed text;
* `Span.start_le_start_trim`, `Span.start_trim_le_stop_trim`, `Span.stop_trim_le_stop`: the trimmed
  span lies inside the span.
-/

namespace LooseSql

namespace Text

/-! ## Leading blanks -/

/-- Blanks in front of a text are dropped with its own leading blanks. -/
theorem trimStart_append_of_blank {ws : Text} (hws : ∀ c ∈ ws, isBlank c) (t : Text) :
    trimStart (ws ++ t) = trimStart t :=
  List.dropWhile_append_of_pos hws

/-- Only a blank text has nothing left without its leading blanks. -/
theorem trimStart_eq_nil_iff {t : Text} : trimStart t = [] ↔ ∀ c ∈ t, isBlank c :=
  List.dropWhile_eq_nil_iff

/-- What follows a text that is not blank stays when leading blanks are dropped. -/
theorem trimStart_append {t : Text} (ht : trimStart t ≠ []) (v : Text) :
    trimStart (t ++ v) = trimStart t ++ v := by
  rw [trimStart, List.dropWhile_append, if_neg]
  · rfl
  · simpa [trimStart, List.isEmpty_iff] using ht

/-- A text is blanks followed by what is left without them. -/
theorem exists_blank_append_trimStart (t : Text) :
    ∃ ws : Text, (∀ c ∈ ws, isBlank c) ∧ ws ++ trimStart t = t :=
  ⟨t.takeWhile isBlank, fun _ hc => List.mem_takeWhile_imp hc, List.takeWhile_append_dropWhile⟩

/-- What is left without leading blanks does not start with one. -/
theorem isBlank_head?_trimStart (t : Text) : ∀ c ∈ (trimStart t).head?, isBlank c = false := by
  intro c hc
  have h := List.head?_dropWhile_not isBlank t
  rw [show (t.dropWhile isBlank).head? = some c from hc] at h
  simpa using h

/-- A text has no leading blank exactly when there is nothing to drop. -/
theorem trimStart_eq_self_iff {t : Text} :
    trimStart t = t ↔ ∀ c ∈ t.head?, isBlank c = false := by
  constructor
  · intro h
    rw [← h]
    exact isBlank_head?_trimStart t
  · intro h
    cases t with
    | nil => rfl
    | cons c t => exact List.dropWhile_cons_of_neg (by simpa using h c rfl)

/-- What follows blanks, if there are any. -/
theorem afterBlanks?_eq (t : Text) :
    afterBlanks? t = if t.head?.any isBlank then some (trimStart t) else none := by
  cases t with
  | nil => rfl
  | cons c t =>
    by_cases hc : isBlank c = true
    · rw [afterBlanks?, if_pos hc, if_pos (by simpa using hc), trimStart, trimStart,
        List.dropWhile_cons_of_pos hc]
    · rw [afterBlanks?, if_neg hc, if_neg (by simpa using hc)]

/-- Blanks stand in front of what follows them. -/
theorem exists_of_afterBlanks? {t rest : Text} (h : afterBlanks? t = some rest) :
    ∃ ws : Text, t = ws ++ rest ∧ ∀ c ∈ ws, isBlank c := by
  obtain ⟨ws, hws, hsplit⟩ := exists_blank_append_trimStart t
  rw [afterBlanks?_eq] at h
  split at h
  · exact ⟨ws, by rw [← Option.some.inj h, hsplit], hws⟩
  · cases h

theorem afterBlanks?_suffix {t rest : Text} (h : afterBlanks? t = some rest) : rest <:+ t := by
  obtain ⟨ws, rfl, -⟩ := exists_of_afterBlanks? h
  exact List.suffix_append ws rest

/-! ## Trailing blanks -/

theorem trimEnd_eq_rdropWhile (t : Text) : trimEnd t = t.rdropWhile isBlank := rfl

/-- Blanks behind a text are dropped with its own trailing blanks. -/
theorem trimEnd_append_of_blank (t : Text) {ws : Text} (hws : ∀ c ∈ ws, isBlank c) :
    trimEnd (t ++ ws) = trimEnd t := by
  rw [trimEnd, List.reverse_append, List.dropWhile_append_of_pos (by simpa using hws)]
  rfl

/-- Only a blank text has nothing left without its trailing blanks. -/
theorem trimEnd_eq_nil_iff {t : Text} : trimEnd t = [] ↔ ∀ c ∈ t, isBlank c :=
  List.rdropWhile_eq_nil_iff

/-- What stands in front of a text that is not blank stays when trailing blanks are dropped. -/
theorem trimEnd_append (t : Text) {v : Text} (hv : trimEnd v ≠ []) :
    trimEnd (t ++ v) = t ++ trimEnd v := by
  have hv' : trimStart v.reverse ≠ [] := by
    intro h
    exact hv (by rw [trimEnd, show v.reverse.dropWhile isBlank = [] from h]; rfl)
  have h := trimStart_append hv' t.reverse
  rw [trimEnd, List.reverse_append, show (v.reverse ++ t.reverse).dropWhile isBlank = _ from h,
    List.reverse_append, List.reverse_reverse]
  rfl

/-- A text is what is left without its trailing blanks, followed by these. -/
theorem exists_trimEnd_append_blank (t : Text) :
    ∃ ws : Text, (∀ c ∈ ws, isBlank c) ∧ trimEnd t ++ ws = t :=
  ⟨t.rtakeWhile isBlank, fun _ hc => List.mem_rtakeWhile_imp hc, List.rdropWhile_append_rtakeWhile⟩

/-- A text has no trailing blank exactly when there is nothing to drop. -/
theorem trimEnd_eq_self_iff {t : Text} :
    trimEnd t = t ↔ ∀ c ∈ t.getLast?, isBlank c = false := by
  rw [trimEnd_eq_rdropWhile, List.rdropWhile_eq_self_iff]
  cases t using List.reverseRecOn with
  | nil => simp
  | append_singleton t c => simp

theorem trimEnd_eq_self_of_getLast? {t : Text} {c : Char} (ht : t.getLast? = some c)
    (hc : isBlank c = false) : trimEnd t = t := by
  refine trimEnd_eq_self_iff.2 fun d hd => ?_
  rw [ht] at hd
  rwa [← Option.some.inj hd]

theorem trimEnd_trimEnd (t : Text) : trimEnd (trimEnd t) = trimEnd t :=
  List.rdropWhile_idempotent isBlank t

/-- Whether a text ends in a blank is seen from its last part. -/
theorem trimEnd_append_eq_self_iff (t : Text) {v : Text} (hv : v ≠ []) :
    trimEnd (t ++ v) = t ++ v ↔ trimEnd v = v := by
  rw [trimEnd_eq_self_iff, trimEnd_eq_self_iff, List.getLast?_append_of_ne_nil _ hv]

/-! ## Both ends -/

section Solid

variable {w : Text} (hw : w ≠ [])

include hw

/-- A part that does not start with a blank shields what follows it. -/
theorem trimStart_of_solid (hstart : trimStart w = w) {a b : Text} :
    trimStart (a ++ (w ++ b)) = trimStart a ++ (w ++ b) := by
  by_cases ha : trimStart a = []
  · rw [trimStart_append_of_blank (trimStart_eq_nil_iff.1 ha),
      trimStart_append (by rwa [hstart]), hstart, ha, List.nil_append]
  · rw [trimStart_append ha]

/-- A part that does not end in a blank shields what stands in front of it. -/
theorem trimEnd_of_solid (hend : trimEnd w = w) {a b : Text} :
    trimEnd (a ++ (w ++ b)) = a ++ (w ++ trimEnd b) := by
  rw [← List.append_assoc]
  by_cases hb : trimEnd b = []
  · rw [trimEnd_append_of_blank _ (trimEnd_eq_nil_iff.1 hb), trimEnd_append _ (by rwa [hend]),
      hend, hb, List.append_nil]
  · rw [trimEnd_append _ hb, List.append_assoc]

end Solid

/-- A text with blanks behind it is trimmed as it is without them. -/
theorem trim_append_of_blank (x : Text) {ws : Text} (hws : ∀ c ∈ ws, isBlank c) :
    trim (x ++ ws) = trim x := by
  by_cases hx : trimStart x = []
  · rw [trim, trimStart_append_of_blank (trimStart_eq_nil_iff.1 hx), trim, hx,
      trimStart_eq_nil_iff.2 hws]
  · rw [trim, trimStart_append hx, trimEnd_append_of_blank _ hws, trim]

/-- A text with blanks in front of it is trimmed as it is without them. -/
theorem trim_blank_append {ws : Text} (hws : ∀ c ∈ ws, isBlank c) (x : Text) :
    trim (ws ++ x) = trim x := by
  rw [trim, trimStart_append_of_blank hws, trim]

/-- A text without a blank at its start and its end is trimmed, whatever blanks stand around it. -/
theorem trim_append_append {ws t ws' : Text} (hws : ∀ c ∈ ws, isBlank c)
    (hstart : trimStart t = t) (hend : trimEnd t = t) (hws' : ∀ c ∈ ws', isBlank c) :
    trim (ws ++ t ++ ws') = t := by
  rw [trim, List.append_assoc, trimStart_append_of_blank hws]
  by_cases ht : t = []
  · subst ht
    rw [List.nil_append, trimStart_eq_nil_iff.2 hws']
    rfl
  · rw [trimStart_append (by rwa [hstart]), hstart, trimEnd_append_of_blank t hws', hend]

/-- A text that trimming leaves as it is has no blank at its start and none at its end. -/
theorem trim_eq_self_iff {t : Text} : trim t = t ↔ trimStart t = t ∧ trimEnd t = t := by
  constructor
  · intro h
    have hle : (trim t).length ≤ (trimStart t).length := length_trimEnd_le _
    rw [h] at hle
    have hlen : (trimStart t).length = t.length := Nat.le_antisymm (length_trimStart_le t) hle
    have hstart : trimStart t = t := (List.dropWhile_sublist isBlank).eq_of_length hlen
    exact ⟨hstart, by rwa [trim, hstart] at h⟩
  · rintro ⟨hstart, hend⟩
    rw [trim, hstart, hend]

/-- A text that keeps some characters without its trailing blanks keeps its first one. -/
theorem mem_head?_of_mem_head?_trimEnd {t : Text} {c : Char} (hc : c ∈ (trimEnd t).head?) :
    c ∈ t.head? := by
  obtain ⟨ws, -, hsplit⟩ := exists_trimEnd_append_blank t
  rw [← hsplit, List.head?_append, Option.mem_def.1 hc]
  rfl

theorem trim_trim (t : Text) : trim (trim t) = trim t := by
  refine trim_eq_self_iff.2 ⟨trimStart_eq_self_iff.2 fun c hc => ?_, trimEnd_trimEnd _⟩
  exact isBlank_head?_trimStart t c (mem_head?_of_mem_head?_trimEnd hc)

/-- Trimming that keeps the length keeps the text. -/
theorem trim_eq_self_of_length {t : Text} (h : t.length ≤ (trim t).length) : trim t = t := by
  have hend := length_trimEnd_le (trimStart t)
  rw [← trim] at hend
  have hstart : trimStart t = t :=
    (List.dropWhile_sublist isBlank).eq_of_length
      (Nat.le_antisymm (length_trimStart_le t) (h.trans hend))
  have hsublist : List.Sublist (trimEnd t) t := by
    rw [trimEnd_eq_rdropWhile]
    exact (List.rdropWhile_prefix isBlank t).sublist
  rw [trim, hstart] at h ⊢
  exact hsublist.eq_of_length (Nat.le_antisymm (length_trimEnd_le t) h)

end Text

namespace Span

variable (s : Span) (t : Text)

/-! ## Trimmed spans -/

/-- A span is cut out of a text that is long enough for it. -/
theorem length_slice {s : Span} {t : Text} (ht : s.stop ≤ t.length) :
    (s.slice t).length = s.stop - s.start := by
  rw [slice, List.length_take, List.length_drop]
  omega

theorem start_le_start_trim : s.start ≤ (s.trim t).start :=
  Nat.le_add_right _ _

theorem start_trim_le_stop_trim : (s.trim t).start ≤ (s.trim t).stop :=
  Nat.le_max_left _ _

/-- The trimmed span ends no later than the span. -/
theorem stop_trim_le_stop (hs : s.start ≤ s.stop) : (s.trim t).stop ≤ s.stop := by
  have hlen : (s.slice t).length ≤ s.stop - s.start := by
    rw [slice, List.length_take]
    exact Nat.min_le_left _ _
  have hend := Text.length_trimEnd_le (s.slice t)
  simp only [trim]
  omega

/-- A stretch that does not end in a blank is trimmed at its start only. -/
theorem stop_trim_of_trimEnd {s : Span} {t : Text} (hs : s.start ≤ s.stop) (ht : s.stop ≤ t.length)
    (hend : Text.trimEnd (s.slice t) = s.slice t) : (s.trim t).stop = s.stop := by
  have hlen := length_slice ht
  have hstart := Text.length_trimStart_le (s.slice t)
  simp only [trim, hend]
  omega

/-- Where the trimmed span lies, once the blanks at the two ends of the stretch are known. A blank
stretch has them all in front. -/
theorem trim_of_slice_eq {s : Span} {t ws m ws' : Text} (hslice : s.slice t = ws ++ (m ++ ws'))
    (hws : ∀ c ∈ ws, isBlank c) (hws' : ∀ c ∈ ws', isBlank c) (hstart : Text.trimStart m = m)
    (hend : Text.trimEnd m = m) (hempty : m = [] → ws' = []) :
    s.trim t = ⟨s.start + ws.length, s.start + ws.length + m.length⟩ := by
  by_cases hm : m = []
  · rw [hempty hm, hm, List.append_nil, List.append_nil] at hslice
    rw [trim, hslice, Text.trimStart_eq_nil_iff.2 hws, Text.trimEnd_eq_nil_iff.2 hws, hm]
    simp
  · have h₁ : Text.trimStart (ws ++ (m ++ ws')) = m ++ ws' := by
      rw [Text.trimStart_append_of_blank hws, Text.trimStart_append (by rwa [hstart]), hstart]
    have h₂ : Text.trimEnd (ws ++ (m ++ ws')) = ws ++ m := by
      rw [← List.append_assoc, Text.trimEnd_append_of_blank _ hws',
        Text.trimEnd_append _ (by rwa [hend]), hend]
    simp only [trim, hslice, h₁, h₂, List.length_append, mk.injEq]
    omega

/-- A stretch is a trimmed text with blanks around it. -/
theorem exists_slice_eq : ∃ ws m ws' : Text, s.slice t = ws ++ (m ++ ws') ∧
    (∀ c ∈ ws, isBlank c) ∧ (∀ c ∈ ws', isBlank c) ∧ Text.trimStart m = m ∧
    Text.trimEnd m = m ∧ (m = [] → ws' = []) := by
  obtain ⟨ws, hws, hleft⟩ := Text.exists_blank_append_trimStart (s.slice t)
  obtain ⟨ws', hws', hright⟩ := Text.exists_trimEnd_append_blank (Text.trimStart (s.slice t))
  have hhead := Text.isBlank_head?_trimStart (s.slice t)
  refine ⟨ws, Text.trim (s.slice t), ws', ?_, hws, hws', ?_, Text.trimEnd_trimEnd _, ?_⟩
  · rw [Text.trim, hright, hleft]
  · rw [Text.trimStart_eq_self_iff]
    intro c hc
    rw [Text.trim] at hc
    apply hhead c
    rw [← hright, List.head?_append, Option.mem_def.1 hc]
    rfl
  · -- Nothing is left, so what was trimmed at the end would have been trimmed at the start.
    intro hm
    rw [Text.trim] at hm
    rw [← hright, hm, List.nil_append] at hhead
    cases ws' with
    | nil => rfl
    | cons c ws' => simpa [hws' c (by simp)] using hhead c rfl

/-- The trimmed span holds the trimmed text. -/
theorem slice_trim : (s.trim t).slice t = (s.slice t).trim := by
  obtain ⟨ws, m, ws', hslice, hws, hws', hstart, hend, hempty⟩ := s.exists_slice_eq t
  rw [trim_of_slice_eq hslice hws hws' hstart hend hempty, hslice, ← List.append_assoc,
    Text.trim_append_append hws hstart hend hws']
  have hdrop : (s.slice t).drop ws.length = (t.drop (s.start + ws.length)).take
      (s.stop - s.start - ws.length) := by
    rw [slice, List.drop_take, List.drop_drop]
  have hlen : ws.length + m.length ≤ s.stop - s.start := by
    have h := congrArg List.length hslice
    rw [slice, List.length_take] at h
    simp only [List.length_append] at h
    omega
  -- The inner slice is the outer one without its blanks at the start, cut to its new length.
  calc (t.drop (s.start + ws.length)).take (s.start + ws.length + m.length - (s.start + ws.length))
      = ((s.slice t).drop ws.length).take m.length := by
        rw [hdrop, List.take_take, Nat.min_eq_left (by omega)]
        congr 1
        omega
    _ = m := by rw [hslice, List.drop_left, List.take_left]

/-- Around a trimmed stretch stand only blanks. -/
theorem isBlank_around_trim :
    (∀ c ∈ slice ⟨s.start, (s.trim t).start⟩ t, isBlank c) ∧
      ∀ c ∈ slice ⟨(s.trim t).stop, s.stop⟩ t, isBlank c := by
  obtain ⟨ws, m, ws', hslice, hws, hws', hstart, hend, hempty⟩ := s.exists_slice_eq t
  rw [trim_of_slice_eq hslice hws hws' hstart hend hempty]
  have hlen := congrArg List.length hslice
  rw [slice, List.length_take, List.length_append, List.length_append] at hlen
  have hfront : slice ⟨s.start, s.start + ws.length⟩ t = ws := by
    have hle : ws.length ≤ s.stop - s.start := by omega
    calc slice ⟨s.start, s.start + ws.length⟩ t
        = (s.slice t).take ws.length := by
          rw [slice, slice, Nat.add_sub_cancel_left, List.take_take, Nat.min_eq_left hle]
      _ = ws := by rw [hslice, List.take_left]
  have hback : slice ⟨s.start + ws.length + m.length, s.stop⟩ t = ws' := by
    calc slice ⟨s.start + ws.length + m.length, s.stop⟩ t
        = (s.slice t).drop (ws ++ m).length := by
          rw [slice, slice, List.drop_take, List.drop_drop, List.length_append, Nat.add_assoc,
            Nat.sub_sub]
      _ = ws' := by rw [hslice, ← List.append_assoc, List.drop_left]
  rw [hfront, hback]
  exact ⟨hws, hws'⟩

/-! ## Spans of a text in parts -/

/-- A span holds the part of a text between its two ends. -/
theorem slice_of_eq_append {i j : Nat} {t a m b : Text} (ht : t = a ++ (m ++ b))
    (hi : i = a.length) (hj : j = i + m.length) : slice ⟨i, j⟩ t = m := by
  rw [slice, ht, hi, hj, List.drop_left, hi, Nat.add_sub_cancel_left, List.take_left]

theorem slice_eq_drop_take (s : Span) (t : Text) : s.slice t = (t.take s.stop).drop s.start := by
  rw [slice, List.drop_take]

/-- The text up to the end of a span. -/
theorem take_append_slice {s : Span} (hs : s.start ≤ s.stop) (t : Text) :
    t.take s.start ++ s.slice t = t.take s.stop := by
  have htake : t.take s.start = (t.take s.stop).take s.start := by
    rw [List.take_take, Nat.min_eq_left hs]
  rw [slice_eq_drop_take, htake, List.take_append_drop]

/-- A text in three parts around a span. -/
theorem take_append_slice_append_drop {s : Span} (hs : s.start ≤ s.stop) (t : Text) :
    t.take s.start ++ (s.slice t ++ t.drop s.stop) = t := by
  rw [← List.append_assoc, take_append_slice hs, List.take_append_drop]

variable {s t}

theorem trim_congr {t' : Text} (h : s.slice t = s.slice t') : s.trim t = s.trim t' := by
  rw [trim, trim, h]

/-- A span of the first part is the same in the whole text. -/
theorem slice_append_left (hs : s.stop ≤ t.length) (w : Text) : s.slice (t ++ w) = s.slice t := by
  rcases Nat.le_total s.start t.length with hstart | hstart
  · rw [slice, slice, List.drop_append_of_le_length hstart, List.take_append_of_le_length]
    rw [List.length_drop]
    omega
  · have hempty : s.stop - s.start = 0 := by omega
    rw [slice, slice, hempty, List.take_zero, List.take_zero]

/-- A span of the second part is the same in the whole text, at another place. -/
theorem slice_append_right (s : Span) (u t : Text) :
    (s.map (u.length + ·)).slice (u ++ t) = s.slice t := by
  rw [slice, slice, map, List.drop_append, Nat.add_sub_cancel_left,
    List.drop_eq_nil_of_le (Nat.le_add_right _ _), List.nil_append, Nat.add_sub_add_left]

theorem trim_append_right (s : Span) (u t : Text) :
    (s.map (u.length + ·)).trim (u ++ t) = (s.trim t).map (u.length + ·) := by
  rw [trim, trim, slice_append_right]
  simp only [map, mk.injEq]
  omega

/-- A stretch that holds a trimmed part with blanks around it is trimmed to this part. -/
theorem trim_of_eq_append {i j : Nat} {t : Text} (a ws m ws' b : Text)
    (ht : t = a ++ (ws ++ (m ++ ws') ++ b)) (hm : m ≠ []) (hws : ∀ c ∈ ws, isBlank c)
    (hws' : ∀ c ∈ ws', isBlank c) (htrim : Text.trim m = m) (hi : i = a.length)
    (hj : j = i + ws.length + m.length + ws'.length) :
    trim ⟨i, j⟩ t = ⟨i + ws.length, i + ws.length + m.length⟩ := by
  obtain ⟨hstart, hend⟩ := Text.trim_eq_self_iff.1 htrim
  refine trim_of_slice_eq (slice_of_eq_append ht hi ?_) hws hws' hstart hend fun h => absurd h hm
  rw [hj]
  simp only [List.length_append]
  omega

/-- A stretch is trimmed at its two ends only, if it holds something that is not blank. -/
theorem trim_of_solid {a w b : Text} (hslice : s.slice t = a ++ (w ++ b)) (hw : w ≠ [])
    (hstart : Text.trimStart w = w) (hend : Text.trimEnd w = w) :
    s.trim t = ⟨s.start + (a.length - (Text.trimStart a).length),
      s.start + (a.length + (w.length + (Text.trimEnd b).length))⟩ := by
  have hlen := Text.length_trimStart_le a
  simp only [trim, hslice, Text.trimStart_of_solid hw hstart, Text.trimEnd_of_solid hw hend,
    List.length_append, mk.injEq]
  omega

end Span

end LooseSql
