import LooseSql.Proofs.Clause.Carries

/-!
# Text in parentheses and quotes

What stands between parentheses or quotes never moves a clause. Let `a` be a text that ends at the
top level. If the text `x` in `a(x)b`, or in `a'x'b`, is exchanged for `x'`, then each place of the
layout in front of it stays, and each place behind it moves by the difference in length.

* `Enclosure`: parentheses or one of the three quotes, with `Enclosure.Fits` for what may stand in
  them;
* `Carries t t' f`: a change `f` of places under which the text `t'` looks like `t` to every search
  and to trimming. The clauses are carried along (`Carries.layout_map`);
* `Enclosure.carries`: exchanging an enclosed text is such a change;
* `Layout.locate?_exchange`: the layout under the exchange, in places and in bytes.
-/

namespace LooseSql

/-! ## Enclosed texts -/

/-- The parentheses of the text close one another, and so do its quotes: a scan that starts at the
top level comes back to it and meets no closing parenthesis without a partner. -/
def Text.IsBalanced (x : Text) : Prop :=
  scan .top x = .top ∧ ∀ i < x.length, x[i]? = some ')' →
    (scan .top (x.take i)).quote = none → 0 < (scan .top (x.take i)).depth

instance (x : Text) : Decidable x.IsBalanced := inferInstanceAs (Decidable (_ ∧ _))

/-- In front of a closing parenthesis of a balanced text some parenthesis is open. -/
theorem Text.IsBalanced.depth_pos {x u v : Text} (hx : x.IsBalanced) (huv : x = u ++ ')' :: v)
    (hquote : (scan .top u).quote = none) : 0 < (scan .top u).depth := by
  have h := hx.2 u.length (by simp [huv]) (by simp [huv])
  rw [huv, List.take_left] at h
  exact h hquote

/-- A way to enclose a text. -/
inductive Enclosure where
  /-- In parentheses. -/
  | parentheses
  /-- In a quote. -/
  | quote (q : Quote)
  deriving DecidableEq, Repr

namespace Enclosure

/-- The character that stands in front of the enclosed text. -/
def opener : Enclosure → Char
  | parentheses => '('
  | quote q => q.opener

/-- The character that stands behind the enclosed text. -/
def closer : Enclosure → Char
  | parentheses => ')'
  | quote q => q.closer

/-- The enclosed text with the characters around it. -/
def wrap (e : Enclosure) (x : Text) : Text := e.opener :: (x ++ [e.closer])

/-- The text does not end the enclosure before its end. -/
def Fits : Enclosure → Text → Prop
  | parentheses, x => x.IsBalanced
  | quote q, x => q.closer ∉ x

instance (e : Enclosure) (x : Text) : Decidable (e.Fits x) :=
  match e with
  | parentheses => inferInstanceAs (Decidable x.IsBalanced)
  | quote q => inferInstanceAs (Decidable (q.closer ∉ x))

/-- The state of a scan inside the enclosure. -/
def inner : Enclosure → ScanState
  | parentheses => ⟨1, none⟩
  | quote q => ⟨0, some q⟩

/-- The state one level deeper in parentheses. -/
def deeper (s : ScanState) : ScanState := { s with depth := s.depth + 1 }

/-- A text that closes no parenthesis of its surroundings is scanned one level deeper as it is
scanned at the top, and it shows nothing there. -/
theorem scan_deeper {x : Text} {s : ScanState}
    (hx : ∀ u v, x = u ++ ')' :: v → (scan s u).quote = none → 0 < (scan s u).depth) :
    scan (deeper s) x = deeper (scan s x) ∧
      ∀ i before, topLevelFrom (deeper s) i before x = [] := by
  induction x generalizing s with
  | nil => exact ⟨rfl, fun _ _ => rfl⟩
  | cons c x ih =>
    have hstep : (deeper s).step c = deeper (s.step c) := by
      -- A parenthesis that closes finds one level to take off, so the level below is never reached.
      have hclose : c = ')' → s.quote = none → 0 < s.depth := fun hc => hx [] x (by rw [hc]; rfl)
      rcases s with ⟨depth, quote⟩
      unfold deeper ScanState.step
      rcases quote with _ | q
      · simp only
        cases Quote.ofOpener? c with
        | some q => rfl
        | none =>
          by_cases hopen : c = '('
          · simp [hopen]
          · by_cases hc : c = ')'
            · have hpos : 0 < depth := hclose hc rfl
              simp [hc]
              omega
            · simp [hopen, hc]
      · simp only
        split <;> rfl
    obtain ⟨hscan, hplaces⟩ := ih fun u v huv =>
      hx (c :: u) v (by rw [huv, List.cons_append])
    refine ⟨by rw [scan_cons, hstep, hscan, scan_cons], fun i before => ?_⟩
    have hshows : (deeper s).shows c = false := by simp [deeper, ScanState.shows]
    rw [topLevelFrom, hstep, hplaces, hshows]
    rfl

/-- A text without the closing mark of a quote stays in the quote and shows nothing. -/
theorem scan_quoted {q : Quote} {x : Text} (hx : q.closer ∉ x) :
    scan ⟨0, some q⟩ x = ⟨0, some q⟩ ∧
      ∀ i before, topLevelFrom ⟨0, some q⟩ i before x = [] := by
  induction x with
  | nil => exact ⟨rfl, fun _ _ => rfl⟩
  | cons c x ih =>
    have hstep : (ScanState.mk 0 (some q)).step c = ⟨0, some q⟩ :=
      ScanState.step_of_ne_closer rfl fun h => hx (by simp [h])
    obtain ⟨hscan, hplaces⟩ := ih fun hmem => hx (by simp [hmem])
    refine ⟨by rw [scan_cons, hstep, hscan], fun i before => ?_⟩
    rw [topLevelFrom, hstep, hplaces]
    rfl

variable {e : Enclosure} {x : Text}

/-- A scan passes over an enclosed text without showing any of it. -/
theorem scan_inner (hx : e.Fits x) :
    scan e.inner x = e.inner ∧ ∀ i before, topLevelFrom e.inner i before x = [] := by
  cases e with
  | parentheses =>
    obtain ⟨hscan, hplaces⟩ := scan_deeper (s := .top) fun _ _ => hx.depth_pos
    exact ⟨by rw [show inner .parentheses = deeper .top from rfl, hscan, hx.1], hplaces⟩
  | quote q => exact scan_quoted hx

theorem step_opener (e : Enclosure) : ScanState.top.step e.opener = e.inner := by
  rcases e with _ | q
  · rfl
  · cases q <;> rfl

theorem step_closer (e : Enclosure) : e.inner.step e.closer = .top := by
  rcases e with _ | q
  · rfl
  · cases q <;> rfl

theorem shows_closer (e : Enclosure) : e.inner.shows e.closer = false := by
  rcases e with _ | q
  · rfl
  · cases q <;> rfl

/-- What is known about the opening mark: it is no part of a word and no blank. -/
theorem opener_spec (e : Enclosure) : ScanState.top.shows e.opener = true ∧
    e.opener.isAlpha = false ∧ isWordChar e.opener = false ∧ isBlank e.opener = false ∧
    isTextWordChar e.opener = false ∧ isDecimalDigit e.opener = false ∧
    foldCase e.opener ∉ Modifiers.letters ∧ e.opener ≠ ';' ∧ e.opener.toLower ≠ 'B'.toLower := by
  rcases e with _ | q
  · decide
  · cases q <;> decide

theorem isBlank_closer (e : Enclosure) : isBlank e.closer = false := by
  rcases e with _ | q
  · decide
  · cases q <;> decide

theorem length_wrap (e : Enclosure) (x : Text) : (e.wrap x).length = x.length + 2 := by
  simp [wrap]

theorem scan_wrap (hx : e.Fits x) : scan .top (e.wrap x) = .top := by
  rw [wrap, scan_cons, step_opener, scan_append, (scan_inner hx).1, scan_cons, step_closer,
    scan_nil]

/-- Of an enclosed text, only the opening mark stands at the top level. -/
theorem topLevelFrom_wrap (hx : e.Fits x) (i : Nat) (before : Option Char) :
    topLevelFrom .top i before (e.wrap x) = [⟨i, before, e.opener, x ++ [e.closer]⟩] := by
  rw [wrap, topLevelFrom, step_opener, topLevelFrom_append, (scan_inner hx).1,
    (scan_inner hx).2, topLevelFrom, shows_closer, (opener_spec e).1]
  rfl

end Enclosure

/-! ## The exchange of an enclosed text -/

/-- The place `n` after a stretch of length `d` behind `limit` has become `d'` long. -/
def shiftBehind (limit d d' n : Nat) : Nat := if n ≤ limit then n else n - d + d'

namespace Enclosure

variable {e : Enclosure} {a b x x' : Text}

/-- No keyword starts or goes on at the opening mark. -/
theorem seam_wrap (e : Enclosure) (a x b : Text) : Seam a (e.wrap x ++ b) := by
  obtain ⟨-, -, hword, hblank, -, -, -, -, hby⟩ := e.opener_spec
  refine ⟨?_, Or.inl ?_⟩
  · intro c _ d hd _
    obtain rfl : e.opener = d := by simpa [wrap] using hd
    exact hword
  · have hstart : Text.trimStart (e.wrap x ++ b) = e.wrap x ++ b :=
      Text.trimStart_eq_self_iff.2 fun d hd => by
        obtain rfl : e.opener = d := by simpa [wrap] using hd
        exact hblank
    rw [hstart, wrap, List.cons_append, Keyword.afterWord?, if_neg hby]

/-- The keywords around an enclosed text. -/
theorem keywordSpans_enclosed {ks : List Keyword} (hks : ArePlain ks) (ha : Text.IsClosed a)
    (hx : e.Fits x) : keywordSpans ks .top 0 none (a ++ (e.wrap x ++ b)) =
      keywordSpans ks .top 0 none a ++ (keywordSpans ks .top 0 (some e.closer) b).map
        (Span.map (· + (a.length + (x.length + 2)))) := by
  have hwrap : keywordSpans ks .top a.length (a.getLast?.or none) (e.wrap x ++ b) =
      keywordSpans ks .top (0 + (a.length + (x.length + 2))) (some e.closer) b := by
    have hlast : ∀ before, (e.wrap x).getLast?.or before = some e.closer := by
      intro before
      rw [wrap, ← List.cons_append, List.getLast?_append]
      rfl
    rw [keywordSpans, topLevelFrom_append, topLevelFrom_wrap hx, scan_wrap hx, hlast, length_wrap,
      List.map_singleton, List.singleton_append, List.filterMap_cons_none, Nat.zero_add]
    · rfl
    · simp [Place.extend, (opener_spec e).2.1]
  rw [keywordSpans_append hks (e.seam_wrap a x b), ha.scan_eq, Nat.zero_add,
    hwrap, keywordSpans_add]

/-- The first semicolon around an enclosed text. -/
theorem semicolonFrom?_enclosed (ha : Text.IsClosed a) (hx : e.Fits x) :
    semicolonFrom? .top 0 (a ++ (e.wrap x ++ b)) = (semicolonFrom? .top 0 a).or
      ((semicolonFrom? .top 0 b).map (· + (a.length + (x.length + 2)))) := by
  have hnone : semicolonFrom? .top (0 + a.length) (e.wrap x) = none := by
    rw [← find?_semicolon_topLevelFrom _ _ none, topLevelFrom_wrap hx,
      List.find?_cons_of_neg (by simpa using (opener_spec e).2.2.2.2.2.2.2.1)]
    rfl
  rw [semicolonFrom?_append, ha.scan_eq, semicolonFrom?_append, hnone,
    scan_wrap hx, length_wrap, Option.none_or, Nat.add_assoc, semicolonFrom?_add]

theorem trimStart_wrap (e : Enclosure) (x : Text) : Text.trimStart (e.wrap x) = e.wrap x := by
  rw [Text.trimStart_eq_self_iff]
  intro c hc
  obtain rfl : e.opener = c := by simpa [wrap] using hc
  exact (opener_spec e).2.2.2.1

theorem trimEnd_wrap (e : Enclosure) (x : Text) : Text.trimEnd (e.wrap x) = e.wrap x := by
  rw [Text.trimEnd_eq_self_iff]
  intro c hc
  rw [wrap, ← List.cons_append, List.getLast?_append] at hc
  obtain rfl : e.closer = c := by simpa using hc
  exact isBlank_closer e

theorem wrap_ne_nil (e : Enclosure) (x : Text) : e.wrap x ≠ [] := by simp [wrap]

/-- A place around the enclosed text: in front of the opening mark or behind the closing one. -/
def Around (a x : Text) (n : Nat) : Prop := n ≤ a.length ∨ a.length + (x.length + 2) ≤ n

theorem shiftBehind_of_le {n : Nat} (hn : n ≤ a.length) :
    shiftBehind a.length x.length x'.length n = n := if_pos hn

theorem shiftBehind_add (n : Nat) :
    shiftBehind a.length x.length x'.length (a.length + (x.length + 2) + n) =
      a.length + (x'.length + 2) + n := by
  rw [shiftBehind, if_neg (by omega)]
  omega

/-- The text up to a place behind the enclosed text. -/
theorem take_enclosed (e : Enclosure) (a y b : Text) (m : Nat) :
    (a ++ (e.wrap y ++ b)).take (a.length + (y.length + 2) + m) = a ++ (e.wrap y ++ b.take m) := by
  rw [Nat.add_assoc, ← length_wrap e y, List.take_length_add_append, List.take_length_add_append]

/-- A span in front of the enclosed text is trimmed there. -/
theorem trim_front (x' : Text) {s : Span} (hs : s.stop ≤ a.length) :
    s.trim (a ++ (e.wrap x' ++ b)) = s.trim (a ++ (e.wrap x ++ b)) :=
  Span.trim_congr ((Span.slice_append_left hs _).trans (Span.slice_append_left hs _).symm)

/-- A span around the enclosed text is trimmed on both sides of it. -/
theorem trim_around (y : Text) {i : Nat} (hi : i ≤ a.length) (m : Nat) :
    Span.trim ⟨i, a.length + (y.length + 2) + m⟩ (a ++ (e.wrap y ++ b)) =
      ⟨i + (a.length - i - (Text.trimStart (a.drop i)).length),
        a.length + (y.length + 2) + (Text.trimEnd (b.take m)).length⟩ := by
  have hslice : Span.slice ⟨i, a.length + (y.length + 2) + m⟩ (a ++ (e.wrap y ++ b)) =
      a.drop i ++ (e.wrap y ++ b.take m) := by
    rw [Span.slice_eq_drop_take, take_enclosed, List.drop_append_of_le_length hi]
  have htrim := Span.trim_of_solid hslice (e.wrap_ne_nil y) (e.trimStart_wrap y) (e.trimEnd_wrap y)
  simp only [List.length_drop, length_wrap] at htrim
  rw [htrim, Span.mk.injEq]
  omega

/-- A span behind the enclosed text is trimmed there. -/
theorem trim_behind (y : Text) (n m : Nat) :
    Span.trim ⟨a.length + (y.length + 2) + n, a.length + (y.length + 2) + m⟩
      (a ++ (e.wrap y ++ b)) = (Span.trim ⟨n, m⟩ b).map (a.length + (y.length + 2) + ·) := by
  have h := Span.trim_append_right ⟨n, m⟩ (a ++ e.wrap y) b
  rwa [List.length_append, length_wrap, List.append_assoc] at h

/-- Trimming cuts out the same, whatever is enclosed. -/
theorem trim_enclosed (x' : Text) {s : Span} (hstart : Around a x s.start)
    (hstop : Around a x s.stop)
    (hle : s.start ≤ s.stop) :
    (s.map (shiftBehind a.length x.length x'.length)).trim (a ++ (e.wrap x' ++ b)) =
        (s.trim (a ++ (e.wrap x ++ b))).map (shiftBehind a.length x.length x'.length) ∧
      Around a x (s.trim (a ++ (e.wrap x ++ b))).start ∧
      Around a x (s.trim (a ++ (e.wrap x ++ b))).stop := by
  obtain ⟨i, j⟩ := s
  simp only at hstart hstop hle
  rcases hstop with hj | hj
  · -- The span lies in front of the enclosed text.
    have hstop := Span.stop_trim_le_stop ⟨i, j⟩ (a ++ (e.wrap x ++ b)) hle
    have hstart := Span.start_trim_le_stop_trim ⟨i, j⟩ (a ++ (e.wrap x ++ b))
    have hstop' := hstop.trans hj
    have hstart' := hstart.trans hstop'
    refine ⟨?_, Or.inl hstart', Or.inl hstop'⟩
    simp only [Span.map, shiftBehind_of_le (hle.trans hj), shiftBehind_of_le hj,
      shiftBehind_of_le hstart', shiftBehind_of_le hstop']
    exact trim_front x' hj
  · obtain ⟨m, rfl⟩ := Nat.exists_eq_add_of_le hj
    rcases hstart with hi | hi
    · -- The span holds the enclosed text.
      have hfirst : i + (a.length - i - (Text.trimStart (a.drop i)).length) ≤ a.length := by omega
      rw [trim_around x hi]
      refine ⟨?_, Or.inl hfirst, Or.inr (Nat.le_add_right _ _)⟩
      simp only [Span.map, shiftBehind_of_le hi, shiftBehind_of_le hfirst, shiftBehind_add]
      exact trim_around x' hi m
    · -- The span lies behind the enclosed text.
      obtain ⟨n, rfl⟩ := Nat.exists_eq_add_of_le hi
      rw [trim_behind x]
      refine ⟨?_, Or.inr (Nat.le_add_right _ _), Or.inr (Nat.le_add_right _ _)⟩
      simp only [Span.map, shiftBehind_add]
      exact trim_behind x' n m

/-- An enclosed text may be exchanged for any other one without moving a clause. -/
theorem carries (ha : Text.IsClosed a) (hx : e.Fits x) (hx' : e.Fits x') :
    Carries (a ++ (e.wrap x ++ b)) (a ++ (e.wrap x' ++ b)) (Around a x)
      (shiftBehind a.length x.length x'.length) where
  spans := by
    intro ks hks
    refine ⟨[], ?_, by simp⟩
    rw [keywordSpans_enclosed hks ha hx, keywordSpans_enclosed hks ha hx', List.map_append,
      List.map_map, List.append_nil]
    -- The keywords in front stay where they are, and those behind move by the change in length.
    congr 1
    · refine ((List.map_congr_left fun r hr => ?_).trans (List.map_id _)).symm
      have hbounds := bounds_of_mem_keywordSpans hks hr
      rw [Span.map, shiftBehind_of_le (by omega), shiftBehind_of_le (by omega)]
      rfl
    · apply List.map_congr_left
      intro r _
      simp only [Span.map, Function.comp_apply, Nat.add_comm _ (a.length + (x.length + 2)),
        shiftBehind_add, Nat.add_comm _ (a.length + (x'.length + 2))]
  stands_spans := by
    intro ks hks r hr
    rw [keywordSpans_enclosed hks ha hx, List.mem_append, List.mem_map] at hr
    rcases hr with hr | ⟨r, -, rfl⟩
    · have hbounds := bounds_of_mem_keywordSpans hks hr
      exact ⟨Or.inl (by omega), Or.inl (by omega)⟩
    · exact ⟨Or.inr (Nat.le_add_left _ _), Or.inr (Nat.le_add_left _ _)⟩
  le_iff := by
    intro i j hi hj
    unfold Around at hi hj
    unfold shiftBehind
    split <;> split <;> omega
  trim := fun _ hstart hstop hle _ => (trim_enclosed x' hstart hstop hle).1
  stands_trim := fun _ hstart hstop hle _ => (trim_enclosed x' hstart hstop hle).2

/-- The statement ends at the same place, whatever is enclosed. -/
theorem statementStop_enclosed (ha : Text.IsClosed a) (hx : e.Fits x) (hx' : e.Fits x') :
    statementStop (a ++ (e.wrap x' ++ b)) =
        shiftBehind a.length x.length x'.length (statementStop (a ++ (e.wrap x ++ b))) ∧
      Around a x (statementStop (a ++ (e.wrap x ++ b))) := by
  rw [statementStop_eq, statementStop_eq, semicolonFrom?_enclosed ha hx,
    semicolonFrom?_enclosed ha hx']
  cases hn : semicolonFrom? .top 0 a with
  | some n =>
    -- The statement ends in front of the enclosed text.
    obtain ⟨u, r, hau, hnu, -, -⟩ := exists_of_semicolonFrom? hn
    have hle : n ≤ a.length := by
      rw [hnu, hau, List.length_append]
      omega
    have hlen : (Text.trimEnd (a.take n)).length ≤ a.length :=
      (Text.length_trimEnd_le _).trans (List.length_take_le' _ _)
    simp only [Option.some_or, Option.getD_some, List.take_append_of_le_length hle]
    exact ⟨(shiftBehind_of_le hlen).symm, Or.inl hlen⟩
  | none =>
    -- The statement goes on behind the enclosed text, which is no blank and holds no semicolon.
    have hplace : ∀ y : Text, ((semicolonFrom? .top 0 b).map
        (· + (a.length + (y.length + 2)))).getD (a ++ (e.wrap y ++ b)).length =
          a.length + (y.length + 2) + (semicolonFrom? .top 0 b).getD b.length := by
      intro y
      cases semicolonFrom? .top 0 b with
      | none =>
        simp only [Option.map_none, Option.getD_none, List.length_append, length_wrap,
          Nat.add_assoc]
      | some n => rw [Option.map_some, Option.getD_some, Option.getD_some, Nat.add_comm]
    have hstop : ∀ y : Text, (Text.trimEnd ((a ++ (e.wrap y ++ b)).take
        (a.length + (y.length + 2) + (semicolonFrom? .top 0 b).getD b.length))).length =
          a.length + (y.length + 2) +
            (Text.trimEnd (b.take ((semicolonFrom? .top 0 b).getD b.length))).length := by
      intro y
      rw [take_enclosed, Text.trimEnd_of_solid (e.wrap_ne_nil y) (e.trimEnd_wrap y)]
      simp only [List.length_append, length_wrap, Nat.add_assoc]
    simp only [Option.none_or, hplace, hstop, shiftBehind_add, true_and]
    exact Or.inr (Nat.le_add_right _ _)

/-- A modifier does not go on at the opening mark. -/
theorem modifiersSeam_wrap (e : Enclosure) (y x b : Text) : Modifiers.Seam y (e.wrap x ++ b) := by
  obtain ⟨-, -, -, hblank, htext, hdigit, hfold, -, -⟩ := e.opener_spec
  refine ⟨?_, ?_⟩
  · intro c hc
    rw [wrap, List.cons_append, Text.trimStart_eq_self_iff.2 (by simpa using hblank)] at hc
    obtain rfl : e.opener = c := by simpa using hc
    exact ⟨hdigit, hfold⟩
  · intro c _ _
    simp [endsTextWord, wrap, htext]

/-- The head of a statement does not see what is enclosed behind it. -/
theorem exists_starts_exchange {head : Head} {body rest : Text} (ha : Text.IsClosed a)
    (h : head.Starts (a ++ (e.wrap x ++ b)) body rest) (hstart : head.start ≤ a.length)
    (x' : Text) : ∃ body' rest',
      (Head.mk head.start (a ++ (e.wrap x' ++ b)).length head.modifiers).Starts
        (a ++ (e.wrap x' ++ b)) body' rest' := by
  have hhead : ∀ z : Text, (Text.trimStart (e.wrap z ++ b)).head? = some e.opener := by
    intro z
    rw [Text.trimStart_append (by rw [trimStart_wrap]; exact e.wrap_ne_nil z), trimStart_wrap]
    rfl
  refine h.congr hstart ha (e.seam_wrap a x b) (e.seam_wrap a x' b) (e.modifiersSeam_wrap a x b)
    (e.modifiersSeam_wrap a x' b) (by rw [hhead, hhead]; exact id) ?_
  rw [hhead]
  intro hopen
  rcases e with _ | q
  · simp [wrap, closer]
  · cases q <;> exact absurd hopen (by decide)

/-- The head of a statement that ends in front of an enclosed text is carried along. -/
theorem locate?_head_exchange (ha : Text.IsClosed a) (hx : e.Fits x) (hx' : e.Fits x')
    {head : Head} (h : Head.locate? (a ++ (e.wrap x ++ b)) = some head)
    (hstart : head.start ≤ a.length) : Head.locate? (a ++ (e.wrap x' ++ b)) =
      some (head.map (shiftBehind a.length x.length x'.length)) := by
  obtain ⟨hstop, haround⟩ := statementStop_enclosed (b := b) ha hx hx'
  have hsound := Head.isSound_of_locate? h
  have hstatement := isStatement_take_drop (a ++ (e.wrap x ++ b))
  have hstatement' := isStatement_take_drop (a ++ (e.wrap x' ++ b))
  rw [← List.take_append_drop (statementStop _) (a ++ (e.wrap x ++ b)),
    Head.locate?_eq_some_iff hstatement] at h
  rw [← List.take_append_drop (statementStop _) (a ++ (e.wrap x' ++ b)),
    Head.locate?_eq_some_iff hstatement']
  obtain ⟨body, rest, hstarts⟩ := h
  rw [hstop]
  generalize hn : statementStop (a ++ (e.wrap x ++ b)) = n at *
  have hmapstop : (head.map (shiftBehind a.length x.length x'.length)).stop =
      shiftBehind a.length x.length x'.length n := by
    rw [Head.map, hsound.stop_eq, hn]
  have hmapstart : (head.map (shiftBehind a.length x.length x'.length)).start = head.start :=
    shiftBehind_of_le hstart
  rcases haround with hle | hle
  · -- The enclosed text stands behind the statement.
    rw [shiftBehind_of_le hle] at hmapstop ⊢
    rw [List.take_append_of_le_length hle] at hstarts ⊢
    refine ⟨body, rest, hstarts.select, hstarts.reads, hmapstart.trans hstarts.start_eq, ?_⟩
    rw [hmapstop, List.length_take_of_le hle]
  · obtain ⟨m, rfl⟩ := Nat.exists_eq_add_of_le hle
    have hlen : (a ++ (e.wrap x ++ b.take m)).length = a.length + (x.length + 2) + m := by
      rw [← take_enclosed, List.length_take_of_le]
      rw [← hn]
      exact statementStop_le_length _
    rw [shiftBehind_add] at hmapstop ⊢
    rw [take_enclosed] at hstarts ⊢
    have hlen' : (a ++ (e.wrap x' ++ b.take m)).length = a.length + (x'.length + 2) + m := by
      simp only [List.length_append, length_wrap] at hlen ⊢
      omega
    have hmap : head.map (shiftBehind a.length x.length x'.length) =
        ⟨head.start, (a ++ (e.wrap x' ++ b.take m)).length, head.modifiers⟩ := by
      rw [hlen', ← hmapstop, ← hmapstart]
      rfl
    rw [hmap]
    exact exists_starts_exchange ha hstarts hstart x'

/-- The bytes in front of a place around the enclosed text. -/
theorem byteOffset_exchange (x' : Text) {n : Nat} (hn : Around a x n) :
    Text.byteOffset (a ++ (e.wrap x' ++ b)) (shiftBehind a.length x.length x'.length n) =
      shiftBehind a.byteLength x.byteLength x'.byteLength
        (Text.byteOffset (a ++ (e.wrap x ++ b)) n) ∧
      (Text.byteOffset (a ++ (e.wrap x ++ b)) n ≤ a.byteLength ∨
        a.byteLength + x.byteLength < Text.byteOffset (a ++ (e.wrap x ++ b)) n) := by
  rcases hn with hn | hn
  · have hbytes : ∀ v : Text, Text.byteOffset (a ++ v) n = a.byteOffset n := fun v => by
      rw [Text.byteOffset, List.take_append_of_le_length hn]
      rfl
    have hle := Text.byteOffset_le_byteLength a n
    rw [shiftBehind_of_le hn, hbytes, hbytes, shiftBehind, if_pos hle]
    exact ⟨rfl, Or.inl hle⟩
  · -- A place behind the enclosed text has all its bytes and those of both delimiters in front.
    obtain ⟨m, rfl⟩ := Nat.exists_eq_add_of_le hn
    have hbytes : ∀ y : Text, Text.byteOffset (a ++ (e.wrap y ++ b))
        (a.length + (y.length + 2) + m) = a.byteLength + (e.opener.utf8Size + (y.byteLength +
          (e.closer.utf8Size + b.byteOffset m))) := by
      intro y
      rw [Text.byteOffset, take_enclosed, wrap]
      simp only [List.cons_append, List.append_assoc, Text.byteLength_append,
        Text.byteLength_cons, Text.byteLength_nil]
      rw [Nat.zero_add]
      rfl
    have hpos := e.opener.utf8Size_pos
    rw [shiftBehind_add, hbytes, hbytes, shiftBehind, if_neg (by omega)]
    omega

end Enclosure

/-! ## Main statement -/

/-- What is enclosed in parentheses or quotes may be exchanged without moving a clause of the
surrounding statement, provided that the list of the statement starts in front of it. Each place in
front of the enclosed text stays, each place behind it moves by the difference of the lengths, and
there is no other place. The same holds of byte offsets. -/
theorem Layout.locate?_exchange (e : Enclosure) {a x x' b : Text} {layout : Layout}
    (ha : a.IsClosed) (hx : e.Fits x) (hx' : e.Fits x')
    (h : Layout.locate? (a ++ (e.wrap x ++ b)) = some layout)
    (hlist : (layout.inBytes (a ++ (e.wrap x ++ b))).list.start ≤ a.byteLength) :
    ∃ layout', Layout.locate? (a ++ (e.wrap x' ++ b)) = some layout' ∧
      layout' = layout.map (shiftBehind a.length x.length x'.length) ∧
      layout'.inBytes (a ++ (e.wrap x' ++ b)) = (layout.inBytes (a ++ (e.wrap x ++ b))).map
        (shiftBehind a.byteLength x.byteLength x'.byteLength) ∧
      ∀ n ∈ (layout.inBytes (a ++ (e.wrap x ++ b))).places,
        n ≤ a.byteLength ∨ a.byteLength + x.byteLength < n := by
  obtain ⟨head, hhead, rfl⟩ := Option.map_eq_some_iff.1 h
  have hsound := Head.isSound_of_locate? hhead
  have hordered := hsound.ordered_layout
  -- The head starts in front of the list, and the list starts in front of the enclosed text.
  have hstart : head.start ≤ a.length := by
    refine (Span.start_le_start_trim ⟨head.start, head.listStop (a ++ (e.wrap x ++ b))⟩
      (a ++ (e.wrap x ++ b))).trans ?_
    by_contra hlt
    have hplace := hordered.le_stop (head.layout (a ++ (e.wrap x ++ b))).list.start
      (by simp [Layout.places])
    have hbytes := Text.byteOffset_lt_byteOffset (Nat.not_le.1 hlt)
      (hplace.trans hsound.stop_le_length)
    rw [Text.byteOffset, List.take_left] at hbytes
    exact absurd hlist (Nat.not_le_of_lt hbytes)
  have hcarries := Enclosure.carries (b := b) ha hx hx'
  have hstop : Enclosure.Around a x head.stop :=
    hsound.stop_eq ▸ (Enclosure.statementStop_enclosed ha hx hx').2
  have hhead' := Enclosure.locate?_head_exchange ha hx hx' hhead hstart
  have hmap := hcarries.layout_map (Or.inl hstart) hstop hsound
  refine ⟨_, ?_, rfl, ?_, ?_⟩
  · rw [Layout.locate?, hhead', Option.map_some, hmap]
  · rw [inBytes, inBytes, map_map, map_map]
    exact map_congr fun n hn => (Enclosure.byteOffset_exchange x'
      (hcarries.stands_of_mem_places (Or.inl hstart) hstop hsound hn)).1
  · intro n hn
    rw [inBytes, places_map] at hn
    obtain ⟨i, hi, rfl⟩ := List.mem_map.1 hn
    exact (Enclosure.byteOffset_exchange x'
      (hcarries.stands_of_mem_places (Or.inl hstart) hstop hsound hi)).2

/-- A subquery is exchanged for one that holds nested parentheses, a parenthesis in a quote and the
keywords of other clauses. The condition behind it moves by the difference of the lengths. -/
theorem Layout.locate?_exchange_subquery :
    ∃ layout, Layout.locate? ("SELECT é FROM ".toList ++
        (Enclosure.parentheses.wrap "SELECT 1".toList ++ " u WHERE é = 1;".toList)) =
          some layout ∧ layout.condition = some ⟨33, 38⟩ ∧
      Layout.locate? ("SELECT é FROM ".toList ++
        (Enclosure.parentheses.wrap "SELECT MAX(ä) FROM t WHERE c = ');' ORDER BY 1".toList ++
          " u WHERE é = 1;".toList)) = some (layout.map (shiftBehind 14 8 46)) := by
  have h : Layout.locate? ("SELECT é FROM ".toList ++
      (Enclosure.parentheses.wrap "SELECT 1".toList ++ " u WHERE é = 1;".toList)) =
        some ⟨⟨7, 8⟩, some 9, some ⟨33, 38⟩, none, none, none, none, 38, .none⟩ := by
    decide +kernel
  have hfits : Enclosure.parentheses.Fits
      "SELECT MAX(ä) FROM t WHERE c = ');' ORDER BY 1".toList := by decide +kernel
  obtain ⟨layout', hlocate, rfl, -⟩ := Layout.locate?_exchange .parentheses (by decide +kernel)
    (by decide +kernel) hfits h (by decide +kernel)
  exact ⟨_, h, rfl, hlocate⟩

end LooseSql
