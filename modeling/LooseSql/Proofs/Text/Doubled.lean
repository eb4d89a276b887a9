import LooseSql.Text.Doubled
import Mathlib.Data.List.Basic

/-!
# Quotes that double their mark

A quote that doubles its mark is the encoding of its inside (`exists_encode_of_after?`), so it ends
behind a mark. It ends in the first part of a text if this part closes it (`Closes`), or where it
would end if there were no second part, provided that the second part holds no mark
(`Doubled.after?_append_of_not_mem`).

`decode?` reads exactly what `encode` writes, as long as no further mark follows.
-/

namespace LooseSql.Doubled

variable {mark : Char}

/-- The encoding doubles each mark and ends in a single one. -/
theorem encode_eq (part : Text) :
    encode mark part = part.flatMap (fun c => if c = mark then [c, c] else [c]) ++ [mark] := by
  induction part with
  | nil => rfl
  | cons c part ih =>
    rw [encode, List.flatMap_cons, ih]
    split <;> rfl

/-- A quote is the encoding of its inside, also if it is closed in the middle of a doubled mark. -/
theorem exists_encode_of_after? {t rest : Text} (h : after? mark t = some rest) :
    ∃ inside : Text, t = encode mark inside ++ rest := by
  induction t using after?.induct mark generalizing rest with
  | case1 => cases h
  | case2 =>
    rw [after?, if_pos rfl, Option.some.injEq] at h
    exact ⟨[], by rw [← h]; rfl⟩
  | case3 c hc => simp [after?, hc] at h
  | case4 t ih =>
    rw [after?, if_pos rfl, if_pos rfl] at h
    cases ht : after? mark t with
    | none =>
      -- The first half of the doubled mark closes the quote, and nothing is inside.
      rw [ht] at h
      exact ⟨[], by rw [← Option.some.inj h]; rfl⟩
    | some r =>
      rw [ht] at h
      obtain rfl : r = rest := by simpa using h
      obtain ⟨inside, hsplit⟩ := ih ht
      exact ⟨mark :: inside, by rw [encode, if_pos rfl, hsplit]; rfl⟩
  | case5 d t hd =>
    rw [after?, if_pos rfl, if_neg hd, Option.some.injEq] at h
    exact ⟨[], by rw [← h]; rfl⟩
  | case6 c d t hc ih =>
    rw [after?, if_neg hc] at h
    obtain ⟨inside, hsplit⟩ := ih h
    exact ⟨c :: inside, by rw [encode, if_neg hc, hsplit]; rfl⟩

/-- A quote that ends does so behind a mark. -/
theorem exists_of_after? {t rest : Text} (h : after? mark t = some rest) :
    ∃ m : Text, t = m ++ mark :: rest := by
  obtain ⟨inside, rfl⟩ := exists_encode_of_after? h
  exact ⟨_, by rw [encode_eq, List.append_assoc, List.singleton_append]⟩

theorem length_after?_lt {t rest : Text} (h : after? mark t = some rest) :
    rest.length < t.length := by
  obtain ⟨m, rfl⟩ := exists_of_after? h
  simp only [List.length_append, List.length_cons]
  omega

theorem length_afterSome?_lt {t rest : Text} (h : afterSome? mark t = some rest) :
    rest.length < t.length := by
  cases t with
  | nil => cases h
  | cons c t =>
    cases t with
    | nil => cases h
    | cons d t =>
      rw [afterSome?] at h
      split at h
      · split at h
        · exact Nat.lt_trans (length_after?_lt h) (by simp only [List.length_cons]; omega)
        · cases h
      · exact Nat.lt_trans (length_after?_lt h) (by simp)

/-- A doubled mark closes a quote only where no mark behind it does. -/
theorem after?_eq_none_of_after? {t rest : Text} (h : after? mark t = some (mark :: rest)) :
    after? mark rest = none := by
  -- Induction along the reading: a mark is left only where the reading took half of an unclosed
  -- pair.
  induction t using after?.induct mark with
  | case1 => simp [after?] at h
  | case2 => simp [after?] at h
  | case3 c hc => simp [after?, hc] at h
  | case4 t ih =>
    rw [after?, if_pos rfl, if_pos rfl] at h
    cases ht : after? mark t with
    | none =>
      rw [ht] at h
      obtain rfl : t = rest := by simpa using h
      exact ht
    | some r =>
      rw [ht] at h
      obtain rfl : r = mark :: rest := by simpa using h
      exact ih ht
  | case5 d t hd =>
    rw [after?, if_pos rfl, if_neg hd, Option.some.injEq] at h
    exact absurd (List.cons.inj h).1 hd
  | case6 c d t hc ih =>
    rw [after?, if_neg hc] at h
    exact ih h

/-- A quote that ends behind a single mark ends there in a longer text too. -/
theorem after?_append {t rest v : Text} (h : after? mark t = some rest)
    (hrest : rest.head? ≠ some mark) (hv : rest = [] → v.head? ≠ some mark) :
    after? mark (t ++ v) = some (rest ++ v) := by
  induction t using after?.induct mark with
  | case1 => simp [after?] at h
  | case2 =>
    obtain rfl : [] = rest := by simpa [after?] using h
    cases v with
    | nil => simp [after?]
    | cons d v =>
      have hd : d ≠ mark := by simpa using hv rfl
      simp [after?, hd]
  | case3 c hc => simp [after?, hc] at h
  | case4 t ih =>
    rw [after?, if_pos rfl, if_pos rfl] at h
    cases ht : after? mark t with
    | none =>
      -- the first half of the doubled mark would close the quote
      rw [ht] at h
      obtain rfl : mark :: t = rest := by simpa using h
      exact absurd rfl hrest
    | some r =>
      rw [ht] at h
      obtain rfl : r = rest := by simpa using h
      rw [List.cons_append, List.cons_append, after?, if_pos rfl, if_pos rfl, ih ht]
      rfl
  | case5 d t hd =>
    rw [after?, if_pos rfl, if_neg hd, Option.some.injEq] at h
    rw [← h, List.cons_append, List.cons_append, after?, if_pos rfl, if_neg hd]
  | case6 c d t hc ih =>
    rw [after?, if_neg hc] at h
    rw [List.cons_append, List.cons_append, after?, if_neg hc]
    exact ih h

theorem after?_eq_none_of_not_mem {t : Text} (ht : mark ∉ t) : after? mark t = none := by
  induction t using after?.induct mark with
  | case1 => rfl
  | case2 => simp at ht
  | case3 c hc => simp [after?, hc]
  | case4 t _ => simp at ht
  | case5 d t _ => simp at ht
  | case6 c d t hc ih =>
    rw [after?, if_neg hc]
    exact ih fun hmem => ht (by simp [hmem])

/-- A quote that does not end has no mark behind it. -/
theorem not_mem_of_after?_eq_none {t : Text} (h : after? mark t = none) : mark ∉ t := by
  induction t using after?.induct mark with
  | case1 => simp
  | case2 => simp [after?] at h
  | case3 c hc => simpa using Ne.symm hc
  | case4 t ih =>
    rw [after?, if_pos rfl, if_pos rfl] at h
    cases ht : after? mark t <;> simp [ht] at h
  | case5 d t hd => simp [after?, hd] at h
  | case6 c d t hc ih =>
    rw [after?, if_neg hc] at h
    rw [List.mem_cons]
    rintro (rfl | hmem)
    · exact hc rfl
    · exact ih h hmem

/-- A mark closes a quote for good if no other closes it behind a mark that follows at once. -/
theorem after?_mark_cons {rest : Text} (hrest : ∀ r, rest = mark :: r → mark ∉ r) :
    after? mark (mark :: rest) = some rest := by
  cases rest with
  | nil => simp [after?]
  | cons d rest =>
    rw [after?, if_pos rfl]
    split
    · next hd =>
      subst hd
      rw [after?_eq_none_of_not_mem (hrest rest rfl)]
      rfl
    · rfl

/-- Where a quote ends does not depend on what follows, as long as that does not go on with the
quote. -/
theorem exists_exchange {t rest : Text} (h : after? mark t = some rest) :
    ∃ m : Text, t = m ++ mark :: rest ∧ ∀ rest' : Text, (∀ r, rest' = mark :: r → mark ∉ r) →
      after? mark (m ++ mark :: rest') = some rest' := by
  -- Induction along the reading; what it passes over is kept, and the text behind is exchanged.
  induction t using after?.induct mark generalizing rest with
  | case1 => cases h
  | case2 =>
    rw [after?, if_pos rfl, Option.some.injEq] at h
    exact ⟨[], by rw [← h]; rfl, fun rest' hrest' => after?_mark_cons hrest'⟩
  | case3 c hc => simp [after?, hc] at h
  | case4 t ih =>
    rw [after?, if_pos rfl, if_pos rfl] at h
    cases ht : after? mark t with
    | none =>
      rw [ht] at h
      exact ⟨[], by rw [← Option.some.inj h]; rfl, fun rest' hrest' => after?_mark_cons hrest'⟩
    | some r =>
      rw [ht] at h
      obtain rfl : r = rest := by simpa using h
      obtain ⟨m, rfl, hm⟩ := ih ht
      refine ⟨mark :: mark :: m, rfl, fun rest' hrest' => ?_⟩
      rw [List.cons_append, List.cons_append, after?, if_pos rfl, if_pos rfl, hm rest' hrest']
      rfl
  | case5 d t hd =>
    rw [after?, if_pos rfl, if_neg hd, Option.some.injEq] at h
    exact ⟨[], by rw [← h]; rfl, fun rest' hrest' => after?_mark_cons hrest'⟩
  | case6 c d t hc ih =>
    rw [after?, if_neg hc] at h
    obtain ⟨m, hsplit, hm⟩ := ih h
    refine ⟨c :: m, by rw [hsplit]; rfl, fun rest' hrest' => ?_⟩
    obtain ⟨e, r, hcons⟩ : ∃ e r, m ++ mark :: rest' = e :: r :=
      List.exists_cons_of_ne_nil (by simp)
    rw [List.cons_append, hcons, after?, if_neg hc, ← hcons, hm rest' hrest']

/-- Text without the mark does not change where a quote ends. -/
theorem after?_append_of_not_mem {v : Text} (hv : mark ∉ v) (t : Text) :
    after? mark (t ++ v) = (after? mark t).map (· ++ v) := by
  -- Only at the end of `t` does the reading look at `v`, for a mark that doubles the last one.
  induction t using after?.induct mark with
  | case1 => exact after?_eq_none_of_not_mem hv
  | case2 =>
    cases v with
    | nil => simp [after?]
    | cons d v =>
      have hd : d ≠ mark := fun h => hv (by simp [h])
      simp [after?, hd]
  | case3 c hc =>
    rw [show after? mark [c] = none by simp [after?, hc]]
    cases v with
    | nil => simp [after?, hc]
    | cons d v =>
      rw [List.singleton_append, after?, if_neg hc, after?_eq_none_of_not_mem hv]
      rfl
  | case4 t ih =>
    rw [List.cons_append, List.cons_append, after?, if_pos rfl, if_pos rfl, ih, after?, if_pos rfl,
      if_pos rfl]
    cases after? mark t <;> rfl
  | case5 d t hd =>
    rw [List.cons_append, List.cons_append, after?, if_pos rfl, if_neg hd, after?, if_pos rfl,
      if_neg hd]
    rfl
  | case6 c d t hc ih =>
    rw [List.cons_append, List.cons_append, after?, if_neg hc, after?, if_neg hc]
    exact ih

theorem afterSome?_cons_cons (c d : Char) (t : Text) : afterSome? mark (c :: d :: t) =
    if c = mark then if d = mark then after? mark t else none else after? mark (d :: t) := rfl

/-- Text without the mark does not change whether a quote that holds something ends, and where. -/
theorem afterSome?_append_of_not_mem {v : Text} (hv : mark ∉ v) (t : Text) :
    afterSome? mark (t ++ v) = (afterSome? mark t).map (· ++ v) := by
  have hnone := after?_eq_none_of_not_mem hv
  rcases t with _ | ⟨c, _ | ⟨d, t⟩⟩
  · rcases v with _ | ⟨c, _ | ⟨d, v⟩⟩
    · rfl
    · rfl
    · have hc : c ≠ mark := fun h => hv (by simp [h])
      rw [after?, if_neg hc] at hnone
      rw [List.nil_append, afterSome?_cons_cons, if_neg hc, hnone]
      rfl
  · rcases v with _ | ⟨d, v⟩
    · rfl
    · have hd : d ≠ mark := fun h => hv (by simp [h])
      rw [List.singleton_append, afterSome?_cons_cons, if_neg hd, hnone]
      split <;> rfl
  · rw [List.cons_append, List.cons_append, afterSome?_cons_cons, afterSome?_cons_cons,
      ← List.cons_append, after?_append_of_not_mem hv, after?_append_of_not_mem hv]
    split
    · split <;> rfl
    · rfl

theorem decode?_eq_none_of_not_mem {t : Text} (ht : mark ∉ t) : decode? mark t = none := by
  induction t using decode?.induct mark with
  | case1 => rfl
  | case2 => simp at ht
  | case3 c hc => simp [decode?, hc]
  | case4 t _ => simp at ht
  | case5 d t _ => simp at ht
  | case6 c d t hc ih =>
    rw [decode?, if_neg hc, ih fun hmem => ht (by simp [hmem])]
    rfl

/-- Text without the mark does not change what is decoded. -/
theorem decode?_append_of_not_mem {v : Text} (hv : mark ∉ v) (t : Text) :
    decode? mark (t ++ v) = (decode? mark t).map (Prod.map id (· ++ v)) := by
  induction t using decode?.induct mark with
  | case1 => exact decode?_eq_none_of_not_mem hv
  | case2 =>
    cases v with
    | nil => simp [decode?]
    | cons d v =>
      have hd : d ≠ mark := fun h => hv (by simp [h])
      simp [decode?, hd]
  | case3 c hc =>
    rw [show decode? mark [c] = none by simp [decode?, hc]]
    cases v with
    | nil => simp [decode?, hc]
    | cons d v =>
      rw [List.singleton_append, decode?, if_neg hc, decode?_eq_none_of_not_mem hv]
      rfl
  | case4 t ih =>
    rw [List.cons_append, List.cons_append, decode?, if_pos rfl, if_pos rfl, ih, decode?,
      if_pos rfl, if_pos rfl]
    cases decode? mark t <;> rfl
  | case5 d t hd =>
    rw [List.cons_append, List.cons_append, decode?, if_pos rfl, if_neg hd, decode?, if_pos rfl,
      if_neg hd]
    rfl
  | case6 c d t hc ih =>
    rw [List.cons_append, List.cons_append, decode?, if_neg hc, ← List.cons_append, ih, decode?,
      if_neg hc]
    cases decode? mark (d :: t) <;> rfl

/-- A quote without a mark inside ends at its first mark. -/
theorem after?_append_mark {t rest : Text} (ht : mark ∉ t) (hrest : rest.head? ≠ some mark) :
    after? mark (t ++ mark :: rest) = some rest := by
  induction t with
  | nil =>
    cases rest with
    | nil => simp [after?]
    | cons d rest => rw [List.nil_append, after?, if_pos rfl, if_neg (by simpa using hrest)]
  | cons c t ih =>
    have hc : c ≠ mark := fun h => ht (by simp [h])
    obtain ⟨d, r, hr⟩ : ∃ d r, t ++ mark :: rest = d :: r :=
      List.exists_cons_of_ne_nil (by simp)
    rw [List.cons_append, hr, after?, if_neg hc, ← hr]
    exact ih fun h => ht (by simp [h])

/-- The inside of a quote, cut into the part `m` up to the mark that closes it and the rest `r`,
whatever follows, as long as the mark is not doubled across the seam. -/
def Closes (mark : Char) (m r : Text) : Prop :=
  ∀ v : Text, (r = [] → v.head? ≠ some mark) → after? mark (m ++ r ++ v) = some (r ++ v)

/-! ## Reading back what was encoded -/

/-- In front of its first mark the text stays as it is. -/
theorem encode_append {part : Text} (hpart : mark ∉ part) (rest : Text) :
    encode mark (part ++ rest) = part ++ encode mark rest := by
  induction part with
  | nil => rfl
  | cons c part ih =>
    have hc : c ≠ mark := fun h => hpart (by simp [h])
    rw [List.cons_append, encode, if_neg hc, ih fun h => hpart (by simp [h]), List.cons_append]

/-- Without a mark there is nothing to double. -/
theorem encode_of_not_mem {part : Text} (hpart : mark ∉ part) :
    encode mark part = part ++ [mark] := by
  simpa [encode] using encode_append hpart []

theorem encode_ne_nil (part : Text) : encode mark part ≠ [] := by
  simp [encode_eq]

/-- A quote that holds something is the encoding of an inside that is not empty. -/
theorem exists_encode_of_afterSome? {t rest : Text} (h : afterSome? mark t = some rest) :
    ∃ inside : Text, inside ≠ [] ∧ t = encode mark inside ++ rest := by
  rcases t with _ | ⟨c, _ | ⟨d, t⟩⟩
  · cases h
  · cases h
  rw [afterSome?_cons_cons] at h
  by_cases hc : c = mark
  · rw [if_pos hc] at h
    split at h
    · next hd =>
      obtain ⟨inside, hsplit⟩ := exists_encode_of_after? h
      exact ⟨mark :: inside, by simp, by rw [encode, if_pos rfl, hsplit, hc, hd]; rfl⟩
    · cases h
  · rw [if_neg hc] at h
    obtain ⟨inside, hsplit⟩ := exists_encode_of_after? h
    exact ⟨c :: inside, by simp, by rw [encode, if_neg hc, hsplit]; rfl⟩

/-- A quote that is read to its end is the encoding of its inside, and no further mark follows. -/
theorem eq_encode_append_of_decode? {t part rest : Text} (h : decode? mark t = some (part, rest)) :
    t = encode mark part ++ rest ∧ rest.head? ≠ some mark := by
  -- Induction along the reading: what it takes apart is put together again.
  induction t using decode?.induct mark generalizing part rest with
  | case1 => simp [decode?] at h
  | case2 =>
    obtain ⟨rfl, rfl⟩ : [] = part ∧ [] = rest := by simpa [decode?] using h
    simp [encode]
  | case3 c hc => simp [decode?, hc] at h
  | case4 t ih =>
    rw [decode?, if_pos rfl, if_pos rfl, Option.map_eq_some_iff] at h
    obtain ⟨⟨inside, rest'⟩, hread, hpair⟩ := h
    obtain ⟨rfl, rfl⟩ : mark :: inside = part ∧ rest' = rest := by simpa using hpair
    obtain ⟨rfl, hrest⟩ := ih hread
    rw [encode, if_pos rfl]
    exact ⟨rfl, hrest⟩
  | case5 d t hd =>
    rw [decode?, if_pos rfl, if_neg hd] at h
    obtain ⟨rfl, rfl⟩ : [] = part ∧ d :: t = rest := by simpa using h
    exact ⟨rfl, by simpa using hd⟩
  | case6 c d t hc ih =>
    rw [decode?, if_neg hc, Option.map_eq_some_iff] at h
    obtain ⟨⟨inside, rest'⟩, hread, hpair⟩ := h
    obtain ⟨rfl, rfl⟩ : c :: inside = part ∧ rest' = rest := by simpa using hpair
    obtain ⟨ht, hrest⟩ := ih hread
    rw [encode, if_neg hc, ht]
    exact ⟨rfl, hrest⟩

/-- What was encoded is read back, if no further mark follows. -/
theorem decode?_encode_append (part : Text) {rest : Text} (hrest : rest.head? ≠ some mark) :
    decode? mark (encode mark part ++ rest) = some (part, rest) := by
  induction part with
  | nil =>
    cases rest with
    | nil => simp [encode, decode?]
    | cons d rest =>
      rw [encode, List.singleton_append, decode?, if_pos rfl, if_neg (by simpa using hrest)]
  | cons c part ih =>
    by_cases hc : c = mark
    · subst hc
      rw [encode, if_pos rfl, List.cons_append, List.cons_append, decode?, if_pos rfl, if_pos rfl,
        ih, Option.map_some]
    · -- `decode?` looks at two characters, and the encoding is never empty
      obtain ⟨d, t, ht⟩ : ∃ d t, encode mark part ++ rest = d :: t :=
        List.exists_cons_of_ne_nil (by simp [encode_ne_nil part])
      rw [encode, if_neg hc, List.cons_append, ht, decode?, if_neg hc, ← ht, ih, Option.map_some]

theorem decode?_encode (part : Text) : decode? mark (encode mark part) = some (part, []) := by
  have h : decode? mark (encode mark part ++ []) = some (part, []) :=
    decode?_encode_append part (by simp)
  rwa [List.append_nil] at h

end LooseSql.Doubled
