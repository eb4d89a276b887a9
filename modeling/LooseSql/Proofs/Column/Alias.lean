import LooseSql.Column.Alias
import LooseSql.Proofs.Clause.Enclosure
import LooseSql.Proofs.Name.Grammar

/-!
# Where an alias is cut off

An alias is looked for twice in an item of a SELECT list: behind the last AS at the top level, and
behind the last blank that something follows which can be an alias.

* `explicit?_append`: an alias in brackets behind AS is cut off, whatever stands in front of it;
* `isImplicit_iff`: what can be an alias without AS;
* `lastImplicitFrom_eq_some_iff`, `lastImplicitFrom_eq_none_iff`: the cut at a blank, which is the
  last one that leaves an alias.
-/

namespace LooseSql

/-- The name in brackets, which stands for itself if it holds no closing one. -/
def bracketed (name : Text) : Text := '[' :: (name ++ [']'])

theorem wrap_bracket {name : Text} (hclosing : ']' ∉ name) :
    Delimiter.bracket.wrap name = bracketed name :=
  congrArg (List.cons '[') (Doubled.encode_of_not_mem hclosing)

/-- The places where a keyword stands are its spans. -/
theorem filterMap_at?_eq_keywordSpans {k : Keyword} (hk : k.IsPlain) (t : Text) :
    (topLevel t).filterMap k.at? = keywordSpans [k] .top 0 none t := by
  refine List.filterMap_congr fun p _ => ?_
  cases hat : k.at? p with
  | none => simp [hat]
  | some r =>
    -- A keyword starts with a letter.
    obtain ⟨rest, hafter, -⟩ := Option.map_eq_some_iff.1 hat
    obtain ⟨m, hm, ⟨c, hc, -, -, -, -, -, halpha⟩, -⟩ := Keyword.exists_of_after? hk hafter
    obtain ⟨m, rfl⟩ := List.head?_eq_some_iff.1 (Option.mem_def.1 hc)
    have hchar : p.char = c := (List.cons.inj hm).1
    rw [hchar, if_pos halpha]
    simp [hat]

namespace Alias

/-! ## Behind AS -/

/-- Without the word AS at the top level there is no alias behind it. -/
theorem explicit?_eq_none {t : Text} (h : keywordSpans [Keyword.asWord] .top 0 none t = []) :
    explicit? t = none := by
  rw [explicit?, filterMap_at?_eq_keywordSpans (by decide), h]
  rfl

/-- A name in delimiters can stand behind AS. -/
theorem isExplicit_wrap (d : Delimiter) {name : Text} (hname : name ≠ []) :
    isExplicit (d.wrap name) = true ∧ unwrapExplicit (d.wrap name) = name := by
  have hquote : d.opening ≠ '\'' := by cases d <;> decide
  constructor
  · have hadmits : Shape.mixed.admits (some d) = true := rfl
    rw [Delimiter.wrap, isExplicit, if_neg hquote, Delimiter.ofOpening?_eq_some_iff.2 rfl,
      Option.isSome_some, if_pos rfl, Shape.afterInner?, Delimiter.ofOpening?_eq_some_iff.2 rfl]
    simp [hadmits, Doubled.decode?_encode, hname]
  · rw [unwrapExplicit]
    · exact (Part.IsToken.delimited d name).unwrap_eq hname
    · rintro rest hrest
      exact hquote (List.cons.inj hrest).1

/-- No later AS stands at the top level than one in front of a name in brackets. -/
theorem keywordSpans_asWord {u name : Text} (hu : u.IsClosed) (hclosing : ']' ∉ name) :
    keywordSpans [Keyword.asWord] .top 0 none (u ++ (" AS ".toList ++ bracketed name)) =
      keywordSpans [Keyword.asWord] .top 0 none u ++ [⟨u.length + 1, u.length + 3⟩] := by
  have hseam : Seam u (" AS ".toList ++ bracketed name) := by
    refine ⟨fun c _ d hd _ => ?_, .inl rfl⟩
    obtain rfl : ' ' = d := Option.some.inj hd
    exact isWordChar_of_isBlank rfl
  have hquoted (i : Nat) (before : Option Char) :
      keywordSpans [Keyword.asWord] .top i before (bracketed name) = [] := by
    have hfits : (Enclosure.quote .bracket).Fits name := hclosing
    rw [keywordSpans, show bracketed name = (Enclosure.quote .bracket).wrap name from rfl,
      Enclosure.topLevelFrom_wrap hfits]
    rfl
  have hword : Keyword.asWord.at? ⟨u.length + 1, some ' ', 'A', 'S' :: ' ' :: bracketed name⟩ =
      some ⟨u.length + 1, u.length + 3⟩ := by
    have hafter : Keyword.asWord.after? (some ' ') ('A' :: 'S' :: ' ' :: bracketed name) =
        some (' ' :: bracketed name) :=
      Keyword.after?_eq_some_iff.2
        ⟨isWordChar_of_isBlank rfl, rfl, isWordChar_of_isBlank (c := ' ') rfl⟩
    rw [Keyword.at?, Place.rest, hafter]
    simp
  have hlater : Keyword.asWord.at? ⟨u.length + 2, some 'A', 'S', ' ' :: bracketed name⟩ = none := by
    have hnone : Keyword.asWord.afterWords? ('S' :: ' ' :: bracketed name) = none := rfl
    rw [Keyword.at?, Place.rest, Keyword.after?, hnone, Option.filter_none, ite_self,
      Option.map_none]
  rw [keywordSpans_append (by decide) hseam, hu.scan_eq, Nat.zero_add]
  congr 1
  -- Behind `u`, only the word, its blanks and the opening bracket stand at the top level.
  calc keywordSpans [Keyword.asWord] .top u.length (u.getLast?.or none)
        (' ' :: 'A' :: 'S' :: ' ' :: bracketed name)
      = (([Keyword.asWord].findSome? fun k => k.at?
          ⟨u.length + 1, some ' ', 'A', 'S' :: ' ' :: bracketed name⟩).toList ++
        (([Keyword.asWord].findSome? fun k => k.at?
          ⟨u.length + 2, some 'A', 'S', ' ' :: bracketed name⟩).toList ++
        keywordSpans [Keyword.asWord] .top (u.length + 4) (some ' ') (bracketed name))) := by
        rw [keywordSpans_cons, keywordSpans_cons, keywordSpans_cons, keywordSpans_cons]
        rfl
    _ = [⟨u.length + 1, u.length + 3⟩] := by simp [hword, hlater, hquoted]

/-- A name in brackets behind the word AS is cut off as an alias. -/
theorem explicit?_append {u name : Text} (hu : u.IsClosed) (hbody : u.trim ≠ []) (hname : name ≠ [])
    (hclosing : ']' ∉ name) :
    explicit? (u ++ (" AS ".toList ++ bracketed name)) = some (u.trim, name) := by
  obtain ⟨hexplicit, hunwrap⟩ := isExplicit_wrap .bracket hname
  rw [wrap_bracket hclosing] at hexplicit hunwrap
  have hfront : (u ++ (" AS ".toList ++ bracketed name)).take (u.length + 1) = u ++ [' '] := by
    rw [List.take_length_add_append]
    rfl
  have hbehind : (u ++ (" AS ".toList ++ bracketed name)).drop (u.length + 3) =
      ' ' :: bracketed name := by
    rw [List.drop_length_add_append]
    rfl
  have htrim : Text.trim (' ' :: bracketed name) = bracketed name := by
    have hsolid := (Part.IsToken.delimited .bracket name).trim_eq hname
    rw [wrap_bracket hclosing] at hsolid
    rw [show ' ' :: bracketed name = [' '] ++ bracketed name from rfl,
      Text.trim_blank_append (by decide), Text.trim_eq_self_iff.2 hsolid.2]
  -- The AS that was written is the last one, since a bracketed name holds no keyword.
  rw [explicit?, filterMap_at?_eq_keywordSpans (by decide), keywordSpans_asWord hu hclosing,
    List.getLast?_concat, Option.bind_some, hfront, hbehind, htrim,
    Text.trim_append_of_blank u (by decide)]
  simp [hbody, hexplicit, hunwrap]

/-! ## Behind a blank -/

/-- A part in delimiters is read off up to its closing mark, if it is not empty. -/
theorem afterInner?_opening (d : Delimiter) (start : Char → Bool) (t : Text) :
    Shape.mixed.afterInner? start (d.opening :: t) =
      ((Doubled.decode? d.closing t).filter fun p => !p.1.isEmpty).map (·.2) := by
  rw [Shape.afterInner?, Delimiter.ofOpening?_eq_some_iff.2 rfl]
  rfl

/-- A bare part is read off up to the first character that is none of it. -/
theorem afterInner?_bare {c : Char} (hc : Delimiter.ofOpening? c = none) (start : Char → Bool)
    (t : Text) : Shape.mixed.afterInner? start (c :: t) =
      if start c then some (t.dropWhile isBareChar) else none := by
  rw [Shape.afterInner?, hc]
  rfl

/-- An alias without AS is a name in delimiters that is not empty, or a bare one that starts with a
letter or a low line. -/
theorem isImplicit_iff {t : Text} : isImplicit t = true ↔
    (∃ (d : Delimiter) (name : Text), name ≠ [] ∧ t = d.wrap name) ∨
      ∃ c r, t = c :: r ∧ isImplicitStart c = true ∧ ∀ e ∈ r, isBareChar e = true := by
  rw [isImplicit, beq_iff_eq]
  cases t with
  | nil => simp [Shape.afterInner?, Delimiter.wrap]
  | cons c t =>
    -- The first character tells which of the two it has to be.
    cases hopening : Delimiter.ofOpening? c with
    | some d =>
      obtain rfl := Delimiter.ofOpening?_eq_some_iff.1 hopening
      have hstart : isImplicitStart d.opening = false := by cases d <;> rfl
      rw [afterInner?_opening, Option.map_eq_some_iff]
      constructor
      · rintro ⟨⟨name, rest⟩, hdecode, rfl⟩
        rw [Option.filter_eq_some_iff] at hdecode
        have hencode := (Doubled.eq_encode_append_of_decode? hdecode.1).1
        rw [List.append_nil] at hencode
        exact .inl ⟨d, name, by simpa using hdecode.2, by rw [hencode, Delimiter.wrap]⟩
      · rintro (⟨d', name, hname, heq⟩ | ⟨e, r, heq, he, -⟩)
        · obtain ⟨hd, rfl⟩ := List.cons.inj heq
          rw [hd, Delimiter.ofOpening?_eq_some_iff.2 rfl] at hopening
          obtain rfl : d' = d := Option.some.inj hopening
          exact ⟨(name, []), by simp [Doubled.decode?_encode, Option.filter_some, hname], rfl⟩
        · rw [← (List.cons.inj heq).1, hstart] at he
          cases he
    | none =>
      rw [afterInner?_bare hopening]
      constructor
      · intro h
        split at h
        · next hstart =>
          exact .inr ⟨c, t, rfl, hstart, List.dropWhile_eq_nil_iff.1 (Option.some.inj h)⟩
        · cases h
      · rintro (⟨d, name, -, heq⟩ | ⟨e, r, heq, he, hr⟩)
        · rw [(List.cons.inj heq).1, Delimiter.ofOpening?_eq_some_iff.2 rfl] at hopening
          cases hopening
        · obtain ⟨rfl, rfl⟩ := List.cons.inj heq
          rw [if_pos he, List.dropWhile_eq_nil_iff.2 hr]

variable {before t body written : Text}

/-- No cut at a blank leaves an alias behind it. -/
theorem lastImplicitFrom_eq_none_iff : lastImplicitFrom before t = none ↔
    ∀ u c w, t = u ++ c :: w → isBlank c = true → isImplicit w = false := by
  induction t generalizing before with
  | nil => simp [lastImplicitFrom]
  | cons c t ih =>
    -- A cut at this blank is taken only if none is taken further on.
    have hcut : lastImplicitFrom before (c :: t) = none ↔ lastImplicitFrom (c :: before) t = none ∧
        (isBlank c = true → isImplicit t = false) := by
      rw [lastImplicitFrom]
      cases lastImplicitFrom (c :: before) t with
      | none => simp
      | some p => simp
    rw [hcut, ih]
    constructor
    · rintro ⟨hlater, hhere⟩ u d w heq hd
      cases u with
      | nil =>
        obtain ⟨rfl, rfl⟩ := List.cons.inj heq
        exact hhere hd
      | cons e u => exact hlater u d w (List.cons.inj heq).2 hd
    · intro h
      exact ⟨fun u d w heq => h (c :: u) d w (by rw [heq, List.cons_append]), h [] c t rfl⟩

/-- The cut is at the last blank that leaves an alias behind it. -/
theorem lastImplicitFrom_eq_some_iff : lastImplicitFrom before t = some (body, written) ↔
    isImplicit written = true ∧
      (∀ u c w, written = u ++ c :: w → isBlank c = true → isImplicit w = false) ∧
      ∃ u c, t = u ++ c :: written ∧ isBlank c = true ∧
        body = Text.trimEnd (before.reverse ++ u) := by
  induction t generalizing before with
  | nil => simp [lastImplicitFrom]
  | cons c t ih =>
    have hcut : lastImplicitFrom before (c :: t) = some (body, written) ↔
        lastImplicitFrom (c :: before) t = some (body, written) ∨
          (lastImplicitFrom (c :: before) t = none ∧ isBlank c = true ∧ isImplicit t = true ∧
            Text.trimEnd before.reverse = body ∧ t = written) := by
      rw [lastImplicitFrom]
      cases lastImplicitFrom (c :: before) t with
      | none => simp [and_assoc]
      | some p => simp
    -- A cut at the first character counts only if no later one leaves an alias.
    rw [hcut, ih, lastImplicitFrom_eq_none_iff]
    constructor
    · rintro (⟨himplicit, hlast, u, d, rfl, hd, rfl⟩ | ⟨hlast, hc, himplicit, rfl, rfl⟩)
      · exact ⟨himplicit, hlast, c :: u, d, rfl, hd, by simp⟩
      · exact ⟨himplicit, hlast, [], c, rfl, hc, by simp⟩
    · rintro ⟨himplicit, hlast, u, d, heq, hd, rfl⟩
      cases u with
      | nil =>
        obtain ⟨rfl, rfl⟩ := List.cons.inj heq
        exact .inr ⟨hlast, hd, himplicit, by simp, rfl⟩
      | cons e u =>
        obtain ⟨rfl, rfl⟩ := List.cons.inj heq
        exact .inl ⟨himplicit, hlast, u, d, rfl, hd, by simp⟩

/-- An alias without AS is cut off if it is no reserved word and the expression in front of it ends
like a column. -/
theorem implicit?_isSome_iff : (implicit? t).isSome ↔ ∃ body written,
    lastImplicitFrom [] t = some (body, written) ∧ body ≠ [] ∧
      reserved.any (Text.sameIgnoringCase written) = false ∧ endsLikeColumn body = true := by
  rw [implicit?]
  cases lastImplicitFrom [] t with
  | none => simp
  | some p =>
    obtain ⟨body, written⟩ := p
    simp [and_assoc]

end Alias

end LooseSql
