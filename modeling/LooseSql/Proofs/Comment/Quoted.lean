import LooseSql.Proofs.Comment
import LooseSql.Proofs.Text.Offset

/-!
# Quoted pieces and scanned quotes

Quotes are found in two ways. The pieces of a text keep a doubled mark inside its quote, and give a
mark that nothing closes back as a plain character. A scan closes and opens a quote at every mark.

In a text without comments whose scan ends outside quotes, both find the same quoted bytes
(`inQuotedPiece_iff_readsQuoted`). A quoted piece may be several quotes of the scan, one behind
the other: where the scan comes out of a quote for good, the piece ends (`Quote.exists_of_scan`),
and all characters up to there are part of a quote. So the scan of what follows the piece starts
outside quotes again.

Bytes are counted from the start of the pieces or of the text at hand.
-/

namespace LooseSql

open Text (byteLength byteLength_cons byteLength_append)

/-! ## Bytes of quoted pieces -/

/-- The byte belongs to a quoted piece, its marks included. -/
def InQuotedPiece (ps : List Piece) (byte : Nat) : Prop :=
  ∃ (front : List Piece) (raw : Text) (back : List Piece), ps = front ++ .quoted raw :: back ∧
    byteLength (front.flatMap Piece.raw) ≤ byte ∧
    byte < byteLength (front.flatMap Piece.raw) + byteLength raw

/-- A byte that stands behind the first piece belongs to a quote among the others. -/
theorem inQuotedPiece_cons_add {p : Piece} {ps : List Piece} {n : Nat} :
    InQuotedPiece (p :: ps) (byteLength p.raw + n) ↔ InQuotedPiece ps n := by
  constructor
  · rintro ⟨_ | ⟨p', front⟩, raw, back, hsplit, hle, hlt⟩
    · obtain ⟨rfl, -⟩ := List.cons.inj hsplit
      exact absurd hlt (by simp [Piece.raw])
    · obtain ⟨rfl, rfl⟩ := List.cons.inj hsplit
      simp only [List.flatMap_cons, byteLength_append] at hle hlt
      exact ⟨front, raw, back, rfl, by omega, by omega⟩
  · rintro ⟨front, raw, back, rfl, hle, hlt⟩
    refine ⟨p :: front, raw, back, rfl, ?_, ?_⟩ <;>
      · simp only [List.flatMap_cons, byteLength_append]
        omega

/-- A byte of the first piece belongs to a quote if the piece is one. -/
theorem inQuotedPiece_cons_of_lt {p : Piece} {ps : List Piece} {n : Nat}
    (hn : n < byteLength p.raw) : InQuotedPiece (p :: ps) n ↔ ∃ raw, p = .quoted raw := by
  constructor
  · rintro ⟨_ | ⟨p', front⟩, raw, back, hsplit, hle, -⟩
    · exact ⟨raw, (List.cons.inj hsplit).1⟩
    · obtain ⟨rfl, -⟩ := List.cons.inj hsplit
      simp only [List.flatMap_cons, byteLength_append] at hle
      omega
  · rintro ⟨raw, rfl⟩
    exact ⟨[], raw, ps, rfl, Nat.zero_le n, by simpa [Piece.raw] using hn⟩

/-! ## Bytes of scanned quotes -/

namespace ScanState

/-- The byte belongs to a character of the text that the scan reads as part of a quote. -/
def ReadsQuoted (s : ScanState) (t : Text) (byte : Nat) : Prop :=
  ∃ (u : Text) (c : Char) (v : Text), t = u ++ c :: v ∧ (scan s u).Quotes c ∧
    byteLength u ≤ byte ∧ byte < byteLength u + c.utf8Size

variable {s : ScanState} {c : Char} {t : Text} {n : Nat}

/-- A byte that stands behind the first character. -/
theorem readsQuoted_cons_add :
    s.ReadsQuoted (c :: t) (c.utf8Size + n) ↔ (s.step c).ReadsQuoted t n := by
  constructor
  · rintro ⟨_ | ⟨c', u⟩, d, v, hsplit, hquotes, hle, hlt⟩
    · obtain ⟨rfl, -⟩ := List.cons.inj hsplit
      exact absurd hlt (by simp)
    · obtain ⟨rfl, rfl⟩ := List.cons.inj hsplit
      simp only [byteLength_cons] at hle hlt
      exact ⟨u, d, v, rfl, hquotes, by omega, by omega⟩
  · rintro ⟨u, d, v, rfl, hquotes, hle, hlt⟩
    refine ⟨c :: u, d, v, rfl, hquotes, ?_, ?_⟩ <;>
      · simp only [byteLength_cons]
        omega

/-- A byte of the first character. -/
theorem readsQuoted_cons_of_lt (hn : n < c.utf8Size) : s.ReadsQuoted (c :: t) n ↔ s.Quotes c := by
  constructor
  · rintro ⟨_ | ⟨c', u⟩, d, v, hsplit, hquotes, hle, -⟩
    · obtain ⟨rfl, -⟩ := List.cons.inj hsplit
      exact hquotes
    · obtain ⟨rfl, -⟩ := List.cons.inj hsplit
      simp only [byteLength_cons] at hle
      omega
  · intro hquotes
    exact ⟨[], c, t, rfl, hquotes, Nat.zero_le n, by simpa using hn⟩

/-- A byte that stands behind the first of two texts. -/
theorem readsQuoted_append_add {u v : Text} :
    s.ReadsQuoted (u ++ v) (byteLength u + n) ↔ (scan s u).ReadsQuoted v n := by
  induction u generalizing s with
  | nil => simp
  | cons c u ih =>
    rw [List.cons_append, byteLength_cons, Nat.add_assoc, readsQuoted_cons_add, ih, scan_cons]

/-- Every byte of a text that lies in quotes belongs to one. -/
theorem readsQuoted_of_quotesAll {u : Text} (hu : s.QuotesAll u) (hn : n < byteLength u)
    (v : Text) : s.ReadsQuoted (u ++ v) n := by
  induction u generalizing s n with
  | nil => exact absurd hn (Nat.not_lt_zero n)
  | cons c u ih =>
    obtain ⟨hc, hu⟩ := hu
    rcases Nat.lt_or_ge n c.utf8Size with hlt | hge
    · exact (readsQuoted_cons_of_lt hlt).2 hc
    · obtain ⟨m, rfl⟩ := Nat.exists_eq_add_of_le hge
      rw [byteLength_cons] at hn
      exact readsQuoted_cons_add.2 (ih hu (by omega))

end ScanState

/-! ## Agreement -/

/-- Outside comments and quotes, pieces and scan go over a text together. -/
theorem inQuotedPiece_iff_of_isUncommented {s : ScanState} (hs : s.quote = none) {t : Text}
    (ht : IsUncommented t) (hend : (scan s t).quote = none) (n : Nat) :
    InQuotedPiece (pieces t) n ↔ s.ReadsQuoted t n := by
  -- Induction on the length, since a quote is one piece of many characters.
  induction hlen : t.length using Nat.strong_induction_on generalizing t s n with
  | _ k ih =>
    subst hlen
    rcases t with _ | ⟨c, t⟩
    · simp [InQuotedPiece, ScanState.ReadsQuoted, pieces]
    rcases Quote.exists_opener_or c with ⟨q, rfl⟩ | hc
    · -- The scan comes out of the quote, and the piece ends where it does so for good.
      have hopen := ScanState.quote_step_opener hs q
      obtain ⟨m, r, rfl, -, hm, hquotes, hafter⟩ := Quote.exists_of_scan hopen hend
      have hrest : q.after? (m ++ r) = some r := by simpa using hafter [] (by simp)
      rw [isUncommented_quote hrest] at ht
      rw [scan_cons, scan_append] at hend
      rw [pieces_quote hrest]
      have hpiece : s.QuotesAll (q.opener :: m) := ⟨.opening hs hopen, hquotes⟩
      rcases Nat.lt_or_ge n (byteLength (q.opener :: m)) with hlt | hge
      · rw [inQuotedPiece_cons_of_lt hlt, ← List.cons_append]
        exact ⟨fun _ => ScanState.readsQuoted_of_quotesAll hpiece hlt r, fun _ => ⟨_, rfl⟩⟩
      · obtain ⟨n, rfl⟩ := Nat.exists_eq_add_of_le hge
        have hshort : r.length < (q.opener :: (m ++ r)).length := by
          simp only [List.length_cons, List.length_append]
          omega
        rw [← List.cons_append, ScanState.readsQuoted_append_add]
        exact inQuotedPiece_cons_add.trans (ih r.length hshort hm ht hend n rfl)
    · -- Nothing opens here, and a comment does not start either.
      have hlead : Piece.leading? (c :: t) = none := by
        by_contra hne
        obtain ⟨p, hp⟩ := Option.ne_none_iff_exists'.1 hne
        obtain ⟨d, r, rfl, hstart⟩ := Piece.exists_starts_of_leading? hc hp
        exact not_isUncommented_of_starts hstart r ht
      rw [isUncommented_cons hlead] at ht
      rw [pieces_of_leading?_eq_none hlead]
      rcases Nat.lt_or_ge n c.utf8Size with hlt | hge
      · rw [inQuotedPiece_cons_of_lt (by simpa [Piece.raw] using hlt),
          ScanState.readsQuoted_cons_of_lt hlt]
        exact iff_of_false (by simp) (ScanState.not_quotes hs hc)
      · obtain ⟨n, rfl⟩ := Nat.exists_eq_add_of_le hge
        have hraw : byteLength (Piece.plain c).raw = c.utf8Size := by simp [Piece.raw]
        rw [ScanState.readsQuoted_cons_add, ← hraw, inQuotedPiece_cons_add]
        exact ih t.length (by simp) (ScanState.quote_step_of_not_opener hs hc) ht hend n rfl

/-- In a text that stays as it is when comments are taken out, and whose scan ends outside quotes,
a byte belongs to a quoted piece exactly when the scan reads it as the opening mark, the content or
the closing mark of a quote. -/
theorem inQuotedPiece_iff_readsQuoted {t : Text} (hstrip : stripComments t = t)
    (hend : (scan .top t).quote = none) (byte : Nat) :
    InQuotedPiece (pieces t) byte ↔ ScanState.top.ReadsQuoted t byte :=
  inQuotedPiece_iff_of_isUncommented rfl (stripComments_eq_self_iff.1 hstrip) hend byte

/-- A literal with a character of two bytes, the marks of other quotes and of a comment in it, and a
doubled mark at its end. The bracketed name behind it ends at the first of two marks. -/
theorem inQuotedPiece_iff_readsQuoted_nested :
    stripComments "f(é='[\"é--''',[a]])".toList = "f(é='[\"é--''',[a]])".toList ∧
      (scan .top "f(é='[\"é--''',[a]])".toList).quote = none ∧
      ∀ byte, InQuotedPiece (pieces "f(é='[\"é--''',[a]])".toList) byte ↔
        ScanState.top.ReadsQuoted "f(é='[\"é--''',[a]])".toList byte := by
  have hstrip : stripComments "f(é='[\"é--''',[a]])".toList = "f(é='[\"é--''',[a]])".toList := by
    decide +kernel
  have hend : (scan .top "f(é='[\"é--''',[a]])".toList).quote = none := by decide
  exact ⟨hstrip, hend, inQuotedPiece_iff_readsQuoted hstrip hend⟩

end LooseSql
