import LooseSql.Scan
import LooseSql.Text.Blank

/-!
# Items of a comma list

A SELECT list, like any comma list, is cut at the commas that stand at the top level. `rawItems`
gives the pieces as they stand in the text; `items` trims them and drops the blank ones.
-/

namespace LooseSql

/-- The trimmed texts that are not empty, in order. -/
def fragments (pieces : List Text) : List Text :=
  (pieces.map Text.trim).filter fun piece => !piece.isEmpty

/-- The pieces between the commas at the top level, for a scan in state `s`. -/
def rawItemsFrom (s : ScanState) : Text → List Text
  | [] => [[]]
  | c :: t =>
    let pieces := rawItemsFrom (s.step c) t
    if s.shows c && c == ',' then [] :: pieces
    else match pieces with
      | [] => [[c]]
      | piece :: others => (c :: piece) :: others

/-- The pieces of a text between the commas at its top level. There is always at least one. -/
def rawItems (t : Text) : List Text := rawItemsFrom .top t

/-- The items of a comma list: its pieces, trimmed, without the blank ones. -/
def items (t : Text) : List Text := fragments (rawItems t)

end LooseSql
