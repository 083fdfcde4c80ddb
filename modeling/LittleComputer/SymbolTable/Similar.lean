import LittleComputer.SymbolTable
import LittleComputer.Text.Lower

/-! # Similar names

Suggestions for a name that is not defined. Two names are similar when they differ only in case, or
when their lengths differ by at most one and two edits lead from one to the other, case ignored.

The edit distance is computed row by row: the row of a text holds its distances to all beginnings
of the other text. -/

namespace LittleComputer
set_option autoImplicit false

namespace EditDistance

/-- The cells of the next row behind its first. A cell takes the one diagonally above when the two
characters are equal, and otherwise one more than the least of its three neighbours. -/
def cells (c : Char) : Text → List Nat → Nat → List Nat
  | d :: other, diagonal :: above :: row, left =>
    let cell := if c = d then diagonal else 1 + min diagonal (min above left)
    cell :: cells c other (above :: row) cell
  | _, _, _ => []

/-- The row of a text with one more character at its end. -/
def nextRow (other : Text) (row : List Nat) (c : Char) : List Nat :=
  match row with
  | [] => []
  | first :: rest => (first + 1) :: cells c other (first :: rest) (first + 1)

/-- The row of a text. -/
def row (text other : Text) : List Nat :=
  text.foldl (nextRow other) (List.range (other.length + 1))

end EditDistance

/-- The number of insertions, deletions and substitutions that lead from one text to another. The
rows are those of the longer text, so that they are as long as the shorter one. -/
def editDistance (text other : Text) : Nat :=
  let last := if text.length < other.length then EditDistance.row other text
    else EditDistance.row text other
  last.getLast?.getD 0

/-- True when a defined name is close to a name that is looked for. -/
def resembles (name defined : Text) : Bool :=
  let wanted := Text.lower name
  let given := Text.lower defined
  given == wanted ||
    (defined.length ≤ name.length + 1 && name.length ≤ defined.length + 1
      && editDistance wanted given ≤ 2)

/-- The first three labels that are close to a name, in the order of their definition. -/
def SymbolTable.similar (table : SymbolTable) (name : Text) : List Text :=
  (table.names.filter (resembles name)).take 3

end LittleComputer
