/-
  ConstraintNet.Statistics.Table
  ──────────────────────────────
  **THE TALLIES OF A SEARCH AS A TABLE.**

  The table has one row per constraint that a search used, the constraint
  that pruned most first and equal ones in their order in the network.  Its
  last column is the number of prunings per revision, to two places.

  `layout` draws any rows of cells: every column is as wide as its widest
  cell, and a rule of dashes stands above and below every row.
-/
import ConstraintNet.Binary64
import ConstraintNet.Network
import ConstraintNet.Statistics

namespace ConstraintNet

/-! ## §1. Rows of cells. -/

namespace Layout

/-- The width of every column: that of its widest cell. -/
def widths (rows : List (List String)) : List Nat :=
  rows.foldl
    (fun widths row =>
      (List.range (max widths.length row.length)).map fun i =>
        max (widths.getD i 0) ((row.map String.length).getD i 0))
    []

/-- A rule of dashes, with a cross between columns. -/
def rule (widths : List Nat) : String :=
  "+" ++ String.join (widths.map fun w => String.ofList (List.replicate (w + 2) '-') ++ "+") ++ "\n"

/-- A row of cells, each filled with spaces to the width of its column. -/
def line (widths : List Nat) (row : List String) : String :=
  "|" ++ String.join ((row.zip widths).map fun (cell, w) =>
    " " ++ cell ++ String.ofList (List.replicate (w - cell.length) ' ') ++ " |") ++ "\n"

/-- All rows, with rules above and below each of them. -/
def layout (rows : List (List String)) : String :=
  let columns := widths rows
  rule columns ++ String.join (rows.map fun row => line columns row ++ rule columns)

end Layout

/-! ## §2. Quotients to two places. -/

/-- A fraction in hundredths, behind a point with two places; a half goes to the even
neighbour. -/
def hundredths (num den : Nat) : String :=
  let n := roundHalfEven (num * 100) den
  let places := n % 100
  toString (n / 100) ++ "." ++ (if places < 10 then "0" else "") ++ toString places

/-- The quotient of two counts to two places. Counts and quotient are double-precision numbers, so
the quotient is rounded to such a number first; nothing divided by nothing is zero. -/
def ratioText (num den : Nat) : String :=
  if den = 0 then hundredths 0 1
  else
    -- both counts become double-precision numbers, then their quotient
    let (m₁, e₁) := (Binary64.nearest false num 1).magnitude
    let (m₂, e₂) := (Binary64.nearest false den 1).magnitude
    let (above, below) := Binary64.scaleDown m₁ m₂ (e₂ - e₁)
    let (m, e) := (Binary64.nearest false above below).magnitude
    -- its exact value is rounded once more, to hundredths
    let (m', den') := Binary64.scaleDown m 1 (-e)
    hundredths m' den'

/-! ## §3. The table of a search. -/

/-- The names of the columns. -/
def tableHeader : List String :=
  ["Constraint Type", "ID", "Description", "Revisions", "Prunings", "Prunings / Revision"]

/-- Whether an entry stands before another: it pruned more, or as much and its constraint comes
first in the network. -/
def tallyBefore (x y : ConstraintId × Tally) : Bool :=
  y.2.prunings < x.2.prunings || (x.2.prunings = y.2.prunings && x.1 ≤ y.1)

/-- The tallies in the order of the table. -/
def Statistics.ranking (stats : Statistics) : List (ConstraintId × Tally) :=
  stats.tallies.mergeSort tallyBefore

/-- The row of an entry; `none` when the network does not have its constraint. -/
def tableRow? (net : Network) (entry : ConstraintId × Tally) : Option (List String) :=
  net.constraints[entry.1]?.map fun c =>
    [Constraint.kind, toString entry.1, c.description, toString entry.2.revisions,
      toString entry.2.prunings, ratioText entry.2.prunings entry.2.revisions]

/-- The table of a search; `none` when an entry names a constraint that the network does not
have. -/
def Statistics.table? (stats : Statistics) (net : Network) : Option String :=
  (stats.ranking.mapM (tableRow? net)).map fun rows => Layout.layout (tableHeader :: rows)

end ConstraintNet
