/-
  ConstraintNet.Puzzle.Queens
  ───────────────────────────
  **QUEENS ON A BOARD.**

  On a board with n rows, one queen stands in each row and none attacks
  another.  The variables are the rows, the values the columns, both counted
  from 0; each pair of rows has one constraint.

  The room for all constraints is reserved before the first of them is made.
-/
import ConstraintNet.Puzzle.Error

namespace ConstraintNet.Puzzle

/-- All pairs of positions below `n` with the first before the second, row by row. -/
def pairsBelow (n : Nat) : List (Nat × Nat) :=
  (List.range n).flatMap fun first =>
    (List.range' (first + 1) (n - (first + 1))).map fun second => (first, second)

/-- Whether queens in two columns, `distance` rows apart, leave each other alone. -/
def columnsApart (distance col₁ col₂ : Value) : Bool :=
  col₁ ≠ col₂ && (col₁ - col₂).abs ≠ distance

/-- The constraint between two rows of a board whose last column is `last`. -/
def rowsApart (last : Value) (row₁ row₂ : Nat) : Constraint :=
  let columns := Value.range 0 last
  Constraint.ofPredicate row₁ row₂ columns columns (columnsApart (Int32.ofNat (row₂ - row₁)))

/-- The bytes of a constraint in a list: two variables, the list of its pairs, and a table of
supports for either end. -/
def constraintBytes : Nat := 2 * 8 + 24 + 2 * 48

/-- Room for so many constraints can be reserved: no list has 2 ^ 63 bytes or more. -/
def Reservable (count : Nat) : Prop := count * constraintBytes ≤ 9223372036854775807

instance (count : Nat) : Decidable (Reservable count) :=
  inferInstanceAs (Decidable (count * constraintBytes ≤ 9223372036854775807))

/-- The puzzle of `n` queens. -/
def queens (n : Nat) : Except PuzzleError Network :=
  if n = 0 then .error (.argument .noRows)
  else
    match Value.ofInt? ((n - 1 : Nat) : Int) with
    | none => .error (.argument (.tooManyRows n))
    | some last =>
      if Reservable (n * (n - 1) / 2) then
        puzzleNetwork (List.replicate n ⟨0, last⟩)
          ((pairsBelow n).map fun (row₁, row₂) => rowsApart last row₁ row₂)
      else .error .noRoom

end ConstraintNet.Puzzle
