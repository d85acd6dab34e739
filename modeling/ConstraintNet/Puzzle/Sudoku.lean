/-
  ConstraintNet.Puzzle.Sudoku
  ───────────────────────────
  **SUDOKU.**

  The variables are the 81 cells of the grid, row by row, and the values the
  digits 1 to 9.  A clue fixes the digit of its cell; the clue 0 leaves it
  open.  Two cells of the same row, column or box hold different digits.
-/
import ConstraintNet.Puzzle.Queens
import ConstraintNet.Text.Blank

namespace ConstraintNet.Puzzle

/-! ## §1. Clues in a grid. -/

/-- The clue of a character: a point or a zero leaves the cell open. -/
def clueOfChar (c : Char) : Except ArgumentError Value :=
  if c = '.' then .ok 0
  else if c.isDigit then .ok (Int32.ofNat (c.toNat - '0'.toNat))
  else .error (.gridCharacter c)

/-- The clues of a grid, in which blanks mean nothing. -/
def sudokuClues (grid : String) : Except ArgumentError (List Value) :=
  match (grid.toList.filter fun c => !Text.isBlank c).mapM clueOfChar with
  | .error fault => .error fault
  | .ok clues =>
    if clues.length = numCells then .ok clues else .error (.gridCount clues.length)

/-! ## §2. The network of a grid. -/

/-- The range of a cell with a clue. -/
def boundsOfClue (cell : Nat) (clue : Value) : Except ArgumentError Bounds :=
  if clue = 0 then .ok ⟨1, 9⟩
  else if 1 ≤ clue ∧ clue ≤ 9 then .ok (Bounds.fixed clue)
  else .error (.clueRange cell clue)

/-- Whether two cells stand in the same row, column or box. -/
def sharesUnit (a b : Nat) : Bool :=
  a / 9 = b / 9 || a % 9 = b % 9 || (a / 9 / 3 = b / 9 / 3 && a % 9 / 3 = b % 9 / 3)

/-- Two cells that hold different digits. -/
def differentDigits (first second : VariableId) : Constraint :=
  let digits := Value.range 1 9
  Constraint.ofPredicate first second digits digits fun a b => a ≠ b

/-- The puzzle with the given clues. -/
def sudoku (clues : List Value) : Except PuzzleError Network :=
  if clues.length ≠ numCells then .error (.argument (.clueCount clues.length))
  else
    match clues.zipIdx.mapM fun (clue, cell) => boundsOfClue cell clue with
    | .error fault => .error (.argument fault)
    | .ok bounds =>
      puzzleNetwork bounds
        (((pairsBelow numCells).filter fun (a, b) => sharesUnit a b).map fun (a, b) =>
          differentDigits a b)

end ConstraintNet.Puzzle
