/-
  ConstraintNet.Puzzle.Error
  ──────────────────────────
  **WHY A PUZZLE CANNOT BE MADE.**

  Every family of puzzles restricts its arguments.  `ArgumentError` lists the
  restrictions, and `ArgumentError.message` words them.  An accepted argument
  can still ask for more room than there is (`PuzzleError.noRoom`).
-/
import ConstraintNet.Binary64.Shortest
import ConstraintNet.Network
import ConstraintNet.Text.CharLiteral

namespace ConstraintNet

/-- An argument that a family of puzzles does not accept. -/
inductive ArgumentError where
  /-- A board without rows. -/
  | noRows
  /-- The columns of so many rows are no values. -/
  | tooManyRows (rows : Nat)
  /-- Fewer than two copies of each number. -/
  | tooFewCopies (copies : Nat)
  /-- No number to arrange. -/
  | noNumbers
  /-- The positions of the arrangement are no values. -/
  | tooLong (copies numbers : Nat)
  /-- Not one clue per cell. -/
  | clueCount (count : Nat)
  /-- A clue that is neither a digit nor the mark of an open cell. -/
  | clueRange (cell : Nat) (clue : Value)
  /-- A character that no grid contains. -/
  | gridCharacter (c : Char)
  /-- Not one character per cell. -/
  | gridCount (count : Nat)
  /-- A random network without variables. -/
  | noVariables
  /-- A random network whose variables have no values. -/
  | domainSize (size : Value)
  /-- A share that does not lie between zero and one. -/
  | probability (name : String) (p : Binary64)
  deriving Repr, DecidableEq

/-- The number of cells of a Sudoku. -/
def numCells : Nat := 81

/-- The restriction in words. -/
def ArgumentError.message : ArgumentError → String
  | .noRows => "queens needs at least one row"
  | .tooManyRows n => toString n ++ " queens do not fit the value range"
  | .tooFewCopies k => "langford needs k >= 2, got " ++ toString k
  | .noNumbers => "langford needs n >= 1"
  | .tooLong k n => "L(" ++ toString k ++ ", " ++ toString n ++ ") is too long"
  | .clueCount count =>
    "a Sudoku needs " ++ toString numCells ++ " clues, got " ++ toString count
  | .clueRange cell clue =>
    "clue " ++ toString clue.toInt ++ " for cell " ++ toString cell ++ " is outside 0..=9"
  | .gridCharacter c => "unexpected character " ++ Text.charLiteral c ++ " in Sudoku grid"
  | .gridCount count =>
    "a Sudoku grid has " ++ toString numCells ++ " cells, got " ++ toString count
  | .noVariables => "random needs at least one variable"
  | .domainSize size => "domain size must be positive, got " ++ toString size.toInt
  | .probability name p => name ++ " must be within [0, 1], got " ++ p.toText

/-- Why a puzzle is not a network. -/
inductive PuzzleError where
  | argument (cause : ArgumentError)
  | network (fault : NetworkError)
  /-- Its constraints ask for more room than a list can have. -/
  | noRoom
  deriving Repr, DecidableEq

/-- The network with the given ranges and constraints. -/
def puzzleNetwork (bounds : List Bounds) (constraints : List Constraint) :
    Except PuzzleError Network :=
  match Network.build? bounds constraints with
  | .ok net => .ok net
  | .error fault => .error (.network fault)

end ConstraintNet
