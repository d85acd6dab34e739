/-
  ConstraintNet.Puzzle.Langford
  ─────────────────────────────
  **LANGFORD ARRANGEMENTS.**

  In an arrangement L(k, n) each of the numbers 1 to n stands k times in a
  row of k · n positions, and between two successive copies of the number b
  stand b others.  The variables are the copies, number by number, and the
  values their positions, counted from 1.
-/
import ConstraintNet.Puzzle.Error

namespace ConstraintNet.Puzzle

/-- The variable of a copy, counted from 0, of a number, counted from 1. -/
def copyOf (k number copy : Nat) : VariableId := (number - 1) * k + copy

/-- The distance of two successive copies of a number. -/
def copyDistance (number : Nat) : Value := Int32.ofNat number + 1

/-- The positions of two successive copies of a number in a row of `length` positions. -/
def spacedPairs (length : Value) (number : Nat) : List (Value × Value) :=
  let distance := copyDistance number
  (Value.range 1 (length - distance)).map fun position => (position, position + distance)

/-- Two variables that stand on different positions. -/
def onDifferentPositions (length : Value) (first second : VariableId) : Constraint :=
  let positions := Value.range 1 length
  Constraint.ofPredicate first second positions positions fun a b => a ≠ b

/-- The constraints of one copy: the next copy of its number stands at the right distance, and no
copy of a later number stands in the same place. -/
def copyConstraints (k n : Nat) (length : Value) (number copy : Nat) : List Constraint :=
  let var := copyOf k number copy
  let next :=
    if copy < k - 1 then [Constraint.ofTuples var (var + 1) (spacedPairs length number)] else []
  next ++ (List.range' (number * k) (k * n - number * k)).map (onDifferentPositions length var)

/-- The puzzle L(k, n). -/
def langford (k n : Nat) : Except PuzzleError Network :=
  if k < 2 then .error (.argument (.tooFewCopies k))
  else if n = 0 then .error (.argument .noNumbers)
  else
    match Value.ofInt? ((k * n : Nat) : Int) with
    | none => .error (.argument (.tooLong k n))
    | some length =>
      puzzleNetwork (List.replicate (k * n) ⟨1, length⟩)
        ((List.range' 1 n).flatMap fun number =>
          (List.range k).flatMap fun copy => copyConstraints k n length number copy)

end ConstraintNet.Puzzle
