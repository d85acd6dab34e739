/-
  ConstraintNet.Puzzle.RandomNetwork
  ──────────────────────────────────
  **RANDOM NETWORKS.**

  Each pair of variables gets a constraint with a given probability, the
  density, and each pair of values is left out of it with another, the
  tightness.  All draws come from the stream of the seed, in the order of the
  pairs, so a seed always gives the same network.
-/
import ConstraintNet.KeyStream
import ConstraintNet.Puzzle.Queens

namespace ConstraintNet.Puzzle

/-- What a random network is to look like. -/
structure RandomShape where
  numVariables : Nat
  /-- The number of values of each variable, which are counted from 0. -/
  domainSize : Value
  /-- The probability of a constraint between two variables. -/
  density : Binary64
  /-- The probability that a constraint forbids a pair of values. -/
  tightness : Binary64
  seed : UInt64
  deriving Repr, DecidableEq

/-- Ten variables with five values each, half of the constraints, three tenths of the pairs. -/
def RandomShape.standard : RandomShape :=
  ⟨10, 5, Binary64.nearest false 1 2, Binary64.nearest false 3 10, 0⟩

/-- What is wrong with a shape: the variables are looked at first, then the values, the density and
the tightness. -/
def RandomShape.fault? (shape : RandomShape) : Option ArgumentError :=
  if shape.numVariables = 0 then some .noVariables
  else if shape.domainSize < 1 then some (.domainSize shape.domainSize)
  else if !shape.density.isProbability then some (.probability "density" shape.density)
  else if !shape.tightness.isProbability then some (.probability "tightness" shape.tightness)
  else none

/-- A draw that succeeds with probability `p`: a certain success takes no word from the stream,
anything else takes one. -/
def draw (p : Binary64) (s : KeyStream) : Bool × KeyStream :=
  if p.isOne then (true, s)
  else
    let (word, s) := s.next
    (word.toNat < p.wordsBelow, s)

/-- All pairs of values of a variable with `domainSize` values, row by row. -/
def candidatePairs (domainSize : Value) : List (Value × Value) :=
  let values := Value.range 0 (domainSize - 1)
  Constraint.pairsWhere values values fun _ _ => true

/-- The allowed pairs, the last one first, and the stream, after the draw that decides about one
candidate more. -/
def drawPair (tightness : Binary64) (drawn : List (Value × Value) × KeyStream)
    (pair : Value × Value) : List (Value × Value) × KeyStream :=
  let (kept, s) := drawn
  let (forbidden, s) := draw tightness s
  (if forbidden then kept else pair :: kept, s)

/-- Which of the candidates a constraint allows, and the stream after the draws that decided it. -/
def drawPairs (tightness : Binary64) (candidates : List (Value × Value)) (s : KeyStream) :
    List (Value × Value) × KeyStream :=
  let (kept, s) := candidates.foldl (drawPair tightness) ([], s)
  (kept.reverse, s)

/-- The constraints, the last one first, and the stream, after the draws for one pair of variables
more. -/
def drawScope (shape : RandomShape) (drawn : List Constraint × KeyStream) (scope : Nat × Nat) :
    List Constraint × KeyStream :=
  let (constraints, s) := drawn
  -- the draw for the constraint comes before those for its pairs
  let (joined, s) := draw shape.density s
  if joined then
    let (pairs, s) := drawPairs shape.tightness (candidatePairs shape.domainSize) s
    (Constraint.ofTuples scope.1 scope.2 pairs :: constraints, s)
  else (constraints, s)

/-- The constraints among the given pairs of variables. -/
def drawConstraints (shape : RandomShape) (scopes : List (Nat × Nat)) (s : KeyStream) :
    List Constraint :=
  (scopes.foldl (drawScope shape) ([], s)).1.reverse

/-- The random network of a shape, all draws of which come from the given stream. -/
def randomFrom (shape : RandomShape) (s : KeyStream) : Except PuzzleError Network :=
  match shape.fault? with
  | some fault => .error (.argument fault)
  | none =>
    puzzleNetwork (List.replicate shape.numVariables ⟨0, shape.domainSize - 1⟩)
      (drawConstraints shape (pairsBelow shape.numVariables) s)

/-- The random network of a shape: its seed decides the draws. -/
def random (shape : RandomShape) : Except PuzzleError Network :=
  randomFrom shape (KeyStream.ofSeed shape.seed)

end ConstraintNet.Puzzle
