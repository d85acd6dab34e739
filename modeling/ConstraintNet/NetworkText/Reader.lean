/-
  ConstraintNet.NetworkText.Reader
  ────────────────────────────────
  **READING A NETWORK FILE.**

  A network file holds the number of variables, then a pair `lower, upper`
  for each variable, then any number of constraints: a line `c(first, second)`
  and the pairs `a, b` that the constraint allows.

  Reading is a walk through the stages of this grammar, one lexeme at a time.
  `step` says which lexemes a stage admits; the first lexeme that it does not
  admit is the fault, and the stage says what would have been expected in its
  place.
-/
import ConstraintNet.Network
import ConstraintNet.NetworkText.Lexeme
import ConstraintNet.Text.Blank

namespace ConstraintNet

/-! ## §1. Faults. -/

/-- Why a text does not describe a network. -/
inductive ReadError where
  /-- On this line something else was expected; `found` is the word that stands there, empty at the
  end of the text. -/
  | unexpected (line : Nat) (expected : String) (found : List Char)
  /-- The text is well-formed but does not describe a network. -/
  | network (fault : NetworkError)
  deriving Repr, DecidableEq

/-- How many characters of a word that was found are shown. -/
def shownLength : Nat := 20

/-- What was found instead of what was expected. -/
def foundText (found : List Char) : String :=
  if found.isEmpty then "end of input" else "`" ++ String.ofList (found.take shownLength) ++ "`"

/-- The fault in words. -/
def ReadError.message : ReadError → String
  | .unexpected line expected found =>
    "line " ++ toString line ++ ": expected " ++ expected ++ ", found " ++ foundText found
  | .network fault => fault.message

namespace NetworkText

/-! ## §2. Stages of the grammar. -/

/-- A constraint whose pairs are being read. -/
structure Block where
  first : VariableId
  second : VariableId
  /-- The pairs so far, newest first. -/
  pairs : List (Value × Value)

/-- The constraint of a block. -/
def Block.constraint (block : Block) : Constraint :=
  Constraint.ofTuples block.first block.second block.pairs.reverse

/-- What comes next in a network file. -/
inductive Stage where
  /-- The number of variables. -/
  | count
  /-- The lower bound of a variable, after which `left` variables follow. -/
  | lower (left : Nat)
  | boundsComma (left : Nat) (lower : Value)
  | upper (left : Nat) (lower : Value)
  /-- The first constraint, or the end. -/
  | constraints
  | openParen
  | first
  | indexComma (first : VariableId)
  | second (first : VariableId)
  | closeParen (first second : VariableId)
  /-- A pair of the constraint, the next constraint, or the end. -/
  | pairs (block : Block)
  | pairComma (block : Block) (a : Value)
  | pairSecond (block : Block) (a : Value)

/-- What a stage expects, in words. -/
def Stage.expected : Stage → String
  | .count => "number of variables"
  | .lower _ | .upper _ _ => "integer in domain bounds `lower, upper`"
  | .boundsComma _ _ => "`,` in domain bounds `lower, upper`"
  | .constraints | .pairs _ => "constraint `c(first, second)` or end of input"
  | .openParen => "`(`"
  | .first | .second _ => "variable index"
  | .indexComma _ => "`,`"
  | .closeParen _ _ => "`)`"
  | .pairComma _ _ => "`,` in allowed tuple `a, b`"
  | .pairSecond _ _ => "integer in allowed tuple `a, b`"

/-- Whether a stage admits an integer and nothing else, so that a minus sign commits to one. -/
def Stage.wantsInteger : Stage → Bool
  | .lower _ | .upper _ _ | .pairSecond _ _ => true
  | _ => false

/-- What has been read, and what comes next. -/
structure Reading where
  /-- The ranges so far, newest first. -/
  bounds : List Bounds
  /-- The finished constraints, newest first. -/
  constraints : List Constraint
  stage : Stage

/-- Nothing has been read. -/
def Reading.start : Reading := ⟨[], [], .count⟩

/-! ## §3. One lexeme at a time. -/

/-- The positions that a file may name: those below 2^64. -/
def index? : Lexeme → Option Nat
  | .number false n => if n < 1 <<< 64 then some n else none
  | _ => none

/-- The values that a file may name: those of 32 bits. -/
def integer? : Lexeme → Option Value
  | .number negative n => Value.ofInt? (if negative then -(n : Int) else n)
  | _ => none

/-- The stage at which `left` variables still need a range. -/
def stageOfLeft : Nat → Stage
  | 0 => .constraints
  | left + 1 => .lower left

/-- The reading after one more lexeme; `none` when its stage does not admit the lexeme. -/
def step (r : Reading) (lexeme : Lexeme) : Option Reading :=
  match r.stage with
  | .count => (index? lexeme).map fun n => { r with stage := stageOfLeft n }
  | .lower left => (integer? lexeme).map fun v => { r with stage := .boundsComma left v }
  | .boundsComma left v => if lexeme = .comma then some { r with stage := .upper left v } else none
  | .upper left lower =>
    (integer? lexeme).map fun upper =>
      { r with bounds := ⟨lower, upper⟩ :: r.bounds, stage := stageOfLeft left }
  | .constraints => if lexeme = .constraintMark then some { r with stage := .openParen } else none
  | .openParen => if lexeme = .openParen then some { r with stage := .first } else none
  | .first => (index? lexeme).map fun v => { r with stage := .indexComma v }
  | .indexComma first => if lexeme = .comma then some { r with stage := .second first } else none
  | .second first => (index? lexeme).map fun v => { r with stage := .closeParen first v }
  | .closeParen first second =>
    if lexeme = .closeParen then some { r with stage := .pairs ⟨first, second, []⟩ } else none
  | .pairs block =>
    if lexeme = .constraintMark then
      some { r with constraints := block.constraint :: r.constraints, stage := .openParen }
    else (integer? lexeme).map fun a => { r with stage := .pairComma block a }
  | .pairComma block a =>
    if lexeme = .comma then some { r with stage := .pairSecond block a } else none
  | .pairSecond block a =>
    (integer? lexeme).map fun b =>
      { r with stage := .pairs { block with pairs := (a, b) :: block.pairs } }

/-- The ranges and the constraints of a finished reading; `none` when more is required. -/
def Reading.finish? (r : Reading) : Option (List Bounds × List Constraint) :=
  match r.stage with
  | .constraints => some (r.bounds.reverse, r.constraints.reverse)
  | .pairs block => some (r.bounds.reverse, (block.constraint :: r.constraints).reverse)
  | _ => none

/-- Where a lexeme that starts at `start` offends: at its start or, if the stage wants an integer
and found only the sign of one, after the sign. -/
def offence (stage : Stage) (lexeme : Lexeme) (start : List Char) : List Char :=
  if lexeme = .minus ∧ stage.wantsInteger then start.drop 1 else start

/-- What a text lists, or the stage that did not go on and the text from the fault on. -/
def readFrom (r : Reading) (text : List Char) :
    Except (Stage × List Char) (List Bounds × List Constraint) :=
  match _h : Lexeme.next? text with
  | none =>
    match r.finish? with
    | some contents => .ok contents
    -- the text ends where more is required
    | none => .error (r.stage, [])
  | some (lexeme, start, after) =>
    match step r lexeme with
    | some r' => readFrom r' after
    -- the stage does not admit the lexeme: this is the fault
    | none => .error (r.stage, offence r.stage lexeme start)
termination_by text.length
decreasing_by exact Lexeme.length_of_next? _h

/-- The number of the line in which the last part of a text starts, counted from 1. -/
def lineOf (text lastPart : List Char) : Nat := text.count '\n' - lastPart.count '\n' + 1

/-- The ranges and constraints that a text lists, whether or not they form a network. -/
def contents? (text : List Char) : Except ReadError (List Bounds × List Constraint) :=
  match readFrom Reading.start text with
  | .ok contents => .ok contents
  | .error (stage, rest) =>
    .error (.unexpected (lineOf text rest) stage.expected (Text.firstWord rest))

end NetworkText

/-- The network that a text describes. -/
def Network.ofText? (text : String) : Except ReadError Network :=
  match NetworkText.contents? text.toList with
  | .error fault => .error fault
  | .ok (bounds, constraints) =>
    match Network.build? bounds constraints with
    | .error fault => .error (.network fault)
    | .ok net => .ok net

end ConstraintNet
