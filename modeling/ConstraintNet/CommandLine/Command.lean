/-
  ConstraintNet.CommandLine.Command
  ─────────────────────────────────
  **THE COMMANDS.**

  There are two commands.  `solve` reads a network file and searches for a
  solution, as settings from a file and from options say; `generate` writes
  the network of a puzzle to standard output or to a file.  In place of a
  command the first word can ask for the version of the program, and then the
  words behind it do not matter.

  `Command.ofWords?` reads a command, and answers `none` when the words do not
  make one.
-/
import ConstraintNet.Binary64.Decimal
import ConstraintNet.CommandLine.Arguments
import ConstraintNet.Puzzle.RandomNetwork
import ConstraintNet.Settings.Reader

namespace ConstraintNet.CommandLine

/-! ## §1. What can be asked for. -/

/-- How the outcome of a search is presented. -/
inductive Presentation where
  /-- The solution and the main counters, line by line. -/
  | plain
  /-- The same with all counters and the table of the constraints. -/
  | withTable
  | json
  deriving Repr, DecidableEq

/-- A search to run. -/
structure SolveRequest where
  /-- The path of the network file. -/
  file : String
  /-- The path of a settings file. -/
  settingsFile : Option String
  /-- The choices that options make. -/
  choices : PartialSettings
  presentation : Presentation

/-- A puzzle to make. -/
inductive Family where
  | queens (n : Nat)
  /-- A Sudoku with the clues of a grid, or without any. -/
  | sudoku (grid : Option String)
  | langford (k n : Nat)
  | random (shape : Puzzle.RandomShape)

/-- What a command line asks for. -/
inductive Command where
  | solve (request : SolveRequest)
  /-- A puzzle, and the path of the file that it goes to. -/
  | generate (family : Family) (output : Option String)
  /-- The name and the version of the program. -/
  | version

/-! ## §2. Values of options. -/

/-- A path, which must not be empty. -/
def readPath? (word : List Char) : Option String :=
  if word.isEmpty then none else some (String.ofList word)

/-- An algorithm, by its short or its long name. -/
def readAlgorithm? (word : List Char) : Option Algorithm :=
  match String.ofList word with
  | "fc" | "forward-checking" => some .forwardChecking
  | "mac" | "maintaining-arc-consistency" => some .maintainingArcConsistency
  | _ => none

/-- A variable ordering, by its name. -/
def readVariableOrdering? (word : List Char) : Option VariableOrdering :=
  match String.ofList word with
  | "minimum-remaining-values" => some .minimumRemainingValues
  | "select-first" => some .selectFirst
  | _ => none

/-- A value ordering, by its name. -/
def readValueOrdering? (word : List Char) : Option ValueOrdering :=
  ValueOrdering.ofName? (String.ofList word)

/-- The value of an option that may be missing: the outer `none` stands for a value that the option
does not accept. -/
def optional? {α : Type} (s : Scanned) (long : String) (read? : List Char → Option α) :
    Option (Option α) :=
  match s.value? long with
  | none => some none
  | some word => (read? word).map some

/-- The value of an option that has a default. -/
def withDefault? {α : Type} (s : Scanned) (long : String) (read? : List Char → Option α)
    (standard : α) : Option α :=
  (optional? s long read?).map fun value => value.getD standard

/-! ## §3. The commands. -/

/-- The options of `solve`. -/
def solveOptions : List OptionSpec :=
  [valueOption "algorithm", valueOption "config", valueOption "variable-ordering",
    valueOption "value-ordering", flag "legacy-requeue", flag "stats", flag "json"]

/-- The option that names the file of a puzzle; it stands before or after the family. -/
def outputOption : OptionSpec := ⟨"output".toList, some 'o', true⟩

/-- The presentation that options choose; the table and JSON exclude each other. -/
def presentationOf? (s : Scanned) : Option Presentation :=
  match s.has "stats", s.has "json" with
  | true, true => none
  | true, false => some .withTable
  | false, true => some .json
  | false, false => some .plain

/-- The search that the words after `solve` ask for. -/
def solveOfWords? (words : List (List Char)) : Option SolveRequest := do
  let s ← scan solveOptions false words
  let [file] := s.positional | none
  let file ← readPath? file
  let settingsFile ← optional? s "config" readPath?
  let algorithm ← optional? s "algorithm" readAlgorithm?
  let variableOrdering ← optional? s "variable-ordering" readVariableOrdering?
  let valueOrdering ← optional? s "value-ordering" readValueOrdering?
  let presentation ← presentationOf? s
  let requeuePolicy := if s.has "legacy-requeue" then some .legacy else none
  return ⟨file, settingsFile, ⟨algorithm, variableOrdering, valueOrdering, requeuePolicy⟩,
    presentation⟩

/-- The options of a family of puzzles; `none` for a name that no family has. -/
def familyOptions? (name : String) : Option (List OptionSpec) :=
  match name with
  | "queens" | "langford" => some []
  | "sudoku" => some [valueOption "clues"]
  | "random" =>
    some [valueOption "variables", valueOption "domain-size", valueOption "density",
      valueOption "tightness", valueOption "seed"]
  | _ => none

/-- The shape that the options of a random network give. -/
def shapeOf? (s : Scanned) : Option Puzzle.RandomShape := do
  let standard := Puzzle.RandomShape.standard
  let numVariables ← withDefault? s "variables" readNat? standard.numVariables
  let domainSize ←
    withDefault? s "domain-size" (fun word => (readInt? word).bind Value.ofInt?) standard.domainSize
  let density ← withDefault? s "density" Binary64.ofText? standard.density
  let tightness ← withDefault? s "tightness" Binary64.ofText? standard.tightness
  let seed ← withDefault? s "seed" (fun word => (readNat? word).map UInt64.ofNat) standard.seed
  return ⟨numVariables, domainSize, density, tightness, seed⟩

/-- The puzzle that the words of a family ask for. -/
def familyOf? (name : String) (s : Scanned) : Option Family :=
  match name, s.positional with
  | "queens", [n] => (readNat? n).map .queens
  | "langford", [k, n] => do return .langford (← readNat? k) (← readNat? n)
  | "sudoku", [] => some (.sudoku ((s.value? "clues").map String.ofList))
  | "random", [] => (shapeOf? s).map .random
  | _, _ => none

/-- The puzzle that the words after `generate` ask for, and where it goes. Of an output before the
family and one after it the latter counts. -/
def generateOfWords? (words : List (List Char)) : Option (Family × Option String) := do
  let outer ← scan [outputOption] true words
  let [name] := outer.positional | none
  let specs ← familyOptions? (String.ofList name)
  let inner ← scan (outputOption :: specs) false outer.below
  let family ← familyOf? (String.ofList name) inner
  let outerOutput ← optional? outer "output" readPath?
  let innerOutput ← optional? inner "output" readPath?
  return (family, innerOutput.or outerOutput)

/-- Whether a word asks for the version: the long form is exact, the letter may have others behind
it. -/
def asksForVersion (word : List Char) : Bool :=
  word == "--version".toList || "-V".toList.isPrefixOf word

/-- The command that the words of a command line make. -/
def Command.ofWords? (words : List String) : Option Command := do
  let words := words.map String.toList
  if words.head?.any asksForVersion then return .version
  let s ← scan [] true words
  let [name] := s.positional | none
  match String.ofList name with
  | "solve" => (solveOfWords? s.below).map .solve
  | "generate" => (generateOfWords? s.below).map fun (family, output) => .generate family output
  | _ => none

end ConstraintNet.CommandLine
