/-
  ConstraintNet.CommandLine.Reply
  ───────────────────────────────
  **WHAT A COMMAND ANSWERS.**

  A command reads its files through a function from paths to bytes and
  answers with texts and at most one file to write, so that it can run on any
  store of files.  The time that a search took is not known here: the texts
  are functions of it.
-/
import ConstraintNet.CommandLine.Command
import ConstraintNet.Error
import ConstraintNet.JsonValue
import ConstraintNet.NetworkText.Writer
import ConstraintNet.Puzzle.Langford
import ConstraintNet.Puzzle.Sudoku
import ConstraintNet.Statistics.Table

namespace ConstraintNet.CommandLine

/-! ## §1. Settings and networks from files. -/

/-- The settings of the bytes of a file. -/
def settingsOfBytes (bytes : ByteArray) : Except Error Settings :=
  match decodeText bytes with
  | .error cause => .error (.file cause)
  | .ok text =>
    match Settings.ofText? text with
    | some settings => .ok settings
    | none => .error .settings

/-- The bytes of a file, or the error of a command that needs them. -/
def readFile (read : String → Except FileError ByteArray) (path : String) :
    Except Error ByteArray :=
  match read path with
  | .ok bytes => .ok bytes
  | .error cause => .error (.file cause)

/-- The settings of a request: the choices of its options, and for the others those of its settings
file or the standard ones. -/
def SolveRequest.settings (request : SolveRequest)
    (read : String → Except FileError ByteArray) : Except Error Settings := do
  let base ←
    match request.settingsFile with
    | some path => settingsOfBytes (← readFile read path)
    | none => .ok Settings.standard
  return request.choices.completeWith base

/-- The network and the title of a family. -/
def Family.network (family : Family) : Except Error (Network × String) :=
  let titled (title : String) : Except PuzzleError Network → Except Error (Network × String)
    | .ok net => .ok (net, title)
    | .error fault => .error (.ofPuzzle fault)
  match family with
  | .queens n => titled (toString n ++ "-Queens.") (Puzzle.queens n)
  | .sudoku none => titled "Sudoku." (Puzzle.sudoku (List.replicate numCells 0))
  | .sudoku (some grid) =>
    match Puzzle.sudokuClues grid with
    | .error cause => .error (.argument cause)
    | .ok clues => titled "Sudoku." (Puzzle.sudoku clues)
  | .langford k n =>
    titled ("Langford, k = " ++ toString k ++ " n = " ++ toString n) (Puzzle.langford k n)
  | .random shape =>
    titled
      ("Random, " ++ toString shape.numVariables ++ " variables, domain size "
        ++ toString shape.domainSize.toInt ++ ", density " ++ shape.density.toText ++ ", tightness "
        ++ shape.tightness.toText ++ ", seed " ++ toString shape.seed.toNat)
      (Puzzle.random shape)

/-! ## §2. Outcomes. -/

/-- A line with a count. -/
def countLine (label : String) (n : Nat) : String := label ++ ": " ++ toString n ++ "\n"

/-- The lines of a solution. -/
def solutionLines : Option (List Value) → String
  | none => "No solution: the problem is unsolvable\n"
  | some values =>
    "Solution:\n" ++ String.join (values.zipIdx.map fun (value, var) =>
      "Variable " ++ toString var ++ " = " ++ toString value.toInt ++ "\n")

/-- The solution and the main counters of a search that took so many nanoseconds. -/
def plainText (outcome : Outcome) (elapsed : Nat) : String :=
  solutionLines outcome.solution ++ countLine "Nodes visited" outcome.stats.nodes
    ++ countLine "Arc revisions" outcome.stats.revisions
    ++ "Elapsed: " ++ toString (elapsed / 1000000) ++ " ms\n"

/-- The other counters of a search, and its table. -/
def tableText (stats : Statistics) (table : String) : String :=
  countLine "Backtracks" stats.backtracks ++ countLine "Max depth" stats.maxDepth
    ++ countLine "Values pruned" stats.totalPrunings ++ table ++ "\n"

/-- The outcome of a search that took so many nanoseconds as a JSON value. -/
def outcomeJson (outcome : Outcome) (elapsed : Nat) : JsonValue :=
  let stats := outcome.stats
  .object
    [("solution",
      match outcome.solution with
      | none => .null
      | some values => .array (values.map fun v => .integer v.toInt)),
     ("stats", .object
      [("nodes_visited", .integer stats.nodes),
       ("arc_revisions", .integer stats.revisions),
       ("backtracks", .integer stats.backtracks),
       ("max_depth", .integer stats.maxDepth),
       ("elapsed", .object
        [("secs", .integer (elapsed / 1000000000 : Nat)),
         ("nanos", .integer (elapsed % 1000000000 : Nat))]),
       ("constraint_stats", .object (stats.tallies.map fun (id, tally) =>
        (toString id, .object
          [("revisions", .integer tally.revisions), ("prunings", .integer tally.prunings)])))])]

/-! ## §3. Commands. -/

/-- The answer of a command. -/
structure Reply where
  exitCode : Nat
  /-- Standard output, when the command took so many nanoseconds. -/
  stdout : Nat → String
  stderr : String
  /-- A file to write, with its path. -/
  output : Option (String × String)

/-- The answer of a command that failed or was stopped. -/
def Reply.failure (error : Error) : Reply :=
  if error.stops then ⟨101, fun _ => "", error.message ++ "\n", none⟩
  else ⟨1, fun _ => "", "error: " ++ error.message ++ "\n", none⟩

/-- The answer to words that make no command. -/
def Reply.usage : Reply := ⟨2, fun _ => "", "", none⟩

/-- The answer of `solve`: the settings are read before the network. -/
def SolveRequest.reply (request : SolveRequest) (read : String → Except FileError ByteArray) :
    Except Error Reply := do
  let settings ← request.settings read
  let net ← Network.ofBytes? (← readFile read request.file)
  match solve net settings with
  | .error cause => .error (.engine cause)
  | .ok (outcome, _) =>
    match request.presentation with
    | .plain => return ⟨0, plainText outcome, "", none⟩
    | .json => return ⟨0, fun elapsed => (outcomeJson outcome elapsed).render 0 ++ "\n", "", none⟩
    | .withTable =>
      match outcome.stats.table? net with
      | none => .error (.engine .fault)
      | some table =>
        return ⟨0, fun elapsed => plainText outcome elapsed ++ tableText outcome.stats table, "",
          none⟩

/-- The answer of `generate`. -/
def generateReply (family : Family) (output : Option String) : Except Error Reply := do
  let (net, title) ← family.network
  let text := net.toText title
  match output with
  | none => return ⟨0, fun _ => text, "", none⟩
  | some path => return ⟨0, fun _ => "", "", some (path, text)⟩

/-- The answer to the question for the version. -/
def Reply.version : Reply := ⟨0, fun _ => "binary-csp 0.1.0\n", "", none⟩

/-- The answer of a command. -/
def Command.reply (command : Command) (read : String → Except FileError ByteArray) : Reply :=
  let answer :=
    match command with
    | .solve request => request.reply read
    | .generate family output => generateReply family output
    | .version => .ok Reply.version
  match answer with
  | .ok reply => reply
  | .error error => Reply.failure error

/-- The paths of the files that a command reads. -/
def Command.inputs : Command → List String
  | .solve request => request.settingsFile.toList ++ [request.file]
  | .generate _ _ | .version => []

/-- The reply after its file went to a device: the standard streams take the text themselves. -/
def Reply.sentTo (reply : Reply) (device : Device) (text : String) : Reply :=
  match device with
  | .null => reply
  | .full => Reply.failure (.file .noSpace)
  | .output => { reply with stdout := fun elapsed => reply.stdout elapsed ++ text }
  | .errors => { reply with stderr := reply.stderr ++ text }

/-- The answer to a command line whose files are in a folder, and the folder afterwards. -/
def runIn (folder : Folder) (words : List String) : Reply × Folder :=
  match Command.ofWords? words with
  | none => (Reply.usage, folder)
  | some command =>
    let reply := command.reply folder.read
    match reply.output with
    | none => (reply, folder)
    | some (path, text) =>
      match folder.target path with
      | .ok (.file location) => (reply, folder.put location text.toUTF8)
      | .ok (.device device) => (reply.sentTo device text, folder)
      | .error cause => (Reply.failure (.file cause), folder)

end ConstraintNet.CommandLine
