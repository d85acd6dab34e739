/-
  ConstraintNet.Error
  ───────────────────
  **EVERYTHING THAT CAN GO WRONG.**

  The errors of all parts in one type, with their wording.
-/
import ConstraintNet.Engine
import ConstraintNet.Folder
import ConstraintNet.NetworkText.Reader
import ConstraintNet.Puzzle.Error

namespace ConstraintNet

/-- An error of some part of the library. -/
inductive Error where
  /-- Ranges and constraints do not form a network. -/
  | network (fault : NetworkError)
  /-- A text does not follow the format of network files. -/
  | format (line : Nat) (expected : String) (found : List Char)
  /-- An argument is not accepted. -/
  | argument (cause : ArgumentError)
  /-- Room for a list cannot be reserved. -/
  | noRoom
  /-- An engine did not search. -/
  | engine (cause : EngineError)
  /-- A file could not be read or written. -/
  | file (cause : FileError)
  /-- A text does not describe settings. -/
  | settings
  deriving Repr, DecidableEq

namespace Error

/-- A fault of a network file, as one of the errors. -/
def ofRead : ReadError → Error
  | .unexpected line expected found => .format line expected found
  | .network fault => .network fault

/-- A fault of a puzzle, as one of the errors. -/
def ofPuzzle : PuzzleError → Error
  | .argument cause => .argument cause
  | .network fault => .network fault
  | .noRoom => .noRoom

/-- The error in words. What is wrong with settings is not said. -/
def message : Error → String
  | .network fault => fault.message
  | .format line expected found => (ReadError.unexpected line expected found).message
  | .argument cause => "invalid argument: " ++ cause.message
  | .noRoom => "capacity overflow"
  | .engine cause => cause.message
  | .file cause => "I/O error: " ++ cause.message
  | .settings => "invalid configuration: "

/-- Whether the error ends a program on the spot, instead of being reported by it. -/
def stops : Error → Bool
  | .noRoom | .engine .fault => true
  | _ => false

end Error

/-- The network that the bytes of a file describe. -/
def Network.ofBytes? (bytes : ByteArray) : Except Error Network :=
  match decodeText bytes with
  | .error cause => .error (.file cause)
  | .ok text =>
    match Network.ofText? text with
    | .error fault => .error (.ofRead fault)
    | .ok net => .ok net

end ConstraintNet
