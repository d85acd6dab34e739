/-
  ConstraintNet.Main
  ──────────────────
  **THE PROGRAM.**

  The program reads the files that its command names, lets the command
  answer, and writes the answer out.
-/
import ConstraintNet.CommandLine.Reply

open ConstraintNet CommandLine

/-- The code of a system error, which some calls report with its sign changed. -/
def systemCode (code : UInt32) : UInt32 := min code (0 - code)

/-- The error of the library for an error of the system; what has no counterpart counts as a file
that is not there. -/
def fileErrorOf (error : IO.Error) : FileError :=
  let ofCode (code : UInt32) : FileError :=
    match (systemCode code).toNat with
    | 13 => .denied
    | 20 => .notFolder
    | 21 => .isFolder
    | 28 => .noSpace
    | 36 => .nameTooLong
    | _ => .notFound
  match error with
  | .inappropriateType _ code _ | .invalidArgument _ code _ | .permissionDenied _ code _
  | .resourceExhausted _ code _ | .otherError code _ => ofCode code
  | _ => .notFound

/-- The bytes of a file, or why it cannot be read. -/
def readBytes (path : String) : IO (Except FileError ByteArray) := do
  try return .ok (← IO.FS.readBinFile path)
  catch error => return .error (fileErrorOf error)

/-- Write the file of a reply, if it has one, and answer with what is to be printed. -/
def writeOutput (reply : Reply) : IO Reply := do
  match reply.output with
  | none => return reply
  | some (path, text) =>
    try
      IO.FS.withFile path .write fun file => do
        file.putStr text
        file.flush
      return reply
    catch error => return Reply.failure (.file (fileErrorOf error))

/-- Run the command of the words. -/
def main (words : List String) : IO UInt32 := do
  let some command := Command.ofWords? words
    | IO.eprintln "error: these words make no command"
      return 2
  let files ← command.inputs.mapM fun path => return (path, ← readBytes path)
  let read (path : String) : Except FileError ByteArray :=
    match files.find? fun file => file.1 = path with
    | some file => file.2
    | none => .error .notFound
  let started ← IO.monoNanosNow
  let reply := command.reply read
  let code := reply.exitCode
  let ended ← if code = 0 then IO.monoNanosNow else pure started
  let reply ← writeOutput reply
  IO.print (reply.stdout (ended - started))
  IO.eprint reply.stderr
  return UInt32.ofNat reply.exitCode
