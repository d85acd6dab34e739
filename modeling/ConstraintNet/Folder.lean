/-
  ConstraintNet.Folder
  ────────────────────
  **FILES BY NAME.**

  The command line reads and writes files in a folder.  A folder is a list of
  files with their locations, which are counted from the root of a tree; the
  other folders of the tree are those that some location passes through.
  `follow` takes the steps of a path one by one and says where they lead, or
  why they lead nowhere.

  A path may also leave the folder.  Outside, nothing is known but the folders
  that enclose this one, the standing folders of a system and some devices; a
  file can be written there all the same.
-/

namespace ConstraintNet

/-- Why a file could not be read or written. -/
inductive FileError where
  | notFound
  /-- A file stands where the path needs a folder. -/
  | notFolder
  /-- A folder stands where the path needs a file. -/
  | isFolder
  /-- A name or a path has more bytes than a file system takes. -/
  | nameTooLong
  /-- The file may not be used that way. -/
  | denied
  /-- Nothing more can be written. -/
  | noSpace
  /-- The bytes of the file are no text. -/
  | invalidText
  deriving Repr, DecidableEq

/-- The error in words. -/
def FileError.message : FileError → String
  | .notFound => "No such file or directory (os error 2)"
  | .notFolder => "Not a directory (os error 20)"
  | .isFolder => "Is a directory (os error 21)"
  | .nameTooLong => "File name too long (os error 36)"
  | .denied => "Permission denied (os error 13)"
  | .noSpace => "No space left on device (os error 28)"
  | .invalidText => "stream did not contain valid UTF-8"

/-- The text that the bytes of a file encode. -/
def decodeText (bytes : ByteArray) : Except FileError String :=
  match String.fromUTF8? bytes with
  | some text => .ok text
  | none => .error .invalidText

/-! ## §1. Locations. -/

/-- Names from the root inwards; the root has none. -/
abbrev Location := List String

/-- What takes bytes without keeping them as a file. Standard input counts as `null`, since it is
empty. -/
inductive Device where
  | null
  /-- A device without room for anything. -/
  | full
  /-- Standard output. -/
  | output
  /-- Standard error. -/
  | errors
  deriving Repr, DecidableEq

/-- The device at a location. -/
def Device.at? : Location → Option Device
  | ["dev", "null"] | ["dev", "stdin"] => some .null
  | ["dev", "full"] => some .full
  | ["dev", "stdout"] => some .output
  | ["dev", "stderr"] => some .errors
  | _ => none

/-- The folders that every system has. -/
def standingFolders : List Location :=
  [["bin"], ["boot"], ["dev"], ["dev", "fd"], ["dev", "pts"], ["dev", "shm"], ["etc"], ["home"],
    ["lib"], ["media"], ["mnt"], ["opt"], ["proc"], ["proc", "self"], ["root"], ["run"], ["sbin"],
    ["srv"], ["sys"], ["tmp"], ["usr"], ["usr", "bin"], ["usr", "lib"], ["usr", "local"],
    ["usr", "share"], ["var"], ["var", "lib"], ["var", "log"], ["var", "tmp"]]

/-- The bytes of the longest name that a file may have. -/
def maxNameSize : Nat := 255

/-- The bytes of the longest path. -/
def maxPathSize : Nat := 4095

/-! ## §2. Following paths. -/

/-- A folder among others. -/
structure Folder where
  /-- Where the folder is. -/
  home : Location
  /-- All files, in the folder or out of it. -/
  files : List (Location × ByteArray)

namespace Folder

/-- The folder at `home` with the given files, whose locations are counted from there. -/
def holding (home : Location) (files : List (Location × ByteArray)) : Folder :=
  ⟨home, files.map fun (location, bytes) => (home ++ location, bytes)⟩

/-- What is at a location. -/
inductive Place where
  | folder
  | file (bytes : ByteArray)
  | device (device : Device)
  | vacant

/-- Whether a folder stands at a location. -/
def isFolderAt (folder : Folder) (location : Location) : Bool :=
  location.isPrefixOf folder.home || standingFolders.contains location
    || folder.files.any fun file => location.isPrefixOf file.1

/-- What is at a location. -/
def placeAt (folder : Folder) (location : Location) : Place :=
  match Device.at? location with
  | some device => .device device
  | none =>
    match folder.files.find? fun file => file.1 = location with
    | some file => .file file.2
    | none => if folder.isFolderAt location then .folder else .vacant

/-- One step on from a location, which has to be a folder. A point stays, two points go out, where
the root is its own outside, and a name goes in, whether something has that name or not. -/
def next (folder : Folder) (here : Location) (step : String) : Except FileError Location :=
  match folder.placeAt here with
  | .vacant => .error .notFound
  | .file _ | .device _ => .error .notFolder
  | .folder =>
    if step = "." ∨ step = "" then .ok here
    else if step = ".." then .ok here.dropLast
    else if maxNameSize < step.utf8ByteSize then .error .nameTooLong
    else .ok (here ++ [step])

/-- Where the steps of a path lead. -/
def follow (folder : Folder) (start : Location) (steps : List String) :
    Except FileError Location :=
  steps.foldlM folder.next start

/-- The location that a path starts from: the root, if it starts with a slash. -/
def startOf (folder : Folder) (path : String) : Location :=
  if path.startsWith "/" then [] else folder.home

/-- Why a path is refused before any step is taken. -/
def pathFault? (path : String) : Option FileError :=
  if path.isEmpty then some .notFound
  else if maxPathSize < path.utf8ByteSize then some .nameTooLong
  else none

/-! ## §3. Reading and writing. -/

/-- The bytes of a file; a device has none. -/
def read (folder : Folder) (path : String) : Except FileError ByteArray := do
  if let some fault := pathFault? path then throw fault
  -- a slash at the end makes an empty last step, which a file does not allow
  let location ← folder.follow (folder.startOf path) (path.splitOn "/")
  match folder.placeAt location with
  | .folder => throw .isFolder
  | .vacant => throw .notFound
  | .file bytes => return bytes
  | .device _ => return ByteArray.empty

/-- What a path names when it is written to. -/
inductive Target where
  /-- A file, which may be there already or not. -/
  | file (location : Location)
  | device (device : Device)

/-- What is written to under a path. -/
def target (folder : Folder) (path : String) : Except FileError Target := do
  if let some fault := pathFault? path then throw fault
  let steps := (path.splitOn "/").filter (· ≠ "")
  let parent ← folder.follow (folder.startOf path) steps.dropLast
  -- a slash at the end names the folder and no file in it, and neither does a path of slashes
  let last := if path.endsWith "/" then "." else steps.getLastD "."
  let location ← folder.next parent last
  match folder.placeAt location with
  | .folder => throw .isFolder
  | .device device => return .device device
  | .file _ | .vacant => return .file location

/-- The folder with a file that holds the given bytes, in place of one that may be there. -/
def put (folder : Folder) (location : Location) (bytes : ByteArray) : Folder :=
  { folder with
    files := (location, bytes) :: folder.files.filter fun file => file.1 ≠ location }

end Folder

end ConstraintNet
