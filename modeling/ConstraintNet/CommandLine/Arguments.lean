/-
  ConstraintNet.CommandLine.Arguments
  ───────────────────────────────────
  **WORDS AFTER THE NAME OF A PROGRAM.**

  The words of a command line are options, their values, and positional
  words.  An option has a long name behind two hyphens and perhaps a letter
  behind one; its value is the next word or follows an equals sign, and may
  follow the letter at once.  Two hyphens alone end the options.

  `scan` sorts the words of one level of a command into options and
  positional words.  A level that has commands below it ends at the first
  positional word, which has to be one of them.
-/

namespace ConstraintNet.CommandLine

/-- An option of a command. -/
structure OptionSpec where
  long : List Char
  /-- The letter of the short form. -/
  short : Option Char
  /-- Whether the option has a value. -/
  takesValue : Bool

/-- An option with a value. -/
def valueOption (long : String) : OptionSpec := ⟨long.toList, none, true⟩

/-- An option without a value. -/
def flag (long : String) : OptionSpec := ⟨long.toList, none, false⟩

/-- What the words of one level say. -/
structure Scanned where
  /-- The options by long name, each with its value; that of a flag is empty. -/
  options : List (List Char × List Char)
  /-- The positional words, or the name of the command below. -/
  positional : List (List Char)
  /-- The words after the name of the command below. -/
  below : List (List Char)

namespace Scanned

/-- The value of an option. -/
def value? (s : Scanned) (long : String) : Option (List Char) :=
  (s.options.find? fun entry => entry.1 = long.toList).map Prod.snd

/-- Whether an option was given. -/
def has (s : Scanned) (long : String) : Bool := (s.value? long).isSome

end Scanned

/-- A name, and what follows the first equals sign behind it. -/
def splitValue (word : List Char) : List Char × Option (List Char) :=
  let name := word.takeWhile (· ≠ '=')
  match word.dropWhile (· ≠ '=') with
  | [] => (name, none)
  | _ :: value => (name, some value)

/-- The option that a word with hyphens names, and the value inside the word. -/
def readOption? (specs : List OptionSpec) (word : List Char) :
    Option (OptionSpec × Option (List Char)) :=
  match word with
  | '-' :: '-' :: rest =>
    let (name, value) := splitValue rest
    (specs.find? fun spec => spec.long = name).map fun spec => (spec, value)
  | '-' :: letter :: rest =>
    (specs.find? fun spec => spec.short = some letter).map fun spec =>
      (spec, match rest with
        | [] => none
        | '=' :: value => some value
        | _ => some rest)
  | _ => none

/-- Whether a word can only be an option: it starts with a hyphen and is longer. -/
def looksLikeOption (word : List Char) : Bool :=
  match word with
  | '-' :: _ :: _ => true
  | _ => false

/-- What the words say, after those that `found` holds; `none` when they are malformed. An option
that needs a value may be `pending`; `literal` holds once the options have ended. A level with
commands has no other positional words. -/
def scanFrom (specs : List OptionSpec) (hasCommands : Bool) (found : Scanned)
    (pending : Option OptionSpec) (literal : Bool) : List (List Char) → Option Scanned
  | [] => if pending.isSome then none else some found
  | word :: rest =>
    match pending with
    -- the word is the value of the option before it
    | some spec =>
      if looksLikeOption word then none
      else
        scanFrom specs hasCommands { found with options := (spec.long, word) :: found.options }
          none literal rest
    | none =>
      -- the word is positional
      if literal || !looksLikeOption word then
        if hasCommands then
          if literal then none else some { found with positional := [word], below := rest }
        else
          scanFrom specs hasCommands { found with positional := found.positional ++ [word] } none
            literal rest
      else if word = ['-', '-'] then scanFrom specs hasCommands found none true rest
      else
        match readOption? specs word with
        | none => none
        | some (spec, value) =>
          -- no option is given twice on one level
          if found.options.any fun entry => entry.1 = spec.long then none
          else
            match spec.takesValue, value with
            | true, some value =>
              scanFrom specs hasCommands
                { found with options := (spec.long, value) :: found.options } none literal rest
            | true, none => scanFrom specs hasCommands found (some spec) literal rest
            | false, none =>
              scanFrom specs hasCommands { found with options := (spec.long, []) :: found.options }
                none literal rest
            | false, some _ => none

/-- What the words of a level say; `none` when they are malformed. -/
def scan (specs : List OptionSpec) (hasCommands : Bool) (words : List (List Char)) :
    Option Scanned :=
  scanFrom specs hasCommands ⟨[], [], []⟩ none false words

/-! ## §1. Numbers. -/

/-- The natural number that digits name; `none` when a character is no digit or there is none. -/
def readDigits? (digits : List Char) : Option Nat :=
  if !digits.isEmpty && digits.all Char.isDigit then some (Nat.ofDigitChars 10 digits 0) else none

/-- The natural number below 2^64 that a word names, perhaps behind a plus sign. -/
def readNat? (word : List Char) : Option Nat :=
  let digits :=
    match word with
    | '+' :: rest => rest
    | _ => word
  (readDigits? digits).bind fun n => if n < 1 <<< 64 then some n else none

/-- The integer that a word names, perhaps behind a sign. -/
def readInt? (word : List Char) : Option Int :=
  match word with
  | '-' :: digits => (readDigits? digits).map fun n => -(n : Int)
  | '+' :: digits => (readDigits? digits).map fun n => (n : Int)
  | _ => (readDigits? word).map fun n => (n : Int)

end ConstraintNet.CommandLine
