/-
  ConstraintNet.Text.CharLiteral
  ──────────────────────────────
  **CHARACTERS IN MESSAGES.**

  A message shows a character between single quotes.  The quote itself, the
  backslash and the common controls are written with a backslash, other
  hidden characters by their code point, and every other character as it is.
-/
import ConstraintNet.Text.Hidden

namespace ConstraintNet.Text

/-- The code point of a character in hexadecimal digits, between braces. -/
def codePointEscape (c : Char) : List Char :=
  ['\\', 'u', '\x7b'] ++ Nat.toDigits 16 c.toNat ++ ['\x7d']

/-- A character as a literal shows it, without the quotes. -/
def charBody (c : Char) : List Char :=
  if c = '\x00' then ['\\', '0']
  else if c = '\t' then ['\\', 't']
  else if c = '\r' then ['\\', 'r']
  else if c = '\n' then ['\\', 'n']
  else if c = '\x27' then ['\\', '\x27']
  else if c = '\\' then ['\\', '\\']
  else if isHidden c then codePointEscape c
  else [c]

/-- A character between single quotes. -/
def charLiteral (c : Char) : String := String.ofList ('\x27' :: charBody c ++ ['\x27'])

end ConstraintNet.Text
