/-
  ConstraintNet.Text.Blank
  ────────────────────────
  **BLANK CHARACTERS AND WORDS.**

  A character is blank when it has the Unicode property `White_Space`, which
  25 characters have.  A word is a stretch of text without blanks.
-/

namespace ConstraintNet.Text

/-- The code points with the property `White_Space`. -/
def blankCodes : List Nat :=
  [0x09, 0x0A, 0x0B, 0x0C, 0x0D, 0x20, 0x85, 0xA0, 0x1680, 0x2000, 0x2001, 0x2002, 0x2003, 0x2004,
    0x2005, 0x2006, 0x2007, 0x2008, 0x2009, 0x200A, 0x2028, 0x2029, 0x202F, 0x205F, 0x3000]

/-- Whether a character has the property `White_Space`. -/
def isBlank (c : Char) : Bool := blankCodes.contains c.toNat

/-- The first word of a text; empty when the text is blank. -/
def firstWord (text : List Char) : List Char :=
  (text.dropWhile isBlank).takeWhile fun c => !isBlank c

end ConstraintNet.Text
