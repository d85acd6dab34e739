/-
  ConstraintNet.JsonToken
  ───────────────────────
  **THE TOKENS OF A JSON TEXT.**

  A JSON text is read into its tokens before anything is made of it.  A
  string token carries its characters, unless one of its escapes is half of a
  surrogate pair whose other half is missing; such a string is a token, but
  it has no characters.  Numbers are only checked for their form.
-/

namespace ConstraintNet

/-- A token of a JSON text. -/
inductive JsonToken where
  | openBrace
  | closeBrace
  | openBracket
  | closeBracket
  | colon
  | comma
  | null
  /-- One of the words `true` and `false`. -/
  | truth
  | number
  /-- A string; `none` when its escapes do not make up characters. -/
  | string (content : Option String)
  deriving Repr, DecidableEq

namespace JsonToken

/-! ## §1. Strings. -/

/-- The value of a hexadecimal digit. -/
def hexDigit? (c : Char) : Option Nat :=
  if c.isDigit then some (c.toNat - '0'.toNat)
  else if 'a' ≤ c ∧ c ≤ 'f' then some (c.toNat - 'a'.toNat + 10)
  else if 'A' ≤ c ∧ c ≤ 'F' then some (c.toNat - 'A'.toNat + 10)
  else none

/-- The value of four hexadecimal digits. -/
def hexWord? (a b c d : Char) : Option Nat :=
  match hexDigit? a, hexDigit? b, hexDigit? c, hexDigit? d with
  | some a, some b, some c, some d => some (((a * 16 + b) * 16 + c) * 16 + d)
  | _, _, _, _ => none

/-- The character that a letter after a backslash stands for. -/
def shortEscape? (c : Char) : Option Char :=
  match c with
  | '"' => some '"'
  | '\\' => some '\\'
  | '/' => some '/'
  | 'b' => some '\x08'
  | 'f' => some '\x0c'
  | 'n' => some '\n'
  | 'r' => some '\r'
  | 't' => some '\t'
  | _ => none

/-- Whether a code is the first half of a surrogate pair. -/
def isHighSurrogate (n : Nat) : Bool := 0xD800 ≤ n && n < 0xDC00

/-- Whether a code is the second half of a surrogate pair. -/
def isLowSurrogate (n : Nat) : Bool := 0xDC00 ≤ n && n < 0xE000

/-- The characters that codes stand for, with surrogate pairs put together, in front of those that
are given newest first; `none` when half of a pair stands alone. -/
def charsOfCodes? (done : List Char) : List Nat → Option (List Char)
  | [] => some done.reverse
  | [n] =>
    if isHighSurrogate n || isLowSurrogate n then none else some (Char.ofNat n :: done).reverse
  | n :: m :: rest =>
    if isHighSurrogate n then
      if isLowSurrogate m then
        charsOfCodes? (Char.ofNat (0x10000 + (n - 0xD800) * 0x400 + (m - 0xDC00)) :: done) rest
      else none
    else if isLowSurrogate n then none
    else charsOfCodes? (Char.ofNat n :: done) (m :: rest)

/-- The codes of a string up to its closing quote, newest first in front of `codes`, and the text
after the quote; `none` when the string is malformed. -/
def readCodes? (codes : List Nat) : List Char → Option (List Nat × List Char)
  | [] => none
  | '"' :: rest => some (codes, rest)
  | '\\' :: 'u' :: a :: b :: c :: d :: rest =>
    match hexWord? a b c d with
    | some n => readCodes? (n :: codes) rest
    | none => none
  | '\\' :: e :: rest =>
    match shortEscape? e with
    | some c => readCodes? (c.toNat :: codes) rest
    | none => none
  | c :: rest => if c.toNat < 0x20 then none else readCodes? (c.toNat :: codes) rest

/-- The string whose opening quote was read, and the text after it. -/
def readString? (text : List Char) : Option (JsonToken × List Char) :=
  (readCodes? [] text).map fun (codes, rest) =>
    (.string ((charsOfCodes? [] codes.reverse).map String.ofList), rest)

/-! ## §2. Numbers. -/

/-- The text after one or more digits. -/
def skipDigits? (text : List Char) : Option (List Char) :=
  match text with
  | c :: rest => if c.isDigit then some (rest.dropWhile Char.isDigit) else none
  | [] => none

/-- The text after the digits before the point: a zero, or digits that start with no zero. -/
def skipWhole? (text : List Char) : Option (List Char) :=
  match text with
  | '0' :: rest => some rest
  | _ => skipDigits? text

/-- The text after a point and its digits, if there is a point. -/
def skipPlaces? (text : List Char) : Option (List Char) :=
  match text with
  | '.' :: rest => skipDigits? rest
  | _ => some text

/-- The text after an exponent, if there is one. -/
def skipExponent? (text : List Char) : Option (List Char) :=
  match text with
  | mark :: rest =>
    if mark = 'e' ∨ mark = 'E' then
      match rest with
      | '+' :: digits => skipDigits? digits
      | '-' :: digits => skipDigits? digits
      | _ => skipDigits? rest
    else some text
  | [] => some []

/-- The text after a number. -/
def skipNumber? (text : List Char) : Option (List Char) :=
  let unsigned :=
    match text with
    | '-' :: rest => rest
    | _ => text
  (skipWhole? unsigned).bind fun rest => (skipPlaces? rest).bind skipExponent?

/-! ## §3. Tokens. -/

/-- Whether a character may stand between tokens. -/
def isSpace (c : Char) : Bool := c = ' ' || c = '\t' || c = '\r' || c = '\n'

/-- The token at the start of a text that does not start with a space, and the text after it. -/
def read? (text : List Char) : Option (JsonToken × List Char) :=
  match text with
  | '\x7b' :: rest => some (.openBrace, rest)
  | '\x7d' :: rest => some (.closeBrace, rest)
  | '[' :: rest => some (.openBracket, rest)
  | ']' :: rest => some (.closeBracket, rest)
  | ':' :: rest => some (.colon, rest)
  | ',' :: rest => some (.comma, rest)
  | '"' :: rest => readString? rest
  | 'n' :: 'u' :: 'l' :: 'l' :: rest => some (.null, rest)
  | 't' :: 'r' :: 'u' :: 'e' :: rest => some (.truth, rest)
  | 'f' :: 'a' :: 'l' :: 's' :: 'e' :: rest => some (.truth, rest)
  | _ => (skipNumber? text).map fun rest => (.number, rest)

/-- The tokens of a text, behind those that are given newest first; `none` when something in the
text is no token. Each token takes at least one character, so `fuel` need not exceed the length of
the text. -/
def tokensFrom? : Nat → List JsonToken → List Char → Option (List JsonToken)
  | 0, done, text => if (text.dropWhile isSpace).isEmpty then some done.reverse else none
  | fuel + 1, done, text =>
    match text.dropWhile isSpace with
    | [] => some done.reverse
    | c :: rest =>
      match read? (c :: rest) with
      | none => none
      | some (token, after) => tokensFrom? fuel (token :: done) after

/-- The tokens of a text. -/
def tokens? (text : String) : Option (List JsonToken) :=
  tokensFrom? text.toList.length [] text.toList

end JsonToken

end ConstraintNet
