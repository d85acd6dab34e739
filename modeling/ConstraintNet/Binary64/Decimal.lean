/-
  ConstraintNet.Binary64.Decimal
  ──────────────────────────────
  **NUMBERS FROM DECIMAL TEXTS.**

  A decimal text has a sign if it likes, digits with at most one point among
  them, and an exponent if it likes.  It names the number closest to what it
  says.  The words `inf`, `infinity` and `nan` are accepted in any case.
-/
import ConstraintNet.Binary64

namespace ConstraintNet.Binary64

/-- The number closest to c · 10^k, with a given sign. Far outside the range of the finite numbers
the answer is known without the power. -/
def ofDecimal (negative : Bool) (c : Nat) (k : Int) : Binary64 :=
  -- c · 10^k lies below 10^size
  let size : Int := (Nat.toDigits 10 c).length + k
  if c = 0 ∨ size < -400 then ofUnsignedBits negative 0
  else if 400 < size then infinity negative
  else nearest negative (c * powerOfTen k.toNat) (powerOfTen (-k).toNat)

/-- The sign at the start of a text, a missing one counting as plus, and the rest. -/
def readSign (text : List Char) : Bool × List Char :=
  match text with
  | '-' :: rest => (true, rest)
  | '+' :: rest => (false, rest)
  | _ => (false, text)

/-- The exponent that the end of a decimal text gives: none at all, or `e` or `E`, a sign if it
likes, and at least one digit. -/
def readExponent? (text : List Char) : Option Int :=
  match text with
  | [] => some 0
  | mark :: rest =>
    if mark = 'e' ∨ mark = 'E' then
      let (negative, digits) := readSign rest
      if !digits.isEmpty && digits.all Char.isDigit then
        let n : Int := Nat.ofDigitChars 10 digits 0
        some (if negative then -n else n)
      else none
    else none

/-- The number that an unsigned decimal text names, under a given sign. -/
def ofUnsignedText? (negative : Bool) (text : List Char) : Option Binary64 :=
  let whole := text.takeWhile Char.isDigit
  let rest := text.dropWhile Char.isDigit
  let (places, rest) :=
    match rest with
    | '.' :: rest => (rest.takeWhile Char.isDigit, rest.dropWhile Char.isDigit)
    | _ => ([], rest)
  if whole.isEmpty && places.isEmpty then none
  else
    (readExponent? rest).map fun exponent =>
      ofDecimal negative (Nat.ofDigitChars 10 (whole ++ places) 0) (exponent - places.length)

/-- The number that a text names. -/
def ofText? (text : List Char) : Option Binary64 :=
  let (negative, rest) := readSign text
  let word := String.ofList (rest.map Char.toLower)
  if word = "inf" ∨ word = "infinity" then some (infinity negative)
  else if word = "nan" then some nan
  else ofUnsignedText? negative rest

end ConstraintNet.Binary64
