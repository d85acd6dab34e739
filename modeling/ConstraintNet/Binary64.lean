/-
  ConstraintNet.Binary64
  ──────────────────────
  **DOUBLE-PRECISION NUMBERS AS EXACT FRACTIONS.**

  A number in the 64-bit binary format is kept as its bits: one sign bit,
  eleven exponent bits and 52 fraction bits.  All arithmetic on it is exact
  arithmetic on natural numbers: `magnitude` takes a finite number apart into
  m · 2^e, and `nearest` finds the number that is closest to a fraction,
  which is how decimal texts and quotients become numbers.
-/

namespace ConstraintNet

/-- The quotient of two natural numbers, rounded to the nearest integer; a half goes to the even
neighbour. -/
def roundHalfEven (num den : Nat) : Nat :=
  let quotient := num / den
  let twice := 2 * (num % den)
  if den < twice ∨ (twice = den ∧ quotient % 2 = 1) then quotient + 1 else quotient

/-- The power of ten with a given exponent. -/
def powerOfTen (k : Nat) : Nat := Nat.pow 10 k

/-- A number in the 64-bit binary format. -/
structure Binary64 where
  bits : UInt64
  deriving Repr, DecidableEq

namespace Binary64

/-! ## §1. Parts of a number. -/

/-- Whether the sign bit is set. -/
def isNegative (x : Binary64) : Bool := 1 <<< 63 ≤ x.bits.toNat

/-- The bits without the sign. -/
def unsignedBits (x : Binary64) : Nat := x.bits.toNat % (1 <<< 63)

/-- The unsigned bits of infinity; greater ones belong to no number. -/
def infinityBits : Nat := 0x7FF0000000000000

/-- The unsigned bits of one. -/
def oneBits : Nat := 0x3FF0000000000000

/-- Whether the bits stand for no number. -/
def isNaN (x : Binary64) : Bool := infinityBits < x.unsignedBits

/-- Whether the number is infinite. -/
def isInfinite (x : Binary64) : Bool := x.unsignedBits = infinityBits

/-- The magnitude m · 2^e of a finite number, as m and e. -/
def magnitude (x : Binary64) : Nat × Int :=
  let exponent : Nat := x.unsignedBits >>> 52
  let fraction : Nat := x.unsignedBits % (1 <<< 52)
  if exponent = 0 then (fraction, -1074) else ((1 <<< 52) + fraction, (exponent : Int) - 1075)

/-! ## §2. The nearest number. -/

/-- A number from its sign and its unsigned bits. -/
def ofUnsignedBits (negative : Bool) (bits : Nat) : Binary64 :=
  ⟨UInt64.ofNat (if negative then (1 <<< 63) + bits else bits)⟩

/-- What bits without a number look like when a text asks for them. -/
def nan : Binary64 := ofUnsignedBits false 0x7FF8000000000000

/-- An infinite number. -/
def infinity (negative : Bool) : Binary64 := ofUnsignedBits negative infinityBits

/-- The fraction num / den divided by 2^e, as a fraction. -/
def scaleDown (num den : Nat) (e : Int) : Nat × Nat :=
  if 0 ≤ e then (num, den <<< e.toNat) else (num <<< (-e).toNat, den)

/-- The greatest k with 2^k ≤ num / den, for positive `num` and `den`. -/
def floorLog2 (num den : Nat) : Int :=
  let guess : Int := (num.log2 : Int) - den.log2
  let (num', den') := scaleDown num den guess
  if den' ≤ num' then guess else guess - 1

/-- The number closest to num / den, with a given sign; of two equally close ones the one whose
last bit is zero. What is too great for a finite number is infinite. -/
def nearest (negative : Bool) (num den : Nat) : Binary64 :=
  if num = 0 then ofUnsignedBits negative 0
  else
    -- 53 significant bits, or fewer where the exponent has reached its least value
    let e := max (floorLog2 num den - 52) (-1074)
    let (num', den') := scaleDown num den e
    -- a significand that is rounded up to the next power of two carries into the exponent field
    let bits := ((e + 1074).toNat <<< 52) + roundHalfEven num' den'
    ofUnsignedBits negative (min bits infinityBits)

/-! ## §3. Probabilities. -/

/-- Whether the number lies between zero and one, both included. -/
def isProbability (x : Binary64) : Bool :=
  if x.isNegative then x.unsignedBits = 0 else x.unsignedBits ≤ oneBits

/-- Whether the number is one. -/
def isOne (x : Binary64) : Bool := !x.isNegative && x.unsignedBits = oneBits

/-- How many of the 2^64 words lie below the given share of all of them; fractions of a word are
dropped. -/
def wordsBelow (x : Binary64) : Nat :=
  let (m, e) := x.magnitude
  let shift := e + 64
  if 0 ≤ shift then m <<< shift.toNat else m >>> (-shift).toNat

end Binary64

end ConstraintNet
