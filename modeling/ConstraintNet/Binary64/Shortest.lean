/-
  ConstraintNet.Binary64.Shortest
  ───────────────────────────────
  **THE FEWEST DIGITS THAT NAME A NUMBER.**

  Many decimals are closer to a given number than to any other; `shortest?`
  finds one with the fewest digits, and the closest of those.  For one digit,
  two digits and so on it looks at the two neighbours of the number on the
  grid of decimals with so many digits, until one of them lies in the interval
  of reals that round to the number.

  `toText` writes these digits in positions, never with an exponent, and
  writes no point behind an integer.
-/
import ConstraintNet.Binary64

namespace ConstraintNet.Binary64

/-! ## §1. Decimals in the rounding interval. -/

/-- The interval of reals that round to m · 2^e: its ends in quarters of 2^e. -/
structure RoundingInterval where
  /-- Four times m: the number itself. -/
  centre : Nat
  low : Nat
  high : Nat
  /-- The exponent of a quarter. -/
  exponent : Int
  /-- Whether the ends belong to the interval. -/
  closed : Bool

/-- The rounding interval of a finite number other than zero. Below a power of two the numbers lie
twice as close. -/
def roundingInterval (m : Nat) (e : Int) : RoundingInterval :=
  let low := if m = 1 <<< 52 ∧ -1074 < e then 4 * m - 1 else 4 * m - 2
  ⟨4 * m, low, 4 * m + 2, e - 2, m % 2 = 0⟩

/-- The fraction a · 2^e / 10^k, as numerator and denominator. -/
def fraction (a : Nat) (e k : Int) : Nat × Nat :=
  ((a <<< e.toNat) * powerOfTen (-k).toNat, (1 <<< (-e).toNat) * powerOfTen k.toNat)

/-- Whether c · 10^k lies in the interval. -/
def RoundingInterval.contains (r : RoundingInterval) (c : Nat) (k : Int) : Bool :=
  let (low, den) := fraction r.low r.exponent k
  let (high, _) := fraction r.high r.exponent k
  if r.closed then low ≤ c * den && c * den ≤ high else low < c * den && c * den < high

/-- The neighbour of the number on the grid of the multiples of 10^k that lies in the interval, the
closer one if both do, and the greater one if they are equally close. -/
def RoundingInterval.gridPoint? (r : RoundingInterval) (k : Int) : Option Nat :=
  let (num, den) := fraction r.centre r.exponent k
  let below := num / den
  let toBelow := num % den
  match r.contains below k, r.contains (below + 1) k with
  | true, true => some (if 2 * toBelow < den then below else below + 1)
  | true, false => some below
  | false, true => some (below + 1)
  | false, false => none

/-! ## §2. The shortest decimal. -/

/-- The number of decimal digits of a positive natural number. -/
def digitCount (n : Nat) : Nat := (Nat.toDigits 10 n).length

/-- The p with 10^(p-1) ≤ m · 2^e < 10^p, for positive m. -/
def decimalExponent (m : Nat) (e : Int) : Int :=
  let (num, den) := fraction m e 0
  if den ≤ num then digitCount (num / den)
  else 1 - (digitCount ((den + num - 1) / num - 1) : Int)

/-- No number needs more digits than this. -/
def maxDigits : Nat := 17

/-- The first grid, from `digits` digits on, on which the number has a neighbour in its interval,
with that neighbour. -/
def firstGrid? (r : RoundingInterval) (p : Int) (digits : Nat) : Nat → Option (Nat × Int)
  | 0 => none
  | fuel + 1 =>
    match r.gridPoint? (p - digits) with
    | some c => some (c, p - digits)
    | none => firstGrid? r p (digits + 1) fuel

/-- The shortest decimal c · 10^k that names m · 2^e, for positive m. -/
def shortest? (m : Nat) (e : Int) : Option (Nat × Int) :=
  firstGrid? (roundingInterval m e) (decimalExponent m e) 1 maxDigits

/-! ## §3. Positional notation. -/

/-- c · 10^k with all its digits in their positions; zeros at the end of c that stand behind the
point are dropped. -/
def positional (c : Nat) (k : Int) : List Char :=
  let digits := Nat.toDigits 10 c
  let kept := (digits.reverse.dropWhile (· = '0')).reverse
  let point : Int := digits.length + k
  -- the point stands behind all digits, among them, or in front of them
  if (kept.length : Int) ≤ point then kept ++ List.replicate (point - kept.length).toNat '0'
  else if 0 < point then kept.take point.toNat ++ '.' :: kept.drop point.toNat
  else '0' :: '.' :: List.replicate (-point).toNat '0' ++ kept

/-- The number in the fewest digits that name it. -/
def toText (x : Binary64) : String :=
  if x.isNaN then "NaN"
  else
    let (m, e) := x.magnitude
    let unsigned : List Char :=
      if x.isInfinite then ['i', 'n', 'f']
      else if m = 0 then ['0']
      else
        match shortest? m e with
        | some (c, k) => positional c k
        | none => []
    String.ofList (if x.isNegative then '-' :: unsigned else unsigned)

end ConstraintNet.Binary64
