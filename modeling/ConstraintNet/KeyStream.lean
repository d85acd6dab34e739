/-
  ConstraintNet.KeyStream
  ───────────────────────
  **REPEATABLE RANDOM WORDS.**

  Random networks draw their words from the ChaCha stream cipher with eight
  rounds.  A block of the stream is a function of the key and the number of
  the block; a 64-bit seed is spread over the eight words of the key by a
  linear congruential generator.  The same seed therefore always gives the
  same words in the same order.
-/

namespace ConstraintNet

/-! ## §1. Rows of four words. -/

/-- Four words that a round treats alike. -/
structure WordRow where
  a : UInt32
  b : UInt32
  c : UInt32
  d : UInt32
  deriving Repr, DecidableEq

namespace WordRow

/-- Word by word sums. -/
def add (x y : WordRow) : WordRow := ⟨x.a + y.a, x.b + y.b, x.c + y.c, x.d + y.d⟩

/-- Word by word exclusive or. -/
def xor (x y : WordRow) : WordRow := ⟨x.a ^^^ y.a, x.b ^^^ y.b, x.c ^^^ y.c, x.d ^^^ y.d⟩

/-- A word with its bits moved to the left by `n` places around its end, for 0 < n < 32. -/
def rotateWord (n : UInt32) (w : UInt32) : UInt32 := (w <<< n) ||| (w >>> (32 - n))

/-- Every word rotated to the left. -/
def rotate (n : UInt32) (x : WordRow) : WordRow :=
  ⟨rotateWord n x.a, rotateWord n x.b, rotateWord n x.c, rotateWord n x.d⟩

/-- The words moved one place to the front, the first behind the last. -/
def shift (x : WordRow) : WordRow := ⟨x.b, x.c, x.d, x.a⟩

/-- The words in order. -/
def toList (x : WordRow) : List UInt32 := [x.a, x.b, x.c, x.d]

end WordRow

/-! ## §2. Blocks. -/

/-- The sixteen words of a block, in four rows. -/
structure WordBlock where
  first : WordRow
  second : WordRow
  third : WordRow
  fourth : WordRow
  deriving Repr, DecidableEq

namespace WordBlock

/-- A quarter round on each column. -/
def mixColumns (x : WordBlock) : WordBlock :=
  let first := x.first.add x.second
  let fourth := (x.fourth.xor first).rotate 16
  let third := x.third.add fourth
  let second := (x.second.xor third).rotate 12
  let first := first.add second
  let fourth := (fourth.xor first).rotate 8
  let third := third.add fourth
  let second := (second.xor third).rotate 7
  ⟨first, second, third, fourth⟩

/-- The rows moved so that the diagonals stand in the columns. -/
def toDiagonals (x : WordBlock) : WordBlock :=
  ⟨x.first, x.second.shift, x.third.shift.shift, x.fourth.shift.shift.shift⟩

/-- The rows moved back. -/
def ofDiagonals (x : WordBlock) : WordBlock :=
  ⟨x.first, x.second.shift.shift.shift, x.third.shift.shift, x.fourth.shift⟩

/-- A round on the columns and a round on the diagonals. -/
def doubleRound (x : WordBlock) : WordBlock :=
  x.mixColumns.toDiagonals.mixColumns.ofDiagonals

/-- Word by word sums. -/
def add (x y : WordBlock) : WordBlock :=
  ⟨x.first.add y.first, x.second.add y.second, x.third.add y.third, x.fourth.add y.fourth⟩

/-- The words in order. -/
def toList (x : WordBlock) : List UInt32 :=
  x.first.toList ++ x.second.toList ++ x.third.toList ++ x.fourth.toList

end WordBlock

/-! ## §3. The stream. -/

/-- The key of a stream. -/
structure StreamKey where
  first : WordRow
  second : WordRow
  deriving Repr, DecidableEq

/-- The constant row of every block. -/
def constantRow : WordRow := ⟨0x61707865, 0x3320646e, 0x79622d32, 0x6b206574⟩

/-- Block number `counter` of the stream with a key. -/
def StreamKey.block (key : StreamKey) (counter : UInt64) : WordBlock :=
  let start : WordBlock :=
    ⟨constantRow, key.first, key.second, ⟨counter.toUInt32, (counter >>> 32).toUInt32, 0, 0⟩⟩
  start.doubleRound.doubleRound.doubleRound.doubleRound.add start

/-- The words of 64 bits that pairs of words make, the low half first. -/
def pairWords : List UInt32 → List UInt64
  | low :: high :: rest => (high.toUInt64 <<< 32 ||| low.toUInt64) :: pairWords rest
  | _ => []

/-- The words of a stream that were not drawn yet. -/
structure KeyStream where
  key : StreamKey
  /-- The number of the next block. -/
  counter : UInt64
  /-- The words of the present block that are left. -/
  ready : List UInt64

namespace KeyStream

/-- One step of the generator that spreads a seed. -/
def nextSeed (seed : UInt64) : UInt64 := seed * 6364136223846793005 + 11634580027462260723

/-- The word that a state of the generator gives. -/
def seedWord (state : UInt64) : UInt32 :=
  let word := (((state >>> 18) ^^^ state) >>> 27).toUInt32
  let turn := (state >>> 59).toUInt32
  if turn = 0 then word else (word >>> turn) ||| (word <<< (32 - turn))

/-- The first `n` words that a seed gives. -/
def seedWords (seed : UInt64) : Nat → List UInt32
  | 0 => []
  | n + 1 => seedWord (nextSeed seed) :: seedWords (nextSeed seed) n

/-- The key that a seed gives. -/
def keyOfSeed (seed : UInt64) : StreamKey :=
  match seedWords seed 8 with
  | [a, b, c, d, e, f, g, h] => ⟨⟨a, b, c, d⟩, ⟨e, f, g, h⟩⟩
  | _ => ⟨⟨0, 0, 0, 0⟩, ⟨0, 0, 0, 0⟩⟩

/-- The whole stream of a seed. -/
def ofSeed (seed : UInt64) : KeyStream := ⟨keyOfSeed seed, 0, []⟩

/-- The next word of the stream, and the stream after it. -/
def next (s : KeyStream) : UInt64 × KeyStream :=
  match s.ready with
  | word :: ready => (word, { s with ready := ready })
  | [] =>
    match pairWords (s.key.block s.counter).toList with
    | word :: ready => (word, ⟨s.key, s.counter + 1, ready⟩)
    | [] => (0, s)

end KeyStream

end ConstraintNet
