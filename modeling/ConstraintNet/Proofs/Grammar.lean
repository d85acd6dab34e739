/-
  ConstraintNet.Proofs.Grammar
  ────────────────────────────
  **THE LANGUAGE OF NETWORK FILES.**

  What a network file is, said without a reader.  A text spells a list of
  words, with spaces and comments anywhere between them, and the words are

      n   a , b   …   a , b       n pairs: the range of each variable
      c ( i , j )   a , b   …     any number of blocks: a constraint between
      …                           two variables and the pairs that it allows

  `Spells` takes a text apart into words, `Pairs` and `Blocks` relate words to
  what they list, and `Describes` is the whole file.

  A number takes all the digits that stand together.  No other two words can
  be run together to one, so this is the longest match; a minus sign belongs
  to the digits after it and is no word without them.
-/
import ConstraintNet.Constraint
import ConstraintNet.Network

namespace ConstraintNet.NetworkText

/-! ## §1. Words. -/

/-- A word of one character. -/
inductive Mark where
  | constraint
  | openParen
  | comma
  | closeParen
  deriving DecidableEq

def Mark.char : Mark → Char
  | .constraint => 'c'
  | .openParen => '('
  | .comma => ','
  | .closeParen => ')'

/-- A word of a network file. -/
inductive Word where
  /-- The number that the digits say, and whether a minus sign stands before them. -/
  | number (negative : Bool) (magnitude : Nat)
  | mark (m : Mark)
  deriving DecidableEq

/-- The characters before the digits of a number. -/
def signOf (negative : Bool) : List Char := if negative then ['-'] else []

/-- A comment ends in front of a line feed, of a carriage return with its line feed, or where the
text ends. -/
def EndsLine (rest : List Char) : Prop :=
  rest = [] ∨ ['\n'] <+: rest ∨ ['\r', '\n'] <+: rest

/-- The text begins with these words, spaces and comments aside, and `rest` is what follows. -/
inductive Spells : List Char → List Word → List Char → Prop where
  | done (rest : List Char) : Spells rest [] rest
  | space {c : Char} {text rest : List Char} {words : List Word}
      (hspace : c = ' ' ∨ c = '\t' ∨ c = '\r' ∨ c = '\n') (h : Spells text words rest) :
      Spells (c :: text) words rest
  | comment {body text rest : List Char} {words : List Word}
      (hbody : ∀ c ∈ body, c ≠ '\n' ∧ c ≠ '\r') (hend : EndsLine text)
      (h : Spells text words rest) : Spells ('/' :: '/' :: (body ++ text)) words rest
  | number (negative : Bool) {digits text rest : List Char} {words : List Word}
      (hne : digits ≠ []) (hdigits : ∀ d ∈ digits, d.isDigit = true)
      (hlongest : ∀ c ∈ text.head?, c.isDigit = false) (h : Spells text words rest) :
      Spells (signOf negative ++ (digits ++ text))
        (.number negative (Nat.ofDigitChars 10 digits 0) :: words) rest
  | mark (m : Mark) {text rest : List Char} {words : List Word} (h : Spells text words rest) :
      Spells (m.char :: text) (.mark m :: words) rest

theorem Spells.append {text rest rest' : List Char} {words words' : List Word}
    (h : Spells text words rest) (h' : Spells rest words' rest') :
    Spells text (words ++ words') rest' := by
  induction h with
  | done rest => exact h'
  | space hspace _ ih => exact .space hspace (ih h')
  | comment hbody hend _ ih => exact .comment hbody hend (ih h')
  | number negative hne hdigits hlongest _ ih => exact .number negative hne hdigits hlongest (ih h')
  | mark m _ ih => exact .mark m (ih h')

/-! ## §2. What words say. -/

/-- The word is an unsigned number of 64 bits. -/
def Word.IsIndex (w : Word) (n : Nat) : Prop := w = .number false n ∧ n < UInt64.size

/-- The word is a signed number of 32 bits. -/
def Word.IsInteger (w : Word) (v : Value) : Prop :=
  ∃ negative n, w = .number negative n ∧ v.toInt = if negative then -(n : Int) else n

/-- The words `a, b` for every pair of the list. -/
inductive Pairs : List Word → List (Value × Value) → Prop where
  | nil : Pairs [] []
  | cons {w w' : Word} {a b : Value} {words : List Word} {pairs : List (Value × Value)}
      (hfirst : w.IsInteger a) (hsecond : w'.IsInteger b) (h : Pairs words pairs) :
      Pairs (w :: .mark .comma :: w' :: words) ((a, b) :: pairs)

/-- The words `c(i, j)` and the allowed pairs for every constraint of the list. A pair may be given
more than once; it counts where it comes first. -/
inductive Blocks : List Word → List Constraint → Prop where
  | nil : Blocks [] []
  | cons {w w' : Word} {c : Constraint} {words words' : List Word} {pairs : List (Value × Value)}
      {constraints : List Constraint} (hfirst : w.IsIndex c.first) (hsecond : w'.IsIndex c.second)
      (hpairs : Pairs words pairs) (htuples : c.tuples = pairs.eraseDups)
      (h : Blocks words' constraints) :
      Blocks (.mark .constraint :: .mark .openParen :: w :: .mark .comma :: w' ::
        .mark .closeParen :: (words ++ words')) (c :: constraints)

/-- The words of a network file: the number of variables, a range for each, and the constraints. -/
inductive Describes : List Word → List Bounds → List Constraint → Prop where
  | file {w : Word} {words words' : List Word} {bounds : List Bounds}
      {constraints : List Constraint} (hcount : w.IsIndex bounds.length)
      (hbounds : Pairs words (bounds.map fun b => (b.lower, b.upper)))
      (hconstraints : Blocks words' constraints) :
      Describes (w :: (words ++ words')) bounds constraints

end ConstraintNet.NetworkText
