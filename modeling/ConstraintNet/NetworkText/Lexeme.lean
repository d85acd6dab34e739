/-
  ConstraintNet.NetworkText.Lexeme
  ────────────────────────────────
  **THE WORDS OF A NETWORK FILE.**

  A network file is a sequence of numbers, the letter `c`, parentheses and
  commas.  Between them may stand spaces, tabs, line ends and comments; a
  comment starts with two slashes and runs to the next line end, which is a
  line feed or a carriage return with a line feed.  A carriage return on its
  own ends no line, and a comment that meets one is no comment.

  `next?` skips what stands between and reads the longest lexeme that comes
  next.  What is no lexeme of the format is read as `unknown`, one character
  at a time, so that a text is always read to its end.
-/

namespace ConstraintNet

/-- A word of a network file. -/
inductive Lexeme where
  /-- Digits, with a minus sign before them if `negative`; `magnitude` is what the digits say, as
  far as `Lexeme.magnitudeLimit`. -/
  | number (negative : Bool) (magnitude : Nat)
  /-- A minus sign without digits. -/
  | minus
  /-- The letter `c`, which starts a constraint. -/
  | constraintMark
  | openParen
  | comma
  | closeParen
  /-- A character that starts no lexeme of the format. -/
  | unknown
  deriving Repr, DecidableEq

namespace Lexeme

/-! ## §1. What stands between lexemes. -/

/-- What follows the text of a comment, its line end included; `none` when the text meets a
carriage return that ends no line. -/
def skipComment? : List Char → Option (List Char)
  | [] => some []
  | '\n' :: rest => some ('\n' :: rest)
  | '\r' :: '\n' :: rest => some ('\r' :: '\n' :: rest)
  | '\r' :: _ => none
  | _ :: rest => skipComment? rest

theorem length_skipComment?_le {text rest : List Char} (h : skipComment? text = some rest) :
    rest.length ≤ text.length := by
  fun_induction skipComment? text with
  | case1 => cases h; simp
  | case2 => cases h; simp
  | case3 => cases h; simp
  | case4 => cases h
  | case5 c text _ _ _ ih =>
    have := ih h
    simp only [List.length_cons]
    omega

/-- Whether a character may stand between lexemes. -/
def isSpace (c : Char) : Bool := c = ' ' || c = '\t' || c = '\r' || c = '\n'

/-- The text without the spaces and comments at its start. -/
def skipSpace (text : List Char) : List Char :=
  match text with
  | '/' :: '/' :: rest =>
    match _h : skipComment? rest with
    | some after => skipSpace after
    | none => text
  | c :: rest => if isSpace c then skipSpace rest else text
  | [] => []
termination_by text.length
decreasing_by
  · have := length_skipComment?_le _h
    simp only [List.length_cons]
    omega
  · simp

theorem length_skipSpace_le (text : List Char) : (skipSpace text).length ≤ text.length := by
  fun_induction skipSpace text with
  | case1 rest after h ih =>
    have := length_skipComment?_le h
    simp only [List.length_cons]
    omega
  | case2 => exact Nat.le_refl _
  | case3 c rest _ _ ih =>
    simp only [List.length_cons]
    omega
  | case4 => exact Nat.le_refl _
  | case5 => exact Nat.le_refl _

/-! ## §2. Lexemes. -/

/-- No number of a network file is as large as this, so that larger ones need not be told apart. -/
def magnitudeLimit : Nat := 1 <<< 64

/-- What decimal digits say, as far as the limit. -/
def magnitudeOf (digits : List Char) : Nat :=
  digits.foldl (fun n digit => min (10 * n + (digit.toNat - '0'.toNat)) magnitudeLimit) 0

/-- The digits of a number beyond the limit count as the limit. -/
theorem magnitudeOf_eq (digits : List Char) :
    magnitudeOf digits = min (Nat.ofDigitChars 10 digits 0) magnitudeLimit := by
  have hgo (digits : List Char) (n : Nat) :
      digits.foldl (fun n digit => min (10 * n + (digit.toNat - '0'.toNat)) magnitudeLimit)
          (min n magnitudeLimit) =
        min (Nat.ofDigitChars 10 digits n) magnitudeLimit := by
    induction digits generalizing n with
    | nil => simp
    | cons digit rest ih =>
      rw [List.foldl_cons, Nat.ofDigitChars_cons, ← ih]
      congr 1
      -- ten times a number at the limit is beyond it
      omega
  exact hgo digits 0

/-- The number whose digits start with `digit`, and the text after its last digit. -/
def readNumber (negative : Bool) (digit : Char) (rest : List Char) : Lexeme × List Char :=
  (.number negative (magnitudeOf (digit :: rest.takeWhile Char.isDigit)),
    rest.dropWhile Char.isDigit)

/-- The longest lexeme that starts with `c`, and the text after it. -/
def read (c : Char) (rest : List Char) : Lexeme × List Char :=
  if c.isDigit then readNumber false c rest
  else if c = '-' then
    match rest with
    | digit :: rest' => if digit.isDigit then readNumber true digit rest' else (.minus, rest)
    | [] => (.minus, [])
  else if c = 'c' then (.constraintMark, rest)
  else if c = '(' then (.openParen, rest)
  else if c = ',' then (.comma, rest)
  else if c = ')' then (.closeParen, rest)
  else (.unknown, rest)

theorem length_dropWhile_le {α : Type} (p : α → Bool) (l : List α) :
    (l.dropWhile p).length ≤ l.length :=
  (List.dropWhile_sublist p).length_le

theorem length_read_le (c : Char) (rest : List Char) : (read c rest).2.length ≤ rest.length := by
  unfold read
  split
  · exact length_dropWhile_le _ _
  · split
    · split
      · next digit rest' =>
        split
        · have := length_dropWhile_le Char.isDigit rest'
          simp only [readNumber, List.length_cons]
          omega
        · exact Nat.le_refl _
      · exact Nat.le_refl _
    · repeat' split
      all_goals exact Nat.le_refl _

/-- The next lexeme, the text from its start on, and the text after it; `none` when only spaces and
comments are left. -/
def next? (text : List Char) : Option (Lexeme × List Char × List Char) :=
  match skipSpace text with
  | [] => none
  | c :: rest =>
    let (lexeme, after) := read c rest
    some (lexeme, c :: rest, after)

/-- Behind a lexeme the text is shorter, so reading comes to an end. -/
theorem length_of_next? {text start after : List Char} {lexeme : Lexeme}
    (h : next? text = some (lexeme, start, after)) : after.length < text.length := by
  unfold next? at h
  split at h
  · cases h
  · next c rest hskip =>
    have h₁ := length_skipSpace_le text
    have h₂ := length_read_le c rest
    rw [hskip, List.length_cons] at h₁
    simp only [Option.some.injEq, Prod.mk.injEq] at h
    rw [← h.2.2]
    omega

end Lexeme

end ConstraintNet
