/-
  ConstraintNet.Proofs.Puzzle.ExactArithmetic
  ───────────────────────────────────────────
  **NO PUZZLE IS MADE WITH AN OVERFLOW.**

  The arguments of a puzzle and the positions of its variables are sizes, which
  have 64 bits; columns and positions in a row are values, which have 32.  Only
  one quantity is ever tested: that the last column, or the length of the row,
  is a value.  Here the puzzles are made once more with checked arithmetic, in
  which every sum, difference, product, absolute value and conversion answers
  `none` when its exact result does not fit:

      Checked.queens? n      = some (queens n)
      Checked.langford? k n  = some (langford k n)

  and so for each step on the way.  An argument that passes the one test keeps
  all other quantities in bounds.

  Main result: `puzzles_compute_exactly`.
-/
import Mathlib.Algebra.BigOperators.Intervals
import ConstraintNet.Proofs.Puzzle.Langford
import ConstraintNet.Proofs.Puzzle.SimpleNetworks

namespace ConstraintNet

/-! ## §1. Arithmetic that stops at an overflow. -/

/-- The sum, when it is a value. -/
def Value.add? (v w : Value) : Option Value := ofInt? (v.toInt + w.toInt)

/-- The difference, when it is a value. -/
def Value.sub? (v w : Value) : Option Value := ofInt? (v.toInt - w.toInt)

/-- The absolute value, when it is a value. -/
def Value.abs? (v : Value) : Option Value := ofInt? v.toInt.natAbs

namespace Checked

/-- The number, when it is a size. -/
def size? (n : Nat) : Option Nat := if n < 2 ^ 64 then some n else none

/-- The sum of two sizes. -/
def add? (a b : Nat) : Option Nat := size? (a + b)

/-- The product of two sizes. -/
def mul? (a b : Nat) : Option Nat := size? (a * b)

/-- The difference of two sizes, when it is not below zero. -/
def sub? (a b : Nat) : Option Nat := if b ≤ a then some (a - b) else none

/-- The size as a value, when it is one. -/
def value? (n : Nat) : Option Value := Value.ofInt? (n : Int)

open Puzzle

/-! ## §2. Queens. -/

/-- The number of constraints for which `n` rows need room: one per pair of them. -/
def room? (n : Nat) : Option Nat := do
  let before ← sub? n 1
  let ordered ← mul? n before
  return ordered / 2

/-- The test on two columns; columns that are equal are not subtracted. -/
def columnsApart? (distance col₁ col₂ : Value) : Option Bool :=
  if col₁ = col₂ then some false
  else do
    let difference ← col₁.sub? col₂
    let absolute ← difference.abs?
    return absolute ≠ distance

/-- The pairs over two lists of values for which a test holds, if it has an answer for all of
them. -/
def pairsWhere? (firstValues secondValues : List Value) (allowed? : Value → Value → Option Bool) :
    Option (List (Value × Value)) :=
  if firstValues.all fun a => secondValues.all fun b => (allowed? a b).isSome then
    some (Constraint.pairsWhere firstValues secondValues fun a b => (allowed? a b).getD false)
  else none

/-- The constraint between two rows. -/
def rowsApart? (last : Value) (row₁ row₂ : Nat) : Option Constraint := do
  let rows ← sub? row₂ row₁
  let distance ← value? rows
  let pairs ← pairsWhere? (Value.range 0 last) (Value.range 0 last) (columnsApart? distance)
  return Constraint.ofTuples row₁ row₂ pairs

/-- The constraints between a row and those after it. -/
def rowsAfter? (n : Nat) (last : Value) (row₁ : Nat) : Option (List Constraint) := do
  let next ← add? row₁ 1
  (List.range' next (n - next)).mapM (rowsApart? last row₁)

/-- The puzzle of `n` queens, if it is made without an overflow. -/
def queens? (n : Nat) : Option (Except PuzzleError Network) :=
  if n = 0 then some (.error (.argument .noRows))
  else do
    let greatest ← sub? n 1
    match value? greatest with
    | none => return .error (.argument (.tooManyRows n))
    | some last =>
      -- the room is asked for before there is a constraint to put into it
      let count ← room? n
      if Reservable count then
        let constraints ← (List.range n).mapM (rowsAfter? n last)
        return puzzleNetwork (List.replicate n ⟨0, last⟩) constraints.flatten
      else return .error .noRoom

/-! ## §3. Langford arrangements. -/

/-- The variable of a copy. -/
def copyOf? (k number copy : Nat) : Option VariableId := do
  let before ← sub? number 1
  let first ← mul? before k
  add? first copy

/-- The distance of two successive copies. -/
def copyDistance? (number : Nat) : Option Value := do
  let value ← value? number
  value.add? 1

/-- The positions of two successive copies. -/
def spacedPairs? (length : Value) (number : Nat) : Option (List (Value × Value)) := do
  let distance ← copyDistance? number
  let last ← length.sub? distance
  (Value.range 1 last).mapM fun position => do
    let next ← position.add? distance
    return (position, next)

/-- The constraint between a copy and the next one of its number, which the last copy does not
have. -/
def nextCopy? (k : Nat) (length : Value) (number copy : Nat) (var : VariableId) :
    Option (List Constraint) := do
  let last ← sub? k 1
  if copy < last then
    let next ← add? var 1
    let pairs ← spacedPairs? length number
    return [Constraint.ofTuples var next pairs]
  else return []

/-- The constraints of one copy. -/
def copyConstraints? (k n : Nat) (length : Value) (number copy : Nat) :
    Option (List Constraint) := do
  let var ← copyOf? k number copy
  let next ← nextCopy? k length number copy var
  let first ← mul? number k
  let stop ← mul? k n
  return next ++ (List.range' first (stop - first)).map (onDifferentPositions length var)

/-- The puzzle L(k, n), if it is made without an overflow. -/
def langford? (k n : Nat) : Option (Except PuzzleError Network) :=
  if k < 2 then some (.error (.argument (.tooFewCopies k)))
  else if n = 0 then some (.error (.argument .noNumbers))
  else
    -- this product may overflow, and the arguments are refused then; the later ones may not
    match (mul? k n).bind value? with
    | none => some (.error (.argument (.tooLong k n)))
    | some length => do
      let constraints ← (List.range' 1 n).mapM fun number =>
        (List.range k).mapM (copyConstraints? k n length number)
      let count ← mul? k n
      return puzzleNetwork (List.replicate count ⟨1, length⟩) constraints.flatten.flatten

/-! ## §4. Results that fit. -/

section Fits

variable {a b n : Nat} {v w : Value}

theorem size?_eq (h : n < 2 ^ 64) : size? n = some n := if_pos h

theorem add?_eq (h : a + b < 2 ^ 64) : add? a b = some (a + b) := size?_eq h

theorem mul?_eq (h : a * b < 2 ^ 64) : mul? a b = some (a * b) := size?_eq h

theorem sub?_eq (h : b ≤ a) : sub? a b = some (a - b) := if_pos h

/-- A size of 31 bits is a value. -/
theorem value?_eq (h : n ≤ 2147483647) : value? n = some (Int32.ofNat n) :=
  Value.ofInt?_eq_some_iff.2 (Value.toInt_ofNat_of_fits h)

/-- The sum of two values is checked by the sum of their integers. -/
theorem value_add?_eq (hlow : -2147483648 ≤ v.toInt + w.toInt)
    (hhigh : v.toInt + w.toInt ≤ 2147483647) : v.add? w = some (v + w) :=
  Value.ofInt?_eq_some_iff.2 (Value.toInt_add_of_fits hlow hhigh)

/-- The difference is checked by the difference of their integers. -/
theorem value_sub?_eq (hlow : -2147483648 ≤ v.toInt - w.toInt)
    (hhigh : v.toInt - w.toInt ≤ 2147483647) : v.sub? w = some (v - w) :=
  Value.ofInt?_eq_some_iff.2 (Value.toInt_sub_of_fits hlow hhigh)

/-- Every value but the smallest one has an absolute value. -/
theorem value_abs?_eq (hlow : -2147483647 ≤ v.toInt) : v.abs? = some v.abs :=
  Value.ofInt?_eq_some_iff.2 (Value.toInt_abs_of_fits hlow)

end Fits

/-- A test with an answer for every pair selects the pairs that the plain test selects. -/
theorem pairsWhere?_eq {firstValues secondValues : List Value}
    {allowed? : Value → Value → Option Bool} {allowed : Value → Value → Bool}
    (h : ∀ a ∈ firstValues, ∀ b ∈ secondValues, allowed? a b = some (allowed a b)) :
    pairsWhere? firstValues secondValues allowed? =
      some (Constraint.pairsWhere firstValues secondValues allowed) := by
  have hall : (firstValues.all fun a =>
      secondValues.all fun b => (allowed? a b).isSome) = true := by
    simp only [List.all_eq_true]
    intro a ha b hb
    rw [h a ha b hb]
    rfl
  unfold pairsWhere? Constraint.pairsWhere
  rw [if_pos hall]
  refine congrArg some (List.flatMap_congr fun a ha => ?_)
  refine congrArg _ (List.filter_congr fun b hb => ?_)
  show (allowed? a b).getD false = allowed a b
  rw [h a ha b hb]
  rfl

/-! ## §5. No overflow among the queens. -/

/-- The products are those of numbers that 32 bits hold. -/
theorem room?_eq {n : Nat} (hpos : 1 ≤ n) (hfits : n - 1 ≤ 2147483647) :
    room? n = some (n * (n - 1) / 2) := by
  have hproduct : n * (n - 1) < 2 ^ 64 := by
    have hle : n * (n - 1) ≤ 2147483648 * 2147483647 := Nat.mul_le_mul (by omega) hfits
    omega
  simp only [room?, sub?_eq hpos, mul?_eq hproduct, Option.bind_eq_bind, Option.bind_some]
  rfl

/-- Two columns of the board are less than a board apart. -/
theorem columnsApart?_eq {distance col₁ col₂ : Value} (hcol₁ : 0 ≤ col₁.toInt)
    (hcol₂ : 0 ≤ col₂.toInt) :
    columnsApart? distance col₁ col₂ = some (columnsApart distance col₁ col₂) := by
  have hmax₁ := (Value.toInt_bounds col₁).2
  have hmax₂ := (Value.toInt_bounds col₂).2
  have hdifference : (col₁ - col₂).toInt = col₁.toInt - col₂.toInt :=
    Value.toInt_sub_of_fits (by omega) (by omega)
  have hsub : col₁.sub? col₂ = some (col₁ - col₂) := value_sub?_eq (by omega) (by omega)
  have habs : (col₁ - col₂).abs? = some (col₁ - col₂).abs := value_abs?_eq (by omega)
  unfold columnsApart? columnsApart
  by_cases heq : col₁ = col₂
  · rw [if_pos heq, decide_eq_false (not_not_intro heq)]
    rfl
  · rw [if_neg heq, decide_eq_true heq]
    simp only [hsub, habs, Option.bind_eq_bind, Option.bind_some]
    rfl

section Rows

variable {n : Nat} {last : Value}

/-- The distance of two rows of the board is a value, and so are all differences of columns. -/
theorem rowsApart?_eq (hfits : n - 1 ≤ 2147483647) {row₁ row₂ : Nat} (hlt : row₁ < row₂)
    (hrow₂ : row₂ < n) : rowsApart? last row₁ row₂ = some (rowsApart last row₁ row₂) := by
  have hdistance : value? (row₂ - row₁) = some (Int32.ofNat (row₂ - row₁)) :=
    value?_eq (by omega)
  have hpairs : pairsWhere? (Value.range 0 last) (Value.range 0 last)
      (columnsApart? (Int32.ofNat (row₂ - row₁))) =
      some (Constraint.pairsWhere (Value.range 0 last) (Value.range 0 last)
        (columnsApart (Int32.ofNat (row₂ - row₁)))) := by
    refine pairsWhere?_eq fun col₁ hcol₁ col₂ hcol₂ => columnsApart?_eq ?_ ?_
    · exact Int32.le_iff_toInt_le.1 (Value.mem_range.1 hcol₁).1
    · exact Int32.le_iff_toInt_le.1 (Value.mem_range.1 hcol₂).1
  simp only [rowsApart?, sub?_eq (Nat.le_of_lt hlt), hdistance, hpairs, Option.bind_eq_bind,
    Option.bind_some]
  rfl

/-- So the constraints between a row and those after it are made without an overflow. -/
theorem rowsAfter?_eq (hfits : n - 1 ≤ 2147483647) {row₁ : Nat} (hrow₁ : row₁ < n) :
    rowsAfter? n last row₁ =
      some ((List.range' (row₁ + 1) (n - (row₁ + 1))).map (rowsApart last row₁)) := by
  have hnext : add? row₁ 1 = some (row₁ + 1) := add?_eq (by omega)
  simp only [rowsAfter?, hnext, Option.bind_eq_bind, Option.bind_some]
  refine mapM_eq_pure fun row₂ hrow₂ => ?_
  rw [List.mem_range'_1] at hrow₂
  exact rowsApart?_eq hfits (by omega) (by omega)

/-- The rows of the board, each with those after it, are its pairs of rows. -/
theorem flatten_rowsAfter (n : Nat) (last : Value) :
    ((List.range n).map fun row₁ =>
      (List.range' (row₁ + 1) (n - (row₁ + 1))).map (rowsApart last row₁)).flatten =
      queensConstraints n last := by
  unfold queensConstraints pairsBelow
  rw [List.map_flatMap, List.flatMap_def]
  simp only [List.map_map]
  rfl

end Rows

/-- **Queens are placed without an overflow**, or refused. -/
theorem queens?_eq (n : Nat) : queens? n = some (queens n) := by
  unfold queens? queens
  by_cases hzero : n = 0
  · rw [if_pos hzero, if_pos hzero]
  · rw [if_neg hzero, if_neg hzero]
    have hbefore : sub? n 1 = some (n - 1) := sub?_eq (by omega)
    simp only [hbefore, Option.bind_eq_bind, Option.bind_some]
    by_cases hfits : n - 1 ≤ 2147483647
    · have hvalue : value? (n - 1) = some (Int32.ofNat (n - 1)) := value?_eq hfits
      have hlast : Value.ofInt? ((n - 1 : Nat) : Int) = some (Int32.ofNat (n - 1)) := hvalue
      have hrows : (List.range n).mapM (rowsAfter? n (Int32.ofNat (n - 1))) = some _ :=
        mapM_eq_pure fun row₁ hrow₁ => rowsAfter?_eq hfits (List.mem_range.1 hrow₁)
      simp only [hvalue, hlast, room?_eq (by omega) hfits, hrows, Option.bind_some]
      split
      next =>
        rw [flatten_rowsAfter]
        rfl
      next => rfl
    · have hnone : Value.ofInt? ((n - 1 : Nat) : Int) = none := Value.ofInt?_natCast_eq_none hfits
      have hvalue : value? (n - 1) = none := hnone
      rw [hvalue, hnone]
      rfl

/-! ## §6. No overflow among the copies. -/

section Copies

variable {k n number copy : Nat} {length : Value}

/-- A copy is one of the `k * n` variables, and so is the beginning of its block. -/
theorem copyOf?_eq (hfits : k * n ≤ 2147483647) (hpos : 1 ≤ number) (hnumber : number ≤ n)
    (hcopy : copy < k) : copyOf? k number copy = some (copyOf k number copy) := by
  have hvar : (number - 1) * k + copy < number * k := copy_lt_block hpos hcopy
  have hblock : number * k ≤ k * n := block_le_size hnumber
  have hfirst : mul? (number - 1) k = some ((number - 1) * k) := mul?_eq (by omega)
  have hsum : add? ((number - 1) * k) copy = some ((number - 1) * k + copy) := add?_eq (by omega)
  simp only [copyOf?, sub?_eq hpos, hfirst, hsum, Option.bind_eq_bind, Option.bind_some]
  rfl

/-- The distance of two copies is a value when the number behind the next one is. -/
theorem copyDistance?_eq (h : number + 1 ≤ 2147483647) :
    copyDistance? number = some (copyDistance number) := by
  have hvalue : (Int32.ofNat number).toInt = number := Value.toInt_ofNat_of_fits (by omega)
  have hone : (1 : Value).toInt = 1 := rfl
  have hsum : Value.add? (Int32.ofNat number) 1 = some (Int32.ofNat number + 1) :=
    value_add?_eq (by omega) (by omega)
  have hnumber : value? number = some (Int32.ofNat number) := value?_eq (by omega)
  simp only [copyDistance?, hnumber, hsum, Option.bind_eq_bind, Option.bind_some]
  rfl

/-- In a row with room for two copies the first one is not before the row, nor the second one
behind it. -/
theorem spacedPairs?_eq (h : (number : Int) + 1 ≤ length.toInt) :
    spacedPairs? length number = some (spacedPairs length number) := by
  have hmax := (Value.toInt_bounds length).2
  have hdistance : (copyDistance number).toInt = number + 1 := toInt_copyDistance (by omega)
  have hlast : (length - copyDistance number).toInt = length.toInt - (number + 1) :=
    toInt_sub_copyDistance h
  have hsub : length.sub? (copyDistance number) = some (length - copyDistance number) :=
    value_sub?_eq (by omega) (by omega)
  have hcopyDistance : copyDistance? number = some (copyDistance number) :=
    copyDistance?_eq (by omega)
  simp only [spacedPairs?, hcopyDistance, hsub, Option.bind_eq_bind, Option.bind_some]
  refine mapM_eq_pure fun position hposition => ?_
  obtain ⟨hfirst, hbefore⟩ := Value.mem_range.1 hposition
  rw [Int32.le_iff_toInt_le] at hfirst hbefore
  have hone : (1 : Value).toInt = 1 := rfl
  have hnext : position.add? (copyDistance number) = some (position + copyDistance number) :=
    value_add?_eq (by omega) (by omega)
  rw [hnext]
  rfl

/-- All sizes on the way are at most those of the row, so nothing overflows for a copy. -/
theorem copyConstraints?_eq (hk : 2 ≤ k) (hfits : k * n ≤ 2147483647)
    (hlength : length.toInt = ((k * n : Nat) : Int)) (hpos : 1 ≤ number) (hnumber : number ≤ n)
    (hcopy : copy < k) :
    copyConstraints? k n length number copy = some (copyConstraints k n length number copy) := by
  -- everything is at most the number of positions
  have hvar : (number - 1) * k + copy < number * k := copy_lt_block hpos hcopy
  have hblock : number * k ≤ k * n := block_le_size hnumber
  have hcopyOf : copyOf? k number copy = some (copyOf k number copy) :=
    copyOf?_eq hfits hpos hnumber hcopy
  have hnext : nextCopy? k length number copy (copyOf k number copy) =
      some (if copy < k - 1 then
        [Constraint.ofTuples (copyOf k number copy) (copyOf k number copy + 1)
          (spacedPairs length number)] else []) := by
    have hone : sub? k 1 = some (k - 1) := sub?_eq (by omega)
    have hvarNext : add? (copyOf k number copy) 1 = some (copyOf k number copy + 1) := by
      unfold copyOf
      exact add?_eq (by omega)
    have hpairs : spacedPairs? length number = some (spacedPairs length number) :=
      spacedPairs?_eq (distance_le_length hk hlength hpos hnumber)
    simp only [nextCopy?, hone, hvarNext, hpairs, Option.bind_eq_bind, Option.bind_some]
    split
    next => rfl
    next => rfl
  have hfirst : mul? number k = some (number * k) := mul?_eq (by omega)
  have hstop : mul? k n = some (k * n) := mul?_eq (by omega)
  simp only [copyConstraints?, hcopyOf, hnext, hfirst, hstop, Option.bind_eq_bind,
    Option.bind_some]
  rfl

end Copies

/-- A product that is a value is a size. -/
theorem mul?_bind_value? (k n : Nat) :
    (mul? k n).bind value? = Value.ofInt? ((k * n : Nat) : Int) := by
  by_cases hfits : k * n ≤ 2147483647
  · rw [mul?_eq (by omega)]
    rfl
  · rw [Value.ofInt?_natCast_eq_none hfits]
    unfold mul? size?
    split
    next => exact Value.ofInt?_natCast_eq_none hfits
    next => rfl

/-- The copies of each number in turn are all copies. -/
theorem flatten_copyConstraints (k n : Nat) (length : Value) :
    ((List.range' 1 n).map fun number =>
      (List.range k).map (copyConstraints k n length number)).flatten.flatten =
      langfordConstraints k n length := by
  unfold langfordConstraints
  rw [List.flatten_flatten, List.map_map, List.flatMap_def]
  refine congrArg List.flatten (List.map_congr_left fun number _ => ?_)
  exact List.flatMap_def.symm

/-- **Copies are arranged without an overflow**, or refused. -/
theorem langford?_eq (k n : Nat) : langford? k n = some (langford k n) := by
  unfold langford? langford
  by_cases hk : k < 2
  · rw [if_pos hk, if_pos hk]
  by_cases hn : n = 0
  · rw [if_neg hk, if_neg hk, if_pos hn, if_pos hn]
  rw [if_neg hk, if_neg hk, if_neg hn, if_neg hn, mul?_bind_value?]
  by_cases hfits : k * n ≤ 2147483647
  · obtain ⟨length, hofInt, hlength⟩ := Value.exists_ofInt?_natCast hfits
    have hcount : mul? k n = some (k * n) := mul?_eq (by omega)
    -- the turns of the outer loop, and in each of them those of the inner one
    have hcopies : ((List.range' 1 n).mapM fun number =>
        (List.range k).mapM (copyConstraints? k n length number)) = some _ :=
      mapM_eq_pure fun number hnumber => mapM_eq_pure fun copy hcopy => by
        rw [List.mem_range'_1] at hnumber
        exact copyConstraints?_eq (by omega) hfits hlength (by omega) (by omega)
          (List.mem_range.1 hcopy)
    simp only [hofInt, hcopies, hcount, Option.bind_eq_bind, Option.bind_some]
    rw [flatten_copyConstraints]
    rfl
  · rw [Value.ofInt?_natCast_eq_none hfits]

end Checked

namespace Puzzle

/-! ## §7. Puzzles of any size. -/

/-- Of `n` rows in order, half of the choices of one and another are pairs from above to below. -/
theorem length_pairsBelow (n : Nat) : (pairsBelow n).length = n * (n - 1) / 2 := by
  have hrows : (pairsBelow n).length = ∑ row ∈ Finset.range n, (n - 1 - row) := by
    unfold pairsBelow
    rw [List.length_flatMap]
    simp only [List.length_map, List.length_range']
    -- a sum over the rows is a sum over their list
    show ((List.range n).map fun row => n - (row + 1)).sum =
      ((List.range n).map fun row => n - 1 - row).sum
    refine congrArg List.sum (List.map_congr_left fun row _ => ?_)
    omega
  have hsum := Finset.sum_range_id_mul_two n
  rw [hrows, Finset.sum_range_reflect (fun row => row)]
  omega

/-- Where the row has room for two copies of a number, their distance is a value, and the first one
is not before the row, nor the second one behind it. -/
theorem spacedPairs_within_row {number : Nat} {length : Value}
    (h : (number : Int) + 1 ≤ length.toInt) :
    (copyDistance number).toInt = number + 1 ∧ 0 ≤ (length - copyDistance number).toInt ∧
      ∀ p q, (p, q) ∈ spacedPairs length number →
        q.toInt = p.toInt + number + 1 ∧ q ≤ length := by
  have hmax := (Value.toInt_bounds length).2
  refine ⟨toInt_copyDistance (by omega), ?_, ?_⟩
  · rw [toInt_sub_copyDistance h]
    omega
  · intro p q hpair
    obtain ⟨_, hnext, hlast⟩ := (mem_spacedPairs h).1 hpair
    exact ⟨hnext, Int32.le_iff_toInt_le.2 hlast⟩

/-- **Puzzles compute exactly.** Whatever the arguments, checked arithmetic comes to an end and has
the same answer: no sum, difference, product, absolute value or conversion has a result that does
not fit. For queens the arguments are refused, or the number of constraints for which room is asked
is exact, and the network, unless there is no room for it, has as many. For copies the arguments are
refused or there is a network: in a row, the distance of two copies of a number is a value, the last
position that it leaves for the first copy is not negative, and the second copy stands nowhere
behind the row. -/
theorem puzzles_compute_exactly :
    (∀ n, Checked.queens? n = some (queens n) ∧
      ((∃ cause, queens n = .error (.argument cause)) ∨
        Checked.room? n = some (n * (n - 1) / 2) ∧
          (¬ Reservable (n * (n - 1) / 2) ∧ queens n = .error .noRoom ∨
            ∃ net, queens n = .ok net ∧ net.constraints.size = n * (n - 1) / 2))) ∧
    (∀ k n, Checked.langford? k n = some (langford k n) ∧
      ((∃ cause, langford k n = .error (.argument cause)) ∨
        ∃ net length, langford k n = .ok net ∧ length.toInt = ((k * n : Nat) : Int) ∧
          ∀ number, 1 ≤ number → number ≤ n →
            (copyDistance number).toInt = number + 1 ∧
            0 ≤ (length - copyDistance number).toInt ∧
            ∀ p q, (p, q) ∈ spacedPairs length number →
              q.toInt = p.toInt + number + 1 ∧ q ≤ length)) := by
  constructor
  · intro n
    refine ⟨Checked.queens?_eq n, ?_⟩
    by_cases hargument : 1 ≤ n ∧ n - 1 ≤ 2147483647
    · right
      obtain ⟨hpos, hfits⟩ := hargument
      refine ⟨Checked.room?_eq hpos hfits, ?_⟩
      by_cases hroom : Reservable (n * (n - 1) / 2)
      · right
        obtain ⟨net, last, hnet, _, _, hconstraints⟩ := exists_queensNetwork hpos hfits hroom
        refine ⟨net, hnet, ?_⟩
        -- there is one constraint for each pair of rows
        rw [← length_pairsBelow, ← Array.length_toList, hconstraints, List.length_map]
      · exact Or.inl ⟨hroom, queens_noRoom hpos hfits hroom⟩
    · exact Or.inl (queens_refused hargument)
  · intro k n
    refine ⟨Checked.langford?_eq k n, ?_⟩
    by_cases hargument : 2 ≤ k ∧ 1 ≤ n ∧ k * n ≤ 2147483647
    · right
      obtain ⟨hk, hn, hfits⟩ := hargument
      obtain ⟨net, length, hnet, hlength, _⟩ := exists_langfordNetwork hk hn hfits
      refine ⟨net, length, hnet, hlength, fun number hpos hnumber => ?_⟩
      -- with two copies or more, the row has room for the distance
      exact spacedPairs_within_row (distance_le_length hk hlength hpos hnumber)
    · exact Or.inl (langford_refused hargument)

/-- The longest row of pairs has 2147483646 positions, and the first copy of its largest number
stands in the first half. -/
theorem longest_row_computes_exactly :
    (1 ≤ 1073741823 ∧ 1073741823 ≤ 1073741823) ∧
    ∃ net length, langford 2 1073741823 = .ok net ∧ length.toInt = 2147483646 ∧
      0 ≤ (length - copyDistance 1073741823).toInt ∧
      (1073741822, 2147483646) ∈ spacedPairs length 1073741823 ∧ 2147483646 ≤ length := by
  have hnumber : 1 ≤ 1073741823 ∧ 1073741823 ≤ 1073741823 := by decide
  rcases (puzzles_compute_exactly.2 2 1073741823).2 with hrefused | hmade
  · have hfits : 2 * 1073741823 ≤ 2147483647 := by decide
    obtain ⟨net, _, hnet, _⟩ := exists_langfordNetwork (Nat.le_refl 2) hnumber.1 hfits
    obtain ⟨cause, hcause⟩ := hrefused
    rw [hcause] at hnet
    cases hnet
  · obtain ⟨net, length, hnet, hlength, hnumbers⟩ := hmade
    have hlength : length.toInt = 2147483646 := hlength
    obtain ⟨_, hlast, hpairs⟩ := hnumbers 1073741823 hnumber.1 hnumber.2
    have hpair : (1073741822, 2147483646) ∈ spacedPairs length 1073741823 := by
      refine (mem_spacedPairs (by omega)).2 ?_
      rw [hlength]
      decide
    exact ⟨hnumber, net, length, hnet, hlength, hlast, hpair, (hpairs _ _ hpair).2⟩

end Puzzle

end ConstraintNet
