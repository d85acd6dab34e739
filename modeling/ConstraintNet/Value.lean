/-
  ConstraintNet.Value
  ───────────────────
  **THE VALUES AND NAMES OF A CONSTRAINT NETWORK.**

  A variable of a network takes 32-bit signed integers as values.  Variables
  and constraints themselves are named by their position, counted from 0.
  An inclusive range of values is listed in ascending order by `Value.range`;
  `Value.mem_range` says exactly which values that list holds and
  `Value.range_pairwise` that it is strictly ascending.
-/

namespace ConstraintNet

/-- A value that a variable can take. -/
abbrev Value := Int32

/-- The position of a variable in its network. -/
abbrev VariableId := Nat

/-- The position of a constraint in its network. -/
abbrev ConstraintId := Nat

namespace Value

/-! ## §1. Integers that are values. -/

/-- The integer as a value, or `none` when it does not fit 32 bits. -/
def ofInt? (i : Int) : Option Value :=
  if -2147483648 ≤ i ∧ i ≤ 2147483647 then some (Int32.ofInt i) else none

/-- A value has 32 bits, with a sign. -/
theorem toInt_bounds (v : Value) : -2147483648 ≤ v.toInt ∧ v.toInt ≤ 2147483647 := by
  have h₁ := v.le_toInt
  have h₂ := v.toInt_le
  simp at h₁ h₂
  exact ⟨h₁, h₂⟩

theorem toInt_ofInt {i : Int} (h₁ : -2147483648 ≤ i) (h₂ : i ≤ 2147483647) :
    (Int32.ofInt i).toInt = i :=
  Int32.toInt_ofInt_of_le (by simpa using h₁) (by omega)

theorem ofInt?_toInt (v : Value) : ofInt? v.toInt = some v := by
  simp [ofInt?, toInt_bounds v]

/-- An integer is the value with that integer. -/
theorem ofInt?_eq_some_iff {i : Int} {v : Value} : ofInt? i = some v ↔ v.toInt = i := by
  constructor
  · intro h
    unfold ofInt? at h
    split at h
    · next hi => injection h with h; rw [← h]; exact toInt_ofInt hi.1 hi.2
    · cases h
  · rintro rfl; exact ofInt?_toInt v

/-! ## §2. Inclusive ranges. -/

/-- The values from `lower` to `upper`, both included, in ascending order; none when
`upper < lower`. -/
def range (lower upper : Value) : List Value :=
  (List.range (upper.toInt + 1 - lower.toInt).toNat).map fun k : Nat =>
    Int32.ofInt (lower.toInt + k)

/-- A range has the values from its lower end to its upper one. -/
theorem mem_range {lower upper v : Value} : v ∈ range lower upper ↔ lower ≤ v ∧ v ≤ upper := by
  have hl := toInt_bounds lower
  have hu := toInt_bounds upper
  simp only [range, List.mem_map, List.mem_range, Int32.le_iff_toInt_le]
  constructor
  -- the k-th listed value lies k above the lower end
  · rintro ⟨k, hk, rfl⟩
    rw [toInt_ofInt (by omega) (by omega)]
    omega
  -- a value between the ends is listed at its distance from the lower one
  · intro h
    refine ⟨(v.toInt - lower.toInt).toNat, by omega, ?_⟩
    rw [show lower.toInt + ((v.toInt - lower.toInt).toNat : Int) = v.toInt by omega]
    exact Int32.ofInt_toInt v

theorem range_pairwise (lower upper : Value) : (range lower upper).Pairwise (· < ·) := by
  have hl := toInt_bounds lower
  have hu := toInt_bounds upper
  unfold range
  refine List.pairwise_map.2 (List.Pairwise.imp_of_mem ?_ List.pairwise_lt_range)
  intro a b ha hb hab
  rw [List.mem_range] at ha hb
  rw [Int32.lt_iff_toInt_lt, toInt_ofInt (by omega) (by omega), toInt_ofInt (by omega) (by omega)]
  omega

end Value

end ConstraintNet
