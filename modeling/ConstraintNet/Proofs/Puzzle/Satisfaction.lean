/-
  ConstraintNet.Proofs.Puzzle.Satisfaction
  ────────────────────────────────────────
  **WHAT THE NETWORK OF A PUZZLE ASKS OF AN ASSIGNMENT.**

  The networks of puzzles are all of one kind: a constraint comes from a
  predicate, and both of its variables take their values from one range.  So
  of an assignment that keeps to that range (`WithinRange`), a constraint asks
  its predicate and nothing else:

      exists_puzzleNetwork                 — well-formed lists make a network
      isSatisfiedBy_puzzle_iff             — length, ranges, each constraint
      WithinRange.satisfies_predicate_iff  — one constraint

  The predicates calculate in 32 bits.  `Value.toInt_add_of_fits` and its
  companions say when that is the arithmetic of the integers.
-/
import Mathlib.Data.List.Nodup
import Mathlib.Data.List.Perm.Subperm
import ConstraintNet.Proofs.AllowedPairs
import ConstraintNet.Proofs.Description
import ConstraintNet.Puzzle.Queens

namespace ConstraintNet

/-! ## §1. Arithmetic that stays within 32 bits. -/

namespace Value

/-- A sum that fits is the sum of the integers. -/
theorem toInt_add_of_fits {v w : Value} (hlow : -2147483648 ≤ v.toInt + w.toInt)
    (hhigh : v.toInt + w.toInt ≤ 2147483647) : (v + w).toInt = v.toInt + w.toInt := by
  rw [Int32.toInt_add]
  apply Int.bmod_eq_of_le <;> omega

/-- A difference that fits is the difference of the integers. -/
theorem toInt_sub_of_fits {v w : Value} (hlow : -2147483648 ≤ v.toInt - w.toInt)
    (hhigh : v.toInt - w.toInt ≤ 2147483647) : (v - w).toInt = v.toInt - w.toInt := by
  rw [Int32.toInt_sub]
  apply Int.bmod_eq_of_le <;> omega

/-- Every value but the smallest has the absolute value of its integer. -/
theorem toInt_abs_of_fits {v : Value} (hlow : -2147483647 ≤ v.toInt) :
    v.abs.toInt = v.toInt.natAbs := by
  show v.toBitVec.abs.toInt = v.toBitVec.toInt.natAbs
  rw [BitVec.toInt_abs_eq_natAbs]
  apply if_neg
  -- only the smallest value has no counterpart
  intro hmin
  have hv : v.toInt = (BitVec.intMin 32).toInt := congrArg BitVec.toInt hmin
  rw [show (BitVec.intMin 32).toInt = -2147483648 by decide] at hv
  omega

theorem toInt_ofNat_of_fits {m : Nat} (h : m ≤ 2147483647) : (Int32.ofNat m).toInt = m :=
  Int32.toInt_ofNat_of_lt (by omega)

/-- A natural number is a value when 31 bits hold it. -/
theorem exists_ofInt?_natCast {m : Nat} (h : m ≤ 2147483647) :
    ∃ v, ofInt? (m : Int) = some v ∧ v.toInt = m := by
  have hv := toInt_ofNat_of_fits h
  exact ⟨Int32.ofNat m, ofInt?_eq_some_iff.2 hv, hv⟩

theorem ofInt?_natCast_eq_none {m : Nat} (h : ¬ m ≤ 2147483647) : ofInt? (m : Int) = none := by
  unfold ofInt?
  exact if_neg fun hfits => h (by omega)

end Value

/-! ## §2. Assignments and accepted puzzles. -/

/-- Well-formed lists make a network that has them. -/
theorem exists_puzzleNetwork {bounds : List Bounds} {constraints : List Constraint}
    (h : WellFormed bounds constraints) :
    ∃ net, puzzleNetwork bounds constraints = .ok net ∧ net.bounds.toList = bounds ∧
      net.constraints.toList = constraints := by
  obtain ⟨net, hnet⟩ := Network.exists_build?_of_wellFormed h
  have hlists := (Network.of_build?_eq_ok hnet).2
  refine ⟨net, ?_, hlists⟩
  unfold puzzleNetwork
  rw [hnet]

/-- An assignment satisfies the network of two lists when it has one value per range, each in its
range, and satisfies every constraint. -/
theorem isSatisfiedBy_puzzle_iff {net : Network} {bounds : List Bounds}
    {constraints : List Constraint} (hbounds : net.bounds.toList = bounds)
    (hconstraints : net.constraints.toList = constraints) (assignment : List Value) :
    net.isSatisfiedBy assignment = true ↔ assignment.length = bounds.length ∧
      (∀ (x : VariableId) (b : Bounds) (v : Value), bounds[x]? = some b → assignment[x]? = some v →
        b.lower ≤ v ∧ v ≤ b.upper) ∧
      ∀ c ∈ constraints, c.isSatisfiedBy assignment = true := by
  subst hbounds hconstraints
  unfold Network.isSatisfiedBy
  rw [Bool.and_eq_true, Bool.and_eq_true, beq_iff_eq, List.isEmpty_iff,
    Network.violatedConstraints_eq_nil_iff, Network.all_in_bounds_iff, and_assoc]
  exact Iff.rfl

/-- The list has `count` values, all between `lower` and `upper`. -/
structure WithinRange (lower upper : Value) (count : Nat) (assignment : List Value) : Prop where
  length_eq : assignment.length = count
  between : ∀ v ∈ assignment, lower ≤ v ∧ v ≤ upper

namespace WithinRange

variable {lower upper : Value} {count : Nat} {assignment : List Value}

/-- A variable of such an assignment has a value in the range. -/
theorem exists_value (h : WithinRange lower upper count assignment) {x : VariableId}
    (hx : x < count) : ∃ v, assignment[x]? = some v ∧ lower ≤ v ∧ v ≤ upper := by
  have hlt : x < assignment.length := by rw [h.length_eq]; exact hx
  have hget : assignment[x]? = some assignment[x] := List.getElem?_eq_getElem hlt
  exact ⟨_, hget, h.between _ (List.mem_of_getElem? hget)⟩

/-- A constraint asks of a list with both values that their pair is one of its own. -/
theorem satisfies_iff (h : WithinRange lower upper count assignment) {x y : VariableId}
    (hx : x < count) (hy : y < count) (pairs : List (Value × Value)) :
    (Constraint.ofTuples x y pairs).isSatisfiedBy assignment = true ↔
      ∀ v w, assignment[x]? = some v → assignment[y]? = some w → (v, w) ∈ pairs := by
  rw [(Constraint.represents_ofTuples x y pairs).satisfied_iff]
  constructor
  · intro hpair v w hv hw
    obtain ⟨v', w', hv', hw', hmem⟩ := hpair
    obtain rfl := Option.some.inj (hv.symm.trans hv')
    obtain rfl := Option.some.inj (hw.symm.trans hw')
    exact hmem
  · intro hall
    obtain ⟨v, hv, _⟩ := h.exists_value hx
    obtain ⟨w, hw, _⟩ := h.exists_value hy
    exact ⟨v, w, hv, hw, hall v w hv hw⟩

/-- **Only the predicate is left to ask** of values that are in range. -/
theorem satisfies_predicate_iff (h : WithinRange lower upper count assignment) {x y : VariableId}
    (hx : x < count) (hy : y < count) (allowed : Value → Value → Bool) :
    (Constraint.ofPredicate x y (Value.range lower upper) (Value.range lower upper)
      allowed).isSatisfiedBy assignment = true ↔
      ∀ v w, assignment[x]? = some v → assignment[y]? = some w → allowed v w = true := by
  refine (h.satisfies_iff hx hy _).trans (forall₄_congr fun v w hv hw => ?_)
  have hvrange := Value.mem_range.2 (h.between v (List.mem_of_getElem? hv))
  have hwrange := Value.mem_range.2 (h.between w (List.mem_of_getElem? hw))
  rw [Constraint.mem_pairsWhere]
  exact ⟨fun hmem => hmem.2.2, fun hallowed => ⟨hvrange, hwrange, hallowed⟩⟩

/-- Ranges that are all the same ask for a list within that range. -/
theorem of_replicate_iff : WithinRange lower upper count assignment ↔
    assignment.length = (List.replicate count (⟨lower, upper⟩ : Bounds)).length ∧
      ∀ (x : VariableId) (b : Bounds) (v : Value),
        (List.replicate count (⟨lower, upper⟩ : Bounds))[x]? = some b → assignment[x]? = some v →
          b.lower ≤ v ∧ v ≤ b.upper := by
  rw [List.length_replicate]
  constructor
  · intro h
    refine ⟨h.length_eq, fun x b v hb hv => ?_⟩
    obtain rfl := List.eq_of_mem_replicate (List.mem_of_getElem? hb)
    exact h.between v (List.mem_of_getElem? hv)
  · intro h
    obtain ⟨hlength, hbetween⟩ := h
    refine ⟨hlength, fun v hv => ?_⟩
    obtain ⟨x, hx, rfl⟩ := List.mem_iff_getElem.1 hv
    have hb : (List.replicate count (⟨lower, upper⟩ : Bounds))[x]? = some ⟨lower, upper⟩ :=
      List.getElem?_replicate_of_lt (by omega)
    exact hbetween x _ _ hb (List.getElem?_eq_getElem hx)

end WithinRange

/-- The network of a puzzle whose variables share one range. -/
theorem exists_uniformNetwork {count : Nat} {lower upper : Value} {constraints : List Constraint}
    (hrange : lower ≤ upper) (hends : ∀ c ∈ constraints, c.Fits count) :
    ∃ net, puzzleNetwork (List.replicate count ⟨lower, upper⟩) constraints = .ok net ∧
      net.bounds.toList = List.replicate count ⟨lower, upper⟩ ∧
      net.constraints.toList = constraints := by
  refine exists_puzzleNetwork ⟨fun b hb => ?_, fun c hc => ?_⟩
  · rw [List.eq_of_mem_replicate hb]
    exact hrange
  · rw [List.length_replicate]
    exact hends c hc

/-- **What such a network asks**: the range of every value, and each of the constraints. -/
theorem isSatisfiedBy_uniform_iff {net : Network} {count : Nat} {lower upper : Value}
    {constraints : List Constraint}
    (hbounds : net.bounds.toList = List.replicate count ⟨lower, upper⟩)
    (hconstraints : net.constraints.toList = constraints) (assignment : List Value) :
    net.isSatisfiedBy assignment = true ↔ WithinRange lower upper count assignment ∧
      ∀ c ∈ constraints, c.isSatisfiedBy assignment = true := by
  rw [isSatisfiedBy_puzzle_iff hbounds hconstraints, WithinRange.of_replicate_iff, and_assoc]

/-! ## §3. Loops without a failure. -/

/-- A loop whose every turn only returns a value returns the list of all values. -/
theorem mapM_eq_pure {m : Type → Type} [Monad m] [LawfulMonad m] {α β : Type} {f : α → m β}
    {g : α → β} {l : List α} (h : ∀ a ∈ l, f a = pure (g a)) : l.mapM f = pure (l.map g) := by
  induction l with
  | nil => exact List.mapM_nil
  | cons a rest ih =>
    obtain ⟨ha, hrest⟩ := List.forall_mem_cons.1 h
    rw [List.mapM_cons, ha, ih hrest, pure_bind, pure_bind, List.map_cons]

/-! ## §4. Lists with every member of another. -/

/-- A list is a rearrangement of a list of the same length without repetition when it repeats
nothing either and goes nowhere else: none of the other's members can be left out. -/
theorem perm_iff_nodup_subset {α : Type} {l target : List α} (htarget : target.Nodup)
    (hlength : l.length = target.length) : l.Perm target ↔ l.Nodup ∧ l ⊆ target := by
  constructor
  · intro h
    exact ⟨h.nodup_iff.2 htarget, h.subset⟩
  · intro h
    exact (h.1.subperm h.2).perm_of_length_le (by omega)

/-- It is enough that it has each member of the other one once. -/
theorem perm_iff_count_eq_one {α : Type} [DecidableEq α] {l target : List α}
    (htarget : target.Nodup) (hlength : l.length = target.length) :
    l.Perm target ↔ ∀ a ∈ target, l.count a = 1 := by
  constructor
  · intro h a ha
    rw [h.count_eq]
    exact List.count_eq_one_of_mem htarget ha
  · intro h
    have hsubset : target ⊆ l := by
      intro a ha
      exact List.count_pos_iff.1 (by have := h a ha; omega)
    exact ((htarget.subperm hsubset).perm_of_length_le (by omega)).symm

/-! ## §5. Pairs of positions. -/

namespace Puzzle

/-- Pairs below a number have their first position before the second one. -/
theorem mem_pairsBelow {n first second : Nat} :
    (first, second) ∈ pairsBelow n ↔ first < second ∧ second < n := by
  simp only [pairsBelow, List.mem_flatMap, List.mem_map, List.mem_range, List.mem_range'_1,
    Prod.mk.injEq]
  constructor
  · intro h
    obtain ⟨i, hi, j, hj, rfl, rfl⟩ := h
    omega
  · intro h
    exact ⟨first, by omega, second, by omega, rfl, rfl⟩

end Puzzle

end ConstraintNet
