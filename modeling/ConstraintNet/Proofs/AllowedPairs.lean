/-
  ConstraintNet.Proofs.AllowedPairs
  ─────────────────────────────────
  **THE VIEWS OF A LIST OF ALLOWED PAIRS.**

  A constraint is made from a list of pairs, which may repeat itself.  What it
  keeps are three things: the pairs without repetition, and for each end a
  table from the values there to the values at the other end.  Nobody who
  asks a constraint consults more than one of them, so they have to agree:

      Represents c x y pairs   — whatever `c` keeps and answers is what `pairs`
                                 says about the variables `x` and `y`
      Enumerates P answer      — a table look-up: the values with the
                                 property, ascending, or `none` without any

  Constraints that are made from a predicate list their pairs `RowMajor`, by
  the first value and under it by the second.

  Main result: `Constraint.tables_agree_with_pairs`.
-/
import ConstraintNet.Proofs.Assignment

namespace ConstraintNet

/-! ## §1. The answer of a table. -/

/-- The answer to the question which values have a property: they are listed once each, ascending,
and `none` stands for the empty list. -/
inductive Enumerates (P : Value → Prop) : Option (List Value) → Prop where
  | none (hnobody : ∀ v, ¬ P v) : Enumerates P none
  | some {values : List Value} (hmem : ∀ v, v ∈ values ↔ P v)
      (hascending : values.Pairwise (· < ·)) (hnonempty : values ≠ []) :
      Enumerates P (some values)

/-- An answer is right for every property that holds of the same values. -/
theorem Enumerates.congr {P Q : Value → Prop} {answer : Option (List Value)}
    (h : Enumerates P answer) (hPQ : ∀ v, P v ↔ Q v) : Enumerates Q answer := by
  cases h with
  | none hnobody => exact .none fun v hv => hnobody v ((hPQ v).2 hv)
  | some hmem hascending hnonempty =>
    exact .some (fun v => (hmem v).trans (hPQ v)) hascending hnonempty

namespace SupportTable

/-- Under a value are filed those that stand beside it in the listed pairs. -/
theorem enumerates_sideOf (pairs : List (Value × Value)) (a : Value) :
    Enumerates (fun b => (a, b) ∈ pairs) (sideOf pairs)[a]? := by
  have hmem : ∀ b, b ∈ ((sideOf pairs)[a]?).getD [] ↔ (a, b) ∈ pairs := mem_sideOf pairs a
  rw [getElem?_sideOf] at hmem ⊢
  generalize (pairs.filter fun pair => pair.1 = a).map Prod.snd = values at hmem ⊢
  cases values with
  | nil => exact .none fun b hb => by simpa using (hmem b).2 hb
  | cons v rest =>
    have hv : v ∈ sorted (v :: rest) := mem_sorted.2 List.mem_cons_self
    exact .some hmem (pairwise_sorted _) (List.ne_nil_of_mem hv)

end SupportTable

namespace Constraint

variable {x y : VariableId} {pairs : List (Value × Value)}

/-! ## §2. Constraints from a list of pairs. -/

/-- A constraint keeps the first occurrence of each pair. -/
theorem tuples_ofTuples (x y : VariableId) (pairs : List (Value × Value)) :
    (ofTuples x y pairs).tuples = pairs.eraseDups := by
  show (Grouping.distinct SupportTable.comparePairs pairs).toArray.toList = pairs.eraseDups
  rw [List.toList_toArray, Grouping.distinct_eq_eraseDups]

theorem enumerates_forward (c : Constraint) (a : Value) :
    Enumerates (fun b => (a, b) ∈ c.tuples) c.table.forward[a]? := by
  obtain ⟨pairs, hpairs⟩ := c.reachable
  unfold tuples
  rw [hpairs]
  exact SupportTable.enumerates_sideOf (Grouping.distinct SupportTable.comparePairs pairs) a

theorem enumerates_backward (c : Constraint) (b : Value) :
    Enumerates (fun a => (a, b) ∈ c.tuples) c.table.backward[b]? := by
  obtain ⟨pairs, hpairs⟩ := c.reachable
  unfold tuples
  rw [hpairs]
  -- the table from the second end is made like the other one, with every pair turned
  refine (SupportTable.enumerates_sideOf _ b).congr fun a => ?_
  show (b, a) ∈ (Grouping.distinct SupportTable.comparePairs pairs).map Prod.swap ↔ _
  simp [SupportTable.ofList]

/-- The constraint between `x` and `y` keeps the listed pairs, each where it comes first, and
everything that it is asked it answers by them. A constraint of a variable with itself can only be
asked from its first end. -/
structure Represents (c : Constraint) (x y : VariableId) (pairs : List (Value × Value)) : Prop where
  first_eq : c.first = x
  second_eq : c.second = y
  tuples_eq : c.tuples = pairs.eraseDups
  supports_first : ∀ a, Enumerates (fun b => (a, b) ∈ pairs) (c.supports? x a)
  supports_second : x ≠ y → ∀ b, Enumerates (fun a => (a, b) ∈ pairs) (c.supports? y b)
  supports_elsewhere : ∀ var, var ≠ x → var ≠ y → ∀ v, c.supports? var v = none
  allows_first_iff : ∀ a b, c.allows x a b = true ↔ (a, b) ∈ pairs
  allows_second_iff : x ≠ y → ∀ a b, c.allows y b a = true ↔ (a, b) ∈ pairs
  satisfied_iff : ∀ assignment, c.isSatisfiedBy assignment = true ↔
    ∃ a b, assignment[x]? = some a ∧ assignment[y]? = some b ∧ (a, b) ∈ pairs

/-- **A constraint represents the pairs that it is made of**, in its list and in either table. -/
theorem represents_ofTuples (x y : VariableId) (pairs : List (Value × Value)) :
    (ofTuples x y pairs).Represents x y pairs where
  first_eq := rfl
  second_eq := rfl
  tuples_eq := tuples_ofTuples x y pairs
  supports_first a := by
    have hforward := enumerates_forward (ofTuples x y pairs) a
    simp only [mem_tuples_ofTuples] at hforward
    simpa [supports?, endpoint?, ofTuples] using hforward
  supports_second hne b := by
    have hbackward := enumerates_backward (ofTuples x y pairs) b
    simp only [mem_tuples_ofTuples] at hbackward
    simpa [supports?, endpoint?, ofTuples, Ne.symm hne] using hbackward
  supports_elsewhere var hx hy v := by
    simp [supports?, endpoint?, ofTuples, hx, hy]
  allows_first_iff a b := by
    rw [← mem_tuples_ofTuples x y pairs]
    exact allows_first (ofTuples x y pairs) a b
  allows_second_iff hne a b := by
    rw [← mem_tuples_ofTuples x y pairs]
    exact allows_second (ofTuples x y pairs) hne a b
  satisfied_iff assignment := by
    simp only [Network.isSatisfiedBy_constraint_iff, mem_tuples_ofTuples]
    exact Iff.rfl

/-! ## §3. Constraints from a predicate. -/

/-- The first pair comes before the second one in a table that is read row by row. -/
def RowMajor (p q : Value × Value) : Prop := p.1 < q.1 ∨ (p.1 = q.1 ∧ p.2 < q.2)

/-- The pairs over two lists for which the test holds. -/
theorem mem_pairsWhere {firstValues secondValues : List Value} {allowed : Value → Value → Bool}
    {a b : Value} : (a, b) ∈ pairsWhere firstValues secondValues allowed ↔
      a ∈ firstValues ∧ b ∈ secondValues ∧ allowed a b = true := by
  simp [pairsWhere]

/-- Two ascending lists of values make pairs in the order of the rows. -/
theorem pairwise_pairsWhere {firstValues secondValues : List Value}
    (hfirst : firstValues.Pairwise (· < ·)) (hsecond : secondValues.Pairwise (· < ·))
    (allowed : Value → Value → Bool) :
    (pairsWhere firstValues secondValues allowed).Pairwise RowMajor := by
  unfold pairsWhere
  apply List.pairwise_flatMap.2
  constructor
  -- within a row the second values ascend
  · intro a _
    apply List.pairwise_map.2
    exact (hsecond.filter (allowed a)).imp fun hlt => Or.inr ⟨rfl, hlt⟩
  -- and a later row has a larger first value
  · refine hfirst.imp ?_
    intro a a' hlt p hp q hq
    obtain ⟨b, _, rfl⟩ := List.mem_map.1 hp
    obtain ⟨b', _, rfl⟩ := List.mem_map.1 hq
    exact Or.inl hlt

theorem nodup_of_pairwise_rowMajor {pairs : List (Value × Value)} (h : pairs.Pairwise RowMajor) :
    pairs.Nodup := by
  refine h.imp ?_
  intro p q hpq heq
  subst heq
  rcases hpq with hlt | ⟨_, hlt⟩
  · exact Int32.lt_irrefl hlt
  · exact Int32.lt_irrefl hlt

/-- Pairs that stand row by row are kept as they are. -/
theorem tuples_ofTuples_of_rowMajor (h : pairs.Pairwise RowMajor) :
    (ofTuples x y pairs).tuples = pairs := by
  show (Grouping.distinct SupportTable.comparePairs pairs).toArray.toList = pairs
  rw [List.toList_toArray, Grouping.distinct_of_nodup (nodup_of_pairwise_rowMajor h)]

/-- A constraint made of a predicate allows the pairs for which it holds. -/
theorem mem_tuples_ofPredicate {firstValues secondValues : List Value}
    {allowed : Value → Value → Bool} {a b : Value} :
    (a, b) ∈ (ofPredicate x y firstValues secondValues allowed).tuples ↔
      a ∈ firstValues ∧ b ∈ secondValues ∧ allowed a b = true :=
  (mem_tuples_ofTuples x y _ _).trans mem_pairsWhere

/-- **The views of the allowed pairs agree.** A constraint keeps the pairs of its list without
repetition, in the order in which they first come, and its supports from either end, the pairs that
it allows and the assignments that satisfy it are those of the list. A constraint that is made from
a predicate over two ranges of values keeps exactly the pairs of the two ranges for which the
predicate holds, row by row. -/
theorem tables_agree_with_pairs :
    (∀ (x y : VariableId) (pairs : List (Value × Value)),
      (ofTuples x y pairs).Represents x y pairs) ∧
    (∀ (x y : VariableId) (lower₁ upper₁ lower₂ upper₂ : Value) (allowed : Value → Value → Bool),
      let c := ofPredicate x y (Value.range lower₁ upper₁) (Value.range lower₂ upper₂) allowed
      (∀ a b, (a, b) ∈ c.tuples ↔
        (lower₁ ≤ a ∧ a ≤ upper₁) ∧ (lower₂ ≤ b ∧ b ≤ upper₂) ∧ allowed a b = true) ∧
      c.tuples.Pairwise RowMajor) := by
  refine ⟨represents_ofTuples, ?_⟩
  intro x y lower₁ upper₁ lower₂ upper₂ allowed
  constructor
  · intro a b
    rw [mem_tuples_ofPredicate, Value.mem_range, Value.mem_range]
  · have hrows := pairwise_pairsWhere (Value.range_pairwise lower₁ upper₁)
      (Value.range_pairwise lower₂ upper₂) allowed
    unfold ofPredicate
    rw [tuples_ofTuples_of_rowMajor hrows]
    exact hrows

end Constraint

end ConstraintNet
