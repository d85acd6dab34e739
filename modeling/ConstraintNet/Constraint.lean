/-
  ConstraintNet.Constraint
  ────────────────────────
  **CONSTRAINTS BETWEEN TWO VARIABLES, AS LISTS OF ALLOWED PAIRS.**

  A constraint binds a first and a second variable and lists the pairs of
  values that they may take together.  The same information is kept three
  times, because each reader wants it differently:

      tuples    — the allowed pairs, each once, in the order first given
      forward   — for a value of the first variable, the values of the second
                  that go with it
      backward  — the same with the variables exchanged

  `SupportTable.ofList` derives all three from one list of pairs, and every
  table of a constraint comes from some list (`Constraint.reachable`), so the
  three views cannot drift apart.
-/
import ConstraintNet.Domain
import ConstraintNet.Grouping

namespace ConstraintNet

/-! ## §1. Tables of supporting values. -/

/-- A set of allowed pairs with its two look-up directions. -/
structure SupportTable where
  /-- The allowed pairs without repetition, in the order in which they came. -/
  tuples : Array (Value × Value)
  /-- The second values that go with a first value. -/
  forward : Std.TreeMap Value (List Value)
  /-- The first values that go with a second value. -/
  backward : Std.TreeMap Value (List Value)

namespace SupportTable

/-- Pairs are ordered by first value, then by second. -/
def comparePairs (p q : Value × Value) : Ordering :=
  compareLex (compareOn Prod.fst) (compareOn Prod.snd) p q

instance : Std.TransCmp comparePairs :=
  inferInstanceAs (Std.TransCmp
    (compareLex (compareOn (Prod.fst : Value × Value → Value)) (compareOn Prod.snd)))

theorem comparePairs_eq_eq_iff {p q : Value × Value} : comparePairs p q = .eq ↔ p = q := by
  cases p; cases q
  simp [comparePairs, compareLex, compareOn, Ordering.then_eq_eq]

instance : Std.LawfulEqCmp comparePairs where
  eq_of_compare := comparePairs_eq_eq_iff.1

/-- The listed values, each once and ascending; most lists of supports are so already. -/
def sorted (values : List Value) : List Value :=
  if Grouping.ascends compare values then values else (Domain.ofList values).values

theorem mem_sorted {v : Value} {values : List Value} : v ∈ sorted values ↔ v ∈ values := by
  unfold sorted
  split
  · exact Iff.rfl
  · rw [Domain.mem_values, Domain.mem_ofList]

theorem pairwise_sorted (values : List Value) : (sorted values).Pairwise (· < ·) := by
  unfold sorted
  split
  · next h => exact (Grouping.pairwise_of_ascends h).imp Std.compare_eq_lt.1
  · exact Domain.ascending _

/-- For every first value of the pairs, the second values that go with it, ascending. -/
def sideOf (pairs : List (Value × Value)) : Std.TreeMap Value (List Value) :=
  (Grouping.byKey compare pairs).map fun _ values => sorted values

/-- The table of the listed pairs. -/
def ofList (pairs : List (Value × Value)) : SupportTable :=
  let tuples := Grouping.distinct comparePairs pairs
  { tuples := tuples.toArray
    forward := sideOf tuples
    backward := sideOf (tuples.map Prod.swap) }

theorem getElem?_sideOf (pairs : List (Value × Value)) (a : Value) :
    (sideOf pairs)[a]? =
      match (pairs.filter fun pair => pair.1 = a).map Prod.snd with
      | [] => none
      | values => some (sorted values) := by
  rw [sideOf, Std.TreeMap.getElem?_map, Grouping.getElem?_byKey]
  generalize (pairs.filter fun pair => pair.1 = a).map Prod.snd = values
  cases values <;> rfl

/-- A table is determined by its tuples, whatever list it was made from. -/
theorem ofList_tuples (pairs : List (Value × Value)) :
    ofList (ofList pairs).tuples.toList = ofList pairs := by
  have hnodup : (Grouping.distinct comparePairs pairs).Nodup := Grouping.nodup_distinct pairs
  simp only [ofList, Grouping.distinct_of_nodup hnodup]

end SupportTable

/-! ## §2. Constraints. -/

/-- Which end of a constraint a variable is. -/
inductive Endpoint where
  | first
  | second
  deriving Repr, DecidableEq

/-- Two variables and the pairs of values that they may take together. -/
structure Constraint where
  first : VariableId
  second : VariableId
  table : SupportTable
  /-- The table allows the pairs of some list. -/
  reachable : ∃ pairs, table = SupportTable.ofList pairs

namespace Constraint

/-- The constraint that allows the listed pairs. -/
def ofTuples (first second : VariableId) (pairs : List (Value × Value)) : Constraint :=
  ⟨first, second, SupportTable.ofList pairs, pairs, rfl⟩

/-- The pairs over two lists of values for which a predicate holds, row by row. -/
def pairsWhere (firstValues secondValues : List Value) (allowed : Value → Value → Bool) :
    List (Value × Value) :=
  firstValues.flatMap fun a => (secondValues.filter (allowed a)).map fun b => (a, b)

/-- The constraint that allows a pair of the given values when the predicate holds for it. -/
def ofPredicate (first second : VariableId) (firstValues secondValues : List Value)
    (allowed : Value → Value → Bool) : Constraint :=
  ofTuples first second (pairsWhere firstValues secondValues allowed)

/-- The allowed pairs, each once, in the order first given. -/
def tuples (c : Constraint) : List (Value × Value) := c.table.tuples.toList

/-- The number of allowed pairs. -/
def numTuples (c : Constraint) : Nat := c.table.tuples.size

/-- Which end of the constraint `var` is; the first one, if it is both. -/
def endpoint? (c : Constraint) (var : VariableId) : Option Endpoint :=
  if var = c.first then some .first
  else if var = c.second then some .second
  else none

/-- The variable at the other end. -/
def other? (c : Constraint) (var : VariableId) : Option VariableId :=
  match c.endpoint? var with
  | some .first => some c.second
  | some .second => some c.first
  | none => none

/-- The values at the other end that go with `value` at `var`; `none` when there are none. -/
def supports? (c : Constraint) (var : VariableId) (value : Value) : Option (List Value) :=
  match c.endpoint? var with
  | some .first => c.table.forward[value]?
  | some .second => c.table.backward[value]?
  | none => none

/-- Whether `value` at `var` goes with `otherValue` at the other end. -/
def allows (c : Constraint) (var : VariableId) (value otherValue : Value) : Bool :=
  match c.supports? var value with
  | some supporting => supporting.contains otherValue
  | none => false

/-- Whether `value` at `var` goes with some member of `candidates` at the other end. -/
def hasSupport (c : Constraint) (var : VariableId) (candidates : Domain) (value : Value) : Bool :=
  match c.supports? var value with
  | some supporting => supporting.any candidates.contains
  | none => false

/-- What is left of `missing`, a set of values at the other end, when everything is taken away that
goes with one of the listed values at `var`. -/
def uncovered (c : Constraint) (var : VariableId) : List Value → Domain → Domain
  | [], missing => missing
  | value :: rest, missing =>
    if missing.isEmpty then missing
    else c.uncovered var rest (missing.eraseAll ((c.supports? var value).getD []))

/-- The members of `within`, a set of values at the other end, that go with some member of
`candidates` at `var`. -/
def image (c : Constraint) (var : VariableId) (candidates within : Domain) : Domain :=
  within.eraseAll (c.uncovered var candidates.values within).values

theorem mem_uncovered {c : Constraint} {var : VariableId} {v : Value} (listed : List Value)
    (missing : Domain) :
    v ∈ c.uncovered var listed missing ↔
      v ∈ missing ∧ ∀ a ∈ listed, v ∉ (c.supports? var a).getD [] := by
  induction listed generalizing missing with
  | nil => simp [uncovered]
  | cons a rest ih =>
    unfold uncovered
    split
    -- nothing is missing any more
    · next h => simp [Domain.isEmpty_eq_true_iff.1 h v]
    · rw [ih, Domain.mem_eraseAll]
      grind

@[simp] theorem mem_image {c : Constraint} {var : VariableId} {candidates within : Domain}
    {v : Value} :
    v ∈ c.image var candidates within ↔
      v ∈ within ∧ ∃ a ∈ candidates, v ∈ (c.supports? var a).getD [] := by
  rw [image, Domain.mem_eraseAll, Domain.mem_values, mem_uncovered]
  grind [Domain.mem_values]

/-- Whether the assignment gives both ends a value and the two values go together. -/
def isSatisfiedBy (c : Constraint) (assignment : List Value) : Bool :=
  match assignment[c.first]?, assignment[c.second]? with
  | some a, some b => c.allows c.first a b
  | _, _ => false

/-! ## §3. How a constraint is presented. -/

/-- The kind of a constraint, as reports name it. -/
def kind : String := "BinaryConstraint"

/-- A constraint in a few words: its variables and the number of its pairs. -/
def description (c : Constraint) : String :=
  "c(?" ++ toString c.first ++ ", ?" ++ toString c.second ++ ") with " ++ toString c.numTuples
    ++ " tuples"

end Constraint

end ConstraintNet
