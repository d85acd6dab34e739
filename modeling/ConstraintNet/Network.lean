/-
  ConstraintNet.Network
  ─────────────────────
  **CONSTRAINT NETWORKS.**

  A network gives every variable an inclusive range of values and lists the
  constraints between them.  `Network.build?` accepts exactly the lists in
  which no range is empty and every constraint binds two different variables
  of the network, and names the first fault otherwise.

  From the constraint list a network derives, once, the links of every
  variable: its neighbours in the order in which constraints first join
  them, and the constraints that it shares with each of them.  Propagation
  looks only at these links, and a look-up takes no walk over the constraints.
-/
import ConstraintNet.Constraint
import ConstraintNet.Total

namespace ConstraintNet

/-! ## §1. Ranges of initial values. -/

/-- The inclusive range of values that a variable may start with. -/
structure Bounds where
  lower : Value
  upper : Value
  deriving Repr, DecidableEq

namespace Bounds

/-- The range with a single value. -/
def fixed (value : Value) : Bounds := ⟨value, value⟩

/-- The values of the range, ascending. -/
def values (b : Bounds) : List Value := Value.range b.lower b.upper

/-- Whether the range has the value. -/
def contains (b : Bounds) (value : Value) : Bool := decide (b.lower ≤ value ∧ value ≤ b.upper)

/-- The values of the range, as a set. -/
def domain (b : Bounds) : Domain := Domain.ofRange b.lower b.upper

end Bounds

/-! ## §2. Faults in a description. -/

/-- Why ranges and constraints do not form a network. -/
inductive NetworkError where
  /-- The range of `var` has no value. -/
  | emptyDomain (var : VariableId) (bounds : Bounds)
  /-- Constraint `constraint` binds `var`, which is not one of the `count` variables. -/
  | unknownVariable (constraint : ConstraintId) (var : VariableId) (count : Nat)
  /-- Constraint `constraint` binds `var` to itself. -/
  | selfConstraint (constraint : ConstraintId) (var : VariableId)
  deriving Repr, DecidableEq

/-- The fault in words. -/
def NetworkError.message : NetworkError → String
  | .emptyDomain var b =>
    "variable " ++ toString var ++ " has an empty domain [" ++ toString b.lower.toInt ++ ", "
      ++ toString b.upper.toInt ++ "]"
  | .unknownVariable constraint var count =>
    "constraint " ++ toString constraint ++ " refers to variable " ++ toString var
      ++ ", but the problem has " ++ toString count ++ " variables"
  | .selfConstraint constraint var =>
    "constraint " ++ toString constraint ++ " binds variable " ++ toString var ++ " to itself"

/-- The first variable whose range is empty. -/
def boundsFault? (bounds : List Bounds) : Option NetworkError :=
  bounds.zipIdx.findSome? fun (b, var) =>
    if b.upper < b.lower then some (.emptyDomain var b) else none

/-- What is wrong with constraint number `id` among `count` variables: its first variable is
looked at before its second, and a constraint on one variable comes last. -/
def Constraint.fault? (count : Nat) (id : ConstraintId) (c : Constraint) : Option NetworkError :=
  if count ≤ c.first then some (.unknownVariable id c.first count)
  else if count ≤ c.second then some (.unknownVariable id c.second count)
  else if c.first = c.second then some (.selfConstraint id c.first)
  else none

/-- The first constraint with a fault. -/
def constraintFault? (count : Nat) (constraints : List Constraint) : Option NetworkError :=
  constraints.zipIdx.findSome? fun (c, id) => c.fault? count id

theorem boundsFault?_eq_none_iff {bounds : List Bounds} :
    boundsFault? bounds = none ↔ ∀ b ∈ bounds, b.lower ≤ b.upper := by
  simp only [boundsFault?, List.findSome?_eq_none_iff, Prod.forall]
  constructor
  -- a range of the list stands at some position, and no position has a fault
  · intro h b hb
    obtain ⟨i, hi, rfl⟩ := List.mem_iff_getElem.1 hb
    have := h bounds[i] i (List.mem_zipIdx_iff_getElem?.2 (List.getElem?_eq_getElem hi))
    exact Int32.not_lt.1 fun hlt => by simp [hlt] at this
  -- what stands at a position is in the list
  · intro h b i hbi
    have hb : b ∈ bounds := List.mem_of_getElem? (List.mem_zipIdx_iff_getElem?.1 hbi)
    simp [Int32.not_lt.2 (h b hb)]

theorem Constraint.fault?_eq_none_iff {count : Nat} {id : ConstraintId} {c : Constraint} :
    c.fault? count id = none ↔ c.first < count ∧ c.second < count ∧ c.first ≠ c.second := by
  grind [Constraint.fault?]

theorem constraintFault?_eq_none_iff {count : Nat} {constraints : List Constraint} :
    constraintFault? count constraints = none ↔
      ∀ c ∈ constraints, c.first < count ∧ c.second < count ∧ c.first ≠ c.second := by
  simp only [constraintFault?, List.findSome?_eq_none_iff, Prod.forall]
  constructor
  -- a constraint of the list stands at some position, and no position has a fault
  · intro h c hc
    obtain ⟨i, hi, rfl⟩ := List.mem_iff_getElem.1 hc
    exact Constraint.fault?_eq_none_iff.1
      (h constraints[i] i (List.mem_zipIdx_iff_getElem?.2 (List.getElem?_eq_getElem hi)))
  -- what stands at a position is in the list
  · intro h c i hci
    exact Constraint.fault?_eq_none_iff.2
      (h c (List.mem_of_getElem? (List.mem_zipIdx_iff_getElem?.1 hci)))

/-! ## §3. Links between neighbours. -/

/-- The constraints of some variable, seen from it. -/
structure Links where
  /-- The neighbours, in the order in which constraints first join them. -/
  neighbours : List VariableId
  /-- For a neighbour, the constraints that the two share, with their positions, ascending. -/
  shared : Std.TreeMap VariableId (List (ConstraintId × Constraint))

/-- The links that a variable has by its constraints, which are listed in order and each with the
variable at the other end. -/
def Links.ofEntries (entries : List (VariableId × ConstraintId × Constraint)) : Links :=
  ⟨Grouping.distinct compare (entries.map Prod.fst), Grouping.byKey compare entries⟩

/-- For each of `count` variables its constraints in order, with their positions and the variable
at the other end. -/
def entriesOf (count : Nat) (constraints : List Constraint) :
    Array (List (VariableId × ConstraintId × Constraint)) :=
  constraints.zipIdx.foldr
    (fun (c, id) entries =>
      (entries.modify c.first ((c.second, id, c) :: ·)).modify c.second ((c.first, id, c) :: ·))
    (Array.replicate count [])

/-- The entries of a variable are the constraints that have it as an end. -/
theorem getElem?_entriesOf {count : Nat} {constraints : List Constraint}
    (h : ∀ c ∈ constraints, c.first ≠ c.second) {x : VariableId} (hx : x < count) :
    (entriesOf count constraints)[x]? =
      some (constraints.zipIdx.filterMap fun (c, id) => (c.other? x).map fun y => (y, id, c)) := by
  have hgo (numbered : List (Constraint × ConstraintId))
      (hn : ∀ n ∈ numbered, n.1.first ≠ n.1.second) :
      (numbered.foldr
        (fun (c, id) (entries : Array (List (VariableId × ConstraintId × Constraint))) =>
          (entries.modify c.first ((c.second, id, c) :: ·)).modify c.second
            ((c.first, id, c) :: ·))
        (Array.replicate count []))[x]? =
      some (numbered.filterMap fun (c, id) => (c.other? x).map fun y => (y, id, c)) := by
    induction numbered with
    | nil => simp [hx]
    | cons n rest ih =>
      have hne := hn n List.mem_cons_self
      have ih := ih fun m hm => hn m (List.mem_cons_of_mem n hm)
      rw [List.foldr_cons, List.filterMap_cons, Array.getElem?_modify, Array.getElem?_modify, ih]
      -- the constraint is an entry of its two ends and of no other variable
      by_cases h₁ : n.1.first = x
      · subst h₁
        simp [hne.symm, Constraint.other?, Constraint.endpoint?]
      · by_cases h₂ : n.1.second = x
        · subst h₂
          simp [hne, hne.symm, Constraint.other?, Constraint.endpoint?]
        · simp [h₁, h₂, Ne.symm h₁, Ne.symm h₂, Constraint.other?, Constraint.endpoint?]
  exact hgo constraints.zipIdx fun n hn =>
    h n.1 (List.mem_of_getElem? (List.mem_zipIdx_iff_getElem?.1 hn))

/-- The links that the listed constraints make among `count` variables. -/
def linksOf (count : Nat) (constraints : List Constraint) : Array Links :=
  (entriesOf count constraints).map Links.ofEntries

/-! ## §4. Networks. -/

/-- Variables with their ranges and the constraints between them. -/
structure Network where
  bounds : Array Bounds
  constraints : Array Constraint
  /-- The links of every variable. -/
  links : Array Links
  bounds_nonempty : ∀ b ∈ bounds.toList, b.lower ≤ b.upper
  endpoints_known : ∀ c ∈ constraints.toList,
    c.first < bounds.size ∧ c.second < bounds.size ∧ c.first ≠ c.second
  links_eq : links = linksOf bounds.size constraints.toList

namespace Network

/-- The network with the given ranges and constraints, or the first fault: an empty range
before any constraint, then the constraints in order. -/
def build? (bounds : List Bounds) (constraints : List Constraint) : Except NetworkError Network :=
  match hb : boundsFault? bounds with
  | some fault => .error fault
  | none =>
    match hc : constraintFault? bounds.length constraints with
    | some fault => .error fault
    | none =>
      .ok
        { bounds := bounds.toArray
          constraints := constraints.toArray
          links := linksOf bounds.length constraints
          bounds_nonempty := boundsFault?_eq_none_iff.1 hb
          endpoints_known := by simpa using constraintFault?_eq_none_iff.1 hc
          links_eq := by simp }

/-- A network is built from its ranges and its constraints. -/
theorem build?_eq_ok (net : Network) :
    build? net.bounds.toList net.constraints.toList = .ok net := by
  unfold build?
  split
  next fault hfault =>
    rw [boundsFault?_eq_none_iff.2 net.bounds_nonempty] at hfault
    cases hfault
  next =>
    split
    next fault hfault =>
      have hnone : constraintFault? net.bounds.toList.length net.constraints.toList = none :=
        constraintFault?_eq_none_iff.2 net.endpoints_known
      rw [hnone] at hfault
      cases hfault
    next =>
      obtain ⟨bounds, constraints, links, hbounds, hends, hlinks⟩ := net
      obtain rfl := hlinks
      rfl

/-- The number of variables. -/
def size (net : Network) : Nat := net.bounds.size

/-- The neighbours of a variable, in the order in which constraints first joined them; `none` when
there is no such variable. -/
def neighbours? (net : Network) (var : VariableId) : Option (List VariableId) :=
  net.links[var]?.map Links.neighbours

/-- The constraints between two variables, each with its position, ascending; none when one of
the variables is unknown. -/
def sharedConstraints (net : Network) (x y : VariableId) : List (ConstraintId × Constraint) :=
  match net.links[x]? with
  | none => []
  | some links => links.shared.getD y []

/-- The positions of the constraints between two variables, ascending. -/
def constraintsBetween (net : Network) (x y : VariableId) : List ConstraintId :=
  (net.sharedConstraints x y).map Prod.fst

/-- The number of allowed pairs in all constraints together. -/
def numTuples (net : Network) : Nat := total Constraint.numTuples net.constraints.toList

/-! ## §5. Assignments of values to all variables. -/

/-- The positions of the constraints that the assignment does not satisfy, ascending. -/
def violatedConstraints (net : Network) (assignment : List Value) : List ConstraintId :=
  net.constraints.toList.zipIdx.filterMap fun (c, id) =>
    if c.isSatisfiedBy assignment then none else some id

/-- Whether the assignment gives every variable a value of its range and satisfies every
constraint. -/
def isSatisfiedBy (net : Network) (assignment : List Value) : Bool :=
  assignment.length == net.size
    && (assignment.zip net.bounds.toList).all (fun (value, b) => b.contains value)
    && (net.violatedConstraints assignment).isEmpty

end Network

end ConstraintNet
