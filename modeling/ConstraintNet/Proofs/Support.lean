/-
  ConstraintNet.Proofs.Support
  ────────────────────────────
  **WHAT A CONSTRAINT ALLOWS, FROM EITHER END.**

  The look-up tables of a constraint answer questions from its first or its
  second variable.  Here both directions are tied to the list of allowed
  pairs, and with it to each other:

      c.allows c.first a b   ↔  (a, b) ∈ c.tuples
      c.allows x a b         ↔  c.allows y b a        when `c` joins x and y
      c.hasSupport x Y a     ↔  ∃ b ∈ Y, c.allows x a b

  `Joins` says that the two ends of a constraint are the given variables, in
  one order or the other; `sharedConstraints` lists exactly the constraints
  that join its two arguments.  Two variables are `Adjacent` when there is such
  a constraint, and the neighbours of a variable are those adjacent to it.
-/
import Mathlib.Data.List.Basic
import ConstraintNet.Network

namespace ConstraintNet

/-! ## §1. The two look-up directions. -/

namespace SupportTable

/-- The values filed under `a` are those that stand beside `a` in some pair. -/
theorem mem_sideOf (pairs : List (Value × Value)) (a b : Value) :
    b ∈ ((sideOf pairs)[a]?).getD [] ↔ (a, b) ∈ pairs := by
  have hfilter : b ∈ (pairs.filter fun pair => pair.1 = a).map Prod.snd ↔ (a, b) ∈ pairs := by
    simp only [List.mem_map, List.mem_filter, decide_eq_true_eq, Prod.exists]
    constructor
    · rintro ⟨a', b', ⟨hmem, rfl⟩, rfl⟩
      exact hmem
    · intro hmem
      exact ⟨a, b, ⟨hmem, rfl⟩, rfl⟩
  rw [getElem?_sideOf, ← hfilter]
  generalize (pairs.filter fun pair => pair.1 = a).map Prod.snd = values
  cases values with
  | nil => simp
  | cons v rest => exact mem_sorted

end SupportTable

namespace Constraint

/-- The forward table lists, under a value of the first variable, the values that go with it. -/
theorem mem_forward (c : Constraint) (a b : Value) :
    b ∈ (c.table.forward[a]?).getD [] ↔ (a, b) ∈ c.tuples := by
  obtain ⟨pairs, hpairs⟩ := c.reachable
  unfold tuples
  rw [hpairs]
  exact SupportTable.mem_sideOf (Grouping.distinct SupportTable.comparePairs pairs) a b

/-- The backward table lists the same under the values of the second variable. -/
theorem mem_backward (c : Constraint) (a b : Value) :
    a ∈ (c.table.backward[b]?).getD [] ↔ (a, b) ∈ c.tuples := by
  obtain ⟨pairs, hpairs⟩ := c.reachable
  unfold tuples
  rw [hpairs]
  show a ∈ ((SupportTable.sideOf
      ((Grouping.distinct SupportTable.comparePairs pairs).map Prod.swap))[b]?).getD [] ↔ _
  rw [SupportTable.mem_sideOf, List.mem_map]
  constructor
  · rintro ⟨⟨a', b'⟩, hmem, hswap⟩
    obtain ⟨rfl, rfl⟩ := Prod.mk.inj hswap
    exact hmem
  · intro hmem
    exact ⟨(a, b), hmem, rfl⟩

/-! ## §2. Allowed pairs. -/

/-- A pair is allowed when the second value is listed among the supports of the first one. -/
theorem allows_iff_mem_supports (c : Constraint) (x : VariableId) (a b : Value) :
    c.allows x a b = true ↔ b ∈ (c.supports? x a).getD [] := by
  unfold allows
  cases c.supports? x a with
  | none => simp
  | some supporting => simp

/-- Asked from its first variable, a constraint allows the pairs that it lists. -/
theorem allows_first (c : Constraint) (a b : Value) :
    c.allows c.first a b = true ↔ (a, b) ∈ c.tuples := by
  rw [allows_iff_mem_supports, ← mem_forward]
  simp [supports?, endpoint?]

/-- Asked from the other end, it allows the same pairs turned round. -/
theorem allows_second (c : Constraint) (h : c.first ≠ c.second) (a b : Value) :
    c.allows c.second b a = true ↔ (a, b) ∈ c.tuples := by
  rw [allows_iff_mem_supports, ← mem_backward]
  simp [supports?, endpoint?, Ne.symm h]

/-- A value has support when it goes with some candidate at the other end. -/
theorem hasSupport_iff (c : Constraint) (x : VariableId) (candidates : Domain) (a : Value) :
    c.hasSupport x candidates a = true ↔ ∃ b ∈ candidates, c.allows x a b = true := by
  unfold hasSupport allows
  cases c.supports? x a with
  | none => simp
  | some supporting =>
    simp only [List.any_eq_true, Domain.contains_iff, List.contains_iff_mem]
    constructor
    · rintro ⟨b, hb, hc⟩
      exact ⟨b, hc, hb⟩
    · rintro ⟨b, hc, hb⟩
      exact ⟨b, hb, hc⟩

/-- A constraint lists the pairs that it is made of; repetitions do not matter. -/
theorem mem_tuples_ofTuples (x y : VariableId) (pairs : List (Value × Value)) (p : Value × Value) :
    p ∈ (ofTuples x y pairs).tuples ↔ p ∈ pairs := by
  show p ∈ (Grouping.distinct SupportTable.comparePairs pairs).toArray.toList ↔ p ∈ pairs
  rw [List.toList_toArray, Grouping.mem_distinct]

/-! ## §3. The variables that a constraint joins. -/

/-- The ends of the constraint are `x` and `y`, in one order or the other. -/
def Joins (c : Constraint) (x y : VariableId) : Prop :=
  (c.first = x ∧ c.second = y) ∨ (c.second = x ∧ c.first = y)

instance (c : Constraint) (x y : VariableId) : Decidable (c.Joins x y) :=
  inferInstanceAs (Decidable ((c.first = x ∧ c.second = y) ∨ (c.second = x ∧ c.first = y)))

/-- A constraint joins its two variables in either order. -/
theorem Joins.symm {c : Constraint} {x y : VariableId} (h : c.Joins x y) : c.Joins y x := by
  rcases h with ⟨h₁, h₂⟩ | ⟨h₁, h₂⟩
  · exact Or.inr ⟨h₂, h₁⟩
  · exact Or.inl ⟨h₂, h₁⟩

theorem joins_comm {c : Constraint} {x y : VariableId} : c.Joins x y ↔ c.Joins y x :=
  ⟨Joins.symm, Joins.symm⟩

/-- A constraint joins its first variable and its second one. -/
theorem joins_ends (c : Constraint) : c.Joins c.first c.second := Or.inl ⟨rfl, rfl⟩

/-- Two constraints that join the same variables have the same ends. -/
theorem Joins.joins_ends {c d : Constraint} {x y : VariableId} (hc : c.Joins x y)
    (hd : d.Joins x y) : c.Joins d.first d.second := by
  rcases hd with ⟨rfl, rfl⟩ | ⟨rfl, rfl⟩
  · exact hc
  · exact hc.symm

/-- Ends that differ are joined as two different variables. -/
theorem Joins.ne {c : Constraint} {x y : VariableId} (h : c.Joins x y)
    (hc : c.first ≠ c.second) : x ≠ y := by
  rcases h with ⟨rfl, rfl⟩ | ⟨rfl, rfl⟩
  · exact hc
  · exact hc.symm

/-- The other end is the variable to which a constraint joins this one. -/
theorem other?_eq_some_iff {c : Constraint} (hc : c.first ≠ c.second) {x y : VariableId} :
    c.other? x = some y ↔ c.Joins x y := by
  unfold other? endpoint? Joins
  by_cases h₁ : x = c.first
  · subst h₁
    simp [hc.symm]
  · by_cases h₂ : x = c.second
    · subst h₂
      simp [hc, hc.symm]
    · simp [h₁, h₂, Ne.symm h₁, Ne.symm h₂]

/-- The two ends agree on what is allowed. -/
theorem allows_comm {c : Constraint} (hc : c.first ≠ c.second) {x y : VariableId}
    (h : c.Joins x y) (a b : Value) : c.allows x a b = true ↔ c.allows y b a = true := by
  rcases h with ⟨rfl, rfl⟩ | ⟨rfl, rfl⟩
  · rw [allows_first, allows_second c hc]
  · rw [allows_first, allows_second c hc]

end Constraint

/-! ## §4. Links as the constraints that join two variables. -/

namespace Network

variable (net : Network)

/-- In a network no constraint binds a variable to itself. -/
theorem ends_ne {c : Constraint} (hc : c ∈ net.constraints.toList) : c.first ≠ c.second :=
  (net.endpoints_known c hc).2.2

/-- Some constraint joins the two variables. -/
def Adjacent (x y : VariableId) : Prop := ∃ c ∈ net.constraints.toList, c.Joins x y

variable {net} in
/-- Adjacent variables are adjacent in either order. -/
theorem Adjacent.symm {x y : VariableId} (h : net.Adjacent x y) : net.Adjacent y x := by
  obtain ⟨c, hc, hjoins⟩ := h
  exact ⟨c, hc, hjoins.symm⟩

/-- What a constraint of the network joins are variables of the network. -/
theorem lt_size_of_joins {c : Constraint} (hc : c ∈ net.constraints.toList) {x y : VariableId}
    (h : c.Joins x y) : x < net.size := by
  obtain ⟨h₁, h₂, _⟩ := net.endpoints_known c hc
  rcases h with ⟨rfl, rfl⟩ | ⟨rfl, rfl⟩
  · exact h₁
  · exact h₂

variable {net} in
/-- Only variables of the network are adjacent to others. -/
theorem Adjacent.lt_size {x y : VariableId} (h : net.Adjacent x y) : x < net.size := by
  obtain ⟨c, hc, hjoins⟩ := h
  exact net.lt_size_of_joins hc hjoins

variable {net} in
/-- No variable is adjacent to itself. -/
theorem Adjacent.ne {x y : VariableId} (h : net.Adjacent x y) : x ≠ y := by
  obtain ⟨c, hc, hjoins⟩ := h
  exact hjoins.ne (net.ends_ne hc)

/-- The entries of a variable: the constraints that have it as an end. -/
theorem getElem?_links {x : VariableId} (hx : x < net.size) :
    net.links[x]? = some (Links.ofEntries (net.constraints.toList.zipIdx.filterMap
      fun (c, id) => (c.other? x).map fun y => (y, id, c))) := by
  have hentries := getElem?_entriesOf (fun c hc => net.ends_ne hc) hx
  rw [net.links_eq, linksOf, Array.getElem?_map]
  exact congrArg (Option.map Links.ofEntries) hentries

/-- Beyond the variables there are no links. -/
theorem getElem?_links_eq_none {x : VariableId} (hx : net.size ≤ x) : net.links[x]? = none := by
  have hgo (numbered : List (Constraint × ConstraintId)) :
      (numbered.foldr
        (fun (c, id) (entries : Array (List (VariableId × ConstraintId × Constraint))) =>
          (entries.modify c.first ((c.second, id, c) :: ·)).modify c.second
            ((c.first, id, c) :: ·))
        (Array.replicate net.size [])).size = net.size := by
    induction numbered with
    | nil => simp
    | cons n rest ih => simpa using ih
  have hsize : (entriesOf net.bounds.size net.constraints.toList).size = net.size :=
    hgo net.constraints.toList.zipIdx
  rw [net.links_eq, linksOf, Array.getElem?_map, Array.getElem?_eq_none (by rw [hsize]; exact hx)]
  rfl

/-- The constraints that two variables share are those of the network that join them, in their
order and each with its position. -/
theorem sharedConstraints_eq_filterMap (x y : VariableId) :
    net.sharedConstraints x y = net.constraints.toList.zipIdx.filterMap fun (c, id) =>
      if c.Joins x y then some (id, c) else none := by
  have hlisted : ∀ n ∈ net.constraints.toList.zipIdx, n.1 ∈ net.constraints.toList := by
    intro n hn
    exact List.mem_of_getElem? (List.mem_zipIdx_iff_getElem?.1 hn)
  unfold sharedConstraints
  by_cases hx : x < net.size
  · rw [net.getElem?_links hx]
    show (Grouping.byKey compare _).getD y [] = _
    rw [Grouping.getD_byKey, List.filter_filterMap, List.map_filterMap]
    apply List.filterMap_congr
    intro n hn
    have hother := Constraint.other?_eq_some_iff (net.ends_ne (hlisted n hn)) (x := x) (y := y)
    by_cases hjoins : n.1.Joins x y
    · simp [hother.2 hjoins, hjoins, Option.filter]
    -- the other end is some variable, but not `y`
    · cases hz : n.1.other? x with
      | none => simp [hz, hjoins, Option.filter]
      | some z =>
        have hne : z ≠ y := by
          intro heq
          exact hjoins (hother.1 (heq ▸ hz))
        simp [hz, hjoins, hne, Option.filter]
  -- a variable that is not there shares nothing, and nothing joins it
  · rw [net.getElem?_links_eq_none (Nat.le_of_not_lt hx)]
    symm
    apply List.filterMap_eq_nil_iff.2
    intro n hn
    exact if_neg fun hjoins => hx (net.lt_size_of_joins (hlisted n hn) hjoins)

/-- From either end the same constraints are shared, in the same order. -/
theorem sharedConstraints_comm (x y : VariableId) :
    net.sharedConstraints x y = net.sharedConstraints y x := by
  rw [net.sharedConstraints_eq_filterMap, net.sharedConstraints_eq_filterMap]
  simp only [Constraint.joins_comm (x := x) (y := y)]

/-- Two variables share exactly the constraints that join them, each under its position. -/
theorem mem_sharedConstraints {x y : VariableId} {id : ConstraintId} {c : Constraint} :
    (id, c) ∈ net.sharedConstraints x y ↔ net.constraints[id]? = some c ∧ c.Joins x y := by
  rw [net.sharedConstraints_eq_filterMap, List.mem_filterMap]
  constructor
  · intro h
    obtain ⟨⟨d, i⟩, hn, hsome⟩ := h
    obtain ⟨hjoins, heq⟩ := Option.ite_none_right_eq_some.1 hsome
    obtain ⟨rfl, rfl⟩ := Prod.mk.inj (Option.some.inj heq)
    exact ⟨by simpa using List.mem_zipIdx_iff_getElem?.1 hn, hjoins⟩
  · intro h
    obtain ⟨hget, hjoins⟩ := h
    exact ⟨(c, id), List.mem_zipIdx_iff_getElem?.2 (by simpa using hget), if_pos hjoins⟩

/-- What is shared by two variables are constraints of the network that join them. -/
theorem sharedConstraints_mem {x y : VariableId} {entry : ConstraintId × Constraint}
    (h : entry ∈ net.sharedConstraints x y) :
    entry.2 ∈ net.constraints.toList ∧ entry.2.Joins x y := by
  obtain ⟨hget, hjoins⟩ := net.mem_sharedConstraints.1 h
  exact ⟨List.mem_of_getElem? (by simpa using hget), hjoins⟩

/-- And every constraint that joins them is shared. -/
theorem exists_shared_of_joins {c : Constraint} (hc : c ∈ net.constraints.toList)
    {x y : VariableId} (h : c.Joins x y) : ∃ id, (id, c) ∈ net.sharedConstraints x y := by
  obtain ⟨id, hid⟩ := List.mem_iff_getElem?.1 hc
  exact ⟨id, net.mem_sharedConstraints.2 ⟨by simpa using hid, h⟩⟩

/-- Nothing is shared by variables that are not adjacent. -/
theorem sharedConstraints_eq_nil_iff {x y : VariableId} :
    net.sharedConstraints x y = [] ↔ ¬ net.Adjacent x y := by
  constructor
  · intro hnil hadjacent
    obtain ⟨c, hc, hjoins⟩ := hadjacent
    obtain ⟨id, hid⟩ := net.exists_shared_of_joins hc hjoins
    rw [hnil] at hid
    cases hid
  · intro hnone
    refine List.eq_nil_iff_forall_not_mem.2 fun entry hentry => ?_
    obtain ⟨hc, hjoins⟩ := net.sharedConstraints_mem hentry
    exact hnone ⟨entry.2, hc, hjoins⟩

/-- Every variable of the network has a list of neighbours: those that are adjacent to it. -/
theorem exists_neighbours {x : VariableId} (hx : x < net.size) :
    ∃ neighbours, net.neighbours? x = some neighbours ∧
      ∀ z, z ∈ neighbours ↔ net.Adjacent x z := by
  refine ⟨_, by rw [neighbours?, net.getElem?_links hx]; rfl, fun z => ?_⟩
  simp only [Links.ofEntries, Grouping.mem_distinct, List.mem_map, List.mem_filterMap,
    Option.map_eq_some_iff, Prod.exists]
  constructor
  · rintro ⟨z', id', c', ⟨c, id, hmem, y, hother, heq⟩, rfl⟩
    simp only [Prod.mk.injEq] at heq
    obtain ⟨rfl, rfl, rfl⟩ := heq
    have hc := List.mem_of_getElem? (List.mem_zipIdx_iff_getElem?.1 hmem)
    exact ⟨c, hc, (Constraint.other?_eq_some_iff (net.ends_ne hc)).1 hother⟩
  · intro h
    obtain ⟨c, hc, hjoins⟩ := h
    obtain ⟨id, hid⟩ := List.mem_iff_getElem?.1 hc
    exact ⟨z, id, c, ⟨c, id, List.mem_zipIdx_iff_getElem?.2 hid, z,
      (Constraint.other?_eq_some_iff (net.ends_ne hc)).2 hjoins, rfl⟩, rfl⟩

/-- The neighbours of a variable are those that are adjacent to it. -/
theorem mem_neighbours {x z : VariableId} {neighbours : List VariableId}
    (h : net.neighbours? x = some neighbours) : z ∈ neighbours ↔ net.Adjacent x z := by
  by_cases hx : x < net.size
  · obtain ⟨listed, hlisted, hmem⟩ := net.exists_neighbours hx
    rw [h] at hlisted
    obtain rfl := Option.some.inj hlisted
    exact hmem z
  · rw [neighbours?, net.getElem?_links_eq_none (Nat.le_of_not_lt hx)] at h
    cases h

end Network

end ConstraintNet
