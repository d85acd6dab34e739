/-
  ConstraintNet.Proofs.Description
  ────────────────────────────────
  **WHICH DESCRIPTIONS ARE NETWORKS, AND WHAT A NETWORK KNOWS OF ITS LINKS.**

  A description is a list of ranges and a list of constraints.  It is a
  network when it is `WellFormed`; when it is not, exactly one fault is its
  `FirstFault`, and that is the one which is named:

      `build?_cases`           — the ways in which a description is looked
                                 through
      `of_build?_eq_ok`        — what is accepted
      `firstFault_of_build?`   — what is named otherwise

  Search and propagation never look at the list of constraints again.  They
  look at the constraints between two variables and at the neighbours of one,
  both derived from that list once; `Indexed` says what these must be, in
  terms of the list alone.

  Main result: `Network.build?_validates_and_indexes`.
-/
import Mathlib.Data.Set.Insert
import ConstraintNet.Proofs.Support

namespace ConstraintNet

/-! ## §1. The first of several faults. -/

/-- What a search through a numbered list finds first. -/
theorem findSome?_zipIdx_eq_some_iff {α β : Type} {f : α × Nat → Option β} {l : List α} {b : β}
    (start : Nat) : (l.zipIdx start).findSome? f = some b ↔
      ∃ i a, l[i]? = some a ∧ f (a, start + i) = some b ∧
        ∀ j < i, ∀ a', l[j]? = some a' → f (a', start + j) = none := by
  induction l generalizing start with
  | nil => simp
  | cons head rest ih =>
    rw [List.zipIdx_cons, List.findSome?_cons]
    -- either the head is what is found, or the search goes on behind it
    cases hhead : f (head, start) with
    | some found =>
      constructor
      · intro h
        exact ⟨0, head, rfl, hhead.trans h, fun j hj => absurd hj (Nat.not_lt_zero j)⟩
      · intro h
        obtain ⟨i, a, hi, hf, hearlier⟩ := h
        cases i with
        | zero =>
          obtain rfl := Option.some.inj hi
          exact hhead.symm.trans hf
        | succ i =>
          have hnone := hearlier 0 (Nat.succ_pos i) head rfl
          rw [Nat.add_zero, hhead] at hnone
          cases hnone
    | none =>
      refine (ih (start + 1)).trans ?_
      constructor
      · intro h
        obtain ⟨i, a, hi, hf, hearlier⟩ := h
        refine ⟨i + 1, a, hi, by rwa [Nat.add_right_comm] at hf, ?_⟩
        intro j hj a' hj'
        cases j with
        | zero =>
          obtain rfl := Option.some.inj hj'
          exact hhead
        | succ j =>
          have hnone := hearlier j (Nat.lt_of_succ_lt_succ hj) a' hj'
          rwa [Nat.add_right_comm] at hnone
      · intro h
        obtain ⟨i, a, hi, hf, hearlier⟩ := h
        cases i with
        | zero =>
          obtain rfl := Option.some.inj hi
          rw [Nat.add_zero, hhead] at hf
          cases hf
        | succ i =>
          refine ⟨i, a, hi, by rwa [Nat.add_right_comm], ?_⟩
          intro j hj a' hj'
          have hnone := hearlier (j + 1) (Nat.succ_lt_succ hj) a' hj'
          rwa [Nat.add_right_comm]

/-- The ends of a constraint are two different ones of `count` variables. -/
def Constraint.Fits (count : Nat) (c : Constraint) : Prop :=
  c.first < count ∧ c.second < count ∧ c.first ≠ c.second

/-- The fault of constraint number `id` among `count` variables: an unknown first end, failing that
an unknown second end, failing that two ends which are one. -/
inductive Constraint.HasFault (count : Nat) (id : ConstraintId) (c : Constraint) :
    NetworkError → Prop where
  | unknownFirst (hfirst : count ≤ c.first) :
      c.HasFault count id (.unknownVariable id c.first count)
  | unknownSecond (hfirst : c.first < count) (hsecond : count ≤ c.second) :
      c.HasFault count id (.unknownVariable id c.second count)
  | onItself (hfirst : c.first < count) (hself : c.first = c.second) :
      c.HasFault count id (.selfConstraint id c.first)

/-- The fault that is named is the one that the constraint has. -/
theorem Constraint.fault?_eq_some_iff {count : Nat} {id : ConstraintId} {c : Constraint}
    {fault : NetworkError} : c.fault? count id = some fault ↔ c.HasFault count id fault := by
  unfold fault?
  constructor
  · intro h
    -- each test that fails leaves the bound that the next fault needs
    split at h
    next hfirst =>
      obtain rfl := Option.some.inj h
      exact .unknownFirst hfirst
    next hfirst =>
      split at h
      next hsecond =>
        obtain rfl := Option.some.inj h
        exact .unknownSecond (Nat.lt_of_not_le hfirst) hsecond
      next hsecond =>
        split at h
        next hself =>
          obtain rfl := Option.some.inj h
          exact .onItself (Nat.lt_of_not_le hfirst) hself
        next => cases h
  · intro h
    cases h with
    | unknownFirst hfirst => rw [if_pos hfirst]
    | unknownSecond hfirst hsecond => rw [if_neg (Nat.not_le_of_lt hfirst), if_pos hsecond]
    | onItself hfirst hself =>
      have hsecond : c.second < count := hself ▸ hfirst
      rw [if_neg (Nat.not_le_of_lt hfirst), if_neg (Nat.not_le_of_lt hsecond), if_pos hself]

/-! ## §2. Descriptions that are networks, and those that are not. -/

/-- No range is empty, and every constraint binds two different variables. -/
structure WellFormed (bounds : List Bounds) (constraints : List Constraint) : Prop where
  ranges : ∀ b ∈ bounds, b.lower ≤ b.upper
  ends : ∀ c ∈ constraints, c.Fits bounds.length

/-- The fault that stands before all others: that of the first variable with an empty range, or
when no range is empty, that of the first constraint which has one. -/
inductive FirstFault (bounds : List Bounds) (constraints : List Constraint) :
    NetworkError → Prop where
  | emptyDomain {var : VariableId} {b : Bounds} (hvar : bounds[var]? = some b)
      (hempty : b.upper < b.lower)
      (hearlier : ∀ x < var, ∀ b', bounds[x]? = some b' → b'.lower ≤ b'.upper) :
      FirstFault bounds constraints (.emptyDomain var b)
  | constraint {id : ConstraintId} {c : Constraint} {fault : NetworkError}
      (hranges : ∀ b ∈ bounds, b.lower ≤ b.upper) (hid : constraints[id]? = some c)
      (hfault : c.HasFault bounds.length id fault)
      (hearlier : ∀ i < id, ∀ d, constraints[i]? = some d → d.Fits bounds.length) :
      FirstFault bounds constraints fault

variable {bounds : List Bounds} {constraints : List Constraint} {fault : NetworkError}

/-- The fault of the ranges is the first empty one. -/
theorem boundsFault?_eq_some_iff : boundsFault? bounds = some fault ↔
    ∃ var b, bounds[var]? = some b ∧ fault = .emptyDomain var b ∧ b.upper < b.lower ∧
      ∀ x < var, ∀ b', bounds[x]? = some b' → b'.lower ≤ b'.upper := by
  unfold boundsFault?
  rw [findSome?_zipIdx_eq_some_iff]
  simp only [Nat.zero_add, Option.ite_none_right_eq_some, Option.some.injEq, ite_eq_right_iff,
    reduceCtorEq, imp_false, Int32.not_lt]
  constructor
  · intro h
    obtain ⟨var, b, hvar, ⟨hempty, rfl⟩, hearlier⟩ := h
    exact ⟨var, b, hvar, rfl, hempty, hearlier⟩
  · intro h
    obtain ⟨var, b, hvar, rfl, hempty, hearlier⟩ := h
    exact ⟨var, b, hvar, ⟨hempty, rfl⟩, hearlier⟩

/-- The fault of the constraints is that of the first one that does not fit. -/
theorem constraintFault?_eq_some_iff {count : Nat} :
    constraintFault? count constraints = some fault ↔
      ∃ (id : ConstraintId) (c : Constraint), constraints[id]? = some c ∧
        c.HasFault count id fault ∧
        ∀ i < id, ∀ d : Constraint, constraints[i]? = some d → d.Fits count := by
  unfold constraintFault?
  rw [findSome?_zipIdx_eq_some_iff]
  simp only [Nat.zero_add, Constraint.fault?_eq_some_iff, Constraint.fault?_eq_none_iff]
  exact Iff.rfl

namespace Network

/-- The three ways in which a description can be looked through. -/
theorem build?_cases (bounds : List Bounds) (constraints : List Constraint) :
    (∃ fault, boundsFault? bounds = some fault ∧ build? bounds constraints = .error fault) ∨
    (boundsFault? bounds = none ∧ ∃ fault,
      constraintFault? bounds.length constraints = some fault ∧
        build? bounds constraints = .error fault) ∨
    (boundsFault? bounds = none ∧ constraintFault? bounds.length constraints = none ∧
      ∃ net, build? bounds constraints = .ok net ∧ net.bounds.toList = bounds ∧
        net.constraints.toList = constraints) := by
  unfold build?
  split
  next fault hfault => exact Or.inl ⟨fault, hfault, rfl⟩
  next hbounds =>
    split
    next fault hfault => exact Or.inr (Or.inl ⟨hbounds, fault, hfault, rfl⟩)
    next hconstraints => exact Or.inr (Or.inr ⟨hbounds, hconstraints, _, rfl, rfl, rfl⟩)

/-- What was accepted is well formed, and is kept as it was given. -/
theorem of_build?_eq_ok {net : Network} (h : build? bounds constraints = .ok net) :
    WellFormed bounds constraints ∧
      net.bounds.toList = bounds ∧ net.constraints.toList = constraints := by
  rcases build?_cases bounds constraints with
    ⟨_, _, herror⟩ | ⟨_, _, _, herror⟩ | ⟨hbounds, hconstraints, net', hok, hlists⟩
  · cases h.symm.trans herror
  · cases h.symm.trans herror
  · obtain rfl := Except.ok.inj (h.symm.trans hok)
    exact ⟨⟨boundsFault?_eq_none_iff.1 hbounds, constraintFault?_eq_none_iff.1 hconstraints⟩,
      hlists⟩

/-- **A well-formed description makes a network.** -/
theorem exists_build?_of_wellFormed (h : WellFormed bounds constraints) :
    ∃ net, build? bounds constraints = .ok net := by
  rcases build?_cases bounds constraints with
    ⟨fault, hfault, _⟩ | ⟨_, fault, hfault, _⟩ | ⟨_, _, net, hok, _⟩
  · cases hfault.symm.trans (boundsFault?_eq_none_iff.2 h.ranges)
  · cases hfault.symm.trans (constraintFault?_eq_none_iff.2 h.ends)
  · exact ⟨net, hok⟩

/-- The fault that is named is the first one. -/
theorem firstFault_of_build? (h : build? bounds constraints = .error fault) :
    FirstFault bounds constraints fault := by
  rcases build?_cases bounds constraints with
    ⟨fault', hfault, herror⟩ | ⟨hbounds, fault', hfault, herror⟩ | ⟨_, _, net, hok, _⟩
  · obtain rfl := Except.error.inj (h.symm.trans herror)
    obtain ⟨var, b, hvar, rfl, hempty, hearlier⟩ := boundsFault?_eq_some_iff.1 hfault
    exact .emptyDomain hvar hempty hearlier
  · obtain rfl := Except.error.inj (h.symm.trans herror)
    obtain ⟨id, c, hid, hc, hearlier⟩ := constraintFault?_eq_some_iff.1 hfault
    exact .constraint (boundsFault?_eq_none_iff.1 hbounds) hid hc hearlier
  · cases h.symm.trans hok

/-- And the first fault is the one that is named. -/
theorem build?_of_firstFault (h : FirstFault bounds constraints fault) :
    build? bounds constraints = .error fault := by
  cases h with
  | emptyDomain hvar hempty hearlier =>
    have hsome := boundsFault?_eq_some_iff.2 ⟨_, _, hvar, rfl, hempty, hearlier⟩
    rcases build?_cases bounds constraints with
      ⟨fault', hfault, herror⟩ | ⟨hnone, _⟩ | ⟨hnone, _⟩
    · rw [herror, Option.some.inj (hfault.symm.trans hsome)]
    · cases hnone.symm.trans hsome
    · cases hnone.symm.trans hsome
  | constraint hranges hid hc hearlier =>
    have hnone := boundsFault?_eq_none_iff.2 hranges
    have hsome := constraintFault?_eq_some_iff.2 ⟨_, _, hid, hc, hearlier⟩
    rcases build?_cases bounds constraints with
      ⟨fault', hfault, _⟩ | ⟨_, fault', hfault, herror⟩ | ⟨_, hnone', _⟩
    · cases hfault.symm.trans hnone
    · rw [herror, Option.some.inj (hfault.symm.trans hsome)]
    · cases hnone'.symm.trans hsome

end Network

/-! ## §3. The order of first occurrences. -/

/-- The keys of entries in some order: the first entries under them are in this order, too. -/
theorem Grouping.pairwise_distinctFrom {κ α : Type} [DecidableEq κ] {cmp : κ → κ → Ordering}
    [Std.TransCmp cmp] [Std.LawfulEqCmp cmp] {r : κ × α → κ × α → Prop}
    {entries : List (κ × α)} (h : entries.Pairwise r) (seen : Std.TreeSet κ cmp) :
    (distinctFrom seen (entries.map Prod.fst)).Pairwise fun k k' =>
      ∀ e e', entries.find? (fun entry => entry.1 = k) = some e →
        entries.find? (fun entry => entry.1 = k') = some e' → r e e' := by
  induction entries generalizing seen with
  | nil => exact List.Pairwise.nil
  | cons entry rest ih =>
    obtain ⟨hentry, hrest⟩ := List.pairwise_cons.1 h
    -- under the keys that are still to come, `entry` is not the first
    have hlater (seen : Std.TreeSet κ cmp) (hseen : seen.contains entry.1 = true) :
        ∀ k ∈ distinctFrom seen (rest.map Prod.fst),
          (entry :: rest).find? (fun entry => entry.1 = k) =
            rest.find? fun entry => entry.1 = k := by
      intro k hk
      refine List.find?_cons_of_neg ?_
      rw [decide_eq_true_eq]
      intro heq
      have hnew := (mem_distinctFrom.1 hk).2
      rw [← heq, hseen] at hnew
      cases hnew
    have hpairs (seen : Std.TreeSet κ cmp) (hseen : seen.contains entry.1 = true) :
        (distinctFrom seen (rest.map Prod.fst)).Pairwise fun k k' =>
          ∀ e e', (entry :: rest).find? (fun entry => entry.1 = k) = some e →
            (entry :: rest).find? (fun entry => entry.1 = k') = some e' → r e e' := by
      refine (ih hrest seen).imp_of_mem ?_
      intro k k' hk hk' hbefore e e' he he'
      rw [hlater seen hseen k hk] at he
      rw [hlater seen hseen k' hk'] at he'
      exact hbefore e e' he he'
    rw [List.map_cons]
    unfold distinctFrom
    split
    next hseen => exact hpairs seen hseen
    next =>
      have hseen : (seen.insert entry.1).contains entry.1 = true :=
        Std.TreeSet.contains_insert_self
      refine List.pairwise_cons.2 ⟨?_, hpairs _ hseen⟩
      intro k' hk' e e' he he'
      rw [hlater _ hseen k' hk'] at he'
      rw [List.find?_cons, decide_eq_true rfl] at he
      obtain rfl := Option.some.inj he
      exact hentry e' (List.mem_of_find?_eq_some he')

/-! ## §4. What a network knows of its links. -/

namespace Network

variable (net : Network)

/-- The positions in a numbered list ascend. -/
theorem pairwise_zipIdx {α : Type} (l : List α) : l.zipIdx.Pairwise fun n n' => n.2 < n'.2 := by
  rw [← List.pairwise_map (R := (· < ·)), List.zipIdx_map_snd]
  exact List.pairwise_lt_range' 1

/-- The positions of the constraints between two variables ascend. -/
theorem pairwise_constraintsBetween (x y : VariableId) :
    (net.constraintsBetween x y).Pairwise (· < ·) := by
  unfold constraintsBetween
  rw [net.sharedConstraints_eq_filterMap, List.pairwise_map, List.pairwise_filterMap]
  refine (pairwise_zipIdx net.constraints.toList).imp ?_
  intro n n' hlt entry hentry entry' hentry'
  obtain ⟨_, heq⟩ := Option.ite_none_right_eq_some.1 hentry
  obtain ⟨_, heq'⟩ := Option.ite_none_right_eq_some.1 hentry'
  rw [← Option.some.inj heq, ← Option.some.inj heq']
  exact hlt

/-- They are the positions of the constraints with just these two ends. -/
theorem mem_constraintsBetween {x y : VariableId} {id : ConstraintId} :
    id ∈ net.constraintsBetween x y ↔ ∃ c, net.constraints[id]? = some c ∧
      ({c.first, c.second} : Set VariableId) = {x, y} := by
  have hjoins (c : Constraint) :
      c.Joins x y ↔ ({c.first, c.second} : Set VariableId) = {x, y} := by
    rw [Set.pair_eq_pair_iff]
    unfold Constraint.Joins
    rw [and_comm (a := c.second = x)]
  unfold constraintsBetween
  rw [List.mem_map]
  constructor
  · intro h
    obtain ⟨⟨_, c⟩, hentry, rfl⟩ := h
    obtain ⟨hget, hc⟩ := net.mem_sharedConstraints.1 hentry
    exact ⟨c, hget, (hjoins c).1 hc⟩
  · intro h
    obtain ⟨c, hget, hc⟩ := h
    exact ⟨(id, c), net.mem_sharedConstraints.2 ⟨hget, (hjoins c).2 hc⟩, rfl⟩

/-- Adjacent variables are those with a constraint between them. -/
theorem constraintsBetween_ne_nil_iff {x y : VariableId} :
    net.constraintsBetween x y ≠ [] ↔ net.Adjacent x y := by
  unfold constraintsBetween
  rw [ne_eq, List.map_eq_nil_iff, net.sharedConstraints_eq_nil_iff, not_not]

/-- The entries of a variable stand in the order of their constraints. -/
theorem exists_entries {v : VariableId} (hv : v < net.size) :
    ∃ entries, net.links[v]? = some (Links.ofEntries entries) ∧
      entries.Pairwise fun e e' => e.2.1 < e'.2.1 := by
  refine ⟨_, net.getElem?_links hv, ?_⟩
  rw [List.pairwise_filterMap]
  refine (pairwise_zipIdx net.constraints.toList).imp ?_
  intro n n' hlt e he e' he'
  obtain ⟨_, _, rfl⟩ := Option.map_eq_some_iff.1 he
  obtain ⟨_, _, rfl⟩ := Option.map_eq_some_iff.1 he'
  exact hlt

/-- The neighbours of a variable are listed without repetition, by the first constraint that joins
each of them to it. -/
theorem neighbours_in_order {v : VariableId} {neighbours : List VariableId}
    (h : net.neighbours? v = some neighbours) :
    neighbours.Nodup ∧ neighbours.Pairwise fun w w' =>
      ∀ id id', (net.constraintsBetween v w).head? = some id →
        (net.constraintsBetween v w').head? = some id' → id < id' := by
  have hv : v < net.size := by
    by_contra hge
    rw [neighbours?, net.getElem?_links_eq_none (Nat.le_of_not_lt hge)] at h
    cases h
  obtain ⟨entries, hlinks, hordered⟩ := net.exists_entries hv
  -- the first constraint to a neighbour is the first entry under it
  have hfirst (w : VariableId) : (net.constraintsBetween v w).head? =
      (entries.find? fun entry => entry.1 = w).map fun entry => entry.2.1 := by
    unfold constraintsBetween sharedConstraints
    rw [hlinks]
    show (((Grouping.byKey compare entries).getD w []).map Prod.fst).head? = _
    rw [Grouping.getD_byKey, List.map_map, List.head?_map, List.head?_filter]
    rfl
  rw [neighbours?, hlinks] at h
  obtain rfl : Grouping.distinct compare (entries.map Prod.fst) = neighbours := Option.some.inj h
  refine ⟨Grouping.nodup_distinct _, ?_⟩
  rw [Grouping.distinct_eq_distinctFrom]
  refine (Grouping.pairwise_distinctFrom hordered ∅).imp ?_
  intro w w' hbefore id id' hid hid'
  rw [hfirst] at hid hid'
  obtain ⟨e, he, rfl⟩ := Option.map_eq_some_iff.1 hid
  obtain ⟨e', he', rfl⟩ := Option.map_eq_some_iff.1 hid'
  exact hbefore e e' he he'

/-- The network has these ranges and constraints, and its links are those that the list of
constraints makes. -/
structure Indexed (bounds : List Bounds) (constraints : List Constraint) : Prop where
  bounds_eq : net.bounds.toList = bounds
  constraints_eq : net.constraints.toList = constraints
  between_ascending : ∀ x y, (net.constraintsBetween x y).Pairwise (· < ·)
  mem_between : ∀ x y id, id ∈ net.constraintsBetween x y ↔
    ∃ c, constraints[id]? = some c ∧ ({c.first, c.second} : Set VariableId) = {x, y}
  between_comm : ∀ x y, net.constraintsBetween x y = net.constraintsBetween y x
  /-- The neighbours of a variable, each once, by the first constraint that joins it. -/
  neighbours : ∀ v < bounds.length, ∃ listed, net.neighbours? v = some listed ∧ listed.Nodup ∧
    (∀ w, w ∈ listed ↔ net.constraintsBetween v w ≠ []) ∧
    listed.Pairwise fun w w' => ∀ id id', (net.constraintsBetween v w).head? = some id →
      (net.constraintsBetween v w').head? = some id' → id < id'
  neighbours_comm : ∀ v w ofV ofW, net.neighbours? v = some ofV → net.neighbours? w = some ofW →
    (w ∈ ofV ↔ v ∈ ofW)

/-- **The indexes of a network** are what the list of its constraints says. -/
theorem indexed : net.Indexed net.bounds.toList net.constraints.toList where
  bounds_eq := rfl
  constraints_eq := rfl
  between_ascending := net.pairwise_constraintsBetween
  mem_between x y id := by
    rw [net.mem_constraintsBetween, Array.getElem?_toList]
  between_comm x y := congrArg (List.map Prod.fst) (net.sharedConstraints_comm x y)
  neighbours v hv := by
    obtain ⟨listed, hlisted, hmem⟩ := net.exists_neighbours (x := v) hv
    obtain ⟨hnodup, hordered⟩ := net.neighbours_in_order hlisted
    refine ⟨listed, hlisted, hnodup, ?_, hordered⟩
    intro w
    rw [hmem w, net.constraintsBetween_ne_nil_iff]
  neighbours_comm v w ofV ofW hv hw := by
    rw [net.mem_neighbours hv, net.mem_neighbours hw]
    exact ⟨Adjacent.symm, Adjacent.symm⟩

/-- **Descriptions are checked exactly, and indexed exactly.** A list of ranges and a list of
constraints are accepted exactly when no range is empty and every constraint binds two different
variables; otherwise the fault that is named is the first, with the ranges before the constraints.
In an accepted network, the constraints between two variables are those with just these two ends,
in ascending order and the same from either end; and every variable has a list of neighbours, in
which those variables stand, once each, that share a constraint with it, in the order of the first
constraint that they share. -/
theorem build?_validates_and_indexes (bounds : List Bounds) (constraints : List Constraint) :
    ((∃ net, build? bounds constraints = .ok net) ↔ WellFormed bounds constraints) ∧
    (∀ fault, build? bounds constraints = .error fault ↔ FirstFault bounds constraints fault) ∧
    (∀ net, build? bounds constraints = .ok net → net.Indexed bounds constraints) := by
  refine ⟨⟨?_, exists_build?_of_wellFormed⟩, ?_, ?_⟩
  · intro h
    obtain ⟨net, hnet⟩ := h
    exact (of_build?_eq_ok hnet).1
  · intro fault
    exact ⟨firstFault_of_build?, build?_of_firstFault⟩
  · intro net hnet
    obtain ⟨_, rfl, rfl⟩ := of_build?_eq_ok hnet
    exact net.indexed

end Network

end ConstraintNet
