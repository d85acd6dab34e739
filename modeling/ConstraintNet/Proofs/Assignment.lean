/-
  ConstraintNet.Proofs.Assignment
  ───────────────────────────────
  **WHAT IT MEANS TO SATISFY A NETWORK.**

  An assignment is checked as a list of values, one for each variable.  Two
  other readings of the same check are used in proofs:

      net.IsSolution l   — the list, described by its positions: its length,
                           the ranges, and one allowed pair per constraint
      net.Solves f       — a function from variables to values that gives
                           every constraint an allowed pair

  `isSatisfiedBy_iff` ties the first to the check, and `isSolution_map_range`
  the second to the first.
-/
import ConstraintNet.Proofs.Support

namespace ConstraintNet

namespace Network

/-! ## §1. Assignments as lists. -/

/-- The list has one value per variable, each in the range of its variable, and every constraint
lists the pair of values of its two ends. -/
structure IsSolution (net : Network) (assignment : List Value) : Prop where
  length_eq : assignment.length = net.size
  in_bounds : ∀ (x : VariableId) (b : Bounds) (v : Value),
    net.bounds[x]? = some b → assignment[x]? = some v → b.lower ≤ v ∧ v ≤ b.upper
  allowed : ∀ c ∈ net.constraints.toList, ∃ a b,
    assignment[c.first]? = some a ∧ assignment[c.second]? = some b ∧ (a, b) ∈ c.tuples

theorem isSatisfiedBy_constraint_iff (c : Constraint) (assignment : List Value) :
    c.isSatisfiedBy assignment = true ↔ ∃ a b,
      assignment[c.first]? = some a ∧ assignment[c.second]? = some b ∧ (a, b) ∈ c.tuples := by
  unfold Constraint.isSatisfiedBy
  cases h₁ : assignment[c.first]? with
  | none => simp
  | some a =>
    cases h₂ : assignment[c.second]? with
    | none => simp
    | some b => simp [Constraint.allows_first]

theorem violatedConstraints_eq_nil_iff (net : Network) (assignment : List Value) :
    net.violatedConstraints assignment = [] ↔
      ∀ c ∈ net.constraints.toList, c.isSatisfiedBy assignment = true := by
  unfold violatedConstraints
  rw [List.filterMap_eq_nil_iff]
  constructor
  · intro h c hc
    obtain ⟨id, hid⟩ := List.mem_iff_getElem?.1 hc
    have := h (c, id) (List.mem_zipIdx_iff_getElem?.2 hid)
    simpa using this
  · rintro h ⟨c, id⟩ hmem
    have hc := List.mem_of_getElem? (List.mem_zipIdx_iff_getElem?.1 hmem)
    simp [h c hc]

theorem all_in_bounds_iff (bounds : List Bounds) (assignment : List Value) :
    (assignment.zip bounds).all (fun (value, b) => b.contains value) = true ↔
      ∀ (x : VariableId) (b : Bounds) (v : Value),
        bounds[x]? = some b → assignment[x]? = some v → b.lower ≤ v ∧ v ≤ b.upper := by
  simp only [List.all_eq_true, Prod.forall, Bounds.contains, decide_eq_true_eq]
  constructor
  · intro h x b v hb hv
    exact h v b (List.mem_of_getElem? (List.getElem?_zip_eq_some.2 ⟨hv, hb⟩))
  · intro h v b hmem
    obtain ⟨x, hx⟩ := List.mem_iff_getElem?.1 hmem
    obtain ⟨hv, hb⟩ := List.getElem?_zip_eq_some.1 hx
    exact h x b v hb hv

/-- The check of a list of values says what it should. -/
theorem isSatisfiedBy_iff (net : Network) (assignment : List Value) :
    net.isSatisfiedBy assignment = true ↔ net.IsSolution assignment := by
  unfold isSatisfiedBy
  rw [Bool.and_eq_true, Bool.and_eq_true, beq_iff_eq, List.isEmpty_iff,
    violatedConstraints_eq_nil_iff, all_in_bounds_iff]
  simp only [isSatisfiedBy_constraint_iff, Array.getElem?_toList]
  constructor
  · rintro ⟨⟨hlength, hbounds⟩, hallowed⟩
    exact ⟨hlength, hbounds, hallowed⟩
  · rintro ⟨hlength, hbounds, hallowed⟩
    exact ⟨⟨hlength, hbounds⟩, hallowed⟩

/-! ## §2. Assignments as functions. -/

/-- Every constraint allows the pair that the function gives to its ends. -/
def Solves (net : Network) (f : VariableId → Value) : Prop :=
  ∀ c ∈ net.constraints.toList, c.allows c.first (f c.first) (f c.second) = true

/-- A function that solves the network has an allowed pair at both ends of a constraint, whichever
end is asked. -/
theorem Solves.allows {net : Network} {f : VariableId → Value} (h : net.Solves f)
    {c : Constraint} (hc : c ∈ net.constraints.toList) {x y : VariableId} (hxy : c.Joins x y) :
    c.allows x (f x) (f y) = true := by
  rcases hxy with ⟨rfl, rfl⟩ | ⟨rfl, rfl⟩
  · exact h c hc
  · exact (Constraint.allows_comm (net.ends_ne hc) c.joins_ends _ _).1 (h c hc)

/-- The values of a function at the variables of a network, as a list. -/
theorem getElem?_map_range {n x : Nat} (f : VariableId → Value) (hx : x < n) :
    ((List.range n).map f)[x]? = some (f x) := by
  simp [hx]

/-- A function that solves the network and stays in its ranges makes a solution. -/
theorem isSolution_map_range {net : Network} {f : VariableId → Value} (hsolves : net.Solves f)
    (hbounds : ∀ (x : VariableId) (b : Bounds), net.bounds[x]? = some b →
      b.lower ≤ f x ∧ f x ≤ b.upper) :
    net.IsSolution ((List.range net.size).map f) := by
  refine ⟨by simp, ?_, ?_⟩
  · intro x b v hb hv
    have hx : x < net.size := (Array.getElem?_eq_some_iff.1 hb).1
    rw [getElem?_map_range f hx] at hv
    obtain rfl := Option.some.inj hv
    exact hbounds x b hb
  · intro c hc
    obtain ⟨h₁, h₂, _⟩ := net.endpoints_known c hc
    exact ⟨f c.first, f c.second, getElem?_map_range f h₁, getElem?_map_range f h₂,
      (c.allows_first _ _).1 (hsolves c hc)⟩

theorem IsSolution.eq_map_range {net : Network} {assignment : List Value}
    (h : net.IsSolution assignment) :
    (List.range net.size).map (fun x => assignment.getD x 0) = assignment := by
  apply List.ext_getElem?
  intro x
  by_cases hx : x < net.size
  · rw [getElem?_map_range _ hx, List.getD_eq_getElem?_getD,
      List.getElem?_eq_getElem (h.length_eq ▸ hx)]
    rfl
  · rw [List.getElem?_eq_none (by simpa using Nat.le_of_not_lt hx),
      List.getElem?_eq_none (h.length_eq ▸ Nat.le_of_not_lt hx)]

end Network

end ConstraintNet
