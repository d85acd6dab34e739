/-
  ConstraintNet.Proofs.Renaming
  ─────────────────────────────
  **PROPAGATION DOES NOT KNOW ITS VALUES BY NAME.**

  Let every value of a network be called by another name, different values
  by different names.  Which values support each other stays the same, and
  so does the number of values in a domain; nothing else decides what a
  propagation does.  So it does the same under the new names, in the same
  order and with the same counts.

  `rename` gives a domain, a constraint or a session the new names, and
  each operation on them commutes with it:

      `Network.Renamed.sharedConstraints_eq`  — the links between variables
      `revise?_rename`, `reviseFuture?_rename` — a revision
-/
import Mathlib.Data.List.Nodup
import Mathlib.Data.Prod.Basic
import Mathlib.Logic.Equiv.Defs
import ConstraintNet.Ordering
import ConstraintNet.Proofs.Revision

namespace ConstraintNet

variable (σ : Equiv.Perm Value)

/-! ## §1. Domains. -/

namespace Domain

/-- The set of the new names. -/
def rename (d : Domain) : Domain := ofList (d.values.map σ)

variable {σ} {d e : Domain} {v w : Value}

/-- A value belongs to a set when its new name belongs to the renamed one. -/
@[simp] theorem mem_rename : σ v ∈ d.rename σ ↔ v ∈ d := by
  rw [rename, mem_ofList, List.mem_map_of_injective σ.injective, mem_values]

/-- The members of the renamed set are the new names of members, and nothing else. -/
theorem mem_rename_iff : w ∈ d.rename σ ↔ ∃ v ∈ d, σ v = w := by
  rw [rename, mem_ofList, List.mem_map]
  simp only [mem_values]

/-- A set is the renamed one when it has the new names of its members. -/
theorem eq_rename (h : ∀ v, σ v ∈ e ↔ v ∈ d) : e = d.rename σ := by
  refine ext fun w => ?_
  rw [← σ.apply_symm_apply w, mem_rename]
  exact h _

/-- Different values have different names, so none is lost. -/
theorem size_rename : (d.rename σ).size = d.size := by
  have hnodup : (d.values.map σ).Nodup := List.Nodup.map σ.injective d.nodup
  have hperm : (d.rename σ).values.Perm (d.values.map σ) := by
    refine (List.perm_ext_iff_of_nodup (nodup _) hnodup).2 fun w => ?_
    rw [mem_values, rename, mem_ofList]
  rw [← length_values, hperm.length_eq, List.length_map, length_values]

/-- The renamed set is empty with the set itself. -/
theorem isEmpty_rename : (d.rename σ).isEmpty = d.isEmpty := by
  rw [Bool.eq_iff_iff, ← size_eq_zero_iff, ← size_eq_zero_iff, size_rename]

theorem contains_rename : (d.rename σ).contains (σ v) = d.contains v := by
  rw [Bool.eq_iff_iff, contains_iff, contains_iff, mem_rename]

theorem rename_singleton : (singleton v).rename σ = singleton (σ v) := by
  refine (eq_rename fun w => ?_).symm
  rw [mem_singleton, mem_singleton, σ.injective.eq_iff]

/-- Erase and rename, in whichever order. -/
theorem rename_erase : (d.erase v).rename σ = (d.rename σ).erase (σ v) := by
  refine (eq_rename fun w => ?_).symm
  rw [mem_erase, mem_erase, mem_rename, σ.injective.ne_iff]

/-- Insert and rename, in whichever order. -/
theorem rename_insert : (d.insert v).rename σ = (d.rename σ).insert (σ v) := by
  refine (eq_rename fun w => ?_).symm
  rw [mem_insert, mem_insert, mem_rename, σ.injective.eq_iff]

/-- A test on the new names that answers as the old one did on the values leaves the renamed
part. -/
theorem rename_filter {keep keep' : Value → Bool} (h : ∀ v, keep' (σ v) = keep v) :
    (d.filter keep).rename σ = (d.rename σ).filter keep' := by
  refine (eq_rename fun w => ?_).symm
  rw [mem_filter, mem_filter, mem_rename, h]

end Domain

/-! ## §2. Constraints. -/

namespace Constraint

/-- The constraint with the new names in its pairs. -/
def rename (c : Constraint) : Constraint :=
  ofTuples c.first c.second (c.tuples.map (Prod.map σ σ))

variable {σ} {c : Constraint} {x : VariableId} {a b : Value} {candidates domain : Domain}

/-- The allowed pairs are renamed at both ends. -/
theorem mem_tuples_rename : (σ a, σ b) ∈ (c.rename σ).tuples ↔ (a, b) ∈ c.tuples := by
  rw [rename, mem_tuples_ofTuples]
  have hinjective : Function.Injective (Prod.map σ σ) :=
    Function.Injective.prodMap σ.injective σ.injective
  exact List.mem_map_of_injective hinjective (a := (a, b))

/-- Which values support each other does not depend on their names. -/
theorem allows_rename : (c.rename σ).allows x (σ a) (σ b) = c.allows x a b := by
  rw [Bool.eq_iff_iff, allows_iff_mem_supports, allows_iff_mem_supports]
  unfold supports?
  rw [show (c.rename σ).endpoint? x = c.endpoint? x from rfl]
  cases c.endpoint? x with
  | none => simp
  | some endpoint =>
    cases endpoint with
    | first =>
      dsimp only
      rw [mem_forward, mem_forward, mem_tuples_rename]
    | second =>
      dsimp only
      rw [mem_backward, mem_backward, mem_tuples_rename]

/-- Neither does whether a value has a support among some candidates. -/
theorem hasSupport_rename :
    (c.rename σ).hasSupport x (candidates.rename σ) (σ a) = c.hasSupport x candidates a := by
  rw [Bool.eq_iff_iff, hasSupport_iff, hasSupport_iff]
  constructor
  · rintro ⟨w, hw, hallows⟩
    obtain ⟨b, hb, rfl⟩ := Domain.mem_rename_iff.1 hw
    exact ⟨b, hb, allows_rename ▸ hallows⟩
  · rintro ⟨b, hb, hallows⟩
    exact ⟨σ b, Domain.mem_rename.2 hb, allows_rename.trans hallows⟩

/-- What candidates leave of a domain is renamed with both. -/
theorem image_rename :
    (c.rename σ).image x (candidates.rename σ) (domain.rename σ) =
      (c.image x candidates domain).rename σ := by
  refine Domain.eq_rename fun v => ?_
  rw [mem_image_iff_allows, mem_image_iff_allows, Domain.mem_rename]
  refine and_congr_right fun _ => ?_
  constructor
  · rintro ⟨w, hw, hallows⟩
    obtain ⟨a, ha, rfl⟩ := Domain.mem_rename_iff.1 hw
    exact ⟨a, ha, allows_rename ▸ hallows⟩
  · rintro ⟨a, ha, hallows⟩
    exact ⟨σ a, Domain.mem_rename.2 ha, allows_rename.trans hallows⟩

end Constraint

/-! ## §3. Networks. -/

namespace Network

/-- The two networks have as many variables, and the constraints of the second are those of the
first with the new names. The ranges need not be. -/
structure Renamed (net net' : Network) : Prop where
  size_eq : net'.size = net.size
  constraints_eq : net'.constraints.toList = net.constraints.toList.map (Constraint.rename σ)

namespace Renamed

variable {σ} {net net' : Network} {x y : VariableId}

/-- The links of a variable come from the same entries. -/
theorem entries_eq (h : Renamed σ net net') (x : VariableId) :
    (net'.constraints.toList.zipIdx.filterMap fun (c, id) =>
        (c.other? x).map fun y => (y, id, c)) =
      (net.constraints.toList.zipIdx.filterMap fun (c, id) =>
        (c.other? x).map fun y => (y, id, c)).map
          fun entry => (entry.1, entry.2.1, entry.2.2.rename σ) := by
  rw [h.constraints_eq, List.zipIdx_map, List.filterMap_map, List.map_filterMap]
  refine List.filterMap_congr fun n _ => ?_
  show Option.map _ (n.1.other? x) = Option.map _ (Option.map _ (n.1.other? x))
  rw [Option.map_map]
  rfl

/-- The links of a network do not mention values, so the neighbours stay. -/
theorem neighbours?_eq (h : Renamed σ net net') : net'.neighbours? x = net.neighbours? x := by
  unfold neighbours?
  by_cases hx : x < net.size
  · rw [net.getElem?_links hx, net'.getElem?_links (h.size_eq ▸ hx), h.entries_eq x]
    show some (Grouping.distinct compare _) = some (Grouping.distinct compare _)
    rw [List.map_map]
    rfl
  · rw [net.getElem?_links_eq_none (Nat.le_of_not_lt hx),
      net'.getElem?_links_eq_none (h.size_eq ▸ Nat.le_of_not_lt hx)]

/-- Two variables share the same positions, now with renamed constraints. -/
theorem sharedConstraints_eq (h : Renamed σ net net') :
    net'.sharedConstraints x y =
      (net.sharedConstraints x y).map (Prod.map id (Constraint.rename σ)) := by
  unfold sharedConstraints
  by_cases hx : x < net.size
  · rw [net.getElem?_links hx, net'.getElem?_links (h.size_eq ▸ hx), h.entries_eq x]
    show (Grouping.byKey compare _).getD y [] = ((Grouping.byKey compare _).getD y []).map _
    rw [Grouping.getD_byKey, Grouping.getD_byKey, List.filter_map, List.map_map, List.map_map]
    rfl
  · rw [net.getElem?_links_eq_none (Nat.le_of_not_lt hx),
      net'.getElem?_links_eq_none (h.size_eq ▸ Nat.le_of_not_lt hx)]
    rfl

end Renamed

end Network

/-! ## §4. Sessions. -/

namespace Session

/-- The session with the new names everywhere. -/
def rename (s : Session) : Session :=
  { s with
    domains := s.domains.map (Domain.rename σ)
    assignment := s.assignment.map (Option.map σ)
    checkpoints := s.checkpoints.map (Array.map (Domain.rename σ))
    depth_eq := by rw [List.length_map, s.depth_eq]
    solution := s.solution.map (List.map σ) }

variable {σ} {s : Session} {x : VariableId} {v : Value} {d : Domain}

/-- The domain of a variable is looked up in the renamed session as before. -/
theorem domain?_rename : (s.rename σ).domain? x = (s.domain? x).map (Domain.rename σ) :=
  Array.getElem?_map

/-- What is possible for a variable are the new names of what was. -/
theorem dom_rename : (s.rename σ).dom x = (s.dom x).rename σ := by
  unfold dom
  rw [domain?_rename]
  cases s.domain? x with
  | none => rfl
  | some d => rfl

/-- A renamed session has decided the same variables. -/
theorem isAssigned?_rename : (s.rename σ).isAssigned? x = s.isAssigned? x := by
  unfold isAssigned?
  show ((s.assignment.map (Option.map σ))[x]?).map Option.isSome = _
  rw [Array.getElem?_map, Option.map_map]
  refine congrArg (Option.map · _) (funext fun value => ?_)
  exact Option.isSome_map

/-- Replace a domain and rename, in whichever order. -/
theorem rename_setDomain : (s.setDomain x d).rename σ = (s.rename σ).setDomain x (d.rename σ) := by
  unfold rename setDomain
  simp only [Array.map_setIfInBounds]

/-- A decision for a value becomes the decision for its new name. -/
theorem assign?_rename :
    (s.rename σ).assign? x (σ v) = (s.assign? x v).map (Session.rename σ) := by
  unfold assign?
  rw [show (s.rename σ).domains.size = s.domains.size from Array.size_map,
    show (s.rename σ).assignment.size = s.assignment.size from Array.size_map]
  split
  · unfold rename
    simp only [Option.map_some, Array.map_setIfInBounds, Domain.rename_singleton]
  · rfl

/-- A decision is withdrawn under the new names as under the old ones. -/
theorem unassign?_rename :
    (s.rename σ).unassign? x = (s.unassign? x).map (Session.rename σ) := by
  unfold unassign?
  rw [show (s.rename σ).assignment.size = s.assignment.size from Array.size_map]
  split
  · unfold rename
    simp only [Option.map_some, Array.map_setIfInBounds, Option.map_none]
  · rfl

/-- A value goes under its new name, and it was there or not, as before. -/
theorem removeValue?_rename :
    (s.rename σ).removeValue? x (σ v) =
      (s.removeValue? x v).map (Prod.map id (Session.rename σ)) := by
  unfold removeValue?
  rw [domain?_rename]
  cases s.domain? x with
  | none => rfl
  | some d =>
    simp only [Option.map_some, Prod.map, Domain.contains_rename, rename_setDomain,
      Domain.rename_erase, id]

/-- A value comes back under its new name, and it was missing or not, as before. -/
theorem insertValue?_rename :
    (s.rename σ).insertValue? x (σ v) =
      (s.insertValue? x v).map (Prod.map id (Session.rename σ)) := by
  unfold insertValue?
  rw [domain?_rename]
  cases s.domain? x with
  | none => rfl
  | some d =>
    simp only [Option.map_some, Prod.map, Domain.contains_rename, rename_setDomain,
      Domain.rename_insert, id]

/-- Checkpoints hold the renamed domains. -/
theorem rename_checkpoint : s.checkpoint.rename σ = (s.rename σ).checkpoint := rfl

/-- A renamed checkpoint restores the renamed domains. -/
theorem restore?_rename : (s.rename σ).restore? = s.restore?.map (Session.rename σ) := by
  obtain ⟨domains, assignment, checkpoints⟩ := s
  cases checkpoints with
  | nil => rfl
  | cons => rfl

theorem isComplete_rename : (s.rename σ).isComplete = s.isComplete := by
  unfold isComplete
  show (s.assignment.map (Option.map σ)).all Option.isSome = _
  rw [Array.all_map]
  refine congrArg (s.assignment.all ·) (funext fun value => ?_)
  exact Option.isSome_map

/-- A complete assignment has the new names of its values, variable by variable. -/
theorem completeAssignment?_rename :
    (s.rename σ).completeAssignment? = s.completeAssignment?.map (List.map σ) := by
  unfold completeAssignment?
  rw [isComplete_rename]
  split
  · show some ((s.assignment.map (Option.map σ)).toList.filterMap id) = some (List.map σ _)
    rw [Array.toList_map, List.filterMap_map, List.map_filterMap]
    rfl
  · rfl

/-- The solution that is recorded has the new names. -/
theorem rename_recordSolution : s.recordSolution.rename σ = (s.rename σ).recordSolution := by
  unfold recordSolution
  rw [completeAssignment?_rename]
  rfl

/-- Sizes of domains do not depend on names, so the smallest one is found at the same place. -/
theorem smallestDomain?_rename (s : Session) :
    ∀ (rest : List VariableId) (best : VariableId) (size : Nat),
      smallestDomain? (s.rename σ) best size rest = smallestDomain? s best size rest
  | [], _, _ => rfl
  | x :: rest, best, size => by
      unfold smallestDomain?
      rw [domain?_rename]
      cases s.domain? x with
      | none => rfl
      | some d =>
        dsimp only [Option.map_some]
        rw [Domain.size_rename, smallestDomain?_rename s rest, smallestDomain?_rename s rest]

/-- The choice of a variable looks at the number of values only. -/
theorem select?_rename (ordering : VariableOrdering) (remaining : List VariableId) :
    ordering.select? (s.rename σ) remaining = ordering.select? s remaining := by
  cases remaining with
  | nil => rfl
  | cons first rest =>
    unfold VariableOrdering.select?
    dsimp only
    rw [domain?_rename]
    cases s.domain? first with
    | none => rfl
    | some d =>
      dsimp only [Option.map_some]
      rw [Domain.size_rename, smallestDomain?_rename]

end Session

/-! ## §5. Revisions. -/

variable {σ} {net net' : Network} {s : Session}

/-- By induction on the shared constraints, of which each takes the unsupported values out under
their new names and is charged for as many. -/
theorem keepSupported_rename (σ : Equiv.Perm Value) (target : VariableId) (candidates : Domain) :
    ∀ (shared : List (ConstraintId × Constraint)) (domain : Domain) (stats : Statistics),
      keepSupported target (candidates.rename σ) (shared.map (Prod.map id (Constraint.rename σ)))
          (domain.rename σ) stats =
        Prod.map (Domain.rename σ) id (keepSupported target candidates shared domain stats)
  | [], _, _ => rfl
  | (id, c) :: rest, domain, stats => by
      have hkept : (domain.filter (c.hasSupport target candidates)).rename σ =
          (domain.rename σ).filter ((c.rename σ).hasSupport target (candidates.rename σ)) :=
        Domain.rename_filter fun _ => Constraint.hasSupport_rename
      rw [List.map_cons]
      unfold keepSupported
      dsimp only [Prod.map]
      rw [← hkept, Domain.size_rename, Domain.size_rename]
      exact keepSupported_rename σ target candidates rest _ _

/-- **A revision under the new names.** -/
theorem revise?_rename (h : net.Renamed σ net') (arc : Arc) :
    revise? net' (s.rename σ) arc = (revise? net s arc).map (Prod.map id (Session.rename σ)) := by
  unfold revise?
  rw [Session.domain?_rename, Session.domain?_rename, h.sharedConstraints_eq]
  cases s.domain? arc.target with
  | none => rfl
  | some domain =>
    cases s.domain? arc.support with
    | none => rfl
    | some candidates =>
      dsimp only [Option.map_some]
      rw [show (s.rename σ).stats = s.stats from rfl, keepSupported_rename]
      generalize keepSupported arc.target candidates _ domain s.stats.countRevision = answer
      obtain ⟨kept, stats⟩ := answer
      simp only [Prod.map, id, Domain.isEmpty_rename, Domain.size_rename]
      rw [← Session.rename_setDomain]
      rfl

/-- The same for the image of the candidates: the constraint at which nothing is left is the same
one. -/
theorem keepImage_rename (σ : Equiv.Perm Value) (var : VariableId) (candidates : Domain) :
    ∀ (shared : List (ConstraintId × Constraint)) (domain : Domain) (stats : Statistics),
      keepImage var (candidates.rename σ) (shared.map (Prod.map id (Constraint.rename σ)))
          (domain.rename σ) stats =
        Prod.map id (Prod.map (Domain.rename σ) id)
          (keepImage var candidates shared domain stats)
  | [], _, _ => rfl
  | (id, c) :: rest, domain, stats => by
      rw [List.map_cons]
      unfold keepImage
      dsimp only [Prod.map]
      rw [Constraint.image_rename, Domain.isEmpty_rename, Domain.size_rename, Domain.size_rename]
      split
      · rfl
      · exact keepImage_rename σ var candidates rest _ _

/-- **A revision of a future variable under the new names.** -/
theorem reviseFuture?_rename (h : net.Renamed σ net') (var future : VariableId) :
    reviseFuture? net' (s.rename σ) var future =
      (reviseFuture? net s var future).map (Prod.map id (Session.rename σ)) := by
  -- The shared constraints are the renamed ones in the same order, so the same ones are
  -- intersected.
  have hshared' := h.sharedConstraints_eq (x := var) (y := future)
  unfold reviseFuture?
  cases hshared : net.sharedConstraints var future with
  | nil =>
    rw [hshared, List.map_nil] at hshared'
    rw [hshared']
    rfl
  | cons entry rest =>
    rw [hshared, List.map_cons] at hshared'
    rw [hshared', Session.domain?_rename, Session.domain?_rename]
    dsimp only
    cases s.domain? var with
    | none => rfl
    | some candidates =>
      cases s.domain? future with
      | none => rfl
      | some domain =>
        have himage :=
          keepImage_rename σ var candidates (entry :: rest) domain s.stats.countRevision
        rw [List.map_cons] at himage
        dsimp only [Option.map_some]
        rw [show (s.rename σ).stats = s.stats from rfl, himage]
        generalize keepImage var candidates (entry :: rest) domain s.stats.countRevision = answer
        obtain ⟨consistent, kept, stats⟩ := answer
        dsimp only [Prod.map]
        rw [← Session.rename_setDomain]
        rfl

end ConstraintNet
