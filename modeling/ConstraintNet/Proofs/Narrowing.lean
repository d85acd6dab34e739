/-
  ConstraintNet.Proofs.Narrowing
  ──────────────────────────────
  **SESSIONS THAT LOSE VALUES AND NOTHING ELSE.**

  `s.dom x` is what is still possible for `x`; a variable that the session
  does not have has the empty domain.  Propagation relates two sessions by
  `Narrows`: the domains of the second are parts of those of the first, and
  apart from domains and counters the two are the same.

  Two notions say what a session stands for:

      s.Admits net f   — `f` solves the network and takes only values that
                         are still possible
      s.Nonempty       — every variable can still take a value

  A narrower session admits no more than a wider one
  (`Narrows.admits_of_admits`), and one with an empty domain admits nothing
  (`not_admits_of_empty`).
-/
import Mathlib.Data.List.Perm.Subperm
import ConstraintNet.Propagation.Revision
import ConstraintNet.Proofs.Assignment

namespace ConstraintNet

/-! ## §1. Parts of domains. -/

namespace Domain

variable {d e : Domain}

/-- A part has no more members than the whole. -/
theorem size_le_of_subset (h : ∀ v, v ∈ d → v ∈ e) : d.size ≤ e.size := by
  rw [← length_values, ← length_values]
  refine (List.subperm_of_subset d.nodup ?_).length_le
  intro v hv
  exact mem_values.2 (h v (mem_values.1 hv))

/-- A part that is not smaller is the whole. -/
theorem eq_of_subset_of_size_le (h : ∀ v, v ∈ d → v ∈ e) (hsize : e.size ≤ d.size) : d = e := by
  have hsub : d.values.Subperm e.values := by
    refine List.subperm_of_subset d.nodup ?_
    intro v hv
    exact mem_values.2 (h v (mem_values.1 hv))
  have hperm := hsub.perm_of_length_le (by rw [length_values, length_values]; exact hsize)
  refine ext fun v => ?_
  rw [← mem_values, hperm.mem_iff, mem_values]

/-- A set is not empty when it has a member. -/
theorem isEmpty_eq_false_iff : d.isEmpty = false ↔ ∃ v, v ∈ d := by
  rw [← Bool.not_eq_true, isEmpty_eq_true_iff]
  simp

end Domain

namespace Session

variable {net : Network} {s s' s'' : Session} {x y : VariableId} {v : Value}

/-! ## §2. The domains of a session. -/

/-- What is still possible for a variable. -/
def dom (s : Session) (x : VariableId) : Domain := (s.domain? x).getD ∅

/-- The domain of a variable that the session has is what is possible for it. -/
theorem domain?_eq_some (hx : x < s.domains.size) : s.domain? x = some (s.dom x) := by
  unfold dom domain?
  rw [Array.getElem?_eq_getElem hx]
  rfl

/-- Only variables that the session has have possible values. -/
theorem lt_size_of_mem_dom (h : v ∈ s.dom x) : x < s.domains.size := by
  rcases Nat.lt_or_ge x s.domains.size with hx | hx
  · exact hx
  · unfold dom domain? at h
    rw [Array.getElem?_eq_none hx] at h
    exact absurd h (Domain.not_mem_empty v)

/-- A domain that is found is what is possible for its variable. -/
theorem dom_of_domain? {d : Domain} (h : s.domain? x = some d) : s.dom x = d := by
  unfold dom
  rw [h]
  rfl

/-- Two sessions with the same domains, which is all that `dom` reads. -/
theorem dom_congr (h : s'.domains = s.domains) (x : VariableId) : s'.dom x = s.dom x := by
  unfold dom domain?
  rw [h]

/-- Sessions with as many variables and the same possibilities have the same domains. -/
theorem domains_ext (hsize : s'.domains.size = s.domains.size) (hdom : ∀ x, s'.dom x = s.dom x) :
    s'.domains = s.domains := by
  apply Array.ext_getElem?
  intro x
  rcases Nat.lt_or_ge x s.domains.size with hx | hx
  · show s'.domain? x = s.domain? x
    rw [domain?_eq_some hx, domain?_eq_some (hsize ▸ hx), hdom]
  · rw [Array.getElem?_eq_none hx, Array.getElem?_eq_none (hsize ▸ hx)]

/-- A domain that was replaced is the new one. -/
theorem dom_setDomain_self (d : Domain) (hx : x < s.domains.size) :
    (s.setDomain x d).dom x = d := by
  refine dom_of_domain? ?_
  show (s.domains.setIfInBounds x d)[x]? = some d
  rw [Array.getElem?_setIfInBounds_self, if_pos hx]

/-- All others stay. -/
theorem dom_setDomain_of_ne (d : Domain) (h : y ≠ x) :
    (s.setDomain x d).dom y = s.dom y := by
  unfold dom
  show ((s.domains.setIfInBounds x d)[y]?).getD ∅ = _
  rw [Array.getElem?_setIfInBounds_ne h.symm]
  rfl

theorem size_setDomain (s : Session) (x : VariableId) (d : Domain) :
    (s.setDomain x d).domains.size = s.domains.size :=
  Array.size_setIfInBounds

/-! ## §3. Narrower sessions. -/

/-- `s'` has come from `s` by removing values and counting. -/
structure Narrows (s s' : Session) : Prop where
  size_eq : s'.domains.size = s.domains.size
  subset : ∀ x v, v ∈ s'.dom x → v ∈ s.dom x
  assignment_eq : s'.assignment = s.assignment
  checkpoints_eq : s'.checkpoints = s.checkpoints
  highWater_eq : s'.highWater = s.highWater
  solution_eq : s'.solution = s.solution
  finished_eq : s'.finished = s.finished

/-- A session is no wider than itself. -/
theorem Narrows.refl (s : Session) : s.Narrows s :=
  ⟨rfl, fun _ _ h => h, rfl, rfl, rfl, rfl, rfl⟩

/-- Narrowing twice is narrowing. -/
theorem Narrows.trans (h : s.Narrows s') (h' : s'.Narrows s'') : s.Narrows s'' where
  size_eq := h'.size_eq.trans h.size_eq
  subset x v hv := h.subset x v (h'.subset x v hv)
  assignment_eq := h'.assignment_eq.trans h.assignment_eq
  checkpoints_eq := h'.checkpoints_eq.trans h.checkpoints_eq
  highWater_eq := h'.highWater_eq.trans h.highWater_eq
  solution_eq := h'.solution_eq.trans h.solution_eq
  finished_eq := h'.finished_eq.trans h.finished_eq

/-- New counters alone narrow nothing, and that is allowed. -/
theorem narrows_withStats (s : Session) (stats : Statistics) : s.Narrows (s.withStats stats) :=
  ⟨rfl, fun _ _ h => h, rfl, rfl, rfl, rfl, rfl⟩

/-- Putting a part of a domain in its place narrows the session. -/
theorem narrows_setDomain {d : Domain} (h : ∀ v, v ∈ d → v ∈ s.dom x) :
    s.Narrows (s.setDomain x d) := by
  refine ⟨size_setDomain s x d, ?_, rfl, rfl, rfl, rfl, rfl⟩
  intro y v hv
  have hy : y < s.domains.size := size_setDomain s x d ▸ lt_size_of_mem_dom hv
  by_cases hyx : y = x
  · subst hyx
    rw [dom_setDomain_self d hy] at hv
    exact h v hv
  · rwa [dom_setDomain_of_ne d hyx] at hv

/-- The number of possible values, summed variable by variable. -/
theorem totalSize_eq_total (s : Session) :
    s.totalSize = total (fun x => (s.dom x).size) (List.range s.domains.size) := by
  have hdoms : s.domains.toList = (List.range s.domains.size).map s.dom := by
    apply List.ext_getElem?
    intro x
    rw [List.getElem?_map, Array.getElem?_toList]
    rcases Nat.lt_or_ge x s.domains.size with hx | hx
    · rw [List.getElem?_range hx]
      exact domain?_eq_some hx
    · rw [Array.getElem?_eq_none hx, List.getElem?_eq_none (by simpa using hx)]
      rfl
  unfold totalSize
  rw [hdoms, total_map]

/-- Smaller domains have no more values together. -/
theorem totalSize_le_of_subset (hsize : s'.domains.size = s.domains.size)
    (hsub : ∀ x v, v ∈ s'.dom x → v ∈ s.dom x) : s'.totalSize ≤ s.totalSize := by
  rw [totalSize_eq_total, totalSize_eq_total, hsize]
  exact total_le_total fun x _ => Domain.size_le_of_subset (hsub x)

/-- Sessions with parts of the domains have fewer values when one is missing. -/
theorem totalSize_lt_of_subset (hsize : s'.domains.size = s.domains.size)
    (hsub : ∀ x v, v ∈ s'.dom x → v ∈ s.dom x) (hv : v ∈ s.dom x) (hlost : v ∉ s'.dom x) :
    s'.totalSize < s.totalSize := by
  rw [totalSize_eq_total, totalSize_eq_total, hsize]
  refine total_lt_total (fun y _ => Domain.size_le_of_subset (hsub y))
    (List.mem_range.2 (lt_size_of_mem_dom hv)) ?_
  rcases Nat.lt_or_ge (s'.dom x).size (s.dom x).size with hlt | hge
  · exact hlt
  · rw [← Domain.eq_of_subset_of_size_le (hsub x) hge] at hv
    exact absurd hv hlost

/-! ## §4. Possible solutions. -/

/-- The function solves the network with values that are still possible. -/
def Admits (net : Network) (s : Session) (f : VariableId → Value) : Prop :=
  net.Solves f ∧ ∀ x < net.size, f x ∈ s.dom x

/-- **A narrower session admits no more.** -/
theorem Narrows.admits_of_admits (h : s.Narrows s') {f : VariableId → Value}
    (hf : s'.Admits net f) : s.Admits net f :=
  ⟨hf.1, fun x hx => h.subset x (f x) (hf.2 x hx)⟩

/-- **A session with an empty domain admits nothing**: the variable has no value to take. -/
theorem not_admits_of_empty (hx : x < net.size) (hempty : ∀ v, v ∉ s.dom x)
    (f : VariableId → Value) : ¬ s.Admits net f :=
  fun hf => hempty (f x) (hf.2 x hx)

/-- Every variable of the network can still take a value. -/
def Nonempty (net : Network) (s : Session) : Prop := ∀ x < net.size, ∃ v, v ∈ s.dom x

end Session

end ConstraintNet
