/-
  ConstraintNet.Proofs.RenamedPropagation
  ───────────────────────────────────────
  **A PROPAGATION UNDER NEW NAMES.**

  Which arcs a propagation queues depends on the ends of the constraints and
  on what the revisions before have reported, and neither changes with the
  names of the values.  So a propagation of the renamed session takes the
  same steps and leaves the renamed result:

      `ArcConsistency.drain?_rename`       — the loop of arc consistency
      `ForwardChecking.propagate?_rename`  — forward checking
      `Settings.prepare?_rename`           — before the first decision
      `Settings.propagate?_rename`         — after a decision
-/
import ConstraintNet.Proofs.ArcConsistency
import ConstraintNet.Proofs.Renaming
import ConstraintNet.Propagation

namespace ConstraintNet

/-- The result with the new names. -/
def Propagated.rename (σ : Equiv.Perm Value) (result : Propagated) : Propagated :=
  { result with session := result.session.rename σ }

variable {σ : Equiv.Perm Value} {net net' : Network}

/-! ## §1. Arc consistency. -/

namespace ArcConsistency

/-- Which arcs wait again is seen in the links and in the variables that constraints bind. -/
theorem requeue?_rename (h : net.Renamed σ net') (policy : RequeuePolicy) (queue : ArcQueue)
    (arc : Arc) : requeue? net' policy queue arc = requeue? net policy queue arc := by
  cases policy with
  | symmetric =>
    unfold requeue?
    rw [h.neighbours?_eq]
  | legacy =>
    unfold requeue? requeueByScan
    rw [← Array.foldl_toList, ← Array.foldl_toList, h.constraints_eq, List.foldl_map]
    rfl

theorem seedAll_rename (h : net.Renamed σ net') (queue : ArcQueue) :
    seedAll net' queue = seedAll net queue := by
  unfold seedAll
  rw [← Array.foldl_toList, ← Array.foldl_toList, h.constraints_eq, List.foldl_map]
  rfl

theorem seedChanged?_rename (h : net.Renamed σ net') (policy : RequeuePolicy) (queue : ArcQueue)
    (changed : VariableId) :
    seedChanged? net' policy queue changed = seedChanged? net policy queue changed := by
  unfold seedChanged?
  rw [h.neighbours?_eq]

/-- **The loop of arc consistency under the new names.** The induction is on the steps under the old
ones, each of which has its counterpart. -/
theorem drain?_rename (h : net.Renamed σ net') (policy : RequeuePolicy) (queue : ArcQueue)
    (s : Session) : drain? net' policy queue (s.rename σ) =
      (drain? net policy queue s).map (Propagated.rename σ) := by
  -- One turn at a time: the renamed queue holds the same arcs, so both sides pop, revise and
  -- requeue alike.
  fun_induction drain? net policy queue s with
  | case1 queue s hpop =>
    rw [drain?_eq]
    simp only [hpop]
    rfl
  | case2 queue s arc rest hpop hrev =>
    rw [drain?_eq]
    simp only [hpop, revise?_rename h, hrev]
    rfl
  | case3 queue s arc rest hpop s' hrev ih =>
    rw [drain?_eq]
    simp only [hpop, revise?_rename h, hrev]
    exact ih
  | case4 queue s arc rest hpop s' hrev =>
    rw [drain?_eq]
    simp only [hpop, revise?_rename h, hrev]
    rfl
  | case5 queue s arc rest hpop s' hrev hreq =>
    rw [drain?_eq]
    simp only [hpop, revise?_rename h, hrev, Option.map_some, Prod.map, id, requeue?_rename h, hreq]
    rfl
  | case6 queue s arc rest hpop s' hrev queue' hreq ih =>
    rw [drain?_eq]
    simp only [hpop, revise?_rename h, hrev, Option.map_some, Prod.map, id, requeue?_rename h, hreq]
    exact ih

/-- A full pass does the same under the new names. -/
theorem establish?_rename (h : net.Renamed σ net') (policy : RequeuePolicy) (queue : ArcQueue)
    (s : Session) : establish? net' policy queue (s.rename σ) =
      (establish? net policy queue s).map (Propagated.rename σ) := by
  unfold establish?
  rw [seedAll_rename h, drain?_rename h]

/-- So does a pass after a decision. -/
theorem propagate?_rename (h : net.Renamed σ net') (policy : RequeuePolicy) (queue : ArcQueue)
    (s : Session) (changed : VariableId) : propagate? net' policy queue (s.rename σ) changed =
      (propagate? net policy queue s changed).map (Propagated.rename σ) := by
  unfold propagate?
  rw [seedChanged?_rename h]
  cases seedChanged? net policy queue changed with
  | none => rfl
  | some queue' => exact drain?_rename h policy queue' s

end ArcConsistency

/-! ## §2. Forward checking. -/

/-- **Forward checking under the new names.** -/
theorem ForwardChecking.propagate?_rename (h : net.Renamed σ net') (s : Session)
    (changed : VariableId) (undecided : List VariableId) :
    propagate? net' (s.rename σ) changed undecided =
      (propagate? net s changed undecided).map (Prod.map id (Session.rename σ)) := by
  induction undecided generalizing s with
  | nil => rfl
  | cons future rest ih =>
    unfold propagate?
    rw [Session.isAssigned?_rename, h.sharedConstraints_eq, List.isEmpty_map,
      reviseFuture?_rename h]
    -- Whether a neighbour is passed over does not depend on the order in which a constraint names
    -- its ends.
    by_cases hchanged : future = changed
    · rw [if_pos hchanged, if_pos hchanged]
      exact ih s
    · rw [if_neg hchanged, if_neg hchanged]
      cases s.isAssigned? future with
      | none => rfl
      | some assigned =>
        cases assigned with
        | true => exact ih s
        | false =>
          by_cases hshared : (net.sharedConstraints changed future).isEmpty = true
          · simp only [if_pos hshared]
            exact ih s
          · simp only [if_neg hshared]
            cases reviseFuture? net s changed future with
            | none => rfl
            | some answer =>
              obtain ⟨consistent, s'⟩ := answer
              cases consistent with
              | false => rfl
              | true => exact ih s'

/-! ## §3. All settings. -/

namespace Settings

variable (settings : Settings)

/-- **The propagation before the first decision under the new names.** -/
theorem prepare?_rename (h : net.Renamed σ net') (queue : ArcQueue) (s : Session) :
    settings.prepare? net' queue (s.rename σ) =
      (settings.prepare? net queue s).map (Propagated.rename σ) := by
  unfold prepare?
  cases settings.algorithm with
  | forwardChecking => rfl
  | maintainingArcConsistency =>
    exact ArcConsistency.establish?_rename h settings.requeuePolicy ∅ s

/-- **The propagation after a decision under the new names.** -/
theorem propagate?_rename (h : net.Renamed σ net') (queue : ArcQueue) (s : Session)
    (changed : VariableId) (undecided : List VariableId) :
    settings.propagate? net' queue (s.rename σ) changed undecided =
      (settings.propagate? net queue s changed undecided).map (Propagated.rename σ) := by
  unfold propagate?
  cases settings.algorithm with
  | forwardChecking =>
    dsimp only
    rw [ForwardChecking.propagate?_rename h, Option.map_map, Option.map_map]
    rfl
  | maintainingArcConsistency =>
    exact ArcConsistency.propagate?_rename h settings.requeuePolicy queue s changed

end Settings

end ConstraintNet
