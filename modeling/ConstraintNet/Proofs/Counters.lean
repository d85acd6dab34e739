/-
  ConstraintNet.Proofs.Counters
  ─────────────────────────────
  **WHO COUNTS WHAT.**

  Nodes and backtracks are counted by the search alone, and the depth by its
  checkpoints.  What happens in between is `Quiet`:

      `Settings.quiet_of_propagate?`      — a propagation counts its revisions
                                            and tallies its constraints, no
                                            more
      `Session.sameRecord_of_assign?`, …  — a decision and its withdrawal count
                                            nothing at all

  So the counters after a call are those before it and what the calls inside
  have added.
-/
import ConstraintNet.Propagation

namespace ConstraintNet

/-! ## §1. Quiet steps. -/

/-- From `stats` to `stats'` neither nodes nor backtracks were counted, nor the depth of a
checkpoint. -/
structure Statistics.Quiet (stats stats' : Statistics) : Prop where
  nodes_eq : stats'.nodes = stats.nodes
  backtracks_eq : stats'.backtracks = stats.backtracks
  maxDepth_eq : stats'.maxDepth = stats.maxDepth

namespace Statistics

variable {stats stats' stats'' : Statistics}

/-- Without a step nothing is counted. -/
theorem Quiet.refl (stats : Statistics) : stats.Quiet stats := ⟨rfl, rfl, rfl⟩

/-- Two quiet steps make one. -/
theorem Quiet.trans (h : stats.Quiet stats') (h' : stats'.Quiet stats'') : stats.Quiet stats'' :=
  ⟨h'.nodes_eq.trans h.nodes_eq, h'.backtracks_eq.trans h.backtracks_eq,
    h'.maxDepth_eq.trans h.maxDepth_eq⟩

theorem Quiet.symm (h : stats.Quiet stats') : stats'.Quiet stats :=
  ⟨h.nodes_eq.symm, h.backtracks_eq.symm, h.maxDepth_eq.symm⟩

/-- Revisions are counted apart from nodes, backtracks and depth. -/
theorem quiet_countRevision (stats : Statistics) : stats.Quiet stats.countRevision :=
  ⟨rfl, rfl, rfl⟩

/-- So are the uses of constraints. -/
theorem quiet_recordUse (stats : Statistics) (id : ConstraintId) (pruned : Nat) :
    stats.Quiet (stats.recordUse id pruned) :=
  ⟨rfl, rfl, rfl⟩

end Statistics

/-! ## §2. Revisions. -/

/-- By induction on the shared constraints: each of them records a use at most. -/
theorem quiet_keepSupported (target : VariableId) (candidates : Domain) :
    ∀ (shared : List (ConstraintId × Constraint)) (domain : Domain) (stats : Statistics),
      stats.Quiet (keepSupported target candidates shared domain stats).2
  | [], _, stats => .refl stats
  | (id, _) :: rest, _, stats =>
      (stats.quiet_recordUse id _).trans (quiet_keepSupported target candidates rest _ _)

/-- An arc revision is quiet. -/
theorem quiet_of_revise? {net : Network} {s s' : Session} {arc : Arc} {outcome : Revision}
    (h : revise? net s arc = some (outcome, s')) : s.stats.Quiet s'.stats := by
  unfold revise? at h
  split at h
  next domain candidates _ _ =>
    simp only [Option.some.injEq, Prod.mk.injEq] at h
    obtain ⟨_, rfl⟩ := h
    exact s.stats.quiet_countRevision.trans (quiet_keepSupported _ candidates _ domain _)
  next => cases h

/-- Within a revision the constraints are charged, and no further revision is counted. -/
theorem revisions_keepSupported (target : VariableId) (candidates : Domain) :
    ∀ (shared : List (ConstraintId × Constraint)) (domain : Domain) (stats : Statistics),
      (keepSupported target candidates shared domain stats).2.revisions = stats.revisions
  | [], _, _ => rfl
  | _ :: rest, _, _ => revisions_keepSupported target candidates rest _ _

/-- A revision counts once, however many constraints take part in it. -/
theorem revisions_of_revise? {net : Network} {s s' : Session} {arc : Arc} {outcome : Revision}
    (h : revise? net s arc = some (outcome, s')) : s'.stats.revisions = s.stats.revisions + 1 := by
  unfold revise? at h
  split at h
  next domain candidates _ _ =>
    obtain ⟨_, rfl⟩ := Prod.mk.inj (Option.some.inj h)
    exact revisions_keepSupported _ candidates _ domain _
  next => cases h

/-- The same loop over the images is quiet, wherever it stops. -/
theorem quiet_keepImage (var : VariableId) (candidates : Domain) :
    ∀ (shared : List (ConstraintId × Constraint)) (domain : Domain) (stats : Statistics),
      stats.Quiet (keepImage var candidates shared domain stats).2.2
  | [], _, stats => .refl stats
  | (id, c) :: rest, domain, stats => by
      have hrecorded := stats.quiet_recordUse id
        (domain.size - (c.image var candidates domain).size)
      unfold keepImage
      dsimp only
      split
      · exact hrecorded
      · exact hrecorded.trans (quiet_keepImage var candidates rest _ _)

/-- And it counts no further revision. -/
theorem revisions_keepImage (var : VariableId) (candidates : Domain) :
    ∀ (shared : List (ConstraintId × Constraint)) (domain : Domain) (stats : Statistics),
      (keepImage var candidates shared domain stats).2.2.revisions = stats.revisions
  | [], _, _ => rfl
  | (id, c) :: rest, domain, stats => by
      unfold keepImage
      dsimp only
      split
      · rfl
      · exact revisions_keepImage var candidates rest _ _

/-- Revision set by set counts once, too. -/
theorem revisions_of_reviseFuture? {net : Network} {s s' : Session} {var future : VariableId}
    {consistent : Bool} (h : reviseFuture? net s var future = some (consistent, s')) :
    s'.stats.revisions = s.stats.revisions + 1 := by
  unfold reviseFuture? at h
  split at h
  next =>
    obtain ⟨_, rfl⟩ := Prod.mk.inj (Option.some.inj h)
    rfl
  next =>
    split at h
    next candidates domain _ _ =>
      obtain ⟨_, rfl⟩ := Prod.mk.inj (Option.some.inj h)
      exact revisions_keepImage var candidates _ domain _
    next => cases h

/-- A revision set by set is quiet. -/
theorem quiet_of_reviseFuture? {net : Network} {s s' : Session} {var future : VariableId}
    {consistent : Bool} (h : reviseFuture? net s var future = some (consistent, s')) :
    s.stats.Quiet s'.stats := by
  unfold reviseFuture? at h
  split at h
  next =>
    simp only [Option.some.injEq, Prod.mk.injEq] at h
    obtain ⟨_, rfl⟩ := h
    exact s.stats.quiet_countRevision
  next =>
    split at h
    next candidates domain _ _ =>
      simp only [Option.some.injEq, Prod.mk.injEq] at h
      obtain ⟨_, rfl⟩ := h
      exact s.stats.quiet_countRevision.trans (quiet_keepImage var candidates _ domain _)
    next => cases h

/-! ## §3. Propagation. -/

/-- By induction on the turns: draining a queue is one quiet revision after another. -/
theorem ArcConsistency.quiet_of_drain? {net : Network} {policy : RequeuePolicy} {queue : ArcQueue}
    {s : Session} {result : Propagated} (h : drain? net policy queue s = some result) :
    s.stats.Quiet result.session.stats := by
  fun_induction drain? net policy queue s with
  | case1 queue s =>
    obtain rfl := Option.some.inj h
    exact .refl s.stats
  | case2 => cases h
  | case3 queue s arc rest _ s' hrev ih => exact (quiet_of_revise? hrev).trans (ih h)
  | case4 queue s arc rest _ s' hrev =>
    obtain rfl := Option.some.inj h
    exact quiet_of_revise? hrev
  | case5 => cases h
  | case6 queue s arc rest _ s' hrev queue' _ ih => exact (quiet_of_revise? hrev).trans (ih h)

/-- Forward checking is one quiet revision after another. -/
theorem ForwardChecking.quiet_of_propagate? {net : Network} {s s' : Session}
    {changed : VariableId} {undecided : List VariableId} {consistent : Bool}
    (h : propagate? net s changed undecided = some (consistent, s')) :
    s.stats.Quiet s'.stats := by
  fun_induction propagate? net s changed undecided with
  | case1 s =>
    simp only [Option.some.injEq, Prod.mk.injEq] at h
    exact h.2 ▸ .refl s.stats
  | case2 s rest ih => exact ih h
  | case3 => cases h
  | case4 s future rest _ _ ih => exact ih h
  | case5 s future rest _ _ _ ih => exact ih h
  | case6 => cases h
  | case7 s future rest _ _ _ between hrev =>
    simp only [Option.some.injEq, Prod.mk.injEq] at h
    exact h.2 ▸ quiet_of_reviseFuture? hrev
  | case8 s future rest _ _ _ between hrev ih => exact (quiet_of_reviseFuture? hrev).trans (ih h)

/-- The propagation before the first decision is quiet. -/
theorem Settings.quiet_of_prepare? {settings : Settings} {net : Network} {queue : ArcQueue}
    {s : Session} {result : Propagated} (h : settings.prepare? net queue s = some result) :
    s.stats.Quiet result.session.stats := by
  unfold prepare? at h
  split at h
  next =>
    obtain rfl := Option.some.inj h
    exact .refl s.stats
  next => exact ArcConsistency.quiet_of_drain? h

/-- **Propagation is quiet**, whichever it is. -/
theorem Settings.quiet_of_propagate? {settings : Settings} {net : Network} {queue : ArcQueue}
    {s : Session} {changed : VariableId} {undecided : List VariableId} {result : Propagated}
    (h : settings.propagate? net queue s changed undecided = some result) :
    s.stats.Quiet result.session.stats := by
  unfold propagate? at h
  split at h
  next =>
    obtain ⟨⟨consistent, s'⟩, hchecked, rfl⟩ := Option.map_eq_some_iff.1 h
    exact ForwardChecking.quiet_of_propagate? hchecked
  next =>
    unfold ArcConsistency.propagate? at h
    split at h
    next => cases h
    next => exact ArcConsistency.quiet_of_drain? h

/-! ## §4. Decisions and their withdrawal. -/

namespace Session

/-- What `s'` has counted and found is what `s` has. -/
structure SameRecord (s s' : Session) : Prop where
  stats_eq : s'.stats = s.stats
  highWater_eq : s'.highWater = s.highWater
  solution_eq : s'.solution = s.solution
  finished_eq : s'.finished = s.finished

variable {s s' : Session} {x : VariableId} {v : Value}

/-- A decision counts nothing. -/
theorem sameRecord_of_assign? (h : s.assign? x v = some s') : s.SameRecord s' := by
  unfold assign? at h
  split at h
  next =>
    obtain rfl := Option.some.inj h
    exact ⟨rfl, rfl, rfl, rfl⟩
  next => cases h

/-- Neither does its withdrawal. -/
theorem sameRecord_of_unassign? (h : s.unassign? x = some s') : s.SameRecord s' := by
  unfold unassign? at h
  split at h
  next =>
    obtain rfl := Option.some.inj h
    exact ⟨rfl, rfl, rfl, rfl⟩
  next => cases h

/-- A decision against a value counts nothing. -/
theorem sameRecord_of_removeValue? {removed : Bool}
    (h : s.removeValue? x v = some (removed, s')) : s.SameRecord s' := by
  unfold removeValue? at h
  split at h
  next => cases h
  next =>
    obtain ⟨_, rfl⟩ := Prod.mk.inj (Option.some.inj h)
    exact ⟨rfl, rfl, rfl, rfl⟩

/-- Neither does its withdrawal. -/
theorem sameRecord_of_insertValue? {inserted : Bool}
    (h : s.insertValue? x v = some (inserted, s')) : s.SameRecord s' := by
  unfold insertValue? at h
  split at h
  next => cases h
  next =>
    obtain ⟨_, rfl⟩ := Prod.mk.inj (Option.some.inj h)
    exact ⟨rfl, rfl, rfl, rfl⟩

/-- Going back to a checkpoint does not take the counts back. -/
theorem sameRecord_of_restore? (h : s.restore? = some s') : s.SameRecord s' := by
  unfold restore? at h
  split at h
  next => cases h
  next =>
    obtain rfl := Option.some.inj h
    exact ⟨rfl, rfl, rfl, rfl⟩

/-- Two steps that count nothing make one. -/
theorem SameRecord.trans {s'' : Session} (h : s.SameRecord s') (h' : s'.SameRecord s'') :
    s.SameRecord s'' :=
  ⟨h'.stats_eq.trans h.stats_eq, h'.highWater_eq.trans h.highWater_eq,
    h'.solution_eq.trans h.solution_eq, h'.finished_eq.trans h.finished_eq⟩

/-- A branch that returns to a checkpoint and withdraws its decision keeps the record. -/
theorem sameRecord_of_withdrawal {restored session : Session}
    (hrestore : s.restore? = some restored)
    (hunassign : restored.unassign? x = some session) : s.SameRecord session :=
  (sameRecord_of_restore? hrestore).trans (sameRecord_of_unassign? hunassign)

/-- A branch that returns to a checkpoint and puts its value back keeps the record. -/
theorem sameRecord_of_return {restored session : Session} {inserted : Bool}
    (hrestore : s.restore? = some restored)
    (hinsert : restored.insertValue? x v = some (inserted, session)) : s.SameRecord session :=
  (sameRecord_of_restore? hrestore).trans (sameRecord_of_insertValue? hinsert)

end Session

end ConstraintNet
