/-
  ConstraintNet.Propagation.Revision
  ──────────────────────────────────
  **PRUNING ONE DOMAIN BY ANOTHER.**

  Two ways to remove the values of one variable that no value of a second
  variable supports:

      revise?        — value by value: keep a value of the target that has a
                       support in the other domain, under every shared
                       constraint
      reviseFuture?  — set by set: keep what lies in the image of the other
                       domain, constraint by constraint, until nothing is left

  Both charge every removed value to the constraint that removed it.
  `totalSize_revise?` says that a revision never makes the session larger,
  and that it makes it smaller when it reports that it pruned; the loop of
  arc consistency ends because of this.
-/
import ConstraintNet.Session
import ConstraintNet.ArcQueue

namespace ConstraintNet

/-- What a revision did to the domain of its target. -/
inductive Revision where
  | unchanged
  /-- Values were removed, and some are left. -/
  | pruned
  /-- No value is left. -/
  | wipedOut
  deriving Repr, DecidableEq

/-! ## §1. Revision value by value. -/

/-- The values of `domain`, the domain of `target`, that have a support among `candidates` under
each of the constraints, and the counters after all of them were used. -/
def keepSupported (target : VariableId) (candidates : Domain) :
    List (ConstraintId × Constraint) → Domain → Statistics → Domain × Statistics
  | [], domain, stats => (domain, stats)
  | (id, c) :: rest, domain, stats =>
    -- a constraint is charged even when an earlier one has left nothing to prune
    let kept := domain.filter (c.hasSupport target candidates)
    keepSupported target candidates rest kept (stats.recordUse id (domain.size - kept.size))

/-- The revision of an arc; `none` when the session does not have one of its variables. -/
def revise? (net : Network) (s : Session) (arc : Arc) : Option (Revision × Session) :=
  match s.domain? arc.target, s.domain? arc.support with
  | some domain, some candidates =>
    let (kept, stats) :=
      keepSupported arc.target candidates (net.sharedConstraints arc.target arc.support) domain
        s.stats.countRevision
    let outcome : Revision :=
      if kept.isEmpty then .wipedOut
      else if kept.size < domain.size then .pruned
      else .unchanged
    some (outcome, (s.setDomain arc.target kept).withStats stats)
  | _, _ => none

/-! ## §2. Revision set by set. -/

/-- The part of `domain` that lies in the image of `candidates`, the domain of `var`, under each
of the constraints in turn; the constraints after one that leaves nothing are not used. The first
part of the answer says whether anything is left. -/
def keepImage (var : VariableId) (candidates : Domain) :
    List (ConstraintId × Constraint) → Domain → Statistics → Bool × Domain × Statistics
  | [], domain, stats => (true, domain, stats)
  | (id, c) :: rest, domain, stats =>
    let kept := c.image var candidates domain
    let stats := stats.recordUse id (domain.size - kept.size)
    if kept.isEmpty then (false, kept, stats) else keepImage var candidates rest kept stats

/-- The revision of `future` by the domain of `var`: whether a value is left, and the session
afterwards. Variables that share no constraint are not looked up. -/
def reviseFuture? (net : Network) (s : Session) (var future : VariableId) :
    Option (Bool × Session) :=
  match net.sharedConstraints var future with
  | [] => some (true, s.mapStats Statistics.countRevision)
  | shared =>
    match s.domain? var, s.domain? future with
    | some candidates, some domain =>
      let (consistent, kept, stats) :=
        keepImage var candidates shared domain s.stats.countRevision
      some (consistent, (s.setDomain future kept).withStats stats)
    | _, _ => none

/-! ## §3. Revisions never add values. -/

theorem size_keepSupported_le (target : VariableId) (candidates : Domain)
    (shared : List (ConstraintId × Constraint)) (domain : Domain) (stats : Statistics) :
    (keepSupported target candidates shared domain stats).1.size ≤ domain.size := by
  induction shared generalizing domain stats with
  | nil => exact Nat.le_refl _
  | cons entry rest ih => exact Nat.le_trans (ih _ _) (Domain.size_filter_le _ _)

theorem totalSize_setDomain {s : Session} {var : VariableId} {old : Domain} (new : Domain)
    (h : s.domain? var = some old) :
    (s.setDomain var new).totalSize + old.size = s.totalSize + new.size := by
  have hold : s.domains.toList[var]? = some old := by simpa [Session.domain?] using h
  have := total_set Domain.size new hold
  simpa [Session.totalSize, Session.setDomain] using this

/-- A revision keeps or lowers the number of possible values, and lowers it when it prunes. -/
theorem totalSize_revise? {net : Network} {s s' : Session} {arc : Arc} {outcome : Revision}
    (h : revise? net s arc = some (outcome, s')) :
    s'.totalSize ≤ s.totalSize ∧ (outcome = .pruned → s'.totalSize < s.totalSize) := by
  unfold revise? at h
  split at h
  · next domain candidates hdomain _ =>
    generalize hkept : keepSupported arc.target candidates
      (net.sharedConstraints arc.target arc.support) domain s.stats.countRevision = result at h
    obtain ⟨kept, stats⟩ := result
    -- the new domain is part of the old one
    have hle : kept.size ≤ domain.size := by
      have := size_keepSupported_le arc.target candidates
        (net.sharedConstraints arc.target arc.support) domain s.stats.countRevision
      rwa [hkept] at this
    simp only [Option.some.injEq, Prod.mk.injEq] at h
    obtain ⟨houtcome, rfl⟩ := h
    -- so the total changes by what the target lost
    have htotal := totalSize_setDomain kept hdomain
    rw [Session.totalSize_withStats]
    refine ⟨by omega, fun hpruned => ?_⟩
    rw [hpruned] at houtcome
    split at houtcome
    · cases houtcome
    · split at houtcome
      · omega
      · cases houtcome
  · cases h

end ConstraintNet
