/-
  ConstraintNet.Proofs.Revision
  ─────────────────────────────
  **WHAT A REVISION LEAVES.**

  Both ways to revise an arc leave the same domains: the target keeps the
  values that are `Supported`, that is, have a support in the other domain
  under every constraint between the two, and every other variable keeps
  its domain.  `Revised` says so once, and the two routines differ only in
  how they report what is left:

      revise?        — `revised_of_revise?`, wiped out when nothing is left;
                       `pruned_iff_of_revise?`, pruned when something is gone
                       and something is left
      reviseFuture?  — `revised_of_reviseFuture?`, consistent when something is

  A revision takes no value that a solution needs
  (`Revised.admits_of_admits`).
-/
import ConstraintNet.Proofs.Narrowing

namespace ConstraintNet

/-! ## §1. Supported values. -/

namespace Network

variable (net : Network)

/-- Under every constraint between `x` and `y`, the value `a` of `x` goes with some member of
`candidates`. -/
def Supported (x y : VariableId) (a : Value) (candidates : Domain) : Prop :=
  ∀ c ∈ net.constraints.toList, c.Joins x y → ∃ b ∈ candidates, c.allows x a b = true

/-- Under every constraint between `x` and `y`, the value `a` of `x` goes with the value `b` of
`y`. -/
def Compatible (x y : VariableId) (a b : Value) : Prop :=
  ∀ c ∈ net.constraints.toList, c.Joins x y → c.allows x a b = true

variable {net} {x y : VariableId} {a b : Value} {candidates : Domain}

/-- Support in terms of the shared constraints that a revision goes through. -/
theorem supported_iff_shared : net.Supported x y a candidates ↔
    ∀ entry ∈ net.sharedConstraints x y, ∃ b ∈ candidates, entry.2.allows x a b = true := by
  constructor
  · intro h entry hentry
    obtain ⟨hc, hjoins⟩ := net.sharedConstraints_mem hentry
    exact h entry.2 hc hjoins
  · intro h c hc hjoins
    obtain ⟨id, hid⟩ := net.exists_shared_of_joins hc hjoins
    exact h (id, c) hid

/-- Support is the same question when the constraints are asked from `y`. -/
theorem supported_iff_shared_symm : net.Supported x y a candidates ↔
    ∀ entry ∈ net.sharedConstraints y x, ∃ b ∈ candidates, entry.2.allows y b a = true := by
  constructor
  · intro h entry hentry
    obtain ⟨hc, hjoins⟩ := net.sharedConstraints_mem hentry
    obtain ⟨b, hb, hallows⟩ := h entry.2 hc hjoins.symm
    exact ⟨b, hb, (Constraint.allows_comm (net.ends_ne hc) hjoins b a).2 hallows⟩
  · intro h c hc hjoins
    obtain ⟨id, hid⟩ := net.exists_shared_of_joins hc hjoins.symm
    obtain ⟨b, hb, hallows⟩ := h (id, c) hid
    exact ⟨b, hb, (Constraint.allows_comm (net.ends_ne hc) hjoins.symm b a).1 hallows⟩

/-- More candidates support no less. -/
theorem Supported.mono {larger : Domain} (h : net.Supported x y a candidates)
    (hsub : ∀ v, v ∈ candidates → v ∈ larger) : net.Supported x y a larger := by
  intro c hc hjoins
  obtain ⟨b, hb, hallows⟩ := h c hc hjoins
  exact ⟨b, hsub b hb, hallows⟩

/-- Two values go together in either order. -/
theorem Compatible.symm (h : net.Compatible x y a b) : net.Compatible y x b a := by
  intro c hc hjoins
  exact (Constraint.allows_comm (net.ends_ne hc) hjoins.symm a b).1 (h c hc hjoins.symm)

/-- Support by a single value is compatibility with it. -/
theorem Supported.compatible (h : net.Supported x y a candidates)
    (honly : ∀ v, v ∈ candidates → v = b) : net.Compatible x y a b := by
  intro c hc hjoins
  obtain ⟨v, hv, hallows⟩ := h c hc hjoins
  exact honly v hv ▸ hallows

/-- A value of a solution is supported by the value that the solution gives to the other
variable. -/
theorem Solves.supported {f : VariableId → Value} (h : net.Solves f) (hy : f y ∈ candidates) :
    net.Supported x y (f x) candidates :=
  fun _ hc hjoins => ⟨f y, hy, h.allows hc hjoins⟩

end Network

/-! ## §2. The domains after a revision. -/

/-- `s'` has come from `s` by taking the unsupported values of the target of `arc` away. -/
structure Revised (net : Network) (s : Session) (arc : Arc) (s' : Session) : Prop where
  narrows : s.Narrows s'
  others : ∀ x, x ≠ arc.target → s'.dom x = s.dom x
  mem_target : ∀ v, v ∈ s'.dom arc.target ↔
    v ∈ s.dom arc.target ∧ net.Supported arc.target arc.support v (s.dom arc.support)

section Revised

variable {net : Network} {s s' : Session} {arc : Arc}

/-- **A revision takes no value that a solution needs.** -/
theorem Revised.admits_of_admits (h : Revised net s arc s') (hsupport : arc.support < net.size)
    {f : VariableId → Value} (hf : s.Admits net f) : s'.Admits net f := by
  refine ⟨hf.1, ?_⟩
  intro x hx
  by_cases hxt : x = arc.target
  · rw [hxt, h.mem_target]
    exact ⟨hf.2 arc.target (hxt ▸ hx), hf.1.supported (hf.2 arc.support hsupport)⟩
  · rw [h.others x hxt]
    exact hf.2 x hx

/-- A value stays, unless it is one of the target that has no support. -/
theorem Revised.mem_dom (h : Revised net s arc s') {x : VariableId} {v : Value} (hv : v ∈ s.dom x)
    (hsupported : x = arc.target → net.Supported x arc.support v (s.dom arc.support)) :
    v ∈ s'.dom x := by
  by_cases hx : x = arc.target
  · subst hx
    exact (h.mem_target v).2 ⟨hv, hsupported rfl⟩
  · rw [h.others x hx]
    exact hv

/-- Where every value is supported, nothing is taken away. -/
theorem Revised.dom_eq (h : Revised net s arc s')
    (hall : ∀ v ∈ s.dom arc.target, net.Supported arc.target arc.support v (s.dom arc.support))
    (x : VariableId) : s'.dom x = s.dom x := by
  by_cases hx : x = arc.target
  · rw [hx]
    refine Domain.ext fun v => ?_
    rw [h.mem_target v, and_iff_left_iff_imp]
    exact hall v
  · exact h.others x hx

/-- When the target keeps a value, no variable loses its last one. -/
theorem Revised.exists_mem (h : Revised net s arc s') (htarget : ∃ v, v ∈ s'.dom arc.target)
    {x : VariableId} (hx : ∃ v, v ∈ s.dom x) : ∃ v, v ∈ s'.dom x := by
  by_cases hxt : x = arc.target
  · rw [hxt]
    exact htarget
  · rw [h.others x hxt]
    exact hx

/-- The two steps that a revision makes with the session: a new domain for the target, and new
counters. -/
theorem revised_setDomain {kept : Domain} (stats : Statistics)
    (htarget : arc.target < s.domains.size)
    (hkept : ∀ v, v ∈ kept ↔
      v ∈ s.dom arc.target ∧ net.Supported arc.target arc.support v (s.dom arc.support)) :
    Revised net s arc ((s.setDomain arc.target kept).withStats stats) := by
  refine ⟨?_, ?_, ?_⟩
  · exact (Session.narrows_setDomain fun v hv => ((hkept v).1 hv).1).trans
      (Session.narrows_withStats _ stats)
  · intro x hx
    exact Session.dom_setDomain_of_ne kept hx
  · intro v
    show v ∈ (s.setDomain arc.target kept).dom arc.target ↔ _
    rw [Session.dom_setDomain_self kept htarget]
    exact hkept v

end Revised

/-! ## §3. Revision value by value. -/

/-- By induction on the shared constraints: a value stays when each of them supports it. -/
theorem mem_keepSupported (target : VariableId) (candidates : Domain) (v : Value) :
    ∀ (shared : List (ConstraintId × Constraint)) (domain : Domain) (stats : Statistics),
      v ∈ (keepSupported target candidates shared domain stats).1 ↔
        v ∈ domain ∧ ∀ entry ∈ shared, ∃ b ∈ candidates, entry.2.allows target v b = true
  | [], domain, stats => by simp [keepSupported]
  | (id, c) :: rest, domain, stats => by
      unfold keepSupported
      rw [mem_keepSupported target candidates v rest, Domain.mem_filter,
        Constraint.hasSupport_iff, List.forall_mem_cons, and_assoc]

/-- Revision gives an answer for variables that the session has. -/
theorem exists_revise? (net : Network) {s : Session} {arc : Arc}
    (htarget : arc.target < s.domains.size) (hsupport : arc.support < s.domains.size) :
    ∃ outcome s', revise? net s arc = some (outcome, s') := by
  unfold revise?
  rw [Session.domain?_eq_some htarget, Session.domain?_eq_some hsupport]
  exact ⟨_, _, rfl⟩

/-- The session that `revise?` leaves, and how it picks the outcome. -/
theorem kept_of_revise? {net : Network} {s s' : Session} {arc : Arc} {outcome : Revision}
    (h : revise? net s arc = some (outcome, s')) :
    arc.target < s.domains.size ∧ ∃ kept stats,
      keepSupported arc.target (s.dom arc.support) (net.sharedConstraints arc.target arc.support)
        (s.dom arc.target) s.stats.countRevision = (kept, stats) ∧
      s' = (s.setDomain arc.target kept).withStats stats ∧
      outcome = if kept.isEmpty then .wipedOut
        else if kept.size < (s.dom arc.target).size then .pruned
        else .unchanged := by
  unfold revise? at h
  split at h
  next domain candidates hdomain hcandidates =>
    rw [← Session.dom_of_domain? hdomain, ← Session.dom_of_domain? hcandidates] at h
    obtain ⟨houtcome, rfl⟩ := Prod.mk.inj (Option.some.inj h)
    exact ⟨(Array.getElem?_eq_some_iff.1 hdomain).1, _, _, rfl, rfl, houtcome.symm⟩
  next => cases h

/-- **What `revise?` does**: the domains that it leaves, and how its outcome describes them. -/
theorem revised_of_revise? {net : Network} {s s' : Session} {arc : Arc} {outcome : Revision}
    (h : revise? net s arc = some (outcome, s')) :
    Revised net s arc s' ∧ (outcome = .wipedOut ↔ ∀ v, v ∉ s'.dom arc.target) ∧
      (outcome = .unchanged → ∀ x, s'.dom x = s.dom x) := by
  obtain ⟨htarget, kept, stats, hresult, rfl, houtcome⟩ := kept_of_revise? h
  have hkept : ∀ v, v ∈ kept ↔ v ∈ s.dom arc.target ∧
      net.Supported arc.target arc.support v (s.dom arc.support) := by
    intro v
    rw [Network.supported_iff_shared, ← mem_keepSupported _ _ _ _ _ s.stats.countRevision, hresult]
  have hdom : ((s.setDomain arc.target kept).withStats stats).dom arc.target = kept :=
    Session.dom_setDomain_self kept htarget
  refine ⟨revised_setDomain stats htarget hkept, ?_, ?_⟩
  · rw [hdom, ← Domain.isEmpty_eq_true_iff, houtcome]
    by_cases hempty : kept.isEmpty = true
    · simp [hempty]
    · by_cases hsmaller : kept.size < (s.dom arc.target).size
      · simp [hempty, hsmaller]
      · simp [hempty, hsmaller]
  · intro hunchanged x
    rw [hunchanged] at houtcome
    -- an outcome that is neither of the others leaves no smaller domain
    have hsize : ¬ kept.size < (s.dom arc.target).size := by
      intro hlt
      by_cases hempty : kept.isEmpty = true
      · rw [if_pos hempty] at houtcome
        cases houtcome
      · rw [if_neg hempty, if_pos hlt] at houtcome
        cases houtcome
    by_cases hx : x = arc.target
    · rw [hx, hdom]
      exact Domain.eq_of_subset_of_size_le (fun v hv => ((hkept v).1 hv).1) (by omega)
    · exact Session.dom_setDomain_of_ne kept hx

/-- A revision reports that it pruned exactly when the target is smaller and not empty. -/
theorem pruned_iff_of_revise? {net : Network} {s s' : Session} {arc : Arc} {outcome : Revision}
    (h : revise? net s arc = some (outcome, s')) :
    outcome = .pruned ↔
      (s'.dom arc.target).size < (s.dom arc.target).size ∧ ∃ b, b ∈ s'.dom arc.target := by
  obtain ⟨htarget, kept, stats, _, rfl, houtcome⟩ := kept_of_revise? h
  have hdom : ((s.setDomain arc.target kept).withStats stats).dom arc.target = kept :=
    Session.dom_setDomain_self kept htarget
  rw [hdom, houtcome, ← Domain.isEmpty_eq_false_iff]
  by_cases hempty : kept.isEmpty = true
  · simp [hempty]
  · by_cases hsmaller : kept.size < (s.dom arc.target).size
    · simp [hempty, hsmaller]
    · simp [hempty, hsmaller]

/-- A revision that prunes takes some value away. -/
theorem exists_lost_of_pruned {net : Network} {s s' : Session} {arc : Arc}
    (h : revise? net s arc = some (.pruned, s')) :
    ∃ v ∈ s.dom arc.target, ¬ net.Supported arc.target arc.support v (s.dom arc.support) := by
  by_contra hnone
  have hsame : s'.dom arc.target = s.dom arc.target := by
    apply (revised_of_revise? h).1.dom_eq
    intro v hv
    by_contra hlost
    exact hnone ⟨v, hv, hlost⟩
  have hsmaller := ((pruned_iff_of_revise? h).1 rfl).1
  rw [hsame] at hsmaller
  omega

/-! ## §4. Revision set by set. -/

/-- The image of some candidates are the values that go with one of them. -/
theorem mem_image_iff_allows {c : Constraint} {var : VariableId} {candidates within : Domain}
    {v : Value} : v ∈ c.image var candidates within ↔
      v ∈ within ∧ ∃ a ∈ candidates, c.allows var a v = true := by
  rw [Constraint.mem_image]
  simp only [Constraint.allows_iff_mem_supports]

/-- One turn of the loop: it stops at a constraint that leaves nothing. -/
theorem keepImage_cons (var : VariableId) (candidates : Domain) (id : ConstraintId)
    (c : Constraint) (rest : List (ConstraintId × Constraint)) (domain : Domain)
    (stats : Statistics) :
    keepImage var candidates ((id, c) :: rest) domain stats =
      if (c.image var candidates domain).isEmpty then
        (false, c.image var candidates domain,
          stats.recordUse id (domain.size - (c.image var candidates domain).size))
      else
        keepImage var candidates rest (c.image var candidates domain)
          (stats.recordUse id (domain.size - (c.image var candidates domain).size)) := rfl

/-- What `keepImage` keeps does not depend on where it stops: after a constraint that leaves
nothing, the others have nothing to take away. -/
theorem mem_keepImage (var : VariableId) (candidates : Domain) (v : Value) :
    ∀ (shared : List (ConstraintId × Constraint)) (domain : Domain) (stats : Statistics),
      v ∈ (keepImage var candidates shared domain stats).2.1 ↔
        v ∈ domain ∧ ∀ entry ∈ shared, ∃ a ∈ candidates, entry.2.allows var a v = true
  | [], domain, stats => by simp [keepImage]
  | (id, c) :: rest, domain, stats => by
      rw [List.forall_mem_cons, ← and_assoc, ← mem_image_iff_allows, keepImage_cons]
      split
      next hempty =>
        have hnone := Domain.isEmpty_eq_true_iff.1 hempty v
        exact ⟨fun hv => absurd hv hnone, fun hv => absurd hv.1 hnone⟩
      next => exact mem_keepImage var candidates v rest _ _

/-- When the loop stops early, nothing is left. -/
theorem keepImage_inconsistent (var : VariableId) (candidates : Domain) :
    ∀ (shared : List (ConstraintId × Constraint)) (domain : Domain) (stats : Statistics),
      (keepImage var candidates shared domain stats).1 = false →
        ∀ v, v ∉ (keepImage var candidates shared domain stats).2.1
  | [], domain, stats, h => by cases h
  | (id, c) :: rest, domain, stats, h => by
      rw [keepImage_cons] at h ⊢
      split
      next hempty => exact Domain.isEmpty_eq_true_iff.1 hempty
      next hempty =>
        rw [if_neg hempty] at h
        exact keepImage_inconsistent var candidates rest _ _ h

/-- When it comes to its end, something is, if there was something at first. -/
theorem keepImage_consistent (var : VariableId) (candidates : Domain) :
    ∀ (shared : List (ConstraintId × Constraint)) (domain : Domain) (stats : Statistics),
      (keepImage var candidates shared domain stats).1 = true →
        (shared = [] → ∃ v, v ∈ domain) →
          ∃ v, v ∈ (keepImage var candidates shared domain stats).2.1
  | [], domain, stats, _, hdomain => hdomain rfl
  | (id, c) :: rest, domain, stats, h, _ => by
      rw [keepImage_cons] at h ⊢
      split
      next hempty =>
        rw [if_pos hempty] at h
        cases h
      next hempty =>
        rw [if_neg hempty] at h
        exact keepImage_consistent var candidates rest _ _ h
          fun _ => Domain.isEmpty_eq_false_iff.1 (eq_false_of_ne_true hempty)

/-- Revision set by set gives an answer for variables that the session has. -/
theorem exists_reviseFuture? (net : Network) {s : Session} {var future : VariableId}
    (hvar : var < s.domains.size) (hfuture : future < s.domains.size) :
    ∃ consistent s', reviseFuture? net s var future = some (consistent, s') := by
  unfold reviseFuture?
  split
  · exact ⟨_, _, rfl⟩
  · rw [Session.domain?_eq_some hvar, Session.domain?_eq_some hfuture]
    exact ⟨_, _, rfl⟩

/-- The session that `reviseFuture?` leaves of two variables that share a constraint. -/
theorem kept_of_reviseFuture? {net : Network} {s s' : Session} {var future : VariableId}
    {consistent : Bool} (hshared : net.sharedConstraints var future ≠ [])
    (h : reviseFuture? net s var future = some (consistent, s')) :
    future < s.domains.size ∧ ∃ kept stats,
      keepImage var (s.dom var) (net.sharedConstraints var future) (s.dom future)
        s.stats.countRevision = (consistent, kept, stats) ∧
      s' = (s.setDomain future kept).withStats stats := by
  unfold reviseFuture? at h
  split at h
  next hnil => exact absurd hnil hshared
  next =>
    split at h
    next candidates domain hcandidates hdomain =>
      rw [← Session.dom_of_domain? hdomain, ← Session.dom_of_domain? hcandidates] at h
      obtain ⟨rfl, rfl⟩ := Prod.mk.inj (Option.some.inj h)
      exact ⟨(Array.getElem?_eq_some_iff.1 hdomain).1, _, _, rfl, rfl⟩
    next => cases h

/-- **What `reviseFuture?` does** for two variables that share a constraint: it leaves the domains
of a revision of the arc from `future` to `var`, and reports whether `future` keeps a value. -/
theorem revised_of_reviseFuture? {net : Network} {s s' : Session} {var future : VariableId}
    {consistent : Bool} (hshared : net.sharedConstraints var future ≠ [])
    (h : reviseFuture? net s var future = some (consistent, s')) :
    Revised net s ⟨future, var⟩ s' ∧ (consistent = true ↔ ∃ v, v ∈ s'.dom future) := by
  obtain ⟨hfuture, kept, stats, hresult, rfl⟩ := kept_of_reviseFuture? hshared h
  have hmem := fun v => mem_keepImage var (s.dom var) v (net.sharedConstraints var future)
    (s.dom future) s.stats.countRevision
  have hfalse := keepImage_inconsistent var (s.dom var) (net.sharedConstraints var future)
    (s.dom future) s.stats.countRevision
  have htrue := keepImage_consistent var (s.dom var) (net.sharedConstraints var future)
    (s.dom future) s.stats.countRevision
  rw [hresult] at hmem hfalse htrue
  -- an image under `var` consists of the values that `var` supports
  have hkept : ∀ v, v ∈ kept ↔ v ∈ s.dom future ∧ net.Supported future var v (s.dom var) := by
    intro v
    rw [hmem v, Network.supported_iff_shared_symm]
  refine ⟨revised_setDomain stats hfuture hkept, ?_⟩
  show consistent = true ↔ ∃ v, v ∈ (s.setDomain future kept).dom future
  rw [Session.dom_setDomain_self kept hfuture]
  constructor
  · intro hconsistent
    exact htrue hconsistent fun hnil => absurd hnil hshared
  · intro hsome
    obtain ⟨v, hv⟩ := hsome
    cases hconsistent : consistent with
    | true => rfl
    | false => exact absurd hv (hfalse hconsistent v)

end ConstraintNet
