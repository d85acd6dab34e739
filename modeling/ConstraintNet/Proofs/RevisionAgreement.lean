/-
  ConstraintNet.Proofs.RevisionAgreement
  ──────────────────────────────────────
  **THE TWO WAYS TO REVISE AN ARC AGREE.**

  Revision value by value asks of each value of the target whether it has a
  support, and goes through all constraints between the two variables.
  Revision set by set intersects the target with the image of the other
  domain, and stops at the first constraint that leaves nothing.  On a
  constraint that joins the two the image is the supported part
  (`image_eq_filter`), whichever way round the constraint is stored, so both
  go through the same domains and tally the same prunings up to the stop; and
  what revision value by value does after it prunes nothing
  (`keepSupported_of_isEmpty`).

      `keepImage_agrees`   — the two loops, over any list of such constraints
      `revisions_agree`    — the two routines, for any session and any two
                             variables that a constraint joins
-/
import ConstraintNet.Proofs.Coherence
import ConstraintNet.Proofs.Counters

namespace ConstraintNet

/-! ## §1. How many values a constraint has pruned. -/

namespace Statistics

/-- The number of values that the constraint has pruned. -/
def prunedBy (stats : Statistics) (id : ConstraintId) : Nat :=
  (stats.byConstraint.getD id ⟨0, 0⟩).prunings

theorem prunedBy_recordUse (stats : Statistics) (id other : ConstraintId) (pruned : Nat) :
    (stats.recordUse id pruned).prunedBy other =
      stats.prunedBy other + if id = other then pruned else 0 := by
  unfold prunedBy recordUse
  rw [Std.TreeMap.getD_insert]
  by_cases h : id = other
  · subst h
    simp
  · simp [h]

end Statistics

/-! ## §2. The two loops. -/

variable {var future : VariableId} {candidates domain : Domain}

/-- The image of the candidates under a constraint that joins the two variables is what has a
support among them. -/
theorem image_eq_filter {c : Constraint} (hends : c.first ≠ c.second)
    (hjoins : c.Joins var future) :
    c.image var candidates domain = domain.filter (c.hasSupport future candidates) := by
  apply Domain.ext
  intro b
  rw [mem_image_iff_allows, Domain.mem_filter, Constraint.hasSupport_iff]
  simp only [Constraint.allows_comm hends hjoins]

theorem keepSupported_cons (target : VariableId) (candidates : Domain) (id : ConstraintId)
    (c : Constraint) (rest : List (ConstraintId × Constraint)) (domain : Domain)
    (stats : Statistics) :
    keepSupported target candidates ((id, c) :: rest) domain stats =
      keepSupported target candidates rest (domain.filter (c.hasSupport target candidates))
        (stats.recordUse id
          (domain.size - (domain.filter (c.hasSupport target candidates)).size)) := rfl

/-- Where nothing is left, nothing more is pruned. -/
theorem keepSupported_of_isEmpty (hempty : domain.isEmpty = true)
    (shared : List (ConstraintId × Constraint)) (stats : Statistics) :
    (keepSupported future candidates shared domain stats).1 = domain ∧
      ∀ id, (keepSupported future candidates shared domain stats).2.prunedBy id =
        stats.prunedBy id := by
  induction shared generalizing stats with
  | nil => exact ⟨rfl, fun _ => rfl⟩
  | cons entry rest ih =>
    obtain ⟨id, c⟩ := entry
    have hnone := Domain.isEmpty_eq_true_iff.1 hempty
    have hsame : domain.filter (c.hasSupport future candidates) = domain := by
      apply Domain.ext
      simp [hnone]
    rw [keepSupported_cons, hsame, Nat.sub_self]
    obtain ⟨hdomain, hpruned⟩ := ih (stats.recordUse id 0)
    refine ⟨hdomain, ?_⟩
    intro other
    rw [hpruned, Statistics.prunedBy_recordUse]
    simp

/-- The tallies of pruned values only grow. -/
theorem prunedBy_le_keepSupported (target : VariableId) (candidates : Domain)
    (shared : List (ConstraintId × Constraint)) (domain : Domain) (stats : Statistics)
    (id : ConstraintId) :
    stats.prunedBy id ≤ (keepSupported target candidates shared domain stats).2.prunedBy id := by
  induction shared generalizing domain stats with
  | nil => exact Nat.le_refl _
  | cons entry rest ih =>
    obtain ⟨used, c⟩ := entry
    rw [keepSupported_cons]
    refine Nat.le_trans ?_ (ih _ _)
    rw [Statistics.prunedBy_recordUse]
    omega

/-- **The two loops agree** over any list of constraints that join the two variables: they leave
the same domain, and they tally the same prunings for every constraint. -/
theorem keepImage_agrees (candidates : Domain) (shared : List (ConstraintId × Constraint))
    (hshared : ∀ entry ∈ shared, entry.2.first ≠ entry.2.second ∧ entry.2.Joins var future)
    (domain : Domain) (stats : Statistics) :
    (keepImage var candidates shared domain stats).2.1 =
        (keepSupported future candidates shared domain stats).1 ∧
      ∀ id, (keepImage var candidates shared domain stats).2.2.prunedBy id =
        (keepSupported future candidates shared domain stats).2.prunedBy id := by
  induction shared generalizing domain stats with
  | nil => exact ⟨rfl, fun _ => rfl⟩
  | cons entry rest ih =>
    obtain ⟨id, c⟩ := entry
    obtain ⟨⟨hends, hjoins⟩, hrest⟩ := List.forall_mem_cons.1 hshared
    -- up to the stop the two have the same domain and the same counters
    rw [keepImage_cons, keepSupported_cons, image_eq_filter hends hjoins]
    split
    next hempty =>
      obtain ⟨hdomain, hpruned⟩ := keepSupported_of_isEmpty hempty rest
        (stats.recordUse id
          (domain.size - (domain.filter (c.hasSupport future candidates)).size))
      exact ⟨hdomain.symm, fun other => (hpruned other).symm⟩
    next => exact ih hrest _ _

/-! ## §3. The two routines. -/

variable {net : Network} {s s₁ s₂ : Session} {outcome : Revision} {consistent : Bool}

/-- The two routines leave the same domains and tally the same prunings. -/
theorem revisions_leave_same (hshared : net.sharedConstraints var future ≠ [])
    (h₁ : revise? net s ⟨future, var⟩ = some (outcome, s₁))
    (h₂ : reviseFuture? net s var future = some (consistent, s₂)) :
    s₂.domains = s₁.domains ∧ ∀ id, ∃ pruned,
      s₁.stats.prunedBy id = s.stats.prunedBy id + pruned ∧
      s₂.stats.prunedBy id = s.stats.prunedBy id + pruned := by
  obtain ⟨_, kept, stats, hkept, rfl, _⟩ := kept_of_revise? h₁
  obtain ⟨_, kept', stats', hkept', rfl⟩ := kept_of_reviseFuture? hshared h₂
  have hjoined : ∀ entry ∈ net.sharedConstraints var future,
      entry.2.first ≠ entry.2.second ∧ entry.2.Joins var future := by
    intro entry hentry
    obtain ⟨hc, hjoins⟩ := net.sharedConstraints_mem hentry
    exact ⟨net.ends_ne hc, hjoins⟩
  -- both loops go through the same list of constraints
  rw [net.sharedConstraints_comm] at hkept
  obtain ⟨hsame, hpruned⟩ := keepImage_agrees (s.dom var) (net.sharedConstraints var future) hjoined
    (s.dom future) s.stats.countRevision
  rw [hkept, hkept'] at hsame hpruned
  constructor
  · show s.domains.setIfInBounds future kept' = s.domains.setIfInBounds future kept
    rw [show kept' = kept from hsame]
  · intro id
    have hgrows := prunedBy_le_keepSupported future (s.dom var) (net.sharedConstraints var future)
      (s.dom future) s.stats.countRevision id
    rw [hkept] at hgrows
    have hle : s.stats.prunedBy id ≤ stats.prunedBy id := hgrows
    have hequal : stats'.prunedBy id = stats.prunedBy id := hpruned id
    refine ⟨stats.prunedBy id - s.stats.prunedBy id, ?_, ?_⟩
    · show stats.prunedBy id = s.stats.prunedBy id + _
      omega
    · show stats'.prunedBy id = s.stats.prunedBy id + _
      omega

/-- Revision value by value of the arc from `future` to `var` has led from `s` to `s₁`, revision set
by set from `s` to `s₂`, and the two agree in what they did and in what they report. -/
structure RevisionsAgree (net : Network) (s : Session) (var future : VariableId)
    (outcome : Revision) (s₁ : Session) (consistent : Bool) (s₂ : Session) : Prop where
  domains_eq : s₂.domains = s₁.domains
  others : ∀ x, x ≠ future → s₁.dom x = s.dom x
  /-- What is left of `future` is what every constraint between the two supports. -/
  mem_future : ∀ b, b ∈ s₁.dom future ↔
    b ∈ s.dom future ∧ net.Supported future var b (s.dom var)
  inconsistent_iff : consistent = false ↔ outcome = .wipedOut
  pruned_iff : outcome = .pruned ↔
    (s₁.dom future).size < (s.dom future).size ∧ ∃ b, b ∈ s₁.dom future
  /-- Every constraint is charged with the same number of values. -/
  prunings : ∀ id, ∃ pruned, s₁.stats.prunedBy id = s.stats.prunedBy id + pruned ∧
    s₂.stats.prunedBy id = s.stats.prunedBy id + pruned
  revisions : s₁.stats.revisions = s.stats.revisions + 1 ∧
    s₂.stats.revisions = s.stats.revisions + 1

/-- **The two ways to revise agree**, from any session of the network and for any two variables that
a constraint joins, however many constraints join them and whichever way round these are stored. -/
theorem revisions_agree (hsize : s.domains.size = net.size) (hadjacent : net.Adjacent var future) :
    ∃ outcome s₁ consistent s₂,
      revise? net s ⟨future, var⟩ = some (outcome, s₁) ∧
      reviseFuture? net s var future = some (consistent, s₂) ∧
      RevisionsAgree net s var future outcome s₁ consistent s₂ := by
  have hvar : var < s.domains.size := hsize ▸ hadjacent.lt_size
  have hfuture : future < s.domains.size := hsize ▸ hadjacent.symm.lt_size
  have hshared : net.sharedConstraints var future ≠ [] := by
    intro hnil
    exact net.sharedConstraints_eq_nil_iff.1 hnil hadjacent
  have hanswers : ∃ outcome s₁, revise? net s ⟨future, var⟩ = some (outcome, s₁) :=
    exists_revise? net hfuture hvar
  obtain ⟨outcome, s₁, h₁⟩ := hanswers
  obtain ⟨consistent, s₂, h₂⟩ := exists_reviseFuture? net hvar hfuture
  obtain ⟨hrevised, hwipedOut, _⟩ := revised_of_revise? h₁
  obtain ⟨_, hconsistent⟩ := revised_of_reviseFuture? hshared h₂
  obtain ⟨hdomains, hprunings⟩ := revisions_leave_same hshared h₁ h₂
  -- Both report a wipeout by the one domain that they leave in common.
  have hreport : consistent = false ↔ outcome = .wipedOut := by
    rw [Session.dom_congr hdomains] at hconsistent
    rw [← Bool.not_eq_true, hconsistent, hwipedOut, not_exists]
  exact ⟨outcome, s₁, consistent, s₂, h₁, h₂, hdomains, hrevised.others, hrevised.mem_target,
    hreport, pruned_iff_of_revise? h₁, hprunings, revisions_of_revise? h₁,
    revisions_of_reviseFuture? h₂⟩

/-- A variable with the values 0 to 2 and one with the values 0 to 3 under three constraints, of
which one is stored the other way round. The first two leave the second variable no value. -/
def knotted : Network where
  bounds := #[⟨0, 2⟩, ⟨0, 3⟩]
  constraints := #[.ofTuples 0 1 [(0, 1), (1, 2)], .ofTuples 1 0 [(0, 2)], .ofTuples 0 1 [(1, 1)]]
  links := linksOf 2
    [.ofTuples 0 1 [(0, 1), (1, 2)], .ofTuples 1 0 [(0, 2)], .ofTuples 0 1 [(1, 1)]]
  bounds_nonempty := by decide
  endpoints_known := by decide
  links_eq := rfl

theorem knotted_agrees :
    ((Session.start knotted).domains.size = knotted.size ∧ knotted.Adjacent 0 1) ∧
    ∃ outcome s₁ consistent s₂,
      revise? knotted (Session.start knotted) ⟨1, 0⟩ = some (outcome, s₁) ∧
      reviseFuture? knotted (Session.start knotted) 0 1 = some (consistent, s₂) ∧
      RevisionsAgree knotted (Session.start knotted) 0 1 outcome s₁ consistent s₂ := by
  have hsize := (coherent_start knotted).size_domains
  have hadjacent : knotted.Adjacent 0 1 := by
    unfold Network.Adjacent
    decide
  exact ⟨⟨hsize, hadjacent⟩, revisions_agree hsize hadjacent⟩

end ConstraintNet
