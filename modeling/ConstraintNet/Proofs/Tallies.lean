/-
  ConstraintNet.Proofs.Tallies
  ────────────────────────────
  **EVERY LOST VALUE IS CHARGED TO A CONSTRAINT.**

  A revision, in either way, goes through the constraints between its two
  variables, and charges each that it uses with the values that this one takes
  away.  `Charged` says so of one revision; it does not say how many of the
  constraints were used, for revision set by set stops when nothing is left,
  but when there are any, one was.

      `exists_charged_keepSupported`, `exists_charged_keepImage`  — the loops
      `RevisedBetween`  — one revision
      `RevisedOn`       — a propagation: one revision after another, each
                          between neighbours

  Two things follow for every propagation and so for every search.  The pruned
  values in the tallies are those that the domains have lost
  (`RevisedOn.accounts`), and the uses in the tallies are at least as many as
  the revisions, and as many when no two constraints bind the same two
  variables (`RevisedOn.tallied`, `Runs.tallied`).

  Main result: `Network.losses_are_tallied`.
-/
import Mathlib.Logic.Relation
import ConstraintNet.Proofs.Counters
import ConstraintNet.Proofs.Description
import ConstraintNet.Proofs.GreatestFamily
import ConstraintNet.Proofs.ParallelConstraints
import ConstraintNet.Proofs.Solver

namespace ConstraintNet

/-! ## §1. Uses of constraints. -/

namespace Statistics

/-- The number of uses of all constraints together. -/
def totalUses (stats : Statistics) : Nat := total (fun entry => entry.2.revisions) stats.tallies

/-- The counters after these uses, each with the number of values that it pruned. -/
def record (stats : Statistics) (uses : List (ConstraintId × Nat)) : Statistics :=
  uses.foldl (fun stats use => stats.recordUse use.1 use.2) stats

/-- One entry at most stands under each position. -/
theorem total_entries_of_id (stats : Statistics) (id : ConstraintId)
    {f : ConstraintId × Tally → Nat} (hzero : f (id, ⟨0, 0⟩) = 0) :
    total f (stats.tallies.filter fun entry => id == entry.1) =
      f (id, stats.byConstraint.getD id ⟨0, 0⟩) := by
  have hmem (entry : ConstraintId × Tally) :
      entry ∈ stats.tallies.filter (fun entry => id == entry.1) ↔
        entry.1 = id ∧ stats.byConstraint[id]? = some entry.2 := by
    rw [List.mem_filter, beq_iff_eq, eq_comm (a := id), and_comm]
    refine and_congr_right fun hid => ?_
    rw [← hid]
    exact Std.TreeMap.mem_toList_iff_getElem?_eq_some
  rw [Std.TreeMap.getD_eq_getD_getElem?]
  cases htally : stats.byConstraint[id]? with
  -- a constraint that was never used counts as one with an empty tally
  | none =>
    have hnil : stats.tallies.filter (fun entry => id == entry.1) = [] := by
      refine List.eq_nil_iff_forall_not_mem.2 fun entry hentry => ?_
      have hsome := ((hmem entry).1 hentry).2
      rw [htally] at hsome
      cases hsome
    rw [hnil]
    exact hzero.symm
  | some tally =>
    have hnodup : stats.tallies.Nodup :=
      Std.TreeMap.distinct_keys_toList.imp fun hne heq =>
        hne (by rw [heq]; exact Std.ReflCmp.compare_self)
    have hperm : (stats.tallies.filter fun entry => id == entry.1).Perm [(id, tally)] := by
      refine (List.perm_ext_iff_of_nodup (hnodup.filter _) (List.pairwise_singleton _ _)).2 ?_
      intro entry
      rw [hmem entry, htally, List.mem_singleton, Option.some.injEq, Prod.ext_iff,
        eq_comm (a := tally)]
    rw [total_eq_of_perm f hperm]
    rfl

/-- A use of a constraint changes the total over the tallies by what it changes in its own. -/
theorem total_tallies_recordUse (stats : Statistics) (id : ConstraintId) (pruned : Nat)
    {f : ConstraintId × Tally → Nat} (hzero : f (id, ⟨0, 0⟩) = 0) :
    total f (stats.recordUse id pruned).tallies + f (id, stats.byConstraint.getD id ⟨0, 0⟩) =
      total f stats.tallies +
        f (id, ⟨(stats.byConstraint.getD id ⟨0, 0⟩).revisions + 1,
          (stats.byConstraint.getD id ⟨0, 0⟩).prunings + pruned⟩) := by
  have hparts := total_filter_add_total_filter_not f (fun entry => id == entry.1) stats.tallies
  rw [stats.total_entries_of_id id hzero] at hparts
  have hinserted := total_eq_of_perm f
    (Std.TreeMap.toList_insert_perm (t := stats.byConstraint) (k := id)
      (v := ⟨(stats.byConstraint.getD id ⟨0, 0⟩).revisions + 1,
        (stats.byConstraint.getD id ⟨0, 0⟩).prunings + pruned⟩))
  simp only [total_cons, Bool.not_eq_true, Bool.decide_eq_false] at hinserted
  show total f (stats.byConstraint.insert id _).toList + _ = _
  rw [hinserted]
  show _ + total f (stats.tallies.filter fun entry => !(id == entry.1)) + _ = _
  omega

/-- A use counts once. -/
theorem totalUses_recordUse (stats : Statistics) (id : ConstraintId) (pruned : Nat) :
    (stats.recordUse id pruned).totalUses = stats.totalUses + 1 := by
  have htotal : (stats.recordUse id pruned).totalUses +
      (stats.byConstraint.getD id ⟨0, 0⟩).revisions =
      stats.totalUses + ((stats.byConstraint.getD id ⟨0, 0⟩).revisions + 1) :=
    stats.total_tallies_recordUse id pruned (f := fun entry => entry.2.revisions) rfl
  omega

/-- A use adds what it pruned to the total. -/
theorem totalPrunings_recordUse (stats : Statistics) (id : ConstraintId) (pruned : Nat) :
    (stats.recordUse id pruned).totalPrunings = stats.totalPrunings + pruned := by
  have htotal : (stats.recordUse id pruned).totalPrunings +
      (stats.byConstraint.getD id ⟨0, 0⟩).prunings =
      stats.totalPrunings + ((stats.byConstraint.getD id ⟨0, 0⟩).prunings + pruned) :=
    stats.total_tallies_recordUse id pruned (f := fun entry => entry.2.prunings) rfl
  omega

/-- A list of uses counts as many as it has. -/
theorem totalUses_record (stats : Statistics) (uses : List (ConstraintId × Nat)) :
    (stats.record uses).totalUses = stats.totalUses + uses.length := by
  induction uses generalizing stats with
  | nil => rfl
  | cons use uses ih =>
    show ((stats.recordUse use.1 use.2).record uses).totalUses = _
    rw [ih, totalUses_recordUse, List.length_cons, Nat.add_assoc, Nat.add_comm 1]

/-- A list of uses adds what all of them pruned together. -/
theorem totalPrunings_record (stats : Statistics) (uses : List (ConstraintId × Nat)) :
    (stats.record uses).totalPrunings = stats.totalPrunings + total Prod.snd uses := by
  induction uses generalizing stats with
  | nil => rfl
  | cons use uses ih =>
    show ((stats.recordUse use.1 use.2).record uses).totalPrunings = _
    rw [ih, totalPrunings_recordUse, total_cons, Nat.add_assoc]

/-- To charge constraints is not to count a revision. -/
theorem revisions_record (stats : Statistics) (uses : List (ConstraintId × Nat)) :
    (stats.record uses).revisions = stats.revisions := by
  induction uses generalizing stats with
  | nil => rfl
  | cons use uses ih => exact ih (stats.recordUse use.1 use.2)

/-- A constraint has a tally when it had one before or is among the uses. -/
theorem mem_byConstraint_record {stats : Statistics} {uses : List (ConstraintId × Nat)}
    {id : ConstraintId} :
    id ∈ (stats.record uses).byConstraint ↔ id ∈ stats.byConstraint ∨ id ∈ uses.map Prod.fst := by
  induction uses generalizing stats with
  | nil => simp [record]
  | cons use uses ih =>
    show id ∈ ((stats.recordUse use.1 use.2).record uses).byConstraint ↔ _
    rw [ih, List.map_cons, List.mem_cons]
    unfold recordUse
    rw [Std.TreeMap.mem_insert, Std.compare_eq_iff_eq, eq_comm (a := use.1),
      or_comm (a := id = use.1), or_assoc]

end Statistics

/-! ## §2. What one revision charges. -/

/-- From `stats` to `stats'`, some of the constraints were used, the first ones, and at least one if
there are any; and they were charged with what `size'` is less than `size`. -/
structure Charged (ids : List ConstraintId) (uses : List (ConstraintId × Nat)) (size size' : Nat)
    (stats stats' : Statistics) : Prop where
  stats_eq : stats' = stats.record uses
  used : uses.map Prod.fst <+: ids
  some_used : ids ≠ [] → uses ≠ []
  charged : size' + total Prod.snd uses = size

section Charging

variable {ids : List ConstraintId} {uses : List (ConstraintId × Nat)} {id : ConstraintId}
  {size between size' : Nat} {stats stats' : Statistics}

/-- Without constraints nothing is used, charged or lost. -/
theorem charged_nil (size : Nat) (stats : Statistics) : Charged [] [] size size stats stats :=
  ⟨rfl, List.nil_prefix, fun h => absurd rfl h, rfl⟩

/-- The next constraint was used as the last. -/
theorem charged_single (ids : List ConstraintId) (id : ConstraintId) (hle : size' ≤ size)
    (stats : Statistics) :
    Charged (id :: ids) [(id, size - size')] size size' stats (stats.recordUse id (size - size')) :=
  ⟨rfl, List.prefix_cons_inj id |>.2 List.nil_prefix, fun _ => List.cons_ne_nil _ _, by
    rw [total_cons, total_nil]
    omega⟩

/-- The next constraint was used before the others. -/
theorem Charged.cons (hle : between ≤ size)
    (h : Charged ids uses between size' (stats.recordUse id (size - between)) stats') :
    Charged (id :: ids) ((id, size - between) :: uses) size size' stats stats' := by
  refine ⟨h.stats_eq, ?_, fun _ => List.cons_ne_nil _ _, ?_⟩
  · rw [List.map_cons]
    exact (List.prefix_cons_inj id).2 h.used
  · have := h.charged
    rw [total_cons]
    omega

end Charging

/-- Revision value by value charges all constraints. -/
theorem exists_charged_keepSupported (target : VariableId) (candidates : Domain)
    (shared : List (ConstraintId × Constraint)) (domain : Domain) (stats : Statistics) :
    ∃ uses, Charged (shared.map Prod.fst) uses domain.size
      (keepSupported target candidates shared domain stats).1.size stats
      (keepSupported target candidates shared domain stats).2 := by
  induction shared generalizing domain stats with
  | nil => exact ⟨[], charged_nil domain.size stats⟩
  | cons entry rest ih =>
    obtain ⟨id, c⟩ := entry
    obtain ⟨uses, huses⟩ := ih (domain.filter (c.hasSupport target candidates))
      (stats.recordUse id
        (domain.size - (domain.filter (c.hasSupport target candidates)).size))
    exact ⟨_, huses.cons (Domain.size_filter_le _ _)⟩

/-- Revision set by set charges the constraints up to the one that leaves nothing. -/
theorem exists_charged_keepImage (var : VariableId) (candidates : Domain)
    (shared : List (ConstraintId × Constraint)) (domain : Domain) (stats : Statistics) :
    ∃ uses, Charged (shared.map Prod.fst) uses domain.size
      (keepImage var candidates shared domain stats).2.1.size stats
      (keepImage var candidates shared domain stats).2.2 := by
  induction shared generalizing domain stats with
  | nil => exact ⟨[], charged_nil domain.size stats⟩
  | cons entry rest ih =>
    obtain ⟨id, c⟩ := entry
    have hle : (c.image var candidates domain).size ≤ domain.size :=
      Domain.size_le_of_subset fun v hv => (mem_image_iff_allows.1 hv).1
    rw [keepImage_cons]
    split
    · exact ⟨_, charged_single _ id hle stats⟩
    · obtain ⟨uses, huses⟩ := ih (c.image var candidates domain)
        (stats.recordUse id (domain.size - (c.image var candidates domain).size))
      exact ⟨_, huses.cons hle⟩

/-- One revision of `x` or `y` by the other has led from `s` to `s'`: it counts once, and its
constraints are charged with the values that it took away. -/
def RevisedBetween (net : Network) (x y : VariableId) (s s' : Session) : Prop :=
  ∃ uses, Charged (net.constraintsBetween x y) uses s.totalSize s'.totalSize s.stats.countRevision
    s'.stats

variable {net : Network} {s s' : Session} {x y : VariableId}

/-- What a variable has lost is what the session has lost. -/
theorem Charged.setDomain {ids : List ConstraintId} {uses : List (ConstraintId × Nat)}
    {kept : Domain} {stats stats' : Statistics}
    (h : Charged ids uses (s.dom x).size kept.size stats stats') (hx : x < s.domains.size) :
    Charged ids uses s.totalSize ((s.setDomain x kept).withStats stats').totalSize stats
      stats' := by
  have htotal := totalSize_setDomain kept (Session.domain?_eq_some hx)
  have hcharged := h.charged
  refine ⟨h.stats_eq, h.used, h.some_used, ?_⟩
  rw [Session.totalSize_withStats]
  omega

/-- **An arc revision charges what it prunes.** -/
theorem revisedBetween_of_revise? {arc : Arc} {outcome : Revision}
    (h : revise? net s arc = some (outcome, s')) :
    RevisedBetween net arc.target arc.support s s' := by
  obtain ⟨htarget, kept, stats, hkept, rfl, _⟩ := kept_of_revise? h
  obtain ⟨uses, huses⟩ := exists_charged_keepSupported arc.target (s.dom arc.support)
    (net.sharedConstraints arc.target arc.support) (s.dom arc.target) s.stats.countRevision
  rw [hkept] at huses
  exact ⟨uses, huses.setDomain htarget⟩

/-- **So does a revision set by set**, between variables that share a constraint. -/
theorem revisedBetween_of_reviseFuture? {var future : VariableId} {consistent : Bool}
    (hshared : net.sharedConstraints var future ≠ [])
    (h : reviseFuture? net s var future = some (consistent, s')) :
    RevisedBetween net var future s s' := by
  obtain ⟨hfuture, kept, stats, hkept, rfl⟩ := kept_of_reviseFuture? hshared h
  obtain ⟨uses, huses⟩ := exists_charged_keepImage var (s.dom var)
    (net.sharedConstraints var future) (s.dom future) s.stats.countRevision
  rw [hkept] at huses
  exact ⟨uses, huses.setDomain hfuture⟩

/-! ## §3. Propagations. -/

/-- Revisions between neighbours, one after another, have led from `s` to `s'`. -/
def RevisedOn (net : Network) : Session → Session → Prop :=
  Relation.ReflTransGen fun s s' => ∃ x y, net.Adjacent x y ∧ RevisedBetween net x y s s'

/-- Without a revision nothing changes. -/
theorem RevisedOn.refl (net : Network) (s : Session) : RevisedOn net s s :=
  Relation.ReflTransGen.refl

/-- A revision, and those after it. -/
theorem RevisedOn.head {s'' : Session} (hadjacent : net.Adjacent x y)
    (hrevised : RevisedBetween net x y s s') (h : RevisedOn net s' s'') : RevisedOn net s s'' :=
  Relation.ReflTransGen.head ⟨x, y, hadjacent, hrevised⟩ h

namespace ArcConsistency

variable {policy : RequeuePolicy} {queue queue' : ArcQueue} {result : Propagated}

/-- Draining a queue is one revision after another, one for each arc that is taken out. -/
theorem Drains.revisedOn (h : Drains net policy queue s result) (hexact : queue.Exact)
    (hadjacent : ∀ arc ∈ queue.toList, net.Adjacent arc.target arc.support) :
    RevisedOn net s result.session := by
  induction h with
  | idle _ => exact .refl net _
  | wipedOut hpop hrev =>
    rw [ArcQueue.toList_of_pop? hpop] at hadjacent
    obtain ⟨harc, _⟩ := List.forall_mem_cons.1 hadjacent
    exact .head harc (revisedBetween_of_revise? hrev) (.refl net _)
  | revised hpop hrev hnext _ ih =>
    rw [ArcQueue.toList_of_pop? hpop] at hadjacent
    obtain ⟨harc, hrest⟩ := List.forall_mem_cons.1 hadjacent
    have hrequeued := hnext.requeued (hexact.of_pop? hpop)
    refine .head harc (revisedBetween_of_revise? hrev) (ih hrequeued.exact ?_)
    -- only arcs into the target came to wait again
    intro other hother
    rcases hrequeued.added other hother with hold | ⟨hsupport, htarget⟩
    · exact hrest other hold
    · rw [hsupport]
      exact htarget.symm

/-- A full pass drains the queue that it has filled with arcs between neighbours. -/
theorem revisedOn_of_establish? (hqueue : queue.Idle)
    (h : establish? net policy queue s = some result) : RevisedOn net s result.session :=
  (drains_of_drain? h).revisedOn (mem_seedAll net hqueue.exact).1 fun _ =>
    (adjacent_of_mem_seedAll hqueue).1

/-- A pass after a decision drains arcs that point to the decided variable. -/
theorem revisedOn_of_propagate? (hqueue : queue.Idle) {changed : VariableId}
    (h : propagate? net policy queue s changed = some result) : RevisedOn net s result.session := by
  unfold propagate? at h
  split at h
  next => cases h
  next queue' hseeded =>
    obtain ⟨hexact, hmem⟩ := mem_seedChanged? hqueue.exact hseeded
    refine (drains_of_drain? h).revisedOn hexact ?_
    intro arc harc
    rcases (hmem arc).1 harc with hold | ⟨z, hz, hseed⟩
    · rw [hqueue.toList_eq] at hold
      cases hold
    · rcases mem_seeds hseed with rfl | rfl
      · exact hz.symm
      · exact hz

end ArcConsistency

/-- Forward checking revises the undecided variables that share a constraint with the decided
one. -/
theorem ForwardChecking.revisedOn_of_propagate? {changed : VariableId}
    {undecided : List VariableId} {consistent : Bool}
    (h : propagate? net s changed undecided = some (consistent, s')) : RevisedOn net s s' := by
  -- A neighbour is revised only when it shares a constraint with the changed variable, so each
  -- revision is between neighbours and is charged to some constraint.
  have hadjacent {future : VariableId}
      (hshared : ¬ (net.sharedConstraints changed future).isEmpty = true) :
      net.sharedConstraints changed future ≠ [] ∧ net.Adjacent changed future := by
    rw [List.isEmpty_iff, net.sharedConstraints_eq_nil_iff, not_not] at hshared
    exact ⟨fun hnil => net.sharedConstraints_eq_nil_iff.1 hnil hshared, hshared⟩
  fun_induction propagate? net s changed undecided with
  | case1 s =>
    obtain ⟨_, rfl⟩ := Prod.mk.inj (Option.some.inj h)
    exact .refl net s
  | case2 s rest ih => exact ih h
  | case3 => cases h
  | case4 s future rest _ _ ih => exact ih h
  | case5 s future rest _ _ _ ih => exact ih h
  | case6 => cases h
  | case7 s future rest _ _ hshared between hrev =>
    obtain ⟨_, rfl⟩ := Prod.mk.inj (Option.some.inj h)
    obtain ⟨hne, hjoined⟩ := hadjacent hshared
    exact .head hjoined (revisedBetween_of_reviseFuture? hne hrev) (.refl net _)
  | case8 s future rest _ _ hshared between hrev ih =>
    obtain ⟨hne, hjoined⟩ := hadjacent hshared
    exact .head hjoined (revisedBetween_of_reviseFuture? hne hrev) (ih h)

namespace Settings

variable {settings : Settings} {queue : ArcQueue} {result : Propagated}

/-- The same of whatever the settings prepare a search with. -/
theorem revisedOn_of_prepare? (h : settings.prepare? net queue s = some result) :
    RevisedOn net s result.session := by
  unfold prepare? at h
  split at h
  next =>
    obtain rfl := Option.some.inj h
    exact .refl net s
  next => exact ArcConsistency.revisedOn_of_establish? ArcQueue.idle_empty h

theorem revisedOn_of_propagate? (hqueue : settings.Ready queue) {changed : VariableId}
    {undecided : List VariableId}
    (h : settings.propagate? net queue s changed undecided = some result) :
    RevisedOn net s result.session := by
  unfold propagate? at h
  split at h
  next =>
    obtain ⟨⟨consistent, s'⟩, hchecked, rfl⟩ := Option.map_eq_some_iff.1 h
    exact ForwardChecking.revisedOn_of_propagate? hchecked
  next halgorithm => exact ArcConsistency.revisedOn_of_propagate? (hqueue halgorithm) h

end Settings

/-! ## §4. Lost values and pruned values. -/

/-- No value was added from `s` to `s'`, and those that were lost are the ones that were tallied as
pruned. -/
structure Session.Accounts (s s' : Session) : Prop where
  totalSize_le : s'.totalSize ≤ s.totalSize
  totalPrunings_eq :
    s'.stats.totalPrunings = s.stats.totalPrunings + (s.totalSize - s'.totalSize)

/-- What the constraints were charged with is what was lost. -/
theorem RevisedBetween.accounts (h : RevisedBetween net x y s s') : s.Accounts s' := by
  obtain ⟨uses, hstats, _, _, hcharged⟩ := h
  have hprunings := s.stats.countRevision.totalPrunings_record uses
  rw [← hstats] at hprunings
  have hsame : s.stats.countRevision.totalPrunings = s.stats.totalPrunings := rfl
  exact ⟨by omega, by omega⟩

/-- **A propagation accounts for every value that it takes away.** -/
theorem RevisedOn.accounts (h : RevisedOn net s s') : s.Accounts s' := by
  induction h with
  | refl => exact ⟨Nat.le_refl _, by rw [Nat.sub_self, Nat.add_zero]⟩
  | tail _ hlast ih =>
    obtain ⟨_, _, _, hrevised⟩ := hlast
    obtain ⟨hle, hprunings⟩ := ih
    obtain ⟨hle', hprunings'⟩ := hrevised.accounts
    exact ⟨by omega, by omega⟩

/-! ## §5. Revisions and uses. -/

/-- Two constraints between the same two variables are one too many for a simple network. -/
theorem Network.Simple.length_constraintsBetween_le (h : net.Simple) (x y : VariableId) :
    (net.constraintsBetween x y).length ≤ 1 := by
  have hpairwise : (net.sharedConstraints x y).Pairwise fun entry entry' =>
      ¬ entry.2.Joins entry'.2.first entry'.2.second := by
    rw [net.sharedConstraints_eq_filterMap, List.pairwise_filterMap]
    have hall : (net.constraints.toList.zipIdx.map Prod.fst).Pairwise
        fun c d => ¬ c.Joins d.first d.second := by
      rw [List.zipIdx_map_fst]
      exact h
    refine (List.pairwise_map.1 hall).imp ?_
    intro n n' hnot entry hentry entry' hentry'
    obtain ⟨_, heq⟩ := Option.ite_none_right_eq_some.1 hentry
    obtain ⟨_, heq'⟩ := Option.ite_none_right_eq_some.1 hentry'
    rw [← Option.some.inj heq, ← Option.some.inj heq']
    exact hnot
  unfold constraintsBetween
  rw [List.length_map]
  -- Two shared constraints would join the same pair, which a simple network excludes.
  match hshared : net.sharedConstraints x y with
  | [] => exact Nat.zero_le _
  | [_] => exact Nat.le_refl _
  | entry :: entry' :: _ =>
    rw [hshared] at hpairwise
    have hjoins := (net.sharedConstraints_mem (hshared ▸ List.mem_cons_self)).2
    have hjoins' := (net.sharedConstraints_mem
      (hshared ▸ List.mem_cons_of_mem _ List.mem_cons_self)).2
    exact absurd (hjoins.joins_ends hjoins')
      (List.rel_of_pairwise_cons hpairwise List.mem_cons_self)

/-- There are tallies of constraints of the network alone, and in them at least one use for every
revision; where no two constraints bind the same two variables, just one. -/
structure Statistics.Tallied (net : Network) (stats : Statistics) : Prop where
  known : ∀ id ∈ stats.byConstraint, id < net.constraints.size
  revisions_le : stats.revisions ≤ stats.totalUses
  totalUses_eq : net.Simple → stats.totalUses = stats.revisions

namespace Statistics

/-- At the beginning nothing is used and nothing revised. -/
theorem tallied_zero (net : Network) : zero.Tallied net := by
  refine ⟨?_, Nat.zero_le _, fun _ => rfl⟩
  intro id hid
  exact absurd hid Std.TreeMap.not_mem_emptyc

/-- The other counters do not matter. -/
theorem Tallied.congr {stats stats' : Statistics} (h : stats.Tallied net)
    (hrevisions : stats'.revisions = stats.revisions)
    (htallies : stats'.byConstraint = stats.byConstraint) : stats'.Tallied net := by
  have huses : stats'.totalUses = stats.totalUses := by
    unfold totalUses tallies
    rw [htallies]
  refine ⟨?_, ?_, ?_⟩
  · rw [htallies]
    exact h.known
  · rw [hrevisions, huses]
    exact h.revisions_le
  · rw [hrevisions, huses]
    exact h.totalUses_eq

end Statistics

/-- A revision between neighbours counts once and uses one constraint or more. -/
theorem RevisedBetween.tallied (h : RevisedBetween net x y s s') (hadjacent : net.Adjacent x y)
    (htallied : s.stats.Tallied net) : s'.stats.Tallied net := by
  obtain ⟨uses, hstats, hused, hsome, _⟩ := h
  have hrevisions := s.stats.countRevision.revisions_record uses
  have huses := s.stats.countRevision.totalUses_record uses
  rw [← hstats] at hrevisions huses
  have hrevisions : s'.stats.revisions = s.stats.revisions + 1 := hrevisions
  have huses : s'.stats.totalUses = s.stats.totalUses + uses.length := huses
  -- Neighbours share a constraint, so the revision is charged at least once.
  have hpos : 0 < uses.length :=
    List.length_pos_iff.2 (hsome (net.constraintsBetween_ne_nil_iff.2 hadjacent))
  refine ⟨?_, ?_, ?_⟩
  · intro id hid
    rw [hstats, Statistics.mem_byConstraint_record] at hid
    rcases hid with hold | hnew
    · exact htallied.known id hold
    · obtain ⟨c, hc, _⟩ := net.mem_constraintsBetween.1 (hused.subset hnew)
      exact (Array.getElem?_eq_some_iff.1 hc).1
  · have := htallied.revisions_le
    omega
  · intro hsimple
    -- In a simple network there is only one constraint to charge.
    have hone := hsimple.length_constraintsBetween_le x y
    have hle := hused.length_le
    rw [List.length_map] at hle
    have := htallied.totalUses_eq hsimple
    omega

/-- **A propagation tallies every revision that it counts.** -/
theorem RevisedOn.tallied (h : RevisedOn net s s') (htallied : s.stats.Tallied net) :
    s'.stats.Tallied net := by
  induction h with
  | refl => exact htallied
  | tail _ hlast ih =>
    obtain ⟨_, _, hadjacent, hrevised⟩ := hlast
    exact hrevised.tallied hadjacent ih

/-! ## §6. Searches. -/

namespace Search

variable {settings : Settings} {call : Call} {st' : SearchState} {found : Bool}

/-- A node that has chosen its branch has only counted itself. -/
theorem tallied_of_choose? {st chosen : SearchState} {remaining : List VariableId}
    {var : VariableId} {value : Value} (h : st.session.stats.Tallied net)
    (hchoose : choose? settings (st.mapStats Statistics.countNode) remaining =
      some (some (var, value), chosen)) : chosen.session.stats.Tallied net := by
  rw [(of_choose? hchoose).1.1]
  exact h.congr rfl rfl

/-- **Every valid call keeps the tallies.** Besides its propagations it only changes counters that
they do not mention. -/
theorem Runs.tallied (h : Runs net settings call found st') (hvalid : call.Valid net settings)
    (htallied : call.state.session.stats.Tallied net) : st'.session.stats.Tallied net := by
  -- Only propagation touches the tallies; choosing, deciding and undoing keep the record as it was.
  induction h with
  | complete _ => exact htallied.congr rfl rfl
  | left _ hchoose _ ih => exact ih (hvalid.choose hchoose).1 (tallied_of_choose? htallied hchoose)
  | right _ hchoose hruns _ ihleft ihright =>
    have hequal := (hvalid.choose hchoose).1
    obtain ⟨hleaves, hready⟩ := hruns.leaves hequal
    have hbetween := ihleft hequal (tallied_of_choose? htallied hchoose)
    exact ihright (hequal.other hleaves hready) hbetween
  | @equal st st' decided restored session _ _ _ _ hassign _ hrestore hunassign ih =>
    have hdecided : decided.stats.Tallied net := by
      rw [(Session.sameRecord_of_assign? hassign).stats_eq]
      exact htallied.congr rfl rfl
    show session.stats.Tallied net
    rw [(Session.sameRecord_of_withdrawal hrestore hunassign).stats_eq]
    exact ih (hvalid.assign hassign) hdecided
  | @emptied st narrowed session _ _ _ _ _ hremove _ hinsert =>
    show session.stats.Tallied net
    rw [(Session.sameRecord_of_insertValue? hinsert).stats_eq]
    show narrowed.stats.countBacktrack.Tallied net
    rw [(Session.sameRecord_of_removeValue? hremove).stats_eq]
    exact htallied.congr rfl rfl
  | @other st st' narrowed restored session _ _ _ _ _ _ hremove hsome _ hrestore hinsert ih =>
    have hnarrowed : narrowed.checkpoint.stats.Tallied net := by
      have hremoved : narrowed.stats.Tallied net := by
        rw [(Session.sameRecord_of_removeValue? hremove).stats_eq]
        exact htallied
      exact hremoved.congr rfl rfl
    show session.stats.Tallied net
    rw [(Session.sameRecord_of_return hrestore hinsert).stats_eq]
    exact ih (hvalid.exclude hremove hsome) hnarrowed
  | refuted hpropagate _ =>
    have hpropagated := (Settings.revisedOn_of_propagate? hvalid.1.2 hpropagate).tallied htallied
    exact hpropagated.congr rfl rfl
  | followed hpropagate htrue _ ih =>
    obtain ⟨_, _, hnode⟩ := hvalid.propagated hpropagate
    exact ih (hnode htrue)
      ((Settings.revisedOn_of_propagate? hvalid.1.2 hpropagate).tallied htallied)

/-- So at the end of every search the tallies are those of constraints of the network. -/
theorem Ends.tallied {queue : ArcQueue} {journal : Journal}
    (h : Ends net settings ⟨Session.start net, queue, journal⟩ st') :
    st'.session.stats.Tallied net := by
  have hstart : (Session.start net).stats.Tallied net := Statistics.tallied_zero net
  cases h with
  | refuted hprepare _ => exact (Settings.revisedOn_of_prepare? hprepare).tallied hstart
  | explored hprepare htrue hruns =>
    obtain ⟨_, hnode⟩ := of_prepare? journal hprepare
    exact hruns.tallied (hnode htrue) ((Settings.revisedOn_of_prepare? hprepare).tallied hstart)

end Search

/-- **Losses and revisions are tallied.** From any session of the network, full arc consistency and
arc consistency after a change under either policy, and forward checking, give an answer, and the
values that they tally as pruned are just as many as the domains have lost. Over a whole search of
the network, under any settings, the constraints are used at least as often as arcs are revised,
and just as often when no two constraints bind the same two variables; and every tally is that of a
constraint of the network. -/
theorem Network.losses_are_tallied (net : Network) :
    (∀ s : Session, s.domains.size = net.size → s.assignment.size = net.size →
      (∀ policy queue, queue.Idle →
        ∃ result, ArcConsistency.establish? net policy queue s = some result ∧
          s.Accounts result.session) ∧
      (∀ policy queue changed, queue.Idle → changed < net.size →
        ∃ result, ArcConsistency.propagate? net policy queue s changed = some result ∧
          s.Accounts result.session) ∧
      (∀ changed undecided, changed < net.size → (∀ z ∈ undecided, z < net.size) →
        ∃ consistent s', ForwardChecking.propagate? net s changed undecided =
          some (consistent, s') ∧ s.Accounts s')) ∧
    (∀ engine : Engine, engine.network = net →
      ∃ outcome engine', engine.start.solve = .ok (outcome, engine') ∧
        outcome.stats.revisions ≤ outcome.stats.totalUses ∧
        (net.Simple → outcome.stats.totalUses = outcome.stats.revisions) ∧
        ∀ id ∈ outcome.stats.byConstraint, id < net.constraints.size) := by
  constructor
  · intro s hsize hassignment
    refine ⟨?_, ?_, ?_⟩
    · intro policy queue hqueue
      obtain ⟨result, hresult, _⟩ := ArcConsistency.exists_establish? net policy hqueue hsize
      exact ⟨result, hresult, (ArcConsistency.revisedOn_of_establish? hqueue hresult).accounts⟩
    · intro policy queue changed hqueue hchanged
      obtain ⟨result, hresult, _⟩ :=
        ArcConsistency.exists_propagate? net policy hqueue hsize hchanged
      exact ⟨result, hresult, (ArcConsistency.revisedOn_of_propagate? hqueue hresult).accounts⟩
    · intro changed undecided hchanged hundecided
      obtain ⟨consistent, s', hresult, _⟩ :=
        ForwardChecking.exists_propagate? net ∅ hchanged undecided hsize hassignment hundecided
      exact ⟨consistent, s', hresult,
        (ForwardChecking.revisedOn_of_propagate? hresult).accounts⟩
  · intro engine hnetwork
    subst hnetwork
    obtain ⟨st', hends, hsolve⟩ := engine.exists_solve
    obtain ⟨hknown, hle, heq⟩ := hends.tallied
    exact ⟨_, _, hsolve, hle, heq, hknown⟩

open ArcConsistency in
/-- A full pass over the three rising variables under the legacy policy, and forward checking of
the whole network, which is simple. -/
theorem rising_losses_are_tallied :
    (rising.Simple ∧ (∅ : ArcQueue).Idle ∧ (Session.start rising).domains.size = rising.size ∧
      (Session.start rising).assignment.size = rising.size) ∧
    (∃ result, establish? rising .legacy ∅ (Session.start rising) = some result ∧
      (Session.start rising).Accounts result.session) ∧
    ∃ outcome engine, (Engine.start ⟨rising, ⟨.forwardChecking, .minimumRemainingValues,
        .descending, .symmetric⟩, ∅, .start 0, none⟩).solve = .ok (outcome, engine) ∧
      outcome.stats.totalUses = outcome.stats.revisions := by
  have hsimple : rising.Simple := by
    unfold Network.Simple
    decide
  have hstart := coherent_start rising
  obtain ⟨hpropagations, hsearches⟩ := Network.losses_are_tallied rising
  obtain ⟨hestablish, _, _⟩ :=
    hpropagations (Session.start rising) hstart.size_domains hstart.size_assignment
  obtain ⟨outcome, engine, hsolve, _, huses, _⟩ := hsearches ⟨rising, ⟨.forwardChecking,
    .minimumRemainingValues, .descending, .symmetric⟩, ∅, .start 0, none⟩ rfl
  exact ⟨⟨hsimple, ArcQueue.idle_empty, hstart.size_domains, hstart.size_assignment⟩,
    hestablish .legacy ∅ ArcQueue.idle_empty, outcome, engine, hsolve, huses hsimple⟩

end ConstraintNet
