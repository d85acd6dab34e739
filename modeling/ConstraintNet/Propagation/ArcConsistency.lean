/-
  ConstraintNet.Propagation.ArcConsistency
  ────────────────────────────────────────
  **REVISING ARCS UNTIL NOTHING CHANGES.**

  Arcs wait in a queue.  `drain?` takes the oldest, revises it, and lets the
  arcs that the revision may have disturbed wait again; it ends when the
  queue is empty or a domain is.  Either way the queue that it returns is
  empty, so one queue serves any number of runs.

  The loop ends because a revision that prunes lowers the total size of the
  domains, and any other shortens the queue: `requeueBound` says how many
  arcs a lost value can pay for.
-/
import ConstraintNet.Propagation.Revision
import ConstraintNet.Settings

namespace ConstraintNet

/-- The end of a propagation. -/
structure Propagated where
  /-- Whether every domain that was looked at still has a value. -/
  consistent : Bool
  /-- The arcs that wait. -/
  queue : ArcQueue
  session : Session

namespace ArcConsistency

/-! ## §1. Arcs that have to wait. -/

/-- One constraint of the scan that `requeueByScan` makes. The flag says whether an arc of the
scan was found waiting; it is shared by the whole scan and never taken back. A constraint that is
stored towards the target queues its arc while the flag is down, one that is stored away from the
target queues its arc once the flag is up. -/
def scanConstraint (arc : Arc) (state : Bool × ArcQueue) (c : Constraint) : Bool × ArcQueue :=
  let (found, queue) := state
  if c.second = arc.target ∧ c.first ≠ arc.support then
    let incoming : Arc := ⟨c.first, arc.target⟩
    let found := found || queue.contains incoming
    (found, if found then queue else queue.pushAgain incoming)
  else if c.first = arc.target ∧ c.second ≠ arc.support then
    let incoming : Arc := ⟨c.second, arc.target⟩
    let found := found || queue.contains incoming
    (found, if found then queue.pushAgain incoming else queue)
  else (found, queue)

/-- The queue after the arcs that a scan of the constraint list picks. -/
def requeueByScan (net : Network) (queue : ArcQueue) (arc : Arc) : ArcQueue :=
  (net.constraints.foldl (scanConstraint arc) (false, queue)).2

/-- The queue after a revision has pruned the target of `arc`; `none` when the network does not
have the target and has to look up its neighbours. -/
def requeue? (net : Network) (policy : RequeuePolicy) (queue : ArcQueue) (arc : Arc) :
    Option ArcQueue :=
  match policy with
  | .symmetric =>
    match net.neighbours? arc.target with
    | none => none
    | some neighbours =>
      some ((neighbours.filter fun z => z ≠ arc.support).foldl
        (fun queue z => queue.push ⟨z, arc.target⟩) queue)
  | .legacy => some (requeueByScan net queue arc)

/-- The queue with both arcs of every constraint. -/
def seedAll (net : Network) (queue : ArcQueue) : ArcQueue :=
  net.constraints.foldl
    (fun queue c => (queue.push ⟨c.first, c.second⟩).push ⟨c.second, c.first⟩) queue

/-- The queue with the arcs that a change of `changed` disturbs: from `changed` to each neighbour
and, under the symmetric policy, from each neighbour back. `none` when the network does not have
the variable. -/
def seedChanged? (net : Network) (policy : RequeuePolicy) (queue : ArcQueue)
    (changed : VariableId) : Option ArcQueue :=
  match net.neighbours? changed with
  | none => none
  | some neighbours =>
    some (neighbours.foldl
      (fun queue z =>
        let queue := queue.push ⟨z, changed⟩
        match policy with
        | .symmetric => queue.push ⟨changed, z⟩
        | .legacy => queue)
      queue)

/-! ## §2. How many arcs one revision can queue. -/

/-- A bound on the arcs that wait again after one revision, under either policy. -/
def requeueBound (net : Network) : Nat :=
  net.constraints.size + total (fun links => links.neighbours.length) net.links.toList

theorem size_push_le (queue : ArcQueue) (arc : Arc) : (queue.push arc).size ≤ queue.size + 1 := by
  unfold ArcQueue.push
  split
  · omega
  · exact Nat.le_of_eq (ArcQueue.size_pushAgain queue arc)

theorem size_scanConstraint_le (arc : Arc) (state : Bool × ArcQueue) (c : Constraint) :
    (scanConstraint arc state c).2.size ≤ state.2.size + 1 := by
  unfold scanConstraint
  grind [ArcQueue.size_pushAgain]

theorem size_foldl_le {α β : Type} (size : β → Nat) (step : β → α → β)
    (hstep : ∀ b a, size (step b a) ≤ size b + 1) (l : List α) (b : β) :
    size (l.foldl step b) ≤ size b + l.length := by
  induction l generalizing b with
  | nil => exact Nat.le_refl _
  | cons a l ih =>
    have h₁ := ih (step b a)
    have h₂ := hstep b a
    simp only [List.foldl_cons, List.length_cons]
    omega

theorem length_neighbours?_le {net : Network} {var : VariableId} {neighbours : List VariableId}
    (h : net.neighbours? var = some neighbours) :
    neighbours.length ≤ total (fun links => links.neighbours.length) net.links.toList := by
  obtain ⟨links, hlinks, rfl⟩ := Option.map_eq_some_iff.1 h
  have hmem : links ∈ net.links.toList := List.mem_of_getElem? (by simpa using hlinks)
  exact le_total_of_mem (fun links => links.neighbours.length) hmem

/-- After a revision no more arcs are added than the network has links and constraints. -/
theorem size_requeue?_le {net : Network} {policy : RequeuePolicy} {queue queue' : ArcQueue}
    {arc : Arc} (h : requeue? net policy queue arc = some queue') :
    queue'.size ≤ queue.size + requeueBound net := by
  unfold requeue? at h
  unfold requeueBound
  split at h
  -- symmetric: one arc per neighbour
  · split at h
    · cases h
    · next neighbours hneighbours =>
      obtain rfl := Option.some.inj h
      have h₁ := size_foldl_le ArcQueue.size
        (fun (queue : ArcQueue) z => queue.push ⟨z, arc.target⟩)
        (fun queue z => size_push_le queue ⟨z, arc.target⟩)
        (neighbours.filter fun z => z ≠ arc.support) queue
      have h₂ := List.length_filter_le (fun z => decide (z ≠ arc.support)) neighbours
      have h₃ := length_neighbours?_le hneighbours
      omega
  -- legacy: at most one arc per constraint of the scan
  · obtain rfl := Option.some.inj h
    have h₁ := size_foldl_le (fun state : Bool × ArcQueue => state.2.size) (scanConstraint arc)
      (size_scanConstraint_le arc) net.constraints.toList (false, queue)
    simp only [requeueByScan, ← Array.foldl_toList]
    simp only [Array.length_toList] at h₁
    omega

/-! ## §3. The loop. -/

/-- Revise the waiting arcs, oldest first, until none waits or a domain is empty; `none` when an
arc names a variable that does not exist. -/
def drain? (net : Network) (policy : RequeuePolicy) (queue : ArcQueue) (s : Session) :
    Option Propagated :=
  match _hpop : queue.pop? with
  | none => some ⟨true, queue, s⟩
  | some (arc, rest) =>
    match _hrev : revise? net s arc with
    | none => none
    | some (.unchanged, s') => drain? net policy rest s'
    | some (.wipedOut, s') => some ⟨false, ∅, s'⟩
    | some (.pruned, s') =>
      match _hreq : requeue? net policy rest arc with
      | none => none
      | some queue' => drain? net policy queue' s'
termination_by s.totalSize * (requeueBound net + 1) + queue.size
decreasing_by
  -- an arc that changes nothing leaves the queue
  · have hsize := ArcQueue.size_of_pop? _hpop
    have hle := Nat.mul_le_mul_right (requeueBound net + 1) (totalSize_revise? _hrev).1
    omega
  -- an arc that prunes pays for all arcs that it queues with a value
  · have hsize := ArcQueue.size_of_pop? _hpop
    have hbound := size_requeue?_le _hreq
    have hlt := Nat.mul_le_mul_right (requeueBound net + 1) ((totalSize_revise? _hrev).2 rfl)
    rw [Nat.succ_mul] at hlt
    omega

/-- Full arc consistency: both arcs of every constraint wait, behind those that wait already. -/
def establish? (net : Network) (policy : RequeuePolicy) (queue : ArcQueue) (s : Session) :
    Option Propagated :=
  drain? net policy (seedAll net queue) s

/-- Arc consistency after a change of one variable. -/
def propagate? (net : Network) (policy : RequeuePolicy) (queue : ArcQueue) (s : Session)
    (changed : VariableId) : Option Propagated :=
  match seedChanged? net policy queue changed with
  | none => none
  | some queue' => drain? net policy queue' s

end ArcConsistency

end ConstraintNet
