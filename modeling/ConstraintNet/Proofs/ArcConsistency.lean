/-
  ConstraintNet.Proofs.ArcConsistency
  ───────────────────────────────────
  **RUNS OF THE REVISION LOOP, UNDER EITHER POLICY.**

  `Drains` is the loop of arc consistency as a relation: it ends with an idle
  queue or a wiped-out domain, or it revises the oldest arc and goes on.
  `drains_of_drain?` says that the loop is a run of this kind, so that a
  statement about all runs is one case for each thing that a step can do.

  What holds of every run, whichever arcs the policy lets wait again:

      `Drains.propagates`  — it only narrows, it loses no solution, and its
                             verdict tells whether a domain was emptied
      `Drains.idle_queue`  — the queue that it leaves is idle
      `Drains.supported`   — when it ends well, every value that is left of
                             the target of an arc that waited at the start has
                             a support among the values that the other end had
                             at the start

  The last one is weaker than arc consistency, but it needs nothing of the
  policy, and it is all that a search asks of its propagation.
-/
import ConstraintNet.Propagation.ArcConsistency
import ConstraintNet.Proofs.ArcQueue
import ConstraintNet.Proofs.Revision

namespace ConstraintNet

/-! ## §1. Sound propagation. -/

/-- `result` has come from `s` by propagation: values were removed, none of them from a solution,
and the verdict is the one that the domains deserve. -/
structure Propagates (net : Network) (s : Session) (result : Propagated) : Prop where
  narrows : s.Narrows result.session
  admits : ∀ f, s.Admits net f → result.session.Admits net f
  nonempty : result.consistent = true → s.Nonempty net → result.session.Nonempty net
  emptied : result.consistent = false → ∃ x < net.size, ∀ v, v ∉ result.session.dom x

/-- A propagation leaves the solutions that it found. -/
theorem Propagates.admits_iff {net : Network} {s : Session} {result : Propagated}
    (h : Propagates net s result) (f : VariableId → Value) :
    result.session.Admits net f ↔ s.Admits net f :=
  ⟨h.narrows.admits_of_admits, h.admits f⟩

/-- A failed propagation shows that nothing was possible. -/
theorem Propagates.not_admits {net : Network} {s : Session} {result : Propagated}
    (h : Propagates net s result) (hfalse : result.consistent = false) (f : VariableId → Value) :
    ¬ s.Admits net f := by
  intro hf
  obtain ⟨x, hx, hempty⟩ := h.emptied hfalse
  exact Session.not_admits_of_empty hx hempty f (h.admits f hf)

/-- A propagation that leaves every variable a value has not failed. -/
theorem Propagates.consistent_of_nonempty {net : Network} {s : Session} {result : Propagated}
    (h : Propagates net s result) (hnonempty : result.session.Nonempty net) :
    result.consistent = true := by
  by_contra hfalse
  obtain ⟨x, hx, hempty⟩ := h.emptied (eq_false_of_ne_true hfalse)
  obtain ⟨v, hv⟩ := hnonempty x hx
  exact hempty v hv

/-- A propagation may leave everything as it is. -/
theorem propagates_refl (net : Network) (s : Session) (queue : ArcQueue) :
    Propagates net s ⟨true, queue, s⟩ :=
  ⟨Session.Narrows.refl s, fun _ hf => hf, fun _ hs => hs, fun h => by cases h⟩

/-- A propagation that goes on from a revision that left a value. -/
theorem Propagates.after_revision {net : Network} {s s' : Session} {arc : Arc}
    {result : Propagated} (hrev : Revised net s arc s') (hsupport : arc.support < net.size)
    (hsome : ∃ v, v ∈ s'.dom arc.target) (h : Propagates net s' result) :
    Propagates net s result where
  narrows := hrev.narrows.trans h.narrows
  admits f hf := h.admits f (hrev.admits_of_admits hsupport hf)
  nonempty htrue hs := h.nonempty htrue fun x hx => hrev.exists_mem hsome (hs x hx)
  emptied := h.emptied

/-- A propagation that ends with a revision that left no value. -/
theorem propagates_wipedOut {net : Network} {s s' : Session} {arc : Arc} (queue : ArcQueue)
    (hrev : Revised net s arc s') (htarget : arc.target < net.size)
    (hsupport : arc.support < net.size) (hempty : ∀ v, v ∉ s'.dom arc.target) :
    Propagates net s ⟨false, queue, s'⟩ where
  narrows := hrev.narrows
  admits _ hf := hrev.admits_of_admits hsupport hf
  nonempty h := by cases h
  emptied _ := ⟨arc.target, htarget, hempty⟩

namespace ArcConsistency

/-! ## §2. Which arcs wait again. -/

variable {net : Network} {policy : RequeuePolicy} {queue queue' rest : ArcQueue} {arc : Arc}

/-- Every waiting arc names variables of the network. -/
def InRange (net : Network) (queue : ArcQueue) : Prop :=
  ∀ arc ∈ queue.toList, arc.target < net.size ∧ arc.support < net.size

/-- The arc that is taken out names variables of the network, and so do those that stay. -/
theorem inRange_of_pop? (h : InRange net queue) (hpop : queue.pop? = some (arc, rest)) :
    (arc.target < net.size ∧ arc.support < net.size) ∧ InRange net rest := by
  have hlist := ArcQueue.toList_of_pop? hpop
  refine ⟨h arc (hlist ▸ List.mem_cons_self), ?_⟩
  intro other hother
  exact h other (hlist ▸ List.mem_cons_of_mem arc hother)

/-- In an idle queue there is no arc that could name others. -/
theorem inRange_of_idle (h : queue.Idle) : InRange net queue := by
  intro arc harc
  rw [h.toList_eq] at harc
  cases harc

/-- `queue'` has come from `queue` by letting arcs into `target` wait, behind the others. -/
structure Requeued (target : VariableId) (source : VariableId → Prop) (queue queue' : ArcQueue) :
    Prop where
  exact : queue'.Exact
  keeps : ∀ arc ∈ queue.toList, arc ∈ queue'.toList
  added : ∀ arc ∈ queue'.toList, arc ∈ queue.toList ∨ (arc.support = target ∧ source arc.target)

/-- No arc has to be added. -/
theorem requeued_refl (h : queue.Exact) (target : VariableId) (source : VariableId → Prop) :
    Requeued target source queue queue :=
  ⟨h, fun _ harc => harc, fun _ harc => Or.inl harc⟩

/-- An arc into the target, from a variable that may be its source, can be added once more. -/
theorem requeued_pushAgain (h : queue.Exact) (target : VariableId) {source : VariableId → Prop}
    {z : VariableId} (hz : source z) :
    Requeued target source queue (queue.pushAgain ⟨z, target⟩) := by
  refine ⟨h.pushAgain _, fun arc harc => ArcQueue.mem_toList_pushAgain.2 (Or.inl harc), ?_⟩
  intro arc harc
  rcases ArcQueue.mem_toList_pushAgain.1 harc with hold | hnew
  · exact Or.inl hold
  · subst hnew
    exact Or.inr ⟨rfl, hz⟩

/-- Arcs that are added in two steps are added in both together. -/
theorem Requeued.trans {target : VariableId} {source : VariableId → Prop} {queue'' : ArcQueue}
    (h : Requeued target source queue queue') (h' : Requeued target source queue' queue'') :
    Requeued target source queue queue'' := by
  refine ⟨h'.exact, fun arc harc => h'.keeps arc (h.keeps arc harc), ?_⟩
  intro arc harc
  rcases h'.added arc harc with hold | hnew
  · exact h.added arc hold
  · exact Or.inr hnew

/-- What the symmetric policy lets wait: the arcs into the target from its neighbours, the support
apart, and none of them twice. -/
theorem mem_requeue?_symmetric (hexact : queue.Exact)
    (h : requeue? net .symmetric queue arc = some queue') :
    queue'.Exact ∧ (∀ other, other ∈ queue'.toList ↔ other ∈ queue.toList ∨
      (other.support = arc.target ∧ other.target ≠ arc.support ∧
        net.Adjacent arc.target other.target)) ∧
      (queue.toList.Nodup → queue'.toList.Nodup) := by
  unfold requeue? at h
  cases hneighbours : net.neighbours? arc.target with
  | none =>
    rw [hneighbours] at h
    cases h
  | some neighbours =>
    rw [hneighbours] at h
    obtain rfl := Option.some.inj h
    obtain ⟨hexact', hmem, hnodup⟩ := ArcQueue.foldl_pushes (fun z => [⟨z, arc.target⟩])
      (neighbours.filter fun z => z ≠ arc.support) hexact
    -- what was pushed is an arc from each neighbour but the support
    refine ⟨hexact', fun other => (hmem other).trans (or_congr_right ?_), hnodup⟩
    constructor
    · intro hpushed
      obtain ⟨z, hz, hother⟩ := hpushed
      obtain ⟨hz, hne⟩ := List.mem_filter.1 hz
      obtain rfl := List.mem_singleton.1 hother
      exact ⟨rfl, of_decide_eq_true hne, (net.mem_neighbours hneighbours).1 hz⟩
    · intro hother
      obtain ⟨hsupport, hne, hadjacent⟩ := hother
      refine ⟨other.target, List.mem_filter.2
        ⟨(net.mem_neighbours hneighbours).2 hadjacent, decide_eq_true hne⟩, ?_⟩
      rw [List.mem_singleton, ← hsupport]

/-- One constraint of the legacy scan lets at most one arc wait. -/
theorem requeued_scanConstraint (hexact : queue.Exact) (arc : Arc) (found : Bool) {c : Constraint}
    (hc : c ∈ net.constraints.toList) :
    Requeued arc.target (net.Adjacent arc.target) queue
      (scanConstraint arc (found, queue) c).2 := by
  have hkeep := requeued_refl hexact arc.target (net.Adjacent arc.target)
  unfold scanConstraint
  dsimp only
  split
  next h =>
    split
    · exact hkeep
    · exact requeued_pushAgain hexact arc.target ⟨c, hc, Or.inr ⟨h.1, rfl⟩⟩
  next =>
    split
    next h =>
      split
      · exact requeued_pushAgain hexact arc.target ⟨c, hc, Or.inl ⟨h.1, rfl⟩⟩
      · exact hkeep
    next => exact hkeep

/-- By induction on the constraints that are scanned: whatever the flag says, each adds arcs into
the target of the revised one at most. -/
theorem requeued_foldl_scanConstraint (arc : Arc) :
    ∀ (l : List Constraint) (found : Bool) (queue : ArcQueue),
      (∀ c ∈ l, c ∈ net.constraints.toList) → queue.Exact →
        Requeued arc.target (net.Adjacent arc.target) queue
          (l.foldl (scanConstraint arc) (found, queue)).2
  | [], _, _, _, hexact => requeued_refl hexact _ _
  | c :: l, found, queue, hl, hexact => by
      have hhead := requeued_scanConstraint hexact arc found (hl c List.mem_cons_self)
      exact hhead.trans (requeued_foldl_scanConstraint arc l _ _
        (fun c' hc' => hl c' (List.mem_cons_of_mem c hc')) hhead.exact)

/-- Under either policy only arcs from neighbours into the target wait again. -/
theorem requeued_requeue? (hexact : queue.Exact) (h : requeue? net policy queue arc = some queue') :
    Requeued arc.target (net.Adjacent arc.target) queue queue' := by
  cases policy with
  | symmetric =>
    obtain ⟨hexact', hmem, _⟩ := mem_requeue?_symmetric hexact h
    refine ⟨hexact', fun other hother => (hmem other).2 (Or.inl hother), ?_⟩
    intro other hother
    rcases (hmem other).1 hother with hold | hnew
    · exact Or.inl hold
    · exact Or.inr ⟨hnew.1, hnew.2.2⟩
  | legacy =>
    obtain rfl := Option.some.inj h
    unfold requeueByScan
    rw [← Array.foldl_toList]
    exact requeued_foldl_scanConstraint arc _ _ _ (fun _ hc => hc) hexact

/-- Arcs that wait again name variables of the network. -/
theorem inRange_requeue? (hexact : queue.Exact) (hrange : InRange net queue)
    (h : requeue? net policy queue arc = some queue') : InRange net queue' := by
  intro other hother
  rcases (requeued_requeue? hexact h).added other hother with hold | ⟨hsupport, hadjacent⟩
  · exact hrange other hold
  · rw [hsupport]
    exact ⟨hadjacent.symm.lt_size, hadjacent.lt_size⟩

/-- The neighbours of the target are known, so arcs can be made to wait again. -/
theorem exists_requeue? (net : Network) (policy : RequeuePolicy) (queue : ArcQueue)
    (htarget : arc.target < net.size) : ∃ queue', requeue? net policy queue arc = some queue' := by
  unfold requeue?
  cases policy with
  | symmetric =>
    obtain ⟨neighbours, hneighbours, _⟩ := net.exists_neighbours htarget
    rw [hneighbours]
    exact ⟨_, rfl⟩
  | legacy => exact ⟨_, rfl⟩

/-! ## §3. Runs of the loop. -/

/-- One step of the loop, in which nothing is said about why it ends. -/
theorem drain?_eq (net : Network) (policy : RequeuePolicy) (queue : ArcQueue) (s : Session) :
    drain? net policy queue s = match queue.pop? with
      | none => some ⟨true, queue, s⟩
      | some (arc, rest) =>
        match revise? net s arc with
        | none => none
        | some (.unchanged, s') => drain? net policy rest s'
        | some (.wipedOut, s') => some ⟨false, ∅, s'⟩
        | some (.pruned, s') =>
          match requeue? net policy rest arc with
          | none => none
          | some queue' => drain? net policy queue' s' := by
  fun_cases drain? net policy queue s with
  | case1 hpop => simp only [hpop]
  | case2 arc rest hpop hrev => simp only [hpop, hrev]
  | case3 arc rest hpop s' hrev => simp only [hpop, hrev]
  | case4 arc rest hpop s' hrev => simp only [hpop, hrev]
  | case5 arc rest hpop s' hrev hreq => simp only [hpop, hrev, hreq]
  | case6 arc rest hpop s' hrev queue' hreq => simp only [hpop, hrev, hreq]

/-- `queue` waits after a revision of `arc` with this outcome, when `rest` waited before. -/
inductive Continues (net : Network) (policy : RequeuePolicy) (rest : ArcQueue) (arc : Arc) :
    Revision → ArcQueue → Prop where
  | unchanged : Continues net policy rest arc .unchanged rest
  | pruned {queue : ArcQueue} (hreq : requeue? net policy rest arc = some queue) :
      Continues net policy rest arc .pruned queue

variable {s s' : Session} {outcome : Revision} {result : Propagated}

/-- When the loop goes on, the revision has left a value. -/
theorem Continues.exists_mem (h : Continues net policy rest arc outcome queue)
    (hrev : revise? net s arc = some (outcome, s')) : ∃ v, v ∈ s'.dom arc.target := by
  obtain ⟨_, hempty, _⟩ := revised_of_revise? hrev
  by_contra hnone
  rw [hempty.2 fun v hv => hnone ⟨v, hv⟩] at h
  cases h

/-- While the loop goes on, arcs into the revised variable are all that is added. -/
theorem Continues.requeued (h : Continues net policy rest arc outcome queue)
    (hexact : rest.Exact) : Requeued arc.target (net.Adjacent arc.target) rest queue := by
  cases h with
  | unchanged => exact requeued_refl hexact _ _
  | pruned hreq => exact requeued_requeue? hexact hreq

/-- And the queue keeps to the variables of the network. -/
theorem Continues.inRange (h : Continues net policy rest arc outcome queue)
    (hexact : rest.Exact) (hrange : InRange net rest) : InRange net queue := by
  cases h with
  | unchanged => exact hrange
  | pruned hreq => exact inRange_requeue? hexact hrange hreq

/-- The loop of arc consistency starts with this queue and session and ends with `result`. -/
inductive Drains (net : Network) (policy : RequeuePolicy) :
    ArcQueue → Session → Propagated → Prop where
  | idle {queue : ArcQueue} {s : Session} (hpop : queue.pop? = none) :
      Drains net policy queue s ⟨true, queue, s⟩
  | wipedOut {queue rest : ArcQueue} {s s' : Session} {arc : Arc}
      (hpop : queue.pop? = some (arc, rest))
      (hrev : revise? net s arc = some (.wipedOut, s')) : Drains net policy queue s ⟨false, ∅, s'⟩
  | revised {queue rest queue' : ArcQueue} {s s' : Session} {arc : Arc} {outcome : Revision}
      {result : Propagated} (hpop : queue.pop? = some (arc, rest))
      (hrev : revise? net s arc = some (outcome, s'))
      (hnext : Continues net policy rest arc outcome queue')
      (hrest : Drains net policy queue' s' result) : Drains net policy queue s result

/-- **The loop is a run of `Drains`**, by the induction of its own recursion. -/
theorem drains_of_drain? (h : drain? net policy queue s = some result) :
    Drains net policy queue s result := by
  fun_induction drain? net policy queue s with
  | case1 queue s hpop =>
    obtain rfl := Option.some.inj h
    exact .idle hpop
  | case2 => cases h
  | case3 queue s arc rest hpop s' hrev ih => exact .revised hpop hrev .unchanged (ih h)
  | case4 queue s arc rest hpop s' hrev =>
    obtain rfl := Option.some.inj h
    exact .wipedOut hpop hrev
  | case5 => cases h
  | case6 queue s arc rest hpop s' hrev queue' hreq ih =>
    exact .revised hpop hrev (.pruned hreq) (ih h)

/-- The loop gives an answer when every waiting arc names variables that exist. -/
theorem exists_drain? (net : Network) (policy : RequeuePolicy) (queue : ArcQueue) (s : Session)
    (hexact : queue.Exact) (hrange : InRange net queue) (hsize : s.domains.size = net.size) :
    ∃ result, drain? net policy queue s = some result := by
  fun_induction drain? net policy queue s with
  | case1 => exact ⟨_, rfl⟩
  -- the arc names variables of the network, so it can be revised
  | case2 queue s arc rest hpop hnone =>
    obtain ⟨harc, _⟩ := inRange_of_pop? hrange hpop
    obtain ⟨outcome, s', hrev⟩ := exists_revise? net (s := s) (hsize ▸ harc.1) (hsize ▸ harc.2)
    rw [hrev] at hnone
    cases hnone
  | case3 queue s arc rest hpop s' hrev ih =>
    obtain ⟨_, hrest⟩ := inRange_of_pop? hrange hpop
    exact ih (hexact.of_pop? hpop) hrest ((revised_of_revise? hrev).1.narrows.size_eq.trans hsize)
  | case4 => exact ⟨_, rfl⟩
  -- and its target has neighbours that are known
  | case5 queue s arc rest hpop s' hrev hnone =>
    obtain ⟨harc, _⟩ := inRange_of_pop? hrange hpop
    obtain ⟨queue', hreq⟩ := exists_requeue? net policy rest harc.1
    rw [hreq] at hnone
    cases hnone
  | case6 queue s arc rest hpop s' hrev queue' hreq ih =>
    obtain ⟨_, hrest⟩ := inRange_of_pop? hrange hpop
    have hnext : Continues net policy rest arc .pruned queue' := .pruned hreq
    have hexact' := hexact.of_pop? hpop
    exact ih (hnext.requeued hexact').exact (hnext.inRange hexact' hrest)
      ((revised_of_revise? hrev).1.narrows.size_eq.trans hsize)

/-- **Every run of the loop is a sound propagation**, by induction on its turns. -/
theorem Drains.propagates (h : Drains net policy queue s result) (hexact : queue.Exact)
    (hrange : InRange net queue) : Propagates net s result := by
  induction h with
  | idle _ => exact propagates_refl net _ _
  | wipedOut hpop hrev =>
    obtain ⟨harc, _⟩ := inRange_of_pop? hrange hpop
    obtain ⟨hrevised, hempty, _⟩ := revised_of_revise? hrev
    exact propagates_wipedOut ∅ hrevised harc.1 harc.2 (hempty.1 rfl)
  | revised hpop hrev hnext _ ih =>
    obtain ⟨harc, hrest⟩ := inRange_of_pop? hrange hpop
    obtain ⟨hrevised, _, _⟩ := revised_of_revise? hrev
    have hexact' := hexact.of_pop? hpop
    exact .after_revision hrevised harc.2 (hnext.exists_mem hrev)
      (ih (hnext.requeued hexact').exact (hnext.inRange hexact' hrest))

/-- Every run leaves a queue in which no arc waits. -/
theorem Drains.idle_queue (h : Drains net policy queue s result) (hexact : queue.Exact) :
    result.queue.Idle := by
  induction h with
  | idle hpop => exact hexact.idle_of_pop? hpop
  | wipedOut _ _ => exact ArcQueue.idle_empty
  | revised hpop _ hnext _ ih => exact ih (hnext.requeued (hexact.of_pop? hpop)).exact

/-- **The loop gives an answer**, by a run that is a sound propagation and lets no arc wait. -/
theorem exists_drains (policy : RequeuePolicy) (hexact : queue.Exact) (hrange : InRange net queue)
    (hsize : s.domains.size = net.size) :
    ∃ result, drain? net policy queue s = some result ∧ Drains net policy queue s result ∧
      Propagates net s result ∧ result.queue.Idle := by
  obtain ⟨result, hresult⟩ := exists_drain? net policy queue s hexact hrange hsize
  have hrun := drains_of_drain? hresult
  exact ⟨result, hresult, hrun, hrun.propagates hexact hrange, hrun.idle_queue hexact⟩

/-- **Who waited at the start is supported at the end**, by what the other end had at the start: an
arc is revised when its turn comes, and later turns only take values away. -/
theorem Drains.supported (h : Drains net policy queue s result) (hexact : queue.Exact)
    (hrange : InRange net queue) (htrue : result.consistent = true) :
    ∀ arc ∈ queue.toList, ∀ a ∈ result.session.dom arc.target,
      net.Supported arc.target arc.support a (s.dom arc.support) := by
  induction h with
  | idle hpop =>
    intro arc harc
    rw [ArcQueue.pop?_eq_none_iff.1 hpop] at harc
    cases harc
  | wipedOut _ _ => cases htrue
  | @revised queue rest queue' s s' popped outcome result hpop hrev hnext hrun ih =>
    obtain ⟨_, hrest⟩ := inRange_of_pop? hrange hpop
    obtain ⟨hrevised, _, _⟩ := revised_of_revise? hrev
    have hexact' := hexact.of_pop? hpop
    have hrequeued := hnext.requeued hexact'
    have hrange' := hnext.inRange hexact' hrest
    have hlater := (hrun.propagates hrequeued.exact hrange').narrows
    intro arc harc a ha
    rw [ArcQueue.toList_of_pop? hpop] at harc
    rcases List.mem_cons.1 harc with rfl | harc
    -- the arc that is revised now: what it keeps now is all that can be left of it
    · exact ((hrevised.mem_target a).1 (hlater.subset _ a ha)).2
    · exact (ih hrequeued.exact hrange' htrue arc (hrequeued.keeps arc harc) a ha).mono
        (hrevised.narrows.subset arc.support)

/-! ## §4. Arcs that wait at the start. -/

/-- Full arc consistency starts with every arc between two variables that share a constraint, and
with none of them twice. -/
theorem mem_seedAll (net : Network) (hexact : queue.Exact) :
    (seedAll net queue).Exact ∧ (∀ arc, arc ∈ (seedAll net queue).toList ↔
      arc ∈ queue.toList ∨ net.Adjacent arc.target arc.support) ∧
      (queue.toList.Nodup → (seedAll net queue).toList.Nodup) := by
  unfold seedAll
  rw [← Array.foldl_toList]
  obtain ⟨hexact', hmem, hnodup⟩ := ArcQueue.foldl_pushes
    (fun c : Constraint => [⟨c.first, c.second⟩, ⟨c.second, c.first⟩]) net.constraints.toList hexact
  refine ⟨hexact', fun arc => (hmem arc).trans (or_congr_right ?_), hnodup⟩
  -- both directions of every constraint, and nothing else
  obtain ⟨target, support⟩ := arc
  constructor
  · intro h
    obtain ⟨c, hc, harc⟩ := h
    rcases List.mem_cons.1 harc with heq | harc
    · cases heq
      exact ⟨c, hc, Or.inl ⟨rfl, rfl⟩⟩
    · cases List.mem_singleton.1 harc
      exact ⟨c, hc, Or.inr ⟨rfl, rfl⟩⟩
  · intro h
    obtain ⟨c, hc, ⟨rfl, rfl⟩ | ⟨rfl, rfl⟩⟩ := h
    · exact ⟨c, hc, List.mem_cons_self⟩
    · exact ⟨c, hc, List.mem_cons_of_mem _ (List.mem_singleton.2 rfl)⟩

/-- From an idle queue, it starts with these arcs and no others. -/
theorem adjacent_of_mem_seedAll (hqueue : queue.Idle) :
    arc ∈ (seedAll net queue).toList ↔ net.Adjacent arc.target arc.support := by
  rw [(mem_seedAll net hqueue.exact).2.1 arc, hqueue.toList_eq, or_iff_right List.not_mem_nil]

/-- The arcs of a full pass name variables of the network. -/
theorem inRange_seedAll (hexact : queue.Exact) (hrange : InRange net queue) :
    InRange net (seedAll net queue) := by
  intro arc harc
  rcases ((mem_seedAll net hexact).2.1 arc).1 harc with hold | hadjacent
  · exact hrange arc hold
  · exact ⟨hadjacent.lt_size, hadjacent.symm.lt_size⟩

/-- The arcs that a change of `changed` disturbs at its neighbour `z`. -/
def seeds (policy : RequeuePolicy) (changed z : VariableId) : List Arc :=
  ⟨z, changed⟩ ::
    match policy with
    | .symmetric => [⟨changed, z⟩]
    | .legacy => []

/-- Both arcs between the changed variable and its neighbour are all that is disturbed. -/
theorem mem_seeds {changed z : VariableId} (h : arc ∈ seeds policy changed z) :
    arc = ⟨z, changed⟩ ∨ arc = ⟨changed, z⟩ := by
  unfold seeds at h
  rcases List.mem_cons.1 h with hfirst | hback
  · exact Or.inl hfirst
  · cases policy with
    | symmetric => exact Or.inr (List.mem_singleton.1 hback)
    | legacy => cases hback

/-- After a change of one variable, the arcs that it disturbs at its neighbours wait behind the
others. -/
theorem mem_seedChanged? (hexact : queue.Exact) {changed : VariableId}
    (h : seedChanged? net policy queue changed = some queue') :
    queue'.Exact ∧ ∀ arc, arc ∈ queue'.toList ↔
      arc ∈ queue.toList ∨ ∃ z, net.Adjacent changed z ∧ arc ∈ seeds policy changed z := by
  unfold seedChanged? at h
  cases hneighbours : net.neighbours? changed with
  | none =>
    rw [hneighbours] at h
    cases h
  | some neighbours =>
    rw [hneighbours] at h
    have hseeded : neighbours.foldl
        (fun queue z => (seeds policy changed z).foldl ArcQueue.push queue) queue = queue' := by
      cases policy with
      | symmetric => exact Option.some.inj h
      | legacy => exact Option.some.inj h
    obtain ⟨hexact', hmem, _⟩ := ArcQueue.foldl_pushes (seeds policy changed) neighbours hexact
    rw [hseeded] at hexact' hmem
    refine ⟨hexact', fun arc => (hmem arc).trans (or_congr_right ?_)⟩
    simp only [net.mem_neighbours hneighbours]

/-- The neighbours of a variable of the network are known, so their arcs can be queued. -/
theorem exists_seedChanged? (net : Network) (policy : RequeuePolicy) (queue : ArcQueue)
    {changed : VariableId} (hchanged : changed < net.size) :
    ∃ queue', seedChanged? net policy queue changed = some queue' := by
  obtain ⟨neighbours, hneighbours, _⟩ := net.exists_neighbours hchanged
  unfold seedChanged?
  rw [hneighbours]
  exact ⟨_, rfl⟩

/-- These arcs name variables of the network. -/
theorem inRange_seedChanged? (hexact : queue.Exact) (hrange : InRange net queue)
    {changed : VariableId} (h : seedChanged? net policy queue changed = some queue') :
    InRange net queue' := by
  intro arc harc
  rcases ((mem_seedChanged? hexact h).2 arc).1 harc with hold | ⟨z, hz, hseed⟩
  · exact hrange arc hold
  · rcases mem_seeds hseed with rfl | rfl
    · exact ⟨hz.symm.lt_size, hz.lt_size⟩
    · exact ⟨hz.lt_size, hz.symm.lt_size⟩

/-! ## §5. The two entry points. -/

/-- **Full arc consistency from an idle queue** gives an answer, which is a sound propagation. -/
theorem exists_establish? (net : Network) (policy : RequeuePolicy) (hqueue : queue.Idle)
    (hsize : s.domains.size = net.size) :
    ∃ result, establish? net policy queue s = some result ∧ Propagates net s result ∧
      result.queue.Idle := by
  obtain ⟨result, hresult, _, hpropagates, hidle⟩ := exists_drains policy
    (mem_seedAll net hqueue.exact).1 (inRange_seedAll hqueue.exact (inRange_of_idle hqueue)) hsize
  exact ⟨result, hresult, hpropagates, hidle⟩

/-- **Arc consistency after a change** gives an answer, which is a sound propagation; when it ends
well, what is left of every neighbour has a support among the values that the changed variable had
at the start. -/
theorem exists_propagate? (net : Network) (policy : RequeuePolicy) (hqueue : queue.Idle)
    (hsize : s.domains.size = net.size) {changed : VariableId} (hchanged : changed < net.size) :
    ∃ result, propagate? net policy queue s changed = some result ∧ Propagates net s result ∧
      result.queue.Idle ∧ (result.consistent = true → ∀ z, net.Adjacent changed z →
        ∀ b ∈ result.session.dom z, net.Supported z changed b (s.dom changed)) := by
  obtain ⟨queue', hseeded⟩ := exists_seedChanged? net policy queue hchanged
  obtain ⟨hexact, hmem⟩ := mem_seedChanged? hqueue.exact hseeded
  have hrange := inRange_seedChanged? hqueue.exact (inRange_of_idle hqueue) hseeded
  obtain ⟨result, hresult, hrun, hpropagates, hidle⟩ := exists_drains policy hexact hrange hsize
  refine ⟨result, ?_, hpropagates, hidle, ?_⟩
  · unfold propagate?
    rw [hseeded]
    exact hresult
  · intro htrue z hz
    have hwaits : ⟨z, changed⟩ ∈ queue'.toList :=
      (hmem _).2 (Or.inr ⟨z, hz, List.mem_cons_self⟩)
    exact hrun.supported hexact hrange htrue ⟨z, changed⟩ hwaits

end ArcConsistency

end ConstraintNet
