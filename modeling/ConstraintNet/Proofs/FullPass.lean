/-
  ConstraintNet.Proofs.FullPass
  ─────────────────────────────
  **WHAT A FULL PASS OF ARC CONSISTENCY CAN COST.**

  Under the symmetric policy only arcs between neighbours wait, and none of
  them twice.  The queue is `Tidy` at every moment of a pass, while arcs are
  being queued as well as between two revisions, so it is never longer than
  the lists of neighbours are together.

  Arcs come to wait again when a variable has lost a value and still has one:
  one arc for each of its neighbours but the one that was revised against.
  The lost value pays for them.  `credit` is what the values of a session can
  still pay for, the last value of each variable apart, and a turn of the loop
  lowers

      waiting arcs + credit

  (`Turn.size_add_credit_lt`), so that the two together bound the revisions
  that are still to come (`Drains.revisions_le`).

  Main result: `establish_revisions_bounded`.
-/
import Mathlib.Logic.Relation
import ConstraintNet.Proofs.Counters
import ConstraintNet.Proofs.Draining

namespace ConstraintNet

/-- The number of neighbours of a variable. -/
def Network.degree (net : Network) (x : VariableId) : Nat := ((net.neighbours? x).getD []).length

/-- The number of neighbours is the length of their list. -/
theorem Network.degree_of_neighbours? {net : Network} {x : VariableId}
    {neighbours : List VariableId} (h : net.neighbours? x = some neighbours) :
    net.degree x = neighbours.length := by
  unfold degree
  rw [h, Option.getD_some]

namespace ArcConsistency

/-! ## §1. The arcs of a network. -/

/-- Every variable with each of its neighbours. -/
def arcs (net : Network) : List Arc :=
  (List.range net.size).flatMap fun x => ((net.neighbours? x).getD []).map fun z => ⟨x, z⟩

/-- The arcs of a network are all those between neighbours. -/
theorem mem_arcs {net : Network} {arc : Arc} (h : net.Adjacent arc.target arc.support) :
    arc ∈ arcs net := by
  obtain ⟨neighbours, hneighbours, hmem⟩ := net.exists_neighbours h.lt_size
  refine List.mem_flatMap.2 ⟨arc.target, List.mem_range.2 h.lt_size, ?_⟩
  rw [hneighbours, Option.getD_some]
  exact List.mem_map.2 ⟨arc.support, (hmem _).2 h, rfl⟩

/-- There are as many as all neighbours of all variables together. -/
theorem length_arcs (net : Network) :
    (arcs net).length = total net.degree (List.range net.size) := by
  unfold arcs
  rw [length_flatMap]
  simp only [List.length_map]
  rfl

/-- The arcs that a full pass starts with, in the order in which they come to wait. -/
def seedArcs (net : Network) : List Arc :=
  net.constraints.toList.flatMap fun c => [⟨c.first, c.second⟩, ⟨c.second, c.first⟩]

/-- A full pass begins with one push after another. -/
theorem seedAll_eq_foldl (net : Network) (queue : ArcQueue) :
    seedAll net queue = (seedArcs net).foldl ArcQueue.push queue := by
  unfold seedAll seedArcs
  rw [← Array.foldl_toList, List.foldl_flatMap]
  rfl

/-- It pushes arcs between neighbours. -/
theorem adjacent_of_mem_seedArcs {net : Network} {arc : Arc} (h : arc ∈ seedArcs net) :
    net.Adjacent arc.target arc.support := by
  obtain ⟨c, hc, harc⟩ := List.mem_flatMap.1 h
  rcases List.mem_cons.1 harc with rfl | harc
  · exact ⟨c, hc, Or.inl ⟨rfl, rfl⟩⟩
  · obtain rfl := List.mem_singleton.1 harc
    exact ⟨c, hc, Or.inr ⟨rfl, rfl⟩⟩

/-- The arcs that come to wait when a revision of `arc` has taken a value away, in this order. -/
def requeuedArcs (neighbours : List VariableId) (arc : Arc) : List Arc :=
  (neighbours.filter fun z => z ≠ arc.support).map fun z => ⟨z, arc.target⟩

variable {net : Network} {queue queue' rest : ArcQueue} {arc : Arc}
  {neighbours : List VariableId}

/-- To let arcs wait again is, under the symmetric policy, one push after another. -/
theorem requeue?_symmetric_eq_foldl (hneighbours : net.neighbours? arc.target = some neighbours) :
    requeue? net .symmetric queue arc =
      some ((requeuedArcs neighbours arc).foldl ArcQueue.push queue) := by
  unfold requeue? requeuedArcs
  rw [hneighbours, List.foldl_map]

/-- These, too, are arcs between neighbours. -/
theorem adjacent_of_mem_requeuedArcs (hneighbours : net.neighbours? arc.target = some neighbours)
    {other : Arc} (h : other ∈ requeuedArcs neighbours arc) :
    net.Adjacent other.target other.support := by
  obtain ⟨z, hz, rfl⟩ := List.mem_map.1 h
  exact ((net.mem_neighbours hneighbours).1 (List.mem_filter.1 hz).1).symm

/-- They are fewer than the neighbours of the target, since the support is one of those. -/
theorem length_requeuedArcs_lt (hneighbours : net.neighbours? arc.target = some neighbours)
    (hadjacent : net.Adjacent arc.target arc.support) :
    (requeuedArcs neighbours arc).length < net.degree arc.target := by
  unfold requeuedArcs
  rw [List.length_map, Network.degree_of_neighbours? hneighbours]
  refine List.length_filter_lt_length_iff_exists.2 ⟨arc.support, ?_, by simp⟩
  exact (net.mem_neighbours hneighbours).2 hadjacent

/-! ## §2. Tidy queues. -/

/-- Only arcs between neighbours wait, none of them twice, and the counts say so. -/
structure Tidy (net : Network) (queue : ArcQueue) : Prop where
  exact : queue.Exact
  nodup : queue.toList.Nodup
  adjacent : ∀ arc ∈ queue.toList, net.Adjacent arc.target arc.support

/-- The empty queue is tidy. -/
theorem tidy_empty (net : Network) : Tidy net ∅ := by
  refine ⟨ArcQueue.exact_empty, List.nodup_nil, ?_⟩
  intro arc harc
  cases harc

/-- Pushing arcs between neighbours keeps a queue tidy, since no arc is pushed twice. -/
theorem Tidy.foldl_push (h : Tidy net queue) {pushed : List Arc}
    (hpushed : ∀ arc ∈ pushed, net.Adjacent arc.target arc.support) :
    Tidy net (pushed.foldl ArcQueue.push queue) := by
  obtain ⟨hexact, hmem, hnodup⟩ := ArcQueue.foldl_push h.exact pushed
  refine ⟨hexact, hnodup h.nodup, ?_⟩
  intro arc harc
  rcases (hmem arc).1 harc with hold | hnew
  · exact h.adjacent arc hold
  · exact hpushed arc hnew

/-- So does taking the oldest one out. -/
theorem Tidy.of_pop? (h : Tidy net queue) (hpop : queue.pop? = some (arc, rest)) :
    Tidy net rest ∧ net.Adjacent arc.target arc.support := by
  have hlist := ArcQueue.toList_of_pop? hpop
  have hnodup := h.nodup
  have hadjacent := h.adjacent
  rw [hlist] at hnodup hadjacent
  obtain ⟨harc, hrest⟩ := List.forall_mem_cons.1 hadjacent
  exact ⟨⟨h.exact.of_pop? hpop, hnodup.of_cons, hrest⟩, harc⟩

/-- **A tidy queue is not longer than the lists of neighbours are together.** -/
theorem Tidy.size_le (h : Tidy net queue) :
    queue.size ≤ total net.degree (List.range net.size) := by
  have hsub : queue.toList ⊆ arcs net := fun arc harc => mem_arcs (h.adjacent arc harc)
  have hle := (List.subperm_of_subset h.nodup hsub).length_le
  rw [length_arcs] at hle
  rw [ArcQueue.size_eq_length]
  exact hle

/-- At the beginning of a full pass the queue is tidy. -/
theorem tidy_seedAll (net : Network) : Tidy net (seedAll net ∅) := by
  rw [seedAll_eq_foldl]
  exact (tidy_empty net).foldl_push fun _ => adjacent_of_mem_seedArcs

variable {s s' : Session} {state state' : ArcQueue × Session} {result : Propagated}

/-- A turn of the loop keeps it tidy. -/
theorem Turn.tidy (h : Turn net .symmetric state state') (htidy : Tidy net state.1) :
    Tidy net state'.1 := by
  cases h with
  | @mk queue rest queue' s s' arc outcome hpop hrev hnext =>
    obtain ⟨hrest, hadjacent⟩ := htidy.of_pop? hpop
    cases hnext with
    | unchanged => exact hrest
    | pruned hreq =>
      obtain ⟨neighbours, hneighbours, _⟩ := net.exists_neighbours hadjacent.lt_size
      rw [requeue?_symmetric_eq_foldl hneighbours] at hreq
      obtain rfl := Option.some.inj hreq
      exact hrest.foldl_push fun _ => adjacent_of_mem_requeuedArcs hneighbours

/-- So it is tidy after any number of turns. -/
theorem tidy_of_turns
    (h : Relation.ReflTransGen (Turn net .symmetric) (seedAll net ∅, s) state) :
    Tidy net state.1 := by
  induction h with
  | refl => exact tidy_seedAll net
  | tail _ hturn ih => exact hturn.tidy ih

/-- The queues of a full pass over `s` that starts from an empty one. -/
inductive Occurs (net : Network) (s : Session) : ArcQueue → Prop where
  /-- Some of the arcs that the pass starts with are queued. -/
  | seeding {pushed : List Arc} (hpushed : pushed <+: seedArcs net) :
      Occurs net s (pushed.foldl ArcQueue.push ∅)
  /-- The loop has made some turns. -/
  | turning {state : ArcQueue × Session}
      (hturns : Relation.ReflTransGen (Turn net .symmetric) (seedAll net ∅, s) state) :
      Occurs net s state.1
  /-- The oldest arc has left the queue and is revised. -/
  | popped {state : ArcQueue × Session} {arc : Arc} {rest : ArcQueue}
      (hturns : Relation.ReflTransGen (Turn net .symmetric) (seedAll net ∅, s) state)
      (hpop : state.1.pop? = some (arc, rest)) : Occurs net s rest
  /-- The revision took a value away, and some of the arcs that wait again are queued. -/
  | requeueing {state : ArcQueue × Session} {arc : Arc} {rest : ArcQueue} {s' : Session}
      {neighbours : List VariableId} {pushed : List Arc}
      (hturns : Relation.ReflTransGen (Turn net .symmetric) (seedAll net ∅, s) state)
      (hpop : state.1.pop? = some (arc, rest))
      (hrev : revise? net state.2 arc = some (.pruned, s'))
      (hneighbours : net.neighbours? arc.target = some neighbours)
      (hpushed : pushed <+: requeuedArcs neighbours arc) :
      Occurs net s (pushed.foldl ArcQueue.push rest)

/-- **Every queue of a full pass is tidy.** -/
theorem Occurs.tidy (h : Occurs net s queue) : Tidy net queue := by
  cases h with
  | seeding hpushed =>
    exact (tidy_empty net).foldl_push fun _ harc => adjacent_of_mem_seedArcs (hpushed.subset harc)
  | turning hturns => exact tidy_of_turns hturns
  | popped hturns hpop => exact ((tidy_of_turns hturns).of_pop? hpop).1
  | requeueing hturns hpop _ hneighbours hpushed =>
    exact ((tidy_of_turns hturns).of_pop? hpop).1.foldl_push fun _ harc =>
      adjacent_of_mem_requeuedArcs hneighbours (hpushed.subset harc)

/-! ## §3. What a lost value pays for. -/

/-- For every value of a variable but the last, an arc into the variable from every neighbour but
one. -/
def credit (net : Network) (s : Session) : Nat :=
  total (fun x => ((s.dom x).size - 1) * (net.degree x - 1)) (List.range net.size)

/-- With fewer values there is no more credit. -/
theorem credit_le_of_subset (net : Network) (h : ∀ x v, v ∈ s'.dom x → v ∈ s.dom x) :
    credit net s' ≤ credit net s := by
  refine total_le_total fun x _ => Nat.mul_le_mul_right _ ?_
  exact Nat.sub_le_sub_right (Domain.size_le_of_subset (h x)) 1

/-- A value that was not the last of its variable has paid. -/
theorem credit_add_degree_le (h : revise? net s arc = some (.pruned, s'))
    (htarget : arc.target < net.size) :
    credit net s' + (net.degree arc.target - 1) ≤ credit net s := by
  have hsubset := (revised_of_revise? h).1.narrows.subset
  obtain ⟨hsmaller, v, hv⟩ := (pruned_iff_of_revise? h).1 rfl
  have hpos := Domain.size_pos_of_mem hv
  refine total_add_le_total (fun x _ => ?_) (List.mem_range.2 htarget) ?_
  · exact Nat.mul_le_mul_right _ (Nat.sub_le_sub_right (Domain.size_le_of_subset (hsubset x)) 1)
  · rw [← Nat.succ_mul]
    exact Nat.mul_le_mul_right _ (by omega)

/-- **A turn spends**: one waiting arc less, or a value less that pays for what waits again. -/
theorem Turn.size_add_credit_lt (h : Turn net .symmetric state state')
    (htidy : Tidy net state.1) :
    state'.1.size + credit net state'.2 < state.1.size + credit net state.2 := by
  cases h with
  | @mk queue rest queue' s s' arc outcome hpop hrev hnext =>
    have hsize := ArcQueue.size_of_pop? hpop
    obtain ⟨_, hadjacent⟩ := htidy.of_pop? hpop
    show queue'.size + credit net s' < queue.size + credit net s
    cases hnext with
    -- one arc less, and no more credit
    | unchanged =>
      have hle := credit_le_of_subset net (revised_of_revise? hrev).1.narrows.subset
      omega
    -- at most as many arcs come back as the lost value pays for
    | pruned hreq =>
      obtain ⟨neighbours, hneighbours, _⟩ := net.exists_neighbours hadjacent.lt_size
      rw [requeue?_symmetric_eq_foldl hneighbours] at hreq
      obtain rfl := Option.some.inj hreq
      have hqueued := size_foldl_le ArcQueue.size ArcQueue.push size_push_le
        (requeuedArcs neighbours arc) rest
      have hfewer := length_requeuedArcs_lt hneighbours hadjacent
      have hpaid := credit_add_degree_le hrev hadjacent.lt_size
      omega

/-- The loop makes no more revisions than arcs wait and values can pay for. -/
theorem Drains.revisions_le (h : Drains net .symmetric queue s result) (htidy : Tidy net queue) :
    result.session.stats.revisions ≤ s.stats.revisions + (queue.size + credit net s) := by
  induction h with
  | idle _ => exact Nat.le_add_right _ _
  | @wipedOut queue rest s s' arc hpop hrev =>
    have hsize := ArcQueue.size_of_pop? hpop
    have hcount := revisions_of_revise? hrev
    show s'.stats.revisions ≤ s.stats.revisions + (queue.size + credit net s)
    omega
  | @revised queue rest queue' s s' arc outcome result hpop hrev hnext _ ih =>
    have hturn : Turn net .symmetric (queue, s) (queue', s') := .mk hpop hrev hnext
    have hspent : queue'.size + credit net s' < queue.size + credit net s :=
      hturn.size_add_credit_lt htidy
    have hcount := revisions_of_revise? hrev
    have hrest := ih (hturn.tidy htidy)
    omega

/-! ## §4. The full pass. -/

/-- **A full pass costs what its start can pay for.** From an empty queue and any session of the
network, symmetric arc consistency gives an answer. In every queue on the way no arc waits twice and
every arc joins two neighbours, so that no more arcs wait than the variables have neighbours. The
pass counts at most one revision for every neighbour of every variable, and for every value of a
variable but the last, one for every neighbour but one. -/
theorem establish_revisions_bounded (net : Network) {s : Session}
    (hsize : s.domains.size = net.size) :
    ∃ result, establish? net .symmetric ∅ s = some result ∧
      (∀ queue, Occurs net s queue → queue.toList.Nodup ∧
        (∀ arc ∈ queue.toList, net.Adjacent arc.target arc.support) ∧
        queue.size ≤ total net.degree (List.range net.size)) ∧
      result.session.stats.revisions ≤ s.stats.revisions +
        total (fun x => net.degree x + ((s.dom x).size - 1) * (net.degree x - 1))
          (List.range net.size) := by
  have htidy := tidy_seedAll net
  obtain ⟨result, hresult, hdrains, _⟩ := exists_drains .symmetric htidy.exact
    (inRange_seedAll ArcQueue.exact_empty (inRange_of_idle ArcQueue.idle_empty)) hsize
  refine ⟨result, hresult, ?_, ?_⟩
  · intro queue hqueue
    exact ⟨hqueue.tidy.nodup, hqueue.tidy.adjacent, hqueue.tidy.size_le⟩
  · have hrevisions := hdrains.revisions_le htidy
    have hseeded := htidy.size_le
    rw [total_add]
    show _ ≤ _ + (_ + credit net s)
    omega

/-- A full pass over the three rising variables makes at most six revisions. -/
theorem rising_revisions_bounded :
    (Session.start rising).domains.size = rising.size ∧
      ∃ result, establish? rising .symmetric ∅ (Session.start rising) = some result ∧
        (∀ queue, Occurs rising (Session.start rising) queue → queue.toList.Nodup ∧
          (∀ arc ∈ queue.toList, rising.Adjacent arc.target arc.support) ∧ queue.size ≤ 4) ∧
        result.session.stats.revisions ≤ 6 := by
  have hsize := (coherent_start rising).size_domains
  have hqueue : total rising.degree (List.range rising.size) = 4 := by decide +kernel
  have hrevisions : total (fun x => rising.degree x +
      (((Session.start rising).dom x).size - 1) * (rising.degree x - 1))
        (List.range rising.size) = 6 := by decide +kernel
  obtain ⟨result, hresult, hqueues, hle⟩ := establish_revisions_bounded rising hsize
  rw [hqueue] at hqueues
  rw [hrevisions] at hle
  exact ⟨hsize, result, hresult, hqueues, hle⟩

end ArcConsistency

end ConstraintNet
