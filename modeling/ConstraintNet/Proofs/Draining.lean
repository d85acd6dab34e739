/-
  ConstraintNet.Proofs.Draining
  ─────────────────────────────
  **THE REVISION LOOP COMES TO AN END, WITH AN EMPTY QUEUE.**

  The queue grows while it is drained, and under the legacy policy an arc may
  wait several times.  The loop ends all the same, because arcs are queued
  only after a revision has taken a value away.  A `Turn` is one pass through
  the loop that does not end it, and `work` counts the turns that can still
  come: one for each arc that waits, and for each value that is left as many
  as its loss can queue.

      `Turn.work_lt`      — a turn leaves less work
      `turns_le`          — hence a bound on the turns of a run
      `drain?_of_turns`   — after which the loop still gives what it would have
                            given at the start of the run

  Main result: `drain_empties_queue`, for any queue of arcs between known
  variables and any session of the network, under either policy.
-/
import ConstraintNet.Proofs.GreatestFamily

namespace ConstraintNet.ArcConsistency

variable {net : Network} {policy : RequeuePolicy} {state state' : ArcQueue × Session}

/-! ## §1. One turn of the loop. -/

/-- A pass through the loop that does not end it: the oldest arc is revised and leaves a value, and
arcs may come to wait. -/
inductive Turn (net : Network) (policy : RequeuePolicy) :
    ArcQueue × Session → ArcQueue × Session → Prop where
  | mk {queue rest queue' : ArcQueue} {s s' : Session} {arc : Arc} {outcome : Revision}
      (hpop : queue.pop? = some (arc, rest)) (hrev : revise? net s arc = some (outcome, s'))
      (hnext : Continues net policy rest arc outcome queue') :
      Turn net policy (queue, s) (queue', s')

/-- A turn does not change what the loop will give. -/
theorem drain?_of_turn (h : Turn net policy state state') :
    drain? net policy state'.1 state'.2 = drain? net policy state.1 state.2 := by
  cases h with
  | @mk queue rest queue' s s' arc outcome hpop hrev hnext =>
    rw [drain?_eq net policy queue]
    cases hnext with
    | unchanged => simp only [hpop, hrev]
    | pruned hreq => simp only [hpop, hrev, hreq]

/-- A bound on the turns that can still come: one for each arc that waits, and `requeueBound` for
each value that is left. -/
def work (net : Network) (state : ArcQueue × Session) : Nat :=
  state.1.size + state.2.totalSize * requeueBound net

/-- **A turn leaves less work**: the arcs that it queues are paid for by the value that it took
away, and the arc that it revised has left the queue. -/
theorem Turn.work_lt (h : Turn net policy state state') : work net state' < work net state := by
  cases h with
  | @mk queue rest queue' s s' arc outcome hpop hrev hnext =>
    have hsize := ArcQueue.size_of_pop? hpop
    obtain ⟨hle, hlt⟩ := totalSize_revise? hrev
    show queue'.size + s'.totalSize * requeueBound net <
      queue.size + s.totalSize * requeueBound net
    cases hnext with
    | unchanged =>
      have hvalues := Nat.mul_le_mul_right (requeueBound net) hle
      omega
    | pruned hreq =>
      have hqueued := size_requeue?_le hreq
      have hvalues := Nat.mul_le_mul_right (requeueBound net) (Nat.succ_le_of_lt (hlt rfl))
      rw [Nat.succ_mul] at hvalues
      omega

/-! ## §2. Many turns. -/

variable {n : Nat} {run : Nat → ArcQueue × Session}

/-- **The loop does not turn for ever**: no more often than there was work at the start. -/
theorem turns_le (hrun : ∀ i < n, Turn net policy (run i) (run (i + 1))) :
    n + work net (run n) ≤ work net (run 0) := by
  induction n with
  | zero => exact Nat.le_of_eq (Nat.zero_add _)
  | succ n ih =>
    have hbefore := ih fun i hi => hrun i (by omega)
    have hlast := (hrun n (by omega)).work_lt
    omega

/-- Turns of the loop do not change what it comes to. -/
theorem drain?_of_turns (hrun : ∀ i < n, Turn net policy (run i) (run (i + 1))) :
    drain? net policy (run n).1 (run n).2 = drain? net policy (run 0).1 (run 0).2 := by
  induction n with
  | zero => rfl
  | succ n ih =>
    have hbefore := ih fun i hi => hrun i (by omega)
    rw [drain?_of_turn (hrun n (by omega)), hbefore]

/-! ## §3. The end of the loop. -/

/-- **The loop ends with an empty queue.** From any queue of arcs between variables of the network,
in which an arc may wait several times, and from any session of the network: no more turns follow
one another than there are waiting arcs and `requeueBound` for each value, and none of them changes
what the loop will give. The loop does give an answer, after which no arc waits and none has an
entry among the counts, whatever the verdict is. If no domain was empty before, the verdict is that
none is empty now. -/
theorem drain_empties_queue (net : Network) (policy : RequeuePolicy) {queue : ArcQueue}
    {s : Session} (hexact : queue.Exact) (hrange : InRange net queue)
    (hsize : s.domains.size = net.size) :
    (∀ (n : Nat) (run : Nat → ArcQueue × Session), run 0 = (queue, s) →
      (∀ i < n, Turn net policy (run i) (run (i + 1))) →
        n ≤ queue.size + s.totalSize * requeueBound net ∧
        drain? net policy (run n).1 (run n).2 = drain? net policy queue s) ∧
    ∃ result, drain? net policy queue s = some result ∧
      result.queue = ∅ ∧
      (s.Nonempty net → (result.consistent = true ↔ result.session.Nonempty net)) := by
  constructor
  · intro n run hstart hrun
    have hle := turns_le hrun
    have hsame := drain?_of_turns hrun
    rw [hstart] at hle hsame
    exact ⟨Nat.le_of_add_right_le hle, hsame⟩
  · obtain ⟨result, hresult, _, hpropagates, hidle⟩ := exists_drains policy hexact hrange hsize
    refine ⟨result, hresult, hidle.eq_empty, ?_⟩
    intro hnonempty
    constructor
    · intro htrue
      exact hpropagates.nonempty htrue hnonempty
    · exact hpropagates.consistent_of_nonempty

/-- Two arcs of the rising variables, of which the first waits twice. -/
def doubled : ArcQueue := ((ArcQueue.empty.pushAgain ⟨1, 0⟩).pushAgain ⟨2, 1⟩).pushAgain ⟨1, 0⟩

theorem exact_doubled : doubled.Exact :=
  ((ArcQueue.exact_empty.pushAgain _).pushAgain _).pushAgain _

theorem inRange_doubled : InRange rising doubled := by
  unfold InRange
  decide

theorem rising_drained :
    (doubled.Exact ∧ InRange rising doubled ∧
      (Session.start rising).domains.size = rising.size ∧ (Session.start rising).Nonempty rising) ∧
    (∀ (n : Nat) (run : Nat → ArcQueue × Session), run 0 = (doubled, Session.start rising) →
      (∀ i < n, Turn rising .legacy (run i) (run (i + 1))) →
        n ≤ doubled.size + (Session.start rising).totalSize * requeueBound rising ∧
        drain? rising .legacy (run n).1 (run n).2 =
          drain? rising .legacy doubled (Session.start rising)) ∧
    ∃ result, drain? rising .legacy doubled (Session.start rising) = some result ∧
      result.queue = ∅ ∧ (result.consistent = true ↔ result.session.Nonempty rising) := by
  have hstart := coherent_start rising
  obtain ⟨hturns, result, hresult, hqueue, hverdict⟩ :=
    drain_empties_queue rising .legacy exact_doubled inRange_doubled hstart.size_domains
  exact ⟨⟨exact_doubled, inRange_doubled, hstart.size_domains, hstart.nonempty⟩, hturns, result,
    hresult, hqueue, hverdict hstart.nonempty⟩

end ConstraintNet.ArcConsistency
