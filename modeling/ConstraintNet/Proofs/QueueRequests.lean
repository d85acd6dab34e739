/-
  ConstraintNet.Proofs.QueueRequests
  ──────────────────────────────────
  **A QUEUE SERVES LIKE A PLAIN LIST.**

  A queue keeps arcs in two lists and counts them in a search tree, and each
  request changes the lists and the counts on their own.  `serveList` answers
  the same requests on one plain list, which it searches from end to end:

      serveList q.toList request
        = (response of q, arcs of q after it)      — `Exact.serve`

  This holds while the counts are exact, and a request leaves them so.  By
  induction the two give the same responses to any sequence of requests and
  have the same arcs after it, and the counts are exact at every point.

  Main result: `queue_serves_as_list`.
-/
import ConstraintNet.Proofs.ArcQueue

namespace ConstraintNet.ArcQueue

/-! ## §1. Requests to a plain list. -/

/-- The answer to a request and the waiting arcs after it, oldest first. -/
def serveList (waiting : List Arc) : Request → Response × List Arc
  | .push arc =>
    if arc ∈ waiting then (.pushed false, waiting) else (.pushed true, waiting ++ [arc])
  | .pushAgain arc => (.done, waiting ++ [arc])
  | .pop =>
    match waiting with
    | [] => (.popped none, [])
    | arc :: rest => (.popped (some arc), rest)
  | .clear => (.done, [])

/-- The responses to requests that are served one after another, and the state after the last of
them. -/
def serveAll {σ : Type} (serve : σ → Request → Response × σ) (state : σ) :
    List Request → List Response × σ
  | [] => ([], state)
  | request :: rest =>
    let served := serve state request
    let servedRest := serveAll serve served.2 rest
    (served.1 :: servedRest.1, servedRest.2)

/-- Only the second kind of push lets an arc wait twice. -/
theorem nodup_serveList {waiting : List Arc} {request : Request} (h : waiting.Nodup)
    (hrequest : ∀ arc, request ≠ .pushAgain arc) : (serveList waiting request).2.Nodup := by
  cases request with
  | push arc =>
    unfold serveList
    dsimp only
    split
    next => exact h
    next hnew => exact nodup_concat h hnew
  | pushAgain arc => exact absurd rfl (hrequest arc)
  | pop =>
    cases waiting with
    | nil => exact List.nodup_nil
    | cons arc rest => exact (List.nodup_cons.1 h).2
  | clear => exact List.nodup_nil

theorem nodup_serveAll_list {requests : List Request} {waiting : List Arc} (h : waiting.Nodup)
    (hrequests : ∀ arc, Request.pushAgain arc ∉ requests) :
    (serveAll serveList waiting requests).2.Nodup := by
  induction requests generalizing waiting with
  | nil => exact h
  | cons request rest ih =>
    refine ih (nodup_serveList h fun arc heq => ?_) fun arc hmem => ?_
    · exact hrequests arc (heq ▸ List.mem_cons_self)
    · exact hrequests arc (List.mem_cons_of_mem request hmem)

/-! ## §2. The queue and the list. -/

/-- **One request.** A queue with exact counts responds as its list does, is that list afterwards,
and has exact counts again. -/
theorem Exact.serve {q : ArcQueue} (h : q.Exact) (request : Request) :
    serveList q.toList request = ((q.serve request).1, (q.serve request).2.toList) ∧
      (q.serve request).2.Exact := by
  cases request with
  | push arc =>
    refine ⟨?_, h.push arc⟩
    show (if arc ∈ q.toList then (Response.pushed false, q.toList)
      else (.pushed true, q.toList ++ [arc])) = (.pushed (!q.contains arc), (q.push arc).toList)
    unfold ArcQueue.push
    -- exact counts make the test of the queue that of the list
    by_cases hmem : arc ∈ q.toList
    · have hcontains : q.contains arc = true := (h.contains_iff arc).2 hmem
      rw [if_pos hmem, if_pos hcontains, hcontains]
      rfl
    · have hcontains : q.contains arc = false :=
        eq_false_of_ne_true fun hc => hmem ((h.contains_iff arc).1 hc)
      rw [if_neg hmem, hcontains, if_neg Bool.false_ne_true, toList_pushAgain]
      rfl
  | pushAgain arc =>
    refine ⟨?_, h.pushAgain arc⟩
    show (Response.done, q.toList ++ [arc]) = (.done, (q.pushAgain arc).toList)
    rw [toList_pushAgain]
  | pop =>
    unfold ArcQueue.serve
    dsimp only
    split
    next arc rest hpop =>
      refine ⟨?_, h.of_pop? hpop⟩
      rw [toList_of_pop? hpop]
      rfl
    next hpop =>
      refine ⟨?_, h⟩
      rw [pop?_eq_none_iff.1 hpop]
      rfl
  | clear => exact ⟨rfl, exact_empty⟩

/-- **A sequence of requests.** -/
theorem Exact.serveAll {q : ArcQueue} (h : q.Exact) (requests : List Request) :
    serveAll serveList q.toList requests =
        ((serveAll ArcQueue.serve q requests).1, (serveAll ArcQueue.serve q requests).2.toList) ∧
      (serveAll ArcQueue.serve q requests).2.Exact := by
  induction requests generalizing q with
  | nil => exact ⟨rfl, h⟩
  | cons request rest ih =>
    obtain ⟨hserved, hexact⟩ := h.serve request
    obtain ⟨hrest, hlast⟩ := ih hexact
    refine ⟨?_, hlast⟩
    unfold ArcQueue.serveAll
    dsimp only
    rw [hserved, hrest]

/-- **A queue is a first-in-first-out list.** From the empty queue, any sequence of requests is
answered as a plain list answers them: a push puts the arc behind the others when it does not wait,
and says whether it did so; a push again always does; a pop takes away the oldest arc and gives it.
After every sequence, and so at every point of a longer one, the queue has the arcs of the list, an
entry for each arc that waits with the number of its occurrences and no other entries, it contains
the arcs that wait, and none of them waits twice unless some arc was pushed again. -/
theorem queue_serves_as_list (requests : List Request) :
    ∃ responses q, serveAll serve ∅ requests = (responses, q) ∧
      serveAll serveList [] requests = (responses, q.toList) ∧
      (∀ arc, q.counts[arc]? = if arc ∈ q.toList then some (q.toList.count arc) else none) ∧
      (∀ arc, q.contains arc = true ↔ arc ∈ q.toList) ∧
      ((∀ arc, Request.pushAgain arc ∉ requests) → q.toList.Nodup) := by
  obtain ⟨hlist, hexact⟩ := exact_empty.serveAll requests
  rw [toList_empty] at hlist
  refine ⟨_, _, rfl, hlist, hexact, hexact.contains_iff, fun hrequests => ?_⟩
  have hnodup := nodup_serveAll_list List.nodup_nil hrequests
  rw [hlist] at hnodup
  exact hnodup

/-- An arc waits only once although it is pushed twice, and again after it has left. -/
theorem pushed_twice_waits_once :
    (∀ arc, Request.pushAgain arc ∉
      [.push ⟨0, 1⟩, .push ⟨1, 0⟩, .push ⟨0, 1⟩, .pop, .push ⟨0, 1⟩, .push ⟨1, 0⟩]) ∧
    ∃ q : ArcQueue, serveAll serve ∅
        [.push ⟨0, 1⟩, .push ⟨1, 0⟩, .push ⟨0, 1⟩, .pop, .push ⟨0, 1⟩, .push ⟨1, 0⟩] =
      ([.pushed true, .pushed true, .pushed false, .popped (some ⟨0, 1⟩), .pushed true,
        .pushed false], q) ∧
      q.toList = [⟨1, 0⟩, ⟨0, 1⟩] ∧ q.toList.Nodup := by
  have hrequests : ∀ arc, Request.pushAgain arc ∉
      [.push ⟨0, 1⟩, .push ⟨1, 0⟩, .push ⟨0, 1⟩, .pop, .push ⟨0, 1⟩, .push ⟨1, 0⟩] := by
    intro arc
    simp
  obtain ⟨responses, q, hserved, hlist, _, _, hnodup⟩ := queue_serves_as_list
    [.push ⟨0, 1⟩, .push ⟨1, 0⟩, .push ⟨0, 1⟩, .pop, .push ⟨0, 1⟩, .push ⟨1, 0⟩]
  obtain ⟨hresponses, hwaiting⟩ := Prod.ext_iff.1 hlist
  refine ⟨hrequests, q, ?_, hwaiting.symm, hnodup hrequests⟩
  rw [hserved]
  exact congrArg (·, q) hresponses.symm

end ConstraintNet.ArcQueue
