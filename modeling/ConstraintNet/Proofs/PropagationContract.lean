/-
  ConstraintNet.Proofs.PropagationContract
  ────────────────────────────────────────
  **WHAT EVERY PROPAGATION PROMISES, FROM ANY SESSION.**

  A propagation may start from a session that no search would come to: with
  empty domains, with decided values that are no longer possible, with arcs
  that wait twice.  `KeepsContract` is what may be expected all the same:

      `frame`     — only the domains and the counters are touched
      `subset`    — no domain has a new value
      `admits`    — a solution that was possible is still possible
      `refutes`   — after a failure no solution had been possible

  Main result: `propagation_keeps_contract`, for both entry points of arc
  consistency under both policies and for forward checking.
-/
import ConstraintNet.Proofs.Counters
import ConstraintNet.Proofs.Draining

namespace ConstraintNet

/-! ## §1. The contract. -/

/-- A propagation that starts from `s` may end with this verdict and with `s'`. -/
structure KeepsContract (net : Network) (s : Session) (consistent : Bool) (s' : Session) :
    Prop where
  /-- Nothing but the domains and the counters has changed. -/
  frame : s' = { s with domains := s'.domains, stats := s'.stats }
  /-- Among the counters, those of the search have not. -/
  quiet : s.stats.Quiet s'.stats
  size_eq : s'.domains.size = s.domains.size
  subset : ∀ x v, v ∈ s'.dom x → v ∈ s.dom x
  admits : ∀ f, s.Admits net f → s'.Admits net f
  refutes : consistent = false → ∀ f, ¬ s.Admits net f

variable {net : Network} {s s' : Session} {result : Propagated}

/-- A narrower session differs in its domains and in its counters only. -/
theorem Session.Narrows.frame (h : s.Narrows s') :
    s' = { s with domains := s'.domains, stats := s'.stats } := by
  obtain ⟨_, _, hassignment, hcheckpoints, hhighWater, hsolution, hfinished⟩ := h
  -- the depth is not mentioned by `Narrows`, but the checkpoints determine it
  have hdepth : s'.depth = s.depth := by rw [s'.depth_eq, s.depth_eq, hcheckpoints]
  cases s with
  | mk _ _ _ _ _ _ _ _ _ =>
    cases s' with
    | mk _ _ _ _ _ _ _ _ _ =>
      subst hassignment hcheckpoints hdepth hhighWater hsolution hfinished
      rfl

/-- A sound propagation that leaves the counters of the search alone keeps the contract. -/
theorem Propagates.keepsContract (h : Propagates net s result)
    (hquiet : s.stats.Quiet result.session.stats) :
    KeepsContract net s result.consistent result.session where
  frame := h.narrows.frame
  quiet := hquiet
  size_eq := h.narrows.size_eq
  subset := h.narrows.subset
  admits := h.admits
  refutes := h.not_admits

/-! ## §2. The propagations. -/

namespace ArcConsistency

variable {queue : ArcQueue}

/-- The loop keeps the contract, whichever arcs wait. -/
theorem exists_drain?_keepsContract (policy : RequeuePolicy) (hexact : queue.Exact)
    (hrange : InRange net queue) (hsize : s.domains.size = net.size) :
    ∃ result, drain? net policy queue s = some result ∧
      KeepsContract net s result.consistent result.session := by
  obtain ⟨result, hresult, _, hpropagates, _⟩ := exists_drains policy hexact hrange hsize
  exact ⟨result, hresult, hpropagates.keepsContract (quiet_of_drain? hresult)⟩

end ArcConsistency

/-- **Every propagation keeps its contract.** The session is any session of the network, and the
queue may hold any arcs between its variables, as often as it likes. Full arc consistency, arc
consistency after a change and forward checking of any list of variables all give an answer; what
they leave differs from `s` in nothing but domains and counters, every domain is a part of what it
was, every solution within the domains is still within them, and the verdict that no value is left
is given only when there was no such solution. -/
theorem propagation_keeps_contract (net : Network) {queue : ArcQueue} {s : Session}
    (hexact : queue.Exact) (hrange : ArcConsistency.InRange net queue)
    (hsize : s.domains.size = net.size) (hassignment : s.assignment.size = net.size) :
    (∀ policy, ∃ result, ArcConsistency.establish? net policy queue s = some result ∧
      KeepsContract net s result.consistent result.session) ∧
    (∀ policy, ∀ changed < net.size,
      ∃ result, ArcConsistency.propagate? net policy queue s changed = some result ∧
        KeepsContract net s result.consistent result.session) ∧
    (∀ changed < net.size, ∀ listed : List VariableId, (∀ z ∈ listed, z < net.size) →
      ∃ consistent s', ForwardChecking.propagate? net s changed listed = some (consistent, s') ∧
        KeepsContract net s consistent s') := by
  refine ⟨?_, ?_, ?_⟩
  · intro policy
    exact ArcConsistency.exists_drain?_keepsContract policy
      (ArcConsistency.mem_seedAll net hexact).1 (ArcConsistency.inRange_seedAll hexact hrange) hsize
  · intro policy changed hchanged
    obtain ⟨seeded, hseeded⟩ := ArcConsistency.exists_seedChanged? net policy queue hchanged
    unfold ArcConsistency.propagate?
    rw [hseeded]
    exact ArcConsistency.exists_drain?_keepsContract policy
      (ArcConsistency.mem_seedChanged? hexact hseeded).1
      (ArcConsistency.inRange_seedChanged? hexact hrange hseeded) hsize
  · intro changed hchanged listed hlisted
    obtain ⟨consistent, s', hresult, hpropagates, _⟩ := ForwardChecking.exists_propagate? net queue
      hchanged listed hsize hassignment hlisted
    exact ⟨consistent, s', hresult,
      hpropagates.keepsContract (ForwardChecking.quiet_of_propagate? hresult)⟩

/-- A session in which the middle one of the rising variables is decided while its domain is still
whole. -/
def ahead : Session :=
  { Session.start ArcConsistency.rising with assignment := #[none, some 2, none] }

open ArcConsistency in
theorem rising_keeps_contract :
    (doubled.Exact ∧ InRange rising doubled ∧ ahead.domains.size = rising.size ∧
      ahead.assignment.size = rising.size) ∧
    (∀ policy, ∃ result, establish? rising policy doubled ahead = some result ∧
      KeepsContract rising ahead result.consistent result.session) ∧
    (∀ policy, ∀ changed < rising.size,
      ∃ result, propagate? rising policy doubled ahead changed = some result ∧
        KeepsContract rising ahead result.consistent result.session) ∧
    (∀ changed < rising.size, ∀ listed : List VariableId, (∀ z ∈ listed, z < rising.size) →
      ∃ consistent s', ForwardChecking.propagate? rising ahead changed listed =
          some (consistent, s') ∧
        KeepsContract rising ahead consistent s') := by
  have hsize : ahead.domains.size = rising.size := (coherent_start rising).size_domains
  exact ⟨⟨exact_doubled, inRange_doubled, hsize, rfl⟩,
    propagation_keeps_contract rising exact_doubled inRange_doubled hsize rfl⟩

end ConstraintNet
