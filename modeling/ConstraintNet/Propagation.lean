/-
  ConstraintNet.Propagation
  ─────────────────────────
  **THE PROPAGATION OF AN ALGORITHM.**

  A search prepares its session once, before the first decision, and
  propagates after each decision.  Forward checking prepares nothing; arc
  consistency starts from an empty queue and makes the network arc
  consistent.
-/
import ConstraintNet.Propagation.ArcConsistency
import ConstraintNet.Propagation.ForwardChecking

namespace ConstraintNet

/-- The propagation before the first decision. -/
def Settings.prepare? (settings : Settings) (net : Network) (queue : ArcQueue) (s : Session) :
    Option Propagated :=
  match settings.algorithm with
  | .forwardChecking => some ⟨true, queue, s⟩
  | .maintainingArcConsistency =>
    ArcConsistency.establish? net settings.requeuePolicy ∅ s

/-- The propagation after the domain of `changed` was narrowed, while `undecided` are the variables
without a decision. -/
def Settings.propagate? (settings : Settings) (net : Network) (queue : ArcQueue) (s : Session)
    (changed : VariableId) (undecided : List VariableId) : Option Propagated :=
  match settings.algorithm with
  | .forwardChecking =>
    (ForwardChecking.propagate? net s changed undecided).map fun (consistent, s') =>
      ⟨consistent, queue, s'⟩
  | .maintainingArcConsistency =>
    ArcConsistency.propagate? net settings.requeuePolicy queue s changed

end ConstraintNet
