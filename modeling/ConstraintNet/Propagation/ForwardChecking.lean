/-
  ConstraintNet.Propagation.ForwardChecking
  ─────────────────────────────────────────
  **PRUNING THE NEIGHBOURS OF ONE VARIABLE.**

  After a change of one variable, each undecided variable that shares a
  constraint with it keeps only the values that the changed domain supports.
  What this removes is not followed any further.
-/
import ConstraintNet.Propagation.Revision

namespace ConstraintNet.ForwardChecking

/-- Whether every listed variable keeps a value under the domain of `changed`, and the session
afterwards; the variables after one that keeps none are not looked at. Decided variables and
`changed` itself are passed over. -/
def propagate? (net : Network) (s : Session) (changed : VariableId) :
    List VariableId → Option (Bool × Session)
  | [] => some (true, s)
  | future :: rest =>
    if future = changed then propagate? net s changed rest
    else
      match s.isAssigned? future with
      | none => none
      | some true => propagate? net s changed rest
      | some false =>
        if (net.sharedConstraints changed future).isEmpty then propagate? net s changed rest
        else
          match reviseFuture? net s changed future with
          | none => none
          | some (false, s') => some (false, s')
          | some (true, s') => propagate? net s' changed rest

end ConstraintNet.ForwardChecking
