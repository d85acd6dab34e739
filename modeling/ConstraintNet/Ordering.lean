/-
  ConstraintNet.Ordering
  ──────────────────────
  **THE NEXT VARIABLE AND THE NEXT VALUE.**

  A search branches on one of the variables that remain and tries one of its
  values.  Both choices read the session and change nothing.
-/
import ConstraintNet.Session
import ConstraintNet.Settings

namespace ConstraintNet

/-- The first of the variables with the fewest values, given that `best` has `size` of them;
`none` when the session does not have one of the variables. -/
def smallestDomain? (s : Session) (best : VariableId) (size : Nat) :
    List VariableId → Option VariableId
  | [] => some best
  | var :: rest =>
    match s.domain? var with
    | none => none
    | some domain =>
      if domain.size < size then smallestDomain? s var domain.size rest
      else smallestDomain? s best size rest

/-- The variable to branch on: the inner `none` when no variable remains, the outer one when the
session does not have a variable that has to be looked at. -/
def VariableOrdering.select? (ordering : VariableOrdering) (s : Session)
    (remaining : List VariableId) : Option (Option VariableId) :=
  match remaining with
  | [] => some none
  | var :: rest =>
    match ordering with
    | .selectFirst => some (some var)
    | .minimumRemainingValues =>
      match s.domain? var with
      | none => none
      | some domain => (smallestDomain? s var domain.size rest).map some

/-- The value to try first; `none` when there is none. -/
def ValueOrdering.select? (ordering : ValueOrdering) (domain : Domain) : Option Value :=
  match ordering with
  | .ascending => domain.min?
  | .descending => domain.max?

theorem ValueOrdering.mem_of_select? {ordering : ValueOrdering} {domain : Domain} {value : Value}
    (h : ordering.select? domain = some value) : value ∈ domain := by
  cases ordering with
  | ascending => exact Domain.mem_of_min? h
  | descending => exact Domain.mem_of_max? h

end ConstraintNet
