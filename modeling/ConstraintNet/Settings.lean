/-
  ConstraintNet.Settings
  ──────────────────────
  **HOW A SEARCH IS TO BE RUN.**

  Four independent choices: the propagation after each decision, which
  variable to branch on, which of its values to try first, and how arc
  consistency queues arcs again.  Each choice has a name, which settings
  files and reports use.
-/

namespace ConstraintNet

/-- The propagation that a search runs after each decision. -/
inductive Algorithm where
  /-- Only the neighbours of the variable that changed are pruned. -/
  | forwardChecking
  /-- Arcs are revised until nothing changes any more. -/
  | maintainingArcConsistency
  deriving Repr, DecidableEq

/-- Which variable a search branches on. -/
inductive VariableOrdering where
  /-- One with the fewest values, the first of them in the order of the variables. -/
  | minimumRemainingValues
  /-- The first one. -/
  | selectFirst
  deriving Repr, DecidableEq

/-- Which value of a variable a search tries first. -/
inductive ValueOrdering where
  | ascending
  | descending
  deriving Repr, DecidableEq

/-- Which arcs wait again after a revision has pruned the target of an arc. -/
inductive RequeuePolicy where
  /-- Every arc into the target but the one from the support. -/
  | symmetric
  /-- The arcs that a scan of the constraint list picks, which depends on what waits already and
  on how the constraints are stored. -/
  | legacy
  deriving Repr, DecidableEq

/-- All choices for a search. -/
structure Settings where
  algorithm : Algorithm
  variableOrdering : VariableOrdering
  valueOrdering : ValueOrdering
  requeuePolicy : RequeuePolicy
  deriving Repr, DecidableEq

/-! ## §1. Names. -/

/-- The name of an algorithm in settings. -/
def Algorithm.name : Algorithm → String
  | .forwardChecking => "forward_checking"
  | .maintainingArcConsistency => "maintaining_arc_consistency"

/-- The name of an algorithm in reports. -/
def Algorithm.title : Algorithm → String
  | .forwardChecking => "forward checking"
  | .maintainingArcConsistency => "maintaining arc consistency"

/-- The name of a variable ordering in settings. -/
def VariableOrdering.name : VariableOrdering → String
  | .minimumRemainingValues => "minimum_remaining_values"
  | .selectFirst => "select_first"

/-- The name of a value ordering in settings. -/
def ValueOrdering.name : ValueOrdering → String
  | .ascending => "ascending"
  | .descending => "descending"

/-- The name of a requeue policy in settings. -/
def RequeuePolicy.name : RequeuePolicy → String
  | .symmetric => "symmetric"
  | .legacy => "legacy"

/-! ## §2. Settings made step by step. -/

namespace Settings

/-- The settings that use an algorithm and leave the other choices at their defaults. -/
def ofAlgorithm (algorithm : Algorithm) : Settings :=
  ⟨algorithm, .minimumRemainingValues, .ascending, .symmetric⟩

/-- Arc consistency with the smallest domain and the smallest value first. -/
def standard : Settings := ofAlgorithm .maintainingArcConsistency

end Settings

end ConstraintNet
