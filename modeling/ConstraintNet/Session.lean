/-
  ConstraintNet.Session
  ─────────────────────
  **THE STATE OF A SEARCH.**

  A session holds what is still possible for every variable (its domain),
  the values that have been decided, the checkpoints to which the domains
  can return, the counters, and the solution once there is one.

  Variables are looked up by position.  An operation on a variable that the
  session does not have, like a return to a checkpoint when none is open,
  answers `none`; so does `keepable?` when a count is too large to keep.
-/
import ConstraintNet.Network
import ConstraintNet.Statistics

namespace ConstraintNet

/-- The state of a search over a network. -/
structure Session where
  /-- The values that are still possible, by variable. -/
  domains : Array Domain
  /-- The decided values, by variable. -/
  assignment : Array (Option Value)
  /-- The domains to return to, the innermost checkpoint first. -/
  checkpoints : List (Array Domain)
  /-- The number of open checkpoints, which is kept so that it need not be counted. -/
  depth : Nat
  depth_eq : depth = checkpoints.length
  /-- The greatest number of checkpoints that were ever open together. -/
  highWater : Nat
  stats : Statistics
  /-- The solution that was recorded. -/
  solution : Option (List Value)
  /-- Whether a search of this session has ended. -/
  finished : Bool

namespace Session

/-- Every variable may take its whole range, and nothing is decided. -/
def start (net : Network) : Session :=
  { domains := net.bounds.map Bounds.domain
    assignment := Array.replicate net.size none
    checkpoints := []
    depth := 0
    depth_eq := rfl
    highWater := 0
    stats := Statistics.zero
    solution := none
    finished := false }

/-! ## §1. Domains. -/

/-- The domain of a variable. -/
def domain? (s : Session) (var : VariableId) : Option Domain := s.domains[var]?

/-- The session with another domain for a variable. -/
def setDomain (s : Session) (var : VariableId) (domain : Domain) : Session :=
  { s with domains := s.domains.setIfInBounds var domain }

/-- The number of values that are still possible, over all variables. -/
def totalSize (s : Session) : Nat := total Domain.size s.domains.toList

/-- Whether a value was there to be removed from the domain, and the session without it. -/
def removeValue? (s : Session) (var : VariableId) (value : Value) : Option (Bool × Session) :=
  match s.domain? var with
  | none => none
  | some domain => some (domain.contains value, s.setDomain var (domain.erase value))

/-- Whether a value was missing from the domain, and the session with it. -/
def insertValue? (s : Session) (var : VariableId) (value : Value) : Option (Bool × Session) :=
  match s.domain? var with
  | none => none
  | some domain => some (!domain.contains value, s.setDomain var (domain.insert value))

/-! ## §2. Decisions. -/

/-- The session after the decision that `var` has the value: no other value is possible for it. -/
def assign? (s : Session) (var : VariableId) (value : Value) : Option Session :=
  if var < s.domains.size ∧ var < s.assignment.size then
    some
      { s with
        domains := s.domains.setIfInBounds var (Domain.singleton value)
        assignment := s.assignment.setIfInBounds var (some value) }
  else none

/-- The session after the decision about `var` is withdrawn; its domain stays as it is. -/
def unassign? (s : Session) (var : VariableId) : Option Session :=
  if var < s.assignment.size then
    some { s with assignment := s.assignment.setIfInBounds var none }
  else none

/-- Whether the value of `var` is decided. -/
def isAssigned? (s : Session) (var : VariableId) : Option Bool :=
  s.assignment[var]?.map Option.isSome

/-- Whether the values of all variables are decided. -/
def isComplete (s : Session) : Bool := s.assignment.all Option.isSome

/-- The decided values of all variables; `none` while one of them is open. -/
def completeAssignment? (s : Session) : Option (List Value) :=
  if s.isComplete then some (s.assignment.toList.filterMap id) else none

/-! ## §3. Checkpoints. -/

/-- The session with a new checkpoint at the present domains. -/
def pushCheckpoint (s : Session) : Session :=
  { s with
    checkpoints := s.domains :: s.checkpoints
    depth := s.depth + 1
    depth_eq := by rw [s.depth_eq, List.length_cons]
    highWater := max s.highWater (s.depth + 1) }

/-- The session with a new checkpoint, whose depth the counters take notice of. -/
def checkpoint (s : Session) : Session :=
  let s' := s.pushCheckpoint
  { s' with stats := { s'.stats with maxDepth := s'.highWater } }

/-- The session with the domains of the innermost checkpoint, which is closed; `none` when no
checkpoint is open. -/
def restore? (s : Session) : Option Session :=
  match h : s.checkpoints with
  | [] => none
  | domains :: rest =>
    some
      { s with
        domains := domains
        checkpoints := rest
        depth := s.depth - 1
        depth_eq := by rw [s.depth_eq, h, List.length_cons, Nat.add_sub_cancel] }

/-! ## §4. The end of a search. -/

/-- The session with its complete assignment, if it has one, as the solution. -/
def recordSolution (s : Session) : Session := { s with solution := s.completeAssignment? }

/-- The session after its search. -/
def finish (s : Session) : Session := { s with finished := true }

/-! ## §5. Counters. -/

/-- The session with other counters. -/
def withStats (s : Session) (stats : Statistics) : Session := { s with stats := stats }

/-- The session with changed counters. -/
def mapStats (s : Session) (f : Statistics → Statistics) : Session := s.withStats (f s.stats)

/-- The session, if its counts can be kept. -/
def keepable? (s : Session) : Option Session := if s.stats.talliesFit then some s else none

@[simp] theorem totalSize_withStats (s : Session) (stats : Statistics) :
    (s.withStats stats).totalSize = s.totalSize := rfl

end Session

end ConstraintNet
