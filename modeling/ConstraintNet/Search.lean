/-
  ConstraintNet.Search
  ────────────────────
  **TWO-WAY BRANCHING WITH PROPAGATION.**

  A node of the search picks a variable and one of its values and makes two
  branches: first the variable has the value, then it does not.  Each branch
  propagates its decision and, if that leaves every domain a value, goes on
  with a node of its own.  A branch puts back what it changed before it
  returns, whether it found a solution or not.

  Every level of the tree removes at least one possible value or one
  undecided variable, so a search that may go as deep as the number of
  values and variables together never reaches the bottom of its allowance;
  `explore?` takes that allowance, and `search?` computes it.
-/
import ConstraintNet.Journal
import ConstraintNet.Ordering
import ConstraintNet.Propagation

namespace ConstraintNet

/-- All that changes in the course of a search. -/
structure SearchState where
  session : Session
  queue : ArcQueue
  journal : Journal

namespace SearchState

/-- The state with a changed session. -/
def withSession (st : SearchState) (session : Session) : SearchState :=
  { st with session := session }

/-- The state with one more event in the journal. -/
def note (st : SearchState) (event : SearchEvent) : SearchState :=
  { st with journal := st.journal.note event }

/-- The state with changed counters. -/
def mapStats (st : SearchState) (f : Statistics → Statistics) : SearchState :=
  st.withSession (st.session.mapStats f)

end SearchState

namespace Search

/-! ## §1. Branches. -/

/-- The answer of a part of the search: whether it found a solution, and the state afterwards.
`none` stands for a variable that does not exist, a missing checkpoint or a used-up allowance. -/
abbrev Answer := Option (Bool × SearchState)

/-- Propagate the decision about `var`, then explore what it leaves, unless a domain is empty. -/
def follow? (net : Network) (settings : Settings) (explore : SearchState → List VariableId → Answer)
    (st : SearchState) (var : VariableId) (undecided : List VariableId) : Answer :=
  match settings.propagate? net st.queue st.session var undecided with
  | none => none
  | some result =>
    let st : SearchState := { st with queue := result.queue, session := result.session }
    let st := st.note (.propagated var undecided result.consistent result.session.domains
      result.session.depth result.session.stats.revisions)
    if result.consistent then explore st undecided
    else some (false, st.mapStats Statistics.countBacktrack)

/-- The branch in which `var` has the value. -/
def branchEqual? (net : Network) (settings : Settings)
    (explore : SearchState → List VariableId → Answer) (st : SearchState)
    (remaining : List VariableId) (var : VariableId) (value : Value) : Answer :=
  match st.session.checkpoint.assign? var value with
  | none => none
  | some decided =>
    match follow? net settings explore (st.withSession decided) var
        (remaining.filter fun v => v ≠ var) with
    | none => none
    | some (found, st) =>
      -- the domains return to the checkpoint; the decision is no part of it
      match st.session.restore? with
      | none => none
      | some restored =>
        match restored.unassign? var with
        | none => none
        | some session => some (found, st.withSession session)

/-- The branch in which `var` does not have the value. -/
def branchOther? (net : Network) (settings : Settings)
    (explore : SearchState → List VariableId → Answer) (st : SearchState)
    (remaining : List VariableId) (var : VariableId) (value : Value) : Answer :=
  match st.session.removeValue? var value with
  | none => none
  | some (_, narrowed) =>
    match narrowed.domain? var with
    | none => none
    | some domain =>
      let answer : Answer :=
        -- without a value left there is nothing to propagate, and no checkpoint to return to
        if domain.isEmpty then
          some (false, (st.withSession narrowed).mapStats Statistics.countBacktrack)
        else
          -- the checkpoint is taken after the removal, so the value comes back separately below
          match follow? net settings explore (st.withSession narrowed.checkpoint) var remaining with
          | none => none
          | some (found, st) =>
            match st.session.restore? with
            | none => none
            | some restored => some (found, st.withSession restored)
      match answer with
      | none => none
      | some (found, st) =>
        match st.session.insertValue? var value with
        | none => none
        | some (_, session) => some (found, st.withSession session)

/-! ## §2. Nodes. -/

/-- The variable and the value that a node branches on, when there are any. -/
def choose? (settings : Settings) (st : SearchState) (remaining : List VariableId) :
    Option (Option (VariableId × Value) × SearchState) :=
  match settings.variableOrdering.select? st.session remaining with
  | none => none
  | some none => some (none, st.note (.variableChosen remaining none))
  | some (some var) =>
    let st := st.note (.variableChosen remaining (some var))
    match st.session.domain? var with
    | none => none
    | some domain =>
      let value := settings.valueOrdering.select? domain
      some (value.map (var, ·), st.note (.valueChosen domain value))

/-- A node of the search tree over the variables that remain, with at most `allowance` levels
below and including it. -/
def explore? (net : Network) (settings : Settings) :
    Nat → SearchState → List VariableId → Answer
  | 0, _, _ => none
  | allowance + 1, st, remaining =>
    let st := st.mapStats Statistics.countNode
    if st.session.isComplete then some (true, st.withSession st.session.recordSolution)
    else
      match choose? settings st remaining with
      | none => none
      | some (none, st) => some (false, st)
      | some (some (var, value), st) =>
        match
          branchEqual? net settings (explore? net settings allowance) st remaining var value with
        | none => none
        | some (true, st) => some (true, st)
        | some (false, st) =>
          branchOther? net settings (explore? net settings allowance) st remaining var value

/-- A whole search: the propagation before the first decision, then the tree over all variables. -/
def search? (net : Network) (settings : Settings) (st : SearchState) : Option SearchState :=
  match settings.prepare? net st.queue st.session with
  | none => none
  | some result =>
    let st : SearchState := { st with queue := result.queue, session := result.session }
    let st := st.note (.prepared result.consistent result.session.domains
      result.session.stats.revisions)
    if result.consistent then
      -- one level per decision, one per removed value, and the node of a complete assignment
      let allowance := net.size + st.session.totalSize + 1
      (explore? net settings allowance st (List.range net.size)).map fun (_, st) =>
        st.withSession st.session.finish
    else some (st.withSession st.session.finish)

end Search

end ConstraintNet
