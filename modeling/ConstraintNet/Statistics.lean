/-
  ConstraintNet.Statistics
  ────────────────────────
  **WHAT A SEARCH COUNTS.**

  A search counts its nodes, the arcs that it revised, its backtracks and the
  greatest depth of its checkpoint stack.  For every constraint that took
  part in a revision it also tallies how often that happened and how many
  values the constraint pruned.

  Counting is exact.  A count has 64 bits when it is kept or reported; no
  search comes near that, but a count that is recorded from outside may.
  `talliesFit` says that the pruned values of every constraint can be kept,
  and `totalFits` that their sum can be reported.  The second is the stronger
  (`talliesFit_of_totalFits`).
-/
import Std.Data.TreeMap
import ConstraintNet.Total
import ConstraintNet.Value

namespace ConstraintNet

/-- How often a constraint was used, and how many values it pruned. -/
structure Tally where
  revisions : Nat
  prunings : Nat
  deriving Repr, DecidableEq

/-- The counters of one search. -/
structure Statistics where
  /-- Nodes of the search tree that were entered. -/
  nodes : Nat
  /-- Arcs that were revised. -/
  revisions : Nat
  /-- Branches that failed without a node of their own. -/
  backtracks : Nat
  /-- The greatest number of checkpoints that were ever open together. -/
  maxDepth : Nat
  /-- The tallies of the constraints that were used. -/
  byConstraint : Std.TreeMap ConstraintId Tally

namespace Statistics

/-- No event has been counted yet. -/
def zero : Statistics := ⟨0, 0, 0, 0, ∅⟩

/-- One use of a constraint, which pruned `pruned` values. -/
def recordUse (stats : Statistics) (id : ConstraintId) (pruned : Nat) : Statistics :=
  let tally := stats.byConstraint.getD id ⟨0, 0⟩
  { stats with
    byConstraint :=
      stats.byConstraint.insert id ⟨tally.revisions + 1, tally.prunings + pruned⟩ }

/-- One more revised arc. -/
def countRevision (stats : Statistics) : Statistics :=
  { stats with revisions := stats.revisions + 1 }

/-- One more node. -/
def countNode (stats : Statistics) : Statistics := { stats with nodes := stats.nodes + 1 }

/-- One more backtrack. -/
def countBacktrack (stats : Statistics) : Statistics :=
  { stats with backtracks := stats.backtracks + 1 }

/-- The tallies by ascending position of the constraint. -/
def tallies (stats : Statistics) : List (ConstraintId × Tally) := stats.byConstraint.toList

/-- The number of values that all constraints together pruned. -/
def totalPrunings (stats : Statistics) : Nat :=
  total (fun entry => entry.2.prunings) stats.tallies

/-- What a count stays below when it is kept or reported. -/
def countLimit : Nat := 1 <<< 64

/-- Whether the number of pruned values of every constraint can be kept. -/
def talliesFit (stats : Statistics) : Bool :=
  stats.tallies.all fun entry => entry.2.prunings < countLimit

/-- Whether the number of all pruned values can be reported. -/
def totalFits (stats : Statistics) : Bool := stats.totalPrunings < countLimit

theorem talliesFit_of_totalFits {stats : Statistics} (h : stats.totalFits = true) :
    stats.talliesFit = true := by
  have htotal : stats.totalPrunings < countLimit := of_decide_eq_true h
  refine List.all_eq_true.2 fun entry hentry => decide_eq_true ?_
  have hle : entry.2.prunings ≤ stats.totalPrunings :=
    le_total_of_mem (fun entry => entry.2.prunings) hentry
  exact Nat.lt_of_le_of_lt hle htotal

end Statistics

end ConstraintNet
