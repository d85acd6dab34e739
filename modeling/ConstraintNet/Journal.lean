/-
  ConstraintNet.Journal
  ─────────────────────
  **THE RECORD OF A SEARCH.**

  A search notes every choice of a variable, every choice of a value and
  every propagation, in the order in which they happen.  A journal counts all
  events and keeps the first of them, up to a limit; nothing in the search
  depends on it.
-/
import ConstraintNet.Domain

namespace ConstraintNet

/-- One step of a search. -/
inductive SearchEvent where
  /-- The propagation before the first decision: its verdict, the domains that it left, and the
  number of revised arcs so far. -/
  | prepared (consistent : Bool) (domains : Array Domain) (revisions : Nat)
  /-- The choice of a variable among those that remain. -/
  | variableChosen (remaining : List VariableId) (chosen : Option VariableId)
  /-- The choice of a value from a domain. -/
  | valueChosen (domain : Domain) (chosen : Option Value)
  /-- A propagation after the domain of `changed` was narrowed: the variables without a decision,
  its verdict, the domains that it left, the number of open checkpoints, and the number of revised
  arcs so far. -/
  | propagated (changed : VariableId) (undecided : List VariableId) (consistent : Bool)
      (domains : Array Domain) (depth revisions : Nat)

/-- The first events of a search and the number of all. -/
structure Journal where
  /-- How many events are kept. -/
  limit : Nat
  /-- How many events there were. -/
  count : Nat
  /-- The events that are kept, newest first. -/
  kept : List SearchEvent

namespace Journal

/-- No event yet. -/
def start (limit : Nat) : Journal := ⟨limit, 0, []⟩

/-- One more event. -/
def note (j : Journal) (event : SearchEvent) : Journal :=
  { j with
    count := j.count + 1
    kept := if j.count < j.limit then event :: j.kept else j.kept }

/-- The events that were kept, oldest first. -/
def events (j : Journal) : List SearchEvent := j.kept.reverse

end Journal

end ConstraintNet
