/-
  ConstraintNet.ArcQueue
  ──────────────────────
  **THE QUEUE OF ARCS THAT WAIT FOR REVISION.**

  An arc names a variable whose values are to be checked and the variable
  that has to support them.  Arcs wait in the order in which they came; the
  queue also counts how often each arc is waiting, so that `contains` needs
  no scan.  `toList` is the queue as a plain list, oldest arc first:

      (q.pushAgain arc).toList = q.toList ++ [arc]
      q.pop? = some (arc, q') → q.toList = arc :: q'.toList

  Whatever changes a queue can be put as a `Request`, and `serve` answers it.
-/
import Std.Data.TreeMap
import ConstraintNet.Value

namespace ConstraintNet

/-! ## §1. Arcs. -/

/-- A variable and a neighbour that has to support its values. -/
structure Arc where
  /-- The variable whose values are checked. -/
  target : VariableId
  /-- The variable that supports them. -/
  support : VariableId
  deriving Repr, DecidableEq

namespace Arc

/-- The arc in the other direction. -/
def reversed (arc : Arc) : Arc := ⟨arc.support, arc.target⟩

/-- Arcs are ordered by target, then by support. -/
def compare (a b : Arc) : Ordering :=
  compareLex (compareOn Arc.target) (compareOn Arc.support) a b

instance : Std.TransCmp Arc.compare :=
  inferInstanceAs (Std.TransCmp (compareLex (compareOn Arc.target) (compareOn Arc.support)))

/-- Arcs are compared by both of their variables. -/
theorem compare_eq_eq_iff {a b : Arc} : Arc.compare a b = .eq ↔ a = b := by
  cases a; cases b
  simp [Arc.compare, compareLex, compareOn, Ordering.then_eq_eq]

instance : Std.LawfulEqCmp Arc.compare where
  eq_of_compare := compare_eq_eq_iff.1

end Arc

/-! ## §2. Queues. -/

/-- Waiting arcs, with the number of times that each of them waits. -/
structure ArcQueue where
  /-- The oldest arcs, in order. -/
  front : List Arc
  /-- The arcs that came after them, the newest first. -/
  back : List Arc
  /-- How often an arc waits; arcs that do not wait have no entry. -/
  counts : Std.TreeMap Arc Nat Arc.compare

namespace ArcQueue

/-- The queue without arcs. -/
def empty : ArcQueue := ⟨[], [], ∅⟩

instance : EmptyCollection ArcQueue := ⟨empty⟩

/-- The waiting arcs, oldest first. -/
def toList (q : ArcQueue) : List Arc := q.front ++ q.back.reverse

/-- The number of waiting arcs. -/
def size (q : ArcQueue) : Nat := q.front.length + q.back.length

/-- Whether no arc waits. -/
def isEmpty (q : ArcQueue) : Bool := q.front.isEmpty && q.back.isEmpty

/-- Whether the arc waits. -/
def contains (q : ArcQueue) (arc : Arc) : Bool := q.counts.contains arc

/-- The queue with the arc behind all others, whether it waits already or not. -/
def pushAgain (q : ArcQueue) (arc : Arc) : ArcQueue :=
  { q with
    back := arc :: q.back
    counts := q.counts.insert arc (q.counts.getD arc 0 + 1) }

/-- The queue with the arc behind all others, unless it waits already. -/
def push (q : ArcQueue) (arc : Arc) : ArcQueue :=
  if q.contains arc then q else q.pushAgain arc

/-- The counts after one occurrence of the arc has left the queue. -/
def countDown (counts : Std.TreeMap Arc Nat Arc.compare) (arc : Arc) :
    Std.TreeMap Arc Nat Arc.compare :=
  match counts[arc]? with
  | none => counts
  | some n => if n ≤ 1 then counts.erase arc else counts.insert arc (n - 1)

/-- The oldest arc and the queue without it; `none` when no arc waits. -/
def pop? (q : ArcQueue) : Option (Arc × ArcQueue) :=
  match q.front with
  | arc :: front => some (arc, ⟨front, q.back, countDown q.counts arc⟩)
  | [] =>
    -- the front is used up: the arcs that came later take its place
    match q.back.reverse with
    | arc :: front => some (arc, ⟨front, [], countDown q.counts arc⟩)
    | [] => none

/-! ## §3. Requests. -/

/-- What is asked of a queue. -/
inductive Request where
  /-- The arc is to wait, unless it does already. -/
  | push (arc : Arc)
  /-- The arc is to wait, once more if it does already. -/
  | pushAgain (arc : Arc)
  /-- The oldest arc is to leave. -/
  | pop
  /-- All arcs are to leave. -/
  | clear
  deriving Repr, DecidableEq

/-- What a queue answers. -/
inductive Response where
  /-- Whether the arc was put into the queue. -/
  | pushed (added : Bool)
  /-- The arc that has left; `none` when no arc waited. -/
  | popped (arc : Option Arc)
  | done
  deriving Repr, DecidableEq

/-- The answer to a request and the queue after it. -/
def serve (q : ArcQueue) : Request → Response × ArcQueue
  | .push arc => (.pushed (!q.contains arc), q.push arc)
  | .pushAgain arc => (.done, q.pushAgain arc)
  | .pop =>
    match q.pop? with
    | some (arc, rest) => (.popped (some arc), rest)
    | none => (.popped none, q)
  | .clear => (.done, ∅)

/-! ## §4. Queues as lists. -/

@[simp] theorem toList_empty : (∅ : ArcQueue).toList = [] := rfl

@[simp] theorem toList_pushAgain (q : ArcQueue) (arc : Arc) :
    (q.pushAgain arc).toList = q.toList ++ [arc] := by
  simp [toList, pushAgain]

/-- The size is the number of arcs that wait. -/
theorem size_eq_length (q : ArcQueue) : q.size = q.toList.length := by
  simp [size, toList]

@[simp] theorem size_pushAgain (q : ArcQueue) (arc : Arc) :
    (q.pushAgain arc).size = q.size + 1 := by
  simp [size_eq_length]

/-- Nothing can be taken out when nothing waits. -/
theorem pop?_eq_none_iff {q : ArcQueue} : q.pop? = none ↔ q.toList = [] := by
  obtain ⟨front, back, counts⟩ := q
  cases front with
  | cons a front => simp [pop?, toList]
  | nil =>
    cases hb : back.reverse with
    | nil => simp [pop?, toList, hb]
    | cons a front => simp [pop?, toList, hb]

/-- The arc that is taken out waited in front of all others. -/
theorem toList_of_pop? {q q' : ArcQueue} {arc : Arc} (h : q.pop? = some (arc, q')) :
    q.toList = arc :: q'.toList := by
  obtain ⟨front, back, counts⟩ := q
  cases front with
  | cons a front =>
    simp only [pop?, Option.some.injEq, Prod.mk.injEq] at h
    obtain ⟨rfl, rfl⟩ := h
    simp [toList]
  | nil =>
    cases hb : back.reverse with
    | nil => simp [pop?, hb] at h
    | cons a front =>
      simp only [pop?, hb, Option.some.injEq, Prod.mk.injEq] at h
      obtain ⟨rfl, rfl⟩ := h
      simp [toList, hb]

theorem size_of_pop? {q q' : ArcQueue} {arc : Arc} (h : q.pop? = some (arc, q')) :
    q.size = q'.size + 1 := by
  simp [size_eq_length, toList_of_pop? h]

end ArcQueue

end ConstraintNet
