/-
  ConstraintNet.Proofs.ArcQueue
  ─────────────────────────────
  **THE COUNTS OF A QUEUE ARE EXACT.**

  A queue keeps the number of times that each arc waits beside the arcs
  themselves.  `Exact` says that these numbers are right: an arc that waits
  has an entry with the number of its occurrences, and no other arc has one.
  Every operation keeps this, so `contains` means membership
  (`Exact.contains_iff`), and an arc that is pushed waits afterwards, whether
  it did before or not (`mem_toList_push`).

  `Idle` is the state between two propagations: exact, and nothing waits.
-/
import ConstraintNet.ArcQueue

namespace ConstraintNet.ArcQueue

/-! ## §1. Exact counts. -/

/-- An arc has an entry when it waits, and the entry says how often. -/
def Exact (q : ArcQueue) : Prop :=
  ∀ arc, q.counts[arc]? = if arc ∈ q.toList then some (q.toList.count arc) else none

/-- Nothing waits in the empty queue, and nothing is counted. -/
theorem exact_empty : Exact (∅ : ArcQueue) := by
  intro arc
  rw [toList_empty, if_neg List.not_mem_nil]
  exact Std.TreeMap.getElem?_emptyc

/-- **A queue contains the arcs that wait.** -/
theorem Exact.contains_iff {q : ArcQueue} (h : q.Exact) (arc : Arc) :
    q.contains arc = true ↔ arc ∈ q.toList := by
  unfold contains
  rw [Std.TreeMap.contains_eq_isSome_getElem?, h arc]
  split
  next hmem => simp [hmem]
  next hmem => simp [hmem]

/-- The count of an arc is the number of its occurrences. -/
theorem Exact.getD_counts {q : ArcQueue} (h : q.Exact) (arc : Arc) :
    q.counts.getD arc 0 = q.toList.count arc := by
  rw [Std.TreeMap.getD_eq_getD_getElem?, h arc]
  split
  next => rfl
  next hmem => exact (List.count_eq_zero_of_not_mem hmem).symm

/-- One occurrence more is counted once more. -/
theorem Exact.pushAgain {q : ArcQueue} (h : q.Exact) (arc : Arc) : (q.pushAgain arc).Exact := by
  intro other
  rw [toList_pushAgain]
  show (q.counts.insert arc (q.counts.getD arc 0 + 1))[other]? = _
  rw [Std.TreeMap.getElem?_insert, h.getD_counts]
  by_cases hother : arc = other
  · subst hother
    simp
  · have hne : Arc.compare arc other ≠ .eq := fun hc => hother (Arc.compare_eq_eq_iff.1 hc)
    rw [if_neg hne, h other]
    simp [Ne.symm hother, hother]

/-- A push keeps the counts exact, whether the arc waited before or not. -/
theorem Exact.push {q : ArcQueue} (h : q.Exact) (arc : Arc) : (q.push arc).Exact := by
  unfold ArcQueue.push
  split
  · exact h
  · exact h.pushAgain arc

/-- Taking an arc out counts it down. -/
theorem counts_of_pop? {q q' : ArcQueue} {arc : Arc} (h : q.pop? = some (arc, q')) :
    q'.counts = countDown q.counts arc := by
  unfold pop? at h
  split at h
  next =>
    simp only [Option.some.injEq, Prod.mk.injEq] at h
    obtain ⟨rfl, rfl⟩ := h
    rfl
  next =>
    split at h
    next =>
      simp only [Option.some.injEq, Prod.mk.injEq] at h
      obtain ⟨rfl, rfl⟩ := h
      rfl
    next => cases h

/-- An arc that waits `n` more times after one occurrence has left. -/
theorem countDown_of_getElem? {counts : Std.TreeMap Arc Nat Arc.compare} {arc : Arc} {n : Nat}
    (h : counts[arc]? = some (n + 1)) :
    countDown counts arc = if n = 0 then counts.erase arc else counts.insert arc n := by
  unfold countDown
  rw [h]
  show (if n + 1 ≤ 1 then _ else counts.insert arc n) = _
  by_cases hn : n = 0
  · rw [if_pos hn, if_pos (by omega)]
  · rw [if_neg hn, if_neg (by omega)]

/-- And that keeps the counts exact. -/
theorem Exact.of_pop? {q q' : ArcQueue} {arc : Arc} (h : q.Exact)
    (hpop : q.pop? = some (arc, q')) : q'.Exact := by
  have hlist := toList_of_pop? hpop
  have hcount : q.counts[arc]? = some (q'.toList.count arc + 1) := by
    rw [h arc, hlist, if_pos List.mem_cons_self, List.count_cons_self]
  intro other
  rw [counts_of_pop? hpop, countDown_of_getElem? hcount]
  by_cases hother : arc = other
  · subst hother
    by_cases hmem : arc ∈ q'.toList
    -- the arc waits again further back
    · have hpos := List.count_pos_iff.2 hmem
      rw [if_neg (by omega), Std.TreeMap.getElem?_insert_self, if_pos hmem]
    · rw [if_pos (List.count_eq_zero_of_not_mem hmem), Std.TreeMap.getElem?_erase_self,
        if_neg hmem]
  · have hne : Arc.compare arc other ≠ .eq := fun hc => hother (Arc.compare_eq_eq_iff.1 hc)
    have hkeep : q.counts[other]? =
        if other ∈ q'.toList then some (q'.toList.count other) else none := by
      rw [h other, hlist]
      simp [Ne.symm hother, hother]
    split
    · rw [Std.TreeMap.getElem?_erase, if_neg hne, hkeep]
    · rw [Std.TreeMap.getElem?_insert, if_neg hne, hkeep]

/-! ## §2. What waits after a push. -/

/-- After the push the arc waits, and so do the others. -/
theorem mem_toList_pushAgain {q : ArcQueue} {arc other : Arc} :
    other ∈ (q.pushAgain arc).toList ↔ other ∈ q.toList ∨ other = arc := by
  rw [toList_pushAgain, List.mem_append, List.mem_singleton]

/-- The same of a push that may find the arc waiting. -/
theorem mem_toList_push {q : ArcQueue} (h : q.Exact) {arc other : Arc} :
    other ∈ (q.push arc).toList ↔ other ∈ q.toList ∨ other = arc := by
  unfold push
  split
  next hcontains =>
    constructor
    · exact Or.inl
    · intro hor
      rcases hor with hmem | rfl
      · exact hmem
      · exact (h.contains_iff other).1 hcontains
  next => exact mem_toList_pushAgain

/-- A new member behind others repeats none of them. -/
theorem nodup_concat {waiting : List Arc} {arc : Arc} (h : waiting.Nodup) (hnew : arc ∉ waiting) :
    (waiting ++ [arc]).Nodup := by
  have hperm : (waiting ++ [arc]).Perm (arc :: waiting) := List.perm_append_singleton arc waiting
  exact hperm.nodup_iff.2 (List.nodup_cons.2 ⟨hnew, h⟩)

/-- A push lets no arc wait twice. -/
theorem nodup_push {q : ArcQueue} (h : q.Exact) (hnodup : q.toList.Nodup) (arc : Arc) :
    (q.push arc).toList.Nodup := by
  unfold push
  split
  next => exact hnodup
  next hcontains =>
    rw [toList_pushAgain]
    exact nodup_concat hnodup fun hmem => hcontains ((h.contains_iff arc).2 hmem)

/-- By induction on the pushed arcs: counts stay exact, these arcs wait, and none twice. -/
theorem foldl_push {q : ArcQueue} (h : q.Exact) (pushed : List Arc) :
    (pushed.foldl push q).Exact ∧
      (∀ other, other ∈ (pushed.foldl push q).toList ↔ other ∈ q.toList ∨ other ∈ pushed) ∧
      (q.toList.Nodup → (pushed.foldl push q).toList.Nodup) := by
  induction pushed generalizing q with
  | nil => exact ⟨h, fun other => by simp, id⟩
  | cons arc rest ih =>
    obtain ⟨hexact, hmem, hnodup⟩ := ih (h.push arc)
    refine ⟨hexact, fun other => ?_, fun hq => hnodup (nodup_push h hq arc)⟩
    rw [List.foldl_cons, hmem other, mem_toList_push h, List.mem_cons, or_assoc]

/-- After pushes for every member of a list, the queue is exact, what waits is what waited before
and what was pushed, and still no arc waits twice. -/
theorem foldl_pushes {α : Type} (arcs : α → List Arc) (l : List α) {q : ArcQueue} (h : q.Exact) :
    (l.foldl (fun q a => (arcs a).foldl push q) q).Exact ∧
      (∀ other, other ∈ (l.foldl (fun q a => (arcs a).foldl push q) q).toList ↔
        other ∈ q.toList ∨ ∃ a ∈ l, other ∈ arcs a) ∧
      (q.toList.Nodup → (l.foldl (fun q a => (arcs a).foldl push q) q).toList.Nodup) := by
  rw [← List.foldl_flatMap]
  simp only [← List.mem_flatMap]
  exact foldl_push h (l.flatMap arcs)

/-! ## §3. Queues between two propagations. -/

/-- The counts are exact, and no arc waits. -/
structure Idle (q : ArcQueue) : Prop where
  exact : q.Exact
  toList_eq : q.toList = []

/-- The empty queue is idle. -/
theorem idle_empty : Idle (∅ : ArcQueue) := ⟨exact_empty, toList_empty⟩

/-- A map without entries is the empty one. -/
theorem counts_eq_empty {counts : Std.TreeMap Arc Nat Arc.compare} (h : counts.isEmpty = true) :
    counts = ∅ := by
  obtain ⟨⟨impl, wf⟩⟩ := counts
  cases impl with
  | leaf => rfl
  | inner => cases h

/-- There is only one idle queue. -/
theorem Idle.eq_empty {q : ArcQueue} (h : q.Idle) : q = ∅ := by
  obtain ⟨hexact, hlist⟩ := h
  have hcounts : q.counts = ∅ := by
    refine counts_eq_empty (Std.TreeMap.isEmpty_iff_forall_contains.2 fun arc => ?_)
    rw [← Bool.not_eq_true]
    intro hcontains
    have hwaits := (hexact.contains_iff arc).1 hcontains
    rw [hlist] at hwaits
    cases hwaits
  obtain ⟨front, back, counts⟩ := q
  obtain ⟨hfront, hback⟩ := List.append_eq_nil_iff.1 hlist
  obtain rfl : front = [] := hfront
  obtain rfl : back = [] := List.reverse_eq_nil_iff.1 hback
  obtain rfl : counts = ∅ := hcounts
  rfl

/-- A queue with nothing to take out is idle. -/
theorem Exact.idle_of_pop? {q : ArcQueue} (h : q.Exact) (hpop : q.pop? = none) : q.Idle :=
  ⟨h, pop?_eq_none_iff.1 hpop⟩

end ConstraintNet.ArcQueue
