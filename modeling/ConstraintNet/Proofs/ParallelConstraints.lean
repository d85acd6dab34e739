/-
  ConstraintNet.Proofs.ParallelConstraints
  ────────────────────────────────────────
  **PARALLEL CONSTRAINTS AND THE FIXED POINT.**

  When no two constraints bind the same two variables (`Simple`), every pair
  is concordant and symmetric arc consistency reaches a fixed point.  When
  two do, they can be given tables for which it does not, whatever the rest
  of the network looks like.  `Twisted` says what such tables have to do:
  between `x` and `y`, with the values 0, 1 and 2 everywhere,

      one constraint  gives  0 of `x` nothing  and 1 of `x` only 1,
      another         gives  1 of `y` only 0 of `x`,

  and 2 goes with everything elsewhere.  The revision of `x` removes 0 and
  keeps 1, which needs 1 of `y`; that has lost its support with the 0, but
  when `y` is revised after `x`, the arc back to `x` does not wait again, and
  when `y` was revised before, the arc to `x` does not make it wait.

      `Twisted.keeps_one`                      — so 1 stays with `x`
      `establish_reaches_fixed_point_iff`      — the exact condition
-/
import Mathlib.Data.List.Pairwise
import Mathlib.Data.List.ProdSigma
import ConstraintNet.Proofs.FixedPoint
import ConstraintNet.Proofs.Coherence

namespace ConstraintNet

namespace Network

/-! ## §1. Networks without parallel constraints. -/

/-- No two constraints bind the same two variables. -/
def Simple (net : Network) : Prop :=
  net.constraints.toList.Pairwise fun c d => ¬ c.Joins d.first d.second

/-- The two networks have as many variables, and constraints between the same of them, stored in the
same order and direction. -/
structure SameGraph (net net' : Network) : Prop where
  size_eq : net'.size = net.size
  ends_eq : net'.constraints.toList.map (fun c => (c.first, c.second)) =
    net.constraints.toList.map fun c => (c.first, c.second)

/-- Whether constraints are parallel can be seen in the graph. -/
theorem SameGraph.simple {net net' : Network} (h : net.SameGraph net') (hsimple : net.Simple) :
    net'.Simple := by
  have hends : ∀ n : Network, n.Simple ↔
      (n.constraints.toList.map fun c => (c.first, c.second)).Pairwise
        fun e f => ¬ ((e.1 = f.1 ∧ e.2 = f.2) ∨ (e.2 = f.1 ∧ e.1 = f.2)) := by
    intro n
    rw [List.pairwise_map]
    rfl
  rw [hends, h.ends_eq, ← hends]
  exact hsimple

/-- A single constraint between two variables agrees with itself. -/
theorem Simple.concordant {net : Network} (h : net.Simple) (x y : VariableId) :
    net.Concordant x y := by
  intro c hc d hd hcxy hdxy a b hallows
  have : Std.Symm fun e f : Constraint => ¬ e.Joins f.first f.second :=
    ⟨fun e f hnot hjoins => hnot (e.joins_ends.joins_ends hjoins)⟩
  by_cases hcd : c = d
  · rw [← hcd]
    exact hallows
  · exact absurd (hcxy.joins_ends hdxy) (List.Pairwise.forall h hc hd hcd)

end Network

/-! ## §2. Tables that arc consistency gives up too early. -/

/-- Two of the constraints between `x` and `y` work against each other; all others allow the value 2
with everything. -/
structure Twisted (net : Network) (x y : VariableId) : Prop where
  bounds_eq : ∀ (u : VariableId) (b : Bounds), net.bounds[u]? = some b → b = ⟨0, 2⟩
  two : ∀ c ∈ net.constraints.toList, c.allows c.first 2 2 = true
  elsewhere : ∀ c ∈ net.constraints.toList, ¬ c.Joins x y → ∀ t u, c.Joins t u →
    ∀ a ∈ ([0, 1, 2] : List Value), c.allows t a 2 = true
  at_x : ∀ c ∈ net.constraints.toList, c.Joins x y → ∃ b ∈ ([1, 2] : List Value),
    c.allows x 1 b = true
  at_y : ∀ c ∈ net.constraints.toList, c.Joins x y → ∃ a ∈ ([0, 1] : List Value),
    c.allows y 1 a = true
  narrow : ∃ c ∈ net.constraints.toList, c.Joins x y ∧
    (∀ b, c.allows x 0 b = false) ∧ ∀ b, c.allows x 1 b = true → b = 1
  turned : ∃ c ∈ net.constraints.toList, c.Joins x y ∧ ∀ a, c.allows y 1 a = true → a = 0

namespace Twisted

variable {net : Network} {x y : VariableId}

/-- The two constraints join the variables, so these are adjacent. -/
theorem adjacent (h : Twisted net x y) : net.Adjacent x y := by
  obtain ⟨c, hc, hjoins, _⟩ := h.narrow
  exact ⟨c, hc, hjoins⟩

/-- As long as 1 is possible for `x`, the domains are not arc consistent. -/
theorem not_arcConsistent (h : Twisted net x y) {s : Session} (hone : 1 ∈ s.dom x) :
    ¬ net.ArcConsistent s := by
  intro hconsistent
  obtain ⟨c, hc, hcxy, hzero, honly⟩ := h.narrow
  obtain ⟨d, hd, hdxy, hturned⟩ := h.turned
  obtain ⟨b, hb, hallows⟩ := hconsistent c hc x y hcxy 1 hone
  rw [honly b hallows] at hb
  obtain ⟨a, ha, hallows⟩ := hconsistent d hd y x hdxy.symm 1 hb
  rw [hturned a hallows] at ha
  obtain ⟨b, _, hallows⟩ := hconsistent c hc x y hcxy 0 ha
  rw [hzero b] at hallows
  cases hallows

/-- What holds throughout a run: 2 is possible everywhere, 1 is for `x`, and while the arc from `x`
to `y` waits, so are the values that it needs for keeping the 1. -/
structure Holds (net : Network) (x y : VariableId) (queue : ArcQueue) (s : Session) : Prop where
  admits : s.Admits net fun _ => 2
  small : ∀ u, ∀ v ∈ s.dom u, v ∈ ([0, 1, 2] : List Value)
  one_mem : 1 ∈ s.dom x
  waiting : ⟨x, y⟩ ∈ queue.toList → 0 ∈ s.dom x ∧ 1 ∈ s.dom y

/-- Arcs of other pairs support everything. -/
theorem supported_elsewhere (h : Twisted net x y) {s : Session} (hadmits : s.Admits net fun _ => 2)
    {t u : VariableId} (hu : u < net.size) (hne : ¬ (t = x ∧ u = y)) (hne' : ¬ (t = y ∧ u = x))
    {a : Value} (ha : a ∈ ([0, 1, 2] : List Value)) : net.Supported t u a (s.dom u) := by
  intro c hc hjoins
  refine ⟨2, hadmits.2 u hu, h.elsewhere c hc ?_ t u hjoins a ha⟩
  intro hcxy
  rcases hjoins with ⟨rfl, rfl⟩ | ⟨rfl, rfl⟩
  · rcases hcxy with ⟨h₁, h₂⟩ | ⟨h₁, h₂⟩
    · exact hne ⟨h₁, h₂⟩
    · exact hne' ⟨h₂, h₁⟩
  · rcases hcxy with ⟨h₁, h₂⟩ | ⟨h₁, h₂⟩
    · exact hne' ⟨h₂, h₁⟩
    · exact hne ⟨h₁, h₂⟩

/-- While the arc to `y` waits, or is revised, it supports the 1 of `x`. -/
theorem supported_at_x (h : Twisted net x y) {s : Session} (hadmits : s.Admits net fun _ => 2)
    (hone : 1 ∈ s.dom y) : net.Supported x y 1 (s.dom y) := by
  intro c hc hjoins
  obtain ⟨b, hb, hallows⟩ := h.at_x c hc hjoins
  refine ⟨b, ?_, hallows⟩
  rcases List.mem_cons.1 hb with rfl | hb
  · exact hone
  · rw [List.mem_singleton.1 hb]
    exact hadmits.2 y h.adjacent.symm.lt_size

/-- As long as 0 is possible for `x`, the 1 of `y` has its support. -/
theorem supported_at_y (h : Twisted net x y) {s : Session} (hzero : 0 ∈ s.dom x)
    (hone : 1 ∈ s.dom x) : net.Supported y x 1 (s.dom x) := by
  intro c hc hjoins
  obtain ⟨a, ha, hallows⟩ := h.at_y c hc hjoins.symm
  refine ⟨a, ?_, hallows⟩
  rcases List.mem_cons.1 ha with rfl | ha
  · exact hzero
  · rw [List.mem_singleton.1 ha]
    exact hone

section Step

open ArcConsistency

variable {queue rest queue' : ArcQueue} {s s' : Session} {arc : Arc} {outcome : Revision}

/-- The revision of a waiting arc leaves the 1 to `x`. -/
theorem one_mem_of_revised (h : Twisted net x y) (hholds : Holds net x y queue s)
    (hrevised : Revised net s arc s') (hsupport : arc.support < net.size)
    (hwaits : arc ∈ queue.toList) : 1 ∈ s'.dom x := by
  refine hrevised.mem_dom hholds.one_mem ?_
  intro hx
  by_cases hy : arc.support = y
  · have hone : 1 ∈ s.dom y := by
      refine (hholds.waiting ?_).2
      rw [hx, ← hy]
      exact hwaits
    rw [hy]
    exact h.supported_at_x hholds.admits hone
  · exact h.supported_elsewhere hholds.admits hsupport (fun heq => hy heq.2)
      (fun heq => h.adjacent.ne heq.1) (by simp)

/-- The arc from `x` to `y` does not wait again: a third variable takes nothing from `y`, and for
the arc back the policy makes its exception. -/
theorem mem_rest_of_waits (h : Twisted net x y) (hholds : Holds net x y queue s)
    (hexact : rest.Exact) (hsupport : arc.support < net.size)
    (hrev : revise? net s arc = some (outcome, s'))
    (hnext : Continues net .symmetric rest arc outcome queue')
    (hwaits : ⟨x, y⟩ ∈ queue'.toList) : ⟨x, y⟩ ∈ rest.toList := by
  cases hnext with
  | unchanged => exact hwaits
  | pruned hreq =>
    rcases ((mem_requeue?_symmetric hexact hreq).2.1 _).1 hwaits with hold | hnew
    · exact hold
    · obtain ⟨hy, hne, _⟩ := hnew
      obtain ⟨v, hv, hlost⟩ := exists_lost_of_pruned hrev
      refine absurd ?_ hlost
      refine h.supported_elsewhere hholds.admits hsupport ?_ ?_ (hholds.small _ v hv)
      · intro heq
        exact h.adjacent.ne (heq.1.symm.trans hy.symm)
      · intro heq
        exact hne heq.2.symm

/-- The revision of any other arc keeps what the arc from `x` to `y` waits for. -/
theorem waiting_of_revised (h : Twisted net x y) (hholds : Holds net x y queue s)
    (hrevised : Revised net s arc s') (hsupport : arc.support < net.size) (hother : arc ≠ ⟨x, y⟩)
    (hwaits : ⟨x, y⟩ ∈ queue.toList) : 0 ∈ s'.dom x ∧ 1 ∈ s'.dom y := by
  obtain ⟨hzero, hone⟩ := hholds.waiting hwaits
  have hxy := h.adjacent.ne
  refine ⟨hrevised.mem_dom hzero ?_, hrevised.mem_dom hone ?_⟩
  · intro hx
    refine h.supported_elsewhere hholds.admits hsupport ?_ (fun heq => hxy heq.1) (by simp)
    intro heq
    exact hother (by rw [hx, ← heq.2])
  · intro _
    by_cases hx : arc.support = x
    · rw [hx]
      exact h.supported_at_y hzero hholds.one_mem
    · exact h.supported_elsewhere hholds.admits hsupport (fun heq => hxy heq.1.symm)
        (fun heq => hx heq.2) (by simp)

/-- One step of the loop keeps what holds throughout. -/
theorem holds_of_revised (h : Twisted net x y) (hholds : Holds net x y queue s)
    (hexact : rest.Exact) (hlist : queue.toList = arc :: rest.toList) (hnodup : queue.toList.Nodup)
    (hsupport : arc.support < net.size) (hrev : revise? net s arc = some (outcome, s'))
    (hnext : Continues net .symmetric rest arc outcome queue') : Holds net x y queue' s' := by
  have hrevised := (revised_of_revise? hrev).1
  have hwaits : arc ∈ queue.toList := hlist ▸ List.mem_cons_self
  refine ⟨hrevised.admits_of_admits hsupport hholds.admits,
    fun u v hv => hholds.small u v (hrevised.narrows.subset u v hv),
    h.one_mem_of_revised hholds hrevised hsupport hwaits, ?_⟩
  intro hagain
  have hrest := h.mem_rest_of_waits hholds hexact hsupport hrev hnext hagain
  have hother : arc ≠ ⟨x, y⟩ := by
    intro heq
    rw [hlist, List.nodup_cons, heq] at hnodup
    exact hnodup.1 hrest
  exact h.waiting_of_revised hholds hrevised hsupport hother
    (hlist ▸ List.mem_cons_of_mem arc hrest)

end Step

open ArcConsistency in
/-- **A run ends well and leaves the 1 to `x`.** -/
theorem keeps_one (h : Twisted net x y) {queue : ArcQueue} {s : Session} {result : Propagated}
    (hrun : Drains net .symmetric queue s result) (hexact : queue.Exact)
    (hrange : InRange net queue) (hnodup : queue.toList.Nodup) (hholds : Holds net x y queue s) :
    result.consistent = true ∧ 1 ∈ result.session.dom x := by
  induction hrun with
  | idle _ => exact ⟨rfl, hholds.one_mem⟩
  | wipedOut hpop hrev =>
    obtain ⟨harc, _⟩ := inRange_of_pop? hrange hpop
    obtain ⟨hrevised, hempty, _⟩ := revised_of_revise? hrev
    have hadmits := hrevised.admits_of_admits harc.2 hholds.admits
    exact absurd (hadmits.2 _ harc.1) (hempty.1 rfl 2)
  | revised hpop hrev hnext _ ih =>
    obtain ⟨harc, hrest⟩ := inRange_of_pop? hrange hpop
    have hlist := ArcQueue.toList_of_pop? hpop
    have hexact' := hexact.of_pop? hpop
    refine ih (hnext.requeued hexact').exact (hnext.inRange hexact' hrest) ?_
      (h.holds_of_revised hholds hexact' hlist hnodup harc.2 hrev hnext)
    rw [hlist, List.nodup_cons] at hnodup
    cases hnext with
    | unchanged => exact hnodup.2
    | pruned hreq => exact (mem_requeue?_symmetric hexact' hreq).2.2 hnodup.2

/-- At the start all three values are possible everywhere. -/
theorem mem_dom_start (h : Twisted net x y) {u : VariableId} (hu : u < net.size) (v : Value) :
    v ∈ (Session.start net).dom u ↔ v ∈ ([0, 1, 2] : List Value) := by
  have hb : net.bounds[u]? = some net.bounds[u] := Array.getElem?_eq_getElem hu
  have hrange : Value.range 0 2 = [0, 1, 2] := by decide
  rw [net.mem_dom_start hb, h.bounds_eq u _ hb, ← hrange, Value.mem_range]

open ArcConsistency in
/-- Full arc consistency of a fresh session ends well, and not with arc consistent domains. -/
theorem exists_establish? (h : Twisted net x y) :
    ∃ result, establish? net .symmetric ∅ (Session.start net) = some result ∧
      result.consistent = true ∧ ¬ net.ArcConsistent result.session := by
  have hsize := (coherent_start net).size_domains
  obtain ⟨hexact, _, hnodup⟩ := mem_seedAll net ArcQueue.exact_empty
  have hidle := ArcQueue.idle_empty
  have hrange : InRange net (seedAll net ∅) :=
    inRange_seedAll hidle.exact (inRange_of_idle hidle)
  have hholds : Holds net x y (seedAll net ∅) (Session.start net) := by
    refine ⟨⟨fun c hc => h.two c hc, fun u hu => (h.mem_dom_start hu 2).2 (by simp)⟩, ?_,
      (h.mem_dom_start h.adjacent.lt_size 1).2 (by simp), ?_⟩
    · intro u v hv
      exact (h.mem_dom_start (hsize ▸ Session.lt_size_of_mem_dom hv) v).1 hv
    · intro _
      exact ⟨(h.mem_dom_start h.adjacent.lt_size 0).2 (by simp),
        (h.mem_dom_start h.adjacent.symm.lt_size 1).2 (by simp)⟩
  obtain ⟨result, hresult, _, _⟩ := ArcConsistency.exists_establish? net .symmetric hidle hsize
  obtain ⟨htrue, hone⟩ := h.keeps_one (drains_of_drain? hresult) hexact hrange
    (hnodup (by rw [hidle.toList_eq]; exact List.nodup_nil)) hholds
  exact ⟨result, hresult, htrue, h.not_arcConsistent hone⟩

end Twisted

/-! ## §3. Such tables fit wherever two constraints are parallel. -/

namespace Constraint

/-- The constraint with another table, which is given from `x` if that is one of its ends. -/
def retable (c : Constraint) (x : VariableId) (pairs : List (Value × Value)) : Constraint :=
  .ofTuples c.first c.second (if c.first = x then pairs else pairs.map Prod.swap)

/-- Asked from `x`, a constraint with a new table allows the new pairs. -/
theorem allows_retable {c : Constraint} {x y : VariableId} (hne : c.first ≠ c.second)
    (hjoins : c.Joins x y) (pairs : List (Value × Value)) (a b : Value) :
    (c.retable x pairs).allows x a b = true ↔ (a, b) ∈ pairs := by
  unfold retable
  rcases hjoins with ⟨rfl, rfl⟩ | ⟨rfl, rfl⟩
  · rw [if_pos rfl]
    exact (allows_first (.ofTuples _ _ pairs) a b).trans (mem_tuples_ofTuples _ _ pairs _)
  · rw [if_neg hne]
    refine (allows_second (.ofTuples _ _ (pairs.map Prod.swap)) hne _ _).trans ?_
    rw [mem_tuples_ofTuples, List.mem_map]
    simp

/-- Asked from the other end, it allows the new pairs turned round. -/
theorem allows_retable_other {c : Constraint} {x y : VariableId} (hne : c.first ≠ c.second)
    (hjoins : c.Joins x y) (pairs : List (Value × Value)) (a b : Value) :
    (c.retable x pairs).allows y b a = true ↔ (a, b) ∈ pairs := by
  have hjoins' : (c.retable x pairs).Joins x y := hjoins
  have hne' : (c.retable x pairs).first ≠ (c.retable x pairs).second := hne
  rw [← allows_comm hne' hjoins', allows_retable hne hjoins]

/-- A table that has a pair in both directions allows it at either end. -/
theorem allows_retable_of_symmetric {c : Constraint} (hne : c.first ≠ c.second) (x : VariableId)
    {pairs : List (Value × Value)} {a b : Value} (hab : (a, b) ∈ pairs) (hba : (b, a) ∈ pairs)
    {t u : VariableId} (hjoins : c.Joins t u) : (c.retable x pairs).allows t a b = true := by
  have hboth : ∀ p ∈ [(a, b), (b, a)],
      p ∈ if c.first = x then pairs else pairs.map Prod.swap := by
    intro p hp
    rcases List.mem_cons.1 hp with rfl | hp
    · split
      · exact hab
      · exact List.mem_map.2 ⟨(b, a), hba, rfl⟩
    · rw [List.mem_singleton.1 hp]
      split
      · exact hba
      · exact List.mem_map.2 ⟨(a, b), hab, rfl⟩
  unfold retable
  rcases hjoins with ⟨rfl, rfl⟩ | ⟨rfl, rfl⟩
  · exact (allows_first (.ofTuples _ _ _) a b).2
      ((mem_tuples_ofTuples _ _ _ _).2 (hboth _ List.mem_cons_self))
  · exact (allows_second (.ofTuples _ _ _) hne b a).2
      ((mem_tuples_ofTuples _ _ _ _).2 (hboth _ (List.mem_cons_of_mem _ List.mem_cons_self)))

end Constraint

namespace Network

/-- The network with the same graph, the values 0, 1 and 2 everywhere, and other tables. -/
def retable (net : Network) (x : VariableId) (pairs : ConstraintId → List (Value × Value)) :
    Network where
  bounds := Array.replicate net.size ⟨0, 2⟩
  constraints := (net.constraints.toList.mapIdx fun id c => c.retable x (pairs id)).toArray
  links := linksOf net.size (net.constraints.toList.mapIdx fun id c => c.retable x (pairs id))
  bounds_nonempty := by
    intro b hb
    rw [Array.toList_replicate] at hb
    rw [List.eq_of_mem_replicate hb]
    decide
  endpoints_known := by
    intro c hc
    obtain ⟨id, hid, rfl⟩ := List.mem_mapIdx.1 hc
    rw [Array.size_replicate]
    exact net.endpoints_known net.constraints.toList[id] (List.getElem_mem hid)
  links_eq := by rw [Array.size_replicate]

/-- New tables leave the graph as it is. -/
theorem sameGraph_retable (net : Network) (x : VariableId)
    (pairs : ConstraintId → List (Value × Value)) : net.SameGraph (net.retable x pairs) := by
  refine ⟨Array.size_replicate, ?_⟩
  apply List.ext_getElem?
  intro id
  show (((net.constraints.toList.mapIdx _).toArray.toList).map _)[id]? = _
  rw [List.toList_toArray, List.getElem?_map, List.getElem?_mapIdx, List.getElem?_map,
    Option.map_map]
  rfl

/-- All variables get the values 0, 1 and 2. -/
theorem bounds_retable {net : Network} {x u : VariableId}
    {pairs : ConstraintId → List (Value × Value)} {b : Bounds}
    (h : (net.retable x pairs).bounds[u]? = some b) : b = ⟨0, 2⟩ := by
  change (Array.replicate net.size (⟨0, 2⟩ : Bounds))[u]? = some b at h
  rw [Array.getElem?_replicate] at h
  split at h
  · exact (Option.some.inj h).symm
  · cases h

/-- The constraints are the old ones with their new tables. -/
theorem mem_retable {net : Network} {x : VariableId} {pairs : ConstraintId → List (Value × Value)}
    {c' : Constraint} : c' ∈ (net.retable x pairs).constraints.toList ↔
      ∃ (id : ConstraintId) (c : Constraint), net.constraints.toList[id]? = some c ∧
        c' = c.retable x (pairs id) := by
  show c' ∈ net.constraints.toList.mapIdx _ ↔ _
  rw [List.mem_mapIdx]
  constructor
  · intro h
    obtain ⟨id, hid, heq⟩ := h
    exact ⟨id, _, List.getElem?_eq_getElem hid, heq.symm⟩
  · intro h
    obtain ⟨id, c, hc, heq⟩ := h
    obtain ⟨hid, rfl⟩ := List.getElem?_eq_some_iff.1 hc
    exact ⟨id, hid, heq.symm⟩

end Network

/-- The tables of two constraints that work against each other, and of all others. -/
def twistedPairs (i j id : ConstraintId) : List (Value × Value) :=
  if id = i then [(1, 1), (2, 2)]
  else if id = j then [(0, 1), (1, 2), (2, 2)]
  else ([0, 1, 2] : List Value).product [0, 1, 2]

/-- The first of the two constraints leaves 0 of `x` nothing, and 1 only 1. -/
theorem twistedPairs_first (i j : ConstraintId) : twistedPairs i j i = [(1, 1), (2, 2)] :=
  if_pos rfl

/-- The second one leaves 1 of `y` only 0. -/
theorem twistedPairs_second {i j : ConstraintId} (hij : i ≠ j) :
    twistedPairs i j j = [(0, 1), (1, 2), (2, 2)] := by
  unfold twistedPairs
  rw [if_neg hij.symm, if_pos rfl]

/-- All others allow every pair. -/
theorem twistedPairs_of_ne {i j id : ConstraintId} (hi : id ≠ i) (hj : id ≠ j) :
    twistedPairs i j id = ([0, 1, 2] : List Value).product [0, 1, 2] := by
  unfold twistedPairs
  rw [if_neg hi, if_neg hj]

/-- The value 2 goes with itself everywhere. -/
theorem two_mem_twistedPairs (i j id : ConstraintId) : (2, 2) ∈ twistedPairs i j id := by
  unfold twistedPairs
  split
  · decide
  · split
    · decide
    · decide

/-- In every table the value 1 of `x` goes with 1 or 2. -/
theorem twistedPairs_at_x (i j id : ConstraintId) :
    ∃ b ∈ ([1, 2] : List Value), (1, b) ∈ twistedPairs i j id := by
  unfold twistedPairs
  split
  · exact ⟨1, by decide, by decide⟩
  · split
    · exact ⟨2, by decide, by decide⟩
    · exact ⟨1, by decide, by decide⟩

/-- In every table the value 1 of `y` goes with 0 or 1. -/
theorem twistedPairs_at_y (i j id : ConstraintId) :
    ∃ a ∈ ([0, 1] : List Value), (a, 1) ∈ twistedPairs i j id := by
  unfold twistedPairs
  split
  · exact ⟨1, by decide, by decide⟩
  · split
    · exact ⟨0, by decide, by decide⟩
    · exact ⟨0, by decide, by decide⟩

/-- A constraint between other variables than `x` and `y` is none of the two, and allows 2 with
everything. -/
theorem elsewhere_retable {net : Network} {i j : ConstraintId} {c d e : Constraint}
    {x y : VariableId} (hc : net.constraints.toList[i]? = some c)
    (hd : net.constraints.toList[j]? = some d) (hcxy : c.Joins x y) (hdxy : d.Joins x y)
    {id : ConstraintId} (he : net.constraints.toList[id]? = some e) (hnot : ¬ e.Joins x y)
    {t u : VariableId} (htu : e.Joins t u) {a : Value} (ha : a ∈ ([0, 1, 2] : List Value)) :
    (e.retable x (twistedPairs i j id)).allows t a 2 = true := by
  have hidi : id ≠ i := by
    intro heq
    rw [heq, hc] at he
    exact hnot (Option.some.inj he ▸ hcxy)
  have hidj : id ≠ j := by
    intro heq
    rw [heq, hd] at he
    exact hnot (Option.some.inj he ▸ hdxy)
  rw [twistedPairs_of_ne hidi hidj]
  exact Constraint.allows_retable_of_symmetric (net.ends_ne (List.mem_of_getElem? he)) x
    (List.pair_mem_product.2 ⟨ha, by decide⟩) (List.pair_mem_product.2 ⟨by decide, ha⟩) htu

/-- **Two constraints on one pair can be given such tables**, whatever the network looks like
elsewhere. -/
theorem twisted_retable {net : Network} {i j : ConstraintId} {c d : Constraint} {x y : VariableId}
    (hc : net.constraints.toList[i]? = some c) (hd : net.constraints.toList[j]? = some d)
    (hij : i ≠ j) (hcxy : c.Joins x y) (hdxy : d.Joins x y) :
    Twisted (net.retable x (twistedPairs i j)) x y := by
  have hends := fun {e : Constraint} {id : ConstraintId}
    (he : net.constraints.toList[id]? = some e) => net.ends_ne (List.mem_of_getElem? he)
  -- one obligation for each of the things that twisted tables have to do
  refine ⟨fun _ _ hb => Network.bounds_retable hb, ?_, ?_, ?_, ?_, ?_, ?_⟩
  · intro e' he'
    obtain ⟨id, e, he, rfl⟩ := Network.mem_retable.1 he'
    have htwo := two_mem_twistedPairs i j id
    exact Constraint.allows_retable_of_symmetric (hends he) _ htwo htwo e.joins_ends
  · intro e' he' hnot t u htu a ha
    obtain ⟨id, e, he, rfl⟩ := Network.mem_retable.1 he'
    exact elsewhere_retable hc hd hcxy hdxy he hnot htu ha
  · intro e' he' hxy
    obtain ⟨id, e, he, rfl⟩ := Network.mem_retable.1 he'
    obtain ⟨b, hb, hmem⟩ := twistedPairs_at_x i j id
    exact ⟨b, hb, (Constraint.allows_retable (hends he) hxy _ 1 b).2 hmem⟩
  · intro e' he' hxy
    obtain ⟨id, e, he, rfl⟩ := Network.mem_retable.1 he'
    obtain ⟨a, ha, hmem⟩ := twistedPairs_at_y i j id
    exact ⟨a, ha, (Constraint.allows_retable_other (hends he) hxy _ a 1).2 hmem⟩
  · refine ⟨_, Network.mem_retable.2 ⟨i, c, hc, rfl⟩, hcxy, ?_, ?_⟩
    · intro b
      rw [← Bool.not_eq_true, Constraint.allows_retable (hends hc) hcxy, twistedPairs_first]
      simp
    · intro b hallows
      rw [Constraint.allows_retable (hends hc) hcxy, twistedPairs_first] at hallows
      simpa using hallows
  · refine ⟨_, Network.mem_retable.2 ⟨j, d, hd, rfl⟩, hdxy, ?_⟩
    intro a hallows
    rw [Constraint.allows_retable_other (hends hd) hdxy, twistedPairs_second hij] at hallows
    simpa using hallows

/-- **A network with parallel constraints can be given tables that are twisted.** -/
theorem exists_twisted {net : Network} (h : ¬ net.Simple) :
    ∃ net' x y, net.SameGraph net' ∧ Twisted net' x y := by
  unfold Network.Simple at h
  rw [List.pairwise_iff_getElem] at h
  push Not at h
  obtain ⟨i, j, hi, hj, hij, hparallel⟩ := h
  have hjoins := (Constraint.joins_ends _).joins_ends hparallel
  exact ⟨_, _, _, net.sameGraph_retable _ _, twisted_retable (List.getElem?_eq_getElem hi)
    (List.getElem?_eq_getElem hj) (Nat.ne_of_lt hij) (Constraint.joins_ends _) hjoins⟩

/-! ## §4. The exact condition. -/

namespace ArcConsistency

/-- Full symmetric arc consistency answers and, if it ends well, it has reached a fixed point: the
domains are arc consistent, and another run would end well and change none of them. -/
def ReachesFixedPoint (net : Network) (queue : ArcQueue) (s : Session) : Prop :=
  ∃ result, establish? net .symmetric queue s = some result ∧
    (result.consistent = true → net.ArcConsistent result.session ∧ Rests net .symmetric result)

/-- Without parallel constraints every pair is concordant, and the fixed point is reached. -/
theorem reachesFixedPoint_of_simple {net : Network} (h : net.Simple) {queue : ArcQueue}
    {s : Session} (hqueue : queue.Idle) (hsize : s.domains.size = net.size) :
    ReachesFixedPoint net queue s := by
  obtain ⟨result, hresult, _, _⟩ := exists_establish? net .symmetric hqueue hsize
  refine ⟨result, hresult, ?_⟩
  intro htrue
  have hconsistent : net.ArcConsistent result.session := by
    rw [Network.arcConsistent_iff]
    intro x y hxy
    exact (settled_of_establish? hqueue hresult htrue hxy).supported (h.concordant x y)
  exact ⟨hconsistent, (arcConsistent_iff_rests hqueue hsize hresult htrue).1 hconsistent⟩

/-- **The fixed point and parallel constraints.** From an idle queue, symmetric arc consistency
reaches a fixed point for all ranges, tables and sessions that a graph of constraints may carry,
exactly when no two constraints of the graph bind the same two variables. -/
theorem establish_reaches_fixed_point_iff (net : Network) :
    (∀ net', net.SameGraph net' → ∀ (queue : ArcQueue) (s : Session), queue.Idle →
      s.domains.size = net'.size → ReachesFixedPoint net' queue s) ↔ net.Simple := by
  constructor
  · intro hall
    by_contra hsimple
    obtain ⟨net', x, y, hgraph, htwisted⟩ := exists_twisted hsimple
    obtain ⟨result, hresult, htrue, hnot⟩ := htwisted.exists_establish?
    obtain ⟨result', hresult', hfixed⟩ := hall net' hgraph ∅ (Session.start net')
      ArcQueue.idle_empty (coherent_start net').size_domains
    obtain rfl := Option.some.inj (hresult.symm.trans hresult')
    exact hnot (hfixed htrue).1
  · intro hsimple net' hgraph queue s hqueue hsize
    exact reachesFixedPoint_of_simple (hgraph.simple hsimple) hqueue hsize

/-- Two variables with the values 0, 1 and 2 and two constraints from the first to the second. -/
def crossed : Network where
  bounds := #[⟨0, 2⟩, ⟨0, 2⟩]
  constraints := #[.ofTuples 0 1 [(1, 1), (2, 2)], .ofTuples 0 1 [(0, 1), (1, 2), (2, 2)]]
  links := linksOf 2 [.ofTuples 0 1 [(1, 1), (2, 2)], .ofTuples 0 1 [(0, 1), (1, 2), (2, 2)]]
  bounds_nonempty := by decide
  endpoints_known := by simp [Constraint.ofTuples]
  links_eq := rfl

/-- Full arc consistency leaves 1 and 2 to the first variable of `crossed`, and 2 to the second; the
1 has no support under the first constraint, and another run takes it away. -/
theorem crossed_misses_fixed_point :
    ∃ result, establish? crossed .symmetric ∅ (Session.start crossed) = some result ∧
      result.consistent = true ∧ (result.session.dom 0).values = [1, 2] ∧
      (result.session.dom 1).values = [2] ∧ ¬ crossed.ArcConsistent result.session ∧
      ¬ Rests crossed .symmetric result := by
  -- the pass itself, by evaluation
  have hrun : ((establish? crossed .symmetric ∅ (Session.start crossed)).map fun result =>
      (result.consistent, (result.session.dom 0).values, (result.session.dom 1).values)) =
      some (true, [1, 2], [2]) := by decide +kernel
  obtain ⟨result, hresult, heq⟩ := Option.map_eq_some_iff.1 hrun
  simp only [Prod.mk.injEq] at heq
  obtain ⟨htrue, hzero, hone⟩ := heq
  -- the 1 that is left of variable 0 needs a 1 of variable 1
  have hnot : ¬ crossed.ArcConsistent result.session := by
    intro hconsistent
    have hmem : (1 : Value) ∈ result.session.dom 0 := by
      rw [← Domain.mem_values, hzero]
      decide
    obtain ⟨b, hb, hallows⟩ := hconsistent (.ofTuples 0 1 [(1, 1), (2, 2)]) List.mem_cons_self 0 1
      (Or.inl ⟨rfl, rfl⟩) 1 hmem
    rw [← Domain.mem_values, hone, List.mem_singleton] at hb
    rw [hb] at hallows
    exact absurd hallows (by decide)
  refine ⟨result, hresult, htrue, hzero, hone, hnot, ?_⟩
  intro hrests
  exact hnot ((arcConsistent_iff_rests ArcQueue.idle_empty (coherent_start crossed).size_domains
    hresult htrue).2 hrests)

end ArcConsistency

end ConstraintNet
