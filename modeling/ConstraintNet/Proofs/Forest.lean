/-
  ConstraintNet.Proofs.Forest
  ───────────────────────────
  **ARC CONSISTENT DOMAINS OF A FOREST.**

  The constraint graph of a network has an edge for each pair of variables
  that a constraint joins.  Where it is a forest, arc consistency leaves no
  value in vain: each is part of a solution.

  Such a solution starts from one variable in each tree, the value in
  question being one of the starts.  Every other variable is reached from
  the start of its tree on a single path, along which each variable passes
  its value on to the next: that takes a support of it (`passOn`).  Two
  variables that a constraint joins are neighbours on the path of one of
  them, so the value of the one is a support of that of the other.

      `Network.ReachesBy.compatible`  — so every constraint is satisfied
      `Network.Forest.exists_admits`  — and every value is in a solution
-/
import Mathlib.Combinatorics.SimpleGraph.Acyclic
import ConstraintNet.Proofs.Confluence

namespace ConstraintNet

namespace Network

open SimpleGraph

/-! ## §1. The constraint graph. -/

/-- The variables of the network, with an edge between two that a constraint joins. -/
def constraintGraph (net : Network) : SimpleGraph (Fin net.size) where
  Adj x y := net.Adjacent x y
  symm := ⟨fun _ _ h => h.symm⟩
  loopless := ⟨fun _ h => h.ne rfl⟩

/-- The constraint graph has no cycle, and no two constraints bind the same two variables. -/
structure Forest (net : Network) : Prop where
  simple : net.Simple
  acyclic : net.constraintGraph.IsAcyclic

/-- A graph has no cycle when every variable has at most one smaller neighbour. -/
theorem isAcyclic_of_smaller_unique {n : Nat} {G : SimpleGraph (Fin n)}
    (h : ∀ x y z, G.Adj x y → G.Adj x z → y < x → z < x → y = z) : G.IsAcyclic := by
  intro v cycle hcycle
  obtain ⟨x, hx, hgreatest⟩ :=
    cycle.support.toFinset.exists_max_image id ⟨v, List.mem_toFinset.2 cycle.start_mem_support⟩
  rw [List.mem_toFinset] at hx
  -- the greatest variable of the cycle has two neighbours on it
  have hrotated := hcycle.rotate hx
  have hsmaller : ∀ y ∈ (cycle.rotate x hx).support, G.Adj x y → y < x := by
    intro y hy hadjacent
    rw [Walk.mem_support_rotate_iff] at hy
    exact lt_of_le_of_ne (hgreatest y (List.mem_toFinset.2 hy)) hadjacent.ne.symm
  have hsnd := (cycle.rotate x hx).adj_snd hrotated.not_nil
  have hlast := ((cycle.rotate x hx).adj_penultimate hrotated.not_nil).symm
  exact hrotated.snd_ne_penultimate (h x _ _ hsnd hlast
    (hsmaller _ (Walk.getVert_mem_support _ _) hsnd)
    (hsmaller _ (Walk.getVert_mem_support _ _) hlast))

/-! ## §2. Values passed on along a path. -/

variable {net : Network} {D : VariableId → Domain} {x y z r : Fin net.size} {a b c : Value}

/-- Between concordant variables, one support serves all constraints. -/
theorem Supported.exists_compatible {u w : VariableId} {candidates : Domain}
    (h : net.Supported u w a candidates) (hconcordant : net.Concordant u w)
    (hadjacent : net.Adjacent u w) : ∃ b ∈ candidates, net.Compatible u w a b := by
  obtain ⟨c, hc, hjoins⟩ := hadjacent
  obtain ⟨b, hb, hallows⟩ := h c hc hjoins
  exact ⟨b, hb, fun d hd hjoins' => hconcordant c hc d hd hjoins hjoins' a b hallows⟩

/-- A value of `y` in `D` that goes with the value `a` of `x`, if there is one. -/
noncomputable def partner (net : Network) (D : VariableId → Domain) (x y : VariableId)
    (a : Value) : Value :=
  Classical.epsilon fun b => b ∈ D y ∧ net.Compatible x y a b

/-- A value that is supported has a partner at the other end. -/
theorem partner_spec (hD : net.AllSupported D) (hconcordant : ∀ u w, net.Concordant u w)
    (hadjacent : net.constraintGraph.Adj x y) (ha : a ∈ D x) :
    net.partner D x y a ∈ D y ∧ net.Compatible x y a (net.partner D x y a) := by
  obtain ⟨b, hb, hcompatible⟩ := (hD x y a ha).exists_compatible (hconcordant x y) hadjacent
  exact Classical.epsilon_spec (p := fun b => b ∈ D y ∧ net.Compatible x y a b)
    ⟨b, hb, hcompatible⟩

/-- The value at the end of a walk, when `a` is the value at its start and each variable takes a
partner of the value before it. -/
noncomputable def passOn (D : VariableId → Domain) {x y : Fin net.size} :
    net.constraintGraph.Walk x y → Value → Value
  | .nil, a => a
  | .cons (v := z) _ walk, a => passOn D walk (net.partner D x z a)

theorem passOn_concat (walk : net.constraintGraph.Walk x y) (h : net.constraintGraph.Adj y z) :
    passOn D (walk.concat h) a = net.partner D y z (passOn D walk a) := by
  induction walk generalizing a with
  | nil => rfl
  | cons _ _ ih => exact ih h

/-- Handed on along a walk, a value becomes one that the last variable has. -/
theorem passOn_mem (hD : net.AllSupported D) (hconcordant : ∀ u w, net.Concordant u w)
    (walk : net.constraintGraph.Walk x y) (ha : a ∈ D x) : passOn D walk a ∈ D y := by
  induction walk generalizing a with
  | nil => exact ha
  | cons hadjacent _ ih => exact ih (partner_spec hD hconcordant hadjacent ha).1

/-- On the paths from `r`, on which `a` is passed on, the variable `y` is reached with the value
`b`. -/
def ReachesBy (D : VariableId → Domain) (r : Fin net.size) (a : Value) (y : Fin net.size)
    (b : Value) : Prop :=
  ∃ walk : net.constraintGraph.Walk r y, walk.IsPath ∧ passOn D walk a = b

/-- So what is reached from a value of the root belongs to the domain of its variable. -/
theorem ReachesBy.mem (h : ReachesBy D r a y b) (hconcordant : ∀ u w, net.Concordant u w)
    (hD : net.AllSupported D) (ha : a ∈ D r) : b ∈ D y := by
  obtain ⟨walk, _, rfl⟩ := h
  exact passOn_mem hD hconcordant walk ha

/-- The path from a variable to itself is empty. -/
theorem ReachesBy.eq_start (h : ReachesBy D r a r b) : b = a := by
  obtain ⟨walk, hpath, rfl⟩ := h
  rw [(Walk.isPath_iff_nil.1 hpath).eq_nil]
  rfl

/-- **Neighbours that are reached from the same start have values that go together.** -/
theorem ReachesBy.compatible (hforest : net.Forest) (hD : net.AllSupported D) (ha : a ∈ D r)
    (hb : ReachesBy D r a y b) (hc : ReachesBy D r a z c)
    (hadjacent : net.constraintGraph.Adj y z) : net.Compatible y z b c := by
  have hconcordant := hforest.simple.concordant
  obtain ⟨p, hp, rfl⟩ := hb
  obtain ⟨q, hq, rfl⟩ := hc
  -- one of the two paths goes on where the other ends
  by_cases hy : y ∈ q.support
  · rw [hforest.acyclic.path_concat hp hq hadjacent hy, passOn_concat]
    exact (partner_spec hD hconcordant hadjacent (passOn_mem hD hconcordant p ha)).2
  · have hz := hforest.acyclic.mem_support_of_ne_mem_support_of_adj_of_isPath hp hq hadjacent hy
    rw [hforest.acyclic.path_concat hq hp hadjacent.symm hz, passOn_concat]
    exact (partner_spec hD hconcordant hadjacent.symm (passOn_mem hD hconcordant q ha)).2.symm

/-! ## §3. Solutions. -/

/-- Values of neighbours that go together make a solution. -/
theorem admits_of_compatible {s : Session} {f : Fin net.size → Value}
    (hmem : ∀ y : Fin net.size, f y ∈ s.dom y)
    (hcompatible : ∀ y z, net.constraintGraph.Adj y z → net.Compatible y z (f y) (f z)) :
    s.Admits net fun y => if hy : y < net.size then f ⟨y, hy⟩ else 0 := by
  constructor
  · intro c hc
    obtain ⟨hfirst, hsecond, _⟩ := net.endpoints_known c hc
    change c.first < net.size at hfirst
    change c.second < net.size at hsecond
    show c.allows c.first (if hy : c.first < net.size then _ else 0)
      (if hy : c.second < net.size then _ else 0) = true
    rw [dif_pos hfirst, dif_pos hsecond]
    exact hcompatible ⟨c.first, hfirst⟩ ⟨c.second, hsecond⟩ ⟨c, hc, c.joins_ends⟩ c hc c.joins_ends
  · intro y hy
    show (if hy : y < net.size then _ else 0) ∈ s.dom y
    rw [dif_pos hy]
    exact hmem ⟨y, hy⟩

/-- Each tree has a variable from which all its variables are reached, and `x` is one of these. -/
theorem exists_root (net : Network) (x : Fin net.size) :
    ∃ root : Fin net.size → Fin net.size, root x = x ∧
      (∀ y, net.constraintGraph.Reachable (root y) y) ∧
      ∀ y z, net.constraintGraph.Adj y z → root y = root z := by
  classical
  choose start hstart using fun c : net.constraintGraph.ConnectedComponent => c.exists_rep
  refine ⟨fun y => if net.constraintGraph.Reachable x y then x
    else start (net.constraintGraph.connectedComponentMk y), if_pos (.refl x), ?_, ?_⟩
  · intro y
    by_cases hy : net.constraintGraph.Reachable x y
    · simp only [if_pos hy]
      exact hy
    · simp only [if_neg hy]
      exact ConnectedComponent.exact (hstart _)
  · intro y z hadjacent
    have hsame : net.constraintGraph.Reachable x y ↔ net.constraintGraph.Reachable x z :=
      ⟨fun h => h.trans hadjacent.reachable, fun h => h.trans hadjacent.symm.reachable⟩
    simp only [hsame, ConnectedComponent.eq.2 hadjacent.reachable]

/-- **In a forest, every value of arc consistent domains is part of a solution**, if no domain is
empty. -/
theorem Forest.exists_admits (hforest : net.Forest) {s : Session} (hs : net.AllSupported s.dom)
    (hnonempty : s.Nonempty net) {u : VariableId} (hu : u < net.size) {v : Value}
    (hv : v ∈ s.dom u) : ∃ f, s.Admits net f ∧ f u = v := by
  obtain ⟨root, hroot, hreachable, hsame⟩ := net.exists_root ⟨u, hu⟩
  -- every root gets a value, and the given variable the given one
  have hvalues : ∀ r : Fin net.size, ∃ a ∈ s.dom r, r = ⟨u, hu⟩ → a = v := by
    intro r
    by_cases hr : r = ⟨u, hu⟩
    · exact ⟨v, hr ▸ hv, fun _ => rfl⟩
    · obtain ⟨a, ha⟩ := hnonempty r r.isLt
      exact ⟨a, ha, fun h => absurd h hr⟩
  choose value hvalue hgiven using hvalues
  -- each variable then has the value that its root hands on to it
  have hreached : ∀ y : Fin net.size, ∃ b, ReachesBy s.dom (root y) (value (root y)) y b := by
    intro y
    obtain ⟨walk, hpath⟩ := (hreachable y).exists_isPath
    exact ⟨_, walk, hpath, rfl⟩
  choose f hf using hreached
  refine ⟨_, admits_of_compatible (f := f) ?_ ?_, ?_⟩
  · intro y
    exact (hf y).mem hforest.simple.concordant hs (hvalue (root y))
  · intro y z hadjacent
    have hz := hf z
    rw [← hsame y z hadjacent] at hz
    exact (hf y).compatible hforest hs (hvalue (root y)) hz hadjacent
  · have hself := hf ⟨u, hu⟩
    rw [hroot] at hself
    show (if hy : u < net.size then _ else 0) = v
    rw [dif_pos hu, hself.eq_start]
    exact hgiven _ rfl

end Network

end ConstraintNet
