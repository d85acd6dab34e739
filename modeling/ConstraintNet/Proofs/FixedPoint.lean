/-
  ConstraintNet.Proofs.FixedPoint
  ───────────────────────────────
  **WHEN ARC CONSISTENCY REACHES A FIXED POINT.**

  After a revision has pruned the target of an arc, the symmetric policy
  lets every arc into the target wait but the one from the support.  That
  arc needs no second look as long as the values that were removed supported
  nothing, and they did not if every constraint between the two variables
  allows the same pairs: then a value that would have lost its support was
  the support of what it is missing.  Such a pair is `Concordant`.

      `Drains.settled`         — every arc that does not wait is settled: its
                                 target has a value and, if the pair is
                                 concordant, only supported ones
      `Drains.rests`           — a run over a consistent session changes
                                 nothing
      `arcConsistent_iff_rests` — after a run that ended well, the domains are
                                 arc consistent exactly when another run finds
                                 nothing to do
-/
import ConstraintNet.Proofs.ArcConsistency

namespace ConstraintNet

/-! ## §1. Arc consistent domains. -/

namespace Network

/-- Under every constraint, each value of either end has a support in the domain of the other. -/
def ArcConsistent (net : Network) (s : Session) : Prop :=
  ∀ c ∈ net.constraints.toList, ∀ x y, c.Joins x y →
    ∀ a ∈ s.dom x, ∃ b ∈ s.dom y, c.allows x a b = true

theorem arcConsistent_iff {net : Network} {s : Session} : net.ArcConsistent s ↔
    ∀ x y, net.Adjacent x y → ∀ a ∈ s.dom x, net.Supported x y a (s.dom y) := by
  constructor
  · intro h x y _ a ha c hc hjoins
    exact h c hc x y hjoins a ha
  · intro h c hc x y hjoins a ha
    exact h x y ⟨c, hc, hjoins⟩ a ha c hc hjoins

/-- All constraints between the two variables allow the same pairs. -/
def Concordant (net : Network) (x y : VariableId) : Prop :=
  ∀ c ∈ net.constraints.toList, ∀ d ∈ net.constraints.toList, c.Joins x y → d.Joins x y →
    ∀ a b, c.allows x a b = true → d.allows x a b = true

/-- Between concordant variables a revision of one leaves every support of the other. -/
theorem Concordant.supported_of_revised {net : Network} {s s' : Session} {arc : Arc}
    (h : net.Concordant arc.support arc.target) (hrevised : Revised net s arc s') {a : Value}
    (ha : a ∈ s.dom arc.support)
    (hsupported : net.Supported arc.support arc.target a (s.dom arc.target)) :
    net.Supported arc.support arc.target a (s'.dom arc.target) := by
  intro c hc hjoins
  obtain ⟨b, hb, hallows⟩ := hsupported c hc hjoins
  refine ⟨b, (hrevised.mem_target b).2 ⟨hb, ?_⟩, hallows⟩
  -- the support of `a` is itself supported by `a`, under each of the constraints
  intro d hd hjoins'
  have hd' := h c hc d hd hjoins hjoins'.symm a b hallows
  exact ⟨a, ha, (Constraint.allows_comm (net.ends_ne hd) hjoins'.symm a b).1 hd'⟩

end Network

namespace ArcConsistency

/-! ## §2. Arcs that do not wait. -/

variable {net : Network} {policy : RequeuePolicy} {queue rest : ArcQueue} {s s' : Session}
  {result : Propagated}

/-- What an arc that does not wait leaves to be desired of its target: nothing, if the pair is
concordant. -/
structure Settled (net : Network) (s : Session) (x y : VariableId) : Prop where
  nonempty : ∃ v, v ∈ s.dom x
  supported : net.Concordant x y → ∀ a ∈ s.dom x, net.Supported x y a (s.dom y)

/-- A revision and what the symmetric policy lets wait after it keep all other arcs settled. -/
theorem settled_of_revised {arc : Arc} {outcome : Revision}
    (hrev : revise? net s arc = some (outcome, s')) (hexact : rest.Exact)
    (hnext : Continues net .symmetric rest arc outcome queue)
    (hbefore : ∀ x y, net.Adjacent x y → ⟨x, y⟩ ≠ arc → ⟨x, y⟩ ∉ rest.toList → Settled net s x y)
    {x y : VariableId} (hadjacent : net.Adjacent x y) (hoff : ⟨x, y⟩ ∉ queue.toList) :
    Settled net s' x y := by
  obtain ⟨hrevised, _, hunchanged⟩ := revised_of_revise? hrev
  have hsome := hnext.exists_mem hrev
  by_cases harc : ⟨x, y⟩ = arc
  · subst harc
    refine ⟨hsome, ?_⟩
    intro _ a ha
    rw [hrevised.others y hadjacent.ne.symm]
    exact ((hrevised.mem_target a).1 ha).2
  · have hrest : ⟨x, y⟩ ∉ rest.toList := fun h => hoff ((hnext.requeued hexact).keeps _ h)
    have hold := hbefore x y hadjacent harc hrest
    refine ⟨hrevised.exists_mem hsome hold.nonempty, ?_⟩
    intro hconcordant a ha
    have ha' := hrevised.narrows.subset x a ha
    have hsupported := hold.supported hconcordant a ha'
    by_cases hy : y = arc.target
    · cases hnext with
      | unchanged =>
        rw [hunchanged rfl]
        exact hsupported
      | pruned hreq =>
        -- the one arc into the target that does not wait again is the one from the support
        have hx : x = arc.support := by
          by_contra hne
          refine hoff (((mem_requeue?_symmetric hexact hreq).2.1 ⟨x, y⟩).2 (Or.inr ⟨hy, hne, ?_⟩))
          rw [← hy]
          exact hadjacent.symm
        subst hx
        subst hy
        exact hconcordant.supported_of_revised hrevised ha' hsupported
    · rw [hrevised.others y hy]
      exact hsupported

/-- **Under the symmetric policy, every arc is settled at the end of a run that ends well**, if at
its start every arc that does not wait is. -/
theorem Drains.settled (h : Drains net .symmetric queue s result) (hexact : queue.Exact)
    (htrue : result.consistent = true)
    (hstart : ∀ x y, net.Adjacent x y → ⟨x, y⟩ ∉ queue.toList → Settled net s x y) :
    ∀ x y, net.Adjacent x y → Settled net result.session x y := by
  induction h with
  | idle hpop =>
    intro x y hadjacent
    refine hstart x y hadjacent ?_
    rw [ArcQueue.pop?_eq_none_iff.1 hpop]
    exact List.not_mem_nil
  | wipedOut _ _ => cases htrue
  | @revised queue rest queue' s s' arc outcome result hpop hrev hnext _ ih =>
    have hexact' := hexact.of_pop? hpop
    refine ih (hnext.requeued hexact').exact htrue ?_
    intro x y hadjacent hoff
    refine settled_of_revised hrev hexact' hnext ?_ hadjacent hoff
    intro x y hadjacent hne hrest
    refine hstart x y hadjacent ?_
    rw [ArcQueue.toList_of_pop? hpop, List.mem_cons]
    exact not_or.2 ⟨hne, hrest⟩

/-! ## §3. Runs that change nothing. -/

/-- A run over arcs of a session that is arc consistent and has no empty domain among its
constrained variables ends well and changes no domain. -/
theorem Drains.rests (h : Drains net policy queue s result) (hexact : queue.Exact)
    (hadjacent : ∀ arc ∈ queue.toList, net.Adjacent arc.target arc.support)
    (hnonempty : ∀ x y, net.Adjacent x y → ∃ v, v ∈ s.dom x) (hconsistent : net.ArcConsistent s) :
    result.consistent = true ∧ ∀ x, result.session.dom x = s.dom x := by
  induction h with
  | idle _ => exact ⟨rfl, fun _ => rfl⟩
  -- the target has a value with a support, so it cannot be emptied
  | @wipedOut queue rest s s' arc hpop hrev =>
    have harc := hadjacent arc (ArcQueue.toList_of_pop? hpop ▸ List.mem_cons_self)
    obtain ⟨hrevised, hempty, _⟩ := revised_of_revise? hrev
    obtain ⟨v, hv⟩ := hnonempty _ _ harc
    have hkept := (hrevised.mem_target v).2
      ⟨hv, Network.arcConsistent_iff.1 hconsistent _ _ harc v hv⟩
    exact absurd hkept (hempty.1 rfl v)
  | @revised queue rest queue' s s' arc outcome result hpop hrev hnext _ ih =>
    have hlist := ArcQueue.toList_of_pop? hpop
    have harc := hadjacent arc (hlist ▸ List.mem_cons_self)
    obtain ⟨hrevised, _, _⟩ := revised_of_revise? hrev
    have hrequeued := hnext.requeued (hexact.of_pop? hpop)
    -- every value is supported, so the revision takes none away and all hypotheses carry over
    have hsame := hrevised.dom_eq (Network.arcConsistent_iff.1 hconsistent _ _ harc)
    have hadjacent' : ∀ other ∈ queue'.toList, net.Adjacent other.target other.support := by
      intro other hother
      rcases hrequeued.added other hother with hold | ⟨hsupport, hnew⟩
      · exact hadjacent other (hlist ▸ List.mem_cons_of_mem arc hold)
      · rw [hsupport]
        exact hnew.symm
    have hnonempty' : ∀ x y, net.Adjacent x y → ∃ v, v ∈ s'.dom x := by
      intro x y hxy
      rw [hsame]
      exact hnonempty x y hxy
    have hconsistent' : net.ArcConsistent s' := by
      intro c hc x y hjoins a ha
      rw [hsame] at ha ⊢
      exact hconsistent c hc x y hjoins a ha
    obtain ⟨htrue, hdom⟩ := ih hrequeued.exact hadjacent' hnonempty' hconsistent'
    exact ⟨htrue, fun x => (hdom x).trans (hsame x)⟩

/-! ## §4. Full arc consistency, run twice. -/

/-- After symmetric arc consistency from an idle queue, every arc is settled. -/
theorem settled_of_establish? (hqueue : queue.Idle)
    (h : establish? net .symmetric queue s = some result) (htrue : result.consistent = true)
    {x y : VariableId} (hadjacent : net.Adjacent x y) : Settled net result.session x y := by
  refine (drains_of_drain? h).settled (mem_seedAll net hqueue.exact).1 htrue ?_ x y hadjacent
  intro x y hxy hoff
  exact absurd ((adjacent_of_mem_seedAll hqueue).2 hxy) hoff

/-- Another run from where this one ended ends well and changes no domain. -/
def Rests (net : Network) (policy : RequeuePolicy) (result : Propagated) : Prop :=
  ∃ again, establish? net policy result.queue result.session = some again ∧
    again.consistent = true ∧ ∀ x, again.session.dom x = result.session.dom x

/-- **After a run that ended well, the domains are arc consistent exactly when another run finds
nothing to do.** -/
theorem arcConsistent_iff_rests (hqueue : queue.Idle) (hsize : s.domains.size = net.size)
    (h : establish? net .symmetric queue s = some result) (htrue : result.consistent = true) :
    net.ArcConsistent result.session ↔ Rests net .symmetric result := by
  obtain ⟨_, h', hpropagates, hidle⟩ := exists_establish? net .symmetric hqueue hsize
  obtain rfl := Option.some.inj (h.symm.trans h')
  obtain ⟨again, hagain, _, _⟩ := exists_establish? net .symmetric hidle
    (hpropagates.narrows.size_eq.trans hsize)
  have hrun := drains_of_drain? hagain
  have hexact := (mem_seedAll net hidle.exact).1
  constructor
  · intro hconsistent
    obtain ⟨htrue', hsame⟩ := hrun.rests hexact
      (fun arc harc => (adjacent_of_mem_seedAll hidle).1 harc)
      (fun x y hxy => (settled_of_establish? hqueue h htrue hxy).nonempty) hconsistent
    exact ⟨again, hagain, htrue', hsame⟩
  -- the second run has revised every arc, with the domains that it left
  · intro hrests
    obtain ⟨again', hagain', htrue', hsame⟩ := hrests
    obtain rfl := Option.some.inj (hagain.symm.trans hagain')
    have hrange : InRange net (seedAll net result.queue) :=
      inRange_seedAll hidle.exact (inRange_of_idle hidle)
    refine Network.arcConsistent_iff.2 ?_
    intro x y hxy a ha
    rw [← hsame] at ha
    exact hrun.supported hexact hrange htrue' ⟨x, y⟩ ((adjacent_of_mem_seedAll hidle).2 hxy) a ha

end ArcConsistency

end ConstraintNet
