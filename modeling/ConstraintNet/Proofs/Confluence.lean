/-
  ConstraintNet.Proofs.Confluence
  ───────────────────────────────
  **ARC CONSISTENCY DOES NOT DEPEND ON THE ORDER OF REVISIONS.**

  A propagation `Maintains` arc consistency when it takes nothing from a
  consistent family and, if it ends well, leaves domains that are one.  It
  then leaves the same domains as any other propagation of this kind, from
  the same domains and in a network that asks the same: each leaves a
  consistent family, and the other keeps it.  For the same reason, one fails
  when the other does.

  Symmetric arc consistency is of this kind in a concordant network, at the
  start of a search and after each decision:

      `maintains_establish?`  — from any domains
      `maintains_propagate?`  — from domains that were arc consistent before
                                one variable lost values
      `Maintains.confluent`   — the two propagations compared
-/
import ConstraintNet.Proofs.Alike
import ConstraintNet.Proofs.Decision

namespace ConstraintNet

/-! ## §1. Propagations that maintain arc consistency. -/

/-- Domains in which every value is supported, whatever the pair of variables. -/
def Network.AllSupported (net : Network) (D : VariableId → Domain) : Prop :=
  ∀ x y, ∀ a ∈ D x, net.Supported x y a (D y)

theorem Network.ArcConsistent.allSupported {net : Network} {s : Session}
    (h : net.ArcConsistent s) : net.AllSupported s.dom :=
  fun x y a ha c hc hjoins => h c hc x y hjoins a ha

theorem Network.Alike.allSupported {net net' : Network} (h : net.Alike net')
    {D : VariableId → Domain} (hD : net.AllSupported D) : net'.AllSupported D :=
  fun x y a ha => h.supported (hD x y a ha)

/-- The propagation is sound, keeps every consistent family and ends, if it ends well, with domains
that are arc consistent. -/
structure Maintains (net : Network) (s : Session) (result : Propagated) : Prop where
  propagates : Propagates net s result
  keeps : ∀ F, net.ConsistentFamily s F → net.ConsistentFamily result.session F
  arcConsistent : result.consistent = true → net.ArcConsistent result.session

namespace Maintains

variable {net net' : Network} {s s' : Session} {result result' : Propagated}

/-- What one propagation leaves, the other leaves, too. -/
theorem subset_dom (h : Maintains net s result) (h' : Maintains net' s' result')
    (halike : net.Alike net') (hdom : ∀ x, s'.dom x = s.dom x) (htrue : result.consistent = true) :
    ∀ x v, v ∈ result.session.dom x → v ∈ result'.session.dom x := by
  have hfamily : net.ConsistentFamily s fun x => {v | v ∈ result.session.dom x} :=
    (h.arcConsistent htrue).consistentFamily.of_narrows h.propagates.narrows
  exact (h'.keeps _ (halike.consistentFamily hdom hfamily)).subset_dom

theorem consistent_of_consistent (h : Maintains net s result) (h' : Maintains net' s' result')
    (halike : net.Alike net') (hdom : ∀ x, s'.dom x = s.dom x) (hnonempty : s.Nonempty net)
    (htrue : result.consistent = true) : result'.consistent = true := by
  refine h'.propagates.consistent_of_nonempty fun x hx => ?_
  -- this run has left a value, and the other must leave it, too
  obtain ⟨v, hv⟩ := h.propagates.nonempty htrue hnonempty x (halike.size_eq ▸ hx)
  exact ⟨v, h.subset_dom h' halike hdom htrue x v hv⟩

/-- **Two propagations that maintain arc consistency come to the same verdict**, and to the same
domains if they end well. -/
theorem confluent (h : Maintains net s result) (h' : Maintains net' s' result')
    (halike : net.Alike net') (hdomains : s'.domains = s.domains) (hnonempty : s.Nonempty net) :
    result'.consistent = result.consistent ∧
      (result.consistent = true → result'.session.domains = result.session.domains) := by
  have hdom := Session.dom_congr hdomains
  have hdom' : ∀ x, s.dom x = s'.dom x := fun x => (hdom x).symm
  have hnonempty' : s'.Nonempty net' := by
    intro x hx
    rw [hdom]
    exact hnonempty x (halike.size_eq ▸ hx)
  have hforth := h.consistent_of_consistent h' halike hdom hnonempty
  have hback := h'.consistent_of_consistent h halike.symm hdom' hnonempty'
  refine ⟨Bool.eq_iff_iff.2 ⟨hback, hforth⟩, ?_⟩
  intro htrue
  refine Session.domains_ext ?_ fun x => Domain.ext fun v => ?_
  · rw [h.propagates.narrows.size_eq, h'.propagates.narrows.size_eq, hdomains]
  · exact ⟨h'.subset_dom h halike.symm hdom' (hforth htrue) x v,
      h.subset_dom h' halike hdom htrue x v⟩

end Maintains

/-! ## §2. Symmetric arc consistency. -/

namespace ArcConsistency

variable {net : Network} {queue : ArcQueue} {s : Session} {result : Propagated}

/-- Settled arcs between concordant variables are all that arc consistency asks for. -/
theorem arcConsistent_of_settled (hconcordant : ∀ x y, net.Concordant x y)
    (h : ∀ x y, net.Adjacent x y → Settled net s x y) : net.ArcConsistent s := by
  rw [Network.arcConsistent_iff]
  intro x y hxy
  exact (h x y hxy).supported (hconcordant x y)

theorem maintains_establish? (hconcordant : ∀ x y, net.Concordant x y) (hqueue : queue.Idle)
    (hsize : s.domains.size = net.size)
    (h : establish? net .symmetric queue s = some result) : Maintains net s result := by
  obtain ⟨result', hresult', hpropagates, _⟩ := exists_establish? net .symmetric hqueue hsize
  obtain rfl := Option.some.inj (h.symm.trans hresult')
  refine ⟨hpropagates, fun F hF => (drains_of_drain? h).consistentFamily hF, ?_⟩
  intro htrue
  exact arcConsistent_of_settled hconcordant fun x y => settled_of_establish? hqueue h htrue

/-- **After a decision about one variable, only the arcs between it and its neighbours have to
wait** for the domains to become arc consistent again. -/
theorem maintains_propagate? (hconcordant : ∀ x y, net.Concordant x y) (hqueue : queue.Idle)
    (hsize : s.domains.size = net.size) {changed : VariableId} (hchanged : changed < net.size)
    {D : VariableId → Domain} (hbefore : net.AllSupported D)
    (hnarrowed : NarrowedAt changed D s.dom) (hnonempty : s.Nonempty net)
    (h : propagate? net .symmetric queue s changed = some result) : Maintains net s result := by
  obtain ⟨result', hresult', hpropagates, _⟩ :=
    exists_propagate? net .symmetric hqueue hsize hchanged
  obtain rfl := Option.some.inj (h.symm.trans hresult')
  obtain ⟨queue', hseeded⟩ := exists_seedChanged? net .symmetric queue hchanged
  obtain ⟨hexact, hmem⟩ := mem_seedChanged? hqueue.exact hseeded
  unfold propagate? at h
  rw [hseeded] at h
  have hrun := drains_of_drain? h
  refine ⟨hpropagates, fun F hF => hrun.consistentFamily hF, ?_⟩
  intro htrue
  refine arcConsistent_of_settled hconcordant (hrun.settled hexact htrue ?_)
  intro x y hadjacent hoff
  -- an arc that does not wait is not at the changed variable, so both its ends are as they were
  have hx : x ≠ changed := by
    rintro rfl
    exact hoff ((hmem _).2 (Or.inr ⟨y, hadjacent,
      List.mem_cons_of_mem _ (List.mem_singleton.2 rfl)⟩))
  have hy : y ≠ changed := by
    rintro rfl
    exact hoff ((hmem _).2 (Or.inr ⟨x, hadjacent.symm, List.mem_cons_self⟩))
  refine ⟨hnonempty x hadjacent.lt_size, ?_⟩
  intro _ a ha
  rw [hnarrowed.other x hx] at ha
  rw [hnarrowed.other y hy]
  exact hbefore x y a ha

end ArcConsistency

end ConstraintNet
