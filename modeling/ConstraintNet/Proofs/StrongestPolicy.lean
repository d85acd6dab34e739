/-
  ConstraintNet.Proofs.StrongestPolicy
  ────────────────────────────────────
  **NO POLICY PRUNES MORE THAN THE SYMMETRIC ONE.**

  What the legacy policy lets wait depends on how the constraints are stored
  and on what waits already, so its runs cannot be compared with symmetric
  ones arc by arc.  The domains at the end can.  Every run keeps the
  consistent families, whatever its policy is; and in a network without
  parallel constraints, symmetric arc consistency leaves domains that are
  one.  So whatever the symmetric policy leaves, any other leaves, too.

  In a search, a node of the symmetric policy and one of another face each
  other when the domains of the first are parts of those of the second and
  every value in them is supported.  The second search alone can give up
  values then: such values are not in the domains of the first, so these
  remain a consistent family that no propagation touches.

      `subset_dom_of_establish?` — full arc consistency
      `dominates_policy`         — the two searches, node by node
      `symmetric_prunes_most`    — both, for the legacy policy
-/
import ConstraintNet.Proofs.Confluence
import ConstraintNet.Proofs.Domination

namespace ConstraintNet

/-! ## §1. What any policy keeps. -/

/-- Domains in which every value is supported are a consistent family of every wider session. -/
theorem Network.AllSupported.consistentFamily {net : Network} {D : VariableId → Domain}
    (h : net.AllSupported D) {s : Session} (hsub : ∀ x v, v ∈ D x → v ∈ s.dom x) :
    net.ConsistentFamily s fun x => {v | v ∈ D x} :=
  ⟨hsub, fun c hc x y hjoins a ha => h x y a ha c hc hjoins⟩

namespace ArcConsistency

variable {net : Network} {policy : RequeuePolicy} {queue queue' : ArcQueue} {s s' : Session}
  {result result' : Propagated} {F : VariableId → Set Value} {D : VariableId → Domain}

theorem consistentFamily_of_propagate? {changed : VariableId}
    (h : propagate? net policy queue s changed = some result) (hF : net.ConsistentFamily s F) :
    net.ConsistentFamily result.session F := by
  unfold propagate? at h
  split at h
  · cases h
  · exact (drains_of_drain? h).consistentFamily hF

/-- A run that keeps supported domains, none of them empty, does not fail. -/
theorem consistent_of_subset (hpropagates : Propagates net s' result')
    (hkept : ∀ x v, v ∈ D x → v ∈ result'.session.dom x)
    (hnonempty : ∀ x < net.size, ∃ v, v ∈ D x) : result'.consistent = true := by
  refine hpropagates.consistent_of_nonempty fun x hx => ?_
  obtain ⟨v, hv⟩ := hnonempty x hx
  exact ⟨v, hkept x v hv⟩

/-- **What a propagation that maintains arc consistency leaves, any run from wider domains
leaves, too**, if it keeps the consistent families. -/
theorem subset_dom_of_run (h : Maintains net s result) (htrue : result.consistent = true)
    (hsub : ∀ x v, v ∈ s.dom x → v ∈ s'.dom x)
    (hkeeps : ∀ F, net.ConsistentFamily s' F → net.ConsistentFamily result'.session F) :
    ∀ x v, v ∈ result.session.dom x → v ∈ result'.session.dom x := by
  have hleft : ∀ x v, v ∈ result.session.dom x → v ∈ s'.dom x :=
    fun x v hv => hsub x v (h.propagates.narrows.subset x v hv)
  exact (hkeeps _ ((h.arcConsistent htrue).allSupported.consistentFamily hleft)).subset_dom

/-- **When full symmetric arc consistency ends well, so does any other policy**, and leaves all that
the symmetric policy leaves. -/
theorem subset_dom_of_establish? (hsimple : net.Simple) (hqueue : queue.Idle)
    (hqueue' : queue'.Idle) (hsize : s.domains.size = net.size) (hnonempty : s.Nonempty net)
    (h : establish? net .symmetric queue s = some result)
    (h' : establish? net policy queue' s = some result') (htrue : result.consistent = true) :
    result'.consistent = true ∧ ∀ x v, v ∈ result.session.dom x → v ∈ result'.session.dom x := by
  have hmaintains := maintains_establish? hsimple.concordant hqueue hsize h
  obtain ⟨_, hresult', hpropagates', _⟩ := exists_establish? net policy hqueue' hsize
  obtain rfl := Option.some.inj (h'.symm.trans hresult')
  have hkept := subset_dom_of_run hmaintains htrue (fun _ _ hv => hv)
    fun _ hF => (drains_of_drain? h').consistentFamily hF
  exact ⟨consistent_of_subset hpropagates' hkept (hmaintains.propagates.nonempty htrue hnonempty),
    hkept⟩

end ArcConsistency

/-! ## §2. Searches under two policies. -/

namespace Search

variable {net : Network} {finer coarser : Settings} {D E : VariableId → Domain}
  {x : VariableId} {rest undecided : List VariableId} {st st' : SearchState}
  {result result' : Propagated}

/-- The domains `D` are parts of `E`, and every value in them is supported. -/
def Within (net : Network) (D E : VariableId → Domain) (_ : List VariableId) : Prop :=
  (∀ y v, v ∈ D y → v ∈ E y) ∧ net.AllSupported D

/-- Decisions about one variable keep domains parts of others, if they do it for this variable. -/
theorem subset_of_narrowed {D' E' : VariableId → Domain} (h : ∀ y v, v ∈ D y → v ∈ E y)
    (hD : NarrowedAt x D D') (hE : NarrowedAt x E E') (hsub : ∀ v, v ∈ D' x → v ∈ E' x) :
    ∀ y v, v ∈ D' y → v ∈ E' y := by
  intro y v hv
  by_cases hy : y = x
  · subst hy
    exact hsub v hv
  · rw [hD.other y hy] at hv
    rw [hE.other y hy]
    exact h y v hv

/-- Whatever the policy is, arc consistency after a decision keeps the consistent families. -/
theorem Decides.keeps (halgorithm : coarser.algorithm = .maintainingArcConsistency)
    (h : Decides net coarser E x rest undecided st' result') :
    ∀ F, net.ConsistentFamily st'.session F → net.ConsistentFamily result'.session F := by
  intro F hF
  have hpropagate := h.propagate
  unfold Settings.propagate? at hpropagate
  rw [halgorithm] at hpropagate
  exact ArcConsistency.consistentFamily_of_propagate? hpropagate hF

/-- A decision from supported domains, under the symmetric policy. -/
theorem Decides.maintains (hsimple : net.Simple)
    (halgorithm : finer.algorithm = .maintainingArcConsistency)
    (hpolicy : finer.requeuePolicy = .symmetric) (hD : net.AllSupported D)
    (h : Decides net finer D x rest undecided st result) : Maintains net st.session result := by
  obtain ⟨⟨hcoherent, hready⟩, hx⟩ := h.valid
  have hpropagate := h.propagate
  unfold Settings.propagate? at hpropagate
  rw [halgorithm, hpolicy] at hpropagate
  exact ArcConsistency.maintains_propagate? hsimple.concordant (hready halgorithm)
    hcoherent.size_domains hx hD h.narrowed hcoherent.nonempty hpropagate

/-- From domains without a value for some variable, nothing can be decided. -/
theorem Decides.exists_mem (h : Decides net finer D x rest undecided st result) {y : VariableId}
    (hy : y < net.size) : ∃ v, v ∈ D y := by
  obtain ⟨v, hv⟩ := h.valid.1.1.nonempty y hy
  by_cases hyx : y = x
  · subst hyx
    exact ⟨v, h.narrowed.subset v hv⟩
  · rw [h.narrowed.other y hyx] at hv
    exact ⟨v, hv⟩

/-- **The symmetric policy dominates every policy** where no two constraints bind the same
variables. -/
theorem dominates_policy (hsimple : net.Simple)
    (halgorithm : finer.algorithm = .maintainingArcConsistency)
    (hpolicy : finer.requeuePolicy = .symmetric)
    (halgorithm' : coarser.algorithm = .maintainingArcConsistency) :
    Dominates net finer coarser (Within net) where
  start := by
    intro queue queue' result result' hprepare hprepare' htrue
    unfold Settings.prepare? at hprepare hprepare'
    rw [halgorithm, hpolicy] at hprepare
    rw [halgorithm'] at hprepare'
    have hstart := coherent_start net
    have hmaintains := ArcConsistency.maintains_establish? hsimple.concordant
      ArcQueue.idle_empty hstart.size_domains hprepare
    obtain ⟨htrue', hkept⟩ := ArcConsistency.subset_dom_of_establish? hsimple ArcQueue.idle_empty
      ArcQueue.idle_empty hstart.size_domains hstart.nonempty hprepare hprepare' htrue
    exact ⟨htrue', hkept, (hmaintains.arcConsistent htrue).allSupported⟩
  head h := h.1 _
  together := by
    intro D E x rest undecided st st' result result' hwithin hdecides hdecides' hsub htrue
    obtain ⟨hDE, hD⟩ := hwithin
    have hmaintains := hdecides.maintains hsimple halgorithm hpolicy hD
    have hleft := ArcConsistency.subset_dom_of_run hmaintains htrue
      (subset_of_narrowed hDE hdecides.narrowed hdecides'.narrowed hsub)
      (hdecides'.keeps halgorithm')
    have hnonempty := hmaintains.propagates.nonempty htrue hdecides.valid.1.1.nonempty
    refine ⟨?_, hleft, (hmaintains.arcConsistent htrue).allSupported⟩
    exact ArcConsistency.consistent_of_subset
      (hdecides'.valid.propagated hdecides'.propagate).1 hleft hnonempty
  alone := by
    intro D E x rest st' result' hwithin hdecides' hsub _
    obtain ⟨hDE, hD⟩ := hwithin
    have hsub' := subset_of_narrowed hDE ⟨fun _ hv => hv, fun _ _ => rfl⟩ hdecides'.narrowed hsub
    exact ⟨(hdecides'.keeps halgorithm' _ (hD.consistentFamily hsub')).subset_dom, hD⟩
  stuck := by
    intro D E x rest st' result' hwithin hdecides' hsub hfalse undecided st result hdecides
    obtain ⟨hDE, hD⟩ := hwithin
    have hsub' := subset_of_narrowed hDE ⟨fun _ hv => hv, fun _ _ => rfl⟩ hdecides'.narrowed hsub
    have hleft := (hdecides'.keeps halgorithm' _ (hD.consistentFamily hsub')).subset_dom
    -- the failure is impossible, as the finer search still has values to decide on
    rw [ArcConsistency.consistent_of_subset
      (hdecides'.valid.propagated hdecides'.propagate).1 hleft fun y => hdecides.exists_mem]
      at hfalse
    cases hfalse

end Search

/-! ## §3. The legacy policy. -/

/-- **The legacy policy only prunes less.** In a network in which no two constraints bind the same
variables, let two engines maintain arc consistency with the first variable first and the same value
ordering. Whatever their past is, they solve when they are started, and the one with the symmetric
policy has counted no more nodes than the one with the legacy policy. In any session without an
empty domain, full arc consistency gives an answer under either policy; if it fails under the legacy
policy it fails under the symmetric one, and if it fails under neither, each domain that the
symmetric policy leaves is a part of the one that the legacy policy leaves. -/
theorem Network.symmetric_prunes_most {net : Network} (hsimple : net.Simple) :
    (∀ (ordering : ValueOrdering) (queue queue' : ArcQueue) (journal journal' : Journal)
        (session session' : Option Session), ∃ outcome engine outcome' engine',
      (Engine.start ⟨net, ⟨.maintainingArcConsistency, .selectFirst, ordering, .symmetric⟩, queue,
        journal, session⟩).solve = .ok (outcome, engine) ∧
      (Engine.start ⟨net, ⟨.maintainingArcConsistency, .selectFirst, ordering, .legacy⟩, queue',
        journal', session'⟩).solve = .ok (outcome', engine') ∧
      outcome.stats.nodes ≤ outcome'.stats.nodes) ∧
    ∀ (queue queue' : ArcQueue) (s : Session), queue.Idle → queue'.Idle →
      s.domains.size = net.size → s.Nonempty net → ∃ result result',
        ArcConsistency.establish? net .symmetric queue s = some result ∧
        ArcConsistency.establish? net .legacy queue' s = some result' ∧
        (result'.consistent = false → result.consistent = false) ∧
        (result.consistent = true → result'.consistent = true →
          ∀ x v, v ∈ result.session.dom x → v ∈ result'.session.dom x) := by
  constructor
  · intro ordering queue queue' journal journal' session session'
    obtain ⟨st, hends, hsolve⟩ := Engine.exists_solve
      ⟨net, ⟨.maintainingArcConsistency, .selectFirst, ordering, .symmetric⟩, queue, journal,
        session⟩
    obtain ⟨st', hends', hsolve'⟩ := Engine.exists_solve
      ⟨net, ⟨.maintainingArcConsistency, .selectFirst, ordering, .legacy⟩, queue', journal',
        session'⟩
    -- At every node the symmetric policy leaves the smaller domains, and a search in smaller
    -- domains visits no further node.
    have hdominates : Search.Dominates net
        ⟨.maintainingArcConsistency, .selectFirst, ordering, .symmetric⟩
        ⟨.maintainingArcConsistency, .selectFirst, ordering, .legacy⟩ (Search.Within net) :=
      Search.dominates_policy hsimple rfl rfl rfl
    exact ⟨_, _, _, _, hsolve, hsolve', hdominates.nodes_le rfl rfl rfl hends hends'⟩
  · intro queue queue' s hqueue hqueue' hsize hnonempty
    obtain ⟨result, hresult, _⟩ :=
      ArcConsistency.exists_establish? net .symmetric hqueue hsize
    obtain ⟨result', hresult', _⟩ :=
      ArcConsistency.exists_establish? net .legacy hqueue' hsize
    have hmost := ArcConsistency.subset_dom_of_establish? hsimple hqueue hqueue' hsize hnonempty
      hresult hresult'
    refine ⟨result, result', hresult, hresult', ?_, fun htrue _ => (hmost htrue).2⟩
    intro hfalse'
    by_contra htrue
    rw [(hmost (eq_true_of_ne_false htrue)).1] at hfalse'
    cases hfalse'

open ArcConsistency in
/-- The three rising variables under the two policies, in a search and in a fresh session. -/
theorem rising_under_two_policies :
    (rising.Simple ∧ (∅ : ArcQueue).Idle ∧
      (Session.start rising).domains.size = rising.size ∧ (Session.start rising).Nonempty rising) ∧
    (∀ (ordering : ValueOrdering) (queue queue' : ArcQueue) (journal journal' : Journal)
        (session session' : Option Session), ∃ outcome engine outcome' engine',
      (Engine.start ⟨rising, ⟨.maintainingArcConsistency, .selectFirst, ordering, .symmetric⟩,
        queue, journal, session⟩).solve = .ok (outcome, engine) ∧
      (Engine.start ⟨rising, ⟨.maintainingArcConsistency, .selectFirst, ordering, .legacy⟩, queue',
        journal', session'⟩).solve = .ok (outcome', engine') ∧
      outcome.stats.nodes ≤ outcome'.stats.nodes) ∧
    ∃ result result',
      establish? rising .symmetric ∅ (Session.start rising) = some result ∧
      establish? rising .legacy ∅ (Session.start rising) = some result' ∧
      (result'.consistent = false → result.consistent = false) ∧
      (result.consistent = true → result'.consistent = true →
        ∀ x v, v ∈ result.session.dom x → v ∈ result'.session.dom x) := by
  have hsimple : rising.Simple := by
    unfold Network.Simple
    decide
  have hstart := coherent_start rising
  obtain ⟨hnodes, hdomains⟩ := Network.symmetric_prunes_most hsimple
  exact ⟨⟨hsimple, ArcQueue.idle_empty, hstart.size_domains, hstart.nonempty⟩, hnodes,
    hdomains ∅ ∅ _ ArcQueue.idle_empty ArcQueue.idle_empty hstart.size_domains hstart.nonempty⟩

end ConstraintNet
