/-
  ConstraintNet.Proofs.SmallerTrees
  ─────────────────────────────────
  **MORE PROPAGATION, FEWER NODES.**

  No propagation that a search could use keeps more than forward checking:
  from a node of any search with a static order, forward checking faces the
  same node with larger domains.  It does not follow that the domains of the
  one are parts of those of the other.  While forward checking gives up a
  value that the other search has lost before, it prunes by what it keeps;
  the other search does not prune at that moment, and a single pass of arc
  consistency need not have done it earlier.  What forward checking prunes
  in excess has no support in the first variable that is left, though, so it
  falls as soon as the other search decides this variable.  Hence `Covers`:

      what is left of a variable and supported by the first
      is left in forward checking, too.

  Main result: `Engine.fewer_nodes_than_forwardChecking`.
-/
import ConstraintNet.Proofs.Domination

namespace ConstraintNet

/-! ## §1. What forward checking keeps. -/

/-- A variable needs no support of its own. -/
theorem Network.supported_self (net : Network) (x : VariableId) (b : Value) (candidates : Domain) :
    net.Supported x x b candidates :=
  fun _ hc hjoins => absurd rfl (hjoins.ne (net.ends_ne hc))

namespace ForwardChecking

variable {net : Network} {changed : VariableId} {undecided : List VariableId} {s s' : Session}
  {consistent : Bool}

/-- A value that the changed variable supports is kept. -/
theorem Checks.mem_dom (h : Checks net changed undecided s consistent s') {z : VariableId}
    {b : Value} (hb : b ∈ s.dom z) (hsupported : net.Supported z changed b (s.dom changed)) :
    b ∈ s'.dom z := by
  induction h with
  | done => exact hb
  | passed _ _ ih => exact ih hb hsupported
  | wipedOut hshared hrev =>
    exact (revised_of_reviseFuture? hshared hrev).1.mem_dom hb fun _ => hsupported
  | revised hne hshared hrev _ ih =>
    have hrevised := (revised_of_reviseFuture? hshared hrev).1
    refine ih (hrevised.mem_dom hb fun _ => hsupported) ?_
    rw [hrevised.others changed hne.symm]
    exact hsupported

/-- Forward checking fails at a variable that it was to check. -/
theorem Checks.exists_emptied (h : Checks net changed undecided s consistent s')
    (hfalse : consistent = false) : ∃ z ∈ undecided, ∀ v, v ∉ s'.dom z := by
  induction h with
  | done => cases hfalse
  | passed _ _ ih =>
    obtain ⟨z, hz, hempty⟩ := ih hfalse
    exact ⟨z, List.mem_cons_of_mem _ hz, hempty⟩
  | @wipedOut future _ _ s' hshared hrev =>
    refine ⟨future, List.mem_cons_self, ?_⟩
    intro v hv
    exact absurd ((revised_of_reviseFuture? hshared hrev).2.2 ⟨v, hv⟩) Bool.false_ne_true
  | revised _ _ _ _ ih =>
    obtain ⟨z, hz, hempty⟩ := ih hfalse
    exact ⟨z, List.mem_cons_of_mem _ hz, hempty⟩

end ForwardChecking

namespace Search

variable {net : Network} {settings : Settings} {st : SearchState} {var : VariableId}
  {undecided : List VariableId} {result : Propagated}

/-- A search with forward checking, after a decision: a value that the changed variable supports is
kept, and a failure is that of an undecided variable. -/
theorem Call.Valid.checked (hforward : settings.algorithm = .forwardChecking)
    (h : (Call.follow st var undecided).Valid net settings)
    (hpropagate : settings.propagate? net st.queue st.session var undecided = some result) :
    (∀ z b, b ∈ st.session.dom z → net.Supported z var b (st.session.dom var) →
      b ∈ result.session.dom z) ∧
    (result.consistent = false → ∃ z ∈ undecided, ∀ v, v ∉ result.session.dom z) := by
  obtain ⟨⟨hcoherent, _⟩, hvar⟩ := h
  have hundecided : ∀ z ∈ undecided,
      z < st.session.domains.size ∧ z < st.session.assignment.size := by
    intro z hz
    rw [hcoherent.size_domains, hcoherent.size_assignment]
    exact ⟨hcoherent.lt_size hz, hcoherent.lt_size hz⟩
  obtain ⟨consistent, s', hresult, hchecks⟩ :=
    ForwardChecking.exists_checks net undecided (hcoherent.size_domains ▸ hvar) hundecided
  unfold Settings.propagate? at hpropagate
  rw [hforward] at hpropagate
  dsimp only at hpropagate
  rw [hresult] at hpropagate
  obtain rfl := Option.some.inj hpropagate
  exact ⟨fun z b => hchecks.mem_dom, hchecks.exists_emptied⟩

/-- Whatever propagates a decision, what it leaves of an undecided variable is supported by the
changed one. -/
theorem Call.Valid.supported (h : (Call.follow st var undecided).Valid net settings)
    (hpropagate : settings.propagate? net st.queue st.session var undecided = some result)
    (htrue : result.consistent = true) {z : VariableId} (hz : z ∈ undecided) {b : Value}
    (hb : b ∈ result.session.dom z) : net.Supported z var b (st.session.dom var) := by
  -- the propagation promises this of variables that are not assigned, and undecided ones are not
  obtain ⟨⟨hcoherent, hready⟩, hvar⟩ := h
  obtain ⟨result', hresult', _, _, hsupported⟩ :=
    settings.exists_propagate? net hready hcoherent.size_domains hcoherent.size_assignment hvar
      fun _ hz => hcoherent.lt_size hz
  obtain rfl := Option.some.inj (hpropagate.symm.trans hresult')
  by_cases hne : z = var
  · subst hne
    exact net.supported_self z b _
  · exact hsupported htrue z hz hne (hcoherent.isAssigned?_eq_false hz) b hb

/-! ## §2. Domains that forward checking covers. -/

/-- What is left of a variable in `D`, and has a support in the first of the variables, is left in
`E`. -/
def Covers (net : Network) (D E : VariableId → Domain) : List VariableId → Prop
  | [] => True
  | x :: rest => ∀ y ∈ x :: rest, ∀ b ∈ D y, net.Supported y x b (D x) → b ∈ E y

variable {D E D' E' : VariableId → Domain} {x : VariableId} {rest : List VariableId}

theorem covers_of_subset {remaining : List VariableId}
    (h : ∀ y ∈ remaining, ∀ b ∈ D y, b ∈ E y) : Covers net D E remaining := by
  cases remaining with
  | nil => trivial
  | cons x rest => exact fun y hy b hb _ => h y hy b hb

theorem Covers.head (h : Covers net D E (x :: rest)) : ∀ v, v ∈ D x → v ∈ E x :=
  fun v hv => h x List.mem_cons_self v hv (net.supported_self x v (D x))

/-- Decisions about the first variable keep the domains covered, if they do it for this variable. -/
theorem Covers.narrowed (h : Covers net D E (x :: rest)) (hD : NarrowedAt x D D')
    (hE : NarrowedAt x E E') (hsub : ∀ v, v ∈ D' x → v ∈ E' x) : Covers net D' E' (x :: rest) := by
  intro y hy b hb hsupported
  by_cases hyx : y = x
  · subst hyx
    exact hsub b hb
  · rw [hD.other y hyx] at hb
    rw [hE.other y hyx]
    exact h y hy b hb (hsupported.mono hD.subset)

/-- A variable that was left before a decision about `x` is `x` or undecided after it. -/
theorem Decides.eq_or_mem (h : Decides net settings D x rest undecided st result)
    {y : VariableId} (hy : y ∈ x :: rest) : y = x ∨ y ∈ undecided := by
  rcases h.undecided_eq with rfl | rfl
  · exact List.mem_cons.1 hy
  · exact Or.inr hy

theorem Decides.mem_cons (h : Decides net settings D x rest undecided st result)
    {y : VariableId} (hy : y ∈ undecided) : y ∈ x :: rest := by
  rcases h.undecided_eq with rfl | rfl
  · exact List.mem_cons_of_mem x hy
  · exact hy

/-- What comes of a decision, whatever propagates it: what is left of a variable was left before,
and is supported by the variable that was decided; and something is left. -/
theorem Decides.supported (h : Decides net settings D x rest undecided st result)
    (htrue : result.consistent = true) {y : VariableId} (hy : y ∈ x :: rest) :
    (∀ b ∈ result.session.dom y, b ∈ st.session.dom y ∧
      net.Supported y x b (st.session.dom x)) ∧ ∃ b, b ∈ result.session.dom y := by
  obtain ⟨hpropagates, _, hnext⟩ := h.valid.propagated h.propagate
  have hnonempty := (hnext htrue).1.nonempty
  rcases h.eq_or_mem hy with rfl | hmem
  · refine ⟨?_, hnonempty y h.valid.2⟩
    exact fun b hb => ⟨hpropagates.narrows.subset y b hb, net.supported_self y b _⟩
  · refine ⟨?_, hnonempty y (h.valid.1.1.lt_size hmem)⟩
    exact fun b hb => ⟨hpropagates.narrows.subset y b hb,
      h.valid.supported h.propagate htrue hmem hb⟩

/-! ## §3. Every propagation dominates forward checking. -/

/-- **Every search prunes at least as much as forward checking**, up to what the next decision
settles. -/
theorem dominates_forwardChecking (net : Network) (finer : Settings) {coarser : Settings}
    (hforward : coarser.algorithm = .forwardChecking) :
    Dominates net finer coarser (Covers net) where
  start := by
    intro queue queue' result result' hprepare hprepare' _
    obtain ⟨prepared, hprepared, hpropagates, _⟩ :=
      finer.exists_prepare? net queue (coherent_start net).size_domains
    obtain rfl := Option.some.inj (hprepare.symm.trans hprepared)
    unfold Settings.prepare? at hprepare'
    rw [hforward] at hprepare'
    obtain rfl := Option.some.inj hprepare'
    exact ⟨rfl, covers_of_subset fun y _ => hpropagates.narrows.subset y⟩
  head h := h.head
  together := by
    intro D E x rest undecided st st' result result' hcovers hdecides hdecides' hsub htrue
    have hnarrowed := hcovers.narrowed hdecides.narrowed hdecides'.narrowed hsub
    obtain ⟨hkept, hfailed⟩ := hdecides'.valid.checked hforward hdecides'.propagate
    -- what the finer search leaves is supported, and forward checking keeps it
    have hleft : ∀ y ∈ x :: rest, ∀ b ∈ result.session.dom y, b ∈ result'.session.dom y := by
      intro y hy b hb
      obtain ⟨hmem, hsupported⟩ := (hdecides.supported htrue hy).1 b hb
      exact hkept y b (hnarrowed y hy b hmem hsupported) (hsupported.mono hsub)
    refine ⟨?_, covers_of_subset fun y hy => hleft y (hdecides.mem_cons hy)⟩
    rw [← Bool.not_eq_false]
    intro hfalse
    obtain ⟨z, hz, hempty⟩ := hfailed hfalse
    obtain ⟨b, hb⟩ := (hdecides.supported htrue (hdecides.mem_cons hz)).2
    exact hempty b (hleft z (hdecides.mem_cons hz) b hb)
  alone := by
    intro D E x rest st' result' hcovers hdecides' hsub _ y hy b hb hsupported
    have hnarrowed := hcovers.narrowed ⟨fun _ hv => hv, fun _ _ => rfl⟩ hdecides'.narrowed hsub
    have hkept := (hdecides'.valid.checked hforward hdecides'.propagate).1
    exact hkept y b (hnarrowed y hy b hb hsupported) (hsupported.mono hsub)
  stuck := by
    intro D E x rest st' result' hcovers hdecides' hsub hfalse undecided st result hdecides
    have hnarrowed := hcovers.narrowed ⟨fun _ hv => hv, fun _ _ => rfl⟩ hdecides'.narrowed hsub
    obtain ⟨hkept, hfailed⟩ := hdecides'.valid.checked hforward hdecides'.propagate
    obtain ⟨z, hz, hempty⟩ := hfailed hfalse
    rw [← Bool.not_eq_true]
    intro htrue
    -- a value that the finer search leaves at `z` would have been kept
    obtain ⟨hleft, b, hb⟩ := hdecides.supported htrue hz
    obtain ⟨hmem, hsupported⟩ := hleft b hb
    have hD : b ∈ D z := by
      by_cases hzx : z = x
      · subst hzx
        exact hdecides.narrowed.subset b hmem
      · rwa [hdecides.narrowed.other z hzx] at hmem
    have hsupported' := hsupported.mono hdecides.narrowed.subset
    exact hempty b (hkept z b (hnarrowed z hz b hD hsupported') (hsupported'.mono hsub))

end Search

/-! ## §4. Engines. -/

/-- **Maintained arc consistency visits no more nodes than forward checking.** With the first
variable first and the same value ordering, two started engines solve, whatever the network, the
policy and the past of either engine are, and the one that maintains arc consistency has counted no
more nodes than the one that checks forward. -/
theorem Engine.fewer_nodes_than_forwardChecking (net : Network) (ordering : ValueOrdering)
    (policy policy' : RequeuePolicy) (queue queue' : ArcQueue) (journal journal' : Journal)
    (session session' : Option Session) :
    ∃ outcome engine outcome' engine',
      (Engine.start ⟨net, ⟨.maintainingArcConsistency, .selectFirst, ordering, policy⟩, queue,
        journal, session⟩).solve = .ok (outcome, engine) ∧
      (Engine.start ⟨net, ⟨.forwardChecking, .selectFirst, ordering, policy'⟩, queue', journal',
        session'⟩).solve = .ok (outcome', engine') ∧
      outcome.stats.nodes ≤ outcome'.stats.nodes := by
  obtain ⟨st, hends, hsolve⟩ := Engine.exists_solve
    ⟨net, ⟨.maintainingArcConsistency, .selectFirst, ordering, policy⟩, queue, journal, session⟩
  obtain ⟨st', hends', hsolve'⟩ := Engine.exists_solve
    ⟨net, ⟨.forwardChecking, .selectFirst, ordering, policy'⟩, queue', journal', session'⟩
  have hdominates : Search.Dominates net
      ⟨.maintainingArcConsistency, .selectFirst, ordering, policy⟩
      ⟨.forwardChecking, .selectFirst, ordering, policy'⟩ (Search.Covers net) :=
    Search.dominates_forwardChecking net _ rfl
  exact ⟨_, _, _, _, hsolve, hsolve', hdominates.nodes_le rfl rfl rfl hends hends'⟩

end ConstraintNet
