/-
  ConstraintNet.Proofs.Relisting
  ──────────────────────────────
  **THE SEARCH TREE DOES NOT DEPEND ON HOW CONSTRAINTS ARE LISTED.**

  The order of the constraints decides in which order arcs wait and which
  constraint prunes first; their direction decides which of its two tables
  a constraint is asked.  None of this reaches the search.  Over networks
  that ask the same, two searches go in step:

      `lockstep_forwardChecking`  — with forward checking, which revises the
                                    same variables and leaves what is
                                    supported, so even the revisions agree
      `lockstep_arcConsistency`   — with symmetric arc consistency, if the
                                    networks are concordant; the revisions
                                    may differ, the domains do not

  Main result: `Engine.relisting_keeps_search`.
-/
import ConstraintNet.Proofs.Confluence
import ConstraintNet.Proofs.Lockstep
import ConstraintNet.Proofs.Solver

namespace ConstraintNet

/-- The counters agree, those of single constraints apart. -/
structure Statistics.SameEffort (stats stats' : Statistics) : Prop extends stats.Quiet stats' where
  revisions_eq : stats'.revisions = stats.revisions

variable {net net' : Network}

/-! ## §1. Forward checking. -/

/-- The same revision of twins comes to the same verdict and leaves twins. -/
theorem twins_of_reviseFuture? (halike : net.Alike net') {s s' t t' : Session}
    {var future : VariableId} {consistent consistent' : Bool}
    (htwins : s.Twins Statistics.SameEffort s') (hshared : net.sharedConstraints var future ≠ [])
    (h : reviseFuture? net s var future = some (consistent, t))
    (h' : reviseFuture? net' s' var future = some (consistent', t')) :
    consistent' = consistent ∧ t.Twins Statistics.SameEffort t' := by
  obtain ⟨hrevised, hsome⟩ := revised_of_reviseFuture? hshared h
  obtain ⟨hrevised', hsome'⟩ :=
    revised_of_reviseFuture? (fun hnil => hshared (halike.shared_eq_nil_iff.1 hnil)) h'
  have hdomains := halike.domains_eq_of_revised htwins.domains_eq hrevised hrevised'
  have hquiet := (quiet_of_reviseFuture? h).symm.trans
    (htwins.stats.toQuiet.trans (quiet_of_reviseFuture? h'))
  have hrevisions : t'.stats.revisions = t.stats.revisions := by
    rw [revisions_of_reviseFuture? h, revisions_of_reviseFuture? h', htwins.stats.revisions_eq]
  refine ⟨?_, htwins.of_narrows hrevised.narrows hrevised'.narrows hdomains ⟨hquiet, hrevisions⟩⟩
  rw [Bool.eq_iff_iff, hsome, hsome', Session.dom_congr hdomains]

namespace ForwardChecking

variable {changed future : VariableId} {undecided rest : List VariableId} {s s' t t' : Session}
  {consistent consistent' : Bool}

/-- Forward checking does not look at the domain of the variable. -/
def Passes (net : Network) (s : Session) (changed future : VariableId) : Prop :=
  future = changed ∨ s.isAssigned? future = some true ∨ net.sharedConstraints changed future = []

/-- **What forward checking does at one variable**: it passes it over, or revises it and goes on if
it has kept a value. -/
theorem of_propagate?_cons
    (h : propagate? net s changed (future :: rest) = some (consistent, t)) :
    (Passes net s changed future ∧ propagate? net s changed rest = some (consistent, t)) ∨
      (¬ Passes net s changed future ∧
        ∃ kept between, reviseFuture? net s changed future = some (kept, between) ∧
          (kept = false → consistent = false ∧ t = between) ∧
          (kept = true → propagate? net between changed rest = some (consistent, t))) := by
  unfold propagate? at h
  -- The neighbour is passed over for one of three reasons, tested in this order; failing all three,
  -- it is revised.
  by_cases heq : future = changed
  · rw [if_pos heq] at h
    exact Or.inl ⟨Or.inl heq, h⟩
  rw [if_neg heq] at h
  cases hassigned : s.isAssigned? future with
  | none =>
    rw [hassigned] at h
    cases h
  | some assigned =>
    rw [hassigned] at h
    cases assigned with
    | true => exact Or.inl ⟨Or.inr (Or.inl hassigned), h⟩
    | false =>
      dsimp only at h
      by_cases hshared : net.sharedConstraints changed future = []
      · rw [if_pos (List.isEmpty_iff.2 hshared)] at h
        exact Or.inl ⟨Or.inr (Or.inr hshared), h⟩
      rw [if_neg fun hnil => hshared (List.isEmpty_iff.1 hnil)] at h
      refine Or.inr ⟨?_, ?_⟩
      · rintro (hchanged | hdecided | hnil)
        · exact heq hchanged
        · rw [hassigned] at hdecided
          cases hdecided
        · exact hshared hnil
      cases hrev : reviseFuture? net s changed future with
      | none =>
        rw [hrev] at h
        cases h
      | some revised =>
        obtain ⟨kept, between⟩ := revised
        rw [hrev] at h
        refine ⟨kept, between, rfl, ?_, ?_⟩
        · rintro rfl
          obtain ⟨hfalse, ht⟩ := Prod.mk.inj (Option.some.inj h)
          exact ⟨hfalse.symm, ht.symm⟩
        · rintro rfl
          exact h

/-- **Forward checking of twins comes to the same verdict and leaves twins.** -/
theorem twins_of_propagate? (halike : net.Alike net') (htwins : s.Twins Statistics.SameEffort s')
    (h : propagate? net s changed undecided = some (consistent, t))
    (h' : propagate? net' s' changed undecided = some (consistent', t')) :
    consistent' = consistent ∧ t.Twins Statistics.SameEffort t' := by
  induction undecided generalizing s s' with
  | nil =>
    obtain ⟨rfl, rfl⟩ := Prod.mk.inj (Option.some.inj h)
    obtain ⟨rfl, rfl⟩ := Prod.mk.inj (Option.some.inj h')
    exact ⟨rfl, htwins⟩
  | cons future rest ih =>
    -- what is passed over is a matter of the decisions and of the graph, which are the same
    have hpasses : Passes net' s' changed future ↔ Passes net s changed future := by
      unfold Passes Session.isAssigned?
      rw [htwins.assignment_eq, halike.shared_eq_nil_iff]
    rcases of_propagate?_cons h with ⟨hpass, hrest⟩ | ⟨hlook, kept, between, hrev, hrest⟩
    · rcases of_propagate?_cons h' with ⟨_, hrest'⟩ | ⟨hlook', _⟩
      · exact ih htwins hrest hrest'
      · exact absurd (hpasses.2 hpass) hlook'
    · rcases of_propagate?_cons h' with ⟨hpass', _⟩ | ⟨_, kept', between', hrev', hrest'⟩
      · exact absurd (hpasses.1 hpass') hlook
      · have hshared : net.sharedConstraints changed future ≠ [] :=
          fun hnil => hlook (Or.inr (Or.inr hnil))
        obtain ⟨rfl, hbetween⟩ := twins_of_reviseFuture? halike htwins hshared hrev hrev'
        cases kept' with
        | false =>
          obtain ⟨rfl, rfl⟩ := hrest.1 rfl
          obtain ⟨rfl, rfl⟩ := hrest'.1 rfl
          exact ⟨rfl, hbetween⟩
        | true => exact ih hbetween (hrest.2 rfl) (hrest'.2 rfl)

end ForwardChecking

namespace Search

/-- **Two searches with forward checking go in step**, and revise equally often. -/
theorem lockstep_forwardChecking (halike : net.Alike net') {settings : Settings}
    (hforward : settings.algorithm = .forwardChecking) :
    Lockstep net net' settings Statistics.SameEffort fun _ => True where
  node h := ⟨⟨congrArg (· + 1) h.nodes_eq, h.backtracks_eq, h.maxDepth_eq⟩, h.revisions_eq⟩
  backtrack h := ⟨⟨h.nodes_eq, congrArg (· + 1) h.backtracks_eq, h.maxDepth_eq⟩, h.revisions_eq⟩
  deepen _ h := ⟨⟨h.nodes_eq, h.backtracks_eq, rfl⟩, h.revisions_eq⟩
  start := by
    intro queue queue' result result' hprepare hprepare'
    unfold Settings.prepare? at hprepare hprepare'
    rw [hforward] at hprepare hprepare'
    obtain rfl := Option.some.inj hprepare
    obtain rfl := Option.some.inj hprepare'
    exact ⟨rfl, ⟨.refl _, rfl⟩, fun _ => halike.start_domains_eq, fun _ => trivial⟩
  follow := by
    intro st st' var undecided result result' htwins _ _ hpropagate hpropagate'
    unfold Settings.propagate? at hpropagate hpropagate'
    rw [hforward] at hpropagate hpropagate'
    obtain ⟨⟨consistent, s⟩, hchecked, rfl⟩ := Option.map_eq_some_iff.1 hpropagate
    obtain ⟨⟨consistent', s'⟩, hchecked', rfl⟩ := Option.map_eq_some_iff.1 hpropagate'
    cases htwins with
    | follow hsessions _ _ =>
      obtain ⟨rfl, hleft⟩ :=
        ForwardChecking.twins_of_propagate? halike hsessions hchecked hchecked'
      exact ⟨rfl, hleft.stats, fun _ => hleft.domains_eq, fun _ => trivial⟩

/-! ## §2. Symmetric arc consistency. -/

/-- Two propagations that maintain arc consistency have their results in common. -/
theorem inStep_of_maintains (halike : net.Alike net') {s s' : Session}
    {result result' : Propagated} (h : Maintains net s result) (h' : Maintains net' s' result')
    (hdomains : s'.domains = s.domains) (hnonempty : s.Nonempty net)
    (hquiet : result.session.stats.Quiet result'.session.stats) :
    InStep Statistics.Quiet net.AllSupported result result' := by
  obtain ⟨hconsistent, hleft⟩ := h.confluent h' halike hdomains hnonempty
  exact ⟨hconsistent, hquiet, hleft, fun htrue => (h.arcConsistent htrue).allSupported⟩

/-- **Two searches that maintain arc consistency symmetrically go in step**, if every pair of
variables is concordant. -/
theorem lockstep_arcConsistency (halike : net.Alike net')
    (hconcordant : ∀ x y, net.Concordant x y) {settings : Settings}
    (halgorithm : settings.algorithm = .maintainingArcConsistency)
    (hpolicy : settings.requeuePolicy = .symmetric) :
    Lockstep net net' settings Statistics.Quiet net.AllSupported where
  node h := ⟨congrArg (· + 1) h.nodes_eq, h.backtracks_eq, h.maxDepth_eq⟩
  backtrack h := ⟨h.nodes_eq, congrArg (· + 1) h.backtracks_eq, h.maxDepth_eq⟩
  deepen _ h := ⟨h.nodes_eq, h.backtracks_eq, rfl⟩
  start := by
    intro queue queue' result result' hprepare hprepare'
    -- both searches start with all counters at zero
    have hquiet : (Session.start net).stats.Quiet result.session.stats :=
      Settings.quiet_of_prepare? hprepare
    have hquiet' : (Session.start net').stats.Quiet result'.session.stats :=
      Settings.quiet_of_prepare? hprepare'
    unfold Settings.prepare? at hprepare hprepare'
    rw [halgorithm, hpolicy] at hprepare hprepare'
    have hstart := coherent_start net
    exact inStep_of_maintains halike
      (ArcConsistency.maintains_establish? hconcordant ArcQueue.idle_empty hstart.size_domains
        hprepare)
      (ArcConsistency.maintains_establish? (fun x y => halike.concordant (hconcordant x y))
        ArcQueue.idle_empty (coherent_start net').size_domains hprepare')
      halike.start_domains_eq hstart.nonempty (hquiet.symm.trans hquiet')
  follow := by
    intro st st' var undecided result result' htwins hvalid hvalid' hpropagate hpropagate'
    have hquiet := Settings.quiet_of_propagate? hpropagate
    have hquiet' := Settings.quiet_of_propagate? hpropagate'
    unfold Settings.propagate? at hpropagate hpropagate'
    rw [halgorithm, hpolicy] at hpropagate hpropagate'
    obtain ⟨⟨hcoherent, hready⟩, hvar⟩ := hvalid
    obtain ⟨⟨hcoherent', hready'⟩, hvar'⟩ := hvalid'
    cases htwins with
    | @follow _ _ _ _ D hsessions hfit hnarrowed =>
      have hnarrowed' : NarrowedAt var D st'.session.dom := by
        rw [funext (Session.dom_congr hsessions.domains_eq)]
        exact hnarrowed
      exact inStep_of_maintains halike
        (ArcConsistency.maintains_propagate? hconcordant (hready halgorithm)
          hcoherent.size_domains hvar hfit hnarrowed hcoherent.nonempty hpropagate)
        (ArcConsistency.maintains_propagate? (fun x y => halike.concordant (hconcordant x y))
          (hready' halgorithm) hcoherent'.size_domains hvar' (halike.allSupported hfit) hnarrowed'
          hcoherent'.nonempty hpropagate')
        hsessions.domains_eq hcoherent.nonempty
        (hquiet.symm.trans (hsessions.stats.trans hquiet'))

end Search

/-! ## §3. Engines. -/

/-- The two searches found the same, and their trees have the same size. -/
structure Outcome.SameTree (outcome outcome' : Outcome) : Prop where
  solution_eq : outcome'.solution = outcome.solution
  nodes_eq : outcome'.stats.nodes = outcome.stats.nodes
  backtracks_eq : outcome'.stats.backtracks = outcome.stats.backtracks
  maxDepth_eq : outcome'.stats.maxDepth = outcome.stats.maxDepth

/-- In trees of the same size, they have revised equally often. -/
structure Outcome.SameWork (outcome outcome' : Outcome) : Prop
    extends outcome.SameTree outcome' where
  revisions_eq : outcome'.stats.revisions = outcome.stats.revisions

namespace Engine

/-- Two engines with these settings, whatever their past is, one of either network, solve when they
are started, and their outcomes are related. -/
def SolveAlike (net net' : Network) (settings : Settings)
    (related : Outcome → Outcome → Prop) : Prop :=
  ∀ engine engine' : Engine, ∃ outcome after outcome' after',
    { engine with network := net, settings := settings : Engine }.start.solve =
      .ok (outcome, after) ∧
    { engine' with network := net', settings := settings : Engine }.start.solve =
      .ok (outcome', after') ∧
    related outcome outcome'

/-- Engines whose searches go in step report the same solution. -/
theorem solveAlike_of_lockstep {settings : Settings} {same : Statistics → Statistics → Prop}
    {Fit : (VariableId → Domain) → Prop} (hstep : Search.Lockstep net net' settings same Fit)
    (hsize : net'.size = net.size) {related : Outcome → Outcome → Prop}
    (hrelated : ∀ outcome outcome' : Outcome, outcome'.solution = outcome.solution →
      same outcome.stats outcome'.stats → related outcome outcome') :
    SolveAlike net net' settings related := by
  intro engine engine'
  obtain ⟨st, hends, hsolve⟩ :=
    exists_solve { engine with network := net, settings := settings }
  obtain ⟨st', hends', hsolve'⟩ :=
    exists_solve { engine' with network := net', settings := settings }
  obtain ⟨hsolution, hstats⟩ := hstep.ends hsize hends hends'
  exact ⟨_, _, _, _, hsolve, hsolve', hrelated _ _ hsolution hstats⟩

/-- **The search tree does not depend on how constraints are listed.** If the constraints of a
network are put in another order and some of them turned round, they make a network again. With
forward checking, searches of the two networks report the same solution after the same numbers of
nodes, revisions and backtracks and with the same greatest depth. When no two constraints bind the
same variables, the same holds of symmetric arc consistency, the number of revisions apart. -/
theorem relisting_keeps_search (net : Network) {listed : List Constraint}
    (h : Relisted net.constraints.toList listed) :
    ∃ net', Network.build? net.bounds.toList listed = .ok net' ∧
      (∀ (varOrder : VariableOrdering) (valueOrder : ValueOrdering) (policy : RequeuePolicy),
        SolveAlike net net' ⟨.forwardChecking, varOrder, valueOrder, policy⟩ Outcome.SameWork) ∧
      (net.Simple → ∀ (varOrder : VariableOrdering) (valueOrder : ValueOrdering),
        SolveAlike net net' ⟨.maintainingArcConsistency, varOrder, valueOrder, .symmetric⟩
          Outcome.SameTree) := by
  obtain ⟨net', hbuild, halike⟩ := h.exists_build?
  refine ⟨net', hbuild, ?_, ?_⟩
  · intro varOrder valueOrder policy
    refine solveAlike_of_lockstep (Search.lockstep_forwardChecking halike rfl) halike.size_eq ?_
    intro outcome outcome' hsolution hstats
    exact ⟨⟨hsolution, hstats.nodes_eq, hstats.backtracks_eq, hstats.maxDepth_eq⟩,
      hstats.revisions_eq⟩
  · intro hsimple varOrder valueOrder
    refine solveAlike_of_lockstep
      (Search.lockstep_arcConsistency halike hsimple.concordant rfl rfl) halike.size_eq ?_
    intro outcome outcome' hsolution hstats
    exact ⟨hsolution, hstats.nodes_eq, hstats.backtracks_eq, hstats.maxDepth_eq⟩

open ArcConsistency in
/-- The three rising variables with their constraints exchanged, and one of them turned round. -/
theorem rising_listed_anew :
    (Relisted rising.constraints.toList
        [.ofTuples 1 2 [(1, 2), (1, 3), (2, 3)], .ofTuples 0 1 [(1, 2), (1, 3), (2, 3)]] ∧
      rising.Simple) ∧
    ∃ net', Network.build? rising.bounds.toList
        [.ofTuples 1 2 [(1, 2), (1, 3), (2, 3)], .ofTuples 0 1 [(1, 2), (1, 3), (2, 3)]] =
        .ok net' ∧
      (∀ (varOrder : VariableOrdering) (valueOrder : ValueOrdering) (policy : RequeuePolicy),
        SolveAlike rising net' ⟨.forwardChecking, varOrder, valueOrder, policy⟩
          Outcome.SameWork) ∧
      ∀ (varOrder : VariableOrdering) (valueOrder : ValueOrdering),
        SolveAlike rising net' ⟨.maintainingArcConsistency, varOrder, valueOrder, .symmetric⟩
          Outcome.SameTree := by
  have hsimple : rising.Simple := by
    unfold Network.Simple
    decide
  have hrelisted : Relisted rising.constraints.toList
      [.ofTuples 1 2 [(1, 2), (1, 3), (2, 3)], .ofTuples 0 1 [(1, 2), (1, 3), (2, 3)]] :=
    ⟨_, List.Perm.swap _ _ _, .cons (Or.inr rfl) (.cons (Or.inl rfl) .nil)⟩
  obtain ⟨net', hbuild, hforward, harc⟩ := relisting_keeps_search rising hrelisted
  exact ⟨⟨hrelisted, hsimple⟩, net', hbuild, hforward, harc hsimple⟩

end Engine

end ConstraintNet
