/-
  ConstraintNet.Proofs.BacktrackFree
  ──────────────────────────────────
  **NO BACKTRACKING ON FORESTS.**

  Symmetric arc consistency leaves arc consistent domains before the first
  decision, and again after each one.  When the constraint graph is a
  forest, every value of such domains is part of a solution.  So a decision
  that gives a variable a value never has to be withdrawn: the search goes
  straight down to a solution.

  A call is `Straight` when it begins with such domains or, after a
  decision, with domains that it has narrowed from such, among which a
  solution is left.  A straight call makes straight calls only, and so it

      finds a solution,
      counts no backtrack, and
      opens one checkpoint for each variable that it has to decide.

  Main result: `Engine.no_backtracks_on_forest`.
-/
import ConstraintNet.Proofs.Accounting
import ConstraintNet.Proofs.Forest

namespace ConstraintNet

/-! ## §1. Depth. -/

namespace Session

/-- There were never more checkpoints than are open now. -/
structure Deepest (s : Session) : Prop where
  highWater_eq : s.highWater = s.checkpoints.length
  maxDepth_eq : s.stats.maxDepth = s.checkpoints.length

variable {net : Network} {s s' : Session} {x : VariableId} {v : Value}

/-- A decision is the deepest yet, if it is made where the last one was. -/
theorem Deepest.decided (h : s.Deepest) (hassign : s.checkpoint.assign? x v = some s') :
    s'.Deepest := by
  have hrecord := sameRecord_of_assign? hassign
  have hlength := (decided_of_assign? hassign).length_checkpoints
  -- both counters take notice of the new checkpoint
  have hhighWater : max s.highWater (s.depth + 1) = s'.checkpoints.length := by
    rw [h.highWater_eq, s.depth_eq, hlength]
    exact Nat.max_eq_right (Nat.le_succ _)
  refine ⟨?_, ?_⟩
  · rw [hrecord.highWater_eq]
    exact hhighWater
  · rw [hrecord.stats_eq]
    exact hhighWater

theorem Deepest.narrowed (h : s.Deepest) (hnarrows : s.Narrows s')
    (hquiet : s.stats.Quiet s'.stats) : s'.Deepest := by
  refine ⟨?_, ?_⟩
  · rw [hnarrows.highWater_eq, hnarrows.checkpoints_eq]
    exact h.highWater_eq
  · rw [hquiet.maxDepth_eq, hnarrows.checkpoints_eq]
    exact h.maxDepth_eq

theorem deepest_start (net : Network) : (start net).Deepest := ⟨rfl, rfl⟩

end Session

/-! ## §2. Straight calls. -/

namespace Search

variable {net : Network} {settings : Settings} {st st' : SearchState} {var : VariableId}
  {undecided : List VariableId} {result : Propagated}

/-- What is left of every variable is supported. After a decision, this is so of the domains before
it, and a solution is left. The second branch of a node is never straight. -/
def Call.Straight (net : Network) : Call → Prop
  | .node st _ | .equal st _ _ _ => net.AllSupported st.session.dom
  | .other _ _ _ _ => False
  | .follow st var _ => (∃ D, net.AllSupported D ∧ NarrowedAt var D st.session.dom) ∧
      ∃ f, st.session.Admits net f

/-- The number of variables that a call has to decide. -/
def Call.decisions : Call → Nat
  | .node _ remaining | .equal _ remaining _ _ | .other _ remaining _ _ => remaining.length
  | .follow _ _ undecided => undecided.length

/-- The call has found a solution without a backtrack. If it began as deep as any before, the
greatest depth is now that of the last variable that it has decided. -/
structure Call.Succeeds (call : Call) (found : Bool) (st' : SearchState) : Prop where
  found : found = true
  backtracks_eq : st'.backtracks = call.state.backtracks
  maxDepth_eq : call.state.session.Deepest →
    st'.session.stats.maxDepth = call.state.session.checkpoints.length + call.decisions

/-- A call succeeds like the one inside if it counts nothing itself, and what it has to decide is
deeper by as much as the other begins deeper. -/
theorem Call.Succeeds.around {call inner : Call} {found : Bool} {st₁ st₂ : SearchState}
    (h : inner.Succeeds found st₁) (hbacktracks : inner.state.backtracks = call.state.backtracks)
    (hdeepest : call.state.session.Deepest → inner.state.session.Deepest)
    (hdepth : inner.state.session.checkpoints.length + inner.decisions =
      call.state.session.checkpoints.length + call.decisions)
    (hstats : st₂.session.stats = st₁.session.stats) : call.Succeeds found st₂ := by
  refine ⟨h.found, ?_, ?_⟩
  · show st₂.session.stats.backtracks = call.state.backtracks
    rw [hstats, ← hbacktracks]
    exact h.backtracks_eq
  · intro hcall
    rw [hstats, ← hdepth]
    exact h.maxDepth_eq (hdeepest hcall)

variable (hforest : net.Forest) (halgorithm : settings.algorithm = .maintainingArcConsistency)
  (hpolicy : settings.requeuePolicy = .symmetric)

theorem Call.Straight.choose {remaining : List VariableId} {value : Value} {chosen : SearchState}
    (h : (Call.node st remaining).Straight net) (hrewound : st.session.Rewound chosen.session) :
    (Call.equal chosen remaining var value).Straight net := by
  show net.AllSupported chosen.session.dom
  rw [funext (Session.dom_congr hrewound.domains_eq)]
  exact h

include hforest in
/-- A decision that gives a variable one of its values leaves a solution. -/
theorem Call.Straight.assign {remaining : List VariableId} {value : Value}
    (h : (Call.equal st remaining var value).Straight net)
    (hvalid : (Call.equal st remaining var value).Valid net settings) {decided : Session}
    (hassign : st.session.checkpoint.assign? var value = some decided) :
    (Call.follow (st.withSession decided) var (remaining.filter fun v => v ≠ var)).Straight
      net := by
  obtain ⟨⟨hcoherent, _⟩, hvar, hvalue⟩ := hvalid
  have hdecided := Session.decided_of_assign? hassign
  have hlt := hcoherent.lt_size hvar
  obtain ⟨f, hf⟩ := hforest.exists_admits h hcoherent.nonempty hlt hvalue
  exact ⟨⟨_, h, hdecided.narrowedAt hvalue⟩, f,
    (Session.admits_assign_iff hdecided hlt hvalue f).2 hf⟩

include hforest halgorithm hpolicy in
/-- Its propagation ends well, with arc consistent domains. -/
theorem Call.Straight.propagated (h : (Call.follow st var undecided).Straight net)
    (hvalid : (Call.follow st var undecided).Valid net settings)
    (hpropagate : settings.propagate? net st.queue st.session var undecided = some result) :
    result.consistent = true ∧
      (Call.node (st.propagated var undecided result) undecided).Straight net := by
  obtain ⟨⟨D, hD, hnarrowed⟩, f, hf⟩ := h
  have htrue : result.consistent = true := by
    by_contra hfalse
    exact (hvalid.propagated hpropagate).1.not_admits (eq_false_of_ne_true hfalse) f hf
  obtain ⟨⟨hcoherent, hready⟩, hvar⟩ := hvalid
  unfold Settings.propagate? at hpropagate
  rw [halgorithm, hpolicy] at hpropagate
  have hmaintains := ArcConsistency.maintains_propagate? hforest.simple.concordant
    (hready halgorithm) hcoherent.size_domains hvar hD hnarrowed hcoherent.nonempty hpropagate
  exact ⟨htrue, (hmaintains.arcConsistent htrue).allSupported⟩

/-! ## §3. Straight runs. -/

include hforest halgorithm hpolicy in
/-- **A straight call succeeds.** The induction is on its run, in which all calls are straight: what
would make one of them that is not, a first branch without a solution, does not happen. -/
theorem Runs.succeeds {call : Call} {found : Bool} (h : Runs net settings call found st')
    (hvalid : call.Valid net settings) (hstraight : call.Straight net) :
    call.Succeeds found st' := by
  induction h with
  | @complete st remaining hcomplete =>
    refine ⟨rfl, rfl, ?_⟩
    intro hdeepest
    have hnil : remaining = [] := hvalid.1.isComplete_iff.1 hcomplete
    subst hnil
    exact hdeepest.maxDepth_eq
  | @left st chosen st' remaining var value _ hchoose _ ih =>
    obtain ⟨hequal, hrewound, _⟩ := hvalid.choose hchoose
    refine (ih hequal (hstraight.choose hrewound)).around (counts_of_choose? hchoose).2 ?_ ?_ rfl
    · intro hdeepest
      show chosen.session.Deepest
      rw [(of_choose? hchoose).1.1]
      exact ⟨hdeepest.highWater_eq, hdeepest.maxDepth_eq⟩
    · exact congrArg (List.length · + remaining.length) hrewound.checkpoints_eq
  -- the first branch succeeds, so there is no second one
  | right _ hchoose _ _ ihleft _ =>
    obtain ⟨hequal, hrewound, _⟩ := hvalid.choose hchoose
    cases (ihleft hequal (hstraight.choose hrewound)).found
  | @equal st st' decided restored session remaining var value _ hassign _ hrestore hunassign ih =>
    have hchecked := (Session.decided_of_assign? hassign).length_checkpoints
    have hfilter := hvalid.1.1.length_filter_ne hvalid.2.1
    refine (ih (hvalid.assign hassign) (hstraight.assign hforest hvalid hassign)).around
      (sameCounts_of_assign? hassign).backtracks_eq (fun h => h.decided hassign) ?_
      (Session.sameRecord_of_withdrawal hrestore hunassign).stats_eq
    show decided.checkpoints.length + (remaining.filter fun v => v ≠ var).length =
      st.session.checkpoints.length + remaining.length
    omega
  | emptied _ _ _ => exact hstraight.elim
  | other _ _ _ _ _ _ => exact hstraight.elim
  -- on a forest the propagation of a supported value wipes out no domain
  | refuted hpropagate hfalse =>
    rw [(hstraight.propagated hforest halgorithm hpolicy hvalid hpropagate).1] at hfalse
    cases hfalse
  | @followed st _ var undecided result _ hpropagate htrue _ ih =>
    obtain ⟨hpropagates, _, hnode⟩ := hvalid.propagated hpropagate
    obtain ⟨_, hnext⟩ := hstraight.propagated hforest halgorithm hpolicy hvalid hpropagate
    refine (ih (hnode htrue) hnext).around (sameCounts_propagated hpropagate).backtracks_eq
      (fun h => h.narrowed hpropagates.narrows (Settings.quiet_of_propagate? hpropagate)) ?_ rfl
    exact congrArg (List.length · + undecided.length) hpropagates.narrows.checkpoints_eq

include hforest halgorithm hpolicy in
/-- The first node is straight when there is one. -/
theorem straight_prepared {queue : ArcQueue} (journal : Journal)
    (hprepare : settings.prepare? net queue (Session.start net) = some result)
    (htrue : result.consistent = true) :
    (Call.node (prepared ⟨Session.start net, queue, journal⟩ result)
      (List.range net.size)).Straight net := by
  unfold Settings.prepare? at hprepare
  rw [halgorithm, hpolicy] at hprepare
  have hmaintains := ArcConsistency.maintains_establish? hforest.simple.concordant
    ArcQueue.idle_empty (coherent_start net).size_domains hprepare
  exact (hmaintains.arcConsistent htrue).allSupported

end Search

/-! ## §4. Whole searches. -/

/-- What the outcome of a search over `size` variables is when it does not backtrack: the search
fails before the first node, or it goes straight down to a solution. -/
def Outcome.GoesStraight (outcome : Outcome) (size : Nat) (consistent : Bool) : Prop :=
  (consistent = false ∧ outcome.solution = none ∧ outcome.stats.nodes = 0) ∨
    (consistent = true ∧ outcome.solution.isSome = true ∧ outcome.stats.backtracks = 0 ∧
      outcome.stats.nodes = size + 1 ∧ outcome.stats.maxDepth = size)

open Search in
theorem Search.Ends.goesStraight {net : Network} {settings : Settings} (hforest : net.Forest)
    (halgorithm : settings.algorithm = .maintainingArcConsistency)
    (hpolicy : settings.requeuePolicy = .symmetric) {queue : ArcQueue} {journal : Journal}
    {st' : SearchState} (h : Ends net settings ⟨Session.start net, queue, journal⟩ st') :
    ∃ result, settings.prepare? net queue (Session.start net) = some result ∧
      Outcome.GoesStraight ⟨st'.session.solution, st'.session.stats⟩ net.size
        result.consistent := by
  cases h with
  | refuted hprepare hfalse =>
    have hpropagates := (of_prepare? journal hprepare).1
    exact ⟨_, hprepare, Or.inl ⟨hfalse, hpropagates.narrows.solution_eq,
      (counts_prepared journal hprepare).1⟩⟩
  | @explored result found st'' hprepare htrue hruns =>
    obtain ⟨hpropagates, hnode⟩ := of_prepare? journal hprepare
    obtain ⟨hnodes, hbacktracks⟩ := counts_prepared journal hprepare
    obtain ⟨rfl, hnone, hmaxDepth⟩ := hruns.succeeds hforest halgorithm hpolicy (hnode htrue)
      (straight_prepared hforest halgorithm hpolicy journal hprepare htrue)
    obtain ⟨f, _, hsolution⟩ := hruns.answers (hnode htrue)
    -- without backtracks the balance leaves one node per variable and the last one
    have hbalanced : st''.nodes + _ = _ + st''.backtracks + ((List.range net.size).length + 1) :=
      hruns.balanced (hnode htrue)
    have hdepth := hmaxDepth ((Session.deepest_start net).narrowed hpropagates.narrows
      (Settings.quiet_of_prepare? hprepare))
    rw [Call.state, hbacktracks] at hnone
    rw [Call.state, hnodes, hbacktracks, hnone, List.length_range] at hbalanced
    have hsome : st''.session.solution.isSome = true :=
      Option.isSome_iff_exists.2 ⟨_, hsolution⟩
    refine ⟨result, hprepare, Or.inr ⟨htrue, hsome, hnone, ?_, ?_⟩⟩
    · show st''.nodes = net.size + 1
      omega
    · show st''.session.stats.maxDepth = net.size
      rw [hdepth]
      show result.session.checkpoints.length + (List.range net.size).length = net.size
      rw [hpropagates.narrows.checkpoints_eq, List.length_range]
      exact Nat.zero_add _

/-- **Maintained arc consistency does not backtrack on forests.** Let the constraint graph of a
network have no cycle, and no two constraints bind the same two variables. Whatever the orderings
and the past of the engine are, an engine that maintains arc consistency with the symmetric policy
solves when it is started. Either the propagation before the first decision fails, and there is no
solution and no node; or there is a solution, without a backtrack, after one node for each variable
and one for the solution, and the greatest depth is the number of variables. -/
theorem Engine.no_backtracks_on_forest {net : Network} (hforest : net.Forest)
    (varOrder : VariableOrdering) (valueOrder : ValueOrdering) (queue : ArcQueue)
    (journal : Journal) (session : Option Session) :
    ∃ result outcome engine,
      Settings.prepare? ⟨.maintainingArcConsistency, varOrder, valueOrder, .symmetric⟩ net queue
        (Session.start net) = some result ∧
      (Engine.start ⟨net, ⟨.maintainingArcConsistency, varOrder, valueOrder, .symmetric⟩, queue,
        journal, session⟩).solve = .ok (outcome, engine) ∧
      outcome.GoesStraight net.size result.consistent := by
  obtain ⟨st, hends, hsolve⟩ := Engine.exists_solve
    ⟨net, ⟨.maintainingArcConsistency, varOrder, valueOrder, .symmetric⟩, queue, journal, session⟩
  obtain ⟨result, hprepare, hstraight⟩ := hends.goesStraight hforest rfl rfl
  exact ⟨result, _, _, hprepare, hsolve, hstraight⟩

open ArcConsistency in
/-- Three variables in a row are a forest, whichever way their constraints are stored. -/
theorem rising_forest : rising.Forest where
  simple := by
    unfold Network.Simple
    decide
  acyclic := by
    refine Network.isAcyclic_of_smaller_unique (n := 3) ?_
    show ∀ x y z : Fin 3, rising.Adjacent x y → rising.Adjacent x z → y < x → z < x → y = z
    unfold Network.Adjacent
    decide

open ArcConsistency in
/-- The three rising variables with the smallest domain and the greatest value first. -/
theorem rising_goes_straight :
    rising.Forest ∧ ∃ result outcome engine,
      Settings.prepare? ⟨.maintainingArcConsistency, .minimumRemainingValues, .descending,
        .symmetric⟩ rising ∅ (Session.start rising) = some result ∧
      (Engine.start ⟨rising, ⟨.maintainingArcConsistency, .minimumRemainingValues, .descending,
        .symmetric⟩, ∅, .start 0, none⟩).solve = .ok (outcome, engine) ∧
      outcome.GoesStraight 3 result.consistent :=
  ⟨rising_forest, Engine.no_backtracks_on_forest rising_forest .minimumRemainingValues
    .descending ∅ (.start 0) none⟩

end ConstraintNet
