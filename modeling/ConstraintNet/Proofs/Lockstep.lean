/-
  ConstraintNet.Proofs.Lockstep
  ─────────────────────────────
  **TWO SEARCHES IN STEP.**

  A search sees of its network what its propagation shows it: a verdict and
  the domains that are left.  Two searches under the same settings, be it of
  two networks or of one, make the same decisions in the same order when
  these agree.  The counters of the two need not agree in full; `same` says
  how far they do.

  `Lockstep` is what is asked of the two propagations, once before the first
  decision and once after every decision.  From there

      `Session.Twins`   — two sessions that a search cannot tell apart
      `Lockstep.runs`   — calls that begin with twins come to the same
                          verdict, and count alike
      `Lockstep.ends`   — so do two whole searches, and they report the same
                          solution
-/
import ConstraintNet.Proofs.Counters
import ConstraintNet.Proofs.SearchRuns

namespace ConstraintNet

variable {same : Statistics → Statistics → Prop}

/-! ## §1. Sessions that a search cannot tell apart. -/

namespace Session

/-- What `s'` has counted and found agrees with `s`. -/
structure Agrees (same : Statistics → Statistics → Prop) (s s' : Session) : Prop where
  stats : same s.stats s'.stats
  highWater_eq : s'.highWater = s.highWater
  solution_eq : s'.solution = s.solution
  finished_eq : s'.finished = s.finished

/-- The two sessions differ in their counters at most, and these agree. -/
structure Twins (same : Statistics → Statistics → Prop) (s s' : Session) : Prop
    extends s.Rewound s', s.Agrees same s'

variable {s s' t t' : Session} {x : VariableId} {v : Value}

/-- Steps that count nothing keep two sessions in agreement. -/
theorem Agrees.of_sameRecord (h : s.Agrees same s') (ht : s.SameRecord t)
    (ht' : s'.SameRecord t') : t.Agrees same t' where
  stats := by
    rw [ht.stats_eq, ht'.stats_eq]
    exact h.stats
  highWater_eq := ht'.highWater_eq.trans (h.highWater_eq.trans ht.highWater_eq.symm)
  solution_eq := ht'.solution_eq.trans (h.solution_eq.trans ht.solution_eq.symm)
  finished_eq := ht'.finished_eq.trans (h.finished_eq.trans ht.finished_eq.symm)

/-- So does counting alike on both sides. -/
theorem Agrees.withStats (h : s.Agrees same s') {stats stats' : Statistics}
    (hstats : same stats stats') : (s.withStats stats).Agrees same (s'.withStats stats') :=
  ⟨hstats, h.highWater_eq, h.solution_eq, h.finished_eq⟩

/-- So do propagations that count alike. -/
theorem Agrees.of_narrows (h : s.Agrees same s') (ht : s.Narrows t) (ht' : s'.Narrows t')
    (hstats : same t.stats t'.stats) : t.Agrees same t' where
  stats := hstats
  highWater_eq := ht'.highWater_eq.trans (h.highWater_eq.trans ht.highWater_eq.symm)
  solution_eq := ht'.solution_eq.trans (h.solution_eq.trans ht.solution_eq.symm)
  finished_eq := ht'.finished_eq.trans (h.finished_eq.trans ht.finished_eq.symm)

/-- Propagations that leave the same domains and count alike leave twins. -/
theorem Twins.of_narrows (h : s.Twins same s') (ht : s.Narrows t) (ht' : s'.Narrows t')
    (hdomains : t'.domains = t.domains) (hstats : same t.stats t'.stats) : t.Twins same t' := by
  refine ⟨⟨⟨?_, ?_⟩, hdomains⟩, h.toAgrees.of_narrows ht ht' hstats⟩
  · exact ht'.assignment_eq.trans (h.assignment_eq.trans ht.assignment_eq.symm)
  · exact ht'.checkpoints_eq.trans (h.checkpoints_eq.trans ht.checkpoints_eq.symm)

/-- Twins that are rewound are laid out alike. -/
theorem Rewound.of_rewound (h : s.Rewound s') (ht : s.Rewound t) (ht' : s'.Rewound t') :
    t.Rewound t' :=
  ht.symm.trans (h.trans ht')

/-- Equal stacks of checkpoints are equally deep. -/
theorem Rewound.depth_eq (h : s.Rewound s') : s'.depth = s.depth := by
  rw [s'.depth_eq, s.depth_eq, h.checkpoints_eq]

/-- And equal assignments equally complete. -/
theorem Rewound.isComplete_eq (h : s.Rewound s') : s'.isComplete = s.isComplete := by
  unfold isComplete
  rw [h.assignment_eq]

/-- The same decision about twins leaves them laid out alike. -/
theorem Rewound.decided (h : s.Rewound s') (ht : s.Decided x v t) (ht' : s'.Decided x v t') :
    t.Rewound t' := by
  refine ⟨⟨?_, ?_⟩, ?_⟩
  · rw [ht'.assignment_eq, ht.assignment_eq, h.assignment_eq]
  · rw [ht'.checkpoints_eq, ht.checkpoints_eq, h.domains_eq, h.checkpoints_eq]
  · rw [ht'.domains_eq, ht.domains_eq, h.domains_eq]

/-- The same decision against a value leads from equal sessions to equal ones. -/
theorem Rewound.excluded (h : s.Rewound s') (ht : s.Excluded x v t) (ht' : s'.Excluded x v t') :
    t.Rewound t' := by
  refine ⟨⟨?_, ?_⟩, ?_⟩
  · rw [ht'.unwound.assignment_eq, ht.unwound.assignment_eq, h.assignment_eq]
  · rw [ht'.unwound.checkpoints_eq, ht.unwound.checkpoints_eq, h.checkpoints_eq]
  · rw [ht'.domains_eq, ht.domains_eq, h.domains_eq, dom_congr h.domains_eq]

end Session

namespace Search

/-! ## §2. Calls that begin with twins. -/

/-- The two calls are about the same and begin with twins. `Fit` is what the propagation needs of
the domains of a node; those of a decision that is still to be propagated have come from fit
ones. -/
inductive Call.Twins (same : Statistics → Statistics → Prop)
    (Fit : (VariableId → Domain) → Prop) : Call → Call → Prop where
  | node {st st' : SearchState} {remaining : List VariableId}
      (htwins : st.session.Twins same st'.session) (hfit : Fit st.session.dom) :
      Call.Twins same Fit (.node st remaining) (.node st' remaining)
  | equal {st st' : SearchState} {remaining : List VariableId} {var : VariableId} {value : Value}
      (htwins : st.session.Twins same st'.session) (hfit : Fit st.session.dom) :
      Call.Twins same Fit (.equal st remaining var value) (.equal st' remaining var value)
  | other {st st' : SearchState} {remaining : List VariableId} {var : VariableId} {value : Value}
      (htwins : st.session.Twins same st'.session) (hfit : Fit st.session.dom) :
      Call.Twins same Fit (.other st remaining var value) (.other st' remaining var value)
  | follow {st st' : SearchState} {var : VariableId} {undecided : List VariableId}
      {D : VariableId → Domain} (htwins : st.session.Twins same st'.session) (hfit : Fit D)
      (hnarrowed : NarrowedAt var D st.session.dom) :
      Call.Twins same Fit (.follow st var undecided) (.follow st' var undecided)

/-- What two propagations have in common, whose verdicts and counters are given with the domains. -/
structure InStep (same : Statistics → Statistics → Prop) (Fit : (VariableId → Domain) → Prop)
    (result result' : Propagated) : Prop where
  consistent_eq : result'.consistent = result.consistent
  stats : same result.session.stats result'.session.stats
  domains_eq : result.consistent = true → result'.session.domains = result.session.domains
  fit : result.consistent = true → Fit result.session.dom

/-- What two searches need to go in step: counters that agree do so after any of the counts that a
search makes itself, and the propagations have their results in common. -/
structure Lockstep (net net' : Network) (settings : Settings)
    (same : Statistics → Statistics → Prop) (Fit : (VariableId → Domain) → Prop) : Prop where
  node {stats stats' : Statistics} : same stats stats' → same stats.countNode stats'.countNode
  backtrack {stats stats' : Statistics} :
    same stats stats' → same stats.countBacktrack stats'.countBacktrack
  deepen {stats stats' : Statistics} (depth : Nat) : same stats stats' →
    same { stats with maxDepth := depth } { stats' with maxDepth := depth }
  start {queue queue' : ArcQueue} {result result' : Propagated} :
    settings.prepare? net queue (Session.start net) = some result →
    settings.prepare? net' queue' (Session.start net') = some result' →
    InStep same Fit result result'
  follow {st st' : SearchState} {var : VariableId} {undecided : List VariableId}
    {result result' : Propagated} :
    (Call.follow st var undecided).Twins same Fit (.follow st' var undecided) →
    (Call.follow st var undecided).Valid net settings →
    (Call.follow st' var undecided).Valid net' settings →
    settings.propagate? net st.queue st.session var undecided = some result →
    settings.propagate? net' st'.queue st'.session var undecided = some result' →
    InStep same Fit result result'

namespace Lockstep

variable {net net' : Network} {settings : Settings} {Fit : (VariableId → Domain) → Prop}
  (hstep : Lockstep net net' settings same Fit)
  {st st' chosen chosen' between between' : SearchState} {remaining : List VariableId}
  {var var' : VariableId} {value value' : Value}

include hstep

/-! ## §3. One step of each call. -/

/-- Twins branch on the same variable and value. -/
theorem choose (h : (Call.node st remaining).Twins same Fit (.node st' remaining))
    (hchoose : choose? settings (st.mapStats Statistics.countNode) remaining =
      some (some (var, value), chosen))
    (hchoose' : choose? settings (st'.mapStats Statistics.countNode) remaining =
      some (some (var', value'), chosen')) :
    (var' = var ∧ value' = value) ∧
      (Call.equal chosen remaining var value).Twins same Fit
        (.equal chosen' remaining var value) := by
  obtain ⟨⟨hsession, _⟩, hvar, hvalue⟩ := of_choose? hchoose
  obtain ⟨⟨hsession', _⟩, hvar', hvalue'⟩ := of_choose? hchoose'
  cases h with
  | node htwins hfit =>
    have hdomains : (st'.mapStats Statistics.countNode).session.domains =
      (st.mapStats Statistics.countNode).session.domains := htwins.domains_eq
    rw [VariableOrdering.select?_congr _ hdomains, hvar] at hvar'
    obtain rfl := Option.some.inj (Option.some.inj hvar')
    rw [Session.dom_congr hdomains, hvalue] at hvalue'
    obtain rfl := Option.some.inj hvalue'
    refine ⟨⟨rfl, rfl⟩, .equal ?_ ?_⟩
    · rw [hsession, hsession']
      exact ⟨⟨⟨htwins.assignment_eq, htwins.checkpoints_eq⟩, htwins.domains_eq⟩,
        htwins.toAgrees.withStats (hstep.node htwins.stats)⟩
    · rw [hsession]
      exact hfit

omit hstep in
/-- After first branches that count alike, twins begin their second ones. -/
theorem second (h : (Call.equal chosen remaining var value).Twins same Fit
      (.equal chosen' remaining var value))
    (hleaves : chosen.session.Rewound between.session)
    (hleaves' : chosen'.session.Rewound between'.session)
    (hagrees : between.session.Agrees same between'.session) :
    (Call.other between remaining var value).Twins same Fit
      (.other between' remaining var value) := by
  cases h with
  | equal htwins hfit =>
    refine .other ⟨htwins.toRewound.of_rewound hleaves hleaves', hagrees⟩ ?_
    rw [funext (Session.dom_congr hleaves.domains_eq)]
    exact hfit

/-- A checkpoint counts the same depth on both sides. -/
theorem checkpoint {s s' : Session} (h : s.Twins same s') :
    s.checkpoint.Agrees same s'.checkpoint := by
  have hwater : max s'.highWater (s'.depth + 1) = max s.highWater (s.depth + 1) := by
    rw [h.highWater_eq, h.toRewound.depth_eq]
  refine ⟨?_, hwater, h.solution_eq, h.finished_eq⟩
  show same { s.stats with maxDepth := max s.highWater (s.depth + 1) }
    { s'.stats with maxDepth := max s'.highWater (s'.depth + 1) }
  rw [hwater]
  exact hstep.deepen _ h.stats

/-- Twins that decide for the same value go on as twins. -/
theorem assign (h : (Call.equal st remaining var value).Twins same Fit
      (.equal st' remaining var value)) (hvalue : value ∈ st.session.dom var)
    {decided decided' : Session}
    (hassign : st.session.checkpoint.assign? var value = some decided)
    (hassign' : st'.session.checkpoint.assign? var value = some decided') :
    (Call.follow (st.withSession decided) var (remaining.filter fun v => v ≠ var)).Twins same Fit
      (.follow (st'.withSession decided') var (remaining.filter fun v => v ≠ var)) := by
  cases h with
  | equal htwins hfit =>
    have hdecided := Session.decided_of_assign? hassign
    have hagrees := (hstep.checkpoint htwins).of_sameRecord
      (Session.sameRecord_of_assign? hassign) (Session.sameRecord_of_assign? hassign')
    exact .follow
      ⟨htwins.toRewound.decided hdecided (Session.decided_of_assign? hassign'), hagrees⟩ hfit
      (hdecided.narrowedAt hvalue)

omit hstep in
/-- Twins that lose the same value are twins. -/
theorem remove {s s' narrowed narrowed' : Session} {removed removed' : Bool}
    (h : s.Twins same s') (hremove : s.removeValue? var value = some (removed, narrowed))
    (hremove' : s'.removeValue? var value = some (removed', narrowed')) :
    narrowed.Twins same narrowed' :=
  ⟨h.toRewound.excluded (Session.excluded_of_removeValue? hremove)
      (Session.excluded_of_removeValue? hremove'),
    h.toAgrees.of_sameRecord (Session.sameRecord_of_removeValue? hremove)
      (Session.sameRecord_of_removeValue? hremove')⟩

/-- And they go on as twins after a decision against it. -/
theorem exclude (h : (Call.other st remaining var value).Twins same Fit
      (.other st' remaining var value)) {narrowed narrowed' : Session} {removed removed' : Bool}
    (hremove : st.session.removeValue? var value = some (removed, narrowed))
    (hremove' : st'.session.removeValue? var value = some (removed', narrowed')) :
    (Call.follow (st.withSession narrowed.checkpoint) var remaining).Twins same Fit
      (.follow (st'.withSession narrowed'.checkpoint) var remaining) := by
  cases h with
  | other htwins hfit =>
    have hnarrowed := remove htwins hremove hremove'
    refine .follow ⟨⟨⟨hnarrowed.assignment_eq, ?_⟩, hnarrowed.domains_eq⟩,
      hstep.checkpoint hnarrowed⟩ hfit (Session.excluded_of_removeValue? hremove).narrowedAt
    show narrowed'.domains :: narrowed'.checkpoints = narrowed.domains :: narrowed.checkpoints
    rw [hnarrowed.domains_eq, hnarrowed.checkpoints_eq]

omit hstep in
/-- When the same propagation has gone well for twins, their nodes are twins again. -/
theorem propagated {undecided : List VariableId} {result result' : Propagated}
    (h : (Call.follow st var undecided).Twins same Fit (.follow st' var undecided))
    (hresult : InStep same Fit result result') (htrue : result.consistent = true)
    (hnarrows : st.session.Narrows result.session)
    (hnarrows' : st'.session.Narrows result'.session) :
    (Call.node (st.propagated var undecided result) undecided).Twins same Fit
      (.node (st'.propagated var undecided result') undecided) := by
  cases h with
  | follow htwins _ _ =>
    have hnode := htwins.of_narrows hnarrows hnarrows' (hresult.domains_eq htrue) hresult.stats
    exact .node hnode (hresult.fit htrue)

/-! ## §4. Whole runs. -/

/-- **Calls that begin with twins come to the same verdict and count alike.** The induction is on
the first run; the second has no choice but to take the same turn at every step. -/
theorem runs {call call' : Call} {found found' : Bool} {e e' : SearchState}
    (h : Runs net settings call found e) (hvalid : call.Valid net settings)
    (htwins : call.Twins same Fit call') (hvalid' : call'.Valid net' settings)
    (h' : Runs net' settings call' found' e') :
    found' = found ∧ e.session.Agrees same e'.session := by
  induction h generalizing call' found' e' with
  | @complete st remaining hcomplete =>
    cases htwins with
    | @node _ st' _ hsessions _ =>
      have hcomplete' := hsessions.toRewound.isComplete_eq.trans hcomplete
      cases h' with
      | complete _ =>
        refine ⟨rfl, hstep.node hsessions.stats, hsessions.highWater_eq, ?_,
          hsessions.finished_eq⟩
        show st'.session.completeAssignment? = st.session.completeAssignment?
        unfold Session.completeAssignment?
        rw [hsessions.toRewound.isComplete_eq, hsessions.assignment_eq]
      | left hopen => exact absurd hcomplete' (Bool.eq_false_iff.1 hopen)
      | right hopen => exact absurd hcomplete' (Bool.eq_false_iff.1 hopen)
  | left hopen hchoose _ ih =>
    have hcalls := htwins
    cases htwins with
    | node hsessions _ =>
      have hopen' := hsessions.toRewound.isComplete_eq.trans hopen
      cases h' with
      | complete hcomplete => exact absurd hcomplete (Bool.eq_false_iff.1 hopen')
      | left _ hchoose' hleft' =>
        obtain ⟨⟨rfl, rfl⟩, hfirst⟩ := hstep.choose hcalls hchoose hchoose'
        exact ih (hvalid.choose hchoose).1 hfirst (hvalid'.choose hchoose').1 hleft'
      -- its first branch finds what its twin finds, so the second run needs no other one
      | right _ hchoose' hleft' _ =>
        obtain ⟨⟨rfl, rfl⟩, hfirst⟩ := hstep.choose hcalls hchoose hchoose'
        have hfound := (ih (hvalid.choose hchoose).1 hfirst (hvalid'.choose hchoose').1 hleft').1
        cases hfound
  | right hopen hchoose hleft _ ihleft ihright =>
    have hcalls := htwins
    have hequal := (hvalid.choose hchoose).1
    cases htwins with
    | node hsessions _ =>
      have hopen' := hsessions.toRewound.isComplete_eq.trans hopen
      cases h' with
      | complete hcomplete => exact absurd hcomplete (Bool.eq_false_iff.1 hopen')
      | left _ hchoose' hleft' =>
        obtain ⟨⟨rfl, rfl⟩, hfirst⟩ := hstep.choose hcalls hchoose hchoose'
        have hfound := (ihleft hequal hfirst (hvalid'.choose hchoose').1 hleft').1
        cases hfound
      | right _ hchoose' hleft' hright' =>
        obtain ⟨⟨rfl, rfl⟩, hfirst⟩ := hstep.choose hcalls hchoose hchoose'
        have hequal' := (hvalid'.choose hchoose').1
        -- both first branches failed and are unwound, so the other ones begin with twins again
        have hagrees := (ihleft hequal hfirst hequal' hleft').2
        obtain ⟨hleaves, hready⟩ := hleft.leaves hequal
        obtain ⟨hleaves', hready'⟩ := hleft'.leaves hequal'
        exact ihright (hequal.other hleaves hready) (second hfirst hleaves hleaves' hagrees)
          (hequal'.other hleaves' hready') hright'
  | equal hassign _ hrestore hunassign ih =>
    have hcalls := htwins
    cases htwins with
    | equal _ _ =>
      cases h' with
      | equal hassign' hfollow' hrestore' hunassign' =>
        obtain ⟨hfound, hagrees⟩ := ih (hvalid.assign hassign)
          (hstep.assign hcalls hvalid.2.2 hassign hassign') (hvalid'.assign hassign') hfollow'
        exact ⟨hfound, hagrees.of_sameRecord (Session.sameRecord_of_withdrawal hrestore hunassign)
          (Session.sameRecord_of_withdrawal hrestore' hunassign')⟩
  | emptied hremove hempty hinsert =>
    cases htwins with
    | other hsessions _ =>
      cases h' with
      | emptied hremove' _ hinsert' =>
        have hnarrowed := remove hsessions hremove hremove'
        have hcounted := hnarrowed.toAgrees.withStats (hstep.backtrack hnarrowed.stats)
        exact ⟨rfl, hcounted.of_sameRecord (Session.sameRecord_of_insertValue? hinsert)
          (Session.sameRecord_of_insertValue? hinsert')⟩
      -- the same value taken from the same domain leaves nothing on either side
      | other hremove' hsome' =>
        obtain ⟨v, hv⟩ := hsome'
        rw [Session.dom_congr (remove hsessions hremove hremove').domains_eq] at hv
        exact absurd hv (hempty v)
  | other hremove hsome _ hrestore hinsert ih =>
    have hcalls := htwins
    cases htwins with
    | other hsessions _ =>
      cases h' with
      | emptied hremove' hempty' _ =>
        obtain ⟨v, hv⟩ := hsome
        rw [← Session.dom_congr (remove hsessions hremove hremove').domains_eq] at hv
        exact absurd hv (hempty' v)
      | other hremove' hsome' hfollow' hrestore' hinsert' =>
        obtain ⟨hfound, hagrees⟩ := ih (hvalid.exclude hremove hsome)
          (hstep.exclude hcalls hremove hremove') (hvalid'.exclude hremove' hsome') hfollow'
        exact ⟨hfound, hagrees.of_sameRecord (Session.sameRecord_of_return hrestore hinsert)
          (Session.sameRecord_of_return hrestore' hinsert')⟩
  | refuted hpropagate hfalse =>
    have hcalls := htwins
    cases htwins with
    | follow hsessions _ _ =>
      cases h' with
      | refuted hpropagate' hfalse' =>
        have hresult := hstep.follow hcalls hvalid hvalid' hpropagate hpropagate'
        have hnarrows := (hvalid.propagated hpropagate).1.narrows
        have hnarrows' := (hvalid'.propagated hpropagate').1.narrows
        have hagrees := hsessions.toAgrees.of_narrows hnarrows hnarrows' hresult.stats
        exact ⟨rfl, hagrees.withStats (hstep.backtrack hresult.stats)⟩
      | followed hpropagate' htrue' _ =>
        have hresult := hstep.follow hcalls hvalid hvalid' hpropagate hpropagate'
        rw [hresult.consistent_eq, hfalse] at htrue'
        cases htrue'
  | followed hpropagate htrue _ ih =>
    have hcalls := htwins
    cases htwins with
    | follow _ _ _ =>
      cases h' with
      | refuted hpropagate' hfalse' =>
        have hresult := hstep.follow hcalls hvalid hvalid' hpropagate hpropagate'
        rw [hresult.consistent_eq, htrue] at hfalse'
        cases hfalse'
      | followed hpropagate' htrue' hnode' =>
        have hresult := hstep.follow hcalls hvalid hvalid' hpropagate hpropagate'
        obtain ⟨hpropagates, _, hnext⟩ := hvalid.propagated hpropagate
        obtain ⟨hpropagates', _, hnext'⟩ := hvalid'.propagated hpropagate'
        exact ih (hnext htrue)
          (propagated hcalls hresult htrue hpropagates.narrows hpropagates'.narrows)
          (hnext' htrue') hnode'

/-- What the propagations of two fresh sessions leave alone is the same on both sides. -/
theorem agrees_prepared {queue queue' : ArcQueue} {result result' : Propagated}
    (hsize : net'.size = net.size)
    (hprepare : settings.prepare? net queue (Session.start net) = some result)
    (hprepare' : settings.prepare? net' queue' (Session.start net') = some result') :
    result.session.Unwound result'.session ∧ result.session.Agrees same result'.session := by
  have hnarrows := (of_prepare? (Journal.start 0) hprepare).1.narrows
  have hnarrows' := (of_prepare? (Journal.start 0) hprepare').1.narrows
  have hassignment : (Session.start net').assignment = (Session.start net).assignment :=
    congrArg (fun size => Array.replicate size none) hsize
  refine ⟨⟨?_, ?_⟩, (hstep.start hprepare hprepare').stats, ?_, ?_, ?_⟩
  · exact hnarrows'.assignment_eq.trans (hassignment.trans hnarrows.assignment_eq.symm)
  · exact hnarrows'.checkpoints_eq.trans hnarrows.checkpoints_eq.symm
  · exact hnarrows'.highWater_eq.trans hnarrows.highWater_eq.symm
  · exact hnarrows'.solution_eq.trans hnarrows.solution_eq.symm
  · exact hnarrows'.finished_eq.trans hnarrows.finished_eq.symm

/-- When both preparations end well, the first nodes are twins. -/
theorem firstNode {queue queue' : ArcQueue} {journal journal' : Journal}
    {result result' : Propagated} (hsize : net'.size = net.size)
    (hprepare : settings.prepare? net queue (Session.start net) = some result)
    (hprepare' : settings.prepare? net' queue' (Session.start net') = some result')
    (htrue : result.consistent = true) :
    (Call.node (prepared ⟨Session.start net, queue, journal⟩ result) remaining).Twins same Fit
      (.node (prepared ⟨Session.start net', queue', journal'⟩ result') remaining) := by
  obtain ⟨hunwound, hagrees⟩ := hstep.agrees_prepared hsize hprepare hprepare'
  have hresult := hstep.start hprepare hprepare'
  have htwins : result.session.Twins same result'.session :=
    ⟨⟨hunwound, hresult.domains_eq htrue⟩, hagrees⟩
  exact .node htwins (hresult.fit htrue)

/-- **Two whole searches report the same solution and count alike.** -/
theorem ends {queue queue' : ArcQueue} {journal journal' : Journal} {e e' : SearchState}
    (hsize : net'.size = net.size)
    (h : Ends net settings ⟨Session.start net, queue, journal⟩ e)
    (h' : Ends net' settings ⟨Session.start net', queue', journal'⟩ e') :
    e'.session.solution = e.session.solution ∧ same e.session.stats e'.session.stats := by
  cases h with
  | refuted hprepare hfalse =>
    cases h' with
    | refuted hprepare' _ =>
      have hagrees := (hstep.agrees_prepared hsize hprepare hprepare').2
      exact ⟨hagrees.solution_eq, hagrees.stats⟩
    | explored hprepare' htrue' _ =>
      -- the two preparations have one verdict
      rw [(hstep.start hprepare hprepare').consistent_eq, hfalse] at htrue'
      cases htrue'
  | explored hprepare htrue hruns =>
    cases h' with
    | refuted hprepare' hfalse' =>
      rw [(hstep.start hprepare hprepare').consistent_eq, htrue] at hfalse'
      cases hfalse'
    | explored hprepare' htrue' hruns' =>
      have hvalid := (of_prepare? journal hprepare).2 htrue
      have hvalid' := (of_prepare? journal' hprepare').2 htrue'
      rw [hsize] at hruns' hvalid'
      have hends := (hstep.runs hruns hvalid (hstep.firstNode hsize hprepare hprepare' htrue)
        hvalid' hruns').2
      exact ⟨hends.solution_eq, hends.stats⟩

end Lockstep

end Search

end ConstraintNet
