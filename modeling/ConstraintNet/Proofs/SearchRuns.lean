/-
  ConstraintNet.Proofs.SearchRuns
  ───────────────────────────────
  **THE RUNS OF A SEARCH, CALL BY CALL.**

  A search is made of four kinds of `Call`: nodes, the two branches of a
  node, and the propagation of a decision with what follows it.  `Runs` says
  how each of them can end, one rule for each way, and does not mention the
  allowance.  A call that is `Valid` starts from a coherent session:

      `Runs.leaves`      — a valid call leaves the session as it found it,
                           solution and counters apart
      `exists_explore?`  — a valid node with a sufficient allowance has a run,
                           and the search is that run
      `exists_search?`   — so has a whole search of a fresh session

  Statements about all searches are inductions on `Runs`, in which the
  lemmas of §2 say that the inner calls are valid again.
-/
import ConstraintNet.Proofs.Choice

namespace ConstraintNet

/-- The state after the propagation of a decision about `var`. -/
def SearchState.propagated (st : SearchState) (var : VariableId) (undecided : List VariableId)
    (result : Propagated) : SearchState :=
  { st with queue := result.queue, session := result.session : SearchState }.note
    (.propagated var undecided result.consistent result.session.domains result.session.depth
      result.session.stats.revisions)

namespace Search

/-! ## §1. Calls and their runs. -/

/-- A part of a search that begins in some state. -/
inductive Call where
  /-- A node over the variables that remain. -/
  | node (st : SearchState) (remaining : List VariableId)
  /-- The branch of a node in which `var` has the value. -/
  | equal (st : SearchState) (remaining : List VariableId) (var : VariableId) (value : Value)
  /-- The branch of a node in which `var` does not have the value. -/
  | other (st : SearchState) (remaining : List VariableId) (var : VariableId) (value : Value)
  /-- The propagation of a decision about `var`, and the node that it leads to. -/
  | follow (st : SearchState) (var : VariableId) (undecided : List VariableId)

/-- The state in which a call begins. -/
def Call.state : Call → SearchState
  | .node st _ => st
  | .equal st _ _ _ => st
  | .other st _ _ _ => st
  | .follow st _ _ => st

/-- The call ends in this state, with a solution or without. A node that is not complete
branches. -/
inductive Runs (net : Network) (settings : Settings) : Call → Bool → SearchState → Prop where
  | complete {st : SearchState} {remaining : List VariableId}
      (hcomplete : st.session.isComplete = true) :
      Runs net settings (.node st remaining) true
        ((st.mapStats Statistics.countNode).withSession
          (st.mapStats Statistics.countNode).session.recordSolution)
  | left {st chosen st' : SearchState} {remaining : List VariableId} {var : VariableId}
      {value : Value} (hopen : st.session.isComplete = false)
      (hchoose : choose? settings (st.mapStats Statistics.countNode) remaining =
        some (some (var, value), chosen))
      (hleft : Runs net settings (.equal chosen remaining var value) true st') :
      Runs net settings (.node st remaining) true st'
  | right {st chosen between st' : SearchState} {remaining : List VariableId} {var : VariableId}
      {value : Value} {found : Bool} (hopen : st.session.isComplete = false)
      (hchoose : choose? settings (st.mapStats Statistics.countNode) remaining =
        some (some (var, value), chosen))
      (hleft : Runs net settings (.equal chosen remaining var value) false between)
      (hright : Runs net settings (.other between remaining var value) found st') :
      Runs net settings (.node st remaining) found st'
  | equal {st st' : SearchState} {decided restored session : Session}
      {remaining : List VariableId} {var : VariableId} {value : Value} {found : Bool}
      (hassign : st.session.checkpoint.assign? var value = some decided)
      (hfollow : Runs net settings
        (.follow (st.withSession decided) var (remaining.filter fun v => v ≠ var)) found st')
      (hrestore : st'.session.restore? = some restored)
      (hunassign : restored.unassign? var = some session) :
      Runs net settings (.equal st remaining var value) found (st'.withSession session)
  | emptied {st : SearchState} {narrowed session : Session} {remaining : List VariableId}
      {var : VariableId} {value : Value} {removed inserted : Bool}
      (hremove : st.session.removeValue? var value = some (removed, narrowed))
      (hempty : ∀ v, v ∉ narrowed.dom var)
      (hinsert : (narrowed.mapStats Statistics.countBacktrack).insertValue? var value =
        some (inserted, session)) :
      Runs net settings (.other st remaining var value) false
        (((st.withSession narrowed).mapStats Statistics.countBacktrack).withSession session)
  | other {st st' : SearchState} {narrowed restored session : Session}
      {remaining : List VariableId} {var : VariableId} {value : Value}
      {removed inserted found : Bool}
      (hremove : st.session.removeValue? var value = some (removed, narrowed))
      (hsome : ∃ v, v ∈ narrowed.dom var)
      (hfollow : Runs net settings (.follow (st.withSession narrowed.checkpoint) var remaining)
        found st')
      (hrestore : st'.session.restore? = some restored)
      (hinsert : restored.insertValue? var value = some (inserted, session)) :
      Runs net settings (.other st remaining var value) found (st'.withSession session)
  | refuted {st : SearchState} {var : VariableId} {undecided : List VariableId}
      {result : Propagated}
      (hpropagate : settings.propagate? net st.queue st.session var undecided = some result)
      (hfalse : result.consistent = false) :
      Runs net settings (.follow st var undecided) false
        ((st.propagated var undecided result).mapStats Statistics.countBacktrack)
  | followed {st st' : SearchState} {var : VariableId} {undecided : List VariableId}
      {result : Propagated} {found : Bool}
      (hpropagate : settings.propagate? net st.queue st.session var undecided = some result)
      (htrue : result.consistent = true)
      (hnode : Runs net settings (.node (st.propagated var undecided result) undecided) found st') :
      Runs net settings (.follow st var undecided) found st'

/-! ## §2. Valid calls. -/

/-- The call begins in a coherent session with a fit queue. -/
def Call.Valid (net : Network) (settings : Settings) : Call → Prop
  | .node st remaining =>
    Coherent net (fun _ => False) st.session remaining ∧ settings.Ready st.queue
  | .equal st remaining var value | .other st remaining var value =>
    (Coherent net (fun _ => False) st.session remaining ∧ settings.Ready st.queue) ∧
      var ∈ remaining ∧ value ∈ st.session.dom var
  | .follow st var undecided =>
    (Coherent net (fun x => x = var) st.session undecided ∧ settings.Ready st.queue) ∧
      var < net.size

variable {net : Network} {settings : Settings} {st : SearchState} {remaining : List VariableId}
  {var : VariableId} {value : Value}

/-- The branches of a valid node are valid. -/
theorem Call.Valid.choose (h : (Call.node st remaining).Valid net settings) {chosen : SearchState}
    (hchoose : choose? settings (st.mapStats Statistics.countNode) remaining =
      some (some (var, value), chosen)) :
    (Call.equal chosen remaining var value).Valid net settings ∧
      st.session.Rewound chosen.session ∧ chosen.session.solution = st.session.solution := by
  obtain ⟨hcoherent, hready⟩ := h
  obtain ⟨⟨hsession, hqueue⟩, hvar, hvalue⟩ := of_choose? hchoose
  have hrewound : st.session.Rewound chosen.session := by
    rw [hsession]
    exact Session.rewound_withStats st.session _
  refine ⟨⟨⟨hcoherent.congr hrewound.domains_eq hrewound.assignment_eq, ?_⟩, ?_, ?_⟩, hrewound, ?_⟩
  · rw [hqueue]
    exact hready
  · exact VariableOrdering.mem_of_select? hvar
  · rw [Session.dom_congr hrewound.domains_eq]
    exact ValueOrdering.mem_of_select? hvalue
  · rw [hsession]
    rfl

/-- The second branch is valid when the first has put everything back. -/
theorem Call.Valid.other {between : SearchState}
    (h : (Call.equal st remaining var value).Valid net settings)
    (hrewound : st.session.Rewound between.session) (hready : settings.Ready between.queue) :
    (Call.other between remaining var value).Valid net settings := by
  obtain ⟨⟨hcoherent, _⟩, hvar, hvalue⟩ := h
  refine ⟨⟨hcoherent.congr hrewound.domains_eq hrewound.assignment_eq, hready⟩, hvar, ?_⟩
  rw [Session.dom_congr hrewound.domains_eq]
  exact hvalue

/-- A valid first branch leads to a valid propagation. -/
theorem Call.Valid.assign (h : (Call.equal st remaining var value).Valid net settings)
    {decided : Session} (hassign : st.session.checkpoint.assign? var value = some decided) :
    (Call.follow (st.withSession decided) var (remaining.filter fun v => v ≠ var)).Valid
      net settings := by
  obtain ⟨⟨hcoherent, hready⟩, hvar, hvalue⟩ := h
  exact ⟨⟨hcoherent.assign hvalue (Session.decided_of_assign? hassign), hready⟩,
    hcoherent.lt_size hvar⟩

/-- So does a valid second branch, as long as its variable has a value left. -/
theorem Call.Valid.exclude (h : (Call.other st remaining var value).Valid net settings)
    {narrowed : Session} {removed : Bool}
    (hremove : st.session.removeValue? var value = some (removed, narrowed))
    (hsome : ∃ v, v ∈ narrowed.dom var) :
    (Call.follow (st.withSession narrowed.checkpoint) var remaining).Valid net settings := by
  obtain ⟨⟨hcoherent, hready⟩, hvar, _⟩ := h
  have hnarrowed := hcoherent.exclude (Session.excluded_of_removeValue? hremove) hsome
  exact ⟨⟨(hnarrowed.weaken fun _ hfalse => hfalse.elim).congr rfl rfl, hready⟩,
    hcoherent.lt_size hvar⟩

/-- The propagation of a valid decision: it gives an answer, it is sound, and the node after it is
valid. -/
theorem Call.Valid.exists_propagate? {undecided : List VariableId}
    (h : (Call.follow st var undecided).Valid net settings) :
    ∃ result, settings.propagate? net st.queue st.session var undecided = some result ∧
      Propagates net st.session result ∧ settings.Ready result.queue ∧
      (result.consistent = true →
        (Call.node (st.propagated var undecided result) undecided).Valid net settings) := by
  obtain ⟨⟨hcoherent, hready⟩, hvar⟩ := h
  obtain ⟨result, hresult, hpropagates, hready', hsupported⟩ :=
    settings.exists_propagate? net hready hcoherent.size_domains hcoherent.size_assignment hvar
      fun _ hz => hcoherent.lt_size hz
  refine ⟨result, hresult, hpropagates, hready', ?_⟩
  intro htrue
  refine ⟨hcoherent.propagated hpropagates htrue ?_, hready'⟩
  intro z hz hne
  exact hsupported htrue z hz hne (hcoherent.isAssigned?_eq_false hz)

/-- A valid propagation is sound, and when it ends well the node behind it is valid. -/
theorem Call.Valid.propagated {undecided : List VariableId}
    (h : (Call.follow st var undecided).Valid net settings) {result : Propagated}
    (hpropagate : settings.propagate? net st.queue st.session var undecided = some result) :
    Propagates net st.session result ∧ settings.Ready result.queue ∧
      (result.consistent = true →
        (Call.node (st.propagated var undecided result) undecided).Valid net settings) := by
  obtain ⟨result', hresult', hpropagates⟩ := h.exists_propagate?
  obtain rfl := Option.some.inj (hpropagate.symm.trans hresult')
  exact hpropagates

/-! ## §3. What a call leaves behind. -/

/-- A call puts back what it changed: a propagation leaves that to the branch that it is part of,
as far as the domains are concerned. -/
def Call.Leaves : Call → Session → Prop
  | .follow st _ _, s' => st.session.Unwound s'
  | .node st _, s' => st.session.Rewound s'
  | .equal st _ _ _, s' => st.session.Rewound s'
  | .other st _ _ _, s' => st.session.Rewound s'

/-- **A valid call leaves the session as it found it**, and a queue that is fit for the next. -/
theorem Runs.leaves {call : Call} {found : Bool} {st' : SearchState}
    (h : Runs net settings call found st') (hvalid : call.Valid net settings) :
    call.Leaves st'.session ∧ settings.Ready st'.queue := by
  -- By induction on the run: each part is entered with what it needs, so what it leaves can be
  -- withdrawn by the caller.
  induction h with
  | complete _ => exact ⟨⟨⟨rfl, rfl⟩, rfl⟩, hvalid.2⟩
  | left _ hchoose _ ih =>
    obtain ⟨hequal, hrewound, _⟩ := hvalid.choose hchoose
    obtain ⟨hleaves, hready⟩ := ih hequal
    exact ⟨hrewound.trans hleaves, hready⟩
  | right _ hchoose _ _ ihleft ihright =>
    obtain ⟨hequal, hrewound, _⟩ := hvalid.choose hchoose
    -- The right branch starts where the left one left off, which is as good as where it began.
    obtain ⟨hleft, hbetween⟩ := ihleft hequal
    obtain ⟨hright, hready⟩ := ihright (hequal.other hleft hbetween)
    exact ⟨hrewound.trans (hleft.trans hright), hready⟩
  | equal hassign _ hrestore hunassign ih =>
    obtain ⟨hleaves, hready⟩ := ih (hvalid.assign hassign)
    have hopen := hvalid.1.1.mem_undecided.1 hvalid.2.1
    exact ⟨((Session.decided_of_assign? hassign).rewound hopen hleaves hrestore hunassign).1,
      hready⟩
  | emptied hremove _ hinsert =>
    exact ⟨((Session.excluded_of_removeValue? hremove).rewound hvalid.2.2
      (Session.rewound_withStats _ _) hinsert).1, hvalid.1.2⟩
  | other hremove hsome _ hrestore hinsert ih =>
    obtain ⟨hleaves, hready⟩ := ih (hvalid.exclude hremove hsome)
    have hrestored := (Session.rewound_of_restore? hleaves hrestore).1
    exact ⟨((Session.excluded_of_removeValue? hremove).rewound hvalid.2.2 hrestored hinsert).1,
      hready⟩
  | refuted hpropagate _ =>
    obtain ⟨hpropagates, hready, _⟩ := hvalid.propagated hpropagate
    exact ⟨hpropagates.narrows.unwound.trans (Session.rewound_withStats _ _).toUnwound, hready⟩
  | followed hpropagate htrue _ ih =>
    obtain ⟨hpropagates, _, hnode⟩ := hvalid.propagated hpropagate
    obtain ⟨hleaves, hready⟩ := ih (hnode htrue)
    exact ⟨hpropagates.narrows.unwound.trans hleaves.toUnwound, hready⟩

/-! ## §4. A sufficient allowance. -/

/-- With this allowance every valid node that is small enough has a run, and the search is it. -/
def Suffices (net : Network) (settings : Settings) (allowance : Nat) : Prop :=
  ∀ (st : SearchState) (remaining : List VariableId),
    (Call.node st remaining).Valid net settings →
    remaining.length + st.session.totalSize < allowance →
    ∃ found st', explore? net settings allowance st remaining = some (found, st') ∧
      Runs net settings (.node st remaining) found st'

/-- An allowance that suffices for smaller nodes suffices for a propagation and the node behind
it. -/
theorem Suffices.follow? {allowance : Nat} (hsuffices : Suffices net settings allowance)
    {undecided : List VariableId} (hvalid : (Call.follow st var undecided).Valid net settings)
    (hsmall : undecided.length + st.session.totalSize < allowance) :
    ∃ found st', Search.follow? net settings (explore? net settings allowance) st var undecided =
      some (found, st') ∧ Runs net settings (.follow st var undecided) found st' := by
  obtain ⟨result, hresult, hpropagates, _, hnode⟩ := hvalid.exists_propagate?
  have hnarrows := hpropagates.narrows
  unfold Search.follow?
  rw [hresult]
  by_cases hconsistent : result.consistent = true
  · have hle := Session.totalSize_le_of_subset hnarrows.size_eq hnarrows.subset
    obtain ⟨found, st', hexplore, hruns⟩ :=
      hsuffices (st.propagated var undecided result) undecided (hnode hconsistent) (by
        show undecided.length + result.session.totalSize < allowance
        omega)
    exact ⟨found, st', (if_pos hconsistent).trans hexplore, .followed hresult hconsistent hruns⟩
  · exact ⟨false, _, if_neg hconsistent, .refuted hresult (eq_false_of_ne_true hconsistent)⟩

theorem Suffices.branchEqual? {allowance : Nat} (hsuffices : Suffices net settings allowance)
    (hvalid : (Call.equal st remaining var value).Valid net settings)
    (hsmall : remaining.length + st.session.totalSize ≤ allowance) :
    ∃ found st', Search.branchEqual? net settings (explore? net settings allowance) st remaining var
      value = some (found, st') ∧ Runs net settings (.equal st remaining var value) found st' := by
  have hcoherent := hvalid.1.1
  have hvar := hcoherent.lt_size hvalid.2.1
  obtain ⟨decided, hassign⟩ := Session.exists_assign? (s := st.session) value
    (hcoherent.size_domains ▸ hvar) (hcoherent.size_assignment ▸ hvar)
  have hdecided := Session.decided_of_assign? hassign
  have hfollow := hvalid.assign hassign
  -- the decision takes its variable off the list, and leaves no more values than before
  have hshorter : (remaining.filter fun v => v ≠ var).length < remaining.length :=
    List.length_filter_lt_length_iff_exists.2 ⟨var, hvalid.2.1, by simp⟩
  have hle := Session.totalSize_le_of_subset hdecided.size_eq (hdecided.subset hvalid.2.2)
  obtain ⟨found, st', hresult, hruns⟩ := hsuffices.follow? hfollow (by
    show (remaining.filter fun v => v ≠ var).length + decided.totalSize < allowance
    omega)
  have hleaves : decided.Unwound st'.session := (hruns.leaves hfollow).1
  have hcheckpoints := hleaves.checkpoints_eq.trans hdecided.checkpoints_eq
  obtain ⟨restored, hrestore⟩ := Session.exists_restore? hcheckpoints
  obtain ⟨_, _, hassignment, _⟩ := Session.of_restore? hcheckpoints hrestore
  have hsize : var < restored.assignment.size := by
    rw [hassignment, hleaves.assignment_eq, hdecided.assignment_eq, Array.size_setIfInBounds]
    exact hcoherent.size_assignment ▸ hvar
  obtain ⟨session, hunassign⟩ := Session.exists_unassign? hsize
  refine ⟨found, _, ?_, .equal hassign hruns hrestore hunassign⟩
  unfold Search.branchEqual?
  simp only [hassign, hresult, hrestore, hunassign]

theorem Suffices.branchOther? {allowance : Nat} (hsuffices : Suffices net settings allowance)
    (hvalid : (Call.other st remaining var value).Valid net settings)
    (hsmall : remaining.length + st.session.totalSize ≤ allowance) :
    ∃ found st', Search.branchOther? net settings (explore? net settings allowance) st remaining var
      value = some (found, st') ∧ Runs net settings (.other st remaining var value) found st' := by
  have hcoherent := hvalid.1.1
  have hvar : var < st.session.domains.size :=
    hcoherent.size_domains ▸ hcoherent.lt_size hvalid.2.1
  obtain ⟨removed, narrowed, hremove⟩ := Session.exists_removeValue? (s := st.session) value hvar
  have hexcluded := Session.excluded_of_removeValue? hremove
  have hvar' : var < narrowed.domains.size := hexcluded.size_eq ▸ hvar
  have hdomain := Session.domain?_eq_some hvar'
  unfold Search.branchOther?
  -- An emptied domain ends the branch at once; otherwise the exclusion made the domains smaller,
  -- and the allowance covers what follows.
  by_cases hempty : (narrowed.dom var).isEmpty = true
  · obtain ⟨inserted, session, hinsert⟩ :=
      Session.exists_insertValue? (s := narrowed.mapStats Statistics.countBacktrack) value hvar'
    refine ⟨false, _, ?_, .emptied hremove (Domain.isEmpty_eq_true_iff.1 hempty) hinsert⟩
    simp only [hremove, hdomain, if_pos hempty]
    rw [show ((st.withSession narrowed).mapStats Statistics.countBacktrack).session =
      narrowed.mapStats Statistics.countBacktrack from rfl, hinsert]
  · have hsome := Domain.isEmpty_eq_false_iff.1 (eq_false_of_ne_true hempty)
    have hfollow := hvalid.exclude hremove hsome
    have hlt := Session.totalSize_lt_of_subset hexcluded.size_eq hexcluded.subset hvalid.2.2
      hexcluded.not_mem_self
    obtain ⟨found, st', hresult, hruns⟩ := hsuffices.follow? hfollow (by
      show remaining.length + narrowed.totalSize < allowance
      omega)
    have hleaves : narrowed.checkpoint.Unwound st'.session := (hruns.leaves hfollow).1
    obtain ⟨restored, hrestore⟩ := Session.exists_restore? hleaves.checkpoints_eq
    have hrewound := (Session.rewound_of_restore? hleaves hrestore).1
    obtain ⟨inserted, session, hinsert⟩ :=
      Session.exists_insertValue? (s := restored) value (hrewound.domains_eq ▸ hvar')
    refine ⟨found, _, ?_, .other hremove hsome hruns hrestore hinsert⟩
    simp only [hremove, hdomain, if_neg hempty, hresult, hrestore]
    rw [show (st'.withSession restored).session = restored from rfl, hinsert]
    rfl

/-- **The search of a valid node ends**, when its allowance is greater than the number of values and
variables together. -/
theorem exists_explore? (net : Network) (settings : Settings) (allowance : Nat) :
    Suffices net settings allowance := by
  induction allowance with
  | zero =>
    intro st remaining _ hsmall
    omega
  | succ allowance ih =>
    intro st remaining hvalid hsmall
    cases hcomplete : st.session.isComplete with
    | true =>
      refine ⟨true, _, ?_, .complete hcomplete⟩
      unfold explore?
      exact if_pos hcomplete
    | false =>
      have hcounted : Coherent net (fun _ => False) (st.mapStats Statistics.countNode).session
        remaining := hvalid.1.congr rfl rfl
      obtain ⟨var, value, chosen, hchoose⟩ := exists_choose? settings hcounted hcomplete
      obtain ⟨hequal, hrewound, _⟩ := hvalid.choose hchoose
      -- The choice leaves the domains alone, so the allowance for the smaller node still suffices.
      have hsize := Session.totalSize_congr hrewound.domains_eq
      obtain ⟨found, between, hleft, hruns⟩ := ih.branchEqual? hequal (by omega)
      have hopen : ¬ (st.mapStats Statistics.countNode).session.isComplete = true :=
        Bool.eq_false_iff.1 hcomplete
      unfold explore?
      simp only [if_neg hopen, hchoose, hleft]
      cases found with
      | true => exact ⟨true, between, rfl, .left hcomplete hchoose hruns⟩
      | false =>
        obtain ⟨hleaves, hready⟩ := hruns.leaves hequal
        -- A failed left branch gives its domains back, and the right branch starts from the same
        -- size.
        have hother := hequal.other hleaves hready
        have hsize' := Session.totalSize_congr (Session.Rewound.domains_eq hleaves)
        obtain ⟨found, st', hright, hruns'⟩ := ih.branchOther? hother (by
          show remaining.length + between.session.totalSize ≤ allowance
          rw [hsize']
          show remaining.length + chosen.session.totalSize ≤ allowance
          omega)
        exact ⟨found, st', hright, .right hcomplete hchoose hruns hruns'⟩

/-! ## §5. Whole searches. -/

/-- The state after the propagation before the first decision. -/
def prepared (st : SearchState) (result : Propagated) : SearchState :=
  { st with queue := result.queue, session := result.session : SearchState }.note
    (.prepared result.consistent result.session.domains result.session.stats.revisions)

/-- A whole search from `st` ends in this state: before the first decision, or after a run of the
node over all variables. -/
inductive Ends (net : Network) (settings : Settings) (st : SearchState) : SearchState → Prop where
  | refuted {result : Propagated}
      (hprepare : settings.prepare? net st.queue st.session = some result)
      (hfalse : result.consistent = false) :
      Ends net settings st ((prepared st result).withSession (prepared st result).session.finish)
  | explored {result : Propagated} {found : Bool} {st' : SearchState}
      (hprepare : settings.prepare? net st.queue st.session = some result)
      (htrue : result.consistent = true)
      (hruns : Runs net settings (.node (prepared st result) (List.range net.size)) found st') :
      Ends net settings st (st'.withSession st'.session.finish)

/-- The propagation of a fresh session: it gives an answer, it is sound, and the node after it is
valid. -/
theorem exists_prepare? (net : Network) (settings : Settings) (queue : ArcQueue)
    (journal : Journal) :
    ∃ result, settings.prepare? net queue (Session.start net) = some result ∧
      Propagates net (Session.start net) result ∧ (result.consistent = true →
        (Call.node (prepared ⟨Session.start net, queue, journal⟩ result)
          (List.range net.size)).Valid net settings) := by
  have hstart := coherent_start net
  obtain ⟨result, hresult, hpropagates, hready⟩ :=
    settings.exists_prepare? net queue hstart.size_domains
  exact ⟨result, hresult, hpropagates, fun htrue => ⟨hstart.narrowed hpropagates htrue, hready⟩⟩

theorem of_prepare? {queue : ArcQueue} (journal : Journal) {result : Propagated}
    (hprepare : settings.prepare? net queue (Session.start net) = some result) :
    Propagates net (Session.start net) result ∧ (result.consistent = true →
      (Call.node (prepared ⟨Session.start net, queue, journal⟩ result)
        (List.range net.size)).Valid net settings) := by
  obtain ⟨result', hresult', hpropagates⟩ := exists_prepare? net settings queue journal
  obtain rfl := Option.some.inj (hprepare.symm.trans hresult')
  exact hpropagates

/-- **The search of a fresh session ends**, whatever the queue and the settings are. -/
theorem exists_search? (net : Network) (settings : Settings) (queue : ArcQueue)
    (journal : Journal) :
    ∃ st', search? net settings ⟨Session.start net, queue, journal⟩ = some st' ∧
      Ends net settings ⟨Session.start net, queue, journal⟩ st' := by
  obtain ⟨result, hresult, _, hnode⟩ := exists_prepare? net settings queue journal
  unfold search?
  simp only [hresult]
  by_cases hconsistent : result.consistent = true
  · obtain ⟨found, st', hexplore, hruns⟩ :=
      exists_explore? net settings (net.size + result.session.totalSize + 1) _ _
        (hnode hconsistent) (by
          rw [List.length_range]
          exact Nat.lt_succ_self _)
    refine ⟨_, ?_, .explored hresult hconsistent hruns⟩
    rw [if_pos hconsistent]
    exact congrArg (Option.map _) hexplore
  · refine ⟨_, ?_, .refuted hresult (eq_false_of_ne_true hconsistent)⟩
    rw [if_neg hconsistent]
    rfl

end Search

end ConstraintNet
