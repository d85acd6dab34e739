/-
  ConstraintNet.Proofs.Visits
  ───────────────────────────
  **HOW MANY NODES A CALL VISITS.**

  `Call.Visits` is a run together with the number of nodes in it.  Only a
  node counts itself, so the number of any other call is that of the call
  inside it, and a node has one more than its branches together:

      `Visits.of_equal`, `Visits.of_other`    — a branch, by its propagation
      `Visits.of_follow`                      — a propagation, by its node
      `Visits.of_complete`, `Visits.of_open`  — a node, by its branches
-/
import ConstraintNet.Proofs.Counters
import ConstraintNet.Proofs.Solver

namespace ConstraintNet

/-- The number of nodes that were counted so far. -/
def SearchState.nodes (st : SearchState) : Nat := st.session.stats.nodes

/-- The number of backtracks that were counted so far. -/
def SearchState.backtracks (st : SearchState) : Nat := st.session.stats.backtracks

/-- From `st` to `st'` neither a node nor a backtrack was counted. -/
structure SearchState.SameCounts (st st' : SearchState) : Prop where
  nodes_eq : st'.nodes = st.nodes
  backtracks_eq : st'.backtracks = st.backtracks

/-- A step that counts nothing leaves the counts of the search. -/
theorem Session.SameRecord.sameCounts {st : SearchState} {s' : Session}
    (h : st.session.SameRecord s') : st.SameCounts (st.withSession s') :=
  ⟨congrArg Statistics.nodes h.stats_eq, congrArg Statistics.backtracks h.stats_eq⟩

namespace Search

variable {net : Network} {settings : Settings} {st : SearchState} {remaining : List VariableId}
  {var : VariableId} {value : Value} {found : Bool} {count : Nat}

/-! ## §1. What a single step counts. -/

/-- A node that branches has counted itself. -/
theorem counts_of_choose? {chosen : SearchState}
    (hchoose : choose? settings (st.mapStats Statistics.countNode) remaining =
      some (some (var, value), chosen)) :
    chosen.nodes = st.nodes + 1 ∧ chosen.backtracks = st.backtracks := by
  unfold SearchState.nodes SearchState.backtracks
  rw [(of_choose? hchoose).1.1]
  exact ⟨rfl, rfl⟩

/-- A decision counts neither a node nor a backtrack. -/
theorem sameCounts_of_assign? {decided : Session}
    (hassign : st.session.checkpoint.assign? var value = some decided) :
    st.SameCounts (st.withSession decided) := by
  have hstats := (Session.sameRecord_of_assign? hassign).stats_eq
  have hnodes := congrArg Statistics.nodes hstats
  have hbacktracks := congrArg Statistics.backtracks hstats
  exact ⟨hnodes, hbacktracks⟩

/-- Nor does a decision against a value. -/
theorem sameCounts_of_removeValue? {narrowed : Session} {removed : Bool}
    (hremove : st.session.removeValue? var value = some (removed, narrowed)) :
    st.SameCounts (st.withSession narrowed.checkpoint) := by
  have hstats := (Session.sameRecord_of_removeValue? hremove).stats_eq
  have hnodes := congrArg Statistics.nodes hstats
  have hbacktracks := congrArg Statistics.backtracks hstats
  exact ⟨hnodes, hbacktracks⟩

/-- Nor does the way back from the first branch. -/
theorem sameCounts_of_withdrawal {restored session : Session}
    (hrestore : st.session.restore? = some restored)
    (hunassign : restored.unassign? var = some session) :
    st.SameCounts (st.withSession session) :=
  (Session.sameRecord_of_withdrawal hrestore hunassign).sameCounts

/-- Nor does the way back from the second one. -/
theorem sameCounts_of_return {restored session : Session} {inserted : Bool}
    (hrestore : st.session.restore? = some restored)
    (hinsert : restored.insertValue? var value = some (inserted, session)) :
    st.SameCounts (st.withSession session) :=
  (Session.sameRecord_of_return hrestore hinsert).sameCounts

/-- A branch without a value counts a backtrack and no node. -/
theorem counts_of_emptied {narrowed session : Session} {removed inserted : Bool}
    (hremove : st.session.removeValue? var value = some (removed, narrowed))
    (hinsert : (narrowed.mapStats Statistics.countBacktrack).insertValue? var value =
      some (inserted, session)) :
    (((st.withSession narrowed).mapStats Statistics.countBacktrack).withSession session).nodes =
        st.nodes ∧
      (((st.withSession narrowed).mapStats Statistics.countBacktrack).withSession
        session).backtracks = st.backtracks + 1 := by
  show session.stats.nodes = st.session.stats.nodes ∧
    session.stats.backtracks = st.session.stats.backtracks + 1
  rw [(Session.sameRecord_of_insertValue? hinsert).stats_eq]
  show narrowed.stats.nodes = _ ∧ narrowed.stats.backtracks + 1 = _
  rw [(Session.sameRecord_of_removeValue? hremove).stats_eq]
  exact ⟨rfl, rfl⟩

/-- Propagations count revisions only. -/
theorem sameCounts_propagated {undecided : List VariableId} {result : Propagated}
    (hpropagate : settings.propagate? net st.queue st.session var undecided = some result) :
    st.SameCounts (st.propagated var undecided result) :=
  have hquiet := Settings.quiet_of_propagate? hpropagate
  ⟨hquiet.nodes_eq, hquiet.backtracks_eq⟩

/-- Before the first node, nothing has been counted. -/
theorem counts_prepared {queue : ArcQueue} (journal : Journal) {result : Propagated}
    (hprepare : settings.prepare? net queue (Session.start net) = some result) :
    (prepared ⟨Session.start net, queue, journal⟩ result).nodes = 0 ∧
      (prepared ⟨Session.start net, queue, journal⟩ result).backtracks = 0 :=
  have hquiet := Settings.quiet_of_prepare? hprepare
  ⟨hquiet.nodes_eq, hquiet.backtracks_eq⟩

/-! ## §2. Counted runs. -/

/-- The number of counted nodes never falls. -/
theorem Runs.nodes_le {call : Call} {st' : SearchState} (h : Runs net settings call found st') :
    call.state.nodes ≤ st'.nodes := by
  -- a node counts itself; what the other calls do around the call inside counts nothing
  induction h with
  | complete _ => exact Nat.le_succ _
  | @left st chosen _ _ _ _ _ hchoose _ ih =>
    have hcounted : st.nodes + 1 ≤ chosen.nodes := Nat.le_of_eq (counts_of_choose? hchoose).1.symm
    exact Nat.le_trans (Nat.le_of_succ_le hcounted) ih
  | @right st chosen _ _ _ _ _ _ _ hchoose _ _ ihleft ihright =>
    have hcounted : st.nodes + 1 ≤ chosen.nodes := Nat.le_of_eq (counts_of_choose? hchoose).1.symm
    exact Nat.le_trans (Nat.le_of_succ_le hcounted) (Nat.le_trans ihleft ihright)
  | equal hassign _ hrestore hunassign ih =>
    rw [Call.state, ← (sameCounts_of_assign? hassign).nodes_eq,
      (sameCounts_of_withdrawal hrestore hunassign).nodes_eq]
    exact ih
  | emptied hremove _ hinsert => exact Nat.le_of_eq (counts_of_emptied hremove hinsert).1.symm
  | other hremove _ _ hrestore hinsert ih =>
    rw [Call.state, ← (sameCounts_of_removeValue? hremove).nodes_eq,
      (sameCounts_of_return hrestore hinsert).nodes_eq]
    exact ih
  | refuted hpropagate _ => exact Nat.le_of_eq (sameCounts_propagated hpropagate).nodes_eq.symm
  | followed hpropagate _ _ ih =>
    rw [Call.state, ← (sameCounts_propagated hpropagate).nodes_eq]
    exact ih

/-- The call can end with this verdict after this number of nodes. -/
def Call.Visits (net : Network) (settings : Settings) (call : Call) (found : Bool) (count : Nat) :
    Prop :=
  ∃ st', Runs net settings call found st' ∧ st'.nodes = call.state.nodes + count

/-- Every run visits some number of nodes, and the count goes up by it. -/
theorem Runs.exists_visits {call : Call} {st' : SearchState}
    (h : Runs net settings call found st') :
    ∃ count, st'.nodes = call.state.nodes + count ∧ call.Visits net settings found count := by
  obtain ⟨count, hcount⟩ := Nat.exists_eq_add_of_le h.nodes_le
  exact ⟨count, hcount, st', h, hcount⟩

/-- A call finds a solution when there is one in its scope. -/
theorem Call.Visits.found_iff {call : Call} (h : call.Visits net settings found count)
    (hvalid : call.Valid net settings) : found = true ↔ ∃ f, call.Scope net f := by
  obtain ⟨st', hruns, _⟩ := h
  have hanswers := hruns.answers hvalid
  cases found with
  | true =>
    obtain ⟨f, hf, _⟩ := hanswers
    exact ⟨fun _ => ⟨f, hf⟩, fun _ => rfl⟩
  | false =>
    obtain ⟨hnone, _⟩ := hanswers
    refine ⟨fun h => (by cases h), ?_⟩
    intro hsome
    obtain ⟨f, hf⟩ := hsome
    exact absurd hf (hnone f)

/-! ## §3. The nodes of each call. -/

/-- A first branch visits the nodes behind its decision. -/
theorem Call.Visits.of_equal
    (h : (Call.equal st remaining var value).Visits net settings found count) :
    ∃ decided, st.session.checkpoint.assign? var value = some decided ∧
      (Call.follow (st.withSession decided) var (remaining.filter fun v => v ≠ var)).Visits
        net settings found count := by
  obtain ⟨_, hruns, hcount⟩ := h
  cases hruns with
  | equal hassign hfollow hrestore hunassign =>
    refine ⟨_, hassign, _, hfollow, ?_⟩
    rw [(sameCounts_of_withdrawal hrestore hunassign).nodes_eq] at hcount
    rw [hcount, Call.state, Call.state, (sameCounts_of_assign? hassign).nodes_eq]

/-- A second branch visits none if its variable has no value left, and else the nodes behind its
decision. -/
theorem Call.Visits.of_other
    (h : (Call.other st remaining var value).Visits net settings found count) :
    ∃ removed narrowed, st.session.removeValue? var value = some (removed, narrowed) ∧
      (((∀ v, v ∉ narrowed.dom var) ∧ count = 0) ∨
        ((∃ v, v ∈ narrowed.dom var) ∧
          (Call.follow (st.withSession narrowed.checkpoint) var remaining).Visits
            net settings found count)) := by
  obtain ⟨_, hruns, hcount⟩ := h
  cases hruns with
  | emptied hremove hempty hinsert =>
    refine ⟨_, _, hremove, Or.inl ⟨hempty, ?_⟩⟩
    rw [(counts_of_emptied hremove hinsert).1] at hcount
    exact Nat.left_eq_add.1 hcount
  | other hremove hsome hfollow hrestore hinsert =>
    refine ⟨_, _, hremove, Or.inr ⟨hsome, _, hfollow, ?_⟩⟩
    rw [(sameCounts_of_return hrestore hinsert).nodes_eq] at hcount
    rw [hcount, Call.state, Call.state, (sameCounts_of_removeValue? hremove).nodes_eq]

/-- Behind a decision there is a node, unless its propagation empties a domain. -/
theorem Call.Visits.of_follow {undecided : List VariableId}
    (h : (Call.follow st var undecided).Visits net settings found count) :
    ∃ result, settings.propagate? net st.queue st.session var undecided = some result ∧
      ((result.consistent = false ∧ count = 0) ∨
        (result.consistent = true ∧
          (Call.node (st.propagated var undecided result) undecided).Visits
            net settings found count)) := by
  obtain ⟨_, hruns, hcount⟩ := h
  cases hruns with
  | refuted hpropagate hfalse =>
    refine ⟨_, hpropagate, Or.inl ⟨hfalse, ?_⟩⟩
    exact Nat.left_eq_add.1 ((sameCounts_propagated hpropagate).nodes_eq.symm.trans hcount)
  | followed hpropagate htrue hnode =>
    refine ⟨_, hpropagate, Or.inr ⟨htrue, _, hnode, ?_⟩⟩
    rw [hcount, Call.state, Call.state, (sameCounts_propagated hpropagate).nodes_eq]

/-- A node with a complete assignment is one node. -/
theorem Call.Visits.of_complete (hcomplete : st.session.isComplete = true)
    (h : (Call.node st remaining).Visits net settings found count) : count = 1 := by
  obtain ⟨_, hruns, hcount⟩ := h
  cases hruns with
  | complete _ => exact (Nat.add_left_cancel hcount).symm
  | left hopen => exact absurd hcomplete (Bool.eq_false_iff.1 hopen)
  | right hopen => exact absurd hcomplete (Bool.eq_false_iff.1 hopen)

/-- A node that is not complete visits itself, the nodes of its first branch and, when that found
nothing, those of its second. -/
theorem Call.Visits.of_open (hopen : st.session.isComplete = false)
    (h : (Call.node st remaining).Visits net settings found count) :
    ∃ var value chosen earlier between first,
      choose? settings (st.mapStats Statistics.countNode) remaining =
        some (some (var, value), chosen) ∧
      Runs net settings (.equal chosen remaining var value) earlier between ∧
      (Call.equal chosen remaining var value).Visits net settings earlier first ∧
      (earlier = true → count = first + 1) ∧
      (earlier = false → ∃ second,
        (Call.other between remaining var value).Visits net settings found second ∧
        count = first + second + 1) := by
  obtain ⟨_, hruns, hcount⟩ := h
  -- The variable is chosen either way; a found left branch ends the visit, a failed one adds the
  -- right branch's nodes.
  cases hruns with
  | complete hcomplete => exact absurd hcomplete (Bool.eq_false_iff.1 hopen)
  | @left _ chosen _ _ _ _ _ hchoose hleft =>
    obtain ⟨first, hfirst, hvisits⟩ := hleft.exists_visits
    refine ⟨_, _, chosen, _, _, first, hchoose, hleft, hvisits, fun _ => ?_,
      fun h => by cases h⟩
    have hchosen := (counts_of_choose? hchoose).1
    have hfirst : _ = chosen.nodes + first := hfirst
    have hcount : _ = st.nodes + count := hcount
    omega
  | @right _ chosen between _ _ _ _ _ _ hchoose hleft hright =>
    obtain ⟨first, hfirst, hvisits⟩ := hleft.exists_visits
    obtain ⟨second, hsecond, hvisits'⟩ := hright.exists_visits
    refine ⟨_, _, chosen, _, between, first, hchoose, hleft, hvisits, fun h => (by cases h),
      fun _ => ⟨second, hvisits', ?_⟩⟩
    have hchosen := (counts_of_choose? hchoose).1
    have hfirst : _ = chosen.nodes + first := hfirst
    have hsecond : _ = between.nodes + second := hsecond
    have hcount : _ = st.nodes + count := hcount
    omega

end Search

end ConstraintNet
