/-
  ConstraintNet.Proofs.Depth
  ──────────────────────────
  **HOW DEEP A SEARCH GOES.**

  Every branch opens a checkpoint.  The branch in which a variable has a
  value takes the variable off the list of those that are undecided; the
  other branch takes the value away from it.  So each open checkpoint stands
  for a value that the undecided variables have no more, and `Call.reach`

      open checkpoints + values that the undecided variables have left

  is never greater inside a call than it was when the call began.  It bounds
  the depth from above.  From below, no variable is decided without a
  checkpoint, so there are at least as many of them as variables when a
  solution is found.

      `Call.Gauges`   — the two bounds, for a call that has ended
      `Runs.gauges`   — every valid call keeps to them

  Main result: `Engine.maxDepth_bounded`.
-/
import Mathlib.Algebra.Ring.Int.Defs
import ConstraintNet.Proofs.Accounting

namespace ConstraintNet

/-! ## §1. The number of possible values. -/

/-- The values of a range that is not empty are as many as its ends are apart, and one. -/
theorem Bounds.size_domain {b : Bounds} (h : b.lower ≤ b.upper) :
    (b.domain.size : Int) = b.upper.toInt - b.lower.toInt + 1 := by
  have hnodup : (Value.range b.lower b.upper).Nodup :=
    (Value.range_pairwise b.lower b.upper).imp Int32.ne_of_lt
  have hperm : b.domain.values.Perm (Value.range b.lower b.upper) := by
    refine (List.perm_ext_iff_of_nodup b.domain.nodup hnodup).2 ?_
    intro v
    unfold Bounds.domain Domain.ofRange
    rw [Domain.mem_values, Domain.mem_ofList]
  have hlength : b.domain.size = (b.upper.toInt + 1 - b.lower.toInt).toNat := by
    rw [← Domain.length_values, hperm.length_eq, Value.range, List.length_map, List.length_range]
  have hle := Int32.le_iff_toInt_le.1 h
  omega

/-- A fresh session has the values of all ranges. -/
theorem Network.totalSize_start (net : Network) : ((Session.start net).totalSize : Int) =
    (net.bounds.toList.map fun b => b.upper.toInt - b.lower.toInt + 1).sum := by
  have hsum (l : List Bounds) (hl : ∀ b ∈ l, b.lower ≤ b.upper) :
      (total (fun b => b.domain.size) l : Int) =
        (l.map fun b => b.upper.toInt - b.lower.toInt + 1).sum := by
    induction l with
    | nil => rfl
    | cons b l ih =>
      obtain ⟨hb, hl⟩ := List.forall_mem_cons.1 hl
      rw [total_cons, List.map_cons, List.sum_cons, Int.natCast_add, ih hl, Bounds.size_domain hb]
  rw [← hsum net.bounds.toList net.bounds_nonempty]
  show ((total Domain.size (net.bounds.map Bounds.domain).toList : Nat) : Int) = _
  rw [Array.toList_map, total_map]

/-! ## §2. The two counters of depth. -/

namespace Session

variable {s s' : Session}

/-- Both counters of depth agree, and no more checkpoints are open than they say. -/
structure Gauged (s : Session) : Prop where
  maxDepth_eq : s.stats.maxDepth = s.highWater
  depth_le : s.checkpoints.length ≤ s.highWater

theorem gauged_start (net : Network) : (start net).Gauged := ⟨rfl, Nat.le_refl _⟩

theorem highWater_checkpoint (s : Session) :
    s.checkpoint.highWater = max s.highWater (s.checkpoints.length + 1) := by
  rw [← s.depth_eq]
  rfl

/-- After a new checkpoint the counters agree, whatever they were before. -/
theorem gauged_checkpoint (s : Session) : s.checkpoint.Gauged := by
  refine ⟨rfl, ?_⟩
  rw [highWater_checkpoint]
  exact Nat.le_max_right _ _

theorem Gauged.of_sameRecord (h : s.Gauged) (hrecord : s.SameRecord s')
    (hcheckpoints : s'.checkpoints = s.checkpoints) : s'.Gauged := by
  refine ⟨?_, ?_⟩
  · rw [hrecord.stats_eq, hrecord.highWater_eq]
    exact h.maxDepth_eq
  · rw [hcheckpoints, hrecord.highWater_eq]
    exact h.depth_le

theorem Gauged.narrowed (h : s.Gauged) (hnarrows : s.Narrows s')
    (hquiet : s.stats.Quiet s'.stats) : s'.Gauged := by
  refine ⟨?_, ?_⟩
  · rw [hquiet.maxDepth_eq, hnarrows.highWater_eq]
    exact h.maxDepth_eq
  · rw [hnarrows.checkpoints_eq, hnarrows.highWater_eq]
    exact h.depth_le

end Session

/-! ## §3. How deep a call can reach. -/

namespace Search

/-- The variables that are undecided when the call begins; in a branch, its own is still among
them. -/
def Call.undecided : Call → List VariableId
  | .node _ remaining | .equal _ remaining _ _ | .other _ remaining _ _ => remaining
  | .follow _ _ undecided => undecided

/-- The number of checkpoints that are open when the call begins. -/
def Call.depth (call : Call) : Nat := call.state.session.checkpoints.length

/-- The greatest number of checkpoints that were ever open together when the call begins. -/
def Call.highWater (call : Call) : Nat := call.state.session.highWater

/-- How many checkpoints can come to be open together: those that are, and one for each value that
the undecided variables have left. -/
def Call.reach (call : Call) : Nat :=
  call.depth + total (fun x => (call.state.session.dom x).size) call.undecided

variable {net : Network} {settings : Settings} {call inner : Call} {st st' st₁ st₂ : SearchState}
  {remaining undecided : List VariableId} {var : VariableId} {value : Value} {found : Bool}

/-- Rewound sessions with as many undecided variables reach equally deep. -/
theorem Call.reach_eq_of_rewound (call inner : Call)
    (hrewound : call.state.session.Rewound inner.state.session)
    (hundecided : inner.undecided = call.undecided) :
    inner.depth = call.depth ∧ inner.reach = call.reach := by
  have hdepth : inner.depth = call.depth := congrArg List.length hrewound.checkpoints_eq
  refine ⟨hdepth, ?_⟩
  unfold reach
  rw [hdepth, hundecided, funext (Session.dom_congr hrewound.domains_eq)]

/-- A decision opens a checkpoint, and takes a variable with a value off the list. -/
theorem Call.Valid.reach_assign (h : (Call.equal st remaining var value).Valid net settings)
    {decided : Session} (hassign : st.session.checkpoint.assign? var value = some decided) :
    (Call.follow (st.withSession decided) var (remaining.filter fun v => v ≠ var)).reach ≤
        (Call.equal st remaining var value).reach ∧
      st.session.checkpoints.length + 1 ≤ (Call.equal st remaining var value).reach := by
  obtain ⟨_, hvar, hvalue⟩ := h
  have hdecided := Session.decided_of_assign? hassign
  have hpos := Domain.size_pos_of_mem hvalue
  have hparts := total_filter_add_total_filter_not (fun x => (st.session.dom x).size)
    (fun v => decide (v ≠ var)) remaining
  have hself := le_total_of_mem (fun x => (st.session.dom x).size)
    (List.mem_filter.2 ⟨hvar, by simp⟩ : var ∈ remaining.filter fun v => !decide (v ≠ var))
  -- the other variables keep their values
  have hleft : total (fun x => (decided.dom x).size) (remaining.filter fun v => v ≠ var) ≤
      total (fun x => (st.session.dom x).size) (remaining.filter fun v => v ≠ var) := by
    refine total_le_total fun x hx => ?_
    have hsame := hdecided.dom_other x (of_decide_eq_true (List.mem_filter.1 hx).2)
    exact Nat.le_of_eq (congrArg Domain.size hsame)
  have hdepth := hdecided.length_checkpoints
  constructor
  · show decided.checkpoints.length +
      total (fun x => (decided.dom x).size) (remaining.filter fun v => v ≠ var) ≤
      st.session.checkpoints.length + total (fun x => (st.session.dom x).size) remaining
    omega
  · show _ ≤ st.session.checkpoints.length + total (fun x => (st.session.dom x).size) remaining
    omega

/-- The other decision opens a checkpoint, too, and takes a value away. -/
theorem Call.Valid.reach_exclude (h : (Call.other st remaining var value).Valid net settings)
    {narrowed : Session} {removed : Bool}
    (hremove : st.session.removeValue? var value = some (removed, narrowed)) :
    (Call.follow (st.withSession narrowed.checkpoint) var remaining).reach ≤
        (Call.other st remaining var value).reach ∧
      st.session.checkpoints.length + 1 ≤ (Call.other st remaining var value).reach := by
  obtain ⟨_, hvar, hvalue⟩ := h
  have hexcluded := Session.excluded_of_removeValue? hremove
  have hsmaller : (narrowed.dom var).size < (st.session.dom var).size := by
    rcases Nat.lt_or_ge (narrowed.dom var).size (st.session.dom var).size with hlt | hge
    · exact hlt
    · have hsame := Domain.eq_of_subset_of_size_le (hexcluded.subset var) hge
      exact absurd (hsame ▸ hvalue) hexcluded.not_mem_self
  -- the lost value makes room for the checkpoint
  have hless : total (fun x => (narrowed.dom x).size) remaining <
      total (fun x => (st.session.dom x).size) remaining :=
    total_lt_total (fun x _ => Domain.size_le_of_subset (hexcluded.subset x)) hvar hsmaller
  have hdepth := hexcluded.length_checkpoints
  constructor
  · show narrowed.checkpoint.checkpoints.length +
      total (fun x => (narrowed.dom x).size) remaining ≤
      st.session.checkpoints.length + total (fun x => (st.session.dom x).size) remaining
    omega
  · show _ ≤ st.session.checkpoints.length + total (fun x => (st.session.dom x).size) remaining
    omega

/-- A propagation opens no checkpoint, and adds no value. -/
theorem reach_propagated {result : Propagated} (hnarrows : st.session.Narrows result.session) :
    (Call.node (st.propagated var undecided result) undecided).reach ≤
      (Call.follow st var undecided).reach := by
  have hdepth : result.session.checkpoints.length = st.session.checkpoints.length :=
    congrArg List.length hnarrows.checkpoints_eq
  have hleft : total (fun x => (result.session.dom x).size) undecided ≤
      total (fun x => (st.session.dom x).size) undecided :=
    total_le_total fun x _ => Domain.size_le_of_subset (hnarrows.subset x)
  show result.session.checkpoints.length +
    total (fun x => (result.session.dom x).size) undecided ≤
    st.session.checkpoints.length + total (fun x => (st.session.dom x).size) undecided
  omega

/-! ## §4. How deep a call has been. -/

/-- The call has ended in `st'`. Its greatest depth is within its reach, unless the search had been
deeper before; and if it has found a solution, there was a checkpoint for every undecided variable
besides those that were open. -/
structure Call.Gauges (call : Call) (found : Bool) (st' : SearchState) : Prop where
  maxDepth_eq : st'.session.stats.maxDepth = st'.session.highWater
  grows : call.highWater ≤ st'.session.highWater
  le_reach : st'.session.highWater ≤ max call.highWater call.reach
  reaches : found = true → call.depth + call.undecided.length ≤ st'.session.highWater

/-- A call that opens at most one checkpoint around the call inside keeps to the bounds if that
one does. -/
theorem Call.Gauges.around (h : inner.Gauges found st₁) (hgrows : call.highWater ≤ inner.highWater)
    (hdeepest : inner.highWater ≤ max call.highWater call.reach) (hreach : inner.reach ≤ call.reach)
    (hdecisions : call.depth + call.undecided.length ≤ inner.depth + inner.undecided.length)
    (hrecord : st₁.session.SameRecord st₂.session) : call.Gauges found st₂ := by
  obtain ⟨hmaxDepth, hgrows', hle, hreaches⟩ := h
  have hhighWater := hrecord.highWater_eq
  refine ⟨?_, ?_, ?_, ?_⟩
  · rw [hrecord.stats_eq, hmaxDepth, hhighWater]
  · omega
  · omega
  · intro hfound
    have := hreaches hfound
    omega

/-- So does a branch that opens its checkpoint first. -/
theorem Call.Gauges.branch (h : inner.Gauges found st₁)
    (hhighWater : inner.highWater = max call.highWater (call.depth + 1))
    (hopen : call.depth + 1 ≤ call.reach) (hreach : inner.reach ≤ call.reach)
    (hdecisions : call.depth + call.undecided.length ≤ inner.depth + inner.undecided.length)
    (hrecord : st₁.session.SameRecord st₂.session) : call.Gauges found st₂ := by
  refine h.around ?_ ?_ hreach hdecisions hrecord
  · omega
  · omega

/-- So does a call that finds nothing and opens no checkpoint. -/
theorem Call.gauges_of_highWater_eq (hhighWater : st₁.session.highWater = call.highWater)
    (hmaxDepth : st₁.session.stats.maxDepth = call.highWater) : call.Gauges false st₁ := by
  refine ⟨hmaxDepth.trans hhighWater.symm, Nat.le_of_eq hhighWater.symm, ?_, fun h => by cases h⟩
  exact Nat.le_trans (Nat.le_of_eq hhighWater) (Nat.le_max_left _ _)

/-- A node that has chosen its branch has only counted itself. -/
theorem gauged_of_choose? (h : st.session.Gauged) {chosen : SearchState}
    (hchoose : choose? settings (st.mapStats Statistics.countNode) remaining =
      some (some (var, value), chosen)) :
    chosen.session.Gauged ∧ chosen.session.highWater = st.session.highWater := by
  rw [(of_choose? hchoose).1.1]
  exact ⟨⟨h.maxDepth_eq, h.depth_le⟩, rfl⟩

/-- **Every valid call keeps to the bounds.** -/
theorem Runs.gauges (h : Runs net settings call found st') (hvalid : call.Valid net settings)
    (hgauged : call.state.session.Gauged) : call.Gauges found st' := by
  induction h with
  | @complete st remaining hcomplete =>
    have hnil : remaining = [] := hvalid.1.isComplete_iff.1 hcomplete
    subst hnil
    exact ⟨hgauged.maxDepth_eq, Nat.le_refl _, Nat.le_max_left _ _, fun _ => hgauged.depth_le⟩
  | @left st chosen st' remaining var value _ hchoose _ ih =>
    obtain ⟨hequal, hrewound, _⟩ := hvalid.choose hchoose
    obtain ⟨hdepth, hreach⟩ := Call.reach_eq_of_rewound (.node st remaining)
      (.equal chosen remaining var value) hrewound rfl
    obtain ⟨hchosen, hsame⟩ := gauged_of_choose? hgauged hchoose
    refine (ih hequal hchosen).around (Nat.le_of_eq hsame.symm) ?_ (Nat.le_of_eq hreach) ?_
      ⟨rfl, rfl, rfl, rfl⟩
    · exact Nat.le_trans (Nat.le_of_eq hsame) (Nat.le_max_left _ _)
    · exact Nat.le_of_eq (congrArg (· + remaining.length) hdepth.symm)
  | @right st chosen between st' remaining var value found _ hchoose hruns _ ihleft ihright =>
    obtain ⟨hequal, hrewound, _⟩ := hvalid.choose hchoose
    obtain ⟨hchosen, hsame⟩ := gauged_of_choose? hgauged hchoose
    -- the first branch has been within the reach of the node, and has closed its checkpoints
    obtain ⟨hmaxDepth, hgrows, hle, _⟩ := ihleft hequal hchosen
    obtain ⟨hleaves, hready⟩ := hruns.leaves hequal
    have hback : st.session.Rewound between.session := hrewound.trans hleaves
    obtain ⟨_, hreach⟩ := Call.reach_eq_of_rewound (.node st remaining)
      (.equal chosen remaining var value) hrewound rfl
    obtain ⟨hdepth, hreach'⟩ := Call.reach_eq_of_rewound (.node st remaining)
      (.other between remaining var value) hback rfl
    have hgrows : chosen.session.highWater ≤ between.session.highWater := hgrows
    have hle : between.session.highWater ≤ max chosen.session.highWater
      (Call.equal chosen remaining var value).reach := hle
    rw [hsame] at hgrows hle
    rw [hreach] at hle
    have hbetween : between.session.Gauged := by
      refine ⟨hmaxDepth, ?_⟩
      rw [hback.checkpoints_eq]
      exact Nat.le_trans hgauged.depth_le hgrows
    refine (ihright (hequal.other hleaves hready) hbetween).around hgrows hle
      (Nat.le_of_eq hreach') ?_ ⟨rfl, rfl, rfl, rfl⟩
    exact Nat.le_of_eq (congrArg (· + remaining.length) hdepth.symm)
  | @equal st st' decided restored session remaining var value _ hassign _ hrestore hunassign ih =>
    have hbranch := Session.decided_of_assign? hassign
    have hrecord := Session.sameRecord_of_assign? hassign
    obtain ⟨hreach, hopen⟩ := hvalid.reach_assign hassign
    have hdecided : decided.Gauged :=
      st.session.gauged_checkpoint.of_sameRecord hrecord hbranch.checkpoints_eq
    have hdepth := hbranch.length_checkpoints
    refine (ih (hvalid.assign hassign) hdecided).branch
      (hrecord.highWater_eq.trans st.session.highWater_checkpoint) hopen hreach ?_
      (Session.sameRecord_of_withdrawal hrestore hunassign)
    -- the variable that is off the list has its checkpoint
    have hfilter : (remaining.filter fun v => v ≠ var).length + 1 = remaining.length :=
      hvalid.1.1.length_filter_ne hvalid.2.1
    show st.session.checkpoints.length + remaining.length ≤
      decided.checkpoints.length + (remaining.filter fun v => v ≠ var).length
    omega
  | @emptied st narrowed session remaining var value removed inserted hremove _ hinsert =>
    have hremoved := Session.sameRecord_of_removeValue? hremove
    have hinserted := Session.sameRecord_of_insertValue? hinsert
    refine Call.gauges_of_highWater_eq (hinserted.highWater_eq.trans hremoved.highWater_eq) ?_
    show session.stats.maxDepth = st.session.highWater
    rw [hinserted.stats_eq]
    show narrowed.stats.maxDepth = st.session.highWater
    rw [hremoved.stats_eq]
    exact hgauged.maxDepth_eq
  | @other st st' narrowed restored session remaining var value _ _ _ hremove hsome _ hrestore
      hinsert ih =>
    have hexcluded := Session.excluded_of_removeValue? hremove
    obtain ⟨hreach, hopen⟩ := hvalid.reach_exclude hremove
    have hhighWater : narrowed.checkpoint.highWater =
        max st.session.highWater (st.session.checkpoints.length + 1) := by
      rw [narrowed.highWater_checkpoint, (Session.sameRecord_of_removeValue? hremove).highWater_eq,
        hexcluded.unwound.checkpoints_eq]
    have hdepth := hexcluded.length_checkpoints
    refine (ih (hvalid.exclude hremove hsome) narrowed.gauged_checkpoint).branch hhighWater hopen
      hreach ?_ (Session.sameRecord_of_return hrestore hinsert)
    show st.session.checkpoints.length + remaining.length ≤
      narrowed.checkpoint.checkpoints.length + remaining.length
    omega
  | @refuted st var undecided result hpropagate _ =>
    have hhighWater := (hvalid.propagated hpropagate).1.narrows.highWater_eq
    have hquiet := Settings.quiet_of_propagate? hpropagate
    exact Call.gauges_of_highWater_eq hhighWater (hquiet.maxDepth_eq.trans hgauged.maxDepth_eq)
  | @followed st _ var undecided result _ hpropagate htrue _ ih =>
    obtain ⟨hpropagates, _, hnode⟩ := hvalid.propagated hpropagate
    have hnarrows := hpropagates.narrows
    have hnarrowed := hgauged.narrowed hnarrows (Settings.quiet_of_propagate? hpropagate)
    have hhighWater : result.session.highWater = st.session.highWater := hnarrows.highWater_eq
    refine (ih (hnode htrue) hnarrowed).around (Nat.le_of_eq hhighWater.symm) ?_
      (reach_propagated hnarrows) ?_ ⟨rfl, rfl, rfl, rfl⟩
    · exact Nat.le_trans (Nat.le_of_eq hhighWater) (Nat.le_max_left _ _)
    · show st.session.checkpoints.length + undecided.length ≤
        result.session.checkpoints.length + undecided.length
      exact Nat.le_of_eq (congrArg (List.length · + _) hnarrows.checkpoints_eq.symm)

end Search

/-! ## §5. Whole searches. -/

open Search

/-- The greatest depth of a whole search, whether or not it gets beyond the propagation before the
first decision. -/
theorem Search.Ends.maxDepth {net : Network} {settings : Settings} {queue : ArcQueue}
    {journal : Journal} {st' : SearchState}
    (h : Ends net settings ⟨Session.start net, queue, journal⟩ st') :
    st'.session.stats.maxDepth ≤ (Session.start net).totalSize ∧
      ∀ s, st'.session.solution = some s → net.size ≤ st'.session.stats.maxDepth := by
  cases h with
  -- no checkpoint was set
  | refuted hprepare hfalse =>
    have hpropagates := (of_prepare? journal hprepare).1
    have hzero := (Settings.quiet_of_prepare? hprepare).maxDepth_eq
    refine ⟨Nat.le_trans (Nat.le_of_eq hzero) (Nat.zero_le _), ?_⟩
    intro s hs
    cases hpropagates.narrows.solution_eq.symm.trans hs
  | @explored result found st'' hprepare htrue hruns =>
    obtain ⟨hpropagates, hnode⟩ := of_prepare? journal hprepare
    have hvalid := hnode htrue
    have hnarrows := hpropagates.narrows
    have hgauges := hruns.gauges hvalid
      ((Session.gauged_start net).narrowed hnarrows (Settings.quiet_of_prepare? hprepare))
    have hfresh : result.session.highWater = 0 := hnarrows.highWater_eq
    have hclosed : result.session.checkpoints.length = 0 :=
      congrArg List.length hnarrows.checkpoints_eq
    have hmaxDepth : st''.session.stats.maxDepth = st''.session.highWater := hgauges.maxDepth_eq
    constructor
    · -- at the root nothing is open, and the undecided variables are all of them
      have hle : st''.session.highWater ≤ max result.session.highWater
        (result.session.checkpoints.length +
          total (fun x => (result.session.dom x).size) (List.range net.size)) := hgauges.le_reach
      have hsize : result.session.domains.size = net.size := hvalid.1.size_domains
      rw [← hsize, ← Session.totalSize_eq_total] at hle
      have hsmaller := Session.totalSize_le_of_subset hnarrows.size_eq hnarrows.subset
      show st''.session.stats.maxDepth ≤ _
      omega
    · intro s hs
      -- only a run that succeeds has recorded a solution
      have hfound : found = true := by
        cases found with
        | true => rfl
        | false =>
          have hnone := (hruns.answers hvalid).2.trans hnarrows.solution_eq
          cases hnone.symm.trans hs
      have hreaches : result.session.checkpoints.length + (List.range net.size).length ≤
        st''.session.highWater := hgauges.reaches hfound
      rw [List.length_range] at hreaches
      show net.size ≤ st''.session.stats.maxDepth
      omega

/-- **A search is as deep as it has to be, and no deeper than there are values.** A started engine
solves. The greatest number of checkpoints that were open together is at most the number of values
in the ranges of all variables, and when there is a solution, at least the number of variables. -/
theorem Engine.maxDepth_bounded (engine : Engine) :
    ∃ outcome engine', engine.start.solve = .ok (outcome, engine') ∧
      (outcome.stats.maxDepth : Int) ≤
        (engine.network.bounds.toList.map fun b => b.upper.toInt - b.lower.toInt + 1).sum ∧
      ∀ s, outcome.solution = some s → engine.network.size ≤ outcome.stats.maxDepth := by
  obtain ⟨st', hends, hsolve⟩ := engine.exists_solve
  obtain ⟨hupper, hlower⟩ := hends.maxDepth
  refine ⟨_, _, hsolve, ?_, hlower⟩
  rw [← engine.network.totalSize_start]
  exact Int.ofNat_le.2 hupper

end ConstraintNet
