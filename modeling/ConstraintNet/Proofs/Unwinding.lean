/-
  ConstraintNet.Proofs.Unwinding
  ──────────────────────────────
  **THE SEARCH UNWINDS EXACTLY.**

  A search undoes its work by three means: checkpoints for the domains, a
  withdrawal for the decision, and the return of the one value that was
  removed outside every checkpoint.  `Makes` says which calls a call makes
  while it runs, so that the calls of a search are those that can be reached
  from its first:

      `Makes.sound`           — a sound frame makes sound frames only
      `Frame.Sound.returns`   — a sound frame gives an answer and leaves the
                                session as it found it
      `Makes.exists_restore?` — a branch never misses the checkpoint to which
                                it returns

  Main result: `Engine.solve_unwinds`, for every network, all settings and an
  engine with any past.
-/
import Mathlib.Logic.Relation
import ConstraintNet.Proofs.Solver

namespace ConstraintNet

namespace Search

/-! ## §1. The calls that a call makes. -/

/-- A call with the allowance under which it runs. -/
structure Frame where
  allowance : Nat
  call : Call

/-- What the call of a frame returns. -/
def Frame.answer? (net : Network) (settings : Settings) (frame : Frame) : Answer :=
  let explore := explore? net settings frame.allowance
  match frame.call with
  | .node st remaining => explore st remaining
  | .equal st remaining var value => branchEqual? net settings explore st remaining var value
  | .other st remaining var value => branchOther? net settings explore st remaining var value
  | .follow st var undecided => follow? net settings explore st var undecided

/-- The first frame makes the second one while it runs: a node its branches, the second of them
when the first found nothing; a branch its propagation; a propagation the next node. -/
inductive Makes (net : Network) (settings : Settings) : Frame → Frame → Prop where
  | equal {allowance : Nat} {st chosen : SearchState} {remaining : List VariableId}
      {var : VariableId} {value : Value} (hopen : st.session.isComplete = false)
      (hchoose : choose? settings (st.mapStats Statistics.countNode) remaining =
        some (some (var, value), chosen)) :
      Makes net settings ⟨allowance + 1, .node st remaining⟩
        ⟨allowance, .equal chosen remaining var value⟩
  | other {allowance : Nat} {st chosen between : SearchState} {remaining : List VariableId}
      {var : VariableId} {value : Value} (hopen : st.session.isComplete = false)
      (hchoose : choose? settings (st.mapStats Statistics.countNode) remaining =
        some (some (var, value), chosen))
      (hleft : Frame.answer? net settings ⟨allowance, .equal chosen remaining var value⟩ =
        some (false, between)) :
      Makes net settings ⟨allowance + 1, .node st remaining⟩
        ⟨allowance, .other between remaining var value⟩
  | assign {allowance : Nat} {st : SearchState} {decided : Session} {remaining : List VariableId}
      {var : VariableId} {value : Value}
      (hassign : st.session.checkpoint.assign? var value = some decided) :
      Makes net settings ⟨allowance, .equal st remaining var value⟩
        ⟨allowance, .follow (st.withSession decided) var (remaining.filter fun v => v ≠ var)⟩
  | exclude {allowance : Nat} {st : SearchState} {narrowed : Session}
      {remaining : List VariableId} {var : VariableId} {value : Value} {removed : Bool}
      (hremove : st.session.removeValue? var value = some (removed, narrowed))
      (hsome : ∃ v, v ∈ narrowed.dom var) :
      Makes net settings ⟨allowance, .other st remaining var value⟩
        ⟨allowance, .follow (st.withSession narrowed.checkpoint) var remaining⟩
  | propagate {allowance : Nat} {st : SearchState} {var : VariableId}
      {undecided : List VariableId} {result : Propagated}
      (hpropagate : settings.propagate? net st.queue st.session var undecided = some result)
      (htrue : result.consistent = true) :
      Makes net settings ⟨allowance, .follow st var undecided⟩
        ⟨allowance, .node (st.propagated var undecided result) undecided⟩

variable {net : Network} {settings : Settings} {frame inner : Frame}

/-! ## §2. Sound frames. -/

/-- The allowance of a frame is large enough for the values and variables that are left. -/
def Frame.Fits (frame : Frame) : Prop :=
  match frame.call with
  | .node st remaining => remaining.length + st.session.totalSize < frame.allowance
  | .equal st remaining _ _ => remaining.length + st.session.totalSize ≤ frame.allowance
  | .other st remaining _ _ => remaining.length + st.session.totalSize ≤ frame.allowance
  | .follow st _ undecided => undecided.length + st.session.totalSize < frame.allowance

/-- The call of the frame is valid, and its allowance is large enough. -/
structure Frame.Sound (net : Network) (settings : Settings) (frame : Frame) : Prop where
  valid : frame.call.Valid net settings
  fits : frame.Fits

/-- A sound frame gives an answer, and this is a run of its call. -/
theorem Frame.Sound.exists_answer (h : frame.Sound net settings) :
    ∃ found st', frame.answer? net settings = some (found, st') ∧
      Runs net settings frame.call found st' := by
  obtain ⟨hvalid, hfits⟩ := h
  obtain ⟨allowance, call⟩ := frame
  have hsuffices := exists_explore? net settings allowance
  cases call with
  | node st remaining => exact hsuffices st remaining hvalid hfits
  | equal st remaining var value => exact hsuffices.branchEqual? hvalid hfits
  | other st remaining var value => exact hsuffices.branchOther? hvalid hfits
  | follow st var undecided => exact hsuffices.follow? hvalid hfits

theorem Frame.Sound.runs (h : frame.Sound net settings) {found : Bool} {st' : SearchState}
    (hanswer : frame.answer? net settings = some (found, st')) :
    Runs net settings frame.call found st' := by
  obtain ⟨found', st'', hanswer', hruns⟩ := h.exists_answer
  obtain ⟨rfl, rfl⟩ := Prod.mk.inj (Option.some.inj (hanswer.symm.trans hanswer'))
  exact hruns

/-- **A sound frame returns**, with the session as it found it and a queue that is fit for the
next propagation. -/
theorem Frame.Sound.returns (h : frame.Sound net settings) :
    ∃ found st', frame.answer? net settings = some (found, st') ∧
      frame.call.Leaves st'.session ∧ settings.Ready st'.queue := by
  obtain ⟨found, st', hanswer, hruns⟩ := h.exists_answer
  exact ⟨found, st', hanswer, hruns.leaves h.valid⟩

/-- The first branch of a sound node is sound. -/
theorem Frame.Sound.firstBranch {allowance : Nat} {st chosen : SearchState}
    {remaining : List VariableId} {var : VariableId} {value : Value}
    (h : Frame.Sound net settings ⟨allowance + 1, .node st remaining⟩)
    (hchoose : choose? settings (st.mapStats Statistics.countNode) remaining =
      some (some (var, value), chosen)) :
    Frame.Sound net settings ⟨allowance, .equal chosen remaining var value⟩ := by
  obtain ⟨hequal, hrewound, _⟩ := h.valid.choose hchoose
  have hfits : remaining.length + st.session.totalSize < allowance + 1 := h.fits
  refine ⟨hequal, ?_⟩
  show remaining.length + chosen.session.totalSize ≤ allowance
  rw [Session.totalSize_congr hrewound.domains_eq]
  exact Nat.le_of_lt_succ hfits

/-- **A sound frame makes sound frames only.** -/
theorem Makes.sound (hmakes : Makes net settings frame inner) (h : frame.Sound net settings) :
    inner.Sound net settings := by
  cases hmakes with
  | equal _ hchoose => exact h.firstBranch hchoose
  | @other allowance _ _ between remaining _ _ _ hchoose hleft =>
    have hfirst := h.firstBranch hchoose
    -- the second branch begins in what the first has left, which is what it found
    obtain ⟨hleaves, hready⟩ := (hfirst.runs hleft).leaves hfirst.valid
    refine ⟨hfirst.valid.other hleaves hready, ?_⟩
    show remaining.length + between.session.totalSize ≤ allowance
    rw [Session.totalSize_congr (Session.Rewound.domains_eq hleaves)]
    exact hfirst.fits
  | @assign allowance st decided remaining var _ hassign =>
    have hdecided := Session.decided_of_assign? hassign
    have hfits : remaining.length + st.session.totalSize ≤ allowance := h.fits
    -- the variable is off the list, which pays for the step
    have hshorter : (remaining.filter fun v => v ≠ var).length < remaining.length :=
      List.length_filter_lt_length_iff_exists.2 ⟨var, h.valid.2.1, by simp⟩
    have hle := Session.totalSize_le_of_subset hdecided.size_eq (hdecided.subset h.valid.2.2)
    refine ⟨h.valid.assign hassign, ?_⟩
    show (remaining.filter fun v => v ≠ var).length + decided.totalSize < allowance
    omega
  | @exclude allowance st narrowed remaining _ _ _ hremove hsome =>
    have hexcluded := Session.excluded_of_removeValue? hremove
    have hfits : remaining.length + st.session.totalSize ≤ allowance := h.fits
    -- the list stays as it is, but a value is gone
    have hlt := Session.totalSize_lt_of_subset hexcluded.size_eq hexcluded.subset h.valid.2.2
      hexcluded.not_mem_self
    refine ⟨h.valid.exclude hremove hsome, ?_⟩
    show remaining.length + narrowed.totalSize < allowance
    omega
  | @propagate allowance st _ undecided result hpropagate htrue =>
    obtain ⟨hpropagates, _, hnode⟩ := h.valid.propagated hpropagate
    have hnarrows := hpropagates.narrows
    have hfits : undecided.length + st.session.totalSize < allowance := h.fits
    have hle := Session.totalSize_le_of_subset hnarrows.size_eq hnarrows.subset
    refine ⟨hnode htrue, ?_⟩
    show undecided.length + result.session.totalSize < allowance
    omega

theorem sound_of_made (hmade : Relation.ReflTransGen (Makes net settings) frame inner)
    (h : frame.Sound net settings) : inner.Sound net settings := by
  induction hmade with
  | refl => exact h
  | tail _ hmakes ih => exact hmakes.sound ih

/-! ## §3. Open checkpoints. -/

/-- The call is the propagation of a decision, after which its branch returns to a checkpoint. -/
def Call.IsFollow : Call → Prop
  | .follow _ _ _ => True
  | _ => False

/-- A branch propagates under the checkpoint that it has opened. -/
theorem Makes.opened (hmakes : Makes net settings frame inner) (hfollow : inner.call.IsFollow) :
    ∃ domains rest, inner.call.state.session.checkpoints = domains :: rest := by
  cases hmakes with
  | equal => cases hfollow
  | other => cases hfollow
  | assign hassign => exact ⟨_, _, (Session.decided_of_assign? hassign).checkpoints_eq⟩
  | exclude => exact ⟨_, _, rfl⟩
  | propagate => cases hfollow

/-- After a propagation and all nodes that came of it, the branch finds a checkpoint to which it
can return. -/
theorem Makes.exists_restore? (hmakes : Makes net settings frame inner)
    (hfollow : inner.call.IsFollow) {s' : Session} (hleaves : inner.call.Leaves s') :
    ∃ restored, s'.restore? = some restored := by
  obtain ⟨domains, rest, hopened⟩ := hmakes.opened hfollow
  obtain ⟨allowance, call⟩ := inner
  cases call with
  | follow st var undecided =>
    have hunwound : st.session.Unwound s' := hleaves
    exact Session.exists_restore? (hunwound.checkpoints_eq.trans hopened)
  | _ => cases hfollow

/-! ## §4. The calls of a search. -/

/-- The call of the frame returns and leaves nothing behind: the domains, the decisions and the
checkpoints are as it found them, and no arc waits. A propagation leaves the domains to its branch,
which finds a checkpoint to return to. -/
def Frame.Unwinds (net : Network) (settings : Settings) (frame : Frame) : Prop :=
  ∃ found st', frame.answer? net settings = some (found, st') ∧ frame.call.Leaves st'.session ∧
    (settings.algorithm = .maintainingArcConsistency → st'.queue.toList = []) ∧
    (frame.call.IsFollow → ∃ restored, st'.session.restore? = some restored)

/-- **Every call unwinds** that comes of a sound frame which is not itself a propagation. -/
theorem Frame.Sound.unwinds (h : frame.Sound net settings) (hroot : ¬ frame.call.IsFollow)
    (hmade : Relation.ReflTransGen (Makes net settings) frame inner) :
    inner.Unwinds net settings := by
  obtain ⟨found, st', hanswer, hleaves, hready⟩ := (sound_of_made hmade h).returns
  refine ⟨found, st', hanswer, hleaves, fun hmac => (hready hmac).toList_eq, ?_⟩
  intro hfollow
  cases hmade with
  | refl => exact absurd hfollow hroot
  | tail _ hmakes => exact hmakes.exists_restore? hfollow hleaves

/-- The first frame of a search, after the propagation before the first decision. -/
def firstFrame (net : Network) (st : SearchState) (result : Propagated) : Frame :=
  ⟨net.size + result.session.totalSize + 1, .node (prepared st result) (List.range net.size)⟩

theorem sound_firstFrame {queue : ArcQueue} (journal : Journal) {result : Propagated}
    (hprepare : settings.prepare? net queue (Session.start net) = some result)
    (htrue : result.consistent = true) :
    (firstFrame net ⟨Session.start net, queue, journal⟩ result).Sound net settings := by
  refine ⟨(of_prepare? journal hprepare).2 htrue, ?_⟩
  show (List.range net.size).length + result.session.totalSize < _
  rw [List.length_range]
  exact Nat.lt_succ_self _

/-- A search is what its first frame answers, unless the first propagation refutes the network. -/
theorem search?_of_prepare? (st : SearchState) {result : Propagated}
    (hprepare : settings.prepare? net st.queue st.session = some result) :
    search? net settings st =
      if result.consistent = true then
        ((firstFrame net st result).answer? net settings).map fun (_, st') =>
          st'.withSession st'.session.finish
      else some ((prepared st result).withSession (prepared st result).session.finish) := by
  unfold search?
  rw [hprepare]
  rfl

/-- The search of a fresh session ends where its first propagation has left it. -/
theorem exists_search?_rewound (net : Network) (settings : Settings) (queue : ArcQueue)
    (journal : Journal) :
    ∃ result st', settings.prepare? net queue (Session.start net) = some result ∧
      search? net settings ⟨Session.start net, queue, journal⟩ = some st' ∧
      (Session.start net).Unwound result.session ∧ result.session.Rewound st'.session ∧
      settings.Ready st'.queue := by
  obtain ⟨result, hprepare, hpropagates, hready⟩ :=
    settings.exists_prepare? net queue (coherent_start net).size_domains
  have hunwound := hpropagates.narrows.unwound
  have hsearch := search?_of_prepare? ⟨Session.start net, queue, journal⟩ hprepare
  by_cases htrue : result.consistent = true
  · obtain ⟨found, st', hanswer, hleaves, hready'⟩ :=
      (sound_firstFrame journal hprepare htrue).returns
    have hrewound : result.session.Rewound st'.session := hleaves
    rw [if_pos htrue, hanswer] at hsearch
    have hfinished : result.session.Rewound st'.session.finish :=
      ⟨⟨hrewound.assignment_eq, hrewound.checkpoints_eq⟩, hrewound.domains_eq⟩
    exact ⟨result, _, hprepare, hsearch, hunwound, hfinished, hready'⟩
  · rw [if_neg htrue] at hsearch
    exact ⟨result, _, hprepare, hsearch, hunwound, ⟨⟨rfl, rfl⟩, rfl⟩, hready⟩

end Search

open Search

/-- **The search unwinds exactly.** A started engine solves, and afterwards the domains are those
that the propagation before the first decision has left, nothing is decided, no checkpoint is open
and no arc waits. Every call that the search makes on its way, from the first node on, returns with
the session as it found it, whether it has found a solution or not; an attempt to return to a
checkpoint that is not there, which would end the search without an answer, is never made. -/
theorem Engine.solve_unwinds (engine : Engine) :
    ∃ result outcome engine' session,
      engine.settings.prepare? engine.network engine.queue (Session.start engine.network) =
        some result ∧
      engine.start.solve = .ok (outcome, engine') ∧ engine'.session = some session ∧
      (session.domains = result.session.domains ∧
        session.assignment = Array.replicate engine.network.size none ∧
        session.checkpoints = [] ∧ engine'.checkpointDepth? = some 0 ∧
        (engine.settings.algorithm = .maintainingArcConsistency → engine'.queue.toList = [])) ∧
      (result.consistent = true → ∀ frame,
        Relation.ReflTransGen (Makes engine.network engine.settings)
          (firstFrame engine.network
            ⟨Session.start engine.network, engine.queue, engine.journal⟩ result) frame →
        frame.Unwinds engine.network engine.settings) := by
  obtain ⟨result, st', hprepare, hsearch, hunwound, hrewound, hready⟩ :=
    exists_search?_rewound engine.network engine.settings engine.queue engine.journal
  -- What the search leaves, followed by the rewinding after it, takes back everything since the
  -- preparation.
  have hback := hunwound.trans hrewound.toUnwound
  have hcheckpoints : st'.session.checkpoints = [] := hback.checkpoints_eq
  have hdepth : st'.session.depth = 0 := by
    rw [st'.session.depth_eq, hcheckpoints]
    rfl
  have hsolve : engine.start.solve = .ok (⟨st'.session.solution, st'.session.stats⟩,
      { engine with
        queue := st'.queue, journal := st'.journal, session := some st'.session }) := by
    unfold solve start
    dsimp only
    rw [if_neg (by exact Bool.false_ne_true), hsearch]
  refine ⟨result, _, _, st'.session, hprepare, hsolve, rfl, ?_, ?_⟩
  · exact ⟨hrewound.domains_eq, hback.assignment_eq, hcheckpoints, congrArg some hdepth,
      fun hmac => (hready hmac).toList_eq⟩
  · intro htrue frame hmade
    exact (sound_firstFrame engine.journal hprepare htrue).unwinds (fun h => h) hmade

end ConstraintNet
