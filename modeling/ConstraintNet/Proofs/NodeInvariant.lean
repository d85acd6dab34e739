/-
  ConstraintNet.Proofs.NodeInvariant
  ──────────────────────────────────
  **WHAT A NODE MAY RELY ON.**

  A node of the search is given a session and the list of the variables that
  remain, and checks neither.  What it relies on is `NodeInvariant`: the
  list, the domains, the decisions and the open checkpoints fit together,
  and what is left goes with what is decided.

  Most of it is coherence, which every valid call has.  The number of open
  checkpoints is a matter of the calls around the node, so the calls of a
  search come here with those that enclose them (`CallStack`):

      `Makes.length_checkpoints`      — a branch opens one checkpoint, no
                                        other call opens any
      `CallStack.length_checkpoints`  — hence one is open for each branch
                                        on the stack
      `exists_callStack`              — no call of a search is without a stack

  Main result: `Engine.nodes_keep_invariant`, for every node of every search.
-/
import ConstraintNet.Proofs.Unwinding

namespace ConstraintNet

namespace Search

variable {net : Network} {settings : Settings} {root frame inner : Frame} {stack : List Frame}

/-! ## §1. Calls and the calls around them. -/

/-- In a search that begins with `root`, the frame can be reached through the frames of the stack,
the innermost of which comes first. -/
inductive CallStack (net : Network) (settings : Settings) (root : Frame) :
    List Frame → Frame → Prop where
  | root : CallStack net settings root [] root
  | made {stack : List Frame} {frame inner : Frame}
      (houter : CallStack net settings root stack frame) (hmakes : Makes net settings frame inner) :
      CallStack net settings root (frame :: stack) inner

/-- Every call of a search has a stack. -/
theorem exists_callStack (hmade : Relation.ReflTransGen (Makes net settings) root frame) :
    ∃ stack, CallStack net settings root stack frame := by
  induction hmade with
  | refl => exact ⟨[], .root⟩
  | tail _ hmakes ih =>
    obtain ⟨stack, houter⟩ := ih
    exact ⟨_ :: stack, houter.made hmakes⟩

theorem CallStack.sound (h : CallStack net settings root stack frame)
    (hroot : root.Sound net settings) : frame.Sound net settings := by
  induction h with
  | root => exact hroot
  | made _ hmakes ih => exact hmakes.sound ih

/-! ## §2. One checkpoint for each branch. -/

/-- Whether the call is one of the two branches of a node. -/
def Call.isBranch : Call → Bool
  | .equal _ _ _ _ | .other _ _ _ _ => true
  | .node _ _ | .follow _ _ _ => false

/-- The number of branches on a stack. -/
def branches (stack : List Frame) : Nat := stack.countP fun frame => frame.call.isBranch

/-- The number of checkpoints that are open when the call begins. -/
def Frame.openCheckpoints (frame : Frame) : Nat := frame.call.state.session.checkpoints.length

/-- **A branch opens one checkpoint**, and no other call opens any. -/
theorem Makes.length_checkpoints (hmakes : Makes net settings frame inner)
    (h : frame.Sound net settings) :
    inner.openCheckpoints = frame.openCheckpoints + (if frame.call.isBranch then 1 else 0) := by
  cases hmakes with
  | equal _ hchoose =>
    have hrewound := (h.valid.choose hchoose).2.1
    exact congrArg List.length hrewound.checkpoints_eq
  | @other _ st chosen between _ _ _ _ hchoose hleft =>
    have hrewound := (h.valid.choose hchoose).2.1
    have hfirst := h.firstBranch hchoose
    -- the first branch has closed what it opened
    have hleaves : chosen.session.Rewound between.session :=
      ((hfirst.runs hleft).leaves hfirst.valid).1
    exact congrArg List.length (hrewound.trans hleaves).checkpoints_eq
  | @assign _ st decided _ _ _ hassign =>
    show decided.checkpoints.length = st.session.checkpoints.length + 1
    rw [(Session.decided_of_assign? hassign).checkpoints_eq, List.length_cons]
  | @exclude _ st narrowed _ _ _ _ hremove _ =>
    show (narrowed.domains :: narrowed.checkpoints).length = st.session.checkpoints.length + 1
    rw [(Session.excluded_of_removeValue? hremove).unwound.checkpoints_eq, List.length_cons]
  | propagate hpropagate _ =>
    have hnarrows := (h.valid.propagated hpropagate).1.narrows
    exact congrArg List.length hnarrows.checkpoints_eq

/-- **One checkpoint is open for each branch on the stack**, besides those that were open at the
beginning. -/
theorem CallStack.length_checkpoints (h : CallStack net settings root stack frame)
    (hroot : root.Sound net settings) :
    frame.openCheckpoints = root.openCheckpoints + branches stack := by
  induction h with
  | root => rfl
  | @made stack frame inner houter hmakes ih =>
    have hstep := hmakes.length_checkpoints (houter.sound hroot)
    have hcount : branches (frame :: stack) =
        branches stack + (if frame.call.isBranch then 1 else 0) := List.countP_cons
    omega

end Search

/-! ## §3. Nodes. -/

/-- What holds when a node begins, over these variables and inside so many branches. -/
structure NodeInvariant (net : Network) (s : Session) (remaining : List VariableId)
    (depth : Nat) : Prop where
  size_domains : s.domains.size = net.size
  size_assignment : s.assignment.size = net.size
  /-- The list names the undecided variables, in their order. -/
  ascending : remaining.Pairwise (· < ·)
  mem_remaining : ∀ x, x ∈ remaining ↔ s.assignment[x]? = some none
  nonempty : ∀ x < net.size, ∃ v, v ∈ s.dom x
  in_bounds : ∀ x b, net.bounds[x]? = some b → ∀ v ∈ s.dom x, b.lower ≤ v ∧ v ≤ b.upper
  /-- A decided variable has its value and no other. -/
  decided : ∀ x a, s.assignment[x]? = some (some a) → s.dom x = Domain.singleton a
  /-- A checkpoint is open for each branch around the node. -/
  length_checkpoints : s.checkpoints.length = depth
  /-- What is left of any other variable goes with a decided value. -/
  compatible : ∀ x a, s.assignment[x]? = some (some a) → ∀ y, y ≠ x → ∀ b ∈ s.dom y,
    net.Compatible x y a b

theorem Coherent.nodeInvariant {net : Network} {s : Session} {remaining : List VariableId}
    (h : Coherent net (fun _ => False) s remaining) :
    NodeInvariant net s remaining s.checkpoints.length where
  size_domains := h.size_domains
  size_assignment := h.size_assignment
  ascending := h.ascending
  mem_remaining _ := h.mem_undecided
  nonempty := h.nonempty
  in_bounds x _ hb v hv := (net.mem_dom_start hb).1 (h.in_bounds x v hv)
  decided := h.dom_eq
  length_checkpoints := rfl
  compatible x a := h.compatible x a id

open Search

/-- **Every node finds its invariant.** A started engine solves. If the propagation before the first
decision has refuted nothing, then at every node that the search comes to, inside any stack of
calls, the list of variables, the domains, the decisions and the open checkpoints are as
`NodeInvariant` says. -/
theorem Engine.nodes_keep_invariant (engine : Engine) :
    ∃ result outcome engine',
      engine.settings.prepare? engine.network engine.queue (Session.start engine.network) =
        some result ∧
      engine.start.solve = .ok (outcome, engine') ∧
      (result.consistent = true → ∀ stack allowance st remaining,
        CallStack engine.network engine.settings
          (firstFrame engine.network
            ⟨Session.start engine.network, engine.queue, engine.journal⟩ result)
          stack ⟨allowance, .node st remaining⟩ →
        NodeInvariant engine.network st.session remaining (branches stack)) := by
  obtain ⟨st', hends, hsolve⟩ := engine.exists_solve
  obtain ⟨result, hprepare, hpropagates, _⟩ :=
    exists_prepare? engine.network engine.settings engine.queue engine.journal
  refine ⟨result, _, _, hprepare, hsolve, ?_⟩
  intro htrue stack allowance st remaining hstack
  have hroot := sound_firstFrame engine.journal hprepare htrue
  have hnode := (hstack.sound hroot).valid.1.nodeInvariant
  have hdepth := hstack.length_checkpoints hroot
  have hnone : (firstFrame engine.network
      ⟨Session.start engine.network, engine.queue, engine.journal⟩ result).openCheckpoints = 0 :=
    congrArg List.length hpropagates.narrows.checkpoints_eq
  rw [hnone, Nat.zero_add] at hdepth
  exact { hnode with length_checkpoints := hdepth }

end ConstraintNet
