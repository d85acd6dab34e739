/-
  ConstraintNet.Proofs.Accounting
  ───────────────────────────────
  **EVERY BRANCH LEADS TO A NODE OR COUNTS A BACKTRACK.**

  A node that is not complete makes one branch and, when that has found
  nothing, another; a branch leads to a node of its own or is counted as a
  backtrack.  A part of the search that finds nothing is therefore a binary
  tree with the nodes inside and the backtracks as leaves.  Where a solution
  is found, the second branch is missing at every decision that it rests on,
  and the solution is a node itself:

      nothing found   —  backtracks = nodes + 1
      solution found  —  nodes = backtracks + decisions to come + 1

  `Runs.balanced` says so for every call, and `Engine.solve_accounts` for a
  whole search, with the propagation that comes before it.
-/
import ConstraintNet.Proofs.Visits

namespace ConstraintNet

/-- A decision takes exactly one variable off the list. -/
theorem Coherent.length_filter_ne {net : Network} {pending : VariableId → Prop} {s : Session}
    {undecided : List VariableId} (h : Coherent net pending s undecided) {x : VariableId}
    (hx : x ∈ undecided) : (undecided.filter fun y => y ≠ x).length + 1 = undecided.length := by
  have hnodup : undecided.Nodup := h.ascending.imp Nat.ne_of_lt
  have herase : undecided.erase x = undecided.filter fun y => y ≠ x := by
    rw [hnodup.erase_eq_filter]
    exact List.filter_congr fun y _ => by simp [bne, beq_eq_decide]
  rw [← herase, List.length_erase_of_mem hx]
  have hpos := List.length_pos_of_mem hx
  omega

namespace Search

/-! ## §1. The balance of a call. -/

/-- The nodes on the way from the call to a solution, if every decision on the way is that a
variable has a value. -/
def Call.levels : Call → Nat
  | .node _ remaining => remaining.length + 1
  | .equal _ remaining _ _ => remaining.length
  | .other _ remaining _ _ => remaining.length + 1
  | .follow _ _ undecided => undecided.length + 1

/-- What was counted between the beginning of the call and its end in `st'`: without a solution one
backtrack more than nodes, with one as many nodes more as there are levels. -/
def Call.Balanced (call : Call) (st' : SearchState) : Bool → Prop
  | true => st'.nodes + call.state.backtracks = call.state.nodes + st'.backtracks + call.levels
  | false => st'.backtracks + call.state.nodes = call.state.backtracks + st'.nodes + 1

/-- A call that counts nothing around the call inside has the same balance. -/
theorem Call.Balanced.around {call inner : Call} {st₁ st₂ : SearchState} {found : Bool}
    (h : inner.Balanced st₁ found) (hlevels : inner.levels = call.levels)
    (hbefore : call.state.SameCounts inner.state) (hafter : st₁.SameCounts st₂) :
    call.Balanced st₂ found := by
  have hn := hbefore.nodes_eq
  have hb := hbefore.backtracks_eq
  have hn' := hafter.nodes_eq
  have hb' := hafter.backtracks_eq
  cases found with
  | true =>
    have hinner : st₁.nodes + inner.state.backtracks =
      inner.state.nodes + st₁.backtracks + inner.levels := h
    show st₂.nodes + call.state.backtracks = call.state.nodes + st₂.backtracks + call.levels
    omega
  | false =>
    have hinner : st₁.backtracks + inner.state.nodes =
      inner.state.backtracks + st₁.nodes + 1 := h
    show st₂.backtracks + call.state.nodes = call.state.backtracks + st₂.nodes + 1
    omega

variable {net : Network} {settings : Settings}

/-- **Every valid call is balanced.** -/
theorem Runs.balanced {call : Call} {found : Bool} {st' : SearchState}
    (h : Runs net settings call found st') (hvalid : call.Valid net settings) :
    call.Balanced st' found := by
  induction h with
  | @complete st remaining hcomplete =>
    have hnil : remaining = [] := hvalid.1.isComplete_iff.1 hcomplete
    show st.nodes + 1 + st.backtracks = st.nodes + st.backtracks + (remaining.length + 1)
    rw [hnil, List.length_nil]
    omega
  | @left st chosen st' remaining _ _ _ hchoose _ ih =>
    have hleft : st'.nodes + chosen.backtracks = chosen.nodes + st'.backtracks + remaining.length :=
      ih (hvalid.choose hchoose).1
    obtain ⟨hnodes, hbacktracks⟩ := counts_of_choose? hchoose
    show st'.nodes + st.backtracks = st.nodes + st'.backtracks + (remaining.length + 1)
    omega
  | @right st chosen between st' remaining _ _ found _ hchoose hruns _ ihleft ihright =>
    have hequal := (hvalid.choose hchoose).1
    obtain ⟨hleaves, hready⟩ := hruns.leaves hequal
    have hleft : between.backtracks + chosen.nodes = chosen.backtracks + between.nodes + 1 :=
      ihleft hequal
    have hright := ihright (hequal.other hleaves hready)
    obtain ⟨hnodes, hbacktracks⟩ := counts_of_choose? hchoose
    -- the backtrack in excess of the first branch stands for the node itself
    cases found with
    | true =>
      have hright : st'.nodes + between.backtracks =
        between.nodes + st'.backtracks + (remaining.length + 1) := hright
      show st'.nodes + st.backtracks = st.nodes + st'.backtracks + (remaining.length + 1)
      omega
    | false =>
      have hright : st'.backtracks + between.nodes = between.backtracks + st'.nodes + 1 := hright
      show st'.backtracks + st.nodes = st.backtracks + st'.nodes + 1
      omega
  | equal hassign _ hrestore hunassign ih =>
    exact (ih (hvalid.assign hassign)).around (hvalid.1.1.length_filter_ne hvalid.2.1)
      (sameCounts_of_assign? hassign) (sameCounts_of_withdrawal hrestore hunassign)
  | @emptied st _ _ _ _ _ _ _ hremove _ hinsert =>
    obtain ⟨hnodes, hbacktracks⟩ := counts_of_emptied hremove hinsert
    show _ + st.nodes = st.backtracks + _ + 1
    rw [hnodes, hbacktracks]
    omega
  | other hremove hsome _ hrestore hinsert ih =>
    exact (ih (hvalid.exclude hremove hsome)).around rfl (sameCounts_of_removeValue? hremove)
      (sameCounts_of_return hrestore hinsert)
  | @refuted st var undecided result hpropagate _ =>
    obtain ⟨hnodes, hbacktracks⟩ := sameCounts_propagated hpropagate
    show (st.propagated var undecided result).backtracks + 1 + st.nodes =
      st.backtracks + (st.propagated var undecided result).nodes + 1
    omega
  | followed hpropagate htrue _ ih =>
    obtain ⟨_, _, hnode⟩ := hvalid.propagated hpropagate
    exact (ih (hnode htrue)).around rfl (sameCounts_propagated hpropagate) ⟨rfl, rfl⟩

end Search

/-! ## §2. The ways in which a search ends. -/

/-- How a search can end. -/
inductive Ending where
  /-- The propagation before the first decision failed. -/
  | refuted
  /-- A solution was found. -/
  | solved
  /-- All nodes were explored in vain. -/
  | exhausted

/-- What the outcome of a search over `size` variables is for each way to end; `consistent` is the
verdict of the propagation before the first decision. -/
def Outcome.EndsBy (outcome : Outcome) (size : Nat) (consistent : Bool) : Ending → Prop
  | .refuted => consistent = false ∧ outcome.solution = none ∧
      outcome.stats.nodes = 0 ∧ outcome.stats.backtracks = 0
  | .solved => outcome.solution.isSome = true ∧
      outcome.stats.nodes = outcome.stats.backtracks + size + 1
  | .exhausted => consistent = true ∧ outcome.solution = none ∧
      outcome.stats.backtracks = outcome.stats.nodes + 1

/-- No search ends in two ways. -/
theorem Outcome.EndsBy.unique {outcome : Outcome} {size : Nat} {consistent : Bool}
    {ending ending' : Ending} (h : outcome.EndsBy size consistent ending)
    (h' : outcome.EndsBy size consistent ending') : ending = ending' := by
  -- endings differ in the verdict before the search or in whether there is a solution
  cases ending with
  | refuted =>
    obtain ⟨hfalse, hnone, _⟩ := h
    cases ending' with
    | refuted => rfl
    | solved =>
      have hsome := h'.1
      rw [hnone] at hsome
      cases hsome
    | exhausted =>
      have htrue := h'.1
      rw [hfalse] at htrue
      cases htrue
  | solved =>
    obtain ⟨hsome, _⟩ := h
    cases ending' with
    | refuted =>
      rw [h'.2.1] at hsome
      cases hsome
    | solved => rfl
    | exhausted =>
      rw [h'.2.1] at hsome
      cases hsome
  | exhausted =>
    obtain ⟨htrue, hnone, _⟩ := h
    cases ending' with
    | refuted =>
      have hfalse := h'.1
      rw [htrue] at hfalse
      cases hfalse
    | solved =>
      have hsome := h'.1
      rw [hnone] at hsome
      cases hsome
    | exhausted => rfl

open Search

theorem Search.Ends.exists_ending {net : Network} {settings : Settings} {queue : ArcQueue}
    {journal : Journal} {st' : SearchState}
    (h : Ends net settings ⟨Session.start net, queue, journal⟩ st') :
    ∃ result, settings.prepare? net queue (Session.start net) = some result ∧
      ∃ ending, Outcome.EndsBy ⟨st'.session.solution, st'.session.stats⟩ net.size
        result.consistent ending := by
  cases h with
  | refuted hprepare hfalse =>
    have hpropagates := (of_prepare? journal hprepare).1
    obtain ⟨hnodes, hbacktracks⟩ := counts_prepared journal hprepare
    exact ⟨_, hprepare, .refuted, hfalse, hpropagates.narrows.solution_eq, hnodes, hbacktracks⟩
  | @explored result found st'' hprepare htrue hruns =>
    obtain ⟨hpropagates, hnode⟩ := of_prepare? journal hprepare
    obtain ⟨hnodes, hbacktracks⟩ := counts_prepared journal hprepare
    have hanswers := hruns.answers (hnode htrue)
    have hbalanced := hruns.balanced (hnode htrue)
    refine ⟨result, hprepare, ?_⟩
    -- the balance of the run decides between the other two endings
    cases found with
    | true =>
      obtain ⟨f, _, hsolution⟩ := hanswers
      refine ⟨.solved, Option.isSome_iff_exists.2 ⟨_, hsolution⟩, ?_⟩
      have hbalanced : st''.nodes + _ = _ + st''.backtracks +
        ((List.range net.size).length + 1) := hbalanced
      rw [Call.state, hnodes, hbacktracks, List.length_range] at hbalanced
      show st''.nodes = st''.backtracks + net.size + 1
      omega
    | false =>
      refine ⟨.exhausted, htrue, hanswers.2.trans hpropagates.narrows.solution_eq, ?_⟩
      have hbalanced : st''.backtracks + _ = _ + st''.nodes + 1 := hbalanced
      rw [Call.state, hnodes, hbacktracks] at hbalanced
      show st''.backtracks = st''.nodes + 1
      omega

/-- **Nodes and backtracks account for each other.** A started engine solves, and exactly one of
three things holds: the propagation before the first decision failed, there is no solution, and
neither a node nor a backtrack was counted; a solution was found, and there is one node more than
backtracks and variables together; or there is no solution after all nodes were explored, and one
backtrack more than nodes. -/
theorem Engine.solve_accounts (engine : Engine) :
    ∃ result outcome engine',
      engine.settings.prepare? engine.network engine.queue (Session.start engine.network) =
        some result ∧
      engine.start.solve = .ok (outcome, engine') ∧
      ∃! ending, outcome.EndsBy engine.network.size result.consistent ending := by
  obtain ⟨st', hends, hsolve⟩ := engine.exists_solve
  obtain ⟨result, hprepare, ending, hending⟩ := hends.exists_ending
  exact ⟨result, _, _, hprepare, hsolve, ending, hending, fun _ h => h.unique hending⟩

end ConstraintNet
