/-
  ConstraintNet.Proofs.Solver
  ───────────────────────────
  **THE SOLVER IS SOUND AND COMPLETE.**

  Each call of a search is responsible for the functions in its `Scope`:
  a node for all that its session admits, a branch for those that agree or
  disagree with the value it is about.  `Runs.answers` says that a call
  records one of them or shows that there is none.

  Main results, for every network, all settings and an engine with any past:

      `Engine.solve_sound`     — what it reports satisfies the network
      `Engine.solve_complete`  — it reports something whenever the network
                                 can be satisfied, under all settings alike
-/
import ConstraintNet.Engine
import ConstraintNet.Proofs.SearchRuns

namespace ConstraintNet

namespace Search

/-! ## §1. The answer of a call. -/

/-- The functions among which a call looks for a solution. -/
def Call.Scope (net : Network) : Call → (VariableId → Value) → Prop
  | .node st _, f => st.session.Admits net f
  | .equal st _ var value, f => st.session.Admits net f ∧ f var = value
  | .other st _ var value, f => st.session.Admits net f ∧ f var ≠ value
  | .follow st _ _, f => st.session.Admits net f

/-- What it means that a call found a solution, or that it did not. -/
def Call.Answers (net : Network) (call : Call) (s' : Session) : Bool → Prop
  | true => ∃ f, call.Scope net f ∧ s'.solution = some ((List.range net.size).map f)
  | false => (∀ f, ¬ call.Scope net f) ∧ s'.solution = call.state.session.solution

/-- `call` leaves the search to `inner`: the scope and the solution before are the same, and the
solution that `inner` leaves in `s₁` is the one that `call` leaves in `s₂`. -/
structure Delegates (net : Network) (call inner : Call) (s₁ s₂ : Session) : Prop where
  scope_iff : ∀ f, inner.Scope net f ↔ call.Scope net f
  before : inner.state.session.solution = call.state.session.solution
  after : s₂.solution = s₁.solution

/-- A call that delegates to another one has the answer of that one. -/
theorem Delegates.answers {net : Network} {call inner : Call} {s₁ s₂ : Session} {found : Bool}
    (h : Delegates net call inner s₁ s₂) (hinner : inner.Answers net s₁ found) :
    call.Answers net s₂ found := by
  cases found with
  | true =>
    obtain ⟨f, hf, hsolution⟩ := hinner
    exact ⟨f, (h.scope_iff f).1 hf, h.after.trans hsolution⟩
  | false =>
    obtain ⟨hnone, hsolution⟩ := hinner
    exact ⟨fun f hf => hnone f ((h.scope_iff f).2 hf), h.after.trans (hsolution.trans h.before)⟩

section Delegation

variable {net : Network} {settings : Settings} {st : SearchState} {remaining : List VariableId}
  {var : VariableId} {value : Value}

theorem delegates_equal (hvalid : (Call.equal st remaining var value).Valid net settings)
    {decided restored session : Session} {found : Bool} {st' : SearchState}
    (hassign : st.session.checkpoint.assign? var value = some decided)
    (hruns : Runs net settings
      (.follow (st.withSession decided) var (remaining.filter fun v => v ≠ var)) found st')
    (hrestore : st'.session.restore? = some restored)
    (hunassign : restored.unassign? var = some session) :
    Delegates net (.equal st remaining var value)
      (.follow (st.withSession decided) var (remaining.filter fun v => v ≠ var)) st'.session
      session := by
  have hfollow := hvalid.assign hassign
  have hdecided := Session.decided_of_assign? hassign
  have hleaves := (Runs.leaves hruns hfollow).1
  have hopen := hvalid.1.1.mem_undecided.1 hvalid.2.1
  exact ⟨Session.admits_assign_iff hdecided hfollow.2 hvalid.2.2, hdecided.solution_eq,
    (hdecided.rewound hopen hleaves hrestore hunassign).2⟩

theorem delegates_other (hvalid : (Call.other st remaining var value).Valid net settings)
    {narrowed restored session : Session} {removed inserted found : Bool} {st' : SearchState}
    (hremove : st.session.removeValue? var value = some (removed, narrowed))
    (hsome : ∃ v, v ∈ narrowed.dom var)
    (hruns : Runs net settings (.follow (st.withSession narrowed.checkpoint) var remaining) found
      st')
    (hrestore : st'.session.restore? = some restored)
    (hinsert : restored.insertValue? var value = some (inserted, session)) :
    Delegates net (.other st remaining var value)
      (.follow (st.withSession narrowed.checkpoint) var remaining) st'.session session := by
  have hfollow := hvalid.exclude hremove hsome
  have hexcluded := Session.excluded_of_removeValue? hremove
  have hscope := Session.admits_remove_iff hexcluded hfollow.2
  have hleaves := (Runs.leaves hruns hfollow).1
  obtain ⟨hrewound, hrestored⟩ := Session.rewound_of_restore? hleaves hrestore
  exact ⟨hscope, hexcluded.solution_eq,
    (hexcluded.rewound hvalid.2.2 hrewound hinsert).2.trans hrestored⟩

/-- A sound propagation leaves the scope as it is. -/
theorem delegates_followed {undecided : List VariableId} {result : Propagated}
    (h : Propagates net st.session result) (s : Session) :
    Delegates net (.follow st var undecided) (.node (st.propagated var undecided result) undecided)
      s s :=
  ⟨fun f => ⟨h.narrows.admits_of_admits, h.admits f⟩, h.narrows.solution_eq, rfl⟩

/-- When the first branch has found nothing, the second is the whole node. -/
theorem delegates_right (hvalid : (Call.node st remaining).Valid net settings)
    {chosen between : SearchState}
    (hchoose : choose? settings (st.mapStats Statistics.countNode) remaining =
      some (some (var, value), chosen))
    (hruns : Runs net settings (.equal chosen remaining var value) false between)
    (hleft : (Call.equal chosen remaining var value).Answers net between.session false)
    (s : Session) :
    Delegates net (.node st remaining) (.other between remaining var value) s s := by
  obtain ⟨hequal, hrewound, hsolution⟩ := hvalid.choose hchoose
  obtain ⟨hnone, hsolution'⟩ := hleft
  have hleaves := (hruns.leaves hequal).1
  have hback := hrewound.trans hleaves
  refine ⟨?_, hsolution'.trans hsolution, rfl⟩
  intro f
  constructor
  · intro hf
    exact (hback.admits_iff f).1 hf.1
  · intro hf
    refine ⟨(hback.admits_iff f).2 hf, ?_⟩
    intro hvalue
    exact hnone f ⟨(hrewound.admits_iff f).2 hf, hvalue⟩

/-- **Every valid call answers for its scope.** -/
theorem Runs.answers {call : Call} {found : Bool} {st' : SearchState}
    (h : Runs net settings call found st') (hvalid : call.Valid net settings) :
    call.Answers net st'.session found := by
  -- Soundness and completeness together, case by case of the run: a call answers as the part to
  -- which it hands its question.
  induction h with
  | complete hcomplete =>
    obtain ⟨f, hf, hsolution, _⟩ := hvalid.1.complete hcomplete
    exact ⟨f, hf, hsolution⟩
  | left _ hchoose _ ih =>
    obtain ⟨hequal, hrewound, _⟩ := hvalid.choose hchoose
    obtain ⟨f, hf, hsolution⟩ := ih hequal
    exact ⟨f, (hrewound.admits_iff f).1 hf.1, hsolution⟩
  | right _ hchoose hruns _ ihleft ihright =>
    obtain ⟨hequal, _, _⟩ := hvalid.choose hchoose
    obtain ⟨hleaves, hready⟩ := hruns.leaves hequal
    exact (delegates_right hvalid hchoose hruns (ihleft hequal) _).answers
      (ihright (hequal.other hleaves hready))
  | equal hassign hruns hrestore hunassign ih =>
    exact (delegates_equal hvalid hassign hruns hrestore hunassign).answers
      (ih (hvalid.assign hassign))
  | emptied hremove hempty hinsert =>
    have hexcluded := Session.excluded_of_removeValue? hremove
    have hvar := hvalid.1.1.lt_size hvalid.2.1
    -- No assignment fits an empty domain, so failing at once is right.
    refine ⟨?_, ?_⟩
    · intro f hf
      exact Session.not_admits_of_empty hvar hempty f
        ((Session.admits_remove_iff hexcluded hvar f).2 hf)
    · exact (hexcluded.rewound hvalid.2.2 (Session.rewound_withStats _ _) hinsert).2.trans
        hexcluded.solution_eq
  | other hremove hsome hruns hrestore hinsert ih =>
    exact (delegates_other hvalid hremove hsome hruns hrestore hinsert).answers
      (ih (hvalid.exclude hremove hsome))
  | refuted hpropagate hfalse =>
    obtain ⟨hpropagates, _, _⟩ := hvalid.propagated hpropagate
    exact ⟨hpropagates.not_admits hfalse, hpropagates.narrows.solution_eq⟩
  | followed hpropagate htrue _ ih =>
    obtain ⟨hpropagates, _, hnode⟩ := hvalid.propagated hpropagate
    exact (delegates_followed hpropagates _).answers (ih (hnode htrue))

end Delegation

/-- A whole search answers for the functions that a fresh session admits. -/
theorem Ends.answers {net : Network} {settings : Settings} {queue : ArcQueue} {journal : Journal}
    {st' : SearchState} (h : Ends net settings ⟨Session.start net, queue, journal⟩ st') :
    (∃ f, (Session.start net).Admits net f ∧
      st'.session.solution = some ((List.range net.size).map f)) ∨
    ((∀ f, ¬ (Session.start net).Admits net f) ∧ st'.session.solution = none) := by
  cases h with
  | refuted hprepare hfalse =>
    have hpropagates := (of_prepare? journal hprepare).1
    exact Or.inr ⟨hpropagates.not_admits hfalse, hpropagates.narrows.solution_eq⟩
  | @explored _ found st'' hprepare htrue hruns =>
    obtain ⟨hpropagates, hnode⟩ := of_prepare? journal hprepare
    have hanswers := hruns.answers (hnode htrue)
    cases found with
    | true =>
      obtain ⟨f, hf, hsolution⟩ := hanswers
      exact Or.inl ⟨f, hpropagates.narrows.admits_of_admits hf, hsolution⟩
    | false =>
      obtain ⟨hnone, hsolution⟩ := hanswers
      refine Or.inr ⟨?_, hsolution.trans hpropagates.narrows.solution_eq⟩
      intro f hf
      exact hnone f (hpropagates.admits f hf)

end Search

/-! ## §2. The solutions of a network. -/

/-- A fresh session admits the solutions of the network. -/
theorem Network.admits_start_iff (net : Network) (f : VariableId → Value) :
    (Session.start net).Admits net f ↔ net.IsSolution ((List.range net.size).map f) := by
  constructor
  · intro h
    refine isSolution_map_range h.1 ?_
    intro x b hb
    exact (net.mem_dom_start hb).1 (h.2 x (Array.getElem?_eq_some_iff.1 hb).1)
  · intro h
    refine ⟨?_, ?_⟩
    · intro c hc
      obtain ⟨a, b, ha, hb, hab⟩ := h.allowed c hc
      rw [getElem?_map_range f (net.lt_size_of_joins hc c.joins_ends)] at ha
      rw [getElem?_map_range f (net.lt_size_of_joins hc c.joins_ends.symm)] at hb
      obtain rfl := Option.some.inj ha
      obtain rfl := Option.some.inj hb
      exact (c.allows_first _ _).2 hab
    · intro x hx
      have hbounds : net.bounds[x]? = some net.bounds[x] := Array.getElem?_eq_getElem hx
      exact (net.mem_dom_start hbounds).2
        (h.in_bounds x _ _ hbounds (getElem?_map_range f hx))

theorem Network.IsSolution.admits {net : Network} {s : List Value} (h : net.IsSolution s) :
    (Session.start net).Admits net fun x => s.getD x 0 := by
  rw [net.admits_start_iff, h.eq_map_range]
  exact h

/-! ## §3. Engines. -/

namespace Engine

/-- **A started engine solves**: its search ends, and its outcome is what the search leaves. -/
theorem exists_solve (engine : Engine) :
    ∃ st', Search.Ends engine.network engine.settings
        ⟨Session.start engine.network, engine.queue, engine.journal⟩ st' ∧
      engine.start.solve = .ok (⟨st'.session.solution, st'.session.stats⟩,
        { engine with
          queue := st'.queue, journal := st'.journal, session := some st'.session }) := by
  obtain ⟨st', hsearch, hends⟩ :=
    Search.exists_search? engine.network engine.settings engine.queue engine.journal
  refine ⟨st', hends, ?_⟩
  unfold solve start
  dsimp only
  rw [if_neg (by exact Bool.false_ne_true), hsearch]

/-- The outcome of a started engine: a solution, or none because there is none. -/
theorem exists_outcome (engine : Engine) :
    ∃ outcome engine', engine.start.solve = .ok (outcome, engine') ∧
      ((∃ s, outcome.solution = some s ∧ engine.network.IsSolution s) ∨
        (outcome.solution = none ∧ ∀ s, ¬ engine.network.IsSolution s)) := by
  obtain ⟨st', hends, hsolve⟩ := engine.exists_solve
  refine ⟨_, _, hsolve, ?_⟩
  rcases hends.answers with ⟨f, hf, hsolution⟩ | ⟨hnone, hsolution⟩
  · exact Or.inl ⟨_, hsolution, (engine.network.admits_start_iff f).1 hf⟩
  · exact Or.inr ⟨hsolution, fun s hs => hnone _ hs.admits⟩

/-- **Soundness.** A started engine solves, and a solution that it reports satisfies the network:
it has one value per variable, in the range of the variable, and every constraint lists the pair of
values of its ends. -/
theorem solve_sound (engine : Engine) :
    ∃ outcome engine', engine.start.solve = .ok (outcome, engine') ∧
      ∀ s, outcome.solution = some s →
        engine.network.isSatisfiedBy s = true ∧ engine.network.IsSolution s := by
  obtain ⟨outcome, engine', hsolve, houtcome⟩ := engine.exists_outcome
  refine ⟨outcome, engine', hsolve, ?_⟩
  intro s hs
  rcases houtcome with ⟨s', hs', hsolution⟩ | ⟨hnone, _⟩
  · rw [hs] at hs'
    obtain rfl := Option.some.inj hs'
    exact ⟨(engine.network.isSatisfiedBy_iff s).2 hsolution, hsolution⟩
  · rw [hs] at hnone
    cases hnone

/-- **A solution is found exactly when there is one.** -/
theorem exists_outcome_isSome_iff (engine : Engine) :
    ∃ outcome engine', engine.start.solve = .ok (outcome, engine') ∧
      (outcome.solution.isSome = true ↔ ∃ s, engine.network.isSatisfiedBy s = true) := by
  obtain ⟨outcome, engine', hsolve, houtcome⟩ := engine.exists_outcome
  refine ⟨outcome, engine', hsolve, ?_⟩
  simp only [Network.isSatisfiedBy_iff]
  rcases houtcome with ⟨s, hs, hsolution⟩ | ⟨hnone, hall⟩
  · rw [hs]
    exact ⟨fun _ => ⟨s, hsolution⟩, fun _ => rfl⟩
  · rw [hnone]
    constructor
    · intro h
      cases h
    · intro h
      obtain ⟨s, hs⟩ := h
      exact absurd hs (hall s)

/-- **Completeness.** A started engine reports a solution exactly when some assignment satisfies
the network, and under any other settings it does the same. -/
theorem solve_complete (engine : Engine) :
    ∃ outcome engine', engine.start.solve = .ok (outcome, engine') ∧
      (outcome.solution.isSome = true ↔ ∃ s, engine.network.isSatisfiedBy s = true) ∧
      ∀ settings : Settings, ∃ outcome' engine'',
        { engine with settings := settings : Engine }.start.solve = .ok (outcome', engine'') ∧
          outcome'.solution.isSome = outcome.solution.isSome := by
  obtain ⟨outcome, engine', hsolve, hiff⟩ := engine.exists_outcome_isSome_iff
  refine ⟨outcome, engine', hsolve, hiff, ?_⟩
  intro settings
  obtain ⟨outcome', engine'', hsolve', hiff'⟩ :=
    exists_outcome_isSome_iff { engine with settings := settings }
  refine ⟨outcome', engine'', hsolve', ?_⟩
  rw [Bool.eq_iff_iff, hiff, hiff']

end Engine

end ConstraintNet
