/-
  ConstraintNet.Proofs.Lifecycle
  ──────────────────────────────
  **AN ENGINE AFTER ANY SEQUENCE OF CALLS.**

  An engine may be started and asked to solve in any order and as often as
  one likes.  What it answers is settled by the calls themselves:

      never started                — it has not been started
      solved since the last start  — it has been solved already
      otherwise                    — what a new engine answers first

  For the last of these, nothing may be left of the searches before.  The
  session is a fresh one, the arc queue is idle and there is only one such
  queue, and no propagation reads the journal; so two searches of the same
  network go in step (`lockstep_self`), whatever their engines have done.

  Main result: `Engine.answers_by_calls`.
-/
import Mathlib.Data.List.Induction
import ConstraintNet.Proofs.Lockstep
import ConstraintNet.Proofs.Solver

namespace ConstraintNet

/-! ## §1. Calls. -/

/-- What is asked of an engine. -/
inductive EngineCall where
  | start
  | solve
  deriving Repr, DecidableEq

namespace Engine

/-- A solve that changes its engine in place: the session is taken out before anything else, and
what becomes of it is up to each way out. -/
def solveInPlace (engine : Engine) : Except EngineError Outcome × Engine :=
  let emptied := { engine with session := none }
  match engine.session with
  | none => (.error .notStarted, emptied)
  | some session =>
    if session.finished then (.error .alreadySolved, { emptied with session := some session })
    else
      match
        Search.search? engine.network engine.settings
          ⟨session, engine.queue, engine.journal⟩ with
      | none => (.error .fault, emptied)
      | some st =>
        (.ok ⟨st.session.solution, st.session.stats⟩,
          { emptied with queue := st.queue, journal := st.journal, session := some st.session })

/-- A solve answers the same whether it changes its engine or returns another one. -/
theorem solveInPlace_fst (engine : Engine) :
    engine.solveInPlace.1 = engine.solve.map Prod.fst := by
  unfold solveInPlace solve
  cases engine.session with
  | none => rfl
  | some session =>
    dsimp only
    cases session.finished with
    | true => rfl
    | false =>
      cases Search.search? engine.network engine.settings
        ⟨session, engine.queue, engine.journal⟩ with
      | none => rfl
      | some st => rfl

/-- The engine after a call. -/
def call (engine : Engine) : EngineCall → Engine
  | .start => engine.start
  | .solve => engine.solveInPlace.2

/-- The engine after these calls, in their order. -/
def after (engine : Engine) (calls : List EngineCall) : Engine := calls.foldl call engine

theorem after_concat (engine : Engine) (calls : List EngineCall) (c : EngineCall) :
    engine.after (calls ++ [c]) = (engine.after calls).call c := by
  unfold after
  rw [List.foldl_append]
  rfl

/-- Among the calls is a solve that was answered with an outcome, and no start after it. -/
def SolvedSince (engine : Engine) (calls : List EngineCall) : Prop :=
  ∃ before since, calls = before ++ .solve :: since ∧ .start ∉ since ∧
    ∃ outcome engine', (engine.after before).solve = .ok (outcome, engine')

variable {engine : Engine} {calls : List EngineCall}

/-- A call in a sequence that has one more at its end is that one, or was there before. -/
theorem split_concat {before since : List EngineCall} {c d : EngineCall}
    (h : calls ++ [c] = before ++ d :: since) :
    (since = [] ∧ calls = before ∧ c = d) ∨
      ∃ front, since = front ++ [c] ∧ calls = before ++ d :: front := by
  rcases List.eq_nil_or_concat' since with rfl | ⟨front, last, rfl⟩
  · obtain ⟨hcalls, hlast⟩ := List.append_inj' h rfl
    exact Or.inl ⟨rfl, hcalls, (List.cons.inj hlast).1⟩
  · rw [← List.cons_append, ← List.append_assoc] at h
    obtain ⟨hcalls, hlast⟩ := List.append_inj' h rfl
    exact Or.inr ⟨front, by rw [(List.cons.inj hlast).1], hcalls⟩

theorem not_solvedSince_start : ¬ engine.SolvedSince (calls ++ [.start]) := by
  intro h
  obtain ⟨before, since, hcalls, hstart, _⟩ := h
  rcases split_concat hcalls with ⟨_, _, hlast⟩ | ⟨front, rfl, _⟩
  · cases hlast
  · exact hstart (List.mem_append_right front List.mem_cons_self)

theorem solvedSince_solve_iff : engine.SolvedSince (calls ++ [.solve]) ↔
    engine.SolvedSince calls ∨
      ∃ outcome engine', (engine.after calls).solve = .ok (outcome, engine') := by
  constructor
  · intro h
    obtain ⟨before, since, hcalls, hstart, hsolved⟩ := h
    rcases split_concat hcalls with ⟨_, rfl, _⟩ | ⟨front, rfl, hbefore⟩
    · exact Or.inr hsolved
    · exact Or.inl ⟨before, front, hbefore, fun hmem => hstart (List.mem_append_left _ hmem),
        hsolved⟩
  · rintro (⟨before, since, rfl, hstart, hsolved⟩ | hsolved)
    · refine ⟨before, since ++ [.solve], by rw [List.append_assoc, List.cons_append], ?_, hsolved⟩
      intro hmem
      rcases List.mem_append.1 hmem with hsince | hlast
      · exact hstart hsince
      · cases List.mem_singleton.1 hlast
    · exact ⟨calls, [], rfl, List.not_mem_nil, hsolved⟩

end Engine

/-! ## §2. Searches of one network. -/

theorem Session.Twins.eq {s s' : Session} (h : s.Twins Eq s') : s' = s := by
  have hdepth := h.toRewound.depth_eq
  obtain ⟨⟨⟨hassignment, hcheckpoints⟩, hdomains⟩, hstats, hwater, hsolution, hfinished⟩ := h
  cases s
  cases s'
  rw [mk.injEq]
  exact ⟨hdomains, hassignment, hcheckpoints, hdepth, hwater, hstats.symm, hsolution, hfinished⟩

namespace Search

/-- A propagation has its result in common with itself. -/
theorem inStep_self (result : Propagated) : InStep Eq (fun _ => True) result result :=
  ⟨rfl, rfl, fun _ => rfl, fun _ => trivial⟩

/-- **Two searches of one network go in step.** Neither the queues, which are idle when they matter,
nor the journals make a difference. -/
theorem lockstep_self (net : Network) (settings : Settings) :
    Lockstep net net settings Eq fun _ => True where
  node := by
    rintro _ _ rfl
    rfl
  backtrack := by
    rintro _ _ rfl
    rfl
  deepen := by
    rintro _ _ _ rfl
    rfl
  start := by
    intro queue queue' result result' hprepare hprepare'
    unfold Settings.prepare? at hprepare hprepare'
    cases halgorithm : settings.algorithm with
    -- forward checking prepares nothing
    | forwardChecking =>
      rw [halgorithm] at hprepare hprepare'
      obtain rfl := Option.some.inj hprepare
      obtain rfl := Option.some.inj hprepare'
      exact ⟨rfl, rfl, fun _ => rfl, fun _ => trivial⟩
    | maintainingArcConsistency =>
      rw [halgorithm] at hprepare hprepare'
      obtain rfl := Option.some.inj (hprepare.symm.trans hprepare')
      exact inStep_self result
  follow := by
    intro st st' var undecided result result' htwins hvalid hvalid' hpropagate hpropagate'
    cases htwins with
    | follow hsessions _ _ =>
      rw [hsessions.eq] at hpropagate'
      unfold Settings.propagate? at hpropagate hpropagate'
      cases halgorithm : settings.algorithm with
      | forwardChecking =>
        rw [halgorithm] at hpropagate hpropagate'
        obtain ⟨checked, hchecked, rfl⟩ := Option.map_eq_some_iff.1 hpropagate
        obtain ⟨checked', hchecked', rfl⟩ := Option.map_eq_some_iff.1 hpropagate'
        obtain rfl := Option.some.inj (hchecked.symm.trans hchecked')
        exact ⟨rfl, rfl, fun _ => rfl, fun _ => trivial⟩
      | maintainingArcConsistency =>
        -- between propagations the queue of either search is empty
        have hqueue := (hvalid.1.2 halgorithm).eq_empty
        have hqueue' := (hvalid'.1.2 halgorithm).eq_empty
        rw [halgorithm, hqueue] at hpropagate
        rw [halgorithm, hqueue'] at hpropagate'
        obtain rfl := Option.some.inj (hpropagate.symm.trans hpropagate')
        exact inStep_self result

variable {net : Network} {settings : Settings} {queue queue' : ArcQueue}
  {journal journal' : Journal} {st st' : SearchState}

/-- Two searches of one network come to the same end, whatever their engines went through before. -/
theorem Ends.outcome_eq (h : Ends net settings ⟨Session.start net, queue, journal⟩ st)
    (h' : Ends net settings ⟨Session.start net, queue', journal'⟩ st') :
    st'.session.solution = st.session.solution ∧ st'.session.stats = st.session.stats := by
  obtain ⟨hsolution, hstats⟩ := (lockstep_self net settings).ends rfl h h'
  exact ⟨hsolution, hstats.symm⟩

/-- A search leaves its session finished and without an open checkpoint. -/
theorem Ends.closed (h : Ends net settings ⟨Session.start net, queue, journal⟩ st) :
    st.session.finished = true ∧ st.session.depth = 0 := by
  have hdepth : ∀ s : Session, s.checkpoints = [] → s.finish.depth = 0 := by
    intro s hnone
    show s.depth = 0
    rw [s.depth_eq, hnone]
    rfl
  cases h with
  | refuted hprepare _ =>
    have hnarrows := (of_prepare? journal hprepare).1.narrows
    exact ⟨rfl, hdepth _ hnarrows.checkpoints_eq⟩
  | explored hprepare htrue hruns =>
    obtain ⟨hpropagates, hnode⟩ := of_prepare? journal hprepare
    obtain ⟨⟨hunwound, _⟩, _⟩ := hruns.leaves (hnode htrue)
    exact ⟨rfl, hdepth _ (hunwound.checkpoints_eq.trans hpropagates.narrows.checkpoints_eq)⟩

end Search

/-! ## §3. Where an engine stands. -/

namespace Engine

/-- What the session of an engine is after these calls to `first`. -/
inductive Stands (first : Engine) (calls : List EngineCall) : Option Session → Prop where
  | unstarted (hnever : .start ∉ calls) (hopen : ¬ first.SolvedSince calls) :
      Stands first calls none
  | ready (hstart : .start ∈ calls) (hopen : ¬ first.SolvedSince calls) :
      Stands first calls (some (Session.start first.network))
  | solved {session : Session} (hstart : .start ∈ calls) (hsolved : first.SolvedSince calls)
      (hfinished : session.finished = true) (hdepth : session.depth = 0) :
      Stands first calls (some session)

/-- The network and the settings of an engine never change, and its session is as the calls say. -/
structure Follows (first : Engine) (calls : List EngineCall) (engine : Engine) : Prop where
  network_eq : engine.network = first.network
  settings_eq : engine.settings = first.settings
  stands : Stands first calls engine.session

variable {first engine : Engine} {calls : List EngineCall}

/-- An engine with a fresh session is as good as started. -/
theorem start_eq_self (h : engine.session = some (Session.start engine.network)) :
    engine.start = engine := by
  unfold start
  rw [← h]

/-- An engine that was never started does not search. -/
theorem solve_of_unstarted (h : engine.session = none) : engine.solve = .error .notStarted := by
  unfold solve
  rw [h]

/-- Nor does one that has searched since. -/
theorem solve_of_finished {session : Session} (h : engine.session = some session)
    (hfinished : session.finished = true) : engine.solve = .error .alreadySolved := by
  unfold solve
  rw [h]
  exact if_pos hfinished

theorem call_solve_of_ok {outcome : Outcome} {engine' : Engine}
    (h : engine.solve = .ok (outcome, engine')) : engine.call .solve = engine' := by
  show engine.solveInPlace.2 = engine'
  unfold solve at h
  unfold solveInPlace
  cases hsession : engine.session with
  | none =>
    rw [hsession] at h
    cases h
  | some session =>
    rw [hsession] at h
    dsimp only at h ⊢
    cases hfinished : session.finished with
    | true =>
      rw [hfinished] at h
      cases h
    | false =>
      rw [hfinished] at h
      cases hsearch : Search.search? engine.network engine.settings
        ⟨session, engine.queue, engine.journal⟩ with
      | none =>
        rw [hsearch] at h
        cases h
      | some st =>
        rw [hsearch] at h
        exact (Prod.mk.inj (Except.ok.inj h)).2

/-- There is no session to put back. -/
theorem call_solve_of_unstarted (h : engine.session = none) : engine.call .solve = engine := by
  unfold call solveInPlace
  rw [h]
  show { engine with session := none } = engine
  rw [← h]

/-- The session that was taken out is put back. -/
theorem call_solve_of_finished {session : Session} (h : engine.session = some session)
    (hfinished : session.finished = true) : engine.call .solve = engine := by
  unfold call solveInPlace
  rw [h]
  dsimp only
  rw [if_pos hfinished, ← h]

/-- **What one call does**: after it, the session is as the calls say again. -/
theorem Follows.concat (h : Follows first calls (first.after calls)) (c : EngineCall) :
    Follows first (calls ++ [c]) (first.after (calls ++ [c])) := by
  rw [after_concat]
  obtain ⟨hnetwork, hsettings, hstands⟩ := h
  cases c with
  | start =>
    refine ⟨hnetwork, hsettings, ?_⟩
    show Stands first _ (some (Session.start (first.after calls).network))
    rw [hnetwork]
    exact .ready (List.mem_append_right calls List.mem_cons_self) not_solvedSince_start
  | solve =>
    -- where the engine stands decides what a call to solve does
    generalize hsession : (first.after calls).session = session at hstands
    cases hstands with
    | unstarted hnever hopen =>
      have herror := solve_of_unstarted hsession
      rw [call_solve_of_unstarted hsession]
      refine ⟨hnetwork, hsettings, hsession ▸ .unstarted ?_ ?_⟩
      · intro hmem
        rcases List.mem_append.1 hmem with hbefore | hlast
        · exact hnever hbefore
        · cases List.mem_singleton.1 hlast
      · rw [solvedSince_solve_iff, herror]
        rintro (hsolved | ⟨_, _, hok⟩)
        · exact hopen hsolved
        · cases hok
    | ready hstart _ =>
      obtain ⟨st, hends, hsolve⟩ := (first.after calls).exists_solve
      rw [start_eq_self (by rw [hsession, hnetwork])] at hsolve
      obtain ⟨hfinished, hdepth⟩ := hends.closed
      rw [call_solve_of_ok hsolve]
      exact ⟨hnetwork, hsettings, .solved (List.mem_append_left _ hstart)
        (solvedSince_solve_iff.2 (Or.inr ⟨_, _, hsolve⟩)) hfinished hdepth⟩
    | solved hstart hsolved hfinished hdepth =>
      rw [call_solve_of_finished hsession hfinished]
      exact ⟨hnetwork, hsettings, hsession ▸ .solved (List.mem_append_left _ hstart)
        (solvedSince_solve_iff.2 (Or.inl hsolved)) hfinished hdepth⟩

/-- **What any sequence of calls does** to an engine that was not started. -/
theorem follows_after (first : Engine) (hsession : first.session = none)
    (calls : List EngineCall) : Follows first calls (first.after calls) := by
  induction calls using List.reverseRecOn with
  | nil =>
    refine ⟨rfl, rfl, ?_⟩
    rw [show (first.after []).session = none from hsession]
    refine .unstarted List.not_mem_nil ?_
    intro h
    obtain ⟨before, since, hcalls, _⟩ := h
    cases before with
    | nil => cases hcalls
    | cons => cases hcalls
  | append_singleton calls c ih => exact ih.concat c

/-! ## §4. What an engine answers. -/

/-- An engine with a fresh session has the outcome that a new engine has first. -/
theorem exists_first_outcome (h : engine.session = some (Session.start engine.network)) :
    ∃ outcome fresh engine', ConstraintNet.solve engine.network engine.settings =
      .ok (outcome, fresh) ∧ engine.solve = .ok (outcome, engine') := by
  obtain ⟨st, hends, hsolve⟩ := engine.exists_solve
  obtain ⟨st', hends', hsolve'⟩ := (new engine.network engine.settings 0).exists_solve
  obtain ⟨hsolution, hstats⟩ := hends.outcome_eq hends'
  rw [start_eq_self h] at hsolve
  rw [hsolution, hstats] at hsolve'
  exact ⟨_, _, _, hsolve', hsolve⟩

/-- **An engine answers by the calls that were made.** After any sequence of calls to a new engine,
a solve says that the engine was not started exactly when there was no start among them, that it
was solved already exactly when a solve was answered with an outcome after the latest start, and
otherwise it has the outcome that a new engine has first. A solve without an outcome has put back
what it took, so the engine is as it was. The engine knows no number of open checkpoints before the
first start, and has none open ever after. -/
theorem answers_by_calls (net : Network) (settings : Settings) (limit : Nat)
    (calls : List EngineCall) :
    ((((new net settings limit).after calls).solve = .error .notStarted ↔ .start ∉ calls) ∧
      (((new net settings limit).after calls).solve = .error .alreadySolved ↔
        (new net settings limit).SolvedSince calls) ∧
      (.start ∈ calls → ¬ (new net settings limit).SolvedSince calls →
        ∃ outcome engine engine', ConstraintNet.solve net settings = .ok (outcome, engine) ∧
          ((new net settings limit).after calls).solve = .ok (outcome, engine'))) ∧
    (∀ error, ((new net settings limit).after calls).solve = .error error →
      (new net settings limit).after (calls ++ [.solve]) = (new net settings limit).after calls) ∧
    ((new net settings limit).after calls).checkpointDepth? =
      if .start ∈ calls then some 0 else none := by
  obtain ⟨hnetwork, hsettings, hstands⟩ := follows_after (new net settings limit) rfl calls
  have hnetwork : ((new net settings limit).after calls).network = net := hnetwork
  have hsettings : ((new net settings limit).after calls).settings = settings := hsettings
  rw [after_concat]
  unfold checkpointDepth?
  generalize hsession : ((new net settings limit).after calls).session = session at hstands
  cases hstands with
  | unstarted hnever hopen =>
    have herror := solve_of_unstarted hsession
    refine ⟨⟨iff_of_true herror hnever, iff_of_false ?_ hopen, fun h => absurd h hnever⟩,
      fun _ _ => call_solve_of_unstarted hsession, (if_neg hnever).symm⟩
    rw [herror]
    intro h
    cases h
  | ready hstart hopen =>
    have hsession : ((new net settings limit).after calls).session =
        some (Session.start ((new net settings limit).after calls).network) := by
      rw [hsession, hnetwork]
      rfl
    obtain ⟨outcome, fresh, engine', hfresh, hsolve⟩ := exists_first_outcome hsession
    rw [hnetwork, hsettings] at hfresh
    refine ⟨⟨iff_of_false ?_ (fun h => h hstart), iff_of_false ?_ hopen,
      fun _ _ => ⟨outcome, fresh, engine', hfresh, hsolve⟩⟩, ?_, (if_pos hstart).symm⟩
    · rw [hsolve]
      intro h
      cases h
    · rw [hsolve]
      intro h
      cases h
    -- a session that has not been searched yet is searched, so there is no failure
    · intro error herror
      rw [hsolve] at herror
      cases herror
  | solved hstart hsolved hfinished hdepth =>
    have herror := solve_of_finished hsession hfinished
    refine ⟨⟨iff_of_false ?_ (fun h => h hstart), iff_of_true herror hsolved,
      fun _ h => absurd hsolved h⟩, fun _ _ => call_solve_of_finished hsession hfinished, ?_⟩
    · rw [herror]
      intro h
      cases h
    · rw [if_pos hstart, ← hdepth]
      rfl

end Engine

end ConstraintNet
