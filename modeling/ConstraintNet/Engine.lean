/-
  ConstraintNet.Engine
  ────────────────────
  **A NETWORK, ITS SETTINGS AND THE SEARCH THAT IS UNDER WAY.**

  An engine is started before it solves, and solves once after each start.
  It keeps one arc queue over all its searches and the session of the latest.
-/
import ConstraintNet.Search

namespace ConstraintNet

/-- Why an engine did not search. -/
inductive EngineError where
  /-- It was never started. -/
  | notStarted
  /-- It has solved since its latest start. -/
  | alreadySolved
  /-- A position named no variable, no checkpoint was open, or the allowance of the search ran
  out. -/
  | fault
  deriving Repr, DecidableEq

/-- The error in words. -/
def EngineError.message : EngineError → String
  | .notStarted => "the search has not been initialised"
  | .alreadySolved => "the search session has already been solved; initialise it again to rerun"
  | .fault => "the search met a variable that the problem does not have"

/-- The result of a search. -/
structure Outcome where
  solution : Option (List Value)
  stats : Statistics

/-- A network with settings and the session of its latest search. -/
structure Engine where
  network : Network
  settings : Settings
  queue : ArcQueue
  journal : Journal
  session : Option Session

namespace Engine

/-- An engine that was not started yet and will keep a journal of `limit` events. -/
def new (network : Network) (settings : Settings) (limit : Nat) : Engine :=
  ⟨network, settings, ∅, Journal.start limit, none⟩

/-- The name of what the engine does. -/
def name (engine : Engine) : String := engine.settings.algorithm.title

/-- The engine with a fresh session. -/
def start (engine : Engine) : Engine :=
  { engine with session := some (Session.start engine.network) }

/-- The outcome of a search of the present session, and the engine with the session that the
search leaves; an engine that does not search stays as it is. -/
def solve (engine : Engine) : Except EngineError (Outcome × Engine) :=
  match engine.session with
  | none => .error .notStarted
  | some session =>
    if session.finished then .error .alreadySolved
    else
      match
        Search.search? engine.network engine.settings
          ⟨session, engine.queue, engine.journal⟩ with
      | none => .error .fault
      | some st =>
        .ok (⟨st.session.solution, st.session.stats⟩,
          { engine with queue := st.queue, journal := st.journal, session := some st.session })

/-- The number of open checkpoints; `none` before the first start. -/
def checkpointDepth? (engine : Engine) : Option Nat := engine.session.map Session.depth

end Engine

/-- The outcome of a first search of the network. -/
def solve (net : Network) (settings : Settings) : Except EngineError (Outcome × Engine) :=
  ((Engine.new net settings 0).start).solve

end ConstraintNet
