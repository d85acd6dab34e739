/-
  ConstraintNet.Proofs.Lookups
  ────────────────────────────
  **EVERYTHING THAT A SEARCH LOOKS UP IS THERE.**

  A search finds variables, constraints and waiting arcs by their positions.
  The positions come out of the links of the network, out of the queue, out
  of the list of remaining variables and out of the tallies, and nothing
  checks them when they are used.  `Lookup` names what is looked up, and a
  relation says for each part of a solver what it looks up itself:

      ArcConsistency.LooksUp   — one turn of the revision loop
      ForwardChecking.LooksUp  — a check of the undecided variables
      Settings.LooksUp         — the propagation of a decision
      Search.LooksUp           — a call of the search, without the calls that
                                 it makes in turn

  A turn is `Fit` to be taken when the counts of the queue are exact and its
  arcs name variables of the network, and it leaves the loop fit
  (`Fit.turn`); a call is sound, and makes sound calls only.

  Main result: `Engine.lookups_succeed`.
-/
import ConstraintNet.Proofs.Draining
import ConstraintNet.Proofs.Tallies
import ConstraintNet.Proofs.Unwinding
import ConstraintNet.Statistics.Table

namespace ConstraintNet

/-! ## §1. What can be looked up. -/

/-- Something that is looked up by its position. -/
inductive Lookup where
  /-- What is still possible for a variable. -/
  | domain (s : Session) (x : VariableId)
  /-- What is decided about a variable. -/
  | decision (s : Session) (x : VariableId)
  /-- The neighbours of a variable. -/
  | neighbours (x : VariableId)
  /-- The constraint with a position. -/
  | constraint (id : ConstraintId)
  /-- How often an arc waits, when one occurrence of it has left the queue. -/
  | count (queue : ArcQueue) (arc : Arc)

/-- What is looked up is there: a variable is one of the network and of the session, a constraint is
one of the network, and an arc that leaves the queue has been counted. -/
def Lookup.Succeeds (net : Network) : Lookup → Prop
  | .domain s x => x < net.size ∧ x < s.domains.size
  | .decision s x => x < net.size ∧ x < s.assignment.size
  | .neighbours x => x < net.size ∧
      ∃ listed, net.neighbours? x = some listed ∧ ∀ y ∈ listed, y < net.size
  | .constraint id => id < net.constraints.size
  | .count queue arc => ∃ n, queue.counts[arc]? = some n ∧ 1 ≤ n

variable {net : Network} {settings : Settings} {lookup : Lookup}

theorem Network.lt_size_of_mem_constraintsBetween {x y : VariableId} {id : ConstraintId}
    (h : id ∈ net.constraintsBetween x y) : id < net.constraints.size := by
  obtain ⟨c, hc, _⟩ := net.mem_constraintsBetween.1 h
  exact (Array.getElem?_eq_some_iff.1 hc).1

theorem Network.succeeds_neighbours {x : VariableId} (hx : x < net.size) :
    (Lookup.neighbours x).Succeeds net := by
  obtain ⟨listed, hlisted, hmem⟩ := net.exists_neighbours hx
  exact ⟨hx, listed, hlisted, fun y hy => ((hmem y).1 hy).symm.lt_size⟩

/-! ## §2. The revision loop. -/

namespace ArcConsistency

variable {policy : RequeuePolicy} {state state' : ArcQueue × Session}

/-- What the loop looks up in one turn: the count of the arc that leaves the queue, the domains of
its two variables, the constraints between them and, when the revision has pruned, the neighbours of
its target. -/
inductive LooksUp (net : Network) (policy : RequeuePolicy) :
    ArcQueue × Session → Lookup → Prop where
  | count {queue rest : ArcQueue} {s : Session} {arc : Arc}
      (hpop : queue.pop? = some (arc, rest)) : LooksUp net policy (queue, s) (.count queue arc)
  | target {queue rest : ArcQueue} {s : Session} {arc : Arc}
      (hpop : queue.pop? = some (arc, rest)) : LooksUp net policy (queue, s) (.domain s arc.target)
  | support {queue rest : ArcQueue} {s : Session} {arc : Arc}
      (hpop : queue.pop? = some (arc, rest)) : LooksUp net policy (queue, s) (.domain s arc.support)
  | shared {queue rest : ArcQueue} {s : Session} {arc : Arc} {id : ConstraintId}
      (hpop : queue.pop? = some (arc, rest))
      (hid : id ∈ net.constraintsBetween arc.target arc.support) :
      LooksUp net policy (queue, s) (.constraint id)
  | neighbours {queue rest : ArcQueue} {s s' : Session} {arc : Arc}
      (hpop : queue.pop? = some (arc, rest)) (hrev : revise? net s arc = some (.pruned, s'))
      (hpolicy : policy = .symmetric) : LooksUp net policy (queue, s) (.neighbours arc.target)

/-- The counts are exact, and the waiting arcs and the session are those of the network. -/
structure Fit (net : Network) (state : ArcQueue × Session) : Prop where
  exact : state.1.Exact
  inRange : InRange net state.1
  size_eq : state.2.domains.size = net.size

/-- **A turn leaves the loop fit** for the next one. -/
theorem Fit.turn (h : Fit net state) (hturn : Turn net policy state state') : Fit net state' := by
  cases hturn with
  | mk hpop hrev hnext =>
    have hexact := h.exact.of_pop? hpop
    obtain ⟨_, hrest⟩ := inRange_of_pop? h.inRange hpop
    have hnarrows := (revised_of_revise? hrev).1.narrows
    exact ⟨(hnext.requeued hexact).exact, hnext.inRange hexact hrest,
      hnarrows.size_eq.trans h.size_eq⟩

/-- What the queue and the session fit holds after any number of turns. -/
theorem Fit.turns (h : Fit net state)
    (hturns : Relation.ReflTransGen (Turn net policy) state state') : Fit net state' := by
  induction hturns with
  | refl => exact h
  | tail _ hturn ih => exact ih.turn hturn

/-- The arc that leaves an exact queue has been counted. -/
theorem succeeds_count {queue rest : ArcQueue} {arc : Arc} (hexact : queue.Exact)
    (hpop : queue.pop? = some (arc, rest)) : (Lookup.count queue arc).Succeeds net := by
  have hmem : arc ∈ queue.toList := ArcQueue.toList_of_pop? hpop ▸ List.mem_cons_self
  have hcount := hexact arc
  rw [if_pos hmem] at hcount
  exact ⟨_, hcount, List.count_pos_iff.2 hmem⟩

/-- **What a fit turn looks up is there.** -/
theorem Fit.succeeds (h : Fit net state) (hlookup : LooksUp net policy state lookup) :
    lookup.Succeeds net := by
  cases hlookup with
  | count hpop => exact succeeds_count h.exact hpop
  | target hpop =>
    have harc := (inRange_of_pop? h.inRange hpop).1
    exact ⟨harc.1, h.size_eq ▸ harc.1⟩
  | support hpop =>
    have harc := (inRange_of_pop? h.inRange hpop).1
    exact ⟨harc.2, h.size_eq ▸ harc.2⟩
  | shared _ hid => exact Network.lt_size_of_mem_constraintsBetween hid
  | neighbours hpop => exact Network.succeeds_neighbours (inRange_of_pop? h.inRange hpop).1.1

/-- The lookup is made in some turn of the loop that starts with this queue and session. -/
def LooksUpFrom (net : Network) (policy : RequeuePolicy) (state : ArcQueue × Session)
    (lookup : Lookup) : Prop :=
  ∃ state', Relation.ReflTransGen (Turn net policy) state state' ∧ LooksUp net policy state' lookup

/-- So every lookup of the loop is of something that is there. -/
theorem Fit.succeeds_from (h : Fit net state) (hlookup : LooksUpFrom net policy state lookup) :
    lookup.Succeeds net := by
  obtain ⟨state', hturns, hnow⟩ := hlookup
  exact (h.turns hturns).succeeds hnow

end ArcConsistency

/-! ## §3. Forward checking. -/

namespace ForwardChecking

variable {changed : VariableId} {undecided : List VariableId} {s : Session}

/-- What a check of the listed variables looks up: whether each of them is decided and, for one that
is not, the domains of the two variables and the constraints between them. -/
inductive LooksUp (net : Network) (changed : VariableId) :
    List VariableId → Session → Lookup → Prop where
  | decision {future : VariableId} {rest : List VariableId} {s : Session}
      (hne : future ≠ changed) : LooksUp net changed (future :: rest) s (.decision s future)
  | changed {future : VariableId} {rest : List VariableId} {s : Session}
      (hopen : s.isAssigned? future = some false) :
      LooksUp net changed (future :: rest) s (.domain s changed)
  | future {future : VariableId} {rest : List VariableId} {s : Session}
      (hopen : s.isAssigned? future = some false) :
      LooksUp net changed (future :: rest) s (.domain s future)
  | shared {future : VariableId} {rest : List VariableId} {s : Session} {id : ConstraintId}
      (hid : id ∈ net.constraintsBetween changed future) :
      LooksUp net changed (future :: rest) s (.constraint id)
  | passed {future : VariableId} {rest : List VariableId} {s : Session} {lookup : Lookup}
      (hpass : future = changed ∨ s.isAssigned? future = some true ∨
        net.sharedConstraints changed future = [])
      (hrest : LooksUp net changed rest s lookup) : LooksUp net changed (future :: rest) s lookup
  | revised {future : VariableId} {rest : List VariableId} {s s' : Session} {lookup : Lookup}
      (hshared : net.sharedConstraints changed future ≠ [])
      (hrev : reviseFuture? net s changed future = some (true, s'))
      (hrest : LooksUp net changed rest s' lookup) : LooksUp net changed (future :: rest) s lookup

/-- **What a check looks up is there**, when the variables are those of the network. -/
theorem LooksUp.succeeds (h : LooksUp net changed undecided s lookup)
    (hsize : s.domains.size = net.size) (hassignment : s.assignment.size = net.size)
    (hchanged : changed < net.size) (hundecided : ∀ z ∈ undecided, z < net.size) :
    lookup.Succeeds net := by
  induction h with
  | decision =>
    have hfuture := hundecided _ List.mem_cons_self
    exact ⟨hfuture, hassignment ▸ hfuture⟩
  | changed => exact ⟨hchanged, hsize ▸ hchanged⟩
  | future =>
    have hfuture := hundecided _ List.mem_cons_self
    exact ⟨hfuture, hsize ▸ hfuture⟩
  | shared hid => exact Network.lt_size_of_mem_constraintsBetween hid
  | passed _ _ ih => exact ih hsize hassignment (List.forall_mem_cons.1 hundecided).2
  | revised hshared hrev _ ih =>
    have hnarrows := (revised_of_reviseFuture? hshared hrev).1.narrows
    exact ih (hnarrows.size_eq.trans hsize) (hnarrows.assignment_eq ▸ hassignment)
      (List.forall_mem_cons.1 hundecided).2

end ForwardChecking

/-! ## §4. Propagations. -/

namespace Settings

/-- What the propagation before the first decision looks up. -/
def LooksUpFirst (settings : Settings) (net : Network) (s : Session) (lookup : Lookup) : Prop :=
  match settings.algorithm with
  | .forwardChecking => False
  | .maintainingArcConsistency =>
    ArcConsistency.LooksUpFrom net settings.requeuePolicy (ArcConsistency.seedAll net ∅, s) lookup

/-- What the propagation of a decision about `changed` looks up. -/
def LooksUp (settings : Settings) (net : Network) (queue : ArcQueue) (s : Session)
    (changed : VariableId) (undecided : List VariableId) (lookup : Lookup) : Prop :=
  match settings.algorithm with
  | .forwardChecking => ForwardChecking.LooksUp net changed undecided s lookup
  | .maintainingArcConsistency =>
    lookup = .neighbours changed ∨
      ∃ queue', ArcConsistency.seedChanged? net settings.requeuePolicy queue changed =
        some queue' ∧ ArcConsistency.LooksUpFrom net settings.requeuePolicy (queue', s) lookup

open ArcConsistency in
/-- Before the first decision no lookup fails. -/
theorem LooksUpFirst.succeeds {s : Session} (h : settings.LooksUpFirst net s lookup)
    (hsize : s.domains.size = net.size) : lookup.Succeeds net := by
  unfold LooksUpFirst at h
  split at h
  next => cases h
  next =>
    have hexact := (mem_seedAll net ArcQueue.exact_empty).1
    have hempty : InRange net ∅ := inRange_of_idle ArcQueue.idle_empty
    have hrange := inRange_seedAll ArcQueue.exact_empty hempty
    have hfit : Fit net (seedAll net ∅, s) := ⟨hexact, hrange, hsize⟩
    exact hfit.succeeds_from h

open ArcConsistency in
/-- After a decision no lookup of its propagation fails. -/
theorem LooksUp.succeeds {queue : ArcQueue} {s : Session} {changed : VariableId}
    {undecided : List VariableId} (h : settings.LooksUp net queue s changed undecided lookup)
    (hqueue : settings.Ready queue) (hsize : s.domains.size = net.size)
    (hassignment : s.assignment.size = net.size) (hchanged : changed < net.size)
    (hundecided : ∀ z ∈ undecided, z < net.size) : lookup.Succeeds net := by
  unfold LooksUp at h
  split at h
  next => exact h.succeeds hsize hassignment hchanged hundecided
  next halgorithm =>
    have hidle := hqueue halgorithm
    rcases h with rfl | ⟨queue', hseed, hfrom⟩
    · exact Network.succeeds_neighbours hchanged
    · have hexact := (mem_seedChanged? hidle.exact hseed).1
      have hrange := inRange_seedChanged? hidle.exact (inRange_of_idle hidle) hseed
      have hfit : Fit net (queue', s) := ⟨hexact, hrange, hsize⟩
      exact hfit.succeeds_from hfrom

end Settings

/-! ## §5. Calls of a search. -/

namespace Search

variable {frame inner : Frame}

/-- What a call looks up itself: a node the variables that remain, a branch its own variable, before
and after the call that it makes, and a propagation what it propagates to. -/
inductive LooksUp (net : Network) (settings : Settings) : Frame → Lookup → Prop where
  | remaining {allowance : Nat} {st : SearchState} {remaining : List VariableId} {x : VariableId}
      (hopen : st.session.isComplete = false) (hx : x ∈ remaining) :
      LooksUp net settings ⟨allowance + 1, .node st remaining⟩ (.domain st.session x)
  | assigned {allowance : Nat} {st : SearchState} {remaining : List VariableId}
      {var : VariableId} {value : Value} :
      LooksUp net settings ⟨allowance, .equal st remaining var value⟩ (.domain st.session var)
  | decided {allowance : Nat} {st : SearchState} {remaining : List VariableId}
      {var : VariableId} {value : Value} :
      LooksUp net settings ⟨allowance, .equal st remaining var value⟩ (.decision st.session var)
  | withdrawn {allowance : Nat} {st st' : SearchState} {decided restored : Session}
      {remaining : List VariableId} {var : VariableId} {value : Value} {found : Bool}
      (hassign : st.session.checkpoint.assign? var value = some decided)
      (hanswer : Frame.answer? net settings ⟨allowance, .follow (st.withSession decided) var
        (remaining.filter fun v => v ≠ var)⟩ = some (found, st'))
      (hrestore : st'.session.restore? = some restored) :
      LooksUp net settings ⟨allowance, .equal st remaining var value⟩ (.decision restored var)
  | removed {allowance : Nat} {st : SearchState} {remaining : List VariableId}
      {var : VariableId} {value : Value} :
      LooksUp net settings ⟨allowance, .other st remaining var value⟩ (.domain st.session var)
  | narrowed {allowance : Nat} {st : SearchState} {narrowed : Session}
      {remaining : List VariableId} {var : VariableId} {value : Value} {removed : Bool}
      (hremove : st.session.removeValue? var value = some (removed, narrowed)) :
      LooksUp net settings ⟨allowance, .other st remaining var value⟩ (.domain narrowed var)
  | returned {allowance : Nat} {st st' : SearchState} {narrowed restored : Session}
      {remaining : List VariableId} {var : VariableId} {value : Value} {removed found : Bool}
      (hremove : st.session.removeValue? var value = some (removed, narrowed))
      (hsome : ∃ v, v ∈ narrowed.dom var)
      (hanswer : Frame.answer? net settings
        ⟨allowance, .follow (st.withSession narrowed.checkpoint) var remaining⟩ = some (found, st'))
      (hrestore : st'.session.restore? = some restored) :
      LooksUp net settings ⟨allowance, .other st remaining var value⟩ (.domain restored var)
  | propagated {allowance : Nat} {st : SearchState} {var : VariableId}
      {undecided : List VariableId} {lookup : Lookup}
      (hlookup : settings.LooksUp net st.queue st.session var undecided lookup) :
      LooksUp net settings ⟨allowance, .follow st var undecided⟩ lookup

/-- **What a sound call looks up is there.** -/
theorem Frame.Sound.succeeds (h : frame.Sound net settings)
    (hlookup : LooksUp net settings frame lookup) : lookup.Succeeds net := by
  cases hlookup with
  | remaining _ hx =>
    have hcoherent := h.valid.1
    exact ⟨hcoherent.lt_size hx, hcoherent.size_domains ▸ hcoherent.lt_size hx⟩
  | assigned =>
    obtain ⟨⟨hcoherent, _⟩, hvar, _⟩ := h.valid
    exact ⟨hcoherent.lt_size hvar, hcoherent.size_domains ▸ hcoherent.lt_size hvar⟩
  | decided =>
    obtain ⟨⟨hcoherent, _⟩, hvar, _⟩ := h.valid
    exact ⟨hcoherent.lt_size hvar, hcoherent.size_assignment ▸ hcoherent.lt_size hvar⟩
  | @withdrawn _ st st' decided restored _ var _ _ hassign hanswer hrestore =>
    obtain ⟨⟨hcoherent, _⟩, hvar, _⟩ := h.valid
    have hinner := (Makes.assign hassign).sound h
    have hdecided := Session.decided_of_assign? hassign
    have hunwound : decided.Unwound st'.session := ((hinner.runs hanswer).leaves hinner.valid).1
    -- the propagation has kept the decisions, and so has the return to the checkpoint
    have hassignment := (Session.of_restore?
      (hunwound.checkpoints_eq.trans hdecided.checkpoints_eq) hrestore).2.2.1
    refine ⟨hcoherent.lt_size hvar, ?_⟩
    rw [hassignment, hunwound.assignment_eq, hdecided.assignment_eq, Array.size_setIfInBounds]
    exact hcoherent.size_assignment ▸ hcoherent.lt_size hvar
  | removed =>
    obtain ⟨⟨hcoherent, _⟩, hvar, _⟩ := h.valid
    exact ⟨hcoherent.lt_size hvar, hcoherent.size_domains ▸ hcoherent.lt_size hvar⟩
  | narrowed hremove =>
    obtain ⟨⟨hcoherent, _⟩, hvar, _⟩ := h.valid
    have hexcluded := Session.excluded_of_removeValue? hremove
    refine ⟨hcoherent.lt_size hvar, ?_⟩
    rw [hexcluded.size_eq]
    exact hcoherent.size_domains ▸ hcoherent.lt_size hvar
  | @returned _ st st' narrowed restored _ var _ _ _ hremove hsome hanswer hrestore =>
    obtain ⟨⟨hcoherent, _⟩, hvar, _⟩ := h.valid
    have hinner := (Makes.exclude hremove hsome).sound h
    have hexcluded := Session.excluded_of_removeValue? hremove
    have hunwound : narrowed.checkpoint.Unwound st'.session :=
      ((hinner.runs hanswer).leaves hinner.valid).1
    have hrewound := (Session.rewound_of_restore? hunwound hrestore).1
    refine ⟨hcoherent.lt_size hvar, ?_⟩
    rw [hrewound.domains_eq, hexcluded.size_eq]
    exact hcoherent.size_domains ▸ hcoherent.lt_size hvar
  | propagated hlookup =>
    obtain ⟨⟨hcoherent, hready⟩, hvar⟩ := h.valid
    exact hlookup.succeeds hready hcoherent.size_domains hcoherent.size_assignment hvar
      fun _ hz => hcoherent.lt_size hz

end Search

/-! ## §6. The table of an outcome. -/

/-- A list of which every member has an image has a list of images. -/
theorem exists_mapM? {α β : Type} {f : α → Option β} {l : List α}
    (h : ∀ a ∈ l, ∃ b, f a = some b) : ∃ made, l.mapM f = some made ∧ l.map f = made.map some := by
  induction l with
  | nil => exact ⟨[], rfl, rfl⟩
  | cons a rest ih =>
    obtain ⟨⟨b, hb⟩, hrest⟩ := List.forall_mem_cons.1 h
    obtain ⟨made, hmade, hmap⟩ := ih hrest
    refine ⟨b :: made, ?_, ?_⟩
    · rw [List.mapM_cons, hb, hmade]
      rfl
    · rw [List.map_cons, hb, hmap]
      rfl

/-- **The table has a row for every tally** when the tallies are those of constraints of the
network. -/
theorem Statistics.exists_rows {stats : Statistics}
    (h : ∀ id ∈ stats.byConstraint, id < net.constraints.size) :
    (∀ entry ∈ stats.ranking, entry.1 < net.constraints.size) ∧
      ∃ rows, stats.ranking.map (tableRow? net) = rows.map some ∧
        stats.table? net = some (Layout.layout (tableHeader :: rows)) := by
  have hknown : ∀ entry ∈ stats.ranking, entry.1 < net.constraints.size := by
    intro entry hentry
    -- the ranking has the entries of the tree in another order
    have htally : entry ∈ stats.byConstraint.toList := List.mem_mergeSort.1 hentry
    have hkey : entry.1 ∈ stats.byConstraint.keys := by
      rw [← Std.TreeMap.map_fst_toList_eq_keys]
      exact List.mem_map_of_mem htally
    exact h entry.1 (Std.TreeMap.mem_of_mem_keys hkey)
  refine ⟨hknown, ?_⟩
  have hrows : ∀ entry ∈ stats.ranking, ∃ row, tableRow? net entry = some row := by
    intro entry hentry
    unfold tableRow?
    rw [Array.getElem?_eq_getElem (hknown entry hentry)]
    exact ⟨_, rfl⟩
  obtain ⟨rows, hmade, hmap⟩ := exists_mapM? hrows
  refine ⟨rows, hmap, ?_⟩
  unfold Statistics.table?
  rw [hmade]
  rfl

/-- Tallies of constraints of the network have a table. -/
theorem Statistics.Tallied.exists_table? {stats : Statistics} (h : stats.Tallied net) :
    (∀ entry ∈ stats.ranking, (Lookup.constraint entry.1).Succeeds net) ∧
      ∃ table, stats.table? net = some table := by
  obtain ⟨hknown, _, _, htable⟩ := exists_rows h.known
  exact ⟨hknown, _, htable⟩

open Search

/-- **A search never looks up what is not there.** A started engine solves, with any network, any
settings and any past. Before the first decision, and in every call that the search makes on its way
from the first node on, every variable that is looked up is one of the network and of the session,
every constraint that is looked up is one of the network, and no arc leaves the queue that was not
counted, so that no count is taken below zero. The table of the outcome has a row for each tally,
and looks up constraints of the network only. -/
theorem Engine.lookups_succeed (engine : Engine) :
    ∃ result outcome engine',
      engine.settings.prepare? engine.network engine.queue (Session.start engine.network) =
        some result ∧
      engine.start.solve = .ok (outcome, engine') ∧
      (∀ lookup, engine.settings.LooksUpFirst engine.network (Session.start engine.network) lookup →
        lookup.Succeeds engine.network) ∧
      (result.consistent = true → ∀ frame,
        Relation.ReflTransGen (Makes engine.network engine.settings)
          (firstFrame engine.network
            ⟨Session.start engine.network, engine.queue, engine.journal⟩ result) frame →
        ∀ lookup, LooksUp engine.network engine.settings frame lookup →
          lookup.Succeeds engine.network) ∧
      (∀ entry ∈ outcome.stats.ranking, (Lookup.constraint entry.1).Succeeds engine.network) ∧
      ∃ table, outcome.stats.table? engine.network = some table := by
  have hsize := (coherent_start engine.network).size_domains
  obtain ⟨st', hends, hsolve⟩ := engine.exists_solve
  obtain ⟨result, hprepare, _⟩ :=
    engine.settings.exists_prepare? engine.network engine.queue hsize
  refine ⟨result, _, _, hprepare, hsolve, ?_, ?_, hends.tallied.exists_table?⟩
  · intro lookup hlookup
    exact hlookup.succeeds hsize
  · intro htrue frame hmade lookup hlookup
    have hroot := sound_firstFrame engine.journal hprepare htrue
    exact (sound_of_made hmade hroot).succeeds hlookup

end ConstraintNet
