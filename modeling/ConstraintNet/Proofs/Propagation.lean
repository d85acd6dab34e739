/-
  ConstraintNet.Proofs.Propagation
  ────────────────────────────────
  **WHAT A SEARCH MAY EXPECT OF ITS PROPAGATION.**

  Forward checking and arc consistency visit different arcs and prune
  different values.  A search relies on three things only, which hold for
  all settings:

      the propagation gives an answer,
      it is sound (`Propagates`), and
      when it ends well, every value that is left of an undecided variable
      has a support among the values that the changed variable had.

  Runs of forward checking are a relation, `Checks`, as those of arc
  consistency are.  `Settings.Ready` says what the settings need of the
  queue, which every propagation leaves as it was found.
-/
import ConstraintNet.Propagation
import ConstraintNet.Proofs.ArcConsistency

namespace ConstraintNet

/-! ## §1. Forward checking. -/

namespace ForwardChecking

variable {net : Network} {changed : VariableId} {undecided : List VariableId} {s s' : Session}
  {consistent : Bool}

/-- Forward checking of the listed variables starts with the session `s` and ends with a verdict and
the session `s'`. A variable is passed over when it is `changed` itself, when it is decided, or when
no constraint joins the two. -/
inductive Checks (net : Network) (changed : VariableId) :
    List VariableId → Session → Bool → Session → Prop where
  | done {s : Session} : Checks net changed [] s true s
  | passed {future : VariableId} {rest : List VariableId} {s s' : Session} {consistent : Bool}
      (hpass : future = changed ∨ s.isAssigned? future = some true ∨
        net.sharedConstraints changed future = [])
      (hrest : Checks net changed rest s consistent s') :
      Checks net changed (future :: rest) s consistent s'
  | wipedOut {future : VariableId} {rest : List VariableId} {s s' : Session}
      (hshared : net.sharedConstraints changed future ≠ [])
      (hrev : reviseFuture? net s changed future = some (false, s')) :
      Checks net changed (future :: rest) s false s'
  | revised {future : VariableId} {rest : List VariableId} {s s' s'' : Session} {consistent : Bool}
      (hne : future ≠ changed) (hshared : net.sharedConstraints changed future ≠ [])
      (hrev : reviseFuture? net s changed future = some (true, s'))
      (hrest : Checks net changed rest s' consistent s'') :
      Checks net changed (future :: rest) s consistent s''

theorem isAssigned?_eq_some {x : VariableId} (hx : x < s.assignment.size) :
    ∃ assigned, s.isAssigned? x = some assigned := by
  unfold Session.isAssigned?
  rw [Array.getElem?_eq_getElem hx]
  exact ⟨_, rfl⟩

/-- Forward checking gives an answer when all variables exist, and is a run of this kind. -/
theorem exists_checks (net : Network) (undecided : List VariableId)
    (hchanged : changed < s.domains.size)
    (hundecided : ∀ z ∈ undecided, z < s.domains.size ∧ z < s.assignment.size) :
    ∃ consistent s', propagate? net s changed undecided = some (consistent, s') ∧
      Checks net changed undecided s consistent s' := by
  induction undecided generalizing s with
  | nil => exact ⟨true, s, rfl, .done⟩
  | cons future rest ih =>
    obtain ⟨⟨hdomain, hassignment⟩, hrest⟩ := List.forall_mem_cons.1 hundecided
    obtain ⟨assigned, hassigned⟩ := isAssigned?_eq_some hassignment
    obtain ⟨consistent, s', hresult, hchecks⟩ := ih hchanged hrest
    unfold propagate?
    -- the tests in the order of the loop, each of which may pass the variable over
    by_cases heq : future = changed
    · exact ⟨consistent, s', (if_pos heq).trans hresult, .passed (Or.inl heq) hchecks⟩
    · simp only [if_neg heq, hassigned]
      cases assigned with
      | true => exact ⟨consistent, s', hresult, .passed (Or.inr (Or.inl hassigned)) hchecks⟩
      | false =>
        by_cases hnil : net.sharedConstraints changed future = []
        · refine ⟨consistent, s', ?_, .passed (Or.inr (Or.inr hnil)) hchecks⟩
          exact (if_pos (List.isEmpty_iff.2 hnil)).trans hresult
        · rw [if_neg fun h => hnil (List.isEmpty_iff.1 h)]
          obtain ⟨kept, between, hrev⟩ := exists_reviseFuture? net hchanged hdomain
          rw [hrev]
          cases kept with
          | false => exact ⟨false, between, rfl, .wipedOut hnil hrev⟩
          | true =>
            -- the loop goes on with a session of the same size
            have hnarrows := (revised_of_reviseFuture? hnil hrev).1.narrows
            rw [← hnarrows.size_eq, ← hnarrows.assignment_eq] at hrest
            obtain ⟨consistent, s', hresult, hchecks⟩ := ih (hnarrows.size_eq ▸ hchanged) hrest
            exact ⟨consistent, s', hresult, .revised heq hnil hrev hchecks⟩

theorem Checks.propagates (h : Checks net changed undecided s consistent s')
    (hchanged : changed < net.size) (hundecided : ∀ z ∈ undecided, z < net.size)
    (queue : ArcQueue) : Propagates net s ⟨consistent, queue, s'⟩ := by
  induction h with
  | done => exact propagates_refl net _ queue
  | passed _ _ ih => exact ih (List.forall_mem_cons.1 hundecided).2
  | wipedOut hshared hrev =>
    obtain ⟨hrevised, hsome⟩ := revised_of_reviseFuture? hshared hrev
    refine propagates_wipedOut queue hrevised (List.forall_mem_cons.1 hundecided).1 hchanged ?_
    intro v hv
    exact absurd (hsome.2 ⟨v, hv⟩) Bool.false_ne_true
  | revised _ hshared hrev _ ih =>
    obtain ⟨hrevised, hsome⟩ := revised_of_reviseFuture? hshared hrev
    exact .after_revision hrevised hchanged (hsome.1 rfl) (ih (List.forall_mem_cons.1 hundecided).2)

theorem Checks.supported (h : Checks net changed undecided s consistent s')
    (hchanged : changed < net.size) (hundecided : ∀ z ∈ undecided, z < net.size)
    (htrue : consistent = true) : ∀ z ∈ undecided, z ≠ changed → s.isAssigned? z = some false →
      ∀ b ∈ s'.dom z, net.Supported z changed b (s.dom changed) := by
  induction h with
  | done =>
    intro z hz
    cases hz
  | passed hpass _ ih =>
    intro z hz hne hopen b hb
    rcases List.mem_cons.1 hz with rfl | hz
    -- a variable that is passed over without being decided is supported whatever its domain is
    · rcases hpass with heq | hassigned | hnil
      · exact absurd heq hne
      · rw [hassigned] at hopen
        cases hopen
      · intro c hc hjoins
        obtain ⟨id, hid⟩ := net.exists_shared_of_joins hc hjoins.symm
        rw [hnil] at hid
        cases hid
    · exact ih (List.forall_mem_cons.1 hundecided).2 htrue z hz hne hopen b hb
  | wipedOut _ _ => cases htrue
  | revised hne hshared hrev hchecks ih =>
    obtain ⟨_, hrest⟩ := List.forall_mem_cons.1 hundecided
    obtain ⟨hrevised, _⟩ := revised_of_reviseFuture? hshared hrev
    have hlater := (hchecks.propagates hchanged hrest ∅).narrows
    intro z hz hzne hopen b hb
    rcases List.mem_cons.1 hz with rfl | hz
    · exact ((hrevised.mem_target b).1 (hlater.subset z b hb)).2
    · rw [← hrevised.others changed hne.symm]
      refine ih hrest htrue z hz hzne ?_ b hb
      unfold Session.isAssigned? at hopen ⊢
      rw [hrevised.narrows.assignment_eq]
      exact hopen

/-- **Forward checking** gives an answer, which is a sound propagation; when it ends well, what is
left of every undecided variable has a support among the values of the changed variable. -/
theorem exists_propagate? (net : Network) (queue : ArcQueue) (hchanged : changed < net.size)
    (undecided : List VariableId) (hsize : s.domains.size = net.size)
    (hassignment : s.assignment.size = net.size) (hundecided : ∀ z ∈ undecided, z < net.size) :
    ∃ consistent s', propagate? net s changed undecided = some (consistent, s') ∧
      Propagates net s ⟨consistent, queue, s'⟩ ∧
      (consistent = true → ∀ z ∈ undecided, z ≠ changed → s.isAssigned? z = some false →
        ∀ b ∈ s'.dom z, net.Supported z changed b (s.dom changed)) := by
  have hall : ∀ z ∈ undecided, z < s.domains.size ∧ z < s.assignment.size := by
    intro z hz
    rw [hsize, hassignment]
    exact ⟨hundecided z hz, hundecided z hz⟩
  obtain ⟨consistent, s', hresult, hchecks⟩ := exists_checks net undecided (hsize ▸ hchanged) hall
  exact ⟨consistent, s', hresult, hchecks.propagates hchanged hundecided queue,
    hchecks.supported hchanged hundecided⟩

end ForwardChecking

/-! ## §2. All settings. -/

namespace Settings

/-- The queue is fit for a propagation: arc consistency needs one in which nothing waits. -/
def Ready (settings : Settings) (queue : ArcQueue) : Prop :=
  settings.algorithm = .maintainingArcConsistency → queue.Idle

/-- **The propagation before the first decision.** -/
theorem exists_prepare? (settings : Settings) (net : Network) (queue : ArcQueue) {s : Session}
    (hsize : s.domains.size = net.size) :
    ∃ result, settings.prepare? net queue s = some result ∧ Propagates net s result ∧
      settings.Ready result.queue := by
  unfold prepare? Ready
  cases settings.algorithm with
  | forwardChecking => exact ⟨_, rfl, propagates_refl net s queue, fun h => by cases h⟩
  | maintainingArcConsistency =>
    obtain ⟨result, hresult, hpropagates, hidle⟩ :=
      ArcConsistency.exists_establish? net settings.requeuePolicy ArcQueue.idle_empty hsize
    exact ⟨result, hresult, hpropagates, fun _ => hidle⟩

/-- **The propagation after a decision.** -/
theorem exists_propagate? (settings : Settings) (net : Network) {queue : ArcQueue} {s : Session}
    (hqueue : settings.Ready queue) (hsize : s.domains.size = net.size)
    (hassignment : s.assignment.size = net.size) {changed : VariableId}
    (hchanged : changed < net.size) {undecided : List VariableId}
    (hundecided : ∀ z ∈ undecided, z < net.size) :
    ∃ result, settings.propagate? net queue s changed undecided = some result ∧
      Propagates net s result ∧ settings.Ready result.queue ∧
      (result.consistent = true → ∀ z ∈ undecided, z ≠ changed → s.isAssigned? z = some false →
        ∀ b ∈ result.session.dom z, net.Supported z changed b (s.dom changed)) := by
  unfold propagate?
  unfold Ready at hqueue ⊢
  cases halgorithm : settings.algorithm with
  | forwardChecking =>
    obtain ⟨consistent, s', hresult, hpropagates, hsupported⟩ :=
      ForwardChecking.exists_propagate? net queue hchanged undecided hsize hassignment hundecided
    refine ⟨⟨consistent, queue, s'⟩, ?_, hpropagates, fun h => (by cases h), hsupported⟩
    show Option.map _ _ = _
    rw [hresult]
    rfl
  | maintainingArcConsistency =>
    obtain ⟨result, hresult, hpropagates, hidle, hsupported⟩ :=
      ArcConsistency.exists_propagate? net settings.requeuePolicy (hqueue halgorithm) hsize hchanged
    refine ⟨result, hresult, hpropagates, fun _ => hidle, ?_⟩
    intro htrue z _ _ _ b hb c hc hjoins
    exact hsupported htrue z ⟨c, hc, hjoins.symm⟩ b hb c hc hjoins

end Settings

end ConstraintNet
