/-
  ConstraintNet.Proofs.Domination
  ───────────────────────────────
  **TWO SEARCHES SIDE BY SIDE.**

  Two searches of one network take the variables in the same order and try
  values in the same order.  One of them, the finer, prunes more.  They are
  compared node by node: a node of the finer `Faces` a node of the coarser
  over the same variables, in which the same solutions are left and the
  domains are related by `Covers`.  From there

      both decide alike        when the value that the coarser tries is left
                               in the finer,
      only the coarser decides when it is not: the value is in no solution,
                               so its first branch finds nothing, and the
                               node of its second faces the same node again.

  `Dominates` says what this asks of the two propagations, and of nothing
  else.  The finer search then visits no more nodes:

      `Dominates.noMore`    — below two nodes that face each other
      `Dominates.nodes_le`  — in two whole searches
-/
import ConstraintNet.Proofs.Lexicographic
import ConstraintNet.Proofs.Visits

namespace ConstraintNet

/-! ## §1. Nodes of a static order. -/

namespace Search

/-- What a node does that takes the first variable `x`: it gives it the value, which is the one to
try first, and takes the value away when this has found nothing. Either branch begins with what the
node has begun with. -/
structure Branches (net : Network) (settings : Settings) (st : SearchState) (x : VariableId)
    (rest : List VariableId) (found : Bool) (count : Nat) (value : Value)
    (chosen between : SearchState) (earlier : Bool) (first : Nat) : Prop where
  select : settings.valueOrdering.select? (st.session.dom x) = some value
  valid : (Call.equal chosen (x :: rest) x value).Valid net settings
  rewound : st.session.Rewound chosen.session
  visits : (Call.equal chosen (x :: rest) x value).Visits net settings earlier first
  valid' : (Call.other between (x :: rest) x value).Valid net settings
  rewound' : st.session.Rewound between.session
  stops : earlier = true → count = first + 1
  goes_on : earlier = false → ∃ second,
    (Call.other between (x :: rest) x value).Visits net settings found second ∧
    count = first + second + 1

/-- With static orderings, a node that is not complete branches on its first variable. -/
theorem Call.Visits.exists_branches {net : Network} {settings : Settings} {st : SearchState}
    {x : VariableId} {rest : List VariableId} {found : Bool} {count : Nat}
    (hstatic : settings.variableOrdering = .selectFirst)
    (hvalid : (Call.node st (x :: rest)).Valid net settings)
    (h : (Call.node st (x :: rest)).Visits net settings found count) :
    ∃ value chosen between earlier first,
      Branches net settings st x rest found count value chosen between earlier first := by
  obtain ⟨var, value, chosen, earlier, between, first, hchoose, hruns, hequal, hstops, hgoes⟩ :=
    h.of_open hvalid.1.isComplete_eq_false
  obtain ⟨_, hvar, hvalue⟩ := of_choose? hchoose
  -- in a static order the variable that was chosen is the first of the list
  rw [hstatic] at hvar
  obtain rfl : x = var := Option.some.inj (Option.some.inj hvar)
  obtain ⟨hfirst, hrewound, _⟩ := hvalid.choose hchoose
  obtain ⟨hleaves, hready⟩ := hruns.leaves hfirst
  exact ⟨value, chosen, between, earlier, first, hvalue, hfirst, hrewound, hequal,
    hfirst.other hleaves hready, hrewound.trans hleaves, hstops, hgoes⟩

/-- The first branch visits fewer nodes than the node has. -/
theorem Branches.first_lt {net : Network} {settings : Settings} {st chosen between : SearchState}
    {x : VariableId} {rest : List VariableId} {found earlier : Bool} {count first : Nat}
    {value : Value}
    (h : Branches net settings st x rest found count value chosen between earlier first) :
    first < count := by
  cases earlier with
  | true =>
    have hcount := h.stops rfl
    omega
  | false =>
    obtain ⟨second, _, hcount⟩ := h.goes_on rfl
    omega

end Search

/-! ## §2. Decisions about one variable. -/

namespace Search

/-- A decision about `x`, the first of the variables that are left, has narrowed its domain from
what it was in `D`, and is about to be propagated. The variable is taken off the list when it has
got a value, and stays when it has lost one. -/
structure Decision (net : Network) (settings : Settings) (D : VariableId → Domain) (x : VariableId)
    (rest undecided : List VariableId) (st : SearchState) : Prop where
  undecided_eq : undecided = rest ∨ undecided = x :: rest
  valid : (Call.follow st x undecided).Valid net settings
  narrowed : NarrowedAt x D st.session.dom

/-- A decision with what comes of its propagation. -/
structure Decides (net : Network) (settings : Settings) (D : VariableId → Domain) (x : VariableId)
    (rest undecided : List VariableId) (st : SearchState) (result : Propagated) : Prop
    extends Decision net settings D x rest undecided st where
  propagate : settings.propagate? net st.queue st.session x undecided = some result

/-- No decision about `x` goes on from `D`. -/
def Refutes (net : Network) (settings : Settings) (D : VariableId → Domain) (x : VariableId)
    (rest : List VariableId) : Prop :=
  ∀ {undecided : List VariableId} {st : SearchState} {result : Propagated},
    Decides net settings D x rest undecided st result → result.consistent = false

section Refutes

variable {net : Network} {settings : Settings} {D : VariableId → Domain} {x : VariableId}
  {rest : List VariableId} {st : SearchState} {value : Value} {found : Bool} {count : Nat}

theorem decision_of_assign? (h : (Call.equal st (x :: rest) x value).Valid net settings)
    {decided : Session} (hassign : st.session.checkpoint.assign? x value = some decided) :
    Decision net settings st.session.dom x rest rest (st.withSession decided) := by
  have hnext := h.assign hassign
  rw [h.1.1.filter_ne_head] at hnext
  exact ⟨Or.inl rfl, hnext, (Session.decided_of_assign? hassign).narrowedAt h.2.2⟩

theorem decision_of_removeValue? (h : (Call.other st (x :: rest) x value).Valid net settings)
    {narrowed : Session} {removed : Bool}
    (hremove : st.session.removeValue? x value = some (removed, narrowed))
    (hsome : ∃ v, v ∈ narrowed.dom x) :
    Decision net settings st.session.dom x rest (x :: rest)
      (st.withSession narrowed.checkpoint) :=
  ⟨Or.inr rfl, h.exclude hremove hsome, (Session.excluded_of_removeValue? hremove).narrowedAt⟩

/-- A branch that gives the first variable a value goes on with the others. -/
theorem Call.Visits.of_equal_head
    (h : (Call.equal st (x :: rest) x value).Visits net settings found count)
    (hvalid : (Call.equal st (x :: rest) x value).Valid net settings) :
    ∃ decided, st.session.checkpoint.assign? x value = some decided ∧
      (Call.follow (st.withSession decided) x rest).Visits net settings found count := by
  obtain ⟨decided, hassign, hfollow⟩ := h.of_equal
  rw [hvalid.1.1.filter_ne_head] at hfollow
  exact ⟨decided, hassign, hfollow⟩

/-- Where nothing is admitted any more, no node stands behind a decision. -/
theorem Refutes.follow (h : Refutes net settings D x rest) {undecided : List VariableId}
    (hdecision : Decision net settings D x rest undecided st)
    (hvisits : (Call.follow st x undecided).Visits net settings found count) : count = 0 := by
  obtain ⟨result, hresult, ⟨_, hzero⟩ | ⟨htrue, _⟩⟩ := hvisits.of_follow
  · exact hzero
  · rw [h ⟨hdecision, hresult⟩] at htrue
    cases htrue

theorem Refutes.equal (h : Refutes net settings st.session.dom x rest)
    (hvalid : (Call.equal st (x :: rest) x value).Valid net settings)
    (hvisits : (Call.equal st (x :: rest) x value).Visits net settings found count) :
    count = 0 := by
  obtain ⟨decided, hassign, hfollow⟩ := hvisits.of_equal_head hvalid
  exact h.follow (decision_of_assign? hvalid hassign) hfollow

theorem Refutes.other (h : Refutes net settings st.session.dom x rest)
    (hvalid : (Call.other st (x :: rest) x value).Valid net settings)
    (hvisits : (Call.other st (x :: rest) x value).Visits net settings found count) :
    count = 0 := by
  obtain ⟨removed, narrowed, hremove, ⟨_, hzero⟩ | ⟨hsome, hfollow⟩⟩ := hvisits.of_other
  · exact hzero
  · exact h.follow (decision_of_removeValue? hvalid hremove hsome) hfollow

/-- A node from which no decision goes on is alone. -/
theorem Refutes.node (h : Refutes net settings st.session.dom x rest)
    (hstatic : settings.variableOrdering = .selectFirst)
    (hvalid : (Call.node st (x :: rest)).Valid net settings)
    (hvisits : (Call.node st (x :: rest)).Visits net settings found count) : count = 1 := by
  obtain ⟨value, chosen, between, earlier, first, hbranches⟩ :=
    hvisits.exists_branches hstatic hvalid
  have hfirst : first = 0 := by
    rw [← funext (Session.dom_congr hbranches.rewound.domains_eq)] at h
    exact h.equal hbranches.valid hbranches.visits
  cases earlier with
  | true => rw [hbranches.stops rfl, hfirst]
  | false =>
    obtain ⟨second, hvisits', hcount⟩ := hbranches.goes_on rfl
    have hsecond : second = 0 := by
      rw [← funext (Session.dom_congr hbranches.rewound'.domains_eq)] at h
      exact h.other hbranches.valid' hvisits'
    rw [hcount, hfirst, hsecond]

end Refutes

/-! ## §3. Propagation that keeps up. -/

/-- What two propagations need for `Covers` to relate the domains of nodes that face each other. -/
structure Dominates (net : Network) (finer coarser : Settings)
    (Covers : (VariableId → Domain) → (VariableId → Domain) → List VariableId → Prop) :
    Prop where
  /-- If the finer search begins, so does the coarser. -/
  start {queue queue' : ArcQueue} {result result' : Propagated} :
    finer.prepare? net queue (Session.start net) = some result →
    coarser.prepare? net queue' (Session.start net) = some result' → result.consistent = true →
    result'.consistent = true ∧
      Covers result.session.dom result'.session.dom (List.range net.size)
  /-- What the finer search may decide next, the coarser may decide, too. -/
  head {D E : VariableId → Domain} {x : VariableId} {rest : List VariableId} :
    Covers D E (x :: rest) → ∀ v, v ∈ D x → v ∈ E x
  /-- When both decide and the finer search goes on, so does the coarser. -/
  together {D E : VariableId → Domain} {x : VariableId} {rest undecided : List VariableId}
    {st st' : SearchState} {result result' : Propagated} :
    Covers D E (x :: rest) → Decides net finer D x rest undecided st result →
    Decides net coarser E x rest undecided st' result' →
    (∀ v, v ∈ st.session.dom x → v ∈ st'.session.dom x) → result.consistent = true →
    result'.consistent = true ∧ Covers result.session.dom result'.session.dom undecided
  /-- When the coarser search gives up a value that the finer does not have, and goes on, nothing
  has changed between them. -/
  alone {D E : VariableId → Domain} {x : VariableId} {rest : List VariableId}
    {st' : SearchState} {result' : Propagated} :
    Covers D E (x :: rest) → Decides net coarser E x rest (x :: rest) st' result' →
    (∀ v, v ∈ D x → v ∈ st'.session.dom x) → result'.consistent = true →
    Covers D result'.session.dom (x :: rest)
  /-- When it does not go on, no decision of the finer search goes on either. -/
  stuck {D E : VariableId → Domain} {x : VariableId} {rest : List VariableId}
    {st' : SearchState} {result' : Propagated} :
    Covers D E (x :: rest) → Decides net coarser E x rest (x :: rest) st' result' →
    (∀ v, v ∈ D x → v ∈ st'.session.dom x) → result'.consistent = false →
    Refutes net finer D x rest

variable {net : Network} {finer coarser : Settings}
  {Covers : (VariableId → Domain) → (VariableId → Domain) → List VariableId → Prop}
  {st st' : SearchState} {remaining : List VariableId}

/-! ## §4. Nodes that face each other. -/

/-- A node of the finer search faces one of the coarser: over the same variables, with the same
solutions left. -/
structure Faces (net : Network) (finer coarser : Settings)
    (Covers : (VariableId → Domain) → (VariableId → Domain) → List VariableId → Prop)
    (st st' : SearchState) (remaining : List VariableId) : Prop where
  valid : (Call.node st remaining).Valid net finer
  valid' : (Call.node st' remaining).Valid net coarser
  covers : Covers st.session.dom st'.session.dom remaining
  admits_iff : ∀ f, st.session.Admits net f ↔ st'.session.Admits net f

/-- Nodes still face each other in sessions that were rewound. -/
theorem Faces.rewound (h : Faces net finer coarser Covers st st' remaining)
    {back back' : SearchState} (hvalid : (Call.node back remaining).Valid net finer)
    (hvalid' : (Call.node back' remaining).Valid net coarser)
    (hrewound : st.session.Rewound back.session) (hrewound' : st'.session.Rewound back'.session) :
    Faces net finer coarser Covers back back' remaining := by
  refine ⟨hvalid, hvalid', ?_, ?_⟩
  · rw [funext (Session.dom_congr hrewound.domains_eq),
      funext (Session.dom_congr hrewound'.domains_eq)]
    exact h.covers
  · intro f
    rw [hrewound.admits_iff, hrewound'.admits_iff]
    exact h.admits_iff f

section Verdicts

variable {x : VariableId} {rest : List VariableId} {value : Value} {found found' : Bool}
  {count count' : Nat}

/-- A value that the finer search does not have leads the coarser nowhere. -/
theorem Faces.found_eq_false (h : Faces net finer coarser Covers st st' (x :: rest))
    {chosen' : SearchState} (hrewound' : st'.session.Rewound chosen'.session)
    (hvalue : value ∉ st.session.dom x)
    (hvalid' : (Call.equal chosen' (x :: rest) x value).Valid net coarser)
    (hvisits' : (Call.equal chosen' (x :: rest) x value).Visits net coarser found' count') :
    found' = false := by
  rw [← Bool.not_eq_true, hvisits'.found_iff hvalid']
  intro hsome
  obtain ⟨f, hf, hfx⟩ := hsome
  have hx : x < net.size := h.valid.1.lt_size List.mem_cons_self
  have hadmits := (h.admits_iff f).2 ((hrewound'.admits_iff f).1 hf)
  exact hvalue (hfx ▸ hadmits.2 x hx)

/-- Branches that give the variable the same value come to the same verdict. -/
theorem Faces.found_eq (h : Faces net finer coarser Covers st st' (x :: rest))
    (hvalid : (Call.equal st (x :: rest) x value).Valid net finer)
    (hvalid' : (Call.equal st' (x :: rest) x value).Valid net coarser)
    (hvisits : (Call.equal st (x :: rest) x value).Visits net finer found count)
    (hvisits' : (Call.equal st' (x :: rest) x value).Visits net coarser found' count') :
    found = found' := by
  rw [Bool.eq_iff_iff, hvisits.found_iff hvalid, hvisits'.found_iff hvalid']
  exact exists_congr fun f => and_congr_left' (h.admits_iff f)

end Verdicts

/-- Below nodes that face each other, the finer search visits no more nodes than the coarser, if
that visits `count'`. -/
def NoMore (net : Network) (finer coarser : Settings)
    (Covers : (VariableId → Domain) → (VariableId → Domain) → List VariableId → Prop)
    (count' : Nat) : Prop :=
  ∀ {st st' : SearchState} {remaining : List VariableId} {found found' : Bool} {count : Nat},
    Faces net finer coarser Covers st st' remaining →
    (Call.node st remaining).Visits net finer found count →
    (Call.node st' remaining).Visits net coarser found' count' → count ≤ count'

namespace Dominates

variable (hdom : Dominates net finer coarser Covers) {x : VariableId} {value : Value}
  {rest : List VariableId} {found found' : Bool} {count count' : Nat}

include hdom

/-! ## §5. Decisions that both searches make. -/

/-- Behind a decision that both make, the finer propagation leaves no more nodes than the coarser
one. -/
theorem follow_le (hmore : NoMore net finer coarser Covers count')
    {D E : VariableId → Domain} (hcovers : Covers D E (x :: rest)) {undecided : List VariableId}
    (hdecision : Decision net finer D x rest undecided st)
    (hdecision' : Decision net coarser E x rest undecided st')
    (hsub : ∀ v, v ∈ st.session.dom x → v ∈ st'.session.dom x)
    (hadmits : ∀ f, st.session.Admits net f ↔ st'.session.Admits net f)
    (hvisits : (Call.follow st x undecided).Visits net finer found count)
    (hvisits' : (Call.follow st' x undecided).Visits net coarser found' count') :
    count ≤ count' := by
  obtain ⟨result, hresult, ⟨_, rfl⟩ | ⟨htrue, hnode⟩⟩ := hvisits.of_follow
  · exact Nat.zero_le _
  -- where the finer search goes on, the coarser does, and their next nodes face each other
  · obtain ⟨result', hresult', hcases⟩ := hvisits'.of_follow
    obtain ⟨htrue', hcovers'⟩ :=
      hdom.together hcovers ⟨hdecision, hresult⟩ ⟨hdecision', hresult'⟩ hsub htrue
    obtain ⟨hpropagates, _, hnext⟩ := hdecision.valid.propagated hresult
    obtain ⟨hpropagates', _, hnext'⟩ := hdecision'.valid.propagated hresult'
    rcases hcases with ⟨hfalse', _⟩ | ⟨_, hnode'⟩
    · rw [htrue'] at hfalse'
      cases hfalse'
    · refine hmore ⟨hnext htrue, hnext' htrue', hcovers', ?_⟩ hnode hnode'
      intro f
      show result.session.Admits net f ↔ result'.session.Admits net f
      rw [hpropagates.admits_iff, hpropagates'.admits_iff]
      exact hadmits f

/-- Both searches give the variable the value. -/
theorem equal_le (hmore : NoMore net finer coarser Covers count')
    (hfaces : Faces net finer coarser Covers st st' (x :: rest))
    (hvalid : (Call.equal st (x :: rest) x value).Valid net finer)
    (hvalid' : (Call.equal st' (x :: rest) x value).Valid net coarser)
    (hvisits : (Call.equal st (x :: rest) x value).Visits net finer found count)
    (hvisits' : (Call.equal st' (x :: rest) x value).Visits net coarser found' count') :
    count ≤ count' := by
  obtain ⟨decided, hassign, hfollow⟩ := hvisits.of_equal_head hvalid
  obtain ⟨decided', hassign', hfollow'⟩ := hvisits'.of_equal_head hvalid'
  have hdecided := Session.decided_of_assign? hassign
  have hdecided' := Session.decided_of_assign? hassign'
  have hx : x < net.size := hfaces.valid.1.lt_size List.mem_cons_self
  refine hdom.follow_le hmore hfaces.covers (decision_of_assign? hvalid hassign)
    (decision_of_assign? hvalid' hassign') ?_ ?_ hfollow hfollow'
  · intro v hv
    show v ∈ decided'.dom x
    rw [hdecided'.dom_self, ← hdecided.dom_self]
    exact hv
  · intro f
    show decided.Admits net f ↔ decided'.Admits net f
    rw [Session.admits_assign_iff hdecided hx hvalid.2.2,
      Session.admits_assign_iff hdecided' hx hvalid'.2.2, hfaces.admits_iff]

/-- Both searches take the value away. -/
theorem other_le (hmore : NoMore net finer coarser Covers count')
    (hfaces : Faces net finer coarser Covers st st' (x :: rest))
    (hvalid : (Call.other st (x :: rest) x value).Valid net finer)
    (hvalid' : (Call.other st' (x :: rest) x value).Valid net coarser)
    (hvisits : (Call.other st (x :: rest) x value).Visits net finer found count)
    (hvisits' : (Call.other st' (x :: rest) x value).Visits net coarser found' count') :
    count ≤ count' := by
  obtain ⟨removed, narrowed, hremove, ⟨_, rfl⟩ | ⟨hsome, hfollow⟩⟩ := hvisits.of_other
  · exact Nat.zero_le _
  · obtain ⟨removed', narrowed', hremove', hcases⟩ := hvisits'.of_other
    have hexcluded := Session.excluded_of_removeValue? hremove
    have hexcluded' := Session.excluded_of_removeValue? hremove'
    -- whatever the finer search keeps of the domain, the coarser one keeps
    have hsub : ∀ v, v ∈ narrowed.dom x → v ∈ narrowed'.dom x := by
      intro v hv
      obtain ⟨hold, hne⟩ := (hexcluded.mem_self v).1 hv
      exact (hexcluded'.mem_self v).2 ⟨hdom.head hfaces.covers v hold, hne⟩
    -- so a second branch of the finer search has one of the coarser beside it
    rcases hcases with ⟨hempty', _⟩ | ⟨hsome', hfollow'⟩
    · obtain ⟨v, hv⟩ := hsome
      exact absurd (hsub v hv) (hempty' v)
    · have hx : x < net.size := hfaces.valid.1.lt_size List.mem_cons_self
      refine hdom.follow_le hmore hfaces.covers (decision_of_removeValue? hvalid hremove hsome)
        (decision_of_removeValue? hvalid' hremove' hsome') hsub ?_ hfollow hfollow'
      intro f
      show narrowed.Admits net f ↔ narrowed'.Admits net f
      rw [Session.admits_remove_iff hexcluded hx, Session.admits_remove_iff hexcluded' hx,
        hfaces.admits_iff]

/-! ## §6. Decisions that only the coarser search makes. -/

/-- Only the coarser search takes the value away, as the finer does not have it. -/
theorem count_le_of_alone (hstatic : finer.variableOrdering = .selectFirst)
    (hmore : NoMore net finer coarser Covers count')
    (hfaces : Faces net finer coarser Covers st st' (x :: rest))
    (hvalue : value ∉ st.session.dom x)
    (hvalid' : (Call.other st' (x :: rest) x value).Valid net coarser)
    (hvisits : (Call.node st (x :: rest)).Visits net finer found count)
    (hvisits' : (Call.other st' (x :: rest) x value).Visits net coarser found' count') :
    count ≤ count' + 1 := by
  obtain ⟨removed, narrowed, hremove, hcases⟩ := hvisits'.of_other
  have hexcluded := Session.excluded_of_removeValue? hremove
  have hsub : ∀ v, v ∈ st.session.dom x → v ∈ narrowed.dom x := by
    intro v hv
    refine (hexcluded.mem_self v).2 ⟨hdom.head hfaces.covers v hv, ?_⟩
    rintro rfl
    exact hvalue hv
  have hx : x < net.size := hfaces.valid.1.lt_size List.mem_cons_self
  obtain ⟨v, hv⟩ := hfaces.valid.1.nonempty x hx
  rcases hcases with ⟨hempty, _⟩ | ⟨hsome, hfollow⟩
  -- all values of the finer search are left in the coarser, so it has not run out of them
  · exact absurd (hsub v hv) (hempty v)
  · have hdecision := decision_of_removeValue? hvalid' hremove hsome
    obtain ⟨result, hresult, hcases⟩ := hfollow.of_follow
    have hdecides : Decides net coarser st'.session.dom x rest (x :: rest) _ result :=
      ⟨hdecision, hresult⟩
    rcases hcases with ⟨hfalse, _⟩ | ⟨htrue, hnode⟩
    -- the coarser search ends here, and then the finer has its own node and no more
    · have hrefutes : Refutes net finer st.session.dom x rest :=
        hdom.stuck hfaces.covers hdecides hsub hfalse
      rw [hrefutes.node hstatic hfaces.valid hvisits]
      exact Nat.le_add_left 1 count'
    -- the coarser search comes to a node that the finer faces where it stands
    · obtain ⟨hpropagates, _, hvalid''⟩ := hdecision.valid.propagated hresult
      have hcovers := hdom.alone hfaces.covers hdecides hsub htrue
      refine Nat.le_succ_of_le (hmore ⟨hfaces.valid, hvalid'' htrue, hcovers, ?_⟩ hvisits hnode)
      intro f
      show _ ↔ result.session.Admits net f
      rw [hpropagates.admits_iff]
      show _ ↔ narrowed.Admits net f
      rw [Session.admits_remove_iff hexcluded hx, ← hfaces.admits_iff]
      -- what the finer search admits does not take the value
      constructor
      · intro hf
        refine ⟨hf, ?_⟩
        intro hfx
        exact hvalue (hfx ▸ hf.2 x hx)
      · exact fun hf => hf.1

/-! ## §7. The comparison. -/

/-- **Below nodes that face each other, the finer search visits no more nodes.** The induction is
on the nodes of the coarser search, which goes on alone where the finer search stays. -/
theorem noMore (hstatic : finer.variableOrdering = .selectFirst)
    (hstatic' : coarser.variableOrdering = .selectFirst)
    (hvalues : finer.valueOrdering = coarser.valueOrdering) (count' : Nat) :
    NoMore net finer coarser Covers count' := by
  induction count' using Nat.strongRecOn with
  | ind count' ih =>
    intro st st' remaining found found' count hfaces hvisits hvisits'
    cases remaining with
    | nil =>
      exact Nat.le_of_eq ((hvisits.of_complete (hfaces.valid.1.isComplete_iff.2 rfl)).trans
        (hvisits'.of_complete (hfaces.valid'.1.isComplete_iff.2 rfl)).symm)
    | cons x rest =>
      obtain ⟨value', chosen', between', earlier', first', hbranches'⟩ :=
        hvisits'.exists_branches hstatic' hfaces.valid'
      by_cases hmem : value' ∈ st.session.dom x
      -- both searches try the same value
      · obtain ⟨value, chosen, between, earlier, first, hbranches⟩ :=
          hvisits.exists_branches hstatic hfaces.valid
        obtain rfl : value = value' :=
          ValueOrdering.select?_eq_of_subset (hdom.head hfaces.covers) (hvalues ▸ hbranches.select)
            hbranches'.select hmem
        have hchosen := hfaces.rewound hbranches.valid.1 hbranches'.valid.1 hbranches.rewound
          hbranches'.rewound
        have hbetween := hfaces.rewound hbranches.valid'.1 hbranches'.valid'.1 hbranches.rewound'
          hbranches'.rewound'
        obtain rfl := hchosen.found_eq hbranches.valid hbranches'.valid hbranches.visits
          hbranches'.visits
        have hfirst : first ≤ first' := hdom.equal_le (ih first' hbranches'.first_lt) hchosen
          hbranches.valid hbranches'.valid hbranches.visits hbranches'.visits
        cases earlier with
        | true =>
          rw [hbranches.stops rfl, hbranches'.stops rfl]
          exact Nat.succ_le_succ hfirst
        | false =>
          obtain ⟨second, hsecond, hcount⟩ := hbranches.goes_on rfl
          obtain ⟨second', hsecond', hcount'⟩ := hbranches'.goes_on rfl
          have hle : second ≤ second' := hdom.other_le (ih second' (by omega)) hbetween
            hbranches.valid' hbranches'.valid' hsecond hsecond'
          omega
      -- the coarser search tries the value in vain and comes back to the same node without it
      · have hnothing := hfaces.found_eq_false hbranches'.rewound hmem hbranches'.valid
          hbranches'.visits
        obtain ⟨second', hsecond', hcount'⟩ := hbranches'.goes_on hnothing
        have hbetween := hfaces.rewound hfaces.valid hbranches'.valid'.1 ⟨⟨rfl, rfl⟩, rfl⟩
          hbranches'.rewound'
        have hle := hdom.count_le_of_alone hstatic (ih second' (by omega)) hbetween hmem
          hbranches'.valid' hvisits hsecond'
        omega

/-- **The finer of two whole searches visits no more nodes than the coarser.** -/
theorem nodes_le (hstatic : finer.variableOrdering = .selectFirst)
    (hstatic' : coarser.variableOrdering = .selectFirst)
    (hvalues : finer.valueOrdering = coarser.valueOrdering) {queue queue' : ArcQueue}
    {journal journal' : Journal}
    (h : Ends net finer ⟨Session.start net, queue, journal⟩ st)
    (h' : Ends net coarser ⟨Session.start net, queue', journal'⟩ st') : st.nodes ≤ st'.nodes := by
  cases h with
  | refuted hprepare _ =>
    exact Nat.le_trans (Nat.le_of_eq (counts_prepared journal hprepare).1) (Nat.zero_le _)
  | explored hprepare htrue hruns =>
    obtain ⟨hpropagates, hvalid⟩ := of_prepare? journal hprepare
    obtain ⟨count, hcount, hvisits⟩ := hruns.exists_visits
    cases h' with
    -- the coarser preparation cannot fail where the finer one does not
    | refuted hprepare' hfalse' =>
      rw [(hdom.start hprepare hprepare' htrue).1] at hfalse'
      cases hfalse'
    | explored hprepare' htrue' hruns' =>
      obtain ⟨hpropagates', hvalid'⟩ := of_prepare? journal' hprepare'
      obtain ⟨count', hcount', hvisits'⟩ := hruns'.exists_visits
      have hcovers := (hdom.start hprepare hprepare' htrue).2
      have hle : count ≤ count' := by
        refine hdom.noMore hstatic hstatic' hvalues count'
          ⟨hvalid htrue, hvalid' htrue', hcovers, ?_⟩ hvisits hvisits'
        exact fun f => (hpropagates.admits_iff f).trans (hpropagates'.admits_iff f).symm
      rw [Call.state, (counts_prepared journal hprepare).1, Nat.zero_add] at hcount
      rw [Call.state, (counts_prepared journal' hprepare').1, Nat.zero_add] at hcount'
      exact Nat.le_trans (Nat.le_of_eq hcount) (Nat.le_trans hle (Nat.le_of_eq hcount'.symm))

end Dominates

end Search

end ConstraintNet
