/-
  ConstraintNet.Proofs.MirroredSearch
  ───────────────────────────────────
  **DESCENDING IS ASCENDING IN A MIRROR.**

  The mirror image of a network has the range [-u, -l] where the network has
  [l, u], and the pair (-a, -b) where it allows (a, b).  Negation is a
  renaming of the values, so a propagation does not notice it.  It turns
  their order round, so a search notices it in one place: the smallest value
  of a domain is the negation of the greatest in the mirror.

  Negation of 32-bit values has two fixed points, 0 and the smallest value,
  and the second one spoils the order.  So the ranges must not have the
  smallest value; what the pairs have does not matter, since a search never
  meets a value outside the ranges.

      `ValueOrdering.select?_mirror`     — the choice of a value
      `Search.Runs.mirror`               — every call, by induction on its run
      `Engine.mirrored_solves_reversed`  — two engines
-/
import ConstraintNet.Proofs.GreatestFamily
import ConstraintNet.Proofs.Lexicographic
import ConstraintNet.Proofs.Lifecycle
import ConstraintNet.Proofs.RenamedPropagation

namespace ConstraintNet

/-! ## §1. Negated values. -/

/-- Every value is called by its negation. -/
def Value.negation : Equiv.Perm Value where
  toFun v := -v
  invFun v := -v
  left_inv _ := Int32.neg_neg
  right_inv _ := Int32.neg_neg

/-- Apart from the smallest value, negation is that of integers. -/
theorem Value.toInt_negation {v : Value} (h : v ≠ Int32.minValue) :
    (negation v).toInt = -v.toInt := by
  have hbounds := toInt_bounds v
  have hne : v.toInt ≠ -2147483648 := fun heq => h (Int32.toInt_inj.1 (heq.trans (by decide)))
  show (-v).toInt = -v.toInt
  rw [Int32.toInt_neg]
  exact Int.bmod_eq_of_le (by omega) (by omega)

/-- The smallest value is its own negation, and no other value has it as one. -/
theorem Value.negation_eq_minValue_iff {v : Value} :
    negation v = Int32.minValue ↔ v = Int32.minValue := by
  rw [show Int32.minValue = negation Int32.minValue by decide, negation.injective.eq_iff]
  rfl

/-- Apart from the smallest value, negation turns the order round. -/
theorem Value.negation_lt_negation {v w : Value} (hv : v ≠ Int32.minValue)
    (hw : w ≠ Int32.minValue) : negation v < negation w ↔ w < v := by
  rw [Int32.lt_iff_toInt_lt, Int32.lt_iff_toInt_lt, toInt_negation hv, toInt_negation hw]
  omega

theorem Value.negation_le_negation {v w : Value} (hv : v ≠ Int32.minValue)
    (hw : w ≠ Int32.minValue) : negation v ≤ negation w ↔ w ≤ v := by
  rw [Int32.le_iff_toInt_le, Int32.le_iff_toInt_le, toInt_negation hv, toInt_negation hw]
  omega

/-- The other ordering. -/
def ValueOrdering.reversed : ValueOrdering → ValueOrdering
  | .ascending => .descending
  | .descending => .ascending

/-- What one ordering prefers, the reversed one prefers of the negations. -/
theorem ValueOrdering.before_negation {ordering : ValueOrdering} {v w : Value}
    (hv : v ≠ Int32.minValue) (hw : w ≠ Int32.minValue) (h : ordering.Before v w) :
    ordering.reversed.Before (Value.negation v) (Value.negation w) := by
  cases ordering with
  | ascending => exact (Value.negation_lt_negation hw hv).2 h
  | descending => exact (Value.negation_lt_negation hv hw).2 h

/-- **The other ordering tries the negation first.** -/
theorem ValueOrdering.select?_mirror {ordering : ValueOrdering} {d : Domain} {v : Value}
    (hd : ∀ w ∈ d, w ≠ Int32.minValue) (h : ordering.select? d = some v) :
    ordering.reversed.select? (d.rename Value.negation) = some (Value.negation v) := by
  have hv := mem_of_select? h
  obtain ⟨w', hw'⟩ := ordering.reversed.exists_select? ⟨_, Domain.mem_rename.2 hv⟩
  obtain ⟨w, hw, rfl⟩ := Domain.mem_rename_iff.1 (mem_of_select? hw')
  by_cases hne : w = v
  · rw [hw', hne]
  -- otherwise each would be tried before the other
  · have hbefore := before_negation (hd v hv) (hd w hw) (before_of_select? h hw hne)
    have hother := before_of_select? hw' (Domain.mem_rename.2 hv)
      (Value.negation.injective.ne (Ne.symm hne))
    exact absurd hother hbefore.asymm

/-! ## §2. Mirror images of networks. -/

/-- The range with the negated values. -/
def Bounds.mirrored (b : Bounds) : Bounds := ⟨-b.upper, -b.lower⟩

/-- The constraint with the negated pairs. -/
def Constraint.mirrored (c : Constraint) : Constraint :=
  .ofTuples c.first c.second (c.tuples.map fun (a, b) => (-a, -b))

/-- The mirror image of a constraint comes from the negations of the pairs that it was made of. -/
theorem Constraint.mirrored_ofTuples (first second : VariableId) (pairs : List (Value × Value)) :
    (ofTuples first second pairs).mirrored =
      ofTuples first second (pairs.map fun (a, b) => (-a, -b)) := by
  have hinjective : Function.Injective fun ((a, b) : Value × Value) => (-a, -b) :=
    Function.Injective.prodMap Value.negation.injective Value.negation.injective
  have hdistinct : Grouping.distinct SupportTable.comparePairs
        (pairs.map fun (a, b) => (-a, -b)) =
      (Grouping.distinct SupportTable.comparePairs pairs).map fun (a, b) => (-a, -b) :=
    Grouping.distinct_map hinjective pairs
  show ofTuples first second
    ((Grouping.distinct SupportTable.comparePairs pairs).map fun (a, b) => (-a, -b)) = _
  rw [← hdistinct]
  unfold ofTuples
  simp only [Constraint.mk.injEq, true_and]
  exact SupportTable.ofList_tuples _

/-- No range has the smallest value. -/
def Network.Reversible (net : Network) : Prop :=
  ∀ b ∈ net.bounds.toList, b.lower ≠ Int32.minValue

/-- In a range without the smallest value, no value is the smallest one. -/
theorem Bounds.ne_minValue {b : Bounds} (hlower : b.lower ≠ Int32.minValue) {v : Value}
    (hv : b.lower ≤ v) : v ≠ Int32.minValue := by
  rintro rfl
  exact hlower (Int32.le_antisymm hv (Int32.minValue_le _))

/-- The values of the mirrored range are the negations. -/
theorem Bounds.domain_mirrored {b : Bounds} (hlower : b.lower ≠ Int32.minValue)
    (hupper : b.lower ≤ b.upper) : b.mirrored.domain = b.domain.rename Value.negation := by
  have hupper' : b.upper ≠ Int32.minValue := ne_minValue hlower hupper
  have hlower' : b.mirrored.lower ≠ Int32.minValue :=
    fun h => hupper' (Value.negation_eq_minValue_iff.1 h)
  refine Domain.eq_rename fun v => ?_
  unfold domain
  rw [Domain.mem_ofRange, Domain.mem_ofRange]
  -- a value on either side is not the smallest one, so the order is turned round
  constructor
  · intro ⟨h₁, h₂⟩
    have hv : v ≠ Int32.minValue :=
      fun h => ne_minValue hlower' h₁ (Value.negation_eq_minValue_iff.2 h)
    exact ⟨(Value.negation_le_negation hv hlower).1 h₂,
      (Value.negation_le_negation hupper' hv).1 h₁⟩
  · intro ⟨h₁, h₂⟩
    have hv := ne_minValue hlower h₁
    exact ⟨(Value.negation_le_negation hupper' hv).2 h₂,
      (Value.negation_le_negation hv hlower).2 h₁⟩

namespace Network

/-- `net'` is the mirror image of `net`. -/
structure Mirrors (net net' : Network) : Prop extends Renamed Value.negation net net' where
  reversible : net.Reversible
  bounds_eq : net'.bounds.toList = net.bounds.toList.map Bounds.mirrored

variable {net net' : Network}

/-- The mirror image of a network is a network. -/
theorem Reversible.exists_mirror (h : net.Reversible) :
    ∃ net', build? (net.bounds.toList.map Bounds.mirrored)
      (net.constraints.toList.map Constraint.mirrored) = .ok net' ∧ net.Mirrors net' := by
  let net' : Network :=
    { bounds := (net.bounds.toList.map Bounds.mirrored).toArray
      constraints := (net.constraints.toList.map Constraint.mirrored).toArray
      links := linksOf net.size (net.constraints.toList.map Constraint.mirrored)
      bounds_nonempty := by
        intro b' hb'
        obtain ⟨b, hb, rfl⟩ := List.mem_map.1 hb'
        -- a range without the smallest value is turned round without becoming empty
        have hle := net.bounds_nonempty b hb
        exact (Value.negation_le_negation (Bounds.ne_minValue (h b hb) hle) (h b hb)).2 hle
      endpoints_known := by
        intro c' hc'
        obtain ⟨c, hc, rfl⟩ := List.mem_map.1 hc'
        rw [List.size_toArray, List.length_map, Array.length_toList]
        exact net.endpoints_known c hc
      links_eq := by
        rw [List.size_toArray, List.length_map, Array.length_toList]
        rfl }
  refine ⟨net', net'.build?_eq_ok, ⟨?_, rfl⟩, h, rfl⟩
  show (net.bounds.toList.map Bounds.mirrored).toArray.size = net.size
  rw [List.size_toArray, List.length_map, Array.length_toList]
  rfl

/-- The mirror image starts with the mirrored domains. -/
theorem Mirrors.start_eq (h : net.Mirrors net') :
    Session.start net' = (Session.start net).rename Value.negation := by
  have hdomains : net'.bounds.map Bounds.domain =
      (net.bounds.map Bounds.domain).map (Domain.rename Value.negation) := by
    apply Array.toList_inj.1
    rw [Array.toList_map, Array.toList_map, Array.toList_map, h.bounds_eq, List.map_map,
      List.map_map]
    refine List.map_congr_left fun b hb => ?_
    exact Bounds.domain_mirrored (h.reversible b hb) (net.bounds_nonempty b hb)
  have hassignment : Array.replicate net'.size (none : Option Value) =
      (Array.replicate net.size none).map (Option.map Value.negation) := by
    rw [Array.map_replicate, h.size_eq]
    rfl
  unfold Session.start Session.rename
  simp only [hdomains, hassignment, List.map_nil, Option.map_none]

/-- A search never meets the smallest value. -/
theorem Mirrors.ne_minValue (h : net.Mirrors net') {pending : VariableId → Prop} {s : Session}
    {undecided : List VariableId} (hcoherent : Coherent net pending s undecided) {x : VariableId}
    {v : Value} (hv : v ∈ s.dom x) : v ≠ Int32.minValue := by
  have hstart := hcoherent.in_bounds x v hv
  have hx : x < net.size := hcoherent.size_domains ▸ Session.lt_size_of_mem_dom hv
  have hb : net.bounds[x]? = some net.bounds[x] := Array.getElem?_eq_getElem hx
  exact Bounds.ne_minValue (h.reversible _ (Array.getElem_mem_toList hx))
    ((net.mem_dom_start hb).1 hstart).1

end Network

/-! ## §3. Searches. -/

/-- The state has the mirrored session and the same queue. Journals are not compared. -/
structure SearchState.Mirrors (st st' : SearchState) : Prop where
  session_eq : st'.session = st.session.rename Value.negation
  queue_eq : st'.queue = st.queue

/-- A session and its image go into states that are images of each other. -/
theorem SearchState.Mirrors.withSession {st st' : SearchState} (h : st.Mirrors st') (s : Session) :
    (st.withSession s).Mirrors (st'.withSession (s.rename Value.negation)) :=
  ⟨rfl, h.queue_eq⟩

/-- Counters are the same on both sides, and what is counted on both stays so. -/
theorem SearchState.Mirrors.mapStats {st st' : SearchState} (h : st.Mirrors st')
    (f : Statistics → Statistics) : (st.mapStats f).Mirrors (st'.mapStats f) :=
  ⟨congrArg (Session.mapStats · f) h.session_eq, h.queue_eq⟩

/-- The settings with the other value ordering. -/
def Settings.reversed (settings : Settings) : Settings :=
  { settings with valueOrdering := settings.valueOrdering.reversed }

namespace Search

/-- The same part of a search in the mirror. -/
inductive Call.Mirrors : Call → Call → Prop where
  | node {st st' : SearchState} (h : st.Mirrors st') (remaining : List VariableId) :
      Call.Mirrors (.node st remaining) (.node st' remaining)
  | equal {st st' : SearchState} (h : st.Mirrors st') (remaining : List VariableId)
      (var : VariableId) (value : Value) :
      Call.Mirrors (.equal st remaining var value)
        (.equal st' remaining var (Value.negation value))
  | other {st st' : SearchState} (h : st.Mirrors st') (remaining : List VariableId)
      (var : VariableId) (value : Value) :
      Call.Mirrors (.other st remaining var value)
        (.other st' remaining var (Value.negation value))
  | follow {st st' : SearchState} (h : st.Mirrors st') (var : VariableId)
      (undecided : List VariableId) :
      Call.Mirrors (.follow st var undecided) (.follow st' var undecided)

variable {net net' : Network} {settings : Settings} {st st' : SearchState}

/-- The choice of a node in the mirror. -/
theorem exists_choose?_mirror (h : net.Mirrors net') (hst : st.Mirrors st')
    {remaining : List VariableId} (hvalid : (Call.node st remaining).Valid net settings)
    {var : VariableId} {value : Value} {chosen : SearchState}
    (hchoose : choose? settings (st.mapStats Statistics.countNode) remaining =
      some (some (var, value), chosen)) :
    ∃ chosen', choose? settings.reversed (st'.mapStats Statistics.countNode) remaining =
      some (some (var, Value.negation value), chosen') ∧ chosen.Mirrors chosen' := by
  obtain ⟨⟨hsession, hqueue⟩, hvar, hvalue⟩ := of_choose? hchoose
  have hcounted := hst.mapStats Statistics.countNode
  have hvar' : settings.reversed.variableOrdering.select?
      (st'.mapStats Statistics.countNode).session remaining = some (some var) := by
    rw [hcounted.session_eq, Session.select?_rename]
    exact hvar
  have hvalue' : settings.reversed.valueOrdering.select?
      ((st'.mapStats Statistics.countNode).session.dom var) = some (Value.negation value) := by
    rw [hcounted.session_eq, Session.dom_rename]
    exact ValueOrdering.select?_mirror (fun w hw => h.ne_minValue hvalid.1 hw) hvalue
  obtain ⟨chosen', hchoose', hsession', hqueue'⟩ := exists_choose?_of_select? hvar' hvalue'
  refine ⟨chosen', hchoose', ?_, ?_⟩
  · rw [hsession', hcounted.session_eq, hsession]
  · rw [hqueue', hcounted.queue_eq, hqueue]

/-- The steps of a branch in the mirror. -/
theorem assign?_mirror (hst : st.Mirrors st') {var : VariableId} {value : Value} {decided : Session}
    (hassign : st.session.checkpoint.assign? var value = some decided) :
    st'.session.checkpoint.assign? var (Value.negation value) =
      some (decided.rename Value.negation) := by
  rw [hst.session_eq, ← Session.rename_checkpoint, Session.assign?_rename, hassign]
  rfl

/-- A checkpoint of the image is the image of the checkpoint. -/
theorem restore?_mirror (hst : st.Mirrors st') {restored : Session}
    (hrestore : st.session.restore? = some restored) :
    st'.session.restore? = some (restored.rename Value.negation) := by
  rw [hst.session_eq, Session.restore?_rename, hrestore]
  rfl

/-- A decision is withdrawn on both sides. -/
theorem unassign?_mirror {s session : Session} {var : VariableId}
    (hunassign : s.unassign? var = some session) :
    (s.rename Value.negation).unassign? var = some (session.rename Value.negation) := by
  rw [Session.unassign?_rename, hunassign]
  rfl

/-- Where a value is removed, the image loses its negation. -/
theorem removeValue?_mirror (hst : st.Mirrors st') {var : VariableId} {value : Value}
    {removed : Bool} {narrowed : Session}
    (hremove : st.session.removeValue? var value = some (removed, narrowed)) :
    st'.session.removeValue? var (Value.negation value) =
      some (removed, narrowed.rename Value.negation) := by
  rw [hst.session_eq, Session.removeValue?_rename, hremove]
  rfl

/-- And the negation comes back with the value. -/
theorem insertValue?_mirror {s session : Session} {var : VariableId} {value : Value}
    {inserted : Bool} (hinsert : s.insertValue? var value = some (inserted, session)) :
    (s.rename Value.negation).insertValue? var (Value.negation value) =
      some (inserted, session.rename Value.negation) := by
  rw [Session.insertValue?_rename, hinsert]
  rfl

/-- The propagation of a decision in the mirror. -/
theorem propagate?_mirror (h : net.Mirrors net') (hst : st.Mirrors st') {var : VariableId}
    {undecided : List VariableId} {result : Propagated}
    (hpropagate : settings.propagate? net st.queue st.session var undecided = some result) :
    settings.reversed.propagate? net' st'.queue st'.session var undecided =
      some (result.rename Value.negation) := by
  rw [hst.session_eq, hst.queue_eq]
  have hrenamed := settings.propagate?_rename h.toRenamed st.queue st.session var undecided
  rw [hpropagate] at hrenamed
  exact hrenamed

/-- After propagations that are images of each other, so are the states. -/
theorem mirrors_propagated (st st' : SearchState) (var : VariableId)
    (undecided : List VariableId) (result : Propagated) :
    (st.propagated var undecided result).Mirrors
      (st'.propagated var undecided (result.rename Value.negation)) :=
  ⟨rfl, rfl⟩

/-- **Every call has its mirror image.** The induction is on its run; the decisions in the mirror
are about the same variables and the negated values. -/
theorem Runs.mirror (h : net.Mirrors net') {call call' : Call} {found : Bool}
    (hruns : Runs net settings call found st) (hvalid : call.Valid net settings)
    (hmirrors : call.Mirrors call') :
    ∃ st', Runs net' settings.reversed call' found st' ∧ st.Mirrors st' := by
  induction hruns generalizing call' with
  | @complete st remaining hcomplete =>
    cases hmirrors with | node hst =>
    refine ⟨_, .complete ?_, ?_, hst.queue_eq⟩
    · rw [hst.session_eq, Session.isComplete_rename]
      exact hcomplete
    · show (SearchState.mapStats _ Statistics.countNode).session.recordSolution = _
      rw [(hst.mapStats Statistics.countNode).session_eq]
      exact Session.rename_recordSolution.symm
  | left hopen hchoose _ ih =>
    cases hmirrors with | node hst =>
    obtain ⟨chosen', hchoose', hchosen⟩ := exists_choose?_mirror h hst hvalid hchoose
    obtain ⟨st', hleft', hst'⟩ := ih (hvalid.choose hchoose).1 (.equal hchosen _ _ _)
    rw [← Session.isComplete_rename, ← hst.session_eq] at hopen
    exact ⟨st', .left hopen hchoose' hleft', hst'⟩
  -- the state between the branches is valid again, as the first one left it
  | right hopen hchoose hleft _ ihleft ihright =>
    cases hmirrors with | node hst =>
    obtain ⟨chosen', hchoose', hchosen⟩ := exists_choose?_mirror h hst hvalid hchoose
    have hequal := (hvalid.choose hchoose).1
    obtain ⟨between', hleft', hbetween⟩ := ihleft hequal (.equal hchosen _ _ _)
    obtain ⟨hleaves, hready⟩ := hleft.leaves hequal
    obtain ⟨st', hright', hst'⟩ :=
      ihright (hequal.other hleaves hready) (.other hbetween _ _ _)
    rw [← Session.isComplete_rename, ← hst.session_eq] at hopen
    exact ⟨st', .right hopen hchoose' hleft' hright', hst'⟩
  | equal hassign _ hrestore hunassign ih =>
    cases hmirrors with | equal hst =>
    obtain ⟨st₁, hfollow', hst₁⟩ :=
      ih (hvalid.assign hassign) (.follow (hst.withSession _) _ _)
    exact ⟨_, .equal (assign?_mirror hst hassign) hfollow' (restore?_mirror hst₁ hrestore)
      (unassign?_mirror hunassign), hst₁.withSession _⟩
  | @emptied st narrowed session _ var _ _ _ hremove hempty hinsert =>
    cases hmirrors with | other hst =>
    -- negation empties no domain and fills none
    have hempty' : ∀ v, v ∉ (narrowed.rename Value.negation).dom var := by
      intro w hw
      rw [Session.dom_rename] at hw
      obtain ⟨v, hv, _⟩ := Domain.mem_rename_iff.1 hw
      exact hempty v hv
    exact ⟨_, .emptied (removeValue?_mirror hst hremove) hempty' (insertValue?_mirror hinsert),
      ((hst.withSession narrowed).mapStats Statistics.countBacktrack).withSession session⟩
  | @other st _ narrowed restored session _ var _ _ _ _ hremove hsome _ hrestore hinsert ih =>
    cases hmirrors with | other hst =>
    obtain ⟨st₁, hfollow', hst₁⟩ :=
      ih (hvalid.exclude hremove hsome) (.follow (hst.withSession narrowed.checkpoint) _ _)
    obtain ⟨v, hv⟩ := hsome
    have hsome' : ∃ w, w ∈ (narrowed.rename Value.negation).dom var :=
      ⟨Value.negation v, Session.dom_rename ▸ Domain.mem_rename.2 hv⟩
    exact ⟨_, .other (removeValue?_mirror hst hremove) hsome' hfollow'
      (restore?_mirror hst₁ hrestore) (insertValue?_mirror hinsert), hst₁.withSession session⟩
  | @refuted st var undecided result hpropagate hfalse =>
    cases hmirrors with | @follow _ st' hst =>
    exact ⟨_, .refuted (propagate?_mirror h hst hpropagate) hfalse,
      (mirrors_propagated st st' var undecided result).mapStats Statistics.countBacktrack⟩
  | followed hpropagate htrue _ ih =>
    cases hmirrors with | follow hst =>
    obtain ⟨_, _, hnode⟩ := hvalid.propagated hpropagate
    obtain ⟨st₁, hnode', hst₁⟩ := ih (hnode htrue) (.node (mirrors_propagated _ _ _ _ _) _)
    exact ⟨st₁, .followed (propagate?_mirror h hst hpropagate) htrue hnode', hst₁⟩

/-- **A whole search has its mirror image.** -/
theorem Ends.mirror (h : net.Mirrors net') {queue : ArcQueue} {journal : Journal}
    (hends : Ends net settings ⟨Session.start net, queue, journal⟩ st) :
    ∃ st', Ends net' settings.reversed ⟨Session.start net', queue, journal⟩ st' ∧
      st.Mirrors st' := by
  -- preparation does the same under the negated names, with the verdict that it had
  have hprepare' : ∀ result, settings.prepare? net queue (Session.start net) = some result →
      settings.reversed.prepare? net' queue (Session.start net') =
        some (result.rename Value.negation) := by
    intro result hprepare
    have hrenamed := settings.prepare?_rename h.toRenamed queue (Session.start net)
    rw [hprepare, ← h.start_eq] at hrenamed
    exact hrenamed
  cases hends with
  | refuted hprepare hfalse => exact ⟨_, .refuted (hprepare' _ hprepare) hfalse, rfl, rfl⟩
  | @explored result _ _ hprepare htrue hruns =>
    have hprepared : (prepared ⟨Session.start net, queue, journal⟩ result).Mirrors
        (prepared ⟨Session.start net', queue, journal⟩ (result.rename Value.negation)) :=
      ⟨rfl, rfl⟩
    obtain ⟨st₁, hruns', hst₁⟩ := hruns.mirror h ((of_prepare? journal hprepare).2 htrue)
      (.node hprepared (List.range net.size))
    rw [← h.size_eq] at hruns'
    exact ⟨_, .explored (hprepare' _ hprepare) htrue hruns',
      congrArg Session.finish hst₁.session_eq, hst₁.queue_eq⟩

end Search

/-! ## §4. Engines. -/

/-- **Searches in a mirror find mirrored solutions after the same work.** If no range of a network
has the smallest value, the ranges [-u, -l] and the constraints with the pairs (-a, -b) make a
network again. Whatever the algorithm, the policy, the variable ordering and the past of either
engine are, an engine of the first network and one of the second with the other value ordering
solve when they are started. Both report a solution or neither does; the values of the second are
the negations of the first, and all that was counted is the same. -/
theorem Engine.mirrored_solves_reversed (net : Network)
    (hreversible : ∀ b ∈ net.bounds.toList, b.lower ≠ Int32.minValue) :
    ∃ net', Network.build? (net.bounds.toList.map Bounds.mirrored)
        (net.constraints.toList.map Constraint.mirrored) = .ok net' ∧
      ∀ (settings : Settings) (engine engine' : Engine), ∃ outcome after outcome' after',
        { engine with network := net, settings := settings : Engine }.start.solve =
          .ok (outcome, after) ∧
        { engine' with network := net', settings := settings.reversed : Engine }.start.solve =
          .ok (outcome', after') ∧
        outcome'.solution = outcome.solution.map (List.map fun v => -v) ∧
        outcome'.stats = outcome.stats := by
  obtain ⟨net', hbuild, hmirrors⟩ := Network.Reversible.exists_mirror hreversible
  refine ⟨net', hbuild, ?_⟩
  intro settings engine engine'
  obtain ⟨st, hends, hsolve⟩ :=
    exists_solve { engine with network := net, settings := settings }
  obtain ⟨st', hends', hsolve'⟩ :=
    exists_solve { engine' with network := net', settings := settings.reversed }
  obtain ⟨image, hends'', himage⟩ := hends.mirror hmirrors
  -- the mirror image of the one search and the other search have the same outcome
  obtain ⟨hsolution, hstats⟩ := hends''.outcome_eq hends'
  refine ⟨_, _, _, _, hsolve, hsolve', ?_, ?_⟩
  · show st'.session.solution = st.session.solution.map (List.map Value.negation)
    rw [hsolution, himage.session_eq]
    rfl
  · show st'.session.stats = st.session.stats
    rw [hstats, himage.session_eq]
    rfl

open ArcConsistency in
/-- The mirror image of the three rising variables. -/
theorem rising_in_the_mirror :
    (∀ b ∈ rising.bounds.toList, b.lower ≠ Int32.minValue) ∧
    ∃ net', Network.build? [⟨-3, -1⟩, ⟨-3, -1⟩, ⟨-3, -1⟩]
        [.ofTuples 0 1 [(-1, -2), (-1, -3), (-2, -3)],
          .ofTuples 2 1 [(-2, -1), (-3, -1), (-3, -2)]] = .ok net' ∧
      ∀ (settings : Settings) (engine engine' : Engine), ∃ outcome after outcome' after',
        { engine with network := rising, settings := settings : Engine }.start.solve =
          .ok (outcome, after) ∧
        { engine' with network := net', settings := settings.reversed : Engine }.start.solve =
          .ok (outcome', after') ∧
        outcome'.solution = outcome.solution.map (List.map fun v => -v) ∧
        outcome'.stats = outcome.stats := by
  have hreversible : ∀ b ∈ rising.bounds.toList, b.lower ≠ Int32.minValue := by decide
  have hconstraints : rising.constraints.toList.map Constraint.mirrored =
      [.ofTuples 0 1 [(-1, -2), (-1, -3), (-2, -3)],
        .ofTuples 2 1 [(-2, -1), (-3, -1), (-3, -2)]] := by
    simp [rising, Constraint.mirrored_ofTuples]
  obtain ⟨net', hbuild, hsolve⟩ := Engine.mirrored_solves_reversed rising hreversible
  rw [hconstraints] at hbuild
  exact ⟨hreversible, net', hbuild, hsolve⟩

end ConstraintNet
