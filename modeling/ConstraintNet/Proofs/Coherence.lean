/-
  ConstraintNet.Proofs.Coherence
  ──────────────────────────────
  **WHAT HOLDS AT EVERY NODE OF A SEARCH.**

  A search never checks a complete assignment.  It need not, because at each
  of its nodes the session is `Coherent`: a decided variable has the decided
  value as its whole domain, and every value that any other variable has
  left goes with it under every constraint between the two.

  Between a decision and its propagation this fails for the variable that
  was decided last, so `Coherent` takes the set of variables of which it is
  not required:

      `coherent_start`       — nothing is decided, nothing is pending
      `Coherent.shrink`      — a loss of values changes nothing, be it by a
                               removal (`exclude`) or a propagation (`narrowed`)
      `Coherent.assign`      — a decision makes its variable pending
      `Coherent.propagated`  — which settles what is pending
      `Coherent.complete`    — with every variable decided, the decisions
                               are the one solution that is left
-/
import ConstraintNet.Proofs.Decision
import ConstraintNet.Proofs.Propagation

namespace ConstraintNet

/-- The domains and the decisions of a session in the middle of a search; `pending` are the
variables whose decision was not propagated yet. -/
structure Coherent (net : Network) (pending : VariableId → Prop) (s : Session)
    (undecided : List VariableId) : Prop where
  size_domains : s.domains.size = net.size
  size_assignment : s.assignment.size = net.size
  /-- The undecided variables are listed in their order. -/
  undecided_eq : undecided = (List.range net.size).filter fun x => s.assignment[x]? = some none
  nonempty : s.Nonempty net
  in_bounds : ∀ x, ∀ v ∈ s.dom x, v ∈ (Session.start net).dom x
  dom_eq : ∀ x a, s.assignment[x]? = some (some a) → s.dom x = Domain.singleton a
  compatible : ∀ x a, ¬ pending x → s.assignment[x]? = some (some a) →
    ∀ y, y ≠ x → ∀ b ∈ s.dom y, net.Compatible x y a b

namespace Coherent

variable {net : Network} {pending : VariableId → Prop} {s : Session}
  {undecided : List VariableId} {x : VariableId} {v : Value}

/-! ## §1. The undecided variables. -/

/-- The undecided variables are those without a decision. -/
theorem mem_undecided (h : Coherent net pending s undecided) :
    x ∈ undecided ↔ s.assignment[x]? = some none := by
  rw [h.undecided_eq, List.mem_filter, List.mem_range, decide_eq_true_eq]
  constructor
  · exact fun hx => hx.2
  · intro hx
    exact ⟨h.size_assignment ▸ (Array.getElem?_eq_some_iff.1 hx).1, hx⟩

/-- They are variables of the network. -/
theorem lt_size (h : Coherent net pending s undecided) (hx : x ∈ undecided) : x < net.size := by
  rw [h.undecided_eq] at hx
  exact List.mem_range.1 (List.mem_filter.1 hx).1

/-- They are listed in ascending order. -/
theorem ascending (h : Coherent net pending s undecided) : undecided.Pairwise (· < ·) := by
  rw [h.undecided_eq]
  exact List.pairwise_lt_range.filter _

/-- Every other variable has a decision. -/
theorem exists_decision (h : Coherent net pending s undecided) (hx : x < net.size)
    (hdecided : x ∉ undecided) : ∃ a, s.assignment[x]? = some (some a) := by
  have hx' : x < s.assignment.size := h.size_assignment ▸ hx
  rw [h.mem_undecided, Array.getElem?_eq_getElem hx'] at hdecided
  rw [Array.getElem?_eq_getElem hx']
  cases hvalue : s.assignment[x] with
  | none => exact absurd (congrArg some hvalue) hdecided
  | some a => exact ⟨a, rfl⟩

theorem isAssigned?_eq_false (h : Coherent net pending s undecided) (hx : x ∈ undecided) :
    s.isAssigned? x = some false := by
  unfold Session.isAssigned?
  rw [h.mem_undecided.1 hx]
  rfl

/-- A session is complete when no variable is undecided. -/
theorem isComplete_iff (h : Coherent net pending s undecided) :
    s.isComplete = true ↔ undecided = [] := by
  unfold Session.isComplete
  rw [Array.all_eq_true]
  constructor
  · intro hall
    refine List.eq_nil_iff_forall_not_mem.2 fun x hx => ?_
    obtain ⟨hlt, hnone⟩ := Array.getElem?_eq_some_iff.1 (h.mem_undecided.1 hx)
    have hsome := hall x hlt
    rw [hnone] at hsome
    cases hsome
  · intro hnil x hx
    obtain ⟨a, ha⟩ := h.exists_decision (h.size_assignment ▸ hx) (hnil ▸ List.not_mem_nil)
    rw [Array.getElem?_eq_getElem hx] at ha
    rw [Option.some.inj ha]
    rfl

/-- With a variable left, the assignment is not complete. -/
theorem isComplete_eq_false {rest : List VariableId} (h : Coherent net pending s (x :: rest)) :
    s.isComplete = false := by
  rw [← Bool.not_eq_true, h.isComplete_iff]
  exact List.cons_ne_nil x rest

/-- Without the first undecided variable, the others are left. -/
theorem filter_ne_head {rest : List VariableId} (h : Coherent net pending s (x :: rest)) :
    ((x :: rest).filter fun y => y ≠ x) = rest := by
  rw [List.filter_cons_of_neg (by simp), List.filter_eq_self]
  intro y hy
  exact decide_eq_true (Nat.ne_of_gt (List.rel_of_pairwise_cons h.ascending hy))

/-! ## §2. Steps. -/

/-- A session stays coherent when its domains lose values, as long as none loses its last. -/
theorem shrink (h : Coherent net pending s undecided) {s' : Session}
    (hsize : s'.domains.size = s.domains.size) (hassignment : s'.assignment = s.assignment)
    (hsub : ∀ y w, w ∈ s'.dom y → w ∈ s.dom y) (hnonempty : s'.Nonempty net) :
    Coherent net pending s' undecided := by
  refine ⟨hsize.trans h.size_domains, ?_, ?_, hnonempty, ?_, ?_, ?_⟩
  · rw [hassignment]
    exact h.size_assignment
  · rw [hassignment]
    exact h.undecided_eq
  · exact fun y w hw => h.in_bounds y w (hsub y w hw)
  · intro y a ha
    rw [hassignment] at ha
    have hold := h.dom_eq y a ha
    have hy : y < net.size := h.size_assignment ▸ (Array.getElem?_eq_some_iff.1 ha).1
    -- a part of a single value that is not empty is that value
    obtain ⟨w, hw⟩ := hnonempty y hy
    have hwa := hsub y w hw
    rw [hold, Domain.mem_singleton] at hwa
    subst hwa
    refine Domain.ext fun u => ?_
    rw [Domain.mem_singleton]
    constructor
    · intro hu
      have hua := hsub y u hu
      rwa [hold, Domain.mem_singleton] at hua
    · intro hu
      rwa [hu]
  · intro y a hy ha z hz b hb
    rw [hassignment] at ha
    exact h.compatible y a hy ha z hz b (hsub z b hb)

/-- Only domains and decisions matter. -/
theorem congr (h : Coherent net pending s undecided) {s' : Session}
    (hdomains : s'.domains = s.domains) (hassignment : s'.assignment = s.assignment) :
    Coherent net pending s' undecided := by
  have hdom := Session.dom_congr hdomains
  refine h.shrink (by rw [hdomains]) hassignment ?_ ?_
  · intro y w hw
    rwa [hdom] at hw
  · intro y hy
    rw [hdom]
    exact h.nonempty y hy

/-- More variables may be pending. -/
theorem weaken (h : Coherent net pending s undecided) {pending' : VariableId → Prop}
    (hsub : ∀ y, pending y → pending' y) : Coherent net pending' s undecided :=
  { h with compatible := fun y a hy => h.compatible y a fun hpending => hy (hsub y hpending) }

/-- A decision makes its variable pending, and takes it off the list. -/
theorem assign (h : Coherent net (fun _ => False) s undecided) (hv : v ∈ s.dom x) {s' : Session}
    (hs' : s.Decided x v s') :
    Coherent net (fun y => y = x) s' (undecided.filter fun y => y ≠ x) := by
  have hself : s'.assignment[x]? = some (some v) := by
    rw [hs'.assignment_eq, Array.getElem?_setIfInBounds_self, if_pos hs'.lt_size.2]
  have hother : ∀ y, y ≠ x → s'.assignment[y]? = s.assignment[y]? := by
    intro y hy
    rw [hs'.assignment_eq, Array.getElem?_setIfInBounds_ne hy.symm]
  refine ⟨hs'.size_eq.trans h.size_domains, ?_, ?_, ?_, ?_, ?_, ?_⟩
  · rw [hs'.assignment_eq, Array.size_setIfInBounds]
    exact h.size_assignment
  · rw [h.undecided_eq, List.filter_filter]
    refine List.filter_congr fun y _ => ?_
    -- the decided variable leaves the list, the others keep their decisions
    by_cases hy : y = x
    · rw [hy, hself]
      simp
    · rw [hother y hy]
      simp [hy]
  · intro y hy
    by_cases hyx : y = x
    · exact ⟨v, by rw [hyx, hs'.dom_self, Domain.mem_singleton]⟩
    · rw [hs'.dom_other y hyx]
      exact h.nonempty y hy
  · exact fun y w hw => h.in_bounds y w (hs'.subset hv y w hw)
  · intro y a ha
    by_cases hyx : y = x
    · rw [hyx, hself] at ha
      obtain rfl := Option.some.inj (Option.some.inj ha)
      rw [hyx, hs'.dom_self]
    · rw [hother y hyx] at ha
      rw [hs'.dom_other y hyx]
      exact h.dom_eq y a ha
  -- values that were compatible still are, and for `x` itself nothing is required yet
  · intro y a hy ha z hz b hb
    rw [hother y hy] at ha
    exact h.compatible y a id ha z hz b (hs'.subset hv z b hb)

/-- Without a value that was not the last of its variable, a session is as coherent as before. -/
theorem exclude (h : Coherent net pending s undecided) {s' : Session} (hs' : s.Excluded x v s')
    (hsome : ∃ w, w ∈ s'.dom x) : Coherent net pending s' undecided := by
  refine h.shrink hs'.size_eq hs'.unwound.assignment_eq hs'.subset ?_
  intro y hy
  by_cases hyx : y = x
  · rw [hyx]
    exact hsome
  · rw [hs'.dom_other y hyx]
    exact h.nonempty y hy

/-- A propagation that ends well keeps a session coherent. -/
theorem narrowed (h : Coherent net pending s undecided) {result : Propagated}
    (hresult : Propagates net s result) (htrue : result.consistent = true) :
    Coherent net pending result.session undecided := by
  have hnarrows := hresult.narrows
  have hnonempty := hresult.nonempty htrue h.nonempty
  exact h.shrink hnarrows.size_eq hnarrows.assignment_eq hnarrows.subset hnonempty

/-- The decision about `x` is settled when every value that is left of an undecided variable is
supported by it. -/
theorem compatible_of_supported (h : Coherent net (fun y => y = x) s undecided) {s' : Session}
    (hnarrows : s.Narrows s') (hsupported : ∀ z ∈ undecided, z ≠ x → ∀ b ∈ s'.dom z,
      net.Supported z x b (s.dom x)) {a : Value} (ha : s.assignment[x]? = some (some a))
    {y : VariableId} (hy : y ≠ x) {b : Value} (hb : b ∈ s'.dom y) : net.Compatible x y a b := by
  have hmem : y < net.size := h.size_domains ▸ hnarrows.size_eq ▸ Session.lt_size_of_mem_dom hb
  by_cases hundecided : y ∈ undecided
  · have honly : ∀ w, w ∈ s.dom x → w = a := by
      intro w hw
      rwa [h.dom_eq x a ha, Domain.mem_singleton] at hw
    exact ((hsupported y hundecided hy b hb).compatible honly).symm
  -- two decisions: the other one was settled before
  · obtain ⟨c, hc⟩ := h.exists_decision hmem hundecided
    have hbc : b = c := by
      have hold := hnarrows.subset y b hb
      rwa [h.dom_eq y c hc, Domain.mem_singleton] at hold
    rw [hbc]
    refine (h.compatible y c hy hc x hy.symm a ?_).symm
    rw [h.dom_eq x a ha, Domain.mem_singleton]

/-- A propagation that ends well settles the decision that was pending. -/
theorem propagated (h : Coherent net (fun y => y = x) s undecided) {result : Propagated}
    (hresult : Propagates net s result) (htrue : result.consistent = true)
    (hsupported : ∀ z ∈ undecided, z ≠ x → ∀ b ∈ result.session.dom z,
      net.Supported z x b (s.dom x)) :
    Coherent net (fun _ => False) result.session undecided := by
  have hnarrowed := h.narrowed hresult htrue
  refine { hnarrowed with compatible := ?_ }
  intro y a _ ha z hz b hb
  by_cases hyx : y = x
  · subst hyx
    rw [hresult.narrows.assignment_eq] at ha
    exact h.compatible_of_supported hresult.narrows hsupported ha hz hb
  · exact hnarrowed.compatible y a hyx ha z hz b hb

end Coherent

/-! ## §3. The first node and the last. -/

/-- At the start no variable is decided. -/
theorem Network.getElem?_start_assignment (net : Network) {x : VariableId} (hx : x < net.size) :
    (Session.start net).assignment[x]? = some none := by
  show (Array.replicate net.size none)[x]? = some none
  rw [Array.getElem?_replicate, if_pos hx]

/-- The domain that a search starts with is the range of the variable. -/
theorem Network.mem_dom_start (net : Network) {x : VariableId} {b : Bounds}
    (hb : net.bounds[x]? = some b) {v : Value} :
    v ∈ (Session.start net).dom x ↔ b.lower ≤ v ∧ v ≤ b.upper := by
  have hdomain : (Session.start net).domain? x = some b.domain := by
    show (net.bounds.map Bounds.domain)[x]? = some b.domain
    rw [Array.getElem?_map, hb]
    rfl
  rw [Session.dom_of_domain? hdomain]
  exact Domain.mem_ofRange

/-- Before the first decision, everything is open. -/
theorem coherent_start (net : Network) :
    Coherent net (fun _ => False) (Session.start net) (List.range net.size) := by
  have hnone : ∀ (x : VariableId) (a : Value),
      (Session.start net).assignment[x]? ≠ some (some a) := by
    intro x a ha
    have hx : x < net.size := by
      have hlt := (Array.getElem?_eq_some_iff.1 ha).1
      rwa [show (Session.start net).assignment = Array.replicate net.size none from rfl,
        Array.size_replicate] at hlt
    rw [net.getElem?_start_assignment hx] at ha
    cases ha
  -- without a decision most of the invariant is empty
  refine ⟨Array.size_map, Array.size_replicate, ?_, ?_, fun _ _ hv => hv, ?_, ?_⟩
  · refine (List.filter_eq_self.2 ?_).symm
    intro x hx
    exact decide_eq_true (net.getElem?_start_assignment (List.mem_range.1 hx))
  · intro x hx
    have hb : net.bounds[x]? = some net.bounds[x] := Array.getElem?_eq_getElem hx
    exact ⟨net.bounds[x].lower, (net.mem_dom_start hb).2
      ⟨Int32.le_refl _, net.bounds_nonempty _ (Array.getElem_mem_toList hx)⟩⟩
  · exact fun x a ha => absurd ha (hnone x a)
  · exact fun x a _ ha => absurd ha (hnone x a)

/-- With every variable decided, the decisions are the one solution that is left. -/
theorem Coherent.complete {net : Network} {s : Session} {undecided : List VariableId}
    (h : Coherent net (fun _ => False) s undecided) (hcomplete : s.isComplete = true) :
    ∃ f, s.Admits net f ∧ s.completeAssignment? = some ((List.range net.size).map f) ∧
      ∀ g, s.Admits net g → ∀ x < net.size, g x = f x := by
  let f : VariableId → Value := fun x => (s.assignment[x]?.join).getD 0
  have hvalue : ∀ x < net.size, s.assignment[x]? = some (some (f x)) := by
    intro x hx
    have hx' : x < s.assignment.size := h.size_assignment ▸ hx
    have hsome := Array.all_eq_true.1 hcomplete x hx'
    obtain ⟨a, ha⟩ := Option.isSome_iff_exists.1 hsome
    have hget : s.assignment[x]? = some (some a) := by
      rw [Array.getElem?_eq_getElem hx', ha]
    show _ = some (some ((s.assignment[x]?.join).getD 0))
    rw [hget]
    rfl
  -- every domain is the decided value alone
  have hdom : ∀ x < net.size, ∀ v, v ∈ s.dom x ↔ v = f x := by
    intro x hx v
    rw [h.dom_eq x (f x) (hvalue x hx), Domain.mem_singleton]
  refine ⟨f, ⟨?_, fun x hx => (hdom x hx _).2 rfl⟩, ?_,
    fun g hg x hx => (hdom x hx _).1 (hg.2 x hx)⟩
  -- compatibility of the decided values is satisfaction of every constraint
  · intro c hc
    obtain ⟨hfirst, hsecond, _⟩ := net.endpoints_known c hc
    exact h.compatible c.first _ id (hvalue _ hfirst) c.second (net.ends_ne hc).symm _
      ((hdom _ hsecond _).2 rfl) c hc c.joins_ends
  · have hlist : s.assignment.toList = (List.range net.size).map fun x => some (f x) := by
      apply List.ext_getElem?
      intro x
      rw [Array.getElem?_toList]
      rcases Nat.lt_or_ge x net.size with hx | hx
      · rw [hvalue x hx]
        simp [hx]
      · rw [Array.getElem?_eq_none (h.size_assignment ▸ hx),
          List.getElem?_eq_none (by simpa using hx)]
    unfold Session.completeAssignment?
    rw [if_pos hcomplete, hlist, List.filterMap_map]
    exact congrArg some (congrFun List.filterMap_eq_map' _)

end ConstraintNet
