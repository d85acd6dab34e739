/-
  ConstraintNet.Proofs.Lexicographic
  ──────────────────────────────────
  **A STATIC ORDER FINDS THE FIRST SOLUTION.**

  A search that always takes the first variable has decided, at each node,
  all variables before the one that it branches on.  The solutions in the
  scope of the node therefore agree up to this variable, and the branch that
  is explored first holds those that give it the value that the ordering
  puts first.  So the solution that is found precedes every other in the
  lexicographic order that the value ordering induces, whatever propagation
  has pruned on the way:

      `Runs.foremost`                        — for every call
      `Engine.static_order_reports_extreme`  — for a started engine
-/
import ConstraintNet.Proofs.Solver

namespace ConstraintNet

/-! ## §1. Orders of values and of solutions. -/

/-- The ordering tries `v` earlier than `w`. -/
def ValueOrdering.Before : ValueOrdering → Value → Value → Prop
  | .ascending, v, w => v < w
  | .descending, v, w => w < v

/-- The value that is tried first comes before all others. -/
theorem ValueOrdering.before_of_select? {ordering : ValueOrdering} {domain : Domain} {v w : Value}
    (hv : ordering.select? domain = some v) (hw : w ∈ domain) (hne : w ≠ v) :
    ordering.Before v w := by
  have hmem := Domain.mem_values.2 hw
  have hascending := domain.ascending
  cases ordering with
  | ascending =>
    have hhead : domain.values.head? = some v := domain.min?_eq_head?.symm.trans hv
    obtain ⟨rest, hvalues⟩ := List.head?_eq_some_iff.1 hhead
    rw [hvalues] at hmem hascending
    rcases List.mem_cons.1 hmem with heq | hrest
    · exact absurd heq hne
    · exact List.rel_of_pairwise_cons hascending hrest
  | descending =>
    have hlast : domain.values.getLast? = some v := domain.max?_eq_getLast?.symm.trans hv
    obtain ⟨init, hvalues⟩ := List.getLast?_eq_some_iff.1 hlast
    rw [hvalues] at hmem hascending
    rcases List.mem_append.1 hmem with hinit | heq
    · exact (List.pairwise_append.1 hascending).2.2 w hinit v (List.mem_singleton.2 rfl)
    · exact absurd (List.mem_singleton.1 heq) hne

theorem ValueOrdering.Before.asymm {ordering : ValueOrdering} {v w : Value}
    (h : ordering.Before v w) : ¬ ordering.Before w v := by
  cases ordering with
  | ascending => exact Int32.lt_asymm h
  | descending => exact Int32.lt_asymm h

/-- The value that is tried first in a domain is tried first in every part that has it. -/
theorem ValueOrdering.select?_eq_of_subset {ordering : ValueOrdering} {d e : Domain} {v w : Value}
    (hsub : ∀ u, u ∈ d → u ∈ e) (hw : ordering.select? d = some w)
    (hv : ordering.select? e = some v) (hmem : v ∈ d) : w = v := by
  by_contra hne
  have hbefore := ValueOrdering.before_of_select? hw hmem (Ne.symm hne)
  exact hbefore.asymm (ValueOrdering.before_of_select? hv (hsub w (mem_of_select? hw)) hne)

/-- At the first variable where the two functions differ, the value of `f` is tried earlier. -/
def Network.Precedes (net : Network) (ordering : ValueOrdering) (f g : VariableId → Value) : Prop :=
  ∃ x < net.size, ordering.Before (f x) (g x) ∧ ∀ y < x, f y = g y

/-- `s` comes before `t` in the lexicographic order that the value ordering induces. -/
def ValueOrdering.ListBefore : ValueOrdering → List Value → List Value → Prop
  | .ascending, s, t => s < t
  | .descending, s, t => t < s

theorem ValueOrdering.ListBefore.asymm {ordering : ValueOrdering} {s t : List Value}
    (h : ordering.ListBefore s t) : ¬ ordering.ListBefore t s := by
  cases ordering with
  | ascending => exact List.lt_asymm h
  | descending => exact List.lt_asymm h

/-- The order of functions is the lexicographic order of the lists of their values. -/
theorem Network.Precedes.listBefore {net : Network} {f g : VariableId → Value}
    {ordering : ValueOrdering} (h : net.Precedes ordering f g) :
    ordering.ListBefore ((List.range net.size).map f) ((List.range net.size).map g) := by
  obtain ⟨x, hx, hbefore, hsame⟩ := h
  cases ordering with
  | ascending =>
    refine List.lt_iff_exists.2 (Or.inr ⟨x, by simpa using hx, by simpa using hx, ?_, ?_⟩)
    · intro y hy
      simpa using hsame y hy
    · have hlt : f x < g x := hbefore
      simpa using hlt
  | descending =>
    refine List.lt_iff_exists.2 (Or.inr ⟨x, by simpa using hx, by simpa using hx, ?_, ?_⟩)
    · intro y hy
      simpa using (hsame y hy).symm
    · have hlt : g x < f x := hbefore
      simpa using hlt

/-! ## §2. The first solution in a scope. -/

/-- Before the first undecided variable, all solutions that are left agree. -/
theorem Coherent.agree_before {net : Network} {pending : VariableId → Prop} {s : Session}
    {x : VariableId} {rest : List VariableId} (h : Coherent net pending s (x :: rest))
    {f g : VariableId → Value} (hf : s.Admits net f) (hg : s.Admits net g) :
    ∀ y < x, f y = g y := by
  intro y hy
  have hyn : y < net.size := Nat.lt_trans hy (h.lt_size List.mem_cons_self)
  have hdecided : y ∉ x :: rest := by
    intro hmem
    rcases List.mem_cons.1 hmem with heq | hrest
    · exact Nat.ne_of_lt hy heq
    · exact Nat.lt_asymm hy (List.rel_of_pairwise_cons h.ascending hrest)
  obtain ⟨a, ha⟩ := h.exists_decision hyn hdecided
  have hfy := hf.2 y hyn
  have hgy := hg.2 y hyn
  rw [h.dom_eq y a ha, Domain.mem_singleton] at hfy hgy
  rw [hfy, hgy]

namespace Search

variable {net : Network} {settings : Settings}

/-- The solution that a call left precedes every other function in its scope. -/
def Call.Foremost (net : Network) (ordering : ValueOrdering) (call : Call) (s' : Session) : Prop :=
  ∀ f, call.Scope net f → s'.solution = some ((List.range net.size).map f) →
    ∀ g, call.Scope net g → (∀ x < net.size, f x = g x) ∨ net.Precedes ordering f g

theorem Delegates.foremost {ordering : ValueOrdering} {call inner : Call} {s₁ s₂ : Session}
    (h : Delegates net call inner s₁ s₂) (hinner : inner.Foremost net ordering s₁) :
    call.Foremost net ordering s₂ := by
  intro f hf hsolution g hg
  exact hinner f ((h.scope_iff f).2 hf) (h.after.symm.trans hsolution) g ((h.scope_iff g).2 hg)

/-- **Every valid call that finds a solution finds the first in its scope**, when the search always
branches on the first variable. -/
theorem Runs.foremost (hstatic : settings.variableOrdering = .selectFirst) {call : Call}
    {found : Bool} {st' : SearchState} (h : Runs net settings call found st')
    (hvalid : call.Valid net settings) (hfound : found = true) :
    call.Foremost net settings.valueOrdering st'.session := by
  induction h with
  | complete hcomplete =>
    obtain ⟨f₀, _, _, hall⟩ := hvalid.1.complete hcomplete
    intro f hf _ g hg
    refine Or.inl fun x hx => ?_
    rw [hall f hf x hx, hall g hg x hx]
  | @left st chosen st' remaining var value _ hchoose hruns ih =>
    obtain ⟨hequal, hrewound, _⟩ := hvalid.choose hchoose
    intro f hf hsolution g hg
    have hf' := (hrewound.admits_iff f).2 hf
    have hg' := (hrewound.admits_iff g).2 hg
    have hvar := hequal.1.1.lt_size hequal.2.1
    -- the solution that was recorded is one of the branch
    have hvalue : f var = value := by
      obtain ⟨f₀, hf₀, hsolution₀⟩ := hruns.answers hequal
      have hlists := Option.some.inj (hsolution.symm.trans hsolution₀)
      rw [List.map_inj_left.1 hlists var (List.mem_range.2 hvar)]
      exact hf₀.2
    by_cases hgvar : g var = value
    · exact ih hequal rfl f ⟨hf', hvalue⟩ hsolution g ⟨hg', hgvar⟩
    · obtain ⟨⟨hsession, _⟩, hselect, hselected⟩ := of_choose? hchoose
      rw [← hsession] at hselected
      obtain ⟨rest, rfl⟩ : ∃ rest, remaining = var :: rest := by
        cases remaining with
        | nil => cases hselect
        | cons first rest =>
          rw [hstatic] at hselect
          exact ⟨rest, by rw [Option.some.inj (Option.some.inj hselect)]⟩
      refine Or.inr ⟨var, hvar, ?_, hequal.1.1.agree_before hf' hg'⟩
      rw [hvalue]
      exact ValueOrdering.before_of_select? hselected (hg'.2 var hvar) hgvar
  | right _ hchoose hruns _ _ ihright =>
    obtain ⟨hequal, _, _⟩ := hvalid.choose hchoose
    obtain ⟨hleaves, hready⟩ := hruns.leaves hequal
    exact (delegates_right hvalid hchoose hruns (hruns.answers hequal) _).foremost
      (ihright (hequal.other hleaves hready) hfound)
  | equal hassign hruns hrestore hunassign ih =>
    exact (delegates_equal hvalid hassign hruns hrestore hunassign).foremost
      (ih (hvalid.assign hassign) hfound)
  | emptied _ _ _ => cases hfound
  | other hremove hsome hruns hrestore hinsert ih =>
    exact (delegates_other hvalid hremove hsome hruns hrestore hinsert).foremost
      (ih (hvalid.exclude hremove hsome) hfound)
  | refuted _ _ => cases hfound
  | followed hpropagate htrue _ ih =>
    obtain ⟨hpropagates, _, hnode⟩ := hvalid.propagated hpropagate
    exact (delegates_followed hpropagates _).foremost (ih (hnode htrue) hfound)

/-- A whole search finds the first of all functions that a fresh session admits. -/
theorem Ends.foremost (hstatic : settings.variableOrdering = .selectFirst) {queue : ArcQueue}
    {journal : Journal} {st' : SearchState}
    (h : Ends net settings ⟨Session.start net, queue, journal⟩ st') {f g : VariableId → Value}
    (hf : (Session.start net).Admits net f)
    (hsolution : st'.session.solution = some ((List.range net.size).map f))
    (hg : (Session.start net).Admits net g) :
    (∀ x < net.size, f x = g x) ∨ net.Precedes settings.valueOrdering f g := by
  cases h with
  | refuted hprepare hfalse =>
    obtain ⟨hpropagates, _⟩ := of_prepare? journal hprepare
    exact absurd hf (hpropagates.not_admits hfalse f)
  | @explored _ found st'' hprepare htrue hruns =>
    obtain ⟨hpropagates, hnode⟩ := of_prepare? journal hprepare
    have hf' := hpropagates.admits f hf
    cases found with
    | true =>
      exact hruns.foremost hstatic (hnode htrue) rfl f hf' hsolution g (hpropagates.admits g hg)
    | false => exact absurd hf' ((hruns.answers (hnode htrue)).1 f)

end Search

/-! ## §3. Engines with a static order. -/

namespace Engine

theorem exists_foremost (engine : Engine)
    (hstatic : engine.settings.variableOrdering = .selectFirst)
    (hsatisfiable : ∃ s, engine.network.IsSolution s) :
    ∃ outcome engine' s, engine.start.solve = .ok (outcome, engine') ∧
      outcome.solution = some s ∧ engine.network.IsSolution s ∧
      ∀ t, engine.network.IsSolution t → t ≠ s → engine.settings.valueOrdering.ListBefore s t := by
  obtain ⟨st', hends, hsolve⟩ := engine.exists_solve
  rcases hends.answers with ⟨f, hf, hsolution⟩ | ⟨hnone, _⟩
  · refine ⟨_, _, _, hsolve, hsolution, (engine.network.admits_start_iff f).1 hf, ?_⟩
    intro t ht hne
    have htlist := ht.eq_map_range
    rcases hends.foremost hstatic hf hsolution ht.admits with hsame | hprecedes
    · refine absurd ?_ hne
      rw [← htlist]
      exact (List.map_inj_left.2 fun x hx => hsame x (List.mem_range.1 hx)).symm
    · have hlt := hprecedes.listBefore
      rwa [htlist] at hlt
  · obtain ⟨s, hs⟩ := hsatisfiable
    exact absurd hs.admits (hnone _)

/-- **The lexicographic extreme.** With the first variable first, every started engine reports the
same solution of a network that can be satisfied: the lexicographically smallest of all with
ascending values, the greatest with descending values, whatever the algorithm and the policy are. -/
theorem static_order_reports_extreme (net : Network) (ordering : ValueOrdering)
    (hsatisfiable : ∃ s, net.isSatisfiedBy s = true) :
    ∃ s, net.isSatisfiedBy s = true ∧
      (∀ t, net.isSatisfiedBy t = true → t ≠ s → match ordering with
        | .ascending => s < t
        | .descending => t < s) ∧
      ∀ (algorithm : Algorithm) (policy : RequeuePolicy) (queue : ArcQueue) (journal : Journal)
        (session : Option Session), ∃ outcome engine',
          (Engine.start ⟨net, ⟨algorithm, .selectFirst, ordering, policy⟩, queue, journal,
            session⟩).solve = .ok (outcome, engine') ∧ outcome.solution = some s := by
  simp only [Network.isSatisfiedBy_iff] at hsatisfiable ⊢
  obtain ⟨_, _, s, _, _, hs, hextreme⟩ := exists_foremost
    ⟨net, ⟨.forwardChecking, .selectFirst, ordering, .symmetric⟩, ∅, Journal.start 0, none⟩ rfl
    hsatisfiable
  refine ⟨s, hs, ?_, ?_⟩
  · intro t ht hne
    cases ordering with
    | ascending => exact hextreme t ht hne
    | descending => exact hextreme t ht hne
  · intro algorithm policy queue journal session
    obtain ⟨outcome, engine', s', hsolve, hsolution, hs', hextreme'⟩ := exists_foremost
      ⟨net, ⟨algorithm, .selectFirst, ordering, policy⟩, queue, journal, session⟩ rfl hsatisfiable
    refine ⟨outcome, engine', hsolve, ?_⟩
    -- two solutions that each come before all others are the same
    by_cases heq : s' = s
    · rw [hsolution, heq]
    · exact absurd (hextreme' s hs (Ne.symm heq)) (hextreme s' hs' heq).asymm

/-- Three variables in a row, of which neighbours may not have the same of the values 1 and 2; the
second constraint is stored against the row. -/
def alternating : Network where
  bounds := #[⟨1, 2⟩, ⟨1, 2⟩, ⟨1, 2⟩]
  constraints := #[.ofTuples 0 1 [(1, 2), (2, 1)], .ofTuples 2 1 [(2, 1), (1, 2)]]
  links := linksOf 3 [.ofTuples 0 1 [(1, 2), (2, 1)], .ofTuples 2 1 [(2, 1), (1, 2)]]
  bounds_nonempty := by decide
  endpoints_known := by simp [Constraint.ofTuples]
  links_eq := rfl

/-- The row has a solution, so with descending values every engine reports its greatest one. -/
theorem alternating_reports_greatest :
    (∃ s, alternating.isSatisfiedBy s = true) ∧
      ∃ s, alternating.isSatisfiedBy s = true ∧
        (∀ t, alternating.isSatisfiedBy t = true → t ≠ s → t < s) ∧
        ∀ (algorithm : Algorithm) (policy : RequeuePolicy) (queue : ArcQueue) (journal : Journal)
          (session : Option Session), ∃ outcome engine',
            (Engine.start ⟨alternating, ⟨algorithm, .selectFirst, .descending, policy⟩, queue,
              journal, session⟩).solve = .ok (outcome, engine') ∧ outcome.solution = some s :=
  have hsatisfiable : ∃ s, alternating.isSatisfiedBy s = true := ⟨[1, 2, 1], by decide⟩
  ⟨hsatisfiable, static_order_reports_extreme alternating .descending hsatisfiable⟩

end Engine

end ConstraintNet
