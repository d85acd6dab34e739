/-
  ConstraintNet.Proofs.Choice
  ───────────────────────────
  **WHAT A NODE BRANCHES ON.**

  Whatever the orderings are, a node that is not complete branches on an
  undecided variable and on one of the values that it has left
  (`exists_choose?`, `of_choose?`), and the choice changes nothing but the
  journal.
-/
import ConstraintNet.Search
import ConstraintNet.Proofs.Coherence

namespace ConstraintNet

/-! ## §1. Variables and values. -/

theorem mem_of_smallestDomain? {s : Session} {best var : VariableId} {size : Nat} :
    ∀ {rest : List VariableId}, smallestDomain? s best size rest = some var →
      var = best ∨ var ∈ rest
  | [], h => Or.inl (Option.some.inj h).symm
  | x :: rest, h => by
      unfold smallestDomain? at h
      split at h
      next => cases h
      next =>
        split at h
        next =>
          rcases mem_of_smallestDomain? h with rfl | hmem
          · exact Or.inr List.mem_cons_self
          · exact Or.inr (List.mem_cons_of_mem x hmem)
        next =>
          rcases mem_of_smallestDomain? h with rfl | hmem
          · exact Or.inl rfl
          · exact Or.inr (List.mem_cons_of_mem x hmem)

theorem exists_smallestDomain? {s : Session} :
    ∀ (rest : List VariableId) (best : VariableId) (size : Nat),
      (∀ x ∈ rest, x < s.domains.size) → ∃ var, smallestDomain? s best size rest = some var
  | [], best, _, _ => ⟨best, rfl⟩
  | x :: rest, best, size, h => by
      obtain ⟨hx, hrest⟩ := List.forall_mem_cons.1 h
      unfold smallestDomain?
      rw [Session.domain?_eq_some hx]
      dsimp only
      split
      · exact exists_smallestDomain? rest x _ hrest
      · exact exists_smallestDomain? rest best size hrest

theorem VariableOrdering.mem_of_select? {ordering : VariableOrdering} {s : Session}
    {remaining : List VariableId} {var : VariableId}
    (h : ordering.select? s remaining = some (some var)) : var ∈ remaining := by
  unfold select? at h
  split at h
  next => cases h
  next first rest =>
    split at h
    next =>
      obtain rfl := Option.some.inj (Option.some.inj h)
      exact List.mem_cons_self
    next =>
      split at h
      next => cases h
      next =>
        obtain ⟨best, hbest, hvar⟩ := Option.map_eq_some_iff.1 h
        obtain rfl := Option.some.inj hvar
        exact List.mem_cons.2 (mem_of_smallestDomain? hbest)

theorem VariableOrdering.exists_select? (ordering : VariableOrdering) {s : Session}
    {remaining : List VariableId} (hne : remaining ≠ [])
    (hsize : ∀ x ∈ remaining, x < s.domains.size) :
    ∃ var, ordering.select? s remaining = some (some var) := by
  cases remaining with
  | nil => exact absurd rfl hne
  | cons first rest =>
    obtain ⟨hfirst, hrest⟩ := List.forall_mem_cons.1 hsize
    cases ordering with
    | selectFirst => exact ⟨first, rfl⟩
    | minimumRemainingValues =>
      obtain ⟨var, hvar⟩ := exists_smallestDomain? rest first (s.dom first).size hrest
      refine ⟨var, ?_⟩
      unfold select?
      dsimp only
      rw [Session.domain?_eq_some hfirst]
      dsimp only
      rw [hvar]
      rfl

/-- A choice of a variable reads nothing but the domains. -/
theorem smallestDomain?_congr {s s' : Session} (h : s'.domains = s.domains) :
    ∀ (rest : List VariableId) (best : VariableId) (size : Nat),
      smallestDomain? s' best size rest = smallestDomain? s best size rest
  | [], _, _ => rfl
  | x :: rest, best, size => by
      unfold smallestDomain?
      rw [show s'.domain? x = s.domain? x from congrArg (fun domains => domains[x]?) h]
      simp only [smallestDomain?_congr h rest]

theorem VariableOrdering.select?_congr (ordering : VariableOrdering) {s s' : Session}
    (h : s'.domains = s.domains) (remaining : List VariableId) :
    ordering.select? s' remaining = ordering.select? s remaining := by
  cases remaining with
  | nil => rfl
  | cons first rest =>
    unfold select?
    dsimp only
    rw [show s'.domain? first = s.domain? first from congrArg (fun domains => domains[first]?) h]
    simp only [smallestDomain?_congr h rest]

theorem ValueOrdering.exists_select? (ordering : ValueOrdering) {domain : Domain}
    (hsome : ∃ v, v ∈ domain) : ∃ v, ordering.select? domain = some v := by
  have hne : domain.values ≠ [] := by
    intro hnil
    obtain ⟨v, hv⟩ := hsome
    rw [← Domain.mem_values, hnil] at hv
    cases hv
  cases ordering with
  | ascending => exact ⟨_, domain.min?_eq_head?.trans (List.head?_eq_some_head hne)⟩
  | descending => exact ⟨_, domain.max?_eq_getLast?.trans (List.getLast?_eq_some_getLast hne)⟩

/-! ## §2. The choice of a node. -/

namespace Search

/-- A choice changes nothing but the journal. -/
theorem of_choose? {settings : Settings} {st st' : SearchState} {remaining : List VariableId}
    {var : VariableId} {value : Value}
    (h : choose? settings st remaining = some (some (var, value), st')) :
    (st'.session = st.session ∧ st'.queue = st.queue) ∧
      settings.variableOrdering.select? st.session remaining = some (some var) ∧
      settings.valueOrdering.select? (st.session.dom var) = some value := by
  unfold choose? at h
  split at h
  next => cases h
  next => cases h
  next chosen hvar =>
    dsimp only at h
    split at h
    next => cases h
    next domain hdomain =>
      simp only [Option.some.injEq, Prod.mk.injEq] at h
      obtain ⟨hvalue, rfl⟩ := h
      obtain ⟨v, hv, heq⟩ := Option.map_eq_some_iff.1 hvalue
      obtain ⟨rfl, rfl⟩ := Prod.mk.inj heq
      refine ⟨⟨rfl, rfl⟩, hvar, ?_⟩
      rw [show st.session.dom chosen = domain from Session.dom_of_domain? hdomain]
      exact hv

/-- A variable and a value that come first make the choice. -/
theorem exists_choose?_of_select? {settings : Settings} {st : SearchState}
    {remaining : List VariableId} {var : VariableId} {value : Value}
    (hvar : settings.variableOrdering.select? st.session remaining = some (some var))
    (hvalue : settings.valueOrdering.select? (st.session.dom var) = some value) :
    ∃ st', choose? settings st remaining = some (some (var, value), st') ∧
      st'.session = st.session ∧ st'.queue = st.queue := by
  have hdomain : st.session.domain? var = some (st.session.dom var) :=
    Session.domain?_eq_some (Session.lt_size_of_mem_dom (ValueOrdering.mem_of_select? hvalue))
  unfold choose?
  rw [hvar]
  dsimp only
  rw [show (st.note (.variableChosen remaining (some var))).session.domain? var =
    some (st.session.dom var) from hdomain]
  dsimp only
  rw [hvalue]
  exact ⟨_, rfl, rfl, rfl⟩

/-- A node of an unfinished search has a variable and a value to branch on. -/
theorem exists_choose? {net : Network} (settings : Settings) {st : SearchState}
    {remaining : List VariableId} (h : Coherent net (fun _ => False) st.session remaining)
    (hopen : st.session.isComplete = false) :
    ∃ var value st', choose? settings st remaining = some (some (var, value), st') := by
  have hsize : ∀ x ∈ remaining, x < st.session.domains.size := by
    intro x hx
    exact h.size_domains ▸ h.lt_size hx
  have hne : remaining ≠ [] := by
    intro hnil
    exact Bool.eq_false_iff.1 hopen (h.isComplete_iff.2 hnil)
  obtain ⟨var, hvar⟩ := settings.variableOrdering.exists_select? hne hsize
  have hmem := VariableOrdering.mem_of_select? hvar
  obtain ⟨value, hvalue⟩ := settings.valueOrdering.exists_select? (h.nonempty var (h.lt_size hmem))
  obtain ⟨st', hchoose, _⟩ := exists_choose?_of_select? hvar hvalue
  exact ⟨var, value, st', hchoose⟩

end Search

end ConstraintNet
