/-
  ConstraintNet.Proofs.GreatestFamily
  ───────────────────────────────────
  **THE GREATEST ARC CONSISTENT FAMILY.**

  A family gives each variable a set of values.  It is consistent within a
  session when the sets are parts of the domains and every value has a
  support in the family under every constraint.  The union of consistent
  families is consistent, so there is a greatest one.

  A revision takes no value of a consistent family away, whatever the order
  of the arcs is; and domains that are arc consistent are themselves a
  consistent family.  Between the two, arc consistency has no choice:

      `Drains.consistentFamily_iff`       — a run keeps every consistent
                                            family, under either policy
      `establish_leaves_greatest_family`  — a full symmetric run over a simple
                                            network leaves the greatest one,
                                            and fails when that has an empty
                                            member
-/
import Mathlib.Order.Bounds.Basic
import ConstraintNet.Proofs.ParallelConstraints

namespace ConstraintNet

namespace Network

/-! ## §1. Families of sets of values. -/

/-- A set of possible values for each variable, in which every value has a support under every
constraint. -/
structure ConsistentFamily (net : Network) (s : Session) (F : VariableId → Set Value) : Prop where
  subset_dom : ∀ x, ∀ v ∈ F x, v ∈ s.dom x
  supported : ∀ c ∈ net.constraints.toList, ∀ x y, c.Joins x y →
    ∀ a ∈ F x, ∃ b ∈ F y, c.allows x a b = true

/-- The union of all consistent families, variable by variable. -/
def greatestFamily (net : Network) (s : Session) (x : VariableId) : Set Value :=
  {v | ∃ F, net.ConsistentFamily s F ∧ v ∈ F x}

variable {net : Network} {s s' : Session} {F : VariableId → Set Value}

/-- The greatest family is consistent itself. -/
theorem consistentFamily_greatestFamily (net : Network) (s : Session) :
    net.ConsistentFamily s (net.greatestFamily s) := by
  refine ⟨?_, ?_⟩
  · intro x v hv
    obtain ⟨F, hF, hv⟩ := hv
    exact hF.subset_dom x v hv
  · intro c hc x y hjoins a ha
    obtain ⟨F, hF, ha⟩ := ha
    obtain ⟨b, hb, hallows⟩ := hF.supported c hc x y hjoins a ha
    exact ⟨b, ⟨F, hF, hb⟩, hallows⟩

/-- Every consistent family is part of it. -/
theorem ConsistentFamily.le_greatestFamily (h : net.ConsistentFamily s F) :
    F ≤ net.greatestFamily s :=
  fun _ _ hv => ⟨F, h, hv⟩

/-- The union of all consistent families is the greatest of them. -/
theorem isGreatest_greatestFamily (net : Network) (s : Session) :
    IsGreatest {F | net.ConsistentFamily s F} (net.greatestFamily s) :=
  ⟨net.consistentFamily_greatestFamily s, fun _ hF => hF.le_greatestFamily⟩

/-- Arc consistent domains are a consistent family of their own. -/
theorem ArcConsistent.consistentFamily (h : net.ArcConsistent s) :
    net.ConsistentFamily s fun x => {v | v ∈ s.dom x} :=
  ⟨fun _ _ hv => hv, h⟩

theorem ConsistentFamily.of_narrows (h : net.ConsistentFamily s' F) (hnarrows : s.Narrows s') :
    net.ConsistentFamily s F :=
  ⟨fun x v hv => hnarrows.subset x v (h.subset_dom x v hv), h.supported⟩

/-- A value of a consistent family has a support among the values that are possible. -/
theorem ConsistentFamily.supported_dom (h : net.ConsistentFamily s F) {x : VariableId} {a : Value}
    (ha : a ∈ F x) (y : VariableId) : net.Supported x y a (s.dom y) := by
  intro c hc hjoins
  obtain ⟨b, hb, hallows⟩ := h.supported c hc x y hjoins a ha
  exact ⟨b, h.subset_dom y b hb, hallows⟩

/-- **A revision takes nothing from a consistent family.** -/
theorem ConsistentFamily.of_revised {arc : Arc} (h : net.ConsistentFamily s F)
    (hrevised : Revised net s arc s') : net.ConsistentFamily s' F := by
  refine ⟨?_, h.supported⟩
  intro x v hv
  exact hrevised.mem_dom (h.subset_dom x v hv) fun _ => h.supported_dom hv arc.support

end Network

/-! ## §2. Runs of arc consistency. -/

namespace ArcConsistency

variable {net : Network} {policy : RequeuePolicy} {queue : ArcQueue} {s : Session}
  {result : Propagated} {F : VariableId → Set Value}

/-- **Draining a queue keeps every consistent family**, by induction on the turns. -/
theorem Drains.consistentFamily (h : Drains net policy queue s result)
    (hF : net.ConsistentFamily s F) : net.ConsistentFamily result.session F := by
  induction h with
  | idle _ => exact hF
  | wipedOut _ hrev => exact hF.of_revised (revised_of_revise? hrev).1
  | revised _ hrev _ _ ih => exact ih (hF.of_revised (revised_of_revise? hrev).1)

/-- The consistent families are the same before and after a run, however it ends. -/
theorem Drains.consistentFamily_iff (h : Drains net policy queue s result)
    (hnarrows : s.Narrows result.session) :
    net.ConsistentFamily result.session F ↔ net.ConsistentFamily s F :=
  ⟨fun hF => hF.of_narrows hnarrows, h.consistentFamily⟩

/-- So the greatest one is the same before and after. -/
theorem Drains.greatestFamily_eq (h : Drains net policy queue s result)
    (hnarrows : s.Narrows result.session) :
    net.greatestFamily result.session = net.greatestFamily s := by
  funext x
  unfold Network.greatestFamily
  simp only [h.consistentFamily_iff hnarrows]

/-- Arc consistent domains are the greatest consistent family within themselves. -/
theorem mem_dom_iff_mem_greatestFamily (h : net.ArcConsistent s) (x : VariableId) (v : Value) :
    v ∈ s.dom x ↔ v ∈ net.greatestFamily s x := by
  constructor
  · exact fun hv => h.consistentFamily.le_greatestFamily x hv
  · exact (net.consistentFamily_greatestFamily s).subset_dom x v

/-- **Arc consistency leaves the greatest consistent family.** When no two constraints bind the same
variables and no domain is empty, full symmetric arc consistency from an idle queue ends well
exactly when no member of the greatest consistent family is empty; then the domains that it leaves
are this family. -/
theorem establish_leaves_greatest_family (hsimple : net.Simple) (hqueue : queue.Idle)
    (hsize : s.domains.size = net.size) (hnonempty : s.Nonempty net) :
    IsGreatest {F | net.ConsistentFamily s F} (net.greatestFamily s) ∧
      ∃ result, establish? net .symmetric queue s = some result ∧
        (result.consistent = true ↔ ∀ x < net.size, (net.greatestFamily s x).Nonempty) ∧
        (result.consistent = true →
          ∀ x v, v ∈ result.session.dom x ↔ v ∈ net.greatestFamily s x) := by
  refine ⟨net.isGreatest_greatestFamily s, ?_⟩
  obtain ⟨result, hresult, hpropagates, _⟩ := exists_establish? net .symmetric hqueue hsize
  obtain ⟨result', hresult', hfixed⟩ := reachesFixedPoint_of_simple hsimple hqueue hsize
  obtain rfl := Option.some.inj (hresult.symm.trans hresult')
  have hgreatest := (drains_of_drain? hresult).greatestFamily_eq hpropagates.narrows
  have hdom : result.consistent = true →
      ∀ x v, v ∈ result.session.dom x ↔ v ∈ net.greatestFamily s x := by
    intro htrue x v
    rw [← hgreatest]
    exact mem_dom_iff_mem_greatestFamily (hfixed htrue).1 x v
  refine ⟨result, hresult, ⟨?_, ?_⟩, hdom⟩
  · intro htrue x hx
    obtain ⟨v, hv⟩ := hpropagates.nonempty htrue hnonempty x hx
    exact ⟨v, (hdom htrue x v).1 hv⟩
  -- a run that fails has emptied a domain, and with it the member of the family within
  · intro hmembers
    refine hpropagates.consistent_of_nonempty fun x hx => ?_
    obtain ⟨v, hv⟩ := hmembers x hx
    rw [← hgreatest] at hv
    exact ⟨v, (net.consistentFamily_greatestFamily result.session).subset_dom x v hv⟩

/-- Three variables in a row with the values 1 to 3, each smaller than the next; the second
constraint is stored against the row. -/
def rising : Network where
  bounds := #[⟨1, 3⟩, ⟨1, 3⟩, ⟨1, 3⟩]
  constraints := #[.ofTuples 0 1 [(1, 2), (1, 3), (2, 3)], .ofTuples 2 1 [(2, 1), (3, 1), (3, 2)]]
  links := linksOf 3
    [.ofTuples 0 1 [(1, 2), (1, 3), (2, 3)], .ofTuples 2 1 [(2, 1), (3, 1), (3, 2)]]
  bounds_nonempty := by decide
  endpoints_known := by simp [Constraint.ofTuples]
  links_eq := rfl

/-- The row is simple, and a fresh session of it is left with its greatest consistent family. -/
theorem rising_leaves_greatest_family :
    (rising.Simple ∧ (∅ : ArcQueue).Idle ∧
      (Session.start rising).domains.size = rising.size ∧ (Session.start rising).Nonempty rising) ∧
    IsGreatest {F | rising.ConsistentFamily (Session.start rising) F}
      (rising.greatestFamily (Session.start rising)) ∧
    ∃ result, establish? rising .symmetric ∅ (Session.start rising) = some result ∧
      (result.consistent = true ↔
        ∀ x < rising.size, (rising.greatestFamily (Session.start rising) x).Nonempty) ∧
      (result.consistent = true → ∀ x v,
        v ∈ result.session.dom x ↔ v ∈ rising.greatestFamily (Session.start rising) x) :=
  have hsimple : rising.Simple := by
    unfold Network.Simple
    decide
  have hstart := coherent_start rising
  ⟨⟨hsimple, ArcQueue.idle_empty, hstart.size_domains, hstart.nonempty⟩,
    establish_leaves_greatest_family hsimple ArcQueue.idle_empty hstart.size_domains
      hstart.nonempty⟩

end ArcConsistency

end ConstraintNet
