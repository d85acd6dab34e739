/-
  ConstraintNet.Proofs.Alike
  ──────────────────────────
  **NETWORKS THAT ASK THE SAME.**

  Which values a network allows together does not depend on the order of its
  constraints, nor on which end of a constraint is called the first.  Two
  networks are `Alike` when they have the same ranges and each constraint of
  one has a counterpart in the other that binds the same variables and
  allows the same pairs.  Everything that propagation is about is the same
  in the two: support, adjacency, concordance, consistent families.

  A network made from another list of its constraints, with some of them
  turned round, is alike:

      `Relisted`                — lists that differ in order and direction
      `Relisted.exists_build?`  — such a list makes a network, too, and the
                                  two networks are alike
-/
import Mathlib.Data.List.Forall2
import ConstraintNet.Proofs.GreatestFamily

namespace ConstraintNet

/-! ## §1. Constraints. -/

namespace Constraint

/-- The constraint with its ends exchanged, and the values in each of its pairs. -/
def transposed (c : Constraint) : Constraint :=
  ofTuples c.second c.first (c.tuples.map Prod.swap)

/-- A list of pairs makes the same constraint, turned round, whether its pairs are exchanged before
repetitions are dropped or after. -/
theorem transposed_ofTuples (x y : VariableId) (pairs : List (Value × Value)) :
    (ofTuples x y pairs).transposed = ofTuples y x (pairs.map Prod.swap) := by
  have htable : SupportTable.ofList ((SupportTable.ofList pairs).tuples.toList.map Prod.swap) =
      SupportTable.ofList (pairs.map Prod.swap) := by
    rw [← SupportTable.ofList_tuples (pairs.map Prod.swap)]
    refine congrArg SupportTable.ofList ?_
    exact (Grouping.distinct_map Prod.swap_injective pairs).symm
  simp only [transposed, tuples, ofTuples, mk.injEq, true_and]
  exact htable

/-- The two constraints bind the same variables and allow the same pairs of values. -/
structure Alike (c d : Constraint) : Prop where
  joins_iff : ∀ x y, d.Joins x y ↔ c.Joins x y
  allows_iff : ∀ x y, c.Joins x y → ∀ a b, d.allows x a b = true ↔ c.allows x a b = true

/-- A constraint is alike itself. -/
theorem Alike.refl (c : Constraint) : c.Alike c := ⟨fun _ _ => Iff.rfl, fun _ _ _ _ _ => Iff.rfl⟩

/-- Either of two constraints may be called the counterpart of the other. -/
theorem Alike.symm {c d : Constraint} (h : c.Alike d) : d.Alike c where
  joins_iff x y := (h.joins_iff x y).symm
  allows_iff x y hjoins a b := (h.allows_iff x y ((h.joins_iff x y).1 hjoins) a b).symm

/-- Turned round, a constraint lists its pairs turned round. -/
theorem mem_tuples_transposed (c : Constraint) (a b : Value) :
    (b, a) ∈ c.transposed.tuples ↔ (a, b) ∈ c.tuples := by
  unfold transposed
  rw [mem_tuples_ofTuples]
  exact List.mem_map_swap a b c.tuples

/-- A constraint that is turned round asks the same. -/
theorem alike_transposed {c : Constraint} (hc : c.first ≠ c.second) : c.Alike c.transposed := by
  refine ⟨fun x y => or_comm, ?_⟩
  rintro x y (⟨rfl, rfl⟩ | ⟨rfl, rfl⟩) a b
  · rw [allows_first, ← mem_tuples_transposed]
    exact c.transposed.allows_second hc.symm b a
  · rw [allows_second c hc, ← mem_tuples_transposed]
    exact c.transposed.allows_first a b

end Constraint

/-! ## §2. Networks. -/

namespace Network

/-- The two networks have the same ranges, and for each constraint of either there is one in the
other that asks the same. -/
structure Alike (net net' : Network) : Prop where
  bounds_eq : net'.bounds = net.bounds
  forth : ∀ c ∈ net.constraints.toList, ∃ d ∈ net'.constraints.toList, c.Alike d
  back : ∀ d ∈ net'.constraints.toList, ∃ c ∈ net.constraints.toList, d.Alike c

namespace Alike

variable {net net' : Network} {x y : VariableId}

/-- A network is alike itself. -/
theorem refl (net : Network) : net.Alike net :=
  ⟨rfl, fun c hc => ⟨c, hc, .refl c⟩, fun c hc => ⟨c, hc, .refl c⟩⟩

theorem symm (h : net.Alike net') : net'.Alike net := ⟨h.bounds_eq.symm, h.back, h.forth⟩

/-- Networks that are alike have the same number of variables. -/
theorem size_eq (h : net.Alike net') : net'.size = net.size := congrArg Array.size h.bounds_eq

/-- What is adjacent in one is adjacent in the other. -/
theorem adjacent (h : net.Alike net') (hadjacent : net.Adjacent x y) : net'.Adjacent x y := by
  obtain ⟨c, hc, hjoins⟩ := hadjacent
  obtain ⟨d, hd, hcd⟩ := h.forth c hc
  exact ⟨d, hd, (hcd.joins_iff x y).2 hjoins⟩

/-- Variables share no constraint in one when they share none in the other. -/
theorem shared_eq_nil_iff (h : net.Alike net') :
    net'.sharedConstraints x y = [] ↔ net.sharedConstraints x y = [] := by
  rw [net'.sharedConstraints_eq_nil_iff, net.sharedConstraints_eq_nil_iff]
  exact not_congr ⟨h.symm.adjacent, h.adjacent⟩

/-- A value that every shared constraint supports in one network is so supported in the other. -/
theorem supported (h : net.Alike net') {a : Value} {candidates : Domain}
    (hsupported : net.Supported x y a candidates) : net'.Supported x y a candidates := by
  intro d hd hjoins
  obtain ⟨c, hc, hdc⟩ := h.back d hd
  have hjoins' := (hdc.joins_iff x y).2 hjoins
  obtain ⟨b, hb, hallows⟩ := hsupported c hc hjoins'
  exact ⟨b, hb, (hdc.allows_iff x y hjoins a b).1 hallows⟩

/-- So support is the same in both. -/
theorem supported_iff (h : net.Alike net') {a : Value} {candidates : Domain} :
    net'.Supported x y a candidates ↔ net.Supported x y a candidates :=
  ⟨h.symm.supported, h.supported⟩

/-- The same revision of the same domains leaves the same. -/
theorem domains_eq_of_revised (h : net.Alike net') {s s' t t' : Session} {arc : Arc}
    (hdomains : s'.domains = s.domains) (ht : Revised net s arc t) (ht' : Revised net' s' arc t') :
    t'.domains = t.domains := by
  have hdom := Session.dom_congr hdomains
  refine Session.domains_ext ?_ fun x => ?_
  · rw [ht.narrows.size_eq, ht'.narrows.size_eq, hdomains]
  · by_cases hx : x = arc.target
    · rw [hx]
      refine Domain.ext fun v => ?_
      rw [ht.mem_target, ht'.mem_target, h.supported_iff, hdom, hdom]
    · rw [ht.others x hx, ht'.others x hx, hdom]

/-- Constraints that agree in one agree in the other. -/
theorem concordant (h : net.Alike net') (hconcordant : net.Concordant x y) :
    net'.Concordant x y := by
  intro d hd e he hdxy hexy a b hallows
  obtain ⟨c, hc, hdc⟩ := h.back d hd
  obtain ⟨f, hf, hef⟩ := h.back e he
  have hcxy := (hdc.joins_iff x y).2 hdxy
  have hfxy := (hef.joins_iff x y).2 hexy
  exact (hef.allows_iff x y hexy a b).1
    (hconcordant c hc f hf hcxy hfxy a b ((hdc.allows_iff x y hdxy a b).2 hallows))

/-- A family that is consistent in one is consistent in the other. -/
theorem consistentFamily (h : net.Alike net') {s s' : Session} (hdom : ∀ x, s'.dom x = s.dom x)
    {F : VariableId → Set Value} (hF : net.ConsistentFamily s F) :
    net'.ConsistentFamily s' F := by
  refine ⟨?_, ?_⟩
  · intro x v hv
    rw [hdom]
    exact hF.subset_dom x v hv
  · intro d hd x y hjoins a ha
    obtain ⟨c, hc, hdc⟩ := h.back d hd
    have hjoins' := (hdc.joins_iff x y).2 hjoins
    obtain ⟨b, hb, hallows⟩ := hF.supported c hc x y hjoins' a ha
    exact ⟨b, hb, (hdc.allows_iff x y hjoins a b).1 hallows⟩

/-- The two networks start their searches with the same domains. -/
theorem start_domains_eq (h : net.Alike net') :
    (Session.start net').domains = (Session.start net).domains :=
  congrArg (Array.map Bounds.domain) h.bounds_eq

end Alike

end Network

/-! ## §3. Lists of constraints. -/

/-- The second list has the constraints of the first in some order, each as it was or turned
round. -/
def Relisted (listed listed' : List Constraint) : Prop :=
  ∃ order, listed.Perm order ∧ List.Forall₂ (fun c d => d = c ∨ d = c.transposed) order listed'

/-- In lists that are related member by member, each member of one has its counterpart in the
other. -/
theorem exists_counterpart {α β : Type} {R : α → β → Prop} {l : List α} {l' : List β}
    (h : List.Forall₂ R l l') {a : α} (ha : a ∈ l) : ∃ b ∈ l', R a b := by
  induction h with
  | nil => cases ha
  | @cons head head' _ _ hhead _ ih =>
    rcases List.mem_cons.1 ha with rfl | htail
    · exact ⟨head', List.mem_cons_self, hhead⟩
    · obtain ⟨b, hb, hab⟩ := ih htail
      exact ⟨b, List.mem_cons_of_mem head' hb, hab⟩

namespace Relisted

variable {listed listed' : List Constraint} {net : Network} {c d : Constraint}

/-- Every constraint of the first list is in the second one, as it was or turned round. -/
theorem forth (h : Relisted listed listed') (hc : c ∈ listed) :
    ∃ d ∈ listed', d = c ∨ d = c.transposed := by
  obtain ⟨order, hperm, hturned⟩ := h
  exact exists_counterpart hturned (hperm.mem_iff.1 hc)

/-- Every constraint of the second list comes from one of the first, as it is or turned round. -/
theorem back (h : Relisted listed listed') (hd : d ∈ listed') :
    ∃ c ∈ listed, d = c ∨ d = c.transposed := by
  obtain ⟨order, hperm, hturned⟩ := h
  obtain ⟨c, hc, hcd⟩ := exists_counterpart hturned.flip hd
  exact ⟨c, hperm.mem_iff.2 hc, hcd⟩

/-- A constraint that is listed anew asks the same. -/
theorem alike_of_turned (hc : c.first ≠ c.second) (h : d = c ∨ d = c.transposed) : c.Alike d := by
  rcases h with rfl | rfl
  · exact .refl d
  · exact Constraint.alike_transposed hc

/-- **A network whose constraints are listed anew** is a network again, and asks the same. -/
theorem exists_build? (h : Relisted net.constraints.toList listed') :
    ∃ net', Network.build? net.bounds.toList listed' = .ok net' ∧ net.Alike net' := by
  have hknown : ∀ d ∈ listed'.toArray.toList,
      d.first < net.bounds.size ∧ d.second < net.bounds.size ∧ d.first ≠ d.second := by
    intro d hd
    obtain ⟨c, hc, rfl | rfl⟩ := h.back hd
    · exact net.endpoints_known d hc
    · obtain ⟨hfirst, hsecond, hne⟩ := net.endpoints_known c hc
      exact ⟨hsecond, hfirst, hne.symm⟩
  -- ends may be exchanged, but the two of a constraint stay known and different
  let net' : Network :=
    { bounds := net.bounds
      constraints := listed'.toArray
      links := linksOf net.bounds.size listed'
      bounds_nonempty := net.bounds_nonempty
      endpoints_known := hknown
      links_eq := rfl }
  refine ⟨net', net'.build?_eq_ok, rfl, ?_, ?_⟩
  · intro c hc
    obtain ⟨d, hd, hcd⟩ := h.forth hc
    exact ⟨d, hd, alike_of_turned (net.ends_ne hc) hcd⟩
  · intro d hd
    obtain ⟨c, hc, hcd⟩ := h.back hd
    exact ⟨c, hc, (alike_of_turned (net.ends_ne hc) hcd).symm⟩

end Relisted

end ConstraintNet
