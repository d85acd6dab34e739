/-
  ConstraintNet.Proofs.IncrementalPropagation
  ───────────────────────────────────────────
  **AFTER A CHANGE OF ONE VARIABLE, ITS OWN ARCS ARE ENOUGH.**

  When domains that were arc consistent lose values of one variable, only the
  arcs between it and its neighbours can have lost a support.  Propagation
  lets no others wait, and full arc consistency lets all of them wait; the
  two queues differ, and so do the revisions that follow.  Both maintain arc
  consistency (`maintains_propagate?`, `maintains_establish?`), so they are
  confluent.

  Main result: `propagate_agrees_with_establish`, for networks in which no
  two constraints bind the same variables.
-/
import ConstraintNet.Proofs.Confluence

namespace ConstraintNet

/-! ## §1. Sessions that lose values of one variable. -/

namespace Session

variable {net : Network} {s : Session} {x : VariableId} {part : Domain}

theorem narrowedAt_setDomain (hx : x < s.domains.size) (hpart : ∀ v, v ∈ part → v ∈ s.dom x) :
    NarrowedAt x s.dom (s.setDomain x part).dom := by
  refine ⟨?_, ?_⟩
  · intro v hv
    rw [dom_setDomain_self part hx] at hv
    exact hpart v hv
  · intro y hy
    exact dom_setDomain_of_ne part hy

theorem nonempty_setDomain (hx : x < s.domains.size) (hsome : ∃ v, v ∈ part)
    (hnonempty : s.Nonempty net) : (s.setDomain x part).Nonempty net := by
  intro y hy
  by_cases h : y = x
  · rw [h, dom_setDomain_self part hx]
    exact hsome
  · rw [dom_setDomain_of_ne part h]
    exact hnonempty y hy

end Session

/-! ## §2. The two propagations. -/

namespace ArcConsistency

variable {net : Network} {queue queue' : ArcQueue} {s : Session}

/-- **Propagation after a change does what full arc consistency would do.** No two constraints of
the network bind the same variables, no domain of the session is empty, and all are arc consistent;
then `changed` keeps a part of its values, which is not empty. From idle queues, the symmetric
propagation of the change gives the verdict of the full symmetric propagation, and if this is that
every domain has a value, the two leave the same domains. -/
theorem propagate_agrees_with_establish (hsimple : net.Simple) (hqueue : queue.Idle)
    (hqueue' : queue'.Idle) (hsize : s.domains.size = net.size) (hnonempty : s.Nonempty net)
    (hconsistent : net.ArcConsistent s) {changed : VariableId} (hchanged : changed < net.size)
    {part : Domain} (hpart : ∀ v, v ∈ part → v ∈ s.dom changed) (hsome : ∃ v, v ∈ part) :
    ∃ near full,
      propagate? net .symmetric queue (s.setDomain changed part) changed = some near ∧
      establish? net .symmetric queue' (s.setDomain changed part) = some full ∧
      near.consistent = full.consistent ∧
      (near.consistent = true → near.session.domains = full.session.domains) := by
  have hx : changed < s.domains.size := hsize ▸ hchanged
  have hsize' : (s.setDomain changed part).domains.size = net.size :=
    (Session.size_setDomain s changed part).trans hsize
  have hnonempty' := Session.nonempty_setDomain hx hsome hnonempty
  obtain ⟨near, hnear, _⟩ := exists_propagate? net .symmetric hqueue hsize' hchanged
  obtain ⟨full, hfull, _⟩ := exists_establish? net .symmetric hqueue' hsize'
  have hmaintains : Maintains net (s.setDomain changed part) near :=
    maintains_propagate? hsimple.concordant hqueue hsize' hchanged hconsistent.allSupported
      (Session.narrowedAt_setDomain hx hpart) hnonempty' hnear
  have hmaintains' : Maintains net (s.setDomain changed part) full :=
    maintains_establish? hsimple.concordant hqueue' hsize' hfull
  obtain ⟨hverdict, hdomains⟩ :=
    hmaintains'.confluent hmaintains (.refl net) rfl hnonempty'
  refine ⟨near, full, hnear, hfull, hverdict, ?_⟩
  intro htrue
  exact hdomains (hverdict ▸ htrue)

/-- Three variables in a row with the values 0 to 2, each equal to the next; the second constraint
is stored against the row. -/
def level : Network where
  bounds := #[⟨0, 2⟩, ⟨0, 2⟩, ⟨0, 2⟩]
  constraints := #[.ofTuples 0 1 [(0, 0), (1, 1), (2, 2)], .ofTuples 2 1 [(0, 0), (1, 1), (2, 2)]]
  links := linksOf 3
    [.ofTuples 0 1 [(0, 0), (1, 1), (2, 2)], .ofTuples 2 1 [(0, 0), (1, 1), (2, 2)]]
  bounds_nonempty := by decide
  endpoints_known := by decide
  links_eq := rfl

theorem mem_dom_start_level {x : VariableId} (hx : x < level.size) (v : Value) :
    v ∈ (Session.start level).dom x ↔ v ∈ ([0, 1, 2] : List Value) := by
  have hbounds : ∀ x < level.size, level.bounds[x]? = some ⟨0, 2⟩ := by decide
  have hrange : Value.range 0 2 = [0, 1, 2] := by decide
  rw [level.mem_dom_start (hbounds x hx), ← hrange, Value.mem_range]

/-- Every value goes with itself, so the whole ranges are arc consistent. -/
theorem arcConsistent_level : level.ArcConsistent (Session.start level) := by
  intro c hc x y hjoins a ha
  have hends := level.ends_ne hc
  have ha' := (mem_dom_start_level (level.lt_size_of_joins hc hjoins) a).1 ha
  have hequal : (a, a) ∈ c.tuples := by
    have hpairs : (a, a) ∈ ([(0, 0), (1, 1), (2, 2)] : List (Value × Value)) := by
      simpa using ha'
    have hlisted : c = .ofTuples 0 1 [(0, 0), (1, 1), (2, 2)] ∨
        c = .ofTuples 2 1 [(0, 0), (1, 1), (2, 2)] := by
      simpa [level] using hc
    rcases hlisted with rfl | rfl
    · exact (Constraint.mem_tuples_ofTuples _ _ _ _).2 hpairs
    · exact (Constraint.mem_tuples_ofTuples _ _ _ _).2 hpairs
  -- every value is its own support at the other end
  refine ⟨a, (mem_dom_start_level (level.lt_size_of_joins hc hjoins.symm) a).2 ha', ?_⟩
  rcases hjoins with hforth | hback
  · rw [← hforth.1]
    exact (c.allows_first a a).2 hequal
  · rw [← hback.1]
    exact (c.allows_second hends a a).2 hequal

/-- The first variable of the row loses the value 1. -/
theorem level_agrees :
    (level.Simple ∧ (∅ : ArcQueue).Idle ∧ (Session.start level).domains.size = level.size ∧
      (Session.start level).Nonempty level ∧ level.ArcConsistent (Session.start level) ∧
      0 < level.size ∧ (∀ v, v ∈ Domain.ofList [0, 2] → v ∈ (Session.start level).dom 0) ∧
      ∃ v, v ∈ Domain.ofList [0, 2]) ∧
    ∃ near full,
      propagate? level .symmetric ∅ ((Session.start level).setDomain 0 (.ofList [0, 2])) 0 =
        some near ∧
      establish? level .symmetric ∅ ((Session.start level).setDomain 0 (.ofList [0, 2])) =
        some full ∧
      near.consistent = full.consistent ∧
      (near.consistent = true → near.session.domains = full.session.domains) := by
  have hsimple : level.Simple := by
    unfold Network.Simple
    decide
  have hstart := coherent_start level
  have hfirst : 0 < level.size := by decide
  have hpart : ∀ v, v ∈ Domain.ofList [0, 2] → v ∈ (Session.start level).dom 0 := by
    intro v hv
    rw [Domain.mem_ofList] at hv
    rw [mem_dom_start_level hfirst]
    simp only [List.mem_cons, List.not_mem_nil, or_false] at hv ⊢
    tauto
  have hsome : ∃ v, v ∈ Domain.ofList [0, 2] := ⟨0, Domain.mem_ofList.2 List.mem_cons_self⟩
  exact ⟨⟨hsimple, ArcQueue.idle_empty, hstart.size_domains, hstart.nonempty, arcConsistent_level,
      hfirst, hpart, hsome⟩,
    propagate_agrees_with_establish hsimple ArcQueue.idle_empty ArcQueue.idle_empty
      hstart.size_domains hstart.nonempty arcConsistent_level hfirst hpart hsome⟩

end ArcConsistency

end ConstraintNet
