/-
  ConstraintNet.Proofs.Decision
  ─────────────────────────────
  **DECISIONS AND THEIR WITHDRAWAL.**

  A search decides in two ways: a variable has a value (`assign?`), or it
  does not (`removeValue?`).  On the functions that a session admits, the
  two split every set of possibilities:

      `admits_assign_iff`  — those that give the variable the value
      `admits_remove_iff`  — those that do not

  A decision is withdrawn by steps that undo it one part at a time.  Between
  these, a session is only `Unwound`: its decisions and checkpoints are as
  they were, and its domains need not be.  When they are, too, it is
  `Rewound`.
-/
import ConstraintNet.Proofs.Narrowing

namespace ConstraintNet

namespace Session

variable {net : Network} {s s' s'' between restored session : Session} {x : VariableId} {v : Value}

/-! ## §1. Sessions that are as they were. -/

/-- The decisions and the checkpoints of `s'` are those of `s`. -/
structure Unwound (s s' : Session) : Prop where
  assignment_eq : s'.assignment = s.assignment
  checkpoints_eq : s'.checkpoints = s.checkpoints

/-- The domains, the decisions and the checkpoints of `s'` are those of `s`. -/
structure Rewound (s s' : Session) : Prop extends s.Unwound s' where
  domains_eq : s'.domains = s.domains

/-- Decisions and checkpoints that are unchanged in two steps are unchanged in both together. -/
theorem Unwound.trans (h : s.Unwound s') (h' : s'.Unwound s'') : s.Unwound s'' :=
  ⟨h'.assignment_eq.trans h.assignment_eq, h'.checkpoints_eq.trans h.checkpoints_eq⟩

/-- So are domains, decisions and checkpoints. -/
theorem Rewound.trans (h : s.Rewound s') (h' : s'.Rewound s'') : s.Rewound s'' :=
  ⟨h.toUnwound.trans h'.toUnwound, h'.domains_eq.trans h.domains_eq⟩

/-- Of two such sessions either one is as the other was. -/
theorem Rewound.symm (h : s.Rewound s') : s'.Rewound s :=
  ⟨⟨h.assignment_eq.symm, h.checkpoints_eq.symm⟩, h.domains_eq.symm⟩

/-- Counters are no part of what is rewound. -/
theorem rewound_withStats (s : Session) (stats : Statistics) : s.Rewound (s.withStats stats) :=
  ⟨⟨rfl, rfl⟩, rfl⟩

/-- Propagation touches neither decisions nor checkpoints. -/
theorem Narrows.unwound (h : s.Narrows s') : s.Unwound s' :=
  ⟨h.assignment_eq, h.checkpoints_eq⟩

/-- Rewound sessions admit the same functions, since only domains restrict them. -/
theorem Rewound.admits_iff (h : s.Rewound s') (f : VariableId → Value) :
    s'.Admits net f ↔ s.Admits net f := by
  unfold Admits
  simp only [dom_congr h.domains_eq]

/-- Equal domains have equally many values together. -/
theorem totalSize_congr (h : s'.domains = s.domains) : s'.totalSize = s.totalSize := by
  unfold totalSize
  rw [h]

/-- Nothing is left of an entry of an array that was overwritten and put back. -/
theorem setIfInBounds_setIfInBounds_self {α : Type} {xs : Array α} {old : α} (new : α)
    (h : xs[x]? = some old) : (xs.setIfInBounds x new).setIfInBounds x old = xs := by
  rw [Array.setIfInBounds_setIfInBounds]
  apply Array.ext_getElem?
  intro y
  by_cases hy : x = y
  · subst hy
    rw [Array.getElem?_setIfInBounds_self, if_pos (Array.getElem?_eq_some_iff.1 h).1, h]
  · rw [Array.getElem?_setIfInBounds_ne hy]

/-! ## §2. Checkpoints. -/

/-- Where a checkpoint is on the stack, it can be restored. -/
theorem exists_restore? {domains : Array Domain} {rest : List (Array Domain)}
    (h : s.checkpoints = domains :: rest) : ∃ restored, s.restore? = some restored := by
  unfold restore?
  split
  next hnil =>
    rw [hnil] at h
    cases h
  next => exact ⟨_, rfl⟩

/-- A return to a checkpoint gives back its domains and changes nothing else. -/
theorem of_restore? {domains : Array Domain} {rest : List (Array Domain)}
    (hcheckpoints : s.checkpoints = domains :: rest) (h : s.restore? = some restored) :
    restored.domains = domains ∧ restored.checkpoints = rest ∧
      restored.assignment = s.assignment ∧ restored.solution = s.solution := by
  unfold restore? at h
  split at h
  next => cases h
  next hcons =>
    obtain rfl := Option.some.inj h
    rw [hcons] at hcheckpoints
    obtain ⟨hdomains, hrest⟩ := List.cons.inj hcheckpoints
    exact ⟨hdomains, hrest, rfl, rfl⟩

/-- What happens between a checkpoint and the return to it leaves no trace. -/
theorem rewound_of_restore? (h : s.checkpoint.Unwound between)
    (hrestore : between.restore? = some restored) :
    s.Rewound restored ∧ restored.solution = between.solution := by
  obtain ⟨hdomains, hrest, hassignment, hsolution⟩ := of_restore? h.checkpoints_eq hrestore
  exact ⟨⟨⟨hassignment.trans h.assignment_eq, hrest⟩, hdomains⟩, hsolution⟩

/-! ## §3. The decision that a variable has a value. -/

/-- A decision after a new checkpoint, field by field. -/
structure Decided (s : Session) (x : VariableId) (v : Value) (s' : Session) : Prop where
  lt_size : x < s.domains.size ∧ x < s.assignment.size
  dom_self : s'.dom x = Domain.singleton v
  dom_other : ∀ y, y ≠ x → s'.dom y = s.dom y
  size_eq : s'.domains.size = s.domains.size
  domains_eq : s'.domains = s.domains.setIfInBounds x (Domain.singleton v)
  assignment_eq : s'.assignment = s.assignment.setIfInBounds x (some v)
  checkpoints_eq : s'.checkpoints = s.domains :: s.checkpoints
  solution_eq : s'.solution = s.solution

/-- A variable that the session has can be decided. -/
theorem exists_assign? (v : Value) (hx : x < s.domains.size) (hx' : x < s.assignment.size) :
    ∃ s', s.checkpoint.assign? x v = some s' :=
  ⟨_, if_pos ⟨hx, hx'⟩⟩

/-- After a checkpoint, to assign a value is to decide for it. -/
theorem decided_of_assign? (h : s.checkpoint.assign? x v = some s') : s.Decided x v s' := by
  unfold assign? at h
  split at h
  next hx =>
    obtain rfl := Option.some.inj h
    exact ⟨hx, dom_setDomain_self (s := s) _ hx.1, fun _ hy => dom_setDomain_of_ne (s := s) _ hy,
      size_setDomain s x _, rfl, rfl, rfl, rfl⟩
  next => cases h

/-- A decision has its own checkpoint. -/
theorem Decided.length_checkpoints (h : s.Decided x v s') :
    s'.checkpoints.length = s.checkpoints.length + 1 :=
  congrArg List.length h.checkpoints_eq

/-- A decision for a value that is still possible takes possibilities away and adds none. -/
theorem Decided.subset (h : s.Decided x v s') (hv : v ∈ s.dom x) :
    ∀ y w, w ∈ s'.dom y → w ∈ s.dom y := by
  intro y w hw
  by_cases hy : y = x
  · rw [hy, h.dom_self, Domain.mem_singleton] at hw
    rw [hy, hw]
    exact hv
  · rwa [h.dom_other y hy] at hw

/-- **Decided for a value**, a session admits what it admitted before, as far as that gives the
variable this value. -/
theorem admits_assign_iff (h : s.Decided x v s') (hx : x < net.size) (hv : v ∈ s.dom x)
    (f : VariableId → Value) :
    s'.Admits net f ↔ s.Admits net f ∧ f x = v := by
  constructor
  · intro hf
    refine ⟨⟨hf.1, fun y hy => h.subset hv y _ (hf.2 y hy)⟩, ?_⟩
    have hfx := hf.2 x hx
    rwa [h.dom_self, Domain.mem_singleton] at hfx
  · intro hf
    obtain ⟨⟨hsolves, hdom⟩, hfx⟩ := hf
    refine ⟨hsolves, ?_⟩
    intro y hy
    by_cases hyx : y = x
    · rw [hyx, h.dom_self, Domain.mem_singleton]
      exact hfx
    · rw [h.dom_other y hyx]
      exact hdom y hy

/-- The decision for a variable that the session has can be withdrawn. -/
theorem exists_unassign? (hx : x < s.assignment.size) : ∃ s', s.unassign? x = some s' :=
  ⟨_, if_pos hx⟩

/-- **A withdrawn decision leaves no trace**: the domains return to the checkpoint, and the value of
the variable is open again. -/
theorem Decided.rewound (h : s.Decided x v s') (hopen : s.assignment[x]? = some none)
    (hbetween : s'.Unwound between) (hrestore : between.restore? = some restored)
    (hunassign : restored.unassign? x = some session) :
    s.Rewound session ∧ session.solution = between.solution := by
  obtain ⟨hdomains, hrest, hassignment, hsolution⟩ :=
    of_restore? (hbetween.checkpoints_eq.trans h.checkpoints_eq) hrestore
  unfold unassign? at hunassign
  split at hunassign
  next =>
    obtain rfl := Option.some.inj hunassign
    refine ⟨⟨⟨?_, hrest⟩, hdomains⟩, hsolution⟩
    show restored.assignment.setIfInBounds x none = s.assignment
    rw [hassignment, hbetween.assignment_eq, h.assignment_eq]
    exact setIfInBounds_setIfInBounds_self (some v) hopen
  next => cases hunassign

/-! ## §4. The decision that a variable does not have a value. -/

/-- The session without one value of one variable, field by field. -/
structure Excluded (s : Session) (x : VariableId) (v : Value) (s' : Session) : Prop where
  lt_size : x < s.domains.size
  domains_eq : s'.domains = s.domains.setIfInBounds x ((s.dom x).erase v)
  mem_self : ∀ w, w ∈ s'.dom x ↔ w ∈ s.dom x ∧ w ≠ v
  dom_other : ∀ y, y ≠ x → s'.dom y = s.dom y
  unwound : s.Unwound s'
  solution_eq : s'.solution = s.solution

/-- A value can be taken from every domain that the session has, whether it is there or not. -/
theorem exists_removeValue? (v : Value) (hx : x < s.domains.size) :
    ∃ removed s', s.removeValue? x v = some (removed, s') := by
  unfold removeValue?
  rw [domain?_eq_some hx]
  exact ⟨_, _, rfl⟩

/-- To remove a value is to decide against it. -/
theorem excluded_of_removeValue? {removed : Bool}
    (h : s.removeValue? x v = some (removed, s')) : s.Excluded x v s' := by
  unfold removeValue? at h
  split at h
  next => cases h
  next domain hdomain =>
    have hx : x < s.domains.size := (Array.getElem?_eq_some_iff.1 hdomain).1
    obtain rfl := dom_of_domain? hdomain
    simp only [Option.some.injEq, Prod.mk.injEq] at h
    obtain ⟨_, rfl⟩ := h
    refine ⟨hx, rfl, ?_, fun _ hy => dom_setDomain_of_ne _ hy, ⟨rfl, rfl⟩, rfl⟩
    intro w
    rw [dom_setDomain_self _ hx, Domain.mem_erase, and_comm]

/-- So has the search without the value. -/
theorem Excluded.length_checkpoints (h : s.Excluded x v s') :
    s'.checkpoint.checkpoints.length = s.checkpoints.length + 1 :=
  congrArg (List.length · + 1) h.unwound.checkpoints_eq

/-- A decision against a value takes possibilities away and adds none. -/
theorem Excluded.subset (h : s.Excluded x v s') : ∀ y w, w ∈ s'.dom y → w ∈ s.dom y := by
  intro y w hw
  by_cases hy : y = x
  · subst hy
    exact ((h.mem_self w).1 hw).1
  · rwa [h.dom_other y hy] at hw

theorem Excluded.size_eq (h : s.Excluded x v s') : s'.domains.size = s.domains.size := by
  rw [h.domains_eq]
  exact Array.size_setIfInBounds

/-- The value is no longer possible. -/
theorem Excluded.not_mem_self (h : s.Excluded x v s') : v ∉ s'.dom x :=
  fun hv => ((h.mem_self v).1 hv).2 rfl

/-- **Decided against a value**, a session admits what it admitted before, as far as that gives the
variable another value. -/
theorem admits_remove_iff (h : s.Excluded x v s') (hx : x < net.size) (f : VariableId → Value) :
    s'.Admits net f ↔ s.Admits net f ∧ f x ≠ v := by
  constructor
  · intro hf
    exact ⟨⟨hf.1, fun y hy => h.subset y _ (hf.2 y hy)⟩, ((h.mem_self _).1 (hf.2 x hx)).2⟩
  · intro hf
    obtain ⟨⟨hsolves, hdom⟩, hfx⟩ := hf
    refine ⟨hsolves, ?_⟩
    intro y hy
    by_cases hyx : y = x
    · subst hyx
      exact (h.mem_self _).2 ⟨hdom y hy, hfx⟩
    · rw [h.dom_other y hyx]
      exact hdom y hy

/-- A value can be put back into every domain that the session has. -/
theorem exists_insertValue? (v : Value) (hx : x < s.domains.size) :
    ∃ inserted s', s.insertValue? x v = some (inserted, s') := by
  unfold insertValue?
  rw [domain?_eq_some hx]
  exact ⟨_, _, rfl⟩

/-- **A value that comes back leaves no trace of its absence.** -/
theorem Excluded.rewound {inserted : Bool} (h : s.Excluded x v s') (hv : v ∈ s.dom x)
    (hbetween : s'.Rewound between)
    (hinsert : between.insertValue? x v = some (inserted, session)) :
    s.Rewound session ∧ session.solution = between.solution := by
  unfold insertValue? at hinsert
  split at hinsert
  next => cases hinsert
  next domain hdomain =>
    simp only [Option.some.injEq, Prod.mk.injEq] at hinsert
    obtain ⟨_, rfl⟩ := hinsert
    refine ⟨⟨h.unwound.trans ⟨hbetween.assignment_eq, hbetween.checkpoints_eq⟩, ?_⟩, rfl⟩
    have hself : domain.insert v = s.dom x := by
      rw [← dom_of_domain? hdomain, dom_congr hbetween.domains_eq]
      refine Domain.ext fun w => ?_
      rw [Domain.mem_insert, h.mem_self]
      by_cases hw : w = v
      · simp [hw, hv]
      · simp [hw]
    show between.domains.setIfInBounds x (domain.insert v) = s.domains
    rw [hbetween.domains_eq, h.domains_eq, hself]
    exact setIfInBounds_setIfInBounds_self _ (domain?_eq_some h.lt_size)

end Session

/-! ## §5. Decisions and domains. -/

/-- The domains `E` have come from `D` by taking values of `x` away. -/
structure NarrowedAt (x : VariableId) (D E : VariableId → Domain) : Prop where
  subset : ∀ v, v ∈ E x → v ∈ D x
  other : ∀ y, y ≠ x → E y = D y

/-- A decision for a value narrows the domain of its own variable only. -/
theorem Session.Decided.narrowedAt {s s' : Session} {x : VariableId} {v : Value}
    (h : s.Decided x v s') (hv : v ∈ s.dom x) : NarrowedAt x s.dom s'.dom :=
  ⟨h.subset hv x, h.dom_other⟩

/-- So does a decision against one. -/
theorem Session.Excluded.narrowedAt {s s' : Session} {x : VariableId} {v : Value}
    (h : s.Excluded x v s') : NarrowedAt x s.dom s'.dom :=
  ⟨h.subset x, h.dom_other⟩

end ConstraintNet
