/-
  ConstraintNet.Proofs.Puzzle.Draws
  ─────────────────────────────────
  **WHAT RANDOM DRAWS CAN LEAVE.**

  The draws of a random network only ever leave something out: a constraint
  keeps some of the candidate pairs, and the network some of the pairs of
  variables, both in their order.  That holds for every stream of words:

      sublist_drawPairs    — the allowed pairs of a constraint
      drawScope_cases      — what one pair of variables adds
      sublist_ends         — the ends of the constraints
      drawn_of_mem         — the constraints themselves
-/
import ConstraintNet.Proofs.Puzzle.Satisfaction
import ConstraintNet.Puzzle.RandomNetwork

namespace ConstraintNet.Puzzle

/-! ## §1. The draws for one constraint. -/

theorem drawPair_eq (tightness : Binary64) (kept : List (Value × Value)) (s : KeyStream)
    (pair : Value × Value) :
    drawPair tightness (kept, s) pair =
      (if (draw tightness s).1 then kept else pair :: kept, (draw tightness s).2) := rfl

theorem sublist_drawPair (tightness : Binary64) (kept : List (Value × Value)) (s : KeyStream)
    (pair : Value × Value) : (drawPair tightness (kept, s) pair).1.Sublist (pair :: kept) := by
  rw [drawPair_eq]
  split
  · exact List.sublist_cons_self pair kept
  · exact List.Sublist.refl (pair :: kept)

/-- By induction on the candidates: those that are kept are some of them, in reverse order. -/
theorem sublist_foldl_drawPair (tightness : Binary64) (candidates : List (Value × Value))
    (kept : List (Value × Value)) (s : KeyStream) :
    (candidates.foldl (drawPair tightness) (kept, s)).1.Sublist (candidates.reverse ++ kept) := by
  induction candidates generalizing kept s with
  | nil => exact List.Sublist.refl kept
  | cons pair rest ih =>
    rw [List.foldl_cons, List.reverse_cons, List.append_assoc]
    exact (ih _ _).trans ((sublist_drawPair tightness kept s pair).append_left rest.reverse)

/-- **A constraint allows some of the candidates**, in their order. -/
theorem sublist_drawPairs (tightness : Binary64) (candidates : List (Value × Value))
    (s : KeyStream) : (drawPairs tightness candidates s).1.Sublist candidates := by
  have h := (sublist_foldl_drawPair tightness candidates [] s).reverse
  rw [List.append_nil, List.reverse_reverse] at h
  exact h

/-- A constraint keeps the candidates that are left as they are: they stand row by row. -/
theorem tuples_of_candidates {domainSize : Value} {pairs : List (Value × Value)}
    (h : pairs.Sublist (candidatePairs domainSize)) (x y : VariableId) :
    (Constraint.ofTuples x y pairs).tuples = pairs ∧ pairs.Pairwise Constraint.RowMajor := by
  have hascending := Value.range_pairwise 0 (domainSize - 1)
  have hrows : pairs.Pairwise Constraint.RowMajor :=
    (Constraint.pairwise_pairsWhere hascending hascending fun _ _ => true).sublist h
  exact ⟨Constraint.tuples_ofTuples_of_rowMajor hrows, hrows⟩

/-! ## §2. The draws for all constraints. -/

/-- The variables that a constraint binds, in the order in which it names them. -/
def ends (c : Constraint) : Nat × Nat := (c.first, c.second)

/-- The constraint allows some of the pairs of values of variables with `domainSize` values. -/
def Drawn (domainSize : Value) (c : Constraint) : Prop :=
  ∃ pairs, pairs.Sublist (candidatePairs domainSize) ∧
    c = Constraint.ofTuples c.first c.second pairs

/-- It keeps those pairs as they are. -/
theorem Drawn.tuples {domainSize : Value} {c : Constraint} (h : Drawn domainSize c) :
    c.tuples.Sublist (candidatePairs domainSize) ∧ c.tuples.Pairwise Constraint.RowMajor := by
  obtain ⟨pairs, hpairs, hc⟩ := h
  obtain ⟨htuples, hrows⟩ := tuples_of_candidates hpairs c.first c.second
  rw [hc, htuples]
  exact ⟨hpairs, hrows⟩

theorem drawScope_eq (shape : RandomShape) (constraints : List Constraint) (s : KeyStream)
    (scope : Nat × Nat) :
    drawScope shape (constraints, s) scope =
      if (draw shape.density s).1 then
        (Constraint.ofTuples scope.1 scope.2 (drawPairs shape.tightness
            (candidatePairs shape.domainSize) (draw shape.density s).2).1 :: constraints,
          (drawPairs shape.tightness (candidatePairs shape.domainSize)
            (draw shape.density s).2).2)
      else (constraints, (draw shape.density s).2) := rfl

/-- One pair of variables more adds a constraint between the two, or nothing. -/
theorem drawScope_cases (shape : RandomShape) (constraints : List Constraint) (s : KeyStream)
    (scope : Nat × Nat) : ∃ s',
    drawScope shape (constraints, s) scope = (constraints, s') ∨
      ∃ c, ends c = scope ∧ Drawn shape.domainSize c ∧
        drawScope shape (constraints, s) scope = (c :: constraints, s') := by
  rw [drawScope_eq]
  split
  · refine ⟨_, Or.inr ⟨_, ?_, ?_, rfl⟩⟩
    · rfl
    · exact ⟨_, sublist_drawPairs shape.tightness _ _, rfl⟩
  · exact ⟨_, Or.inl rfl⟩

/-- By induction on the pairs of variables: constraints are drawn for some of them, and each was
drawn pair by pair. -/
theorem foldl_drawScope (shape : RandomShape) (scopes : List (Nat × Nat))
    (constraints : List Constraint) (s : KeyStream) :
    ((scopes.foldl (drawScope shape) (constraints, s)).1.map ends).Sublist
        (scopes.reverse ++ constraints.map ends) ∧
      ∀ c ∈ (scopes.foldl (drawScope shape) (constraints, s)).1,
        c ∈ constraints ∨ Drawn shape.domainSize c := by
  induction scopes generalizing constraints s with
  | nil => exact ⟨List.Sublist.refl _, fun c hc => Or.inl hc⟩
  | cons scope rest ih =>
    rw [List.foldl_cons, List.reverse_cons, List.append_assoc, List.singleton_append]
    obtain ⟨s', hnone | ⟨c, rfl, hc, hone⟩⟩ := drawScope_cases shape constraints s scope
    · rw [hnone]
      obtain ⟨hends, hdrawn⟩ := ih constraints s'
      exact ⟨hends.trans ((List.sublist_cons_self scope _).append_left rest.reverse), hdrawn⟩
    · rw [hone]
      obtain ⟨hends, hdrawn⟩ := ih (c :: constraints) s'
      refine ⟨hends, fun d hd => ?_⟩
      rcases hdrawn d hd with hmem | hd'
      · rcases List.mem_cons.1 hmem with rfl | hold
        · exact Or.inr hc
        · exact Or.inl hold
      · exact Or.inr hd'

/-- **Some of the pairs of variables are bound**, in their order. -/
theorem sublist_ends (shape : RandomShape) (scopes : List (Nat × Nat)) (s : KeyStream) :
    ((drawConstraints shape scopes s).map ends).Sublist scopes := by
  have h := (foldl_drawScope shape scopes [] s).1.reverse
  rw [List.map_nil, List.append_nil, List.reverse_reverse, ← List.map_reverse] at h
  exact h

/-- So every constraint was drawn. -/
theorem drawn_of_mem {shape : RandomShape} {scopes : List (Nat × Nat)} {s : KeyStream}
    {c : Constraint} (hc : c ∈ drawConstraints shape scopes s) : Drawn shape.domainSize c := by
  rcases (foldl_drawScope shape scopes [] s).2 c (List.mem_reverse.1 hc) with hmem | hdrawn
  · cases hmem
  · exact hdrawn

/-! ## §3. The network. -/

/-- The draws bind different variables of the network. -/
theorem fits_drawConstraints {shape : RandomShape} {n : Nat} {s : KeyStream} :
    ∀ c ∈ drawConstraints shape (pairsBelow n) s, c.Fits n := by
  intro c hc
  have hscope : ends c ∈ pairsBelow n :=
    (sublist_ends shape (pairsBelow n) s).subset (List.mem_map_of_mem hc)
  obtain ⟨hlt, hsecond⟩ := mem_pairsBelow.1 hscope
  exact ⟨Nat.lt_trans hlt hsecond, hsecond, Nat.ne_of_lt hlt⟩

/-- A variable has a value when there is one at all. -/
theorem zero_le_pred {domainSize : Value} (h : 1 ≤ domainSize) : 0 ≤ domainSize - 1 := by
  have hbounds := Value.toInt_bounds domainSize
  have hone : (1 : Value).toInt = 1 := rfl
  rw [Int32.le_iff_toInt_le, hone] at h
  rw [Int32.le_iff_toInt_le, Value.toInt_sub_of_fits (by omega) (by omega), hone]
  show (0 : Int) ≤ domainSize.toInt - 1
  omega

/-- A shape without a fault has values. -/
theorem RandomShape.one_le_of_fault? {shape : RandomShape} (h : shape.fault? = none) :
    1 ≤ shape.domainSize := by
  unfold RandomShape.fault? at h
  apply Int32.not_lt.1
  intro hsmall
  rw [if_pos hsmall] at h
  split at h
  · cases h
  · cases h

/-- **Draws always make a network** when the shape is sound, whatever their outcomes. -/
theorem exists_randomFrom {shape : RandomShape} (h : shape.fault? = none) (s : KeyStream) :
    ∃ net, randomFrom shape s = .ok net ∧
      net.bounds.toList = List.replicate shape.numVariables ⟨0, shape.domainSize - 1⟩ ∧
      net.constraints.toList = drawConstraints shape (pairsBelow shape.numVariables) s := by
  have hrange := zero_le_pred (RandomShape.one_le_of_fault? h)
  obtain ⟨net, hnet, hlists⟩ := exists_uniformNetwork hrange (fits_drawConstraints (s := s))
  refine ⟨net, ?_, hlists⟩
  unfold randomFrom
  rw [h]
  exact hnet

end ConstraintNet.Puzzle
