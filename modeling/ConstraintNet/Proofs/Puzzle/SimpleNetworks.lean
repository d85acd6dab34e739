/-
  ConstraintNet.Proofs.Puzzle.SimpleNetworks
  ──────────────────────────────────────────
  **THE NETWORKS OF ALL PUZZLES ARE SIMPLE.**

  Four loops list the constraints of four kinds of puzzles, and all of them
  go through the pairs of variables row by row: the pairs themselves for the
  queens, some of them for a grid and for random draws, block by block for
  the copies of Langford's numbers.  So one order covers them (`Listed`): each
  constraint names its smaller variable first, and a later one has later ends.
  From that, no two constraints bind the same two variables.

      listed_of_sublist      — some of the pairs of variables, in order
      listed_langford        — blocks and copies
      Listed.simple_within   — what follows when all variables have one range

  Main result: `puzzles_make_simple_networks`.
-/
import ConstraintNet.Proofs.ParallelConstraints
import ConstraintNet.Proofs.Puzzle.Draws
import ConstraintNet.Proofs.Puzzle.Langford
import ConstraintNet.Proofs.Puzzle.Queens
import ConstraintNet.Proofs.Puzzle.Sudoku

namespace ConstraintNet

/-! ## §1. Tuples within the ranges. -/

/-- Every allowed pair keeps to the ranges of the two variables. -/
def Network.TuplesInBounds (net : Network) : Prop :=
  ∀ c ∈ net.constraints.toList, ∀ pair ∈ c.tuples, ∃ b₁ b₂,
    net.bounds[c.first]? = some b₁ ∧ net.bounds[c.second]? = some b₂ ∧
      (b₁.lower ≤ pair.1 ∧ pair.1 ≤ b₁.upper) ∧ (b₂.lower ≤ pair.2 ∧ pair.2 ≤ b₂.upper)

/-- Where all ranges are one, the pairs only have to keep to that range. -/
theorem Network.tuplesInBounds_of_replicate {net : Network} {count : Nat} {lower upper : Value}
    (hbounds : net.bounds.toList = List.replicate count ⟨lower, upper⟩)
    (hfits : ∀ c ∈ net.constraints.toList, c.Fits count)
    (hpairs : ∀ c ∈ net.constraints.toList, ∀ a b, (a, b) ∈ c.tuples →
      (lower ≤ a ∧ a ≤ upper) ∧ (lower ≤ b ∧ b ≤ upper)) : net.TuplesInBounds := by
  have hrange {x : VariableId} (hx : x < count) : net.bounds[x]? = some ⟨lower, upper⟩ := by
    rw [← Array.getElem?_toList, hbounds]
    exact List.getElem?_replicate_of_lt hx
  intro c hc pair hpair
  obtain ⟨hfirst, hsecond, _⟩ := hfits c hc
  exact ⟨_, _, hrange hfirst, hrange hsecond, hpairs c hc pair.1 pair.2 hpair⟩

namespace Puzzle

/-! ## §2. Constraints that are listed row by row. -/

/-- The first pair of variables comes before the second one in a table that is read row by row. -/
def EndsBefore (p q : Nat × Nat) : Prop := p.1 < q.1 ∨ (p.1 = q.1 ∧ p.2 < q.2)

/-- Pairs that name their smaller variable first are not made of the same two. -/
theorem EndsBefore.not_same {a b a' b' : Nat} (h : EndsBefore (a, b) (a', b')) (hlt : a < b)
    (hlt' : a' < b') : ¬ ((a = a' ∧ b = b') ∨ (b = a' ∧ a = b')) := by
  have hbefore : a < a' ∨ (a = a' ∧ b < b') := h
  omega

/-- Each constraint names its smaller variable first, and a later one has later ends. -/
structure Listed (constraints : List Constraint) : Prop where
  first_lt_second : ∀ c ∈ constraints, c.first < c.second
  ascending : (constraints.map ends).Pairwise EndsBefore

/-- **No two of them bind the same two variables.** -/
theorem Listed.simple {net : Network} (h : Listed net.constraints.toList) : net.Simple := by
  refine (List.pairwise_map.1 h.ascending).imp_of_mem ?_
  intro c d hc hd hbefore
  exact hbefore.not_same (h.first_lt_second c hc) (h.first_lt_second d hd)

/-- The pairs of variables are listed row by row. -/
theorem pairwise_pairsBelow (n : Nat) : (pairsBelow n).Pairwise EndsBefore := by
  apply List.pairwise_flatMap.2
  constructor
  -- within a row the second variables ascend
  · intro first _
    apply List.pairwise_map.2
    exact (List.pairwise_lt_range' 1).imp fun hlt => Or.inr ⟨rfl, hlt⟩
  -- and a later row has a larger first variable
  · refine List.pairwise_lt_range.imp ?_
    intro first first' hlt p hp q hq
    obtain ⟨second, _, rfl⟩ := List.mem_map.1 hp
    obtain ⟨second', _, rfl⟩ := List.mem_map.1 hq
    exact Or.inl hlt

/-- Some of all pairs of variables, in their order. -/
theorem listed_of_sublist {n : Nat} {constraints : List Constraint}
    (h : (constraints.map ends).Sublist (pairsBelow n)) : Listed constraints where
  first_lt_second _ hc := (mem_pairsBelow.1 (h.subset (List.mem_map_of_mem hc))).1
  ascending := (pairwise_pairsBelow n).sublist h

/-- All pairs of rows are listed in order. -/
theorem listed_queens (n : Nat) (last : Value) : Listed (queensConstraints n last) := by
  apply listed_of_sublist (n := n)
  rw [List.map_map]
  show ((pairsBelow n).map fun scope => scope).Sublist (pairsBelow n)
  rw [List.map_id']

/-- So are the pairs of cells that share a unit. -/
theorem listed_sudoku : Listed sudokuConstraints := by
  apply listed_of_sublist (n := numCells)
  rw [List.map_map]
  show (((pairsBelow numCells).filter _).map fun scope => scope).Sublist (pairsBelow numCells)
  rw [List.map_id']
  exact List.filter_sublist

/-- So are the pairs of variables that were drawn. -/
theorem listed_draws (shape : RandomShape) (n : Nat) (s : KeyStream) :
    Listed (drawConstraints shape (pairsBelow n) s) :=
  listed_of_sublist (sublist_ends shape (pairsBelow n) s)

/-! ## §3. Blocks and copies. -/

section

variable {k n : Nat} {length : Value}

/-- All constraints of a copy name it first, and then a later copy. -/
theorem ends_of_mem_copyConstraints {number copy : Nat} {c : Constraint} (hpos : 1 ≤ number)
    (hcopy : copy < k) (hc : c ∈ copyConstraints k n length number copy) :
    c.first = copyOf k number copy ∧ c.first < c.second := by
  have hvar : (number - 1) * k + copy < number * k := copy_lt_block hpos hcopy
  rcases mem_copyConstraints.1 hc with ⟨_, rfl⟩ | ⟨later, hfrom, _, rfl⟩
  · exact ⟨rfl, Nat.lt_succ_self _⟩
  · exact ⟨rfl, Nat.lt_of_lt_of_le hvar hfrom⟩

/-- The next copy of the number comes before all copies of later numbers. -/
theorem ascending_copyConstraints {number copy : Nat} (hpos : 1 ≤ number) :
    ((copyConstraints k n length number copy).map ends).Pairwise EndsBefore := by
  unfold copyConstraints
  rw [List.map_append, List.map_map]
  apply List.pairwise_append.2
  -- one next copy at most, then the later numbers, and those behind it
  refine ⟨?_, ?_, ?_⟩
  · split
    · exact List.pairwise_singleton _ _
    · exact List.Pairwise.nil
  · apply List.pairwise_map.2
    exact (List.pairwise_lt_range' 1).imp fun hlt => Or.inr ⟨rfl, hlt⟩
  · intro p hp q hq
    obtain ⟨later, hlater, rfl⟩ := List.mem_map.1 hq
    split at hp
    next hnext =>
      obtain rfl := List.mem_singleton.1 hp
      have hblock : (number - 1) * k + (copy + 1) < number * k := copy_lt_block hpos (by omega)
      have hfrom := (List.mem_range'_1.1 hlater).1
      exact Or.inr ⟨rfl, Nat.lt_of_lt_of_le hblock hfrom⟩
    next => cases hp

/-- Copies are numbered within their block, and blocks one after another. -/
theorem copyOf_lt_copyOf {number number' copy copy' : Nat} (hpos : 1 ≤ number) (hcopy : copy < k)
    (hlt : number < number') : copyOf k number copy < copyOf k number' copy' := by
  have hvar : (number - 1) * k + copy < number * k := copy_lt_block hpos hcopy
  have hblock : number * k ≤ (number' - 1) * k := Nat.mul_le_mul_right k (by omega)
  show (number - 1) * k + copy < (number' - 1) * k + copy'
  omega

/-- **Blocks and copies**: the constraints of each copy ascend, those of later copies come later,
and those of later numbers later still. -/
theorem listed_langford : Listed (langfordConstraints k n length) := by
  have hends : ∀ {number copy : Nat} {p : Nat × Nat}, 1 ≤ number → copy < k →
      p ∈ (copyConstraints k n length number copy).map ends → p.1 = copyOf k number copy := by
    intro number copy p hpos hcopy hp
    obtain ⟨c, hc, rfl⟩ := List.mem_map.1 hp
    exact (ends_of_mem_copyConstraints hpos hcopy hc).1
  constructor
  · intro c hc
    obtain ⟨number, copy, hpos, _, hcopy, hc⟩ := mem_langfordConstraints.1 hc
    exact (ends_of_mem_copyConstraints hpos hcopy hc).2
  · unfold langfordConstraints
    rw [List.map_flatMap]
    apply List.pairwise_flatMap.2
    constructor
    -- the copies of one number
    · intro number hnumber
      have hpos := (List.mem_range'_1.1 hnumber).1
      rw [List.map_flatMap]
      apply List.pairwise_flatMap.2
      constructor
      · intro copy _
        exact ascending_copyConstraints hpos
      · refine List.pairwise_lt_range.imp_of_mem ?_
        intro copy copy' hcopy hcopy' hlt p hp q hq
        left
        rw [hends hpos (List.mem_range.1 hcopy) hp, hends hpos (List.mem_range.1 hcopy') hq]
        exact Nat.add_lt_add_left hlt _
    -- copies of two numbers
    · refine (List.pairwise_lt_range' 1).imp_of_mem ?_
      intro number number' hnumber hnumber' hlt p hp q hq
      have hpos := (List.mem_range'_1.1 hnumber).1
      have hpos' := (List.mem_range'_1.1 hnumber').1
      rw [List.map_flatMap] at hp hq
      obtain ⟨copy, hcopy, hp⟩ := List.mem_flatMap.1 hp
      obtain ⟨copy', hcopy', hq⟩ := List.mem_flatMap.1 hq
      left
      rw [hends hpos (List.mem_range.1 hcopy) hp, hends hpos' (List.mem_range.1 hcopy') hq]
      exact copyOf_lt_copyOf hpos (List.mem_range.1 hcopy) hlt

end

/-! ## §4. The tuples of the networks. -/

/-- The pairs of a predicate keep to the values that it is asked about. -/
theorem between_of_mem_ofPredicate {x y : VariableId} {lower upper a b : Value}
    {allowed : Value → Value → Bool}
    (h : (a, b) ∈ (Constraint.ofPredicate x y (Value.range lower upper) (Value.range lower upper)
      allowed).tuples) : (lower ≤ a ∧ a ≤ upper) ∧ (lower ≤ b ∧ b ≤ upper) := by
  obtain ⟨ha, hb, _⟩ := Constraint.mem_tuples_ofPredicate.1 h
  exact ⟨Value.mem_range.1 ha, Value.mem_range.1 hb⟩

/-- Spaced copies stand on positions of the row, and so do copies of different numbers. -/
theorem between_of_mem_langfordConstraints {k n : Nat} {length : Value} (hk : 2 ≤ k)
    (hlength : length.toInt = ((k * n : Nat) : Int)) {c : Constraint}
    (hc : c ∈ langfordConstraints k n length) {a b : Value} (hab : (a, b) ∈ c.tuples) :
    (1 ≤ a ∧ a ≤ length) ∧ (1 ≤ b ∧ b ≤ length) := by
  obtain ⟨number, copy, hpos, hnumber, _, hc⟩ := mem_langfordConstraints.1 hc
  rcases mem_copyConstraints.1 hc with ⟨_, rfl⟩ | ⟨later, _, _, rfl⟩
  · rw [Constraint.mem_tuples_ofTuples,
      mem_spacedPairs (distance_le_length hk hlength hpos hnumber)] at hab
    have hone : (1 : Value).toInt = 1 := rfl
    simp only [Int32.le_iff_toInt_le, hone]
    omega
  · exact between_of_mem_ofPredicate hab

/-- **One range for all variables**: constraints that are listed row by row and whose pairs keep to
the range make a simple network. -/
theorem Listed.simple_within {net : Network} {constraints : List Constraint} {count : Nat}
    {lower upper : Value} (h : Listed constraints)
    (hbounds : net.bounds.toList = List.replicate count ⟨lower, upper⟩)
    (hconstraints : net.constraints.toList = constraints)
    (hfits : ∀ c ∈ constraints, c.Fits count)
    (hpairs : ∀ c ∈ constraints, ∀ a b, (a, b) ∈ c.tuples →
      (lower ≤ a ∧ a ≤ upper) ∧ (lower ≤ b ∧ b ≤ upper)) :
    (∀ c ∈ net.constraints.toList, c.first < c.second) ∧ net.Simple ∧ net.TuplesInBounds := by
  subst hconstraints
  exact ⟨h.first_lt_second, h.simple, Network.tuplesInBounds_of_replicate hbounds hfits hpairs⟩

/-- **The networks of puzzles are simple.** Arguments that a family of puzzles accepts make a
network, never one that is refused for its ranges or its constraints: a number of queens for which
the columns are values and there is room for the constraints, two or more copies of one or more
numbers for which the positions are values, 81 clues that are digits or 0, and a sound shape
together with any stream of words, whatever it makes of the draws. In the network each constraint
names its smaller variable first, and no two bind the same two variables. But for the clues of a
grid, which narrow the ranges of their cells, every allowed pair keeps to the ranges of the two
variables. Random draws list the constraints in strictly ascending order of their variables, and
the allowed pairs of each in strictly ascending order. A number of queens that is accepted without
room for the constraints makes no network. -/
theorem puzzles_make_simple_networks (rows k n : Nat) (clues : List Value) (shape : RandomShape)
    (s : KeyStream) :
    (1 ≤ rows → rows - 1 ≤ 2147483647 →
      (Reservable (rows * (rows - 1) / 2) → ∃ net, queens rows = .ok net ∧
        (∀ c ∈ net.constraints.toList, c.first < c.second) ∧ net.Simple ∧ net.TuplesInBounds) ∧
      (¬ Reservable (rows * (rows - 1) / 2) → queens rows = .error .noRoom)) ∧
    (2 ≤ k → 1 ≤ n → k * n ≤ 2147483647 → ∃ net, langford k n = .ok net ∧
      (∀ c ∈ net.constraints.toList, c.first < c.second) ∧ net.Simple ∧ net.TuplesInBounds) ∧
    (clues.length = 81 → (∀ clue ∈ clues, 0 ≤ clue ∧ clue ≤ 9) →
      ∃ net, sudoku clues = .ok net ∧
        (∀ c ∈ net.constraints.toList, c.first < c.second) ∧ net.Simple) ∧
    (shape.fault? = none →
      ∃ net, randomFrom shape s = .ok net ∧
        (∀ c ∈ net.constraints.toList, c.first < c.second) ∧ net.Simple ∧ net.TuplesInBounds ∧
        (net.constraints.toList.map ends).Pairwise EndsBefore ∧
        ∀ c ∈ net.constraints.toList, c.tuples.Pairwise Constraint.RowMajor) := by
  -- for each family the list of its constraints is known, and that it is listed row by row
  refine ⟨?_, ?_, ?_, ?_⟩
  · intro hpos hfits
    refine ⟨fun hroom => ?_, queens_noRoom hpos hfits⟩
    obtain ⟨net, last, hnet, _, hbounds, hconstraints⟩ := exists_queensNetwork hpos hfits hroom
    refine ⟨net, hnet, (listed_queens rows last).simple_within hbounds hconstraints
      fits_queensConstraints ?_⟩
    intro c hc a b hab
    obtain ⟨row₁, row₂, _, _, rfl⟩ := mem_queensConstraints.1 hc
    exact between_of_mem_ofPredicate hab
  · intro hk hn hfits
    obtain ⟨net, length, hnet, hlength, hbounds, hconstraints⟩ := exists_langfordNetwork hk hn hfits
    refine ⟨net, hnet, listed_langford.simple_within hbounds hconstraints
      fits_langfordConstraints ?_⟩
    intro c hc a b hab
    exact between_of_mem_langfordConstraints hk hlength hc hab
  · intro hcount hclues
    obtain ⟨net, hnet, _, hconstraints⟩ := exists_sudokuNetwork hcount hclues
    have hlisted : Listed net.constraints.toList := hconstraints ▸ listed_sudoku
    exact ⟨net, hnet, hlisted.first_lt_second, hlisted.simple⟩
  · intro hshape
    obtain ⟨net, hnet, hbounds, hconstraints⟩ := exists_randomFrom hshape s
    have hlisted := listed_draws shape shape.numVariables s
    have hdrawn : ∀ c ∈ drawConstraints shape (pairsBelow shape.numVariables) s,
        c.tuples.Sublist (candidatePairs shape.domainSize) ∧
          c.tuples.Pairwise Constraint.RowMajor := by
      intro c hc
      exact (drawn_of_mem hc).tuples
    obtain ⟨hfirst, hsimple, hwithin⟩ :=
      hlisted.simple_within hbounds hconstraints fits_drawConstraints fun c hc a b hab => by
        obtain ⟨ha, hb, _⟩ := Constraint.mem_pairsWhere.1 ((hdrawn c hc).1.subset hab)
        exact ⟨Value.mem_range.1 ha, Value.mem_range.1 hb⟩
    refine ⟨net, hnet, hfirst, hsimple, hwithin, ?_⟩
    rw [hconstraints]
    exact ⟨hlisted.ascending, fun c hc => (hdrawn c hc).2⟩

/-- The columns of 2000000000 rows are values, so that many rows are not refused; but they make no
network. -/
theorem wide_board_makes_no_network :
    (1 ≤ 2000000000 ∧ 2000000000 - 1 ≤ 2147483647) ∧
      (∀ cause, queens 2000000000 ≠ .error (.argument cause)) ∧
      ¬ ∃ net, queens 2000000000 = .ok net := by
  have hanswer : queens 2000000000 = .error .noRoom := queens_of_large (by decide) (by decide)
  refine ⟨by decide, fun cause hcause => ?_, fun h => ?_⟩
  · cases hanswer.symm.trans hcause
  · obtain ⟨net, hnet⟩ := h
    cases hanswer.symm.trans hnet

/-- Eight queens, the three pairs of Langford, the empty grid and the shape of ten variables. -/
theorem small_puzzles_are_simple :
    (Reservable (8 * (8 - 1) / 2) ∧ ∃ net, queens 8 = .ok net ∧ net.Simple ∧ net.TuplesInBounds) ∧
    (∃ net, langford 2 3 = .ok net ∧ net.Simple ∧ net.TuplesInBounds) ∧
    (∃ net, sudoku (List.replicate 81 0) = .ok net ∧ net.Simple) ∧
    ∃ net, random RandomShape.standard = .ok net ∧ net.Simple ∧ net.TuplesInBounds := by
  obtain ⟨hqueens, hlangford, hsudoku, hrandom⟩ :=
    puzzles_make_simple_networks 8 2 3 (List.replicate 81 0) RandomShape.standard
      (KeyStream.ofSeed RandomShape.standard.seed)
  have hroom : Reservable (8 * (8 - 1) / 2) := by decide
  have hclues : ∀ clue ∈ List.replicate 81 (0 : Value), 0 ≤ clue ∧ clue ≤ 9 := by
    intro clue hclue
    rw [List.eq_of_mem_replicate hclue]
    decide
  have hshape : RandomShape.standard.fault? = none := by decide +kernel
  obtain ⟨board, hboard, _, hboardSimple, hboardBounds⟩ :=
    (hqueens (by decide) (by decide)).1 hroom
  obtain ⟨row, hrow, _, hrowSimple, hrowBounds⟩ := hlangford (by decide) (by decide) (by decide)
  obtain ⟨grid, hgrid, _, hgridSimple⟩ := hsudoku List.length_replicate hclues
  obtain ⟨drawn, hdrawn, _, hdrawnSimple, hdrawnBounds, _⟩ := hrandom hshape
  exact ⟨⟨hroom, board, hboard, hboardSimple, hboardBounds⟩, ⟨row, hrow, hrowSimple, hrowBounds⟩,
    ⟨grid, hgrid, hgridSimple⟩, drawn, hdrawn, hdrawnSimple, hdrawnBounds⟩

end Puzzle

end ConstraintNet
