/-
  ConstraintNet.Proofs.Puzzle.Queens
  ──────────────────────────────────
  **THE NETWORK OF QUEENS IS THE PROBLEM OF THE QUEENS.**

  `QueensApart` says on its own what is wanted of a list of columns: one for
  each row, on the board, and no two of them in one column or on one diagonal.
  The network compares columns in 32 bits, one constraint for each pair of
  rows; `columnsApart_iff` turns that into the distances of the board.

  Not every number of rows for which the columns are values has a network: the
  room for the constraints is reserved beforehand, and for boards of more than
  368290407 rows there is none (`reservable_pairs_iff`).

  Main result: `queens_model_board`.
-/
import ConstraintNet.Proofs.Puzzle.Satisfaction

namespace ConstraintNet.Puzzle

/-! ## §1. Queens that leave each other alone. -/

/-- The columns of queens on a board with `n` rows and columns, row by row, of which no two share a
column or a diagonal. -/
structure QueensApart (n : Nat) (columns : List Value) : Prop where
  length_eq : columns.length = n
  on_board : ∀ col ∈ columns, 0 ≤ col.toInt ∧ col.toInt < n
  apart : ∀ (row₁ row₂ : Nat) (col₁ col₂ : Value), row₁ < row₂ →
    columns[row₁]? = some col₁ → columns[row₂]? = some col₂ →
      col₁ ≠ col₂ ∧ (col₁.toInt - col₂.toInt).natAbs ≠ row₂ - row₁

/-! ## §2. The constraint between two rows. -/

/-- On the board nothing overflows, and the test is the one on the diagonals. -/
theorem columnsApart_iff {distance : Nat} {col₁ col₂ : Value} (hdistance : distance ≤ 2147483647)
    (hcol₁ : 0 ≤ col₁.toInt) (hcol₂ : 0 ≤ col₂.toInt) :
    columnsApart (Int32.ofNat distance) col₁ col₂ = true ↔
      col₁ ≠ col₂ ∧ (col₁.toInt - col₂.toInt).natAbs ≠ distance := by
  have hmax₁ := (Value.toInt_bounds col₁).2
  have hmax₂ := (Value.toInt_bounds col₂).2
  have hsub : (col₁ - col₂).toInt = col₁.toInt - col₂.toInt :=
    Value.toInt_sub_of_fits (by omega) (by omega)
  have habs : (col₁ - col₂).abs.toInt = (col₁.toInt - col₂.toInt).natAbs := by
    rw [Value.toInt_abs_of_fits (by omega), hsub]
  have hdiagonal : (col₁ - col₂).abs = Int32.ofNat distance ↔
      (col₁.toInt - col₂.toInt).natAbs = distance := by
    rw [← Int32.toInt_inj, habs, Value.toInt_ofNat_of_fits hdistance]
    omega
  simp only [columnsApart, Bool.and_eq_true, decide_eq_true_eq]
  exact and_congr_right fun _ => not_congr hdiagonal

/-- The constraints between the rows of a board. -/
abbrev queensConstraints (n : Nat) (last : Value) : List Constraint :=
  (pairsBelow n).map fun (row₁, row₂) => rowsApart last row₁ row₂

/-- They bind the rows in pairs. -/
theorem mem_queensConstraints {n : Nat} {last : Value} {c : Constraint} :
    c ∈ queensConstraints n last ↔
      ∃ row₁ row₂, row₁ < row₂ ∧ row₂ < n ∧ c = rowsApart last row₁ row₂ := by
  simp only [List.mem_map, Prod.exists, mem_pairsBelow]
  constructor
  · intro h
    obtain ⟨row₁, row₂, ⟨hlt, hrow₂⟩, rfl⟩ := h
    exact ⟨row₁, row₂, hlt, hrow₂, rfl⟩
  · intro h
    obtain ⟨row₁, row₂, hlt, hrow₂, rfl⟩ := h
    exact ⟨row₁, row₂, ⟨hlt, hrow₂⟩, rfl⟩

theorem fits_queensConstraints {n : Nat} {last : Value} :
    ∀ c ∈ queensConstraints n last, c.Fits n := by
  intro c hc
  obtain ⟨row₁, row₂, hlt, hrow₂, rfl⟩ := mem_queensConstraints.1 hc
  show row₁ < n ∧ row₂ < n ∧ row₁ ≠ row₂
  omega

/-- Columns on the board satisfy the constraint between two rows when the two queens there stand
neither in one column nor on one diagonal. -/
theorem satisfies_rowsApart_iff {n row₁ row₂ : Nat} {last : Value} {columns : List Value}
    (hlast : last.toInt = ((n - 1 : Nat) : Int)) (h : WithinRange 0 last n columns)
    (hlt : row₁ < row₂) (hrow₂ : row₂ < n) :
    (rowsApart last row₁ row₂).isSatisfiedBy columns = true ↔
      ∀ col₁ col₂, columns[row₁]? = some col₁ → columns[row₂]? = some col₂ →
        col₁ ≠ col₂ ∧ (col₁.toInt - col₂.toInt).natAbs ≠ row₂ - row₁ := by
  have hmax := (Value.toInt_bounds last).2
  have hrow₁ : row₁ < n := by omega
  have hdistance : row₂ - row₁ ≤ 2147483647 := by omega
  have hnonneg : ∀ {row : Nat} {col : Value}, columns[row]? = some col → 0 ≤ col.toInt := by
    intro row col hcol
    exact Int32.le_iff_toInt_le.1 (h.between col (List.mem_of_getElem? hcol)).1
  refine (h.satisfies_predicate_iff hrow₁ hrow₂ _).trans ?_
  refine forall₄_congr fun col₁ col₂ hcol₁ hcol₂ => ?_
  exact columnsApart_iff hdistance (hnonneg hcol₁) (hnonneg hcol₂)

/-! ## §3. The whole board. -/

theorem between_columns_iff {n : Nat} {last : Value} (hpos : 1 ≤ n)
    (hlast : last.toInt = ((n - 1 : Nat) : Int)) (col : Value) :
    (0 ≤ col ∧ col ≤ last) ↔ (0 ≤ col.toInt ∧ col.toInt < n) := by
  rw [Int32.le_iff_toInt_le, Int32.le_iff_toInt_le, hlast]
  show (0 ≤ col.toInt ∧ _) ↔ _
  omega

/-- Everything that the network asks is everything that is asked of the queens. -/
theorem queensApart_iff {n : Nat} {last : Value} {columns : List Value} (hpos : 1 ≤ n)
    (hlast : last.toInt = ((n - 1 : Nat) : Int)) :
    (WithinRange 0 last n columns ∧
      ∀ c ∈ queensConstraints n last, c.isSatisfiedBy columns = true) ↔
      QueensApart n columns := by
  constructor
  · intro h
    obtain ⟨hwithin, hconstraints⟩ := h
    refine ⟨hwithin.length_eq, fun col hcol => ?_, ?_⟩
    · exact (between_columns_iff hpos hlast col).1 (hwithin.between col hcol)
    · intro row₁ row₂ col₁ col₂ hlt hcol₁ hcol₂
      have hrow₂ : row₂ < n := by
        rw [← hwithin.length_eq]
        exact (List.getElem?_eq_some_iff.1 hcol₂).1
      -- the two rows are a pair, and the pair has a constraint
      have hrows := hconstraints _ (mem_queensConstraints.2 ⟨row₁, row₂, hlt, hrow₂, rfl⟩)
      exact (satisfies_rowsApart_iff hlast hwithin hlt hrow₂).1 hrows col₁ col₂ hcol₁ hcol₂
  · intro h
    have hwithin : WithinRange 0 last n columns := by
      refine ⟨h.length_eq, fun col hcol => ?_⟩
      exact (between_columns_iff hpos hlast col).2 (h.on_board col hcol)
    refine ⟨hwithin, fun c hc => ?_⟩
    obtain ⟨row₁, row₂, hlt, hrow₂, rfl⟩ := mem_queensConstraints.1 hc
    apply (satisfies_rowsApart_iff hlast hwithin hlt hrow₂).2
    intro col₁ col₂ hcol₁ hcol₂
    exact h.apart row₁ row₂ col₁ col₂ hlt hcol₁ hcol₂

/-! ## §4. The arguments, and the room. -/

/-- There is room for the constraints of 368290407 rows, and not of more. -/
theorem reservable_pairs_iff {n : Nat} : Reservable (n * (n - 1) / 2) ↔ n ≤ 368290407 := by
  unfold Reservable constraintBytes
  constructor
  · intro h
    by_contra hlarge
    have hpairs : 368290408 * 368290407 ≤ n * (n - 1) := Nat.mul_le_mul (by omega) (by omega)
    omega
  · intro h
    have hpairs : n * (n - 1) ≤ 368290407 * 368290406 := Nat.mul_le_mul h (by omega)
    omega

/-- When the columns are values and there is room, the board has a network. -/
theorem exists_queensNetwork {n : Nat} (hpos : 1 ≤ n) (hfits : n - 1 ≤ 2147483647)
    (hroom : Reservable (n * (n - 1) / 2)) :
    ∃ net last, queens n = .ok net ∧ last.toInt = ((n - 1 : Nat) : Int) ∧
      net.bounds.toList = List.replicate n ⟨0, last⟩ ∧
      net.constraints.toList = queensConstraints n last := by
  obtain ⟨last, hofInt, hlast⟩ := Value.exists_ofInt?_natCast hfits
  have hrange : (0 : Value) ≤ last := by
    rw [Int32.le_iff_toInt_le, hlast]
    exact Int.natCast_nonneg _
  obtain ⟨net, hnet, hlists⟩ := exists_uniformNetwork hrange (fits_queensConstraints (n := n))
  refine ⟨net, last, ?_, hlast, hlists⟩
  unfold queens
  rw [if_neg (by omega), hofInt]
  exact (if_pos hroom).trans hnet

/-- Without room an argument that is accepted comes to nothing. -/
theorem queens_noRoom {n : Nat} (hpos : 1 ≤ n) (hfits : n - 1 ≤ 2147483647)
    (hroom : ¬ Reservable (n * (n - 1) / 2)) : queens n = .error .noRoom := by
  obtain ⟨last, hofInt, _⟩ := Value.exists_ofInt?_natCast hfits
  unfold queens
  rw [if_neg (by omega), hofInt]
  exact if_neg hroom

/-- So boards of more than 368290407 rows have no network, though their columns may be values. -/
theorem queens_of_large {n : Nat} (hlarge : 368290407 < n) (hfits : n - 1 ≤ 2147483647) :
    queens n = .error .noRoom := by
  apply queens_noRoom (by omega) hfits
  rw [reservable_pairs_iff]
  omega

/-- All other arguments are refused. -/
theorem queens_refused {n : Nat} (h : ¬ (1 ≤ n ∧ n - 1 ≤ 2147483647)) :
    ∃ cause, queens n = .error (.argument cause) := by
  unfold queens
  by_cases hzero : n = 0
  · rw [if_pos hzero]
    exact ⟨_, rfl⟩
  · rw [if_neg hzero, Value.ofInt?_natCast_eq_none (by omega)]
    exact ⟨_, rfl⟩

/-- **The network of `n` queens is the problem of the `n` queens.** When the columns are values and
there is room for the constraints, it is satisfied by exactly the lists of columns in which no queen
attacks another one; without room the argument is accepted and there is no network all the same.
When the columns are no values the argument is refused. -/
theorem queens_model_board (n : Nat) :
    (1 ≤ n ∧ n - 1 ≤ 2147483647 →
      (Reservable (n * (n - 1) / 2) →
        ∃ net, queens n = .ok net ∧
          ∀ columns, net.isSatisfiedBy columns = true ↔ QueensApart n columns) ∧
      (¬ Reservable (n * (n - 1) / 2) → queens n = .error .noRoom)) ∧
    (¬ (1 ≤ n ∧ n - 1 ≤ 2147483647) → ∃ cause, queens n = .error (.argument cause)) := by
  refine ⟨fun h => ?_, queens_refused⟩
  obtain ⟨hpos, hfits⟩ := h
  refine ⟨fun hroom => ?_, queens_noRoom hpos hfits⟩
  obtain ⟨net, last, hnet, hlast, hbounds, hconstraints⟩ := exists_queensNetwork hpos hfits hroom
  refine ⟨net, hnet, fun columns => ?_⟩
  rw [isSatisfiedBy_uniform_iff hbounds hconstraints]
  exact queensApart_iff hpos hlast

/-- The columns of 2147483648 rows are values, the last of them the greatest one; but the board has
no network. -/
theorem largest_board_has_no_network :
    (1 ≤ 2147483648 ∧ 2147483648 - 1 ≤ 2147483647) ∧ queens 2147483648 = .error .noRoom ∧
      ¬ ∃ net, queens 2147483648 = .ok net := by
  have hanswer : queens 2147483648 = .error .noRoom := queens_of_large (by decide) (by decide)
  refine ⟨by decide, hanswer, fun h => ?_⟩
  obtain ⟨net, hnet⟩ := h
  cases hanswer.symm.trans hnet

/-- Four queens leave each other alone in the columns 1, 3, 0 and 2. -/
theorem queens_model_four : (1 ≤ 4 ∧ 4 - 1 ≤ 2147483647) ∧ Reservable (4 * (4 - 1) / 2) ∧
    ∃ net, queens 4 = .ok net ∧ net.isSatisfiedBy [1, 3, 0, 2] = true := by
  have hargument : 1 ≤ 4 ∧ 4 - 1 ≤ 2147483647 := by decide
  have hroom : Reservable (4 * (4 - 1) / 2) := by decide
  obtain ⟨net, hnet, hsatisfied⟩ := ((queens_model_board 4).1 hargument).1 hroom
  refine ⟨hargument, hroom, net, hnet, (hsatisfied _).2 ⟨rfl, ?_, ?_⟩⟩
  · intro col hcol
    simp only [List.mem_cons, List.not_mem_nil, or_false] at hcol
    rcases hcol with rfl | rfl | rfl | rfl <;> decide
  intro row₁ row₂ col₁ col₂ hlt hcol₁ hcol₂
  have hrow₂ : row₂ < 4 := (List.getElem?_eq_some_iff.1 hcol₂).1
  have hcases : row₁ = 0 ∧ row₂ = 1 ∨ row₁ = 0 ∧ row₂ = 2 ∨ row₁ = 0 ∧ row₂ = 3 ∨
      row₁ = 1 ∧ row₂ = 2 ∨ row₁ = 1 ∧ row₂ = 3 ∨ row₁ = 2 ∧ row₂ = 3 := by omega
  rcases hcases with ⟨rfl, rfl⟩ | ⟨rfl, rfl⟩ | ⟨rfl, rfl⟩ | ⟨rfl, rfl⟩ | ⟨rfl, rfl⟩ | ⟨rfl, rfl⟩
  all_goals
    obtain rfl := Option.some.inj hcol₁
    obtain rfl := Option.some.inj hcol₂
    decide

end ConstraintNet.Puzzle
