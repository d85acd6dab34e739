/-
  ConstraintNet.Proofs.Puzzle.Sudoku
  ──────────────────────────────────
  **THE NETWORK OF A GRID IS ITS SUDOKU.**

  `SudokuSolution` says on its own what is wanted: the clues stay, and every
  row, column and box has each digit exactly once.  The network only forbids
  equal digits in two cells of one unit:

      sharesUnit_iff      — the test on two cells is that some unit has both
      eachDigitOnce_iff   — nine different digits from 1 to 9 are all of them
      clueBounds_iff      — the ranges of the cells keep the clues

  Main result: `sudoku_models_grids`.
-/
import ConstraintNet.Proofs.Puzzle.Satisfaction
import ConstraintNet.Puzzle.Sudoku

namespace ConstraintNet.Puzzle

/-! ## §1. Units and solutions. -/

/-- The cells of a row. -/
def rowCells (row : Nat) : List Nat := (List.range 9).map fun i => 9 * row + i

/-- The cells of a column. -/
def columnCells (column : Nat) : List Nat := (List.range 9).map fun i => 9 * i + column

/-- The cells of a box. The boxes are counted like cells, three in a row. -/
def boxCells (box : Nat) : List Nat :=
  (List.range 9).map fun i => 9 * (3 * (box / 3) + i / 3) + (3 * (box % 3) + i % 3)

/-- What stands in the listed cells. -/
def digitsAt (digits : List Value) (cells : List Nat) : List Value :=
  cells.filterMap fun cell => digits[cell]?

/-- The listed cells hold every digit exactly once. -/
def EachDigitOnce (digits : List Value) (cells : List Nat) : Prop :=
  ∀ d : Value, 1 ≤ d → d ≤ 9 → (digitsAt digits cells).count d = 1

/-- The digits of a solved grid, row by row, of which the clues were given; a clue 0 says
nothing. -/
structure SudokuSolution (clues digits : List Value) : Prop where
  length_eq : digits.length = 81
  keeps_clues : ∀ (cell : Nat) (clue : Value), clues[cell]? = some clue → clue ≠ 0 →
    digits[cell]? = some clue
  rows : ∀ row < 9, EachDigitOnce digits (rowCells row)
  columns : ∀ column < 9, EachDigitOnce digits (columnCells column)
  boxes : ∀ box < 9, EachDigitOnce digits (boxCells box)

/-- The cells are those of a row, of a column or of a box. -/
inductive IsUnit : List Nat → Prop where
  | row {row : Nat} (h : row < 9) : IsUnit (rowCells row)
  | column {column : Nat} (h : column < 9) : IsUnit (columnCells column)
  | box {box : Nat} (h : box < 9) : IsUnit (boxCells box)

/-- A row has the cells with its number of nines before them. -/
theorem mem_rowCells {row cell : Nat} : cell ∈ rowCells row ↔ cell / 9 = row := by
  simp only [rowCells, List.mem_map, List.mem_range]
  constructor
  · intro h
    obtain ⟨i, hi, rfl⟩ := h
    omega
  · intro h
    exact ⟨cell % 9, by omega, by omega⟩

/-- A column has the cells with its number as their rest. -/
theorem mem_columnCells {column cell : Nat} (hcolumn : column < 9) :
    cell ∈ columnCells column ↔ cell < 81 ∧ cell % 9 = column := by
  simp only [columnCells, List.mem_map, List.mem_range]
  constructor
  · intro h
    obtain ⟨i, hi, rfl⟩ := h
    omega
  · intro h
    exact ⟨cell / 9, by omega, by omega⟩

/-- A box has the cells in its three rows and its three columns. -/
theorem mem_boxCells {box cell : Nat} (hbox : box < 9) : cell ∈ boxCells box ↔
    cell < 81 ∧ cell / 9 / 3 = box / 3 ∧ cell % 9 / 3 = box % 3 := by
  simp only [boxCells, List.mem_map, List.mem_range]
  constructor
  · intro h
    obtain ⟨i, hi, rfl⟩ := h
    omega
  -- within its box, a cell is counted by its row there and its column there
  · intro h
    exact ⟨3 * (cell / 9 % 3) + cell % 9 % 3, by omega, by omega⟩

namespace IsUnit

variable {cells : List Nat}

/-- The cells of a unit are cells of the grid. -/
theorem lt_numCells (h : IsUnit cells) {cell : Nat} (hcell : cell ∈ cells) : cell < 81 := by
  cases h with
  | row hrow =>
    have := mem_rowCells.1 hcell
    omega
  | column hcolumn => exact ((mem_columnCells hcolumn).1 hcell).1
  | box hbox => exact ((mem_boxCells hbox).1 hcell).1

/-- A unit has nine cells. -/
theorem length_eq (h : IsUnit cells) : cells.length = 9 := by
  cases h <;> simp [rowCells, columnCells, boxCells]

/-- No cell occurs twice in a unit. -/
theorem nodup (h : IsUnit cells) : cells.Nodup := by
  cases h with
  | row => exact List.Nodup.map (fun i j hij => by omega) List.nodup_range
  | column => exact List.Nodup.map (fun i j hij => by omega) List.nodup_range
  | box => exact List.Nodup.map (fun i j hij => by omega) List.nodup_range

end IsUnit

/-- Two cells of the grid share a unit when some unit has both. -/
theorem sharesUnit_iff {a b : Nat} (ha : a < 81) (hb : b < 81) :
    sharesUnit a b = true ↔ ∃ cells, IsUnit cells ∧ a ∈ cells ∧ b ∈ cells := by
  simp only [sharesUnit, Bool.or_eq_true, Bool.and_eq_true, decide_eq_true_eq]
  constructor
  · intro h
    -- hcolumn) | ⟨hdown, hacross⟩ | each of the three tests names the unit of the first cell
    rcases h with (hrow | hcolumn) | ⟨hdown, hacross⟩
    · have hlt : a / 9 < 9 := by omega
      exact ⟨_, .row hlt, mem_rowCells.2 rfl, mem_rowCells.2 hrow.symm⟩
    · have hlt : a % 9 < 9 := by omega
      exact ⟨_, .column hlt, (mem_columnCells hlt).2 ⟨ha, rfl⟩,
        (mem_columnCells hlt).2 ⟨hb, hcolumn.symm⟩⟩
    · have hlt : 3 * (a / 9 / 3) + a % 9 / 3 < 9 := by omega
      exact ⟨_, .box hlt, (mem_boxCells hlt).2 (by omega), (mem_boxCells hlt).2 (by omega)⟩
  · intro h
    obtain ⟨cells, hunit, hacells, hbcells⟩ := h
    cases hunit with
    | row =>
      have := mem_rowCells.1 hacells
      have := mem_rowCells.1 hbcells
      omega
    | column hcolumn =>
      have := mem_columnCells hcolumn |>.1 hacells
      have := mem_columnCells hcolumn |>.1 hbcells
      omega
    | box hbox =>
      have := mem_boxCells hbox |>.1 hacells
      have := mem_boxCells hbox |>.1 hbcells
      omega

/-! ## §2. Units with every digit. -/

/-- No two of the listed cells hold the same digit. -/
def DigitsDiffer (digits : List Value) (cells : List Nat) : Prop :=
  ∀ a ∈ cells, ∀ b ∈ cells, a < b → ∀ v w, digits[a]? = some v → digits[b]? = some w → v ≠ w

/-- The nine digits are different. -/
theorem nodup_digits : (Value.range 1 9).Nodup :=
  (Value.range_pairwise 1 9).imp fun hlt => Int32.ne_of_lt hlt

/-- Nine cells hold every digit once when they hold the digits in some order. -/
theorem eachDigitOnce_iff_perm {digits : List Value} {cells : List Nat}
    (hlength : (digitsAt digits cells).length = 9) :
    EachDigitOnce digits cells ↔ (digitsAt digits cells).Perm (Value.range 1 9) := by
  rw [perm_iff_count_eq_one nodup_digits hlength]
  simp only [Value.mem_range, and_imp]
  exact Iff.rfl

section

variable {digits : List Value} {cells : List Nat}

/-- A full grid has something in every cell of a unit. -/
theorem IsUnit.getElem?_eq (hunit : IsUnit cells) (hlength : digits.length = 81) {cell : Nat}
    (hcell : cell ∈ cells) : digits[cell]? = some (digits.getD cell 0) := by
  have hlt : cell < digits.length := by
    rw [hlength]
    exact hunit.lt_numCells hcell
  rw [List.getD_eq_getElem?_getD, List.getElem?_eq_getElem hlt]
  rfl

/-- In a whole grid the digits of a unit stand at its cells, one after another. -/
theorem IsUnit.digitsAt_eq (hunit : IsUnit cells) (hlength : digits.length = 81) :
    digitsAt digits cells = cells.map fun cell => digits.getD cell 0 := by
  unfold digitsAt
  rw [List.filterMap_congr fun cell hcell => hunit.getElem?_eq hlength hcell]
  exact congrFun List.filterMap_eq_map cells

/-- The digits of a unit are digits when each of its cells has one. -/
theorem IsUnit.digitsAt_subset_iff (hunit : IsUnit cells) (hlength : digits.length = 81) :
    digitsAt digits cells ⊆ Value.range 1 9 ↔
      ∀ cell ∈ cells, ∀ v, digits[cell]? = some v → 1 ≤ v ∧ v ≤ 9 := by
  rw [hunit.digitsAt_eq hlength]
  constructor
  · intro hsubset cell hcell v hv
    rw [hunit.getElem?_eq hlength hcell] at hv
    obtain rfl := Option.some.inj hv
    exact Value.mem_range.1 (hsubset (List.mem_map.2 ⟨cell, hcell, rfl⟩))
  · intro hbetween v hv
    obtain ⟨cell, hcell, rfl⟩ := List.mem_map.1 hv
    exact Value.mem_range.2 (hbetween cell hcell _ (hunit.getElem?_eq hlength hcell))

/-- No digit is repeated in a unit when those of different cells differ. -/
theorem IsUnit.nodup_digitsAt_iff (hunit : IsUnit cells) (hlength : digits.length = 81) :
    (digitsAt digits cells).Nodup ↔ DigitsDiffer digits cells := by
  rw [hunit.digitsAt_eq hlength, List.nodup_map_iff_inj_on hunit.nodup]
  constructor
  · intro hinj a ha b hb hlt v w hv hw heq
    rw [hunit.getElem?_eq hlength ha] at hv
    rw [hunit.getElem?_eq hlength hb] at hw
    have hab : digits.getD a 0 = digits.getD b 0 := by
      rw [Option.some.inj hv, Option.some.inj hw, heq]
    have := hinj a ha b hb hab
    omega
  -- of two cells, one comes first
  · intro hdiffer a ha b hb hab
    have hva := hunit.getElem?_eq hlength ha
    have hvb := hunit.getElem?_eq hlength hb
    by_contra hne
    rcases Nat.lt_or_gt_of_ne hne with hlt | hgt
    · exact hdiffer a ha b hb hlt _ _ hva hvb hab
    · exact hdiffer b hb a ha hgt _ _ hvb hva hab.symm

/-- **Nine different digits are all of them**, and there is no room for another value. -/
theorem eachDigitOnce_iff (hunit : IsUnit cells) (hlength : digits.length = 81) :
    EachDigitOnce digits cells ↔
      (∀ cell ∈ cells, ∀ v, digits[cell]? = some v → 1 ≤ v ∧ v ≤ 9) ∧
        DigitsDiffer digits cells := by
  have hcount : (digitsAt digits cells).length = 9 := by
    rw [hunit.digitsAt_eq hlength, List.length_map, hunit.length_eq]
  rw [eachDigitOnce_iff_perm hcount, perm_iff_nodup_subset nodup_digits hcount,
    hunit.nodup_digitsAt_iff hlength, hunit.digitsAt_subset_iff hlength, and_comm]

end

/-! ## §3. The constraints and the clues. -/

/-- The constraints between the cells. -/
abbrev sudokuConstraints : List Constraint :=
  ((pairsBelow numCells).filter fun (a, b) => sharesUnit a b).map fun (a, b) =>
    differentDigits a b

/-- There is a constraint for each pair of cells that share a unit, the earlier cell first. -/
theorem mem_sudokuConstraints {c : Constraint} : c ∈ sudokuConstraints ↔
    ∃ a b, a < b ∧ b < 81 ∧ sharesUnit a b = true ∧ c = differentDigits a b := by
  simp only [List.mem_map, List.mem_filter, Prod.exists, mem_pairsBelow]
  constructor
  · intro h
    obtain ⟨a, b, ⟨⟨hlt, hb⟩, hshares⟩, rfl⟩ := h
    exact ⟨a, b, hlt, hb, hshares, rfl⟩
  · intro h
    obtain ⟨a, b, hlt, hb, hshares, rfl⟩ := h
    exact ⟨a, b, ⟨⟨hlt, hb⟩, hshares⟩, rfl⟩

/-- The constraints name two different cells of the grid. -/
theorem fits_sudokuConstraints : ∀ c ∈ sudokuConstraints, c.Fits 81 := by
  intro c hc
  obtain ⟨a, b, hlt, hb, _, rfl⟩ := mem_sudokuConstraints.1 hc
  show a < 81 ∧ b < 81 ∧ a ≠ b
  omega

/-- Together the constraints ask that no unit repeats a digit. -/
theorem satisfies_sudokuConstraints_iff {digits : List Value} (h : WithinRange 1 9 81 digits) :
    (∀ c ∈ sudokuConstraints, c.isSatisfiedBy digits = true) ↔
      ∀ cells, IsUnit cells → DigitsDiffer digits cells := by
  constructor
  · intro hsatisfied cells hunit a ha b hb hlt v w hv hw
    have haGrid := hunit.lt_numCells ha
    have hbGrid := hunit.lt_numCells hb
    have hshares := (sharesUnit_iff haGrid hbGrid).2 ⟨cells, hunit, ha, hb⟩
    have hc := hsatisfied _ (mem_sudokuConstraints.2 ⟨a, b, hlt, hbGrid, hshares, rfl⟩)
    have hdifferent := (h.satisfies_predicate_iff haGrid hbGrid _).1 hc v w hv hw
    simpa using hdifferent
  · intro hdiffer c hc
    obtain ⟨a, b, hlt, hb, hshares, rfl⟩ := mem_sudokuConstraints.1 hc
    have ha : a < 81 := by omega
    obtain ⟨cells, hunit, hacells, hbcells⟩ := (sharesUnit_iff ha hb).1 hshares
    apply (h.satisfies_predicate_iff ha hb _).2
    intro v w hv hw
    simpa using hdiffer cells hunit a hacells b hbcells hlt v w hv hw

/-- The range of a cell with an acceptable clue. -/
def clueBounds (clue : Value) : Bounds := if clue = 0 then ⟨1, 9⟩ else Bounds.fixed clue

/-- A clue that does not leave its cell open is a digit. -/
theorem one_le_of_ne_zero {clue : Value} (hlow : 0 ≤ clue) (hne : clue ≠ 0) : 1 ≤ clue := by
  have hzero : clue.toInt ≠ 0 := fun h => hne (Int32.toInt_inj.1 h)
  rw [Int32.le_iff_toInt_le] at hlow ⊢
  change 0 ≤ clue.toInt at hlow
  show 1 ≤ clue.toInt
  omega

/-- A digit or an open cell is accepted. -/
theorem boundsOfClue_of_digit {clue : Value} (hlow : 0 ≤ clue) (hhigh : clue ≤ 9) (cell : Nat) :
    boundsOfClue cell clue = .ok (clueBounds clue) := by
  unfold boundsOfClue clueBounds
  by_cases hzero : clue = 0
  · rw [if_pos hzero, if_pos hzero]
  · rw [if_neg hzero, if_neg hzero, if_pos ⟨one_le_of_ne_zero hlow hzero, hhigh⟩]

/-- All other clues are refused, with their cell. -/
theorem boundsOfClue_of_other {clue : Value} (h : ¬ (0 ≤ clue ∧ clue ≤ 9)) (cell : Nat) :
    boundsOfClue cell clue = .error (.clueRange cell clue) := by
  unfold boundsOfClue
  have hzero : clue ≠ 0 := by
    intro heq
    subst heq
    exact h (by decide)
  rw [if_neg hzero, if_neg]
  intro hdigit
  exact h ⟨Int32.le_trans (by decide) hdigit.1, hdigit.2⟩

/-- A clue leaves at least one digit. -/
theorem clueBounds_nonempty (clue : Value) : (clueBounds clue).lower ≤ (clueBounds clue).upper := by
  unfold clueBounds
  split
  · decide
  · exact Int32.le_refl clue

/-- The range of a cell keeps its clue, and in any case it has digits only. -/
theorem between_clueBounds_iff {clue v : Value} (hclue : 0 ≤ clue ∧ clue ≤ 9) :
    ((clueBounds clue).lower ≤ v ∧ v ≤ (clueBounds clue).upper) ↔
      (1 ≤ v ∧ v ≤ 9) ∧ (clue ≠ 0 → v = clue) := by
  unfold clueBounds
  split
  next hzero => exact ⟨fun h => ⟨h, fun hne => absurd hzero hne⟩, And.left⟩
  next hne =>
    show (clue ≤ v ∧ v ≤ clue) ↔ _
    constructor
    · intro h
      obtain rfl : v = clue := Int32.le_antisymm h.2 h.1
      exact ⟨⟨one_le_of_ne_zero hclue.1 hne, hclue.2⟩, fun _ => rfl⟩
    · intro h
      obtain rfl := h.2 hne
      exact ⟨Int32.le_refl v, Int32.le_refl v⟩

/-- **The ranges of all cells** ask for digits that keep the clues. -/
theorem clueBounds_iff {clues digits : List Value} (hclues : ∀ clue ∈ clues, 0 ≤ clue ∧ clue ≤ 9)
    (hcount : clues.length = 81) (hlength : digits.length = 81) :
    (∀ (x : VariableId) (b : Bounds) (v : Value), (clues.map clueBounds)[x]? = some b →
      digits[x]? = some v → b.lower ≤ v ∧ v ≤ b.upper) ↔
      WithinRange 1 9 81 digits ∧ ∀ (cell : Nat) (clue : Value), clues[cell]? = some clue →
        clue ≠ 0 → digits[cell]? = some clue := by
  constructor
  · intro h
    -- cell by cell, the range of a clue is what it asks
    have hcell : ∀ {cell : Nat} {clue v : Value}, clues[cell]? = some clue →
        digits[cell]? = some v → (1 ≤ v ∧ v ≤ 9) ∧ (clue ≠ 0 → v = clue) := by
      intro cell clue v hclue hv
      have hb : (clues.map clueBounds)[cell]? = some (clueBounds clue) := by
        rw [List.getElem?_map, hclue]
        rfl
      exact (between_clueBounds_iff (hclues clue (List.mem_of_getElem? hclue))).1
        (h cell _ v hb hv)
    refine ⟨⟨hlength, fun v hv => ?_⟩, fun cell clue hclue hne => ?_⟩
    · obtain ⟨cell, hlt, rfl⟩ := List.mem_iff_getElem.1 hv
      have hclue : clues[cell]? = some clues[cell] := List.getElem?_eq_getElem (by omega)
      exact (hcell hclue (List.getElem?_eq_getElem hlt)).1
    · have hlt := (List.getElem?_eq_some_iff.1 hclue).1
      have hv : digits[cell]? = some digits[cell] := List.getElem?_eq_getElem (by omega)
      rw [hv, (hcell hclue hv).2 hne]
  · intro h x b v hb hv
    obtain ⟨hwithin, hkeeps⟩ := h
    rw [List.getElem?_map] at hb
    obtain ⟨clue, hclue, rfl⟩ := Option.map_eq_some_iff.1 hb
    refine (between_clueBounds_iff (hclues clue (List.mem_of_getElem? hclue))).2 ⟨?_, ?_⟩
    · exact hwithin.between v (List.mem_of_getElem? hv)
    · intro hne
      exact Option.some.inj (hv.symm.trans (hkeeps x clue hclue hne))

/-! ## §4. What is asked of a solution. -/

/-- Everything that the network asks is everything that is asked of a solution. -/
theorem sudokuSolution_iff {clues digits : List Value} :
    ((WithinRange 1 9 81 digits ∧ ∀ (cell : Nat) (clue : Value), clues[cell]? = some clue →
        clue ≠ 0 → digits[cell]? = some clue) ∧
      ∀ c ∈ sudokuConstraints, c.isSatisfiedBy digits = true) ↔ SudokuSolution clues digits := by
  constructor
  · intro h
    obtain ⟨⟨hwithin, hkeeps⟩, hsatisfied⟩ := h
    have hdiffer := (satisfies_sudokuConstraints_iff hwithin).1 hsatisfied
    have honce : ∀ cells, IsUnit cells → EachDigitOnce digits cells := by
      intro cells hunit
      refine (eachDigitOnce_iff hunit hwithin.length_eq).2 ⟨?_, hdiffer cells hunit⟩
      intro cell _ v hv
      exact hwithin.between v (List.mem_of_getElem? hv)
    exact ⟨hwithin.length_eq, hkeeps, fun _ h => honce _ (.row h), fun _ h => honce _ (.column h),
      fun _ h => honce _ (.box h)⟩
  · intro h
    have hunits : ∀ cells, IsUnit cells → EachDigitOnce digits cells := by
      intro cells hunit
      cases hunit with
      | row hrow => exact h.rows _ hrow
      | column hcolumn => exact h.columns _ hcolumn
      | box hbox => exact h.boxes _ hbox
    have hwithin : WithinRange 1 9 81 digits := by
      refine ⟨h.length_eq, fun v hv => ?_⟩
      obtain ⟨cell, hcell, rfl⟩ := List.mem_iff_getElem.1 hv
      -- every cell lies in a row
      have hrow : cell / 9 < 9 := by
        have := h.length_eq
        omega
      exact ((eachDigitOnce_iff (.row hrow) h.length_eq).1 (h.rows _ hrow)).1 cell
        (mem_rowCells.2 rfl) _ (List.getElem?_eq_getElem hcell)
    refine ⟨⟨hwithin, h.keeps_clues⟩, (satisfies_sudokuConstraints_iff hwithin).2 ?_⟩
    intro cells hunit
    exact ((eachDigitOnce_iff hunit h.length_eq).1 (hunits cells hunit)).2

/-! ## §5. Clues that are looked at one by one. -/

/-- A loop with a turn that fails fails, at that turn or before it. -/
theorem mapM_eq_error {ε α β : Type} {f : α → Except ε β} {l : List α} {a : α} (ha : a ∈ l)
    {fault : ε} (h : f a = .error fault) : ∃ fault', l.mapM f = .error fault' := by
  induction l with
  | nil => cases ha
  | cons b rest ih =>
    rw [List.mapM_cons]
    cases hb : f b with
    | error fault' => exact ⟨fault', rfl⟩
    | ok made =>
      rcases List.mem_cons.1 ha with rfl | hrest
      · cases h.symm.trans hb
      · obtain ⟨fault', hfault'⟩ := ih hrest
        exact ⟨fault', by rw [hfault']; rfl⟩

/-! ## §6. The whole grid. -/

/-- Eighty-one clues make a network. -/
theorem exists_sudokuNetwork {clues : List Value} (hcount : clues.length = 81)
    (hclues : ∀ clue ∈ clues, 0 ≤ clue ∧ clue ≤ 9) :
    ∃ net, sudoku clues = .ok net ∧ net.bounds.toList = clues.map clueBounds ∧
      net.constraints.toList = sudokuConstraints := by
  have hbounds : clues.zipIdx.mapM (fun entry => boundsOfClue entry.2 entry.1) =
      .ok (clues.map clueBounds) := by
    have hmade : clues.zipIdx.mapM (fun entry => boundsOfClue entry.2 entry.1) =
        .ok (clues.zipIdx.map (clueBounds ∘ Prod.fst)) := by
      refine mapM_eq_pure fun entry hentry => ?_
      have hclue := hclues _ (List.mem_of_getElem? (List.mem_zipIdx_iff_getElem?.1 hentry))
      exact boundsOfClue_of_digit hclue.1 hclue.2 entry.2
    rw [hmade, ← List.map_map, List.zipIdx_map_fst]
  -- clues narrow ranges without emptying them, and constraints join cells of the grid
  have hwell : WellFormed (clues.map clueBounds) sudokuConstraints := by
    refine ⟨fun b hb => ?_, fun c hc => ?_⟩
    · obtain ⟨clue, _, rfl⟩ := List.mem_map.1 hb
      exact clueBounds_nonempty clue
    · rw [List.length_map, hcount]
      exact fits_sudokuConstraints c hc
  obtain ⟨net, hnet, hlists⟩ := exists_puzzleNetwork hwell
  refine ⟨net, ?_, hlists⟩
  have hcells : ¬ clues.length ≠ numCells := not_not.2 hcount
  unfold sudoku
  rw [if_neg hcells]
  split
  next fault hfault => cases hfault.symm.trans hbounds
  next bounds hok =>
    obtain rfl := Except.ok.inj (hok.symm.trans hbounds)
    exact hnet

/-- The solutions of the grid are those of its network. -/
theorem exists_sudoku {clues : List Value} (hcount : clues.length = 81)
    (hclues : ∀ clue ∈ clues, 0 ≤ clue ∧ clue ≤ 9) :
    ∃ net, sudoku clues = .ok net ∧
      ∀ digits, net.isSatisfiedBy digits = true ↔ SudokuSolution clues digits := by
  obtain ⟨net, hnet, hnetBounds, hnetConstraints⟩ := exists_sudokuNetwork hcount hclues
  refine ⟨net, hnet, fun digits => ?_⟩
  rw [isSatisfiedBy_puzzle_iff hnetBounds hnetConstraints, List.length_map, hcount,
    ← sudokuSolution_iff, ← and_assoc]
  refine and_congr_left fun _ => ?_
  constructor
  · intro h
    exact (clueBounds_iff hclues hcount h.1).1 h.2
  · intro h
    exact ⟨h.1.length_eq, (clueBounds_iff hclues hcount h.1.length_eq).2 h⟩

/-- All other lists of clues are refused. -/
theorem sudoku_refuses {clues : List Value}
    (h : ¬ (clues.length = 81 ∧ ∀ clue ∈ clues, 0 ≤ clue ∧ clue ≤ 9)) :
    ∃ cause, sudoku clues = .error (.argument cause) := by
  unfold sudoku
  by_cases hcount : clues.length = numCells
  · rw [if_neg (not_not.2 hcount)]
    have hclue : ∃ clue ∈ clues, ¬ (0 ≤ clue ∧ clue ≤ 9) := by
      by_contra hnone
      refine h ⟨hcount, fun clue hmem => ?_⟩
      by_contra hclue
      exact hnone ⟨clue, hmem, hclue⟩
    obtain ⟨clue, hmem, hclue⟩ := hclue
    obtain ⟨cell, hcell⟩ := List.mem_iff_getElem?.1 hmem
    have hentry : (clue, cell) ∈ clues.zipIdx := List.mem_zipIdx_iff_getElem?.2 hcell
    -- the clue that is no digit, or one before it, stops the loop
    obtain ⟨fault, hfault⟩ := mapM_eq_error (f := fun entry => boundsOfClue entry.2 entry.1) hentry
      (boundsOfClue_of_other hclue cell)
    split
    next fault' _ => exact ⟨fault', rfl⟩
    next bounds hok => cases hok.symm.trans hfault
  · rw [if_pos hcount]
    exact ⟨_, rfl⟩

/-- **The network of a grid is its Sudoku.** A list of clues is accepted exactly when it has one for
each of the 81 cells and each is a digit or 0; and then the network is satisfied by exactly the
grids that keep the clues and have every digit once in each row, column and box. -/
theorem sudoku_models_grids (clues : List Value) :
    ((∃ net, sudoku clues = .ok net) ↔
      clues.length = 81 ∧ ∀ clue ∈ clues, 0 ≤ clue ∧ clue ≤ 9) ∧
    ∀ net, sudoku clues = .ok net → ∀ digits,
      net.isSatisfiedBy digits = true ↔ SudokuSolution clues digits := by
  have haccepts (net : Network) (hnet : sudoku clues = .ok net) :
      clues.length = 81 ∧ ∀ clue ∈ clues, 0 ≤ clue ∧ clue ≤ 9 := by
    by_contra hclues
    obtain ⟨cause, hcause⟩ := sudoku_refuses hclues
    cases hnet.symm.trans hcause
  refine ⟨⟨?_, ?_⟩, ?_⟩
  · intro h
    obtain ⟨net, hnet⟩ := h
    exact haccepts net hnet
  · intro h
    obtain ⟨net, hnet, _⟩ := exists_sudoku h.1 h.2
    exact ⟨net, hnet⟩
  · intro net hnet
    obtain ⟨hcount, hclues⟩ := haccepts net hnet
    obtain ⟨net', hnet', hsatisfied⟩ := exists_sudoku hcount hclues
    obtain rfl := Except.ok.inj (hnet.symm.trans hnet')
    exact hsatisfied

/-- A solved grid, in which each row has the digits of the row above three or four places further to
the left. -/
def shiftedGrid : List Value :=
  (List.range 81).map fun cell =>
    Int32.ofNat ((3 * (cell / 9 % 3) + cell / 9 / 3 + cell % 9) % 9 + 1)

/-- The grid without clues has a solution. -/
theorem sudoku_models_empty_grid :
    ((List.replicate 81 (0 : Value)).length = 81 ∧
      ∀ clue ∈ List.replicate 81 (0 : Value), 0 ≤ clue ∧ clue ≤ 9) ∧
    ∃ net, sudoku (List.replicate 81 0) = .ok net ∧ net.isSatisfiedBy shiftedGrid = true := by
  have hclues : (List.replicate 81 (0 : Value)).length = 81 ∧
      ∀ clue ∈ List.replicate 81 (0 : Value), 0 ≤ clue ∧ clue ≤ 9 := by
    refine ⟨List.length_replicate, fun clue hclue => ?_⟩
    rw [List.eq_of_mem_replicate hclue]
    decide
  have hunits : ∀ unit < 9, (digitsAt shiftedGrid (rowCells unit)).Perm (Value.range 1 9) ∧
      (digitsAt shiftedGrid (columnCells unit)).Perm (Value.range 1 9) ∧
      (digitsAt shiftedGrid (boxCells unit)).Perm (Value.range 1 9) := by
    decide +kernel
  have honce {cells : List Nat} (h : (digitsAt shiftedGrid cells).Perm (Value.range 1 9)) :
      EachDigitOnce shiftedGrid cells := (eachDigitOnce_iff_perm h.length_eq).2 h
  obtain ⟨haccepts, hmodels⟩ := sudoku_models_grids (List.replicate 81 0)
  obtain ⟨net, hnet⟩ := haccepts.2 hclues
  refine ⟨hclues, net, hnet, (hmodels net hnet _).2 ?_⟩
  refine ⟨rfl, fun cell clue hclue hne => ?_, ?_, ?_, ?_⟩
  · exact absurd (List.eq_of_mem_replicate (List.mem_of_getElem? hclue)) hne
  · exact fun row hrow => honce (hunits row hrow).1
  · exact fun column hcolumn => honce (hunits column hcolumn).2.1
  · exact fun box hbox => honce (hunits box hbox).2.2

end ConstraintNet.Puzzle
