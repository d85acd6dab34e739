/-
  ConstraintNet.Proofs.Puzzle.Langford
  ────────────────────────────────────
  **THE NETWORK L(k, n) IS LANGFORD'S PROBLEM.**

  `LangfordArrangement` says on its own what is wanted: the positions of the
  copies are a rearrangement of 1 to k · n, and successive copies of the number
  b are b + 1 positions apart.  The network never says that two copies of one
  number stand on different positions, nor that every position is taken:

      Spaced k n positions        — successive copies stand apart as they
                                    should; with it, the copies of one number
                                    stand further and further on
      NumbersApart k n positions  — copies of two numbers never meet

  Together they leave no repetition, and k · n positions without repetition
  are all of them.

  Main result: `langford_models_arrangements`.
-/
import ConstraintNet.Proofs.Puzzle.Satisfaction
import ConstraintNet.Puzzle.Langford

namespace ConstraintNet.Puzzle

variable {k n : Nat} {length : Value} {positions : List Value}

/-! ## §1. Arrangements. -/

/-- Each copy of a number but the last has the next one at the distance of that number. -/
def Spaced (k n : Nat) (positions : List Value) : Prop :=
  ∀ (number copy : Nat) (p q : Value), 1 ≤ number → number ≤ n → copy < k - 1 →
    positions[(number - 1) * k + copy]? = some p →
    positions[(number - 1) * k + copy + 1]? = some q →
      q.toInt = p.toInt + number + 1

/-- The positions of `k` copies of each of the numbers 1 to `n`, number by number and copy by copy,
in a Langford arrangement. -/
structure LangfordArrangement (k n : Nat) (positions : List Value) : Prop where
  length_eq : positions.length = k * n
  all_taken : (positions.map Int32.toInt).Perm ((List.range' 1 (k * n)).map Int.ofNat)
  spaced : Spaced k n positions

/-- No copy of a number stands where a copy of a later number does. -/
def NumbersApart (k n : Nat) (positions : List Value) : Prop :=
  ∀ (number copy later : Nat) (p q : Value), 1 ≤ number → number ≤ n → copy < k →
    number * k ≤ later → later < k * n →
    positions[(number - 1) * k + copy]? = some p → positions[later]? = some q → p ≠ q

/-! ## §2. The variables of the copies. -/

/-- The copies of a number stand before those of the next one. -/
theorem copy_lt_block {number copy : Nat} (hpos : 1 ≤ number) (hcopy : copy < k) :
    (number - 1) * k + copy < number * k := by
  obtain ⟨block, rfl⟩ : ∃ block, number = block + 1 := ⟨number - 1, by omega⟩
  rw [Nat.add_sub_cancel, Nat.succ_mul]
  omega

theorem block_le_size {number : Nat} (hnumber : number ≤ n) : number * k ≤ k * n := by
  rw [Nat.mul_comm k n]
  exact Nat.mul_le_mul_right k hnumber

/-- Every variable is a copy of some number. -/
theorem exists_copy {x : Nat} (hx : x < k * n) :
    ∃ number copy, 1 ≤ number ∧ number ≤ n ∧ copy < k ∧ number = x / k + 1 ∧
      x = (number - 1) * k + copy := by
  have hk : 0 < k := Nat.pos_of_lt_mul_right hx
  refine ⟨x / k + 1, x % k, Nat.le_add_left 1 _, Nat.div_lt_of_lt_mul hx, Nat.mod_lt x hk, rfl, ?_⟩
  rw [Nat.add_sub_cancel]
  exact (Nat.div_add_mod' x k).symm

/-! ## §3. The constraints of a copy. -/

/-- The distance of two copies is one more than their number. -/
theorem toInt_copyDistance {number : Nat} (h : number + 1 ≤ 2147483647) :
    (copyDistance number).toInt = number + 1 := by
  have hnumber : (Int32.ofNat number).toInt = number := Value.toInt_ofNat_of_fits (by omega)
  have hone : (1 : Value).toInt = 1 := rfl
  unfold copyDistance
  rw [Value.toInt_add_of_fits (by omega) (by omega), hnumber, hone]

/-- The row has room for two copies of every number. -/
theorem distance_le_length {number : Nat} (hk : 2 ≤ k)
    (hlength : length.toInt = ((k * n : Nat) : Int)) (hpos : 1 ≤ number) (hnumber : number ≤ n) :
    (number : Int) + 1 ≤ length.toInt := by
  have hsize := block_le_size (k := k) hnumber
  have htwice : number * 2 ≤ number * k := Nat.mul_le_mul_left number hk
  omega

/-- The last position for the first of two copies is their distance away from the end of the row. -/
theorem toInt_sub_copyDistance {number : Nat} (h : (number : Int) + 1 ≤ length.toInt) :
    (length - copyDistance number).toInt = length.toInt - (number + 1) := by
  have hmax := (Value.toInt_bounds length).2
  have hdistance : (copyDistance number).toInt = number + 1 := toInt_copyDistance (by omega)
  rw [Value.toInt_sub_of_fits (by omega) (by omega), hdistance]

/-- The spaced pairs are the pairs of positions in the row that are as far apart as they should. -/
theorem mem_spacedPairs {number : Nat} {p q : Value} (hnumber : (number : Int) + 1 ≤ length.toInt) :
    (p, q) ∈ spacedPairs length number ↔
      1 ≤ p.toInt ∧ q.toInt = p.toInt + number + 1 ∧ q.toInt ≤ length.toInt := by
  have hlength := Value.toInt_bounds length
  have hp := Value.toInt_bounds p
  have hdistance : (copyDistance number).toInt = number + 1 := toInt_copyDistance (by omega)
  -- the first copy stands so that the second one is still in the row
  have hrange (v : Value) : v ∈ Value.range 1 (length - copyDistance number) ↔
      1 ≤ v.toInt ∧ v.toInt ≤ length.toInt - (number + 1) := by
    rw [Value.mem_range, Int32.le_iff_toInt_le, Int32.le_iff_toInt_le,
      toInt_sub_copyDistance hnumber]
    exact Iff.rfl
  simp only [spacedPairs, List.mem_map, Prod.mk.injEq, hrange]
  constructor
  · intro h
    obtain ⟨v, hv, rfl, rfl⟩ := h
    rw [Value.toInt_add_of_fits (by omega) (by omega), hdistance]
    omega
  · intro h
    refine ⟨p, by omega, rfl, ?_⟩
    apply Int32.toInt_inj.1
    rw [Value.toInt_add_of_fits (by omega) (by omega), hdistance]
    omega

/-- A copy has a constraint with the next one of its number and one with each copy of a later
number. -/
theorem mem_copyConstraints {number copy : Nat} {c : Constraint} :
    c ∈ copyConstraints k n length number copy ↔
      (copy < k - 1 ∧ c = Constraint.ofTuples (copyOf k number copy) (copyOf k number copy + 1)
        (spacedPairs length number)) ∨
      ∃ later, number * k ≤ later ∧ later < k * n ∧
        c = onDifferentPositions length (copyOf k number copy) later := by
  simp only [copyConstraints, List.mem_append, List.mem_ite_nil_right, List.mem_singleton,
    List.mem_map, List.mem_range'_1]
  refine or_congr Iff.rfl ⟨?_, ?_⟩
  · intro h
    obtain ⟨later, hlater, rfl⟩ := h
    exact ⟨later, by omega, by omega, rfl⟩
  · intro h
    obtain ⟨later, hfrom, hto, rfl⟩ := h
    exact ⟨later, by omega, rfl⟩

/-- The constraints of all copies. -/
abbrev langfordConstraints (k n : Nat) (length : Value) : List Constraint :=
  (List.range' 1 n).flatMap fun number =>
    (List.range k).flatMap fun copy => copyConstraints k n length number copy

/-- Every constraint belongs to a copy of a number. -/
theorem mem_langfordConstraints {c : Constraint} :
    c ∈ langfordConstraints k n length ↔ ∃ number copy, 1 ≤ number ∧ number ≤ n ∧ copy < k ∧
      c ∈ copyConstraints k n length number copy := by
  simp only [List.mem_flatMap, List.mem_range'_1, List.mem_range]
  constructor
  · intro h
    obtain ⟨number, hnumber, copy, hcopy, hc⟩ := h
    exact ⟨number, copy, by omega, by omega, hcopy, hc⟩
  · intro h
    obtain ⟨number, copy, hpos, hnumber, hcopy, hc⟩ := h
    exact ⟨number, by omega, copy, hcopy, hc⟩

/-- The constraints name two different variables. -/
theorem fits_langfordConstraints : ∀ c ∈ langfordConstraints k n length, c.Fits (k * n) := by
  intro c hc
  obtain ⟨number, copy, hpos, hnumber, hcopy, hc⟩ := mem_langfordConstraints.1 hc
  have hvar := copy_lt_block hpos hcopy
  have hsize := block_le_size (k := k) hnumber
  rcases mem_copyConstraints.1 hc with ⟨hnext, rfl⟩ | ⟨later, hfrom, hto, rfl⟩
  -- the next copy is still one of the same number
  · have hvar' : (number - 1) * k + (copy + 1) < number * k := copy_lt_block hpos (by omega)
    show (number - 1) * k + copy < k * n ∧ (number - 1) * k + copy + 1 < k * n ∧
      (number - 1) * k + copy ≠ (number - 1) * k + copy + 1
    omega
  · show (number - 1) * k + copy < k * n ∧ later < k * n ∧ (number - 1) * k + copy ≠ later
    omega

/-! ## §4. What the constraints ask. -/

/-- The constraint to the next copy of a number asks for the distance. -/
theorem satisfies_spaced_iff (h : WithinRange 1 length (k * n) positions) {number copy : Nat}
    (hlength : (number : Int) + 1 ≤ length.toInt) (hnext : (number - 1) * k + copy + 1 < k * n) :
    (Constraint.ofTuples (copyOf k number copy) (copyOf k number copy + 1)
      (spacedPairs length number)).isSatisfiedBy positions = true ↔
      ∀ p q, positions[(number - 1) * k + copy]? = some p →
        positions[(number - 1) * k + copy + 1]? = some q → q.toInt = p.toInt + number + 1 := by
  refine (h.satisfies_iff (Nat.lt_of_succ_lt hnext) hnext _).trans ?_
  refine forall₄_congr fun p q hp hq => ?_
  have hlow := Int32.le_iff_toInt_le.1 (h.between p (List.mem_of_getElem? hp)).1
  have hhigh := Int32.le_iff_toInt_le.1 (h.between q (List.mem_of_getElem? hq)).2
  rw [mem_spacedPairs hlength]
  exact ⟨fun hmem => hmem.2.1, fun hdistance => ⟨hlow, hdistance, hhigh⟩⟩

/-- Together the constraints ask that successive copies are spaced and that numbers keep apart. -/
theorem satisfies_langfordConstraints_iff (hk : 2 ≤ k)
    (hlength : length.toInt = ((k * n : Nat) : Int)) (h : WithinRange 1 length (k * n) positions) :
    (∀ c ∈ langfordConstraints k n length, c.isSatisfiedBy positions = true) ↔
      Spaced k n positions ∧ NumbersApart k n positions := by
  have hfar {number : Nat} (hpos : 1 ≤ number) (hnumber : number ≤ n) :
      (number : Int) + 1 ≤ length.toInt := distance_le_length hk hlength hpos hnumber
  constructor
  · intro hsatisfied
    constructor
    · intro number copy p q hpos hnumber hcopy hp hq
      -- the constraint of successive copies, then the one of copies of two numbers
      have hmem : Constraint.ofTuples (copyOf k number copy) (copyOf k number copy + 1)
          (spacedPairs length number) ∈ langfordConstraints k n length :=
        mem_langfordConstraints.2 ⟨number, copy, hpos, hnumber, by omega,
          mem_copyConstraints.2 (Or.inl ⟨hcopy, rfl⟩)⟩
      have hnext := (fits_langfordConstraints _ hmem).2.1
      exact (satisfies_spaced_iff h (hfar hpos hnumber) hnext).1 (hsatisfied _ hmem) p q hp hq
    · intro number copy later p q hpos hnumber hcopy hfrom hto hp hq
      have hmem : onDifferentPositions length (copyOf k number copy) later ∈
          langfordConstraints k n length :=
        mem_langfordConstraints.2 ⟨number, copy, hpos, hnumber, hcopy,
          mem_copyConstraints.2 (Or.inr ⟨later, hfrom, hto, rfl⟩)⟩
      have hvar := (fits_langfordConstraints _ hmem).1
      have hdifferent := (h.satisfies_predicate_iff hvar hto _).1 (hsatisfied _ hmem) p q hp hq
      simpa using hdifferent
  · intro hwanted c hc
    obtain ⟨hspaced, happart⟩ := hwanted
    have hfits := fits_langfordConstraints c hc
    obtain ⟨number, copy, hpos, hnumber, hcopy, hc⟩ := mem_langfordConstraints.1 hc
    rcases mem_copyConstraints.1 hc with ⟨hnext, rfl⟩ | ⟨later, hfrom, hto, rfl⟩
    · apply (satisfies_spaced_iff h (hfar hpos hnumber) hfits.2.1).2
      intro p q hp hq
      exact hspaced number copy p q hpos hnumber hnext hp hq
    · apply (h.satisfies_predicate_iff hfits.1 hto _).2
      intro p q hp hq
      simpa using happart number copy later p q hpos hnumber hcopy hfrom hto hp hq

/-! ## §5. Why every position is taken. -/

/-- The copies of one number stand further and further on. -/
theorem Spaced.lt_of_lt (h : Spaced k n positions) (hlength : positions.length = k * n)
    {number i j : Nat} {p q : Value} (hpos : 1 ≤ number) (hnumber : number ≤ n) (hij : i < j)
    (hj : j < k) (hp : positions[(number - 1) * k + i]? = some p)
    (hq : positions[(number - 1) * k + j]? = some q) : p.toInt < q.toInt := by
  induction j generalizing q with
  | zero => omega
  | succ j ih =>
    have hvar : (number - 1) * k + j < number * k := copy_lt_block hpos (by omega)
    have hsize := block_le_size (k := k) hnumber
    -- the copy before the last one has a position, too
    obtain ⟨r, hr⟩ : ∃ r, positions[(number - 1) * k + j]? = some r :=
      ⟨_, List.getElem?_eq_getElem (by omega)⟩
    have hstep := h number j r q hpos hnumber (by omega) hr hq
    by_cases hlast : i = j
    · subst hlast
      obtain rfl := Option.some.inj (hp.symm.trans hr)
      omega
    · have := ih (by omega) (by omega) hr
      omega

/-- Spaced copies of numbers that keep apart never meet. -/
theorem nodup_of_spaced (hlength : positions.length = k * n) (hspaced : Spaced k n positions)
    (happart : NumbersApart k n positions) : positions.Nodup := by
  have hne : ∀ {x y : Nat} {p q : Value}, x < k * n → y < k * n → x < y →
      positions[x]? = some p → positions[y]? = some q → p ≠ q := by
    intro x y p q hx hy hxy hp hq heq
    obtain ⟨number, i, hpos, hnumber, hi, hblock, rfl⟩ := exists_copy hx
    obtain ⟨number', j, hpos', hnumber', hj, hblock', rfl⟩ := exists_copy hy
    by_cases hsame : number = number'
    -- two copies of one number
    · subst hsame
      have hlt := hspaced.lt_of_lt hlength hpos hnumber (by omega) hj hp hq
      rw [heq] at hlt
      omega
    -- copies of two numbers, of which the first is the smaller one
    · have hle : number ≤ number' := by
        rw [hblock, hblock']
        exact Nat.succ_le_succ (Nat.div_le_div_right (Nat.le_of_lt hxy))
      have hlater : number * k ≤ (number' - 1) * k := Nat.mul_le_mul_right k (by omega)
      exact happart number i _ p q hpos hnumber hi (by omega) hy hp hq heq
  apply List.pairwise_iff_getElem.2
  intro x y hx hy hxy
  exact hne (hlength ▸ hx) (hlength ▸ hy) hxy (List.getElem?_eq_getElem hx)
    (List.getElem?_eq_getElem hy)

/-- Positions without repetition keep copies of different numbers apart. -/
theorem numbersApart_of_nodup (h : positions.Nodup) : NumbersApart k n positions := by
  intro number copy later p q hpos _ hcopy hfrom _ hp hq heq
  subst heq
  have hvar : (number - 1) * k + copy < number * k := copy_lt_block hpos hcopy
  have hlt := (List.getElem?_eq_some_iff.1 hp).1
  have := (List.getElem?_inj hlt h).1 (hp.trans hq.symm)
  omega

/-- All positions are taken, once each, when none beyond the row is and none repeatedly. -/
theorem all_taken_iff (hlength : length.toInt = ((k * n : Nat) : Int))
    (hcount : positions.length = k * n) :
    (positions.map Int32.toInt).Perm ((List.range' 1 (k * n)).map Int.ofNat) ↔
      positions.Nodup ∧ WithinRange 1 length (k * n) positions := by
  have hinjective : Function.Injective Int32.toInt := fun v w h => Int32.toInt_inj.1 h
  have hnodup : ((List.range' 1 (k * n)).map Int.ofNat).Nodup :=
    List.Nodup.map (fun a b h => Int.ofNat.inj h) (List.nodup_range' 1)
  have hone : (1 : Value).toInt = 1 := rfl
  -- of the same length, without repetition and nowhere else means all of them
  rw [perm_iff_nodup_subset hnodup (by simp [hcount]), List.nodup_map_iff hinjective]
  refine and_congr_right fun _ => ?_
  constructor
  · intro hsubset
    refine ⟨hcount, fun v hv => ?_⟩
    obtain ⟨m, hm, hmv⟩ := List.mem_map.1 (hsubset (List.mem_map_of_mem hv))
    rw [List.mem_range'_1] at hm
    rw [Int32.le_iff_toInt_le, Int32.le_iff_toInt_le, ← hmv, hlength, hone]
    show (1 : Int) ≤ (m : Int) ∧ (m : Int) ≤ _
    omega
  · intro hwithin i hi
    obtain ⟨v, hv, rfl⟩ := List.mem_map.1 hi
    have hbetween := hwithin.between v hv
    rw [Int32.le_iff_toInt_le, Int32.le_iff_toInt_le, hlength, hone] at hbetween
    refine List.mem_map.2 ⟨v.toInt.toNat, List.mem_range'_1.2 (by omega), ?_⟩
    show (v.toInt.toNat : Int) = v.toInt
    omega

/-- Everything that the network asks is everything that is asked of an arrangement. -/
theorem langfordArrangement_iff (hk : 2 ≤ k) (hlength : length.toInt = ((k * n : Nat) : Int)) :
    (WithinRange 1 length (k * n) positions ∧
      ∀ c ∈ langfordConstraints k n length, c.isSatisfiedBy positions = true) ↔
      LangfordArrangement k n positions := by
  constructor
  · intro h
    obtain ⟨hwithin, hsatisfied⟩ := h
    obtain ⟨hspaced, happart⟩ := (satisfies_langfordConstraints_iff hk hlength hwithin).1 hsatisfied
    have hnodup := nodup_of_spaced hwithin.length_eq hspaced happart
    exact ⟨hwithin.length_eq, (all_taken_iff hlength hwithin.length_eq).2 ⟨hnodup, hwithin⟩,
      hspaced⟩
  · intro h
    obtain ⟨hnodup, hwithin⟩ := (all_taken_iff hlength h.length_eq).1 h.all_taken
    exact ⟨hwithin, (satisfies_langfordConstraints_iff hk hlength hwithin).2
      ⟨h.spaced, numbersApart_of_nodup hnodup⟩⟩

/-! ## §6. The arguments. -/

/-- Arguments for which the positions are values make a network. -/
theorem exists_langfordNetwork (hk : 2 ≤ k) (hn : 1 ≤ n) (hfits : k * n ≤ 2147483647) :
    ∃ net length, langford k n = .ok net ∧ length.toInt = ((k * n : Nat) : Int) ∧
      net.bounds.toList = List.replicate (k * n) ⟨1, length⟩ ∧
      net.constraints.toList = langfordConstraints k n length := by
  obtain ⟨length, hofInt, hlength⟩ := Value.exists_ofInt?_natCast hfits
  have hrange : (1 : Value) ≤ length := by
    have hpos : 0 < k * n := Nat.mul_pos (by omega) hn
    rw [Int32.le_iff_toInt_le, hlength]
    show (1 : Int) ≤ _
    omega
  obtain ⟨net, hnet, hlists⟩ :=
    exists_uniformNetwork hrange (fits_langfordConstraints (k := k) (n := n))
  refine ⟨net, length, ?_, hlength, hlists⟩
  unfold langford
  rw [if_neg (by omega), if_neg (by omega), hofInt]
  exact hnet

/-- All other arguments are refused. -/
theorem langford_refused (h : ¬ (2 ≤ k ∧ 1 ≤ n ∧ k * n ≤ 2147483647)) :
    ∃ cause, langford k n = .error (.argument cause) := by
  unfold langford
  by_cases hk : k < 2
  · rw [if_pos hk]
    exact ⟨_, rfl⟩
  by_cases hn : n = 0
  · rw [if_neg hk, if_pos hn]
    exact ⟨_, rfl⟩
  have hlong : ¬ k * n ≤ 2147483647 := fun hfits => h ⟨by omega, by omega, hfits⟩
  rw [if_neg hk, if_neg hn, Value.ofInt?_natCast_eq_none hlong]
  exact ⟨_, rfl⟩

/-- **The network L(k, n) is Langford's problem.** With at least two copies of at least one number,
and as many positions as there are values for them, it is accepted, and it is satisfied by exactly
the positions of the arrangements; other arguments are refused. -/
theorem langford_models_arrangements (k n : Nat) :
    (2 ≤ k ∧ 1 ≤ n ∧ k * n ≤ 2147483647 →
      ∃ net, langford k n = .ok net ∧
        ∀ positions, net.isSatisfiedBy positions = true ↔ LangfordArrangement k n positions) ∧
    (¬ (2 ≤ k ∧ 1 ≤ n ∧ k * n ≤ 2147483647) →
      ∃ cause, langford k n = .error (.argument cause)) := by
  refine ⟨fun h => ?_, langford_refused⟩
  obtain ⟨hk, hn, hfits⟩ := h
  obtain ⟨net, length, hnet, hlength, hbounds, hconstraints⟩ := exists_langfordNetwork hk hn hfits
  refine ⟨net, hnet, fun positions => ?_⟩
  rw [isSatisfiedBy_uniform_iff hbounds hconstraints]
  exact langfordArrangement_iff hk hlength

/-- The arrangement 3 1 2 1 3 2, in which the copies of 1 stand on the positions 2 and 4, those of 2
on 3 and 6 and those of 3 on 1 and 5. -/
theorem langford_models_three_pairs : (2 ≤ 2 ∧ 1 ≤ 3 ∧ 2 * 3 ≤ 2147483647) ∧
    ∃ net, langford 2 3 = .ok net ∧ net.isSatisfiedBy [2, 4, 3, 6, 1, 5] = true := by
  have hargument : 2 ≤ 2 ∧ 1 ≤ 3 ∧ 2 * 3 ≤ 2147483647 := by decide
  obtain ⟨net, hnet, hsatisfied⟩ := (langford_models_arrangements 2 3).1 hargument
  refine ⟨hargument, net, hnet, (hsatisfied _).2 ⟨rfl, by decide, ?_⟩⟩
  intro number copy p q hpos hnumber hcopy hp hq
  obtain rfl : copy = 0 := by omega
  have hcases : number = 1 ∨ number = 2 ∨ number = 3 := by omega
  rcases hcases with rfl | rfl | rfl
  all_goals
    obtain rfl := Option.some.inj hp
    obtain rfl := Option.some.inj hq
    rfl

end ConstraintNet.Puzzle
