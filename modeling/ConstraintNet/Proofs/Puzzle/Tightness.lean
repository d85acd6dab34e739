/-
  ConstraintNet.Proofs.Puzzle.Tightness
  ─────────────────────────────────────
  **A TIGHTER RANDOM NETWORK IS NESTED IN A LOOSER ONE.**

  A draw that is not certain consumes exactly one word, whatever its outcome,
  and it succeeds for more words when its probability is greater.  So two runs
  that differ in their tightness alone stay in step: the same word decides
  about the same pair in both, and what the looser run leaves out the tighter
  one leaves out as well.

      wordsBelow_eq_floor   — the words for which a draw succeeds
      drawPair_inStep       — one pair of values, and from it the draws for
                              one constraint (`drawPairs_inStep`)
      drawScope_inStep      — one pair of variables, and from it the draws
                              for all constraints (`nested_drawConstraints`)

  Main result: `random_nested_in_tightness`.
-/
import Mathlib.Data.List.Forall2
import Mathlib.Data.Rat.Floor
import ConstraintNet.Proofs.Puzzle.Draws

namespace ConstraintNet

/-! ## §1. The words that a draw succeeds for. -/

namespace Binary64

/-- The value of a finite number. -/
def value (x : Binary64) : ℚ :=
  let magnitude : ℚ := x.magnitude.1 * 2 ^ x.magnitude.2
  if x.isNegative then -magnitude else magnitude

/-- The test for one is a test of the value. -/
theorem value_eq_one_of_isOne {x : Binary64} (h : x.isOne = true) : x.value = 1 := by
  unfold isOne at h
  rw [Bool.and_eq_true, Bool.not_eq_true', decide_eq_true_eq] at h
  obtain ⟨hpositive, hbits⟩ := h
  have hmagnitude : x.magnitude = (2 ^ 52, -52) := by
    unfold magnitude
    rw [hbits]
    rfl
  simp only [value, hmagnitude, hpositive]
  norm_num

/-- The only probability with a sign is a zero. -/
theorem magnitude_of_isNegative {x : Binary64} (h : x.isProbability = true)
    (hnegative : x.isNegative = true) : x.magnitude = (0, -1074) := by
  unfold isProbability at h
  rw [if_pos hnegative, decide_eq_true_eq] at h
  unfold magnitude
  rw [h]
  rfl

/-- The number of words as a shift of the magnitude, to the left or to the right. -/
theorem wordsBelow_eq (x : Binary64) : x.wordsBelow =
    if 0 ≤ x.magnitude.2 + 64 then x.magnitude.1 <<< (x.magnitude.2 + 64).toNat
    else x.magnitude.1 >>> (-(x.magnitude.2 + 64)).toNat := rfl

/-- **The words below a share of all words**, which are its part before the point. -/
theorem wordsBelow_eq_floor {x : Binary64} (h : x.isProbability = true) :
    (x.wordsBelow : Int) = ⌊x.value * 2 ^ 64⌋ := by
  by_cases hnegative : x.isNegative = true
  · have hzero := magnitude_of_isNegative h hnegative
    simp [wordsBelow, value, hzero]
  · have hvalue : x.value * 2 ^ 64 = x.magnitude.1 * 2 ^ (x.magnitude.2 + 64) := by
      unfold value
      rw [if_neg hnegative, mul_assoc, zpow_add₀ two_ne_zero]
      rfl
    rw [hvalue, wordsBelow_eq]
    by_cases hshift : 0 ≤ x.magnitude.2 + 64
    -- a whole number of words
    · rw [if_pos hshift, Nat.shiftLeft_eq]
      obtain ⟨shift, hshift⟩ := Int.eq_ofNat_of_zero_le hshift
      rw [hshift, Int.toNat_natCast, zpow_natCast]
      exact_mod_cast (Int.floor_natCast (R := ℚ) (x.magnitude.1 * 2 ^ shift)).symm
    -- a fraction of a word is dropped by the shift
    · rw [if_neg hshift, Nat.shiftRight_eq_div_pow]
      obtain ⟨shift, hshift⟩ := Int.eq_ofNat_of_zero_le (a := -(x.magnitude.2 + 64)) (by omega)
      have hexponent : x.magnitude.2 + 64 = -(shift : Int) := by omega
      rw [hshift, hexponent, Int.toNat_natCast, zpow_neg, zpow_natCast, ← div_eq_mul_inv]
      exact_mod_cast (Rat.floor_natCast_div_natCast x.magnitude.1 (2 ^ shift)).symm

end Binary64

namespace Puzzle

/-- **A draw that is not certain consumes one word**, and the word alone decides. -/
theorem draw_eq {p : Binary64} (h : p.isOne = false) (s : KeyStream) :
    draw p s = (decide (s.next.1.toNat < p.wordsBelow), s.next.2) := by
  unfold draw
  rw [if_neg (by rw [h]; decide)]

/-! ## §2. Two runs in step. -/

/-- The first run has drawn no pair that the second one has not, and both go on with the same
words. -/
def InStep (tighter looser : List (Value × Value) × KeyStream) : Prop :=
  tighter.1.Sublist looser.1 ∧ tighter.2 = looser.2

/-- The constraints bind the same variables, and the first one allows no pair that the second one
does not. -/
def Nested (tighter looser : Constraint) : Prop :=
  ends tighter = ends looser ∧ tighter.tuples.Sublist looser.tuples

/-- The runs have drawn nested constraints, and both go on with the same words. -/
def ScopesInStep (tighter looser : List Constraint × KeyStream) : Prop :=
  List.Forall₂ Nested tighter.1 looser.1 ∧ tighter.2 = looser.2

section

variable {shape : RandomShape} {t₁ t₂ : Binary64} (hone₁ : t₁.isOne = false)
  (hone₂ : t₂.isOne = false) (hle : t₁.wordsBelow ≤ t₂.wordsBelow)

include hone₁ hone₂ hle

/-- One pair is drawn in both runs from the same word, and what the tighter one keeps the looser one
keeps. -/
theorem drawPair_inStep {tighter looser : List (Value × Value) × KeyStream}
    (h : InStep tighter looser) (pair : Value × Value) :
    InStep (drawPair t₂ tighter pair) (drawPair t₁ looser pair) := by
  obtain ⟨kept₂, s⟩ := tighter
  obtain ⟨kept₁, s₁⟩ := looser
  obtain ⟨hkept, rfl⟩ : kept₂.Sublist kept₁ ∧ s = s₁ := h
  rw [drawPair_eq, drawPair_eq, draw_eq hone₁, draw_eq hone₂]
  refine ⟨?_, rfl⟩
  by_cases hlooser : s.next.1.toNat < t₁.wordsBelow
  -- what the looser run leaves out, the tighter one leaves out as well
  · have htighter : s.next.1.toNat < t₂.wordsBelow := Nat.lt_of_lt_of_le hlooser hle
    simpa [hlooser, htighter] using hkept
  · by_cases htighter : s.next.1.toNat < t₂.wordsBelow
    · simpa [hlooser, htighter] using hkept.cons pair
    · simpa [hlooser, htighter] using hkept

/-- So it is for any number of pairs, by induction on them. -/
theorem foldl_drawPair_inStep (candidates : List (Value × Value))
    {tighter looser : List (Value × Value) × KeyStream} (h : InStep tighter looser) :
    InStep (candidates.foldl (drawPair t₂) tighter) (candidates.foldl (drawPair t₁) looser) := by
  induction candidates generalizing tighter looser with
  | nil => exact h
  | cons pair rest ih => exact ih (drawPair_inStep hone₁ hone₂ hle h pair)

/-- The draws for one constraint. -/
theorem drawPairs_inStep (candidates : List (Value × Value)) (s : KeyStream) :
    InStep (drawPairs t₂ candidates s) (drawPairs t₁ candidates s) := by
  have hstart : InStep ([], s) ([], s) := ⟨List.Sublist.refl [], rfl⟩
  have h := foldl_drawPair_inStep hone₁ hone₂ hle candidates hstart
  exact ⟨h.1.reverse, h.2⟩

/-- The constraint of a pair of variables is drawn in both runs or in none. -/
theorem drawScope_inStep {tighter looser : List Constraint × KeyStream}
    (h : ScopesInStep tighter looser) (scope : Nat × Nat) :
    ScopesInStep (drawScope { shape with tightness := t₂ } tighter scope)
      (drawScope { shape with tightness := t₁ } looser scope) := by
  obtain ⟨drawn₂, s⟩ := tighter
  obtain ⟨drawn₁, s₁⟩ := looser
  obtain ⟨hdrawn, rfl⟩ : List.Forall₂ Nested drawn₂ drawn₁ ∧ s = s₁ := h
  rw [drawScope_eq, drawScope_eq]
  -- the density is the same, so both runs draw for the pairs or neither does
  split
  · obtain ⟨hpairs, hstream⟩ := drawPairs_inStep hone₁ hone₂ hle
      (candidatePairs shape.domainSize) (draw shape.density s).2
    refine ⟨List.Forall₂.cons ⟨rfl, ?_⟩ hdrawn, hstream⟩
    rw [(tuples_of_candidates (sublist_drawPairs t₂ _ _) _ _).1,
      (tuples_of_candidates (sublist_drawPairs t₁ _ _) _ _).1]
    exact hpairs
  · exact ⟨hdrawn, rfl⟩

/-- And so are those of any number of pairs of variables. -/
theorem foldl_drawScope_inStep (scopes : List (Nat × Nat))
    {tighter looser : List Constraint × KeyStream} (h : ScopesInStep tighter looser) :
    ScopesInStep (scopes.foldl (drawScope { shape with tightness := t₂ }) tighter)
      (scopes.foldl (drawScope { shape with tightness := t₁ }) looser) := by
  induction scopes generalizing tighter looser with
  | nil => exact h
  | cons scope rest ih => exact ih (drawScope_inStep hone₁ hone₂ hle h scope)

/-- The draws for all constraints. -/
theorem nested_drawConstraints (scopes : List (Nat × Nat)) (s : KeyStream) :
    List.Forall₂ Nested (drawConstraints { shape with tightness := t₂ } scopes s)
      (drawConstraints { shape with tightness := t₁ } scopes s) := by
  have hstart : ScopesInStep ([], s) ([], s) := ⟨List.Forall₂.nil, rfl⟩
  exact List.rel_reverse (foldl_drawScope_inStep hone₁ hone₂ hle scopes hstart).1

end

/-! ## §3. Two networks. -/

/-- What satisfies fewer pairs satisfies more of them. -/
theorem Nested.isSatisfiedBy {c d : Constraint} (h : Nested c d) {assignment : List Value}
    (hsatisfied : c.isSatisfiedBy assignment = true) : d.isSatisfiedBy assignment = true := by
  obtain ⟨hends, htuples⟩ := h
  obtain ⟨hfirst, hsecond⟩ := Prod.mk.inj hends
  rw [Network.isSatisfiedBy_constraint_iff] at hsatisfied ⊢
  obtain ⟨a, b, ha, hb, hmem⟩ := hsatisfied
  exact ⟨a, b, hfirst ▸ ha, hsecond ▸ hb, htuples.subset hmem⟩

/-- What satisfies all nested constraints satisfies the looser ones. -/
theorem satisfies_of_nested {tighter looser : List Constraint}
    (h : List.Forall₂ Nested tighter looser) {assignment : List Value}
    (hsatisfied : ∀ c ∈ tighter, c.isSatisfiedBy assignment = true) :
    ∀ d ∈ looser, d.isSatisfiedBy assignment = true := by
  induction h with
  | nil => exact fun d hd => nomatch hd
  | cons hcd _ ih =>
    intro d hd
    rcases List.mem_cons.1 hd with rfl | hrest
    · exact hcd.isSatisfiedBy (hsatisfied _ List.mem_cons_self)
    · exact ih (fun c hc => hsatisfied c (List.mem_cons_of_mem _ hc)) d hrest

/-- Nested constraints bind the same variables, one by one. -/
theorem ends_eq_of_nested {tighter looser : List Constraint}
    (h : List.Forall₂ Nested tighter looser) : tighter.map ends = looser.map ends := by
  induction h with
  | nil => rfl
  | cons hcd _ ih => rw [List.map_cons, List.map_cons, hcd.1, ih]

/-- A shape without a fault has a tightness from zero to one. -/
theorem RandomShape.isProbability_of_fault? {shape : RandomShape} (h : shape.fault? = none) :
    shape.tightness.isProbability = true := by
  by_contra hnot
  unfold fault? at h
  split at h
  · cases h
  · split at h
    · cases h
    · split at h
      · cases h
      · rw [if_pos (by simpa using hnot)] at h
        cases h

/-- **Random networks are nested in their tightness.** Take two accepted shapes that differ in their
tightness alone, neither of them certain to forbid a pair, and let at least as many words forbid a
pair in the second as in the first. Then both networks have constraints between the same variables
in the same order, each constraint of the second network allows a part of the pairs of its
counterpart, in their order, and every assignment that satisfies the second network satisfies the
first. -/
theorem random_nested_in_tightness (shape : RandomShape) (t₁ t₂ : Binary64)
    (h₁ : ({ shape with tightness := t₁ } : RandomShape).fault? = none)
    (h₂ : ({ shape with tightness := t₂ } : RandomShape).fault? = none)
    (hone₁ : t₁.value ≠ 1) (hone₂ : t₂.value ≠ 1)
    (hle : ⌊t₁.value * 2 ^ 64⌋ ≤ ⌊t₂.value * 2 ^ 64⌋) :
    ∃ net₁ net₂, random { shape with tightness := t₁ } = .ok net₁ ∧
      random { shape with tightness := t₂ } = .ok net₂ ∧
      net₂.constraints.toList.map ends = net₁.constraints.toList.map ends ∧
      List.Forall₂ (fun c₂ c₁ => c₂.tuples.Sublist c₁.tuples) net₂.constraints.toList
        net₁.constraints.toList ∧
      ∀ assignment, net₂.isSatisfiedBy assignment = true →
        net₁.isSatisfiedBy assignment = true := by
  have hcertain {t : Binary64} (hne : t.value ≠ 1) : t.isOne = false :=
    Bool.eq_false_iff.2 fun hone => hne (Binary64.value_eq_one_of_isOne hone)
  have hwords : t₁.wordsBelow ≤ t₂.wordsBelow := by
    rw [← Binary64.wordsBelow_eq_floor (RandomShape.isProbability_of_fault? h₁),
      ← Binary64.wordsBelow_eq_floor (RandomShape.isProbability_of_fault? h₂)] at hle
    exact Int.ofNat_le.1 hle
  -- both runs start from the stream of the one seed
  obtain ⟨net₁, hnet₁, hbounds₁, hconstraints₁⟩ :=
    exists_randomFrom h₁ (KeyStream.ofSeed shape.seed)
  obtain ⟨net₂, hnet₂, hbounds₂, hconstraints₂⟩ :=
    exists_randomFrom h₂ (KeyStream.ofSeed shape.seed)
  have hnested : List.Forall₂ Nested net₂.constraints.toList net₁.constraints.toList := by
    rw [hconstraints₁, hconstraints₂]
    exact nested_drawConstraints (hcertain hone₁) (hcertain hone₂) hwords _ _
  refine ⟨net₁, net₂, hnet₁, hnet₂, ends_eq_of_nested hnested, hnested.imp fun _ _ h => h.2, ?_⟩
  intro assignment hsatisfied
  obtain ⟨hlength, hbetween, hall⟩ :=
    (isSatisfiedBy_puzzle_iff hbounds₂ rfl assignment).1 hsatisfied
  exact (isSatisfiedBy_puzzle_iff hbounds₁ rfl assignment).2
    ⟨hlength, hbetween, satisfies_of_nested hnested hall⟩

/-- A network that forbids half of the pairs is nested in one that forbids three tenths of them. -/
theorem random_half_nested_in_standard :
    (({ RandomShape.standard with tightness := Binary64.nearest false 3 10 } :
        RandomShape).fault? = none ∧
      ({ RandomShape.standard with tightness := Binary64.nearest false 1 2 } :
        RandomShape).fault? = none ∧
      (Binary64.nearest false 3 10).value ≠ 1 ∧ (Binary64.nearest false 1 2).value ≠ 1 ∧
      ⌊(Binary64.nearest false 3 10).value * 2 ^ 64⌋ ≤
        ⌊(Binary64.nearest false 1 2).value * 2 ^ 64⌋) ∧
    ∃ net₁ net₂, random RandomShape.standard = .ok net₁ ∧
      random { RandomShape.standard with tightness := Binary64.nearest false 1 2 } = .ok net₂ ∧
      ∀ assignment, net₂.isSatisfiedBy assignment = true →
        net₁.isSatisfiedBy assignment = true := by
  have h₁ : ({ RandomShape.standard with tightness := Binary64.nearest false 3 10 } :
      RandomShape).fault? = none := by decide +kernel
  have h₂ : ({ RandomShape.standard with tightness := Binary64.nearest false 1 2 } :
      RandomShape).fault? = none := by decide +kernel
  have hone₁ : (Binary64.nearest false 3 10).value ≠ 1 := by decide +kernel
  have hone₂ : (Binary64.nearest false 1 2).value ≠ 1 := by decide +kernel
  have hle : ⌊(Binary64.nearest false 3 10).value * 2 ^ 64⌋ ≤
      ⌊(Binary64.nearest false 1 2).value * 2 ^ 64⌋ := by decide +kernel
  obtain ⟨net₁, net₂, hnet₁, hnet₂, _, _, hsatisfied⟩ :=
    random_nested_in_tightness RandomShape.standard _ _ h₁ h₂ hone₁ hone₂ hle
  exact ⟨⟨h₁, h₂, hone₁, hone₂, hle⟩, net₁, net₂, hnet₁, hnet₂, hsatisfied⟩

end Puzzle

end ConstraintNet
