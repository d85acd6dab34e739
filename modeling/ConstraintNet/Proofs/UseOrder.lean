/-
  ConstraintNet.Proofs.UseOrder
  ─────────────────────────────
  **THE TABLE DOES NOT DEPEND ON THE ORDER OF THE USES.**

  Every use of a constraint goes into the tally of that constraint, and a
  tally only adds.  So the tallies after a list of uses say for each constraint
  how often it occurs in the list and what its uses pruned together
  (`getD_record`), and the same uses in another order leave the same tallies
  (`tallies_record_eq_of_perm`).  Totals and table are made from the tallies.

  Nor does the table depend on the order in which the tallies are listed before
  they are ranked: no two of them are those of one constraint, so of any two one
  always stands before the other (`Outranks`), and a single ranking is possible
  (`eq_ranking`).

  Main result: `Statistics.table_ignores_use_order`.
-/
import Mathlib.Data.List.Forall2
import ConstraintNet.Proofs.Lookups
import ConstraintNet.Statistics.Table

namespace ConstraintNet

/-- An entry stands before another one: it pruned more, or as much and its constraint comes first in
the network. -/
def Outranks (x y : Nat × Tally) : Prop :=
  y.2.prunings < x.2.prunings ∨ (x.2.prunings = y.2.prunings ∧ x.1 < y.1)

/-- The test on two entries in terms of their prunings and positions. -/
theorem tallyBefore_iff {x y : Nat × Tally} : tallyBefore x y = true ↔
    y.2.prunings < x.2.prunings ∨ (x.2.prunings = y.2.prunings ∧ x.1 ≤ y.1) := by
  simp [tallyBefore]

/-- Of entries of different constraints, the one that the test puts first outranks the other. -/
theorem outranks_of_tallyBefore {x y : Nat × Tally} (h : tallyBefore x y = true)
    (hne : x.1 ≠ y.1) : Outranks x y := by
  rw [tallyBefore_iff] at h
  unfold Outranks
  omega

/-- Only entries of one constraint may stand either way. -/
theorem id_eq_of_tallyBefore {x y : Nat × Tally} (h : tallyBefore x y = true)
    (h' : tallyBefore y x = true) : x.1 = y.1 := by
  rw [tallyBefore_iff] at h h'
  omega

namespace Statistics

variable {stats : Statistics} {uses uses' : List (ConstraintId × Nat)}

/-! ## §1. The tallies of a list of uses. -/

/-- How often a constraint is used in the list, and how many values its uses pruned together. -/
def tallyOf (uses : List (ConstraintId × Nat)) (id : ConstraintId) : Tally :=
  ⟨(uses.filter fun use => use.1 = id).length, total Prod.snd (uses.filter fun use => use.1 = id)⟩

/-- How often a constraint is used does not depend on when. -/
theorem tallyOf_eq_of_perm (h : uses.Perm uses') (id : ConstraintId) :
    tallyOf uses id = tallyOf uses' id := by
  have hown := h.filter fun use => decide (use.1 = id)
  unfold tallyOf
  rw [hown.length_eq, total_eq_of_perm Prod.snd hown]

/-- One use adds to the tally of its constraint and to no other. -/
theorem getD_recordUse (stats : Statistics) (used : ConstraintId) (pruned : Nat)
    (id : ConstraintId) :
    (stats.recordUse used pruned).byConstraint.getD id ⟨0, 0⟩ =
      if used = id then
        ⟨(stats.byConstraint.getD id ⟨0, 0⟩).revisions + 1,
          (stats.byConstraint.getD id ⟨0, 0⟩).prunings + pruned⟩
      else stats.byConstraint.getD id ⟨0, 0⟩ := by
  unfold recordUse
  simp only [Std.TreeMap.getD_insert, Std.compare_eq_iff_eq]
  split
  next h => rw [h]
  next => rfl

/-- **A tally grows by the uses of its constraint.** -/
theorem getD_record (stats : Statistics) (uses : List (ConstraintId × Nat)) (id : ConstraintId) :
    (stats.record uses).byConstraint.getD id ⟨0, 0⟩ =
      ⟨(stats.byConstraint.getD id ⟨0, 0⟩).revisions + (tallyOf uses id).revisions,
        (stats.byConstraint.getD id ⟨0, 0⟩).prunings + (tallyOf uses id).prunings⟩ := by
  induction uses generalizing stats with
  | nil => rfl
  | cons use rest ih =>
    show ((stats.recordUse use.1 use.2).record rest).byConstraint.getD id ⟨0, 0⟩ = _
    rw [ih, getD_recordUse]
    unfold tallyOf
    by_cases huse : use.1 = id
    · rw [if_pos huse, List.filter_cons_of_pos (by simpa using huse), List.length_cons, total_cons,
        Tally.mk.injEq]
      dsimp only
      omega
    · rw [if_neg huse, List.filter_cons_of_neg (by simpa using huse)]

/-- A constraint has an entry when it had one before or is used, with both counts added. -/
theorem getElem?_record (stats : Statistics) (uses : List (ConstraintId × Nat))
    (id : ConstraintId) :
    (stats.record uses).byConstraint[id]? =
      if id ∈ stats.byConstraint ∨ id ∈ uses.map Prod.fst then
        some ⟨(stats.byConstraint.getD id ⟨0, 0⟩).revisions + (tallyOf uses id).revisions,
          (stats.byConstraint.getD id ⟨0, 0⟩).prunings + (tallyOf uses id).prunings⟩
      else none := by
  split
  next h =>
    rw [Std.TreeMap.getElem?_eq_some_getD (mem_byConstraint_record.2 h), getD_record]
  next h => exact Std.TreeMap.getElem?_eq_none fun hmem => h (mem_byConstraint_record.1 hmem)

/-- **Uses in another order leave the same tallies.** -/
theorem tallies_record_eq_of_perm (stats : Statistics) (h : uses.Perm uses') :
    (stats.record uses).tallies = (stats.record uses').tallies := by
  apply Std.TreeMap.Equiv.toList_eq
  apply Std.TreeMap.Equiv.of_forall_constGet?_eq
  intro id
  have hmem : id ∈ uses.map Prod.fst ↔ id ∈ uses'.map Prod.fst := (h.map Prod.fst).mem_iff
  rw [getElem?_record, getElem?_record, tallyOf_eq_of_perm h]
  simp only [hmem]

/-! ## §2. Counts that can be kept. -/

/-- Counts can be kept when no constraint has pruned too much, where one without an entry has pruned
nothing. -/
theorem talliesFit_iff : stats.talliesFit = true ↔
    ∀ id, (stats.byConstraint.getD id ⟨0, 0⟩).prunings < countLimit := by
  unfold talliesFit tallies
  simp only [List.all_eq_true, decide_eq_true_eq, Prod.forall,
    Std.TreeMap.mem_toList_iff_getElem?_eq_some]
  constructor
  · intro h id
    rw [Std.TreeMap.getD_eq_getD_getElem?]
    cases htally : stats.byConstraint[id]? with
    | none => decide
    | some tally => exact h id tally htally
  · intro h id tally htally
    have hid := h id
    rw [Std.TreeMap.getD_eq_getD_getElem?, htally] at hid
    exact hid

/-- Counts that can be kept at the end could be kept all along. -/
theorem talliesFit_of_record (h : (stats.record uses).talliesFit = true) :
    stats.talliesFit = true := by
  rw [talliesFit_iff] at h ⊢
  intro id
  have hid := h id
  rw [getD_record] at hid
  exact Nat.lt_of_le_of_lt (Nat.le_add_right _ _) hid

/-- So it is enough to look at the end. -/
theorem talliesFit_all_along_iff : (∀ before, before <+: uses →
    (stats.record before).talliesFit = true) ↔ (stats.record uses).talliesFit = true := by
  constructor
  · intro h
    exact h uses (List.prefix_refl uses)
  · intro h before hbefore
    obtain ⟨rest, rfl⟩ := hbefore
    unfold record at h
    rw [List.foldl_append] at h
    exact talliesFit_of_record h

/-! ## §3. The ranking. -/

/-- The ranking has the tallies, in another order. -/
theorem ranking_perm (stats : Statistics) : stats.ranking.Perm stats.tallies :=
  List.mergeSort_perm _ _

/-- No two tallies are those of one constraint. -/
theorem ids_ne_of_perm {entries : List (ConstraintId × Tally)} (h : entries.Perm stats.tallies) :
    entries.Pairwise fun x y => x.1 ≠ y.1 := by
  have htallies : stats.tallies.Pairwise fun x y => x.1 ≠ y.1 :=
    Std.TreeMap.distinct_keys_toList.imp fun hne heq => hne (Std.compare_eq_iff_eq.2 heq)
  exact (h.pairwise_iff fun hne => Ne.symm hne).2 htallies

/-- Every entry is the one that stands under its constraint. -/
theorem getElem?_of_mem_perm {entries : List (ConstraintId × Tally)}
    (h : entries.Perm stats.tallies) {x : ConstraintId × Tally} (hx : x ∈ entries) :
    stats.byConstraint[x.1]? = some x.2 :=
  Std.TreeMap.mem_toList_iff_getElem?_eq_some.1 (h.subset hx)

/-- The test on entries is total and transitive, so sorting puts them in its order. -/
theorem pairwise_mergeSort_tallyBefore (entries : List (ConstraintId × Tally)) :
    (entries.mergeSort tallyBefore).Pairwise fun x y => tallyBefore x y = true := by
  apply List.pairwise_mergeSort
  · intro x y z hxy hyz
    rw [tallyBefore_iff] at *
    omega
  · intro x y
    rw [Bool.or_eq_true, tallyBefore_iff, tallyBefore_iff]
    omega

/-- **Of any two entries the first stands before the second.** -/
theorem pairwise_outranks (stats : Statistics) : stats.ranking.Pairwise Outranks := by
  have hsorted := pairwise_mergeSort_tallyBefore stats.tallies
  refine (hsorted.and (ids_ne_of_perm stats.ranking_perm)).imp ?_
  intro x y h
  obtain ⟨hbefore, hne⟩ := h
  exact outranks_of_tallyBefore hbefore hne

/-- **There is one ranking.** In whatever order the tallies are listed, sorting them ends there. -/
theorem eq_ranking {entries : List (ConstraintId × Tally)} (hperm : entries.Perm stats.tallies)
    (hsorted : entries.Pairwise fun x y => tallyBefore x y = true) : entries = stats.ranking := by
  have hranked := hperm.trans stats.ranking_perm.symm
  refine hranked.eq_of_pairwise ?_ hsorted (pairwise_mergeSort_tallyBefore stats.tallies)
  intro x y hx hy hxy hyx
  have hid : x.1 = y.1 := id_eq_of_tallyBefore hxy hyx
  have hx := getElem?_of_mem_perm hperm hx
  have hy := getElem?_of_mem_perm stats.ranking_perm hy
  -- entries of one constraint have one tally
  rw [hid, hy] at hx
  exact Prod.ext hid (Option.some.inj hx).symm

/-! ## §4. The table. -/

/-- The entries that a table has for a list of uses: one for each constraint that is used, with the
tally of its uses, in the order of the table. -/
structure Ranks (uses : List (ConstraintId × Nat)) (entries : List (ConstraintId × Tally)) :
    Prop where
  one_each : (entries.map Prod.fst).Nodup
  mem_iff : ∀ id, id ∈ entries.map Prod.fst ↔ id ∈ uses.map Prod.fst
  tally_eq : ∀ entry ∈ entries, entry.2 = tallyOf uses entry.1
  ordered : entries.Pairwise Outranks

/-- **The ranking from the beginning** has the tallies of the uses and nothing else, in the order of
the table. -/
theorem ranks_ranking (uses : List (ConstraintId × Nat)) :
    Ranks uses (zero.record uses).ranking := by
  have hperm := (zero.record uses).ranking_perm
  refine ⟨List.pairwise_map.2 (ids_ne_of_perm hperm), fun id => ?_, ?_, pairwise_outranks _⟩
  · rw [(hperm.map Prod.fst).mem_iff, tallies, Std.TreeMap.map_fst_toList_eq_keys,
      Std.TreeMap.mem_keys, mem_byConstraint_record]
    exact or_iff_right Std.TreeMap.not_mem_emptyc
  · intro entry hentry
    have hgetD : (zero.record uses).byConstraint.getD entry.1 ⟨0, 0⟩ = entry.2 := by
      rw [Std.TreeMap.getD_eq_getD_getElem?, getElem?_of_mem_perm hperm hentry]
      rfl
    have hzero : zero.byConstraint.getD entry.1 ⟨0, 0⟩ = ⟨0, 0⟩ := Std.TreeMap.getD_emptyc
    rw [← hgetD, getD_record, hzero]
    simp

/-- A row shows an entry: the kind of its constraint, the position and the pairs of that constraint
in the network, how often it was used, how many values its uses pruned together, and how many to a
use. -/
def ShowsEntry (net : Network) (entry : ConstraintId × Tally) (row : List String) : Prop :=
  ∃ c, net.constraints[entry.1]? = some c ∧
    row = [Constraint.kind, toString entry.1, c.description, toString entry.2.revisions,
      toString entry.2.prunings, ratioText entry.2.prunings entry.2.revisions]

/-- The row that is made of an entry shows it. -/
theorem showsEntry_of_tableRow? {net : Network} {entry : ConstraintId × Tally} {row : List String}
    (h : tableRow? net entry = some row) : ShowsEntry net entry row := by
  obtain ⟨c, hc, rfl⟩ := Option.map_eq_some_iff.1 h
  exact ⟨c, hc, rfl⟩

/-- When all constraints that were used are those of the network, the table shows the ranking, entry
by entry. -/
theorem exists_shown_rows {net : Network}
    (hknown : ∀ id, id ∈ stats.byConstraint → id < net.constraints.size) :
    ∃ rows, stats.ranking.map (tableRow? net) = rows.map some ∧
      List.Forall₂ (ShowsEntry net) stats.ranking rows ∧
      stats.table? net = some (Layout.layout (tableHeader :: rows)) := by
  obtain ⟨rows, hrows, htable⟩ := (exists_rows hknown).2
  refine ⟨rows, hrows, ?_, htable⟩
  have hmade : List.Forall₂ Eq (stats.ranking.map (tableRow? net)) (rows.map some) := by
    rw [hrows, List.forall₂_eq_eq_eq]
  rw [List.forall₂_map_left_iff, List.forall₂_map_right_iff] at hmade
  exact hmade.imp fun _ _ => showsEntry_of_tableRow?

/-- **The table does not depend on the order of the uses.** The same uses of constraints of the
network, recorded in two orders, lead to the same number of prunings and to the same table, whatever
was counted before. From the beginning, the table has one row below its header for each constraint
that was used, with the number of its uses and of the values that these pruned together, more
prunings first and, among equals, the smaller position first. Total and ranking come out the same in
whatever order the tallies are listed, and when no count gets too large to be kept in the one order
of the uses, none does in the other. -/
theorem table_ignores_use_order (net : Network) {uses uses' : List (ConstraintId × Nat)}
    (hperm : uses.Perm uses') (hknown : ∀ use ∈ uses, use.1 < net.constraints.size) :
    (∀ stats : Statistics,
      (stats.record uses).totalPrunings = (stats.record uses').totalPrunings ∧
      (stats.record uses).table? net = (stats.record uses').table? net) ∧
    Ranks uses (zero.record uses).ranking ∧
    (∃ rows, (zero.record uses).ranking.map (tableRow? net) = rows.map some ∧
      List.Forall₂ (ShowsEntry net) (zero.record uses).ranking rows ∧
      (zero.record uses).table? net = some (Layout.layout (tableHeader :: rows))) ∧
    (∀ listed : List (ConstraintId × Tally), listed.Perm (zero.record uses).tallies →
      total (fun entry => entry.2.prunings) listed = (zero.record uses).totalPrunings ∧
      listed.mergeSort tallyBefore = (zero.record uses).ranking) ∧
    ((∀ before, before <+: uses → (zero.record before).talliesFit = true) ↔
      ∀ before, before <+: uses' → (zero.record before).talliesFit = true) := by
  refine ⟨fun stats => ?_, ranks_ranking uses, ?_, fun listed hlisted => ⟨?_, ?_⟩, ?_⟩
  · have htallies := stats.tallies_record_eq_of_perm hperm
    unfold totalPrunings table? ranking
    rw [htallies]
    exact ⟨rfl, rfl⟩
  · refine exists_shown_rows fun id hid => ?_
    rcases mem_byConstraint_record.1 hid with hold | hnew
    · exact absurd hold Std.TreeMap.not_mem_emptyc
    · obtain ⟨use, huse, rfl⟩ := List.mem_map.1 hnew
      exact hknown use huse
  · exact total_eq_of_perm _ hlisted
  · exact eq_ranking ((List.mergeSort_perm listed tallyBefore).trans hlisted)
      (pairwise_mergeSort_tallyBefore listed)
  · rw [talliesFit_all_along_iff, talliesFit_all_along_iff]
    unfold talliesFit
    rw [zero.tallies_record_eq_of_perm hperm]

/-- The second of the two rising constraints prunes as much as the first in fewer uses; their rows
stand in the order of the network, whichever is used first. -/
theorem tied_rows_keep_network_order :
    (([(0, 1), (1, 2), (0, 1)] : List (ConstraintId × Nat)).Perm [(1, 2), (0, 1), (0, 1)] ∧
      ∀ use ∈ ([(0, 1), (1, 2), (0, 1)] : List (ConstraintId × Nat)),
        use.1 < ArcConsistency.rising.constraints.size) ∧
    (zero.record [(1, 2), (0, 1), (0, 1)]).totalPrunings = 4 ∧
    (zero.record [(0, 1), (1, 2), (0, 1)]).ranking = [(0, ⟨2, 2⟩), (1, ⟨1, 2⟩)] ∧
    (zero.record [(0, 1), (1, 2), (0, 1)]).table? ArcConsistency.rising =
      (zero.record [(1, 2), (0, 1), (0, 1)]).table? ArcConsistency.rising := by
  have hperm : ([(0, 1), (1, 2), (0, 1)] : List (ConstraintId × Nat)).Perm
      [(1, 2), (0, 1), (0, 1)] := List.Perm.swap _ _ _
  have hknown : ∀ use ∈ ([(0, 1), (1, 2), (0, 1)] : List (ConstraintId × Nat)),
      use.1 < ArcConsistency.rising.constraints.size := by
    decide
  obtain ⟨hsame, _⟩ := table_ignores_use_order ArcConsistency.rising hperm hknown
  obtain ⟨htotal, htable⟩ := hsame zero
  refine ⟨⟨hperm, hknown⟩, htotal.symm.trans ?_, ?_, htable⟩
  · rw [totalPrunings_record]
    rfl
  · have htallies : (zero.record [(0, 1), (1, 2), (0, 1)]).tallies =
        [(0, ⟨2, 2⟩), (1, ⟨1, 2⟩)] := by
      decide
    refine (eq_ranking (List.Perm.of_eq htallies.symm) ?_).symm
    decide

end Statistics

end ConstraintNet
