/-
  ConstraintNet.Domain
  ────────────────────
  **FINITE SETS OF VALUES.**

  A `Domain` is a finite set of values.  It is kept as a search tree whose
  shape cannot be told: two domains with the same members are equal
  (`Domain.ext`), and adding or removing a member or asking for the smallest
  or largest one takes a walk down the tree.  `values` lists the members in
  ascending order, and is what everything else about a domain is read off.

  The statements beside each operation say what it does to membership:

      v ∈ d.insert w  ↔  v = w ∨ v ∈ d
      v ∈ d.erase w   ↔  v ≠ w ∧ v ∈ d
      v ∈ d.filter p  ↔  v ∈ d ∧ p v
      v ∈ d.inter e   ↔  v ∈ d ∧ v ∈ e
-/
import ConstraintNet.Value
import Std.Data.ExtTreeSet

namespace ConstraintNet

/-- A finite set of values. -/
structure Domain where
  /-- The members, as a search tree. -/
  members : Std.ExtTreeSet Value

namespace Domain

instance : Membership Value Domain := ⟨fun d v => v ∈ d.members⟩

theorem mem_def {d : Domain} {v : Value} : v ∈ d ↔ v ∈ d.members := Iff.rfl

instance (v : Value) (d : Domain) : Decidable (v ∈ d) :=
  inferInstanceAs (Decidable (v ∈ d.members))

/-- Sets with the same members are equal. -/
theorem ext {d e : Domain} (h : ∀ v, v ∈ d ↔ v ∈ e) : d = e := by
  cases d; cases e
  exact congrArg Domain.mk (Std.ExtTreeSet.ext_mem h)

/-! ## §1. The members in order. -/

/-- The members, ascending. -/
def values (d : Domain) : List Value := d.members.toList

@[simp] theorem mem_values {d : Domain} {v : Value} : v ∈ d.values ↔ v ∈ d :=
  Std.ExtTreeSet.mem_toList

/-- Members are listed in ascending order. -/
theorem ascending (d : Domain) : d.values.Pairwise (· < ·) :=
  Std.ExtTreeSet.ordered_toList.imp Std.compare_eq_lt.1

/-- A set is determined by the list of its members. -/
theorem values_inj {d e : Domain} : d.values = e.values ↔ d = e := by
  refine ⟨fun h => ext fun v => ?_, fun h => h ▸ rfl⟩
  rw [← mem_values, h, mem_values]

instance : DecidableEq Domain := fun d e => decidable_of_iff (d.values = e.values) values_inj

/-- No member is listed twice. -/
theorem nodup (d : Domain) : d.values.Nodup :=
  d.ascending.imp fun h => Int32.ne_of_lt h

/-! ## §2. Sets with no, one, or some given members. -/

/-- The set without members. -/
def empty : Domain := ⟨∅⟩

instance : EmptyCollection Domain := ⟨empty⟩

instance : Inhabited Domain := ⟨empty⟩

@[simp] theorem not_mem_empty (v : Value) : v ∉ (∅ : Domain) := Std.ExtTreeSet.not_mem_empty

/-- The set of the listed values. -/
def ofList (values : List Value) : Domain := ⟨Std.ExtTreeSet.ofList values⟩

@[simp] theorem mem_ofList {v : Value} {values : List Value} : v ∈ ofList values ↔ v ∈ values := by
  simp [ofList, mem_def]

/-- The set with one member. -/
def singleton (v : Value) : Domain := ofList [v]

@[simp] theorem mem_singleton {v w : Value} : v ∈ singleton w ↔ v = w := by
  simp [singleton]

/-- Every value from `lower` to `upper`, both included. -/
def ofRange (lower upper : Value) : Domain := ofList (Value.range lower upper)

@[simp] theorem mem_ofRange {lower upper v : Value} :
    v ∈ ofRange lower upper ↔ lower ≤ v ∧ v ≤ upper := by
  rw [ofRange, mem_ofList, Value.mem_range]

/-! ## §3. What is in a set. -/

/-- The number of members. -/
def size (d : Domain) : Nat := d.members.size

/-- Whether there is no member. -/
def isEmpty (d : Domain) : Bool := d.members.isEmpty

/-- Whether `v` is a member. -/
def contains (d : Domain) (v : Value) : Bool := d.members.contains v

/-- The smallest member: the first one that a walk from below meets. -/
def min? (d : Domain) : Option Value :=
  match d.members.foldlM (fun (_ : Unit) v => (.error v : Except Value Unit)) () with
  | .error v => some v
  | .ok _ => none

/-- The largest member: the first one that a walk from above meets. -/
def max? (d : Domain) : Option Value :=
  match d.members.foldrM (fun v (_ : Unit) => (.error v : Except Value Unit)) () with
  | .error v => some v
  | .ok _ => none

/-- The only member of a set with one. -/
def only? (d : Domain) : Option Value := if d.size = 1 then d.min? else none

/-- The size is the number of members that are listed. -/
theorem length_values (d : Domain) : d.values.length = d.size := Std.ExtTreeSet.length_toList

@[simp] theorem contains_iff {d : Domain} {v : Value} : d.contains v = true ↔ v ∈ d := Iff.rfl

/-- Only the empty set has no members. -/
theorem size_eq_zero_iff {d : Domain} : d.size = 0 ↔ d.isEmpty = true := by
  simp [size, isEmpty, Std.ExtTreeSet.isEmpty_eq_size_beq_zero]

/-- The empty set is the one to which nothing belongs. -/
theorem isEmpty_eq_true_iff {d : Domain} : d.isEmpty = true ↔ ∀ v, v ∉ d := by
  rw [← size_eq_zero_iff, ← length_values, List.length_eq_zero_iff,
    List.eq_nil_iff_forall_not_mem]
  simp

/-- A set with a member is not of size zero. -/
theorem size_pos_of_mem {d : Domain} {v : Value} (h : v ∈ d) : 0 < d.size :=
  length_values d ▸ List.length_pos_of_mem (mem_values.2 h)

/-- The smallest member is listed first. -/
theorem min?_eq_head? (d : Domain) : d.min? = d.values.head? := by
  rw [min?, Std.ExtTreeSet.foldlM_eq_foldlM_toList, values]
  cases d.members.toList <;> rfl

/-- The greatest member is listed last. -/
theorem max?_eq_getLast? (d : Domain) : d.max? = d.values.getLast? := by
  rw [max?, Std.ExtTreeSet.foldrM_eq_foldrM_toList, ← List.foldlM_reverse,
    List.getLast?_eq_head?_reverse, values]
  cases d.members.toList.reverse <;> rfl

/-- The smallest member is a member. -/
theorem mem_of_min? {d : Domain} {v : Value} (h : d.min? = some v) : v ∈ d :=
  mem_values.1 (List.mem_of_head? (min?_eq_head? d ▸ h))

/-- The greatest member is a member. -/
theorem mem_of_max? {d : Domain} {v : Value} (h : d.max? = some v) : v ∈ d :=
  mem_values.1 (List.mem_of_getLast? (max?_eq_getLast? d ▸ h))

/-! ## §4. Adding and removing members. -/

/-- The set with `v` added. -/
def insert (v : Value) (d : Domain) : Domain := ⟨d.members.insert v⟩

@[simp] theorem mem_insert {v w : Value} {d : Domain} : v ∈ d.insert w ↔ v = w ∨ v ∈ d := by
  rw [mem_def, insert, Std.ExtTreeSet.mem_insert, Std.LawfulEqCmp.compare_eq_iff_eq, eq_comm,
    mem_def]

/-- The set with `v` taken away. -/
def erase (d : Domain) (v : Value) : Domain := ⟨d.members.erase v⟩

@[simp] theorem mem_erase {v w : Value} {d : Domain} : v ∈ d.erase w ↔ v ≠ w ∧ v ∈ d := by
  rw [mem_def, erase, Std.ExtTreeSet.mem_erase, ne_eq, Std.LawfulEqCmp.compare_eq_iff_eq,
    eq_comm (a := w), mem_def]

/-- The set with all listed values taken away. -/
def eraseAll (d : Domain) (removed : List Value) : Domain := removed.foldl erase d

@[simp] theorem mem_eraseAll {v : Value} {removed : List Value} {d : Domain} :
    v ∈ d.eraseAll removed ↔ v ∉ removed ∧ v ∈ d := by
  unfold eraseAll
  induction removed generalizing d with
  | nil => simp
  | cons w rest ih => grind [mem_erase]

/-- The members for which `keep` holds. What does not stay is taken away, since mostly everything
stays. -/
def filter (keep : Value → Bool) (d : Domain) : Domain :=
  d.eraseAll (d.values.filter fun v => !keep v)

@[simp] theorem mem_filter {keep : Value → Bool} {d : Domain} {v : Value} :
    v ∈ d.filter keep ↔ v ∈ d ∧ keep v = true := by
  rw [filter, mem_eraseAll, List.mem_filter]
  grind [mem_values]

/-- What is left after the rest was taken away is what a filter of the tree would keep. -/
theorem filter_eq (keep : Value → Bool) (d : Domain) :
    d.filter keep = ⟨d.members.filter keep⟩ := by
  refine ext fun v => mem_filter.trans ?_
  simp [mem_def]

/-- The members of a part are listed in the order that they had. -/
theorem values_filter (keep : Value → Bool) (d : Domain) :
    (d.filter keep).values = d.values.filter keep := by
  rw [filter_eq]
  exact Std.ExtTreeSet.toList_filter

/-- A part is not larger than the whole. -/
theorem size_filter_le (keep : Value → Bool) (d : Domain) : (d.filter keep).size ≤ d.size := by
  rw [← length_values, ← length_values, values_filter]
  exact List.length_filter_le _ _

/-- The members that both sets have. -/
def inter (d e : Domain) : Domain := d.filter e.contains

@[simp] theorem mem_inter {d e : Domain} {v : Value} : v ∈ d.inter e ↔ v ∈ d ∧ v ∈ e := by
  simp [inter]

end Domain

end ConstraintNet
