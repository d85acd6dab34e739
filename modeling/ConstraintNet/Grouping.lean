/-
  ConstraintNet.Grouping
  ──────────────────────
  **LISTS WITHOUT REPETITION, AND LISTS BY KEY.**

  Two ways to look at a list that keep the order of what is left:
  `distinct` keeps the first occurrence of every member, and `byKey` files
  the entries of a list under their keys.  Both consult a search tree and not
  the list itself, so long lists are no obstacle.

      a ∈ distinct cmp l               ↔  a ∈ l
      l.Nodup                          →  distinct cmp l = l
      (byKey cmp entries).getD k []    =  the values of the entries with key k
-/
import Std.Data.TreeMap
import Std.Data.TreeSet

namespace ConstraintNet.Grouping

/-! ## §1. First occurrences. -/

/-- The first occurrences of the members that were not seen before. -/
def distinctFrom {α : Type} {cmp : α → α → Ordering} (seen : Std.TreeSet α cmp) :
    List α → List α
  | [] => []
  | a :: rest =>
    if seen.contains a then distinctFrom seen rest else a :: distinctFrom (seen.insert a) rest

/-- Whether every member comes before the next one. -/
def ascends {α : Type} (cmp : α → α → Ordering) : List α → Bool
  | [] => true
  | [_] => true
  | a :: b :: rest => cmp a b == .lt && ascends cmp (b :: rest)

/-- The members of a list, each once, in the order in which they first occur. An ascending list
has no repetition and needs no search tree. -/
def distinct {α : Type} (cmp : α → α → Ordering) (l : List α) : List α :=
  if ascends cmp l then l else distinctFrom (∅ : Std.TreeSet α cmp) l

/-- What is kept are the members that were not seen before. -/
theorem mem_distinctFrom {α : Type} {cmp : α → α → Ordering} [Std.TransCmp cmp]
    [Std.LawfulEqCmp cmp] {l : List α} {seen : Std.TreeSet α cmp} {a : α} :
    a ∈ distinctFrom seen l ↔ a ∈ l ∧ seen.contains a = false := by
  induction l generalizing seen with
  | nil => simp [distinctFrom]
  | cons b rest ih =>
    unfold distinctFrom
    split
    · next hb =>
      rw [ih, List.mem_cons]
      constructor
      · exact fun h => ⟨Or.inr h.1, h.2⟩
      · rintro ⟨rfl | h, hs⟩
        · simp [hb] at hs
        · exact ⟨h, hs⟩
    · next hb =>
      rw [List.mem_cons, ih, List.mem_cons, Std.TreeSet.contains_insert, Bool.or_eq_false_iff,
        beq_eq_false_iff_ne]
      constructor
      · rintro (rfl | ⟨h, _, hs⟩)
        · exact ⟨Or.inl rfl, eq_false_of_ne_true hb⟩
        · exact ⟨Or.inr h, hs⟩
      -- a later member is `b` again or was not seen before `b` either
      · rintro ⟨rfl | h, hs⟩
        · exact Or.inl rfl
        · by_cases hba : cmp b a = .eq
          · exact Or.inl (Std.LawfulEqCmp.eq_of_compare hba).symm
          · exact Or.inr ⟨h, hba, hs⟩

/-- No member is kept twice. -/
theorem nodup_distinctFrom {α : Type} {cmp : α → α → Ordering} [Std.TransCmp cmp]
    [Std.LawfulEqCmp cmp] (l : List α) (seen : Std.TreeSet α cmp) :
    (distinctFrom seen l).Nodup := by
  induction l generalizing seen with
  | nil => exact List.nodup_nil
  | cons b rest ih =>
    unfold distinctFrom
    split
    · exact ih seen
    · refine List.nodup_cons.2 ⟨fun h => ?_, ih _⟩
      -- `b` was seen by the time that the rest is looked at
      have := (mem_distinctFrom.1 h).2
      simp at this

/-- A list of different members, none of which was seen, is kept as it is. -/
theorem distinctFrom_eq_self {α : Type} {cmp : α → α → Ordering} [Std.TransCmp cmp]
    [Std.LawfulEqCmp cmp] {l : List α} (h : l.Nodup) {seen : Std.TreeSet α cmp}
    (hseen : ∀ a ∈ l, seen.contains a = false) : distinctFrom seen l = l := by
  induction l generalizing seen with
  | nil => rfl
  | cons b rest ih =>
    have hb := List.nodup_cons.1 h
    unfold distinctFrom
    rw [if_neg (by simp [hseen b List.mem_cons_self]), ih hb.2]
    intro a ha
    rw [Std.TreeSet.contains_insert, hseen a (List.mem_cons_of_mem b ha), Bool.or_false,
      beq_eq_false_iff_ne]
    -- `b` does not come again
    exact fun hba => hb.1 (Std.LawfulEqCmp.eq_of_compare hba ▸ ha)

/-- A list that ascends from each member to the next one ascends throughout. -/
theorem pairwise_of_ascends {α : Type} {cmp : α → α → Ordering} [Std.TransCmp cmp] {l : List α}
    (h : ascends cmp l = true) : l.Pairwise fun a b => cmp a b = .lt := by
  fun_induction ascends cmp l with
  | case1 => exact List.Pairwise.nil
  | case2 a => exact List.pairwise_singleton _ a
  | case3 a b rest ih =>
    rw [Bool.and_eq_true, beq_iff_eq] at h
    have hrest := ih h.2
    refine List.pairwise_cons.2 ⟨fun c hc => ?_, hrest⟩
    rcases List.mem_cons.1 hc with rfl | hc
    · exact h.1
    · exact Std.TransCmp.lt_trans h.1 ((List.pairwise_cons.1 hrest).1 c hc)

/-- A list that ascends repeats nothing. -/
theorem nodup_of_ascends {α : Type} {cmp : α → α → Ordering} [Std.TransCmp cmp]
    [Std.LawfulEqCmp cmp] {l : List α} (h : ascends cmp l = true) : l.Nodup :=
  (pairwise_of_ascends h).imp fun {a b} hlt hab => by
    subst hab
    simp [Std.ReflCmp.compare_self] at hlt

/-- The short cut for lists that ascend gives what the walk through the list would give. -/
theorem distinct_eq_distinctFrom {α : Type} {cmp : α → α → Ordering} [Std.TransCmp cmp]
    [Std.LawfulEqCmp cmp] (l : List α) :
    distinct cmp l = distinctFrom (∅ : Std.TreeSet α cmp) l := by
  unfold distinct
  split
  · next h => exact (distinctFrom_eq_self (nodup_of_ascends h) (by simp)).symm
  · rfl

/-- First occurrences have the members of the list. -/
@[simp] theorem mem_distinct {α : Type} {cmp : α → α → Ordering} [Std.TransCmp cmp]
    [Std.LawfulEqCmp cmp] {l : List α} {a : α} : a ∈ distinct cmp l ↔ a ∈ l := by
  simp [distinct_eq_distinctFrom, mem_distinctFrom]

/-- Each of them once. -/
theorem nodup_distinct {α : Type} {cmp : α → α → Ordering} [Std.TransCmp cmp]
    [Std.LawfulEqCmp cmp] (l : List α) : (distinct cmp l).Nodup :=
  by rw [distinct_eq_distinctFrom]; exact nodup_distinctFrom l ∅

/-- Without repetition all of them stay. -/
theorem distinct_of_nodup {α : Type} {cmp : α → α → Ordering} [Std.TransCmp cmp]
    [Std.LawfulEqCmp cmp] {l : List α} (h : l.Nodup) : distinct cmp l = l :=
  (distinct_eq_distinctFrom l).trans (distinctFrom_eq_self h (by simp))

/-- Different images are kept where different members are. -/
theorem distinctFrom_map {α β : Type} {cmp : α → α → Ordering} {cmp' : β → β → Ordering}
    [Std.TransCmp cmp] [Std.LawfulEqCmp cmp] [Std.TransCmp cmp'] [Std.LawfulEqCmp cmp']
    {f : α → β} (hf : Function.Injective f) (l : List α) {seen : Std.TreeSet α cmp}
    {seen' : Std.TreeSet β cmp'} (hseen : ∀ a, seen'.contains (f a) = seen.contains a) :
    distinctFrom seen' (l.map f) = (distinctFrom seen l).map f := by
  induction l generalizing seen seen' with
  | nil => rfl
  | cons b rest ih =>
    rw [List.map_cons]
    unfold distinctFrom
    rw [hseen]
    split
    · exact ih hseen
    · rw [List.map_cons]
      refine congrArg (f b :: ·) (ih fun a => ?_)
      rw [Std.TreeSet.contains_insert, Std.TreeSet.contains_insert, hseen]
      refine congrArg (· || seen.contains a) ?_
      rw [Bool.eq_iff_iff, beq_iff_eq, beq_iff_eq, Std.LawfulEqCmp.compare_eq_iff_eq,
        Std.LawfulEqCmp.compare_eq_iff_eq]
      exact hf.eq_iff

/-- Members that are told apart before a map and after it are listed in the same places. -/
theorem distinct_map {α β : Type} {cmp : α → α → Ordering} {cmp' : β → β → Ordering}
    [Std.TransCmp cmp] [Std.LawfulEqCmp cmp] [Std.TransCmp cmp'] [Std.LawfulEqCmp cmp']
    {f : α → β} (hf : Function.Injective f) (l : List α) :
    distinct cmp' (l.map f) = (distinct cmp l).map f := by
  rw [distinct_eq_distinctFrom, distinct_eq_distinctFrom]
  exact distinctFrom_map hf l (by simp)

/-- In terms of the library: duplicates are erased from what was not seen before. -/
theorem distinctFrom_eq_eraseDups {α : Type} [BEq α] [LawfulBEq α] {cmp : α → α → Ordering}
    [Std.TransCmp cmp] [Std.LawfulEqCmp cmp] (seen : Std.TreeSet α cmp) (l : List α) :
    distinctFrom seen l = (l.filter fun a => !seen.contains a).eraseDups := by
  induction l generalizing seen with
  | nil => rfl
  | cons b rest ih =>
    unfold distinctFrom
    split
    · next hb => rw [List.filter_cons_of_neg (by simp [hb]), ih]
    · next hb =>
      rw [List.filter_cons_of_pos (by simp [hb]), List.eraseDups_cons, ih, List.filter_filter]
      -- to have been seen by now is to have been seen before or to be `b`
      refine congrArg (fun p => b :: (rest.filter p).eraseDups) (funext fun a => ?_)
      rw [Std.TreeSet.contains_insert, Bool.not_or]
      refine congrArg (!· && !seen.contains a) ?_
      rw [Bool.eq_iff_iff, beq_iff_eq, beq_iff_eq, Std.LawfulEqCmp.compare_eq_iff_eq]
      exact eq_comm

/-- No search tree is needed to say what the first occurrences are. -/
theorem distinct_eq_eraseDups {α : Type} [BEq α] [LawfulBEq α] {cmp : α → α → Ordering}
    [Std.TransCmp cmp] [Std.LawfulEqCmp cmp] (l : List α) : distinct cmp l = l.eraseDups := by
  have hnone : (l.filter fun a => !(∅ : Std.TreeSet α cmp).contains a) = l :=
    List.filter_eq_self.2 (by simp)
  rw [distinct_eq_distinctFrom, distinctFrom_eq_eraseDups, hnone]

/-! ## §2. Entries by key. -/

/-- The values of the entries under each key that occurs, in the order of the list. -/
def byKey {κ α : Type} (cmp : κ → κ → Ordering) (entries : List (κ × α)) :
    Std.TreeMap κ (List α) cmp :=
  entries.foldr (fun entry groups =>
    groups.insert entry.1 (entry.2 :: groups.getD entry.1 [])) ∅

/-- Under a key stand the values of its entries, in their order, and a key without entries does not
occur. -/
theorem getElem?_byKey {κ α : Type} [DecidableEq κ] {cmp : κ → κ → Ordering} [Std.TransCmp cmp]
    [Std.LawfulEqCmp cmp] (entries : List (κ × α)) (k : κ) :
    (byKey cmp entries)[k]? =
      match (entries.filter fun entry => entry.1 = k).map Prod.snd with
      | [] => none
      | values => some values := by
  induction entries with
  | nil => simp [byKey]
  | cons entry rest ih =>
    have hstep : byKey cmp (entry :: rest) =
        (byKey cmp rest).insert entry.1 (entry.2 :: (byKey cmp rest).getD entry.1 []) := rfl
    rw [hstep, Std.TreeMap.getElem?_insert]
    by_cases hk : entry.1 = k
    -- the entry joins the values that the rest has under the same key
    · subst hk
      have hrest : (byKey cmp rest).getD entry.1 [] =
          (rest.filter fun e => e.1 = entry.1).map Prod.snd := by
        rw [Std.TreeMap.getD_eq_getD_getElem?, ih]
        split
        · next h => exact h.symm
        · rfl
      simp [hrest]
    · have hne : cmp entry.1 k ≠ .eq := fun h => hk (Std.LawfulEqCmp.eq_of_compare h)
      simp [hne, hk, ih]

/-- The same, with the empty list for a key without entries. -/
theorem getD_byKey {κ α : Type} [DecidableEq κ] {cmp : κ → κ → Ordering} [Std.TransCmp cmp]
    [Std.LawfulEqCmp cmp] (entries : List (κ × α)) (k : κ) :
    (byKey cmp entries).getD k [] = (entries.filter fun entry => entry.1 = k).map Prod.snd := by
  rw [Std.TreeMap.getD_eq_getD_getElem?, getElem?_byKey]
  split
  · next h => simp [h]
  · rfl

end ConstraintNet.Grouping
