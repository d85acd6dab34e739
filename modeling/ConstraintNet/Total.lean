/-
  ConstraintNet.Total
  ───────────────────
  **TOTALS OF NATURAL NUMBERS OVER LISTS.**

  `total f l` adds `f a` over the members `a` of `l`.  The statements beside
  it say how the total follows the list and the function: one member bounds it
  from below (`le_total_of_mem`), one exchanged member changes it by the difference
  (`total_set`), a property divides it in two
  (`total_filter_add_total_filter_not`), and a function that is smaller
  everywhere, or smaller everywhere and strictly so somewhere, has a smaller
  total.
-/

namespace ConstraintNet

variable {α : Type} {f g : α → Nat} {l : List α}

/-- The sum of `f a` over the members `a` of a list, with repetitions. -/
def total (f : α → Nat) : List α → Nat
  | [] => 0
  | a :: l => f a + total f l

@[simp] theorem total_nil (f : α → Nat) : total f [] = 0 := rfl

@[simp] theorem total_cons (f : α → Nat) (a : α) (l : List α) :
    total f (a :: l) = f a + total f l := rfl

theorem total_map {β : Type} (f : α → Nat) (h : β → α) (l : List β) :
    total f (l.map h) = total (fun b => f (h b)) l := by
  induction l with
  | nil => rfl
  | cons b l ih => rw [List.map_cons, total_cons, total_cons, ih]

/-- Totals of two quantities add up. -/
theorem total_add (f g : α → Nat) (l : List α) :
    total (fun a => f a + g a) l = total f l + total g l := by
  induction l with
  | nil => rfl
  | cons a l ih =>
    rw [total_cons, total_cons, total_cons, ih, Nat.add_add_add_comm]

/-- The lists of all members together are as long as their lengths in total. -/
theorem length_flatMap {β : Type} (h : α → List β) (l : List α) :
    (l.flatMap h).length = total (fun a => (h a).length) l := by
  induction l with
  | nil => rfl
  | cons a l ih => rw [List.flatMap_cons, List.length_append, total_cons, ih]

/-- Each member contributes to the total. -/
theorem le_total_of_mem (f : α → Nat) {a : α} (h : a ∈ l) : f a ≤ total f l := by
  induction l with
  | nil => cases h
  | cons b l ih =>
    rw [total_cons]
    rcases List.mem_cons.1 h with rfl | h
    · omega
    · have := ih h
      omega

/-- The order does not matter. -/
theorem total_eq_of_perm (f : α → Nat) {l l' : List α} (h : l.Perm l') :
    total f l = total f l' := by
  induction h with
  | nil => rfl
  | cons a _ ih => rw [total_cons, total_cons, ih]
  | swap a b l => rw [total_cons, total_cons, total_cons, total_cons, Nat.add_left_comm]
  | trans _ _ ih ih' => exact ih.trans ih'

/-- A total has two parts, that of the members with a property and that of the others. -/
theorem total_filter_add_total_filter_not (f : α → Nat) (p : α → Bool) (l : List α) :
    total f (l.filter p) + total f (l.filter fun a => !p a) = total f l := by
  induction l with
  | nil => rfl
  | cons a l ih =>
    rw [List.filter_cons, List.filter_cons]
    cases p a with
    | true =>
      show f a + total f (l.filter p) + total f (l.filter fun a => !p a) = f a + total f l
      omega
    | false =>
      show total f (l.filter p) + (f a + total f (l.filter fun a => !p a)) = f a + total f l
      omega

/-- A member that is replaced gives its quantity for that of the new one. -/
theorem total_set (f : α → Nat) {i : Nat} {old : α} (new : α) (h : l[i]? = some old) :
    total f (l.set i new) + f old = total f l + f new := by
  induction l generalizing i with
  | nil => simp at h
  | cons a l ih =>
    cases i with
    | zero =>
      obtain rfl : a = old := by simpa using h
      simp only [List.set_cons_zero, total_cons]
      omega
    | succ i =>
      have := ih (i := i) (by simpa using h)
      simp only [List.set_cons_succ, total_cons]
      omega

/-- Where no quantity is larger, the total is not. -/
theorem total_le_total (h : ∀ a ∈ l, f a ≤ g a) : total f l ≤ total g l := by
  induction l with
  | nil => exact Nat.le_refl _
  | cons a l ih =>
    have hhead := h a List.mem_cons_self
    have htail := ih fun b hb => h b (List.mem_cons_of_mem a hb)
    simp only [total_cons]
    omega

/-- A function that is smaller everywhere, and by `d` somewhere, has a total that is smaller by
`d`. -/
theorem total_add_le_total (h : ∀ a ∈ l, f a ≤ g a) {b : α} (hb : b ∈ l) {d : Nat}
    (hd : f b + d ≤ g b) : total f l + d ≤ total g l := by
  induction l with
  | nil => cases hb
  | cons a l ih =>
    have hhead := h a List.mem_cons_self
    have htail : ∀ a' ∈ l, f a' ≤ g a' := fun a' ha' => h a' (List.mem_cons_of_mem a ha')
    simp only [total_cons]
    rcases List.mem_cons.1 hb with rfl | hb
    · have := total_le_total htail
      omega
    · have := ih htail hb
      omega

/-- Where one is smaller besides, so is the total. -/
theorem total_lt_total (h : ∀ a ∈ l, f a ≤ g a) {b : α} (hb : b ∈ l) (hlt : f b < g b) :
    total f l < total g l :=
  total_add_le_total (d := 1) h hb hlt

end ConstraintNet
