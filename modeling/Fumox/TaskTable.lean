import Mathlib

/-!
Tables of tasks that move one at a time.  What a protocol accounts for is a sum over its tasks of
what each of them holds, and a step of one task changes the sum by what that task takes and gives.
-/

namespace TaskTable

variable {α β M : Type*} [AddCommMonoid M] {l : List α} {a b : α} {i j : ℕ}

/-- What the tasks hold together. -/
def total (g : α → M) (l : List α) : M :=
  (l.map g).sum

theorem exists_split (h : l[i]? = some a) :
    ∃ before after, before.length = i ∧ l = before ++ a :: after ∧
      ∀ b, l.set i b = before ++ b :: after := by
  obtain ⟨hi, rfl⟩ := List.getElem?_eq_some_iff.mp h
  refine ⟨l.take i, l.drop (i + 1), List.length_take_of_le hi.le, ?_, fun b => ?_⟩
  · rw [List.getElem_cons_drop, List.take_append_drop]
  · rw [List.set_eq_take_append_cons_drop, if_pos hi]

@[simp] theorem total_nil (g : α → M) : total g [] = 0 :=
  rfl

theorem total_cons (g : α → M) (a : α) (l : List α) : total g (a :: l) = g a + total g l :=
  List.sum_cons

theorem total_append (g : α → M) (l l' : List α) : total g (l ++ l') = total g l + total g l' := by
  rw [total, List.map_append, List.sum_append]
  rfl

/-- A task that starts brings what it holds. -/
theorem total_concat (g : α → M) (l : List α) (a : α) : total g (l ++ [a]) = total g l + g a := by
  rw [total_append, total_cons, total_nil, add_zero]

/-- A task that moves gives what it held and takes what it holds. -/
theorem total_set (g : α → M) (h : l[i]? = some a) (b : α) :
    total g (l.set i b) + g a = total g l + g b := by
  obtain ⟨before, after, -, rfl, hset⟩ := exists_split h
  rw [hset, total_append, total_append, total_cons, total_cons]
  abel

theorem mem_total {g : α → Multiset β} {x : β} : x ∈ total g l ↔ ∃ a ∈ l, x ∈ g a := by
  induction l with
  | nil => simp
  | cons a l ih => simp [total_cons, ih]

theorem index_unique {g : α → Multiset β} {x : β} (h : (total g l).Nodup) (hi : l[i]? = some a)
    (hj : l[j]? = some b) (hx : x ∈ g a) (hy : x ∈ g b) : i = j := by
  obtain ⟨before, after, rfl, rfl, -⟩ := exists_split hi
  rw [total_append, total_cons, Multiset.nodup_add, Multiset.nodup_add] at h
  obtain ⟨-, ⟨-, -, hafter⟩, hbefore⟩ := h
  rcases lt_trichotomy before.length j with hlt | heq | hgt
  · rw [List.getElem?_append_right hlt.le, List.getElem?_cons,
      if_neg (Nat.sub_ne_zero_of_lt hlt)] at hj
    exact absurd (mem_total.mpr ⟨b, List.mem_of_getElem? hj, hy⟩)
      (Multiset.disjoint_left.mp hafter hx)
  · exact heq
  · rw [List.getElem?_append_left hgt] at hj
    exact absurd (Multiset.mem_add.mpr (.inl hx))
      (Multiset.disjoint_left.mp hbefore (mem_total.mpr ⟨b, List.mem_of_getElem? hj, hy⟩))

theorem total_eq_zero {g : α → ℕ} : total g l = 0 ↔ ∀ a ∈ l, g a = 0 := by
  rw [total, List.sum_eq_zero_iff]
  simp

end TaskTable
