import Mathlib

/-!
Pages of a list, and the `LIKE` operator of SQL: `%` stands for any text, `_` for one character,
and letters agree up to a folding of the characters.
-/

namespace SqlPages

section Pages

variable {α : Type*} {l : List α} {a : α} {k n i : ℕ}

/-- `LIMIT k OFFSET i * k`. -/
def page (l : List α) (k i : ℕ) : List α :=
  (l.drop (i * k)).take k

theorem mem_page : a ∈ page l k i ↔ ∃ j, j / k = i ∧ l[j]? = some a ∧ 0 < k := by
  unfold page
  rcases Nat.eq_zero_or_pos k with rfl | hk
  · simp
  · rw [List.mem_iff_getElem?]
    constructor
    · rintro ⟨m, hm⟩
      rw [List.getElem?_take] at hm
      split_ifs at hm with hlt
      rw [List.getElem?_drop] at hm
      refine ⟨i * k + m, ?_, hm, hk⟩
      rw [mul_comm, Nat.mul_add_div hk, Nat.div_eq_of_lt hlt, add_zero]
    · rintro ⟨j, rfl, hj, -⟩
      have hsplit := Nat.div_add_mod j k
      refine ⟨j % k, ?_⟩
      rw [List.getElem?_take, if_pos (Nat.mod_lt j hk), List.getElem?_drop, mul_comm (j / k) k,
        hsplit, hj]

/-- The first pages are the front of the list. -/
theorem flatMap_pages (l : List α) (k n : ℕ) :
    (List.range n).flatMap (page l k) = l.take (n * k) := by
  induction n with
  | zero => simp
  | succ n ih =>
    rw [List.range_succ, List.flatMap_append, ih, List.flatMap_singleton, page, Nat.succ_mul,
      List.take_add]

theorem page_eq_nil (h : l.length ≤ i * k) : page l k i = [] := by
  rw [page, List.drop_eq_nil_of_le h, List.take_nil]

end Pages

/-- The pattern on a text without zero characters. -/
def like (fold : Char → Char) : List Char → List Char → Bool
  | [], t => t.isEmpty
  | '%' :: p, t => t.tails.any (like fold p)
  | '_' :: p, t => match t with
    | [] => false
    | _ :: t => like fold p t
  | a :: p, t => match t with
    | [] => false
    | c :: t => fold a == fold c && like fold p t

end SqlPages
