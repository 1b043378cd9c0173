import Mathlib

/-!
A quota spent over a list in chunks.  Each chunk offers its first elements up to what is left of the
quota; elements that are not fresh are offered but add nothing.
-/

namespace ChunkedQuota

variable {α : Type*} (fresh : α → Bool)

/-- What the chunks add when each offers at most what is left. -/
def fill : List (List α) → ℕ → List α
  | [], _ => []
  | chunk :: chunks, left =>
    let added := (chunk.take left).filter fresh
    added ++ fill chunks (left - added.length)

/-- In every chunk the elements within the quota are all fresh, or nothing fresh comes after
them.  The quota of a chunk is what the fresh elements of the chunks before it leave. -/
def Spared : List (List α) → ℕ → Prop
  | [], _ => True
  | chunk :: chunks, left =>
    ((∀ x ∈ chunk.take left, fresh x = true) ∨ ∀ y ∈ chunk.drop left, fresh y = false) ∧
      Spared chunks (left - (chunk.filter fresh).length)

instance Spared.decidable : ∀ (chunks : List (List α)) (left : ℕ),
    Decidable (Spared fresh chunks left)
  | [], _ => .isTrue trivial
  | chunk :: chunks, left =>
    have := Spared.decidable chunks (left - (chunk.filter fresh).length)
    inferInstanceAs (Decidable (_ ∧ _))

variable {fresh} {chunk : List α} {chunks : List (List α)} {left : ℕ}

theorem flatten_toChunks_go (n : ℕ) (l : List α) (acc : Array α) (done : Array (List α)) :
    (List.toChunks.go n l acc done).flatten = done.toList.flatten ++ acc.toList ++ l := by
  induction l generalizing acc done with
  | nil => simp [List.toChunks.go]
  | cons x l ih =>
    rw [List.toChunks.go]
    split
    · rw [ih]
      simp
    · rw [ih]
      simp

theorem flatten_toChunks (n : ℕ) (l : List α) : (l.toChunks n).flatten = l := by
  cases l with
  | nil => simp [List.toChunks]
  | cons x l =>
    cases n with
    | zero => simp [List.toChunks]
    | succ n =>
      rw [List.toChunks, flatten_toChunks_go]
      simp
      omega

theorem fill_subset {x : α} (h : x ∈ fill fresh chunks left) : x ∈ chunks.flatten := by
  induction chunks generalizing left with
  | nil => exact h
  | cons chunk chunks ih =>
    rw [fill, List.mem_append] at h
    rw [List.flatten_cons, List.mem_append]
    rcases h with h | h
    · exact .inl (List.mem_of_mem_take (List.mem_of_mem_filter h))
    · exact .inr (ih h)

theorem fill_zero (chunks : List (List α)) : fill fresh chunks 0 = [] := by
  induction chunks with
  | nil => rfl
  | cons chunk chunks ih => simpa [fill] using ih

theorem fill_congr {fresh' : α → Bool} (h : ∀ x ∈ chunks.flatten, fresh x = fresh' x) :
    fill fresh chunks left = fill fresh' chunks left := by
  induction chunks generalizing left with
  | nil => rfl
  | cons chunk chunks ih =>
    rw [List.flatten_cons] at h
    have hadded : (chunk.take left).filter fresh = (chunk.take left).filter fresh' :=
      List.filter_congr fun x hx => h x (List.mem_append_left _ (List.mem_of_mem_take hx))
    rw [fill, fill, hadded, ih fun x hx => h x (List.mem_append_right _ hx)]

theorem filter_eq_append (fresh : α → Bool) (chunk : List α) (left : ℕ) :
    chunk.filter fresh =
      (chunk.take left).filter fresh ++ (chunk.drop left).filter fresh := by
  rw [← List.filter_append, List.take_append_drop]

theorem length_added_le : ((chunk.take left).filter fresh).length ≤ left :=
  Nat.le_trans (List.length_filter_le _ _) (List.length_take_le _ _)

theorem added_cases :
    ((∀ x ∈ chunk.take left, fresh x = true) ∨ ∀ y ∈ chunk.drop left, fresh y = false) ↔
      ((chunk.take left).filter fresh).length = left ∨ (chunk.drop left).filter fresh = [] := by
  constructor
  · rintro (hall | hnone)
    · rw [List.filter_eq_self.mpr hall]
      by_cases hlong : left ≤ chunk.length
      · exact .inl (List.length_take_of_le hlong)
      · right
        rw [List.drop_eq_nil_of_le (by omega)]
        rfl
    · exact .inr (List.filter_eq_nil_iff.mpr fun y hy => by simp [hnone y hy])
  · rintro (hfull | hempty)
    · left
      have hlength : ((chunk.take left).filter fresh).length = (chunk.take left).length := by
        have htake := List.length_take_le left chunk
        have hfilter := List.length_filter_le fresh (chunk.take left)
        omega
      exact List.length_filter_eq_length_iff.mp hlength
    · right
      intro y hy
      simpa using List.filter_eq_nil_iff.mp hempty y hy

/-- Spending the quota chunk by chunk adds the first fresh elements exactly when no chunk offers a
stale element ahead of a fresh one that it leaves out. -/
theorem fill_eq_take_iff (hnodup : chunks.flatten.Nodup) :
    fill fresh chunks left = (chunks.flatten.filter fresh).take left ↔
      Spared fresh chunks left := by
  induction chunks generalizing left with
  | nil => simp [fill, Spared]
  | cons chunk chunks ih =>
    rw [List.flatten_cons, List.nodup_append] at hnodup
    obtain ⟨-, htail, hdisjoint⟩ := hnodup
    have hsplit := filter_eq_append fresh chunk left
    have hbound : ((chunk.take left).filter fresh).length ≤ left := length_added_le
    rw [fill, Spared, added_cases, List.flatten_cons, List.filter_append]
    by_cases hspared : ((chunk.take left).filter fresh).length = left ∨
        (chunk.drop left).filter fresh = []
    · have hadded : (chunk.filter fresh).take left = (chunk.take left).filter fresh := by
        rw [hsplit]
        rcases hspared with hfull | hempty
        · rw [List.take_append_of_le_length (by omega), List.take_of_length_le (by omega)]
        · rw [hempty, List.append_nil, List.take_of_length_le hbound]
      have hleft : left - ((chunk.take left).filter fresh).length =
          left - (chunk.filter fresh).length := by
        have hlength := congrArg List.length hadded
        rw [List.length_take] at hlength
        omega
      rw [List.take_append, hadded, List.append_cancel_left_eq, hleft, ih htail]
      exact ⟨fun h => ⟨hspared, h⟩, fun h => h.2⟩
    · apply iff_of_false
      · -- a fresh element of the chunk is left out, though there is room for it
        intro heq
        have hroom : ((chunk.take left).filter fresh).length ≠ left := fun h => hspared (.inl h)
        obtain ⟨y, rest, hrest⟩ : ∃ y rest, (chunk.drop left).filter fresh = y :: rest :=
          List.exists_cons_of_ne_nil fun h => hspared (.inr h)
        obtain ⟨k, hk⟩ : ∃ k, left = ((chunk.take left).filter fresh).length + (k + 1) :=
          ⟨left - ((chunk.take left).filter fresh).length - 1, by omega⟩
        have hmissed : y ∈ chunk := by
          have hy : y ∈ (chunk.drop left).filter fresh := by simp [hrest]
          exact List.mem_of_mem_drop (List.mem_of_mem_filter hy)
        have hstem : ((chunk.filter fresh) ++ (chunks.flatten.filter fresh)).take left =
            (chunk.take left).filter fresh ++
              (y :: (rest ++ chunks.flatten.filter fresh)).take (k + 1) := by
          rw [hsplit, hrest, List.append_assoc, List.take_append,
            List.take_of_length_le hbound, List.cons_append]
          congr 2
          omega
        rw [hstem, List.append_cancel_left_eq, List.take_succ_cons] at heq
        have hlater : y ∈ chunks.flatten := by
          apply fill_subset
          rw [heq]
          exact List.mem_cons_self
        exact hdisjoint y hmissed y hlater rfl
      · exact fun h => hspared h.1

end ChunkedQuota
