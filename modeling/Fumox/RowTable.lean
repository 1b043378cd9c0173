import Mathlib

/-!
One table of a relational store as a list of rows, under guarded updates.  A guarded update never
moves a row: what it does to a table is what it does to each row.
-/

namespace RowTable

variable {ρ κ : Type*} {guard : ρ → Bool} {set : ρ → ρ} {rows : List ρ} {r : ρ}

def updateWhere (guard : ρ → Bool) (set : ρ → ρ) (rows : List ρ) : List ρ :=
  rows.map fun r => if guard r then set r else r

/-- The rows a guarded update writes, as it leaves them. -/
def updated (guard : ρ → Bool) (set : ρ → ρ) (rows : List ρ) : List ρ :=
  (rows.filter guard).map set

theorem mem_updateWhere :
    r ∈ updateWhere guard set rows ↔ ∃ r₀ ∈ rows, (if guard r₀ then set r₀ else r₀) = r := by
  simp [updateWhere]

theorem mem_updateWhere_cases (h : r ∈ updateWhere guard set rows) :
    (r ∈ rows ∧ guard r = false) ∨ ∃ r₀ ∈ rows, guard r₀ = true ∧ r = set r₀ := by
  obtain ⟨r₀, hr₀, rfl⟩ := mem_updateWhere.mp h
  cases hguard : guard r₀ with
  | true => exact .inr ⟨r₀, hr₀, hguard, by simp⟩
  | false => exact .inl ⟨by simpa using hr₀, by simpa using hguard⟩

theorem map_updateWhere {key : ρ → κ} (hkey : ∀ r, key (set r) = key r) :
    (updateWhere guard set rows).map key = rows.map key := by
  simp only [updateWhere, List.map_map, List.map_inj_left, Function.comp_apply]
  intro r _
  split
  · exact hkey r
  · rfl

/-- A guarded update leaves alone what it neither reads nor writes. -/
theorem filter_updateWhere {keep : ρ → Bool} (hguard : ∀ r, guard r = true → keep r = false)
    (hset : ∀ r, guard r = true → keep (set r) = false) :
    (updateWhere guard set rows).filter keep = rows.filter keep := by
  induction rows with
  | nil => rfl
  | cons r rows ih =>
    simp only [updateWhere, List.map_cons, List.filter_cons] at ih ⊢
    rw [ih]
    by_cases h : guard r = true
    · simp [h, hguard r h, hset r h]
    · simp [h]

section Keys

variable [DecidableEq κ] {key : ρ → κ} {k : κ} {p : ρ → Bool}

/-- In a table without repeated keys, a guard that names the key tests one row. -/
theorem find?_key_and (h : (rows.map key).Nodup) :
    rows.find? (fun r => key r == k && p r) =
      (rows.find? fun r => key r == k).filter p := by
  induction rows with
  | nil => rfl
  | cons r rows ih =>
    rw [List.map_cons, List.nodup_cons] at h
    rw [List.find?_cons, List.find?_cons]
    by_cases hk : key r = k
    · have hnone : rows.find? (fun r => key r == k && p r) = none := by
        apply List.find?_eq_none.mpr
        intro x hx hboth
        simp only [Bool.and_eq_true, beq_iff_eq] at hboth
        exact h.1 (hk ▸ hboth.1 ▸ List.mem_map_of_mem hx)
      cases hp : p r <;> simp [hk, hp, hnone, Option.filter]
    · have hk' : (key r == k) = false := by simpa using hk
      simpa [hk'] using ih h.2

theorem any_key_and (h : (rows.map key).Nodup) :
    rows.any (fun r => key r == k && p r) = (rows.find? fun r => key r == k).any p := by
  rw [← List.isSome_find?, find?_key_and h]
  cases rows.find? fun r => key r == k with
  | none => rfl
  | some r => cases hp : p r <;> simp [Option.filter, hp]

end Keys

end RowTable
