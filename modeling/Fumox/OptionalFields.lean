import Mathlib

/-!
Records printed as key-value lists with optional fields, and what a lookup finds in the print.
-/

namespace OptionalFields

variable {κ α : Type*}

/-- A field without a value prints nothing. -/
def put (key : κ) (value : Option α) : List (κ × α) :=
  value.elim [] fun v => [(key, v)]

def flat (slots : List (κ × Option α)) : List (κ × α) :=
  slots.flatMap fun s => put s.1 s.2

/-- The first value that is there under a key. -/
def pick [BEq κ] (slots : List (κ × Option α)) (key : κ) : Option α :=
  slots.foldr (fun s rest => if key == s.1 then s.2.or rest else rest) none

variable {l m : List (κ × Option α)} {k key : κ}

theorem put_some (v : α) : put k (some v) = [(k, v)] := rfl

theorem flat_nil : flat ([] : List (κ × Option α)) = [] := rfl

theorem flat_cons (v : Option α) : flat ((k, v) :: l) = put k v ++ flat l := rfl

theorem flat_append : flat (l ++ m) = flat l ++ flat m :=
  List.flatMap_append

section Lookup

variable [BEq κ]

theorem lookup_put (v : Option α) : (put k v).lookup key = if key == k then v else none := by
  cases v with
  | none =>
    rw [ite_self]
    rfl
  | some v =>
    rw [put_some, List.lookup_cons]
    cases key == k <;> rfl

theorem pick_cons (v : Option α) :
    pick ((k, v) :: l) key = if key == k then v.or (pick l key) else pick l key := rfl

theorem pick_append : pick (l ++ m) key = (pick l key).or (pick m key) := by
  induction l with
  | nil => rfl
  | cons s l ih =>
    obtain ⟨k, v⟩ := s
    rw [List.cons_append, pick_cons, pick_cons, ih]
    split
    · exact (Option.or_assoc).symm
    · rfl

theorem lookup_flat (slots : List (κ × Option α)) (key : κ) :
    (flat slots).lookup key = pick slots key := by
  induction slots with
  | nil => rfl
  | cons s slots ih =>
    obtain ⟨k, v⟩ := s
    rw [flat_cons, List.lookup_append, lookup_put, ih, pick_cons]
    split
    · rfl
    · exact Option.none_or

end Lookup

end OptionalFields
