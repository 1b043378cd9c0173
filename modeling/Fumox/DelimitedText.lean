import Mathlib

/-!
Unambiguous concatenation of lists: codes that a reader can take off the front of a list, and
fields joined by a separator that none of them contains.
-/

namespace DelimitedText

variable {α β : Type*}

/-- `read` takes one code word of `code` off the front of any list. -/
def Reads (code : α → List β) (read : List β → Option (α × List β)) : Prop :=
  ∀ a rest, read (code a ++ rest) = some (a, rest)

theorem Reads.ne_nil {code : α → List β} {read : List β → Option (α × List β)}
    (h : Reads code read) (hnil : read [] = none) (a : α) : code a ≠ [] := by
  intro hcode
  have hread := h a []
  simp [hcode, hnil] at hread

theorem flatMap_injective {code : α → List β} {read : List β → Option (α × List β)}
    (h : Reads code read) (hnil : read [] = none) :
    Function.Injective fun l : List α => l.flatMap code := by
  intro l
  induction l with
  | nil =>
    rintro (_ | ⟨b, m⟩) heq
    · rfl
    · have hb := h.ne_nil hnil b
      simp_all
  | cons a l ih =>
    rintro (_ | ⟨b, m⟩) heq
    · have ha := h.ne_nil hnil a
      simp_all
    · simp only [List.flatMap_cons] at heq
      have ha := h a (l.flatMap code)
      rw [heq, h b, Option.some.injEq, Prod.mk.injEq] at ha
      obtain ⟨rfl, hrest⟩ := ha
      exact congrArg (b :: ·) (ih hrest.symm)

/-- The first field before a separator is determined, and so is what follows. -/
theorem field_injective {d : β} {s t r u : List β} (hs : d ∉ s) (ht : d ∉ t)
    (h : s ++ d :: r = t ++ d :: u) : s = t ∧ r = u := by
  induction s generalizing t with
  | nil =>
    cases t with
    | nil => simpa using h
    | cons c t =>
      obtain ⟨rfl, -⟩ := List.cons_eq_cons.mp h
      simp at ht
  | cons c s ih =>
    cases t with
    | nil =>
      obtain ⟨rfl, -⟩ := List.cons_eq_cons.mp h
      simp at hs
    | cons e t =>
      obtain ⟨rfl, htail⟩ := List.cons_eq_cons.mp h
      obtain ⟨rfl, hru⟩ := ih (List.not_mem_of_not_mem_cons hs) (List.not_mem_of_not_mem_cons ht)
        htail
      exact ⟨rfl, hru⟩

theorem mem_intercalate {sep : List β} {l : List (List β)} {b : β} (h : b ∈ sep.intercalate l) :
    b ∈ sep ∨ ∃ s ∈ l, b ∈ s := by
  match l with
  | [] => simp at h
  | [s] => exact .inr ⟨s, by simp, by simpa using h⟩
  | s :: t :: rest =>
    rw [List.intercalate_cons_cons, List.mem_append, List.mem_append] at h
    rcases h with (h | h) | h
    · exact .inr ⟨s, by simp, h⟩
    · exact .inl h
    · rcases mem_intercalate h with h | ⟨u, hu, h⟩
      · exact .inl h
      · exact .inr ⟨u, List.mem_cons_of_mem s hu, h⟩

theorem intercalate_concat {d : β} {l : List (List β)} (hl : l ≠ []) (s : List β) :
    [d].intercalate (l ++ [s]) = [d].intercalate l ++ d :: s := by
  induction l with
  | nil => exact absurd rfl hl
  | cons t l ih =>
    cases l with
    | nil => simp [List.intercalate_cons_cons]
    | cons u l =>
      have hrest := ih (List.cons_ne_nil u l)
      simp only [List.cons_append, List.intercalate_cons_cons] at hrest ⊢
      rw [hrest]
      simp

theorem intercalate_ne_nil {d : β} {l : List (List β)} (hl : l ≠ []) (hne : ∀ s ∈ l, s ≠ []) :
    [d].intercalate l ≠ [] := by
  match l with
  | [] => exact absurd rfl hl
  | [s] => simpa using hne s (by simp)
  | s :: t :: rest =>
    intro h
    simp [List.intercalate, List.intersperse] at h

/-- Joining nonempty fields by a separator foreign to them loses nothing. -/
theorem intercalate_injective [DecidableEq β] {d : β} {l m : List (List β)}
    (hl : ∀ s ∈ l, d ∉ s ∧ s ≠ []) (hm : ∀ s ∈ m, d ∉ s ∧ s ≠ [])
    (h : [d].intercalate l = [d].intercalate m) : l = m := by
  rcases eq_or_ne l [] with rfl | hlne <;> rcases eq_or_ne m [] with rfl | hmne
  · rfl
  · exact absurd h.symm (by simpa using intercalate_ne_nil hmne fun s hs => (hm s hs).2)
  · exact absurd h (by simpa using intercalate_ne_nil hlne fun s hs => (hl s hs).2)
  · rw [← List.splitOn_intercalate d (fun s hs => (hl s hs).1) hlne, h,
      List.splitOn_intercalate d (fun s hs => (hm s hs).1) hmne]

end DelimitedText
