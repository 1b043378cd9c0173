import Fumox.DelimitedText
import Fumox.RustText

/-!
Lists typed into one text field: items joined by a separator and white space, read back by
splitting at the separator, trimming each piece and dropping the blank ones.
-/

namespace ItemList

open RustText

/-- The pieces between separators, trimmed, without the blank ones. -/
def splitItems (sep : Char) (t : Text) : List Text :=
  ((t.splitOn sep).map trim).filter (· ≠ [])

def joinItems (sep : Char) (pad : Text) (items : List Text) : Text :=
  (sep :: pad).intercalate items

/-- A text that stands in a field as one item. -/
structure IsItem (sep : Char) (t : Text) : Prop where
  trimmed : trim t = t
  visible : t ≠ []
  plain : sep ∉ t

theorem trim_eq_nil {t : Text} : trim t = [] ↔ ∀ c ∈ t, isWhitespace c = true := by
  rw [trim, trimEnd, List.rdropWhile_eq_nil_iff]
  constructor
  · intro h
    have hstart : trimStart t = [] := by
      by_contra hne
      obtain ⟨c, rest, hcons⟩ := List.exists_cons_of_ne_nil hne
      have hnot := List.head?_dropWhile_not isWhitespace t
      have hdrop : t.dropWhile isWhitespace = c :: rest := hcons
      rw [hdrop] at hnot
      have hwhite := h c (by rw [hcons]; exact List.mem_cons_self)
      rw [List.head?_cons] at hnot
      simp [hwhite] at hnot
    exact List.dropWhile_eq_nil_iff.mp hstart
  · intro h c hc
    exact h c (List.dropWhile_subset _ hc)

theorem trim_cons_white {c : Char} (hc : isWhitespace c = true) (t : Text) :
    trim (c :: t) = trim t := by
  rw [trim, trim, trimStart, List.dropWhile_cons_of_pos hc]
  rfl

theorem trim_concat_white {c : Char} (hc : isWhitespace c = true) (t : Text) :
    trim (t ++ [c]) = trim t := by
  have hend : ∀ s : Text, trimEnd (s ++ [c]) = trimEnd s := fun s => by
    rw [trimEnd, trimEnd, List.rdropWhile_concat_pos _ _ _ hc]
  rw [trim, trim, trimStart, trimStart, List.dropWhile_append]
  split_ifs with hall
  · have hnil : t.dropWhile isWhitespace = [] := List.isEmpty_iff.mp hall
    rw [hnil, List.dropWhile_cons_of_pos hc]
    rfl
  · exact hend _

theorem mem_of_mem_trim {c : Char} {t : Text} (h : c ∈ trim t) : c ∈ t :=
  List.dropWhile_subset _ (trimEnd_sublist _ c h)

theorem not_mem_of_mem_splitOn {α : Type*} [BEq α] [LawfulBEq α] {c : α} {t piece : List α}
    (h : piece ∈ t.splitOn c) : c ∉ piece := by
  induction t generalizing piece with
  | nil =>
    rw [List.splitOn_nil, List.mem_singleton] at h
    simp [h]
  | cons x t ih =>
    rw [List.splitOn_cons_eq_if_modifyHead] at h
    split_ifs at h with hx
    · rcases List.mem_cons.mp h with rfl | h
      · simp
      · exact ih h
    · cases hpieces : t.splitOn c with
      | nil => simp [hpieces] at h
      | cons first rest =>
        rw [hpieces, List.modifyHead_cons] at h
        have hfirst : first ∈ t.splitOn c := by simp [hpieces]
        rcases List.mem_cons.mp h with rfl | h
        · have hne : c ≠ x := fun heq => hx (by simp [heq])
          simp [hne, ih hfirst]
        · exact ih (by rw [hpieces]; exact List.mem_cons_of_mem first h)

section Split

variable {sep : Char}

theorem isItem_of_mem {t item : Text} (h : item ∈ splitItems sep t) : IsItem sep item := by
  obtain ⟨hmem, hne⟩ := List.mem_filter.mp h
  obtain ⟨piece, hpiece, rfl⟩ := List.mem_map.mp hmem
  exact ⟨trim_trim piece, of_decide_eq_true hne,
    fun hsep => not_mem_of_mem_splitOn hpiece (mem_of_mem_trim hsep)⟩

theorem splitItems_sep (t : Text) : splitItems sep (sep :: t) = splitItems sep t := by
  rw [splitItems, List.splitOn_cons_eq_if_modifyHead, if_pos (beq_self_eq_true sep)]
  exact List.filter_cons_of_neg (by decide)

theorem splitItems_white {c : Char} (hc : isWhitespace c = true) (hsep : c ≠ sep) (t : Text) :
    splitItems sep (c :: t) = splitItems sep t := by
  rw [splitItems, splitItems, List.splitOn_cons_eq_if_modifyHead, if_neg (by simpa using hsep)]
  cases t.splitOn sep with
  | nil => rfl
  | cons first rest => rw [List.modifyHead_cons, List.map_cons, List.map_cons, trim_cons_white hc]

theorem splitItems_pad {pad : Text} (hpad : ∀ c ∈ pad, isWhitespace c = true ∧ c ≠ sep) (t : Text) :
    splitItems sep (pad ++ t) = splitItems sep t := by
  induction pad with
  | nil => rfl
  | cons c pad ih =>
    obtain ⟨hc, hsep⟩ := hpad c List.mem_cons_self
    rw [List.cons_append, splitItems_white hc hsep]
    exact ih fun d hd => hpad d (List.mem_cons_of_mem c hd)

theorem splitItems_item {item : Text} (h : IsItem sep item) : splitItems sep item = [item] := by
  rw [splitItems, List.splitOn_eq_singleton h.plain, List.map_singleton, h.trimmed]
  exact List.filter_cons_of_pos (decide_eq_true h.visible)

theorem splitItems_cons {item : Text} (h : IsItem sep item) (t : Text) :
    splitItems sep (item ++ sep :: t) = item :: splitItems sep t := by
  rw [splitItems, List.splitOn_append_cons_of_beq _ _ (beq_self_eq_true sep), List.map_append,
    List.filter_append]
  exact congrArg (· ++ splitItems sep t) (splitItems_item h)

theorem joinItems_cons (sep : Char) (pad item next : Text) (rest : List Text) :
    joinItems sep pad (item :: next :: rest) =
      item ++ (sep :: pad ++ joinItems sep pad (next :: rest)) := by
  simp [joinItems, List.intercalate_cons_cons]

theorem splitItems_join {pad : Text} (hpad : ∀ c ∈ pad, isWhitespace c = true ∧ c ≠ sep)
    {items : List Text} (h : ∀ item ∈ items, IsItem sep item) :
    splitItems sep (joinItems sep pad items) = items := by
  match items with
  | [] => rfl
  | [item] =>
    have hone : joinItems sep pad [item] = item := by simp [joinItems]
    rw [hone]
    exact splitItems_item (h item List.mem_cons_self)
  | item :: next :: rest =>
    have hrest := splitItems_join hpad fun t ht => h t (List.mem_cons_of_mem item ht)
    rw [joinItems_cons, List.cons_append, splitItems_cons (h item List.mem_cons_self),
      splitItems_pad hpad, hrest]

/-- Only separators and white space stand in a field without items. -/
theorem splitItems_eq_nil {t : Text} :
    splitItems sep t = [] ↔ ∀ c ∈ t, c = sep ∨ isWhitespace c = true := by
  induction t with
  | nil => exact iff_of_true rfl (by simp)
  | cons c t ih =>
    rw [List.forall_mem_cons, ← ih]
    by_cases hsep : c = sep
    · subst hsep
      rw [splitItems_sep]
      simp
    by_cases hwhite : isWhitespace c = true
    · rw [splitItems_white hwhite hsep]
      simp [hwhite]
    · refine iff_of_false ?_ fun h => h.1.elim hsep hwhite
      have hpieces : (c :: t).splitOn sep = (t.splitOn sep).modifyHead (c :: ·) := by
        rw [List.splitOn_cons_eq_if_modifyHead, if_neg (by simpa using hsep)]
      obtain ⟨first, rest, hfirst⟩ := List.exists_cons_of_ne_nil (List.splitOn_ne_nil sep t)
      rw [splitItems, hpieces, hfirst, List.modifyHead_cons, List.map_cons,
        List.filter_cons_of_pos]
      · exact List.cons_ne_nil _ _
      · refine decide_eq_true fun hnil => hwhite ?_
        exact trim_eq_nil.mp hnil c List.mem_cons_self

theorem joinItems_eq_nil {pad : Text} {items : List Text} (h : ∀ item ∈ items, item ≠ []) :
    joinItems sep pad items = [] ↔ items = [] := by
  match items with
  | [] => simp [joinItems]
  | [item] => simpa [joinItems] using h item List.mem_cons_self
  | item :: next :: rest => simp [joinItems, List.intercalate_cons_cons]

theorem trimmed_joinItems {pad : Text} {items : List Text} (h : ∀ item ∈ items, IsItem sep item) :
    Trimmed (joinItems sep pad items) := by
  match items with
  | [] => exact ⟨by simp [joinItems], by simp [joinItems]⟩
  | [item] =>
    have hitem := h item List.mem_cons_self
    have hone : joinItems sep pad [item] = trim item := by simp [joinItems, hitem.trimmed]
    rw [hone]
    exact trimmed_trim item
  | item :: next :: rest =>
    have hitem := h item List.mem_cons_self
    have hrest : Trimmed (joinItems sep pad (next :: rest)) :=
      trimmed_joinItems fun t ht => h t (List.mem_cons_of_mem item ht)
    have hends := trimmed_trim item
    rw [hitem.trimmed] at hends
    have hne : joinItems sep pad (next :: rest) ≠ [] := by
      rw [ne_eq, joinItems_eq_nil fun t ht => (h t (List.mem_cons_of_mem item ht)).visible]
      exact List.cons_ne_nil next rest
    rw [joinItems_cons]
    constructor
    · intro c hc
      rw [List.head?_append_of_ne_nil _ hitem.visible] at hc
      exact hends.1 c hc
    · intro c hc
      rw [List.getLast?_append_of_ne_nil _ (by simp), List.getLast?_append_of_ne_nil _ hne] at hc
      exact hrest.2 c hc

theorem splitItems_intercalate {pieces : List Text} (h : ∀ piece ∈ pieces, sep ∉ piece) :
    splitItems sep ([sep].intercalate pieces) = (pieces.map trim).filter (· ≠ []) := by
  cases pieces with
  | nil => rfl
  | cons piece pieces =>
    rw [splitItems, List.splitOn_intercalate sep h (List.cons_ne_nil piece pieces)]

theorem splitItems_concat_white {c : Char} (hc : isWhitespace c = true) (t : Text) :
    splitItems sep (t ++ [c]) = splitItems sep t := by
  have hpieces : ∀ piece ∈ t.splitOn sep, sep ∉ piece := fun _ => not_mem_of_mem_splitOn
  obtain ⟨init, last, hlast⟩ : ∃ init last, t.splitOn sep = init ++ [last] :=
    ⟨_, _, (List.dropLast_append_getLast (List.splitOn_ne_nil sep t)).symm⟩
  have htext : t = [sep].intercalate (init ++ [last]) := by
    rw [← hlast, List.intercalate_splitOn]
  have hsplit : splitItems sep t = ((init ++ [last]).map trim).filter (· ≠ []) := by
    rw [splitItems, hlast]
  rw [hlast] at hpieces
  by_cases hsep : c = sep
  · have hnext : t ++ [c] = [sep].intercalate (init ++ [last] ++ [[]]) := by
      rw [DelimitedText.intercalate_concat (by simp), ← htext, hsep]
    have hmore : ∀ piece ∈ init ++ [last] ++ [[]], sep ∉ piece := by
      intro piece hpiece
      rcases List.mem_append.mp hpiece with hold | hnil
      · exact hpieces piece hold
      · rw [List.mem_singleton.mp hnil]
        exact List.not_mem_nil
    have hblank : (([[]] : List Text).map trim).filter (· ≠ []) = [] := rfl
    rw [hnext, splitItems_intercalate hmore, hsplit, List.map_append, List.filter_append, hblank,
      List.append_nil]
  · have hnext : t ++ [c] = [sep].intercalate (init ++ [last ++ [c]]) := by
      rw [htext]
      by_cases hinit : init = []
      · simp [hinit]
      · rw [DelimitedText.intercalate_concat hinit, DelimitedText.intercalate_concat hinit]
        simp
    have hmore : ∀ piece ∈ init ++ [last ++ [c]], sep ∉ piece := by
      intro piece hpiece
      rcases List.mem_append.mp hpiece with hold | hnew
      · exact hpieces piece (List.mem_append_left _ hold)
      · rw [List.mem_singleton.mp hnew, List.mem_append, List.mem_singleton]
        rintro (hin | rfl)
        · exact hpieces last (by simp) hin
        · exact hsep rfl
    rw [hnext, splitItems_intercalate hmore, hsplit]
    simp only [List.map_append, List.map_cons, List.map_nil, trim_concat_white hc]

/-- White space around a field does not change its items. -/
theorem splitItems_trim (t : Text) : splitItems sep (trim t) = splitItems sep t := by
  have hstart : ∀ s : Text, splitItems sep (trimStart s) = splitItems sep s := by
    intro s
    induction s with
    | nil => rfl
    | cons c s ih =>
      rw [trimStart]
      by_cases hc : isWhitespace c = true
      · rw [List.dropWhile_cons_of_pos hc]
        by_cases hsep : c = sep
        · rw [hsep, splitItems_sep]
          exact ih
        · rw [splitItems_white hc hsep]
          exact ih
      · rw [List.dropWhile_cons_of_neg hc]
  have hend : ∀ s : Text, splitItems sep (trimEnd s) = splitItems sep s := by
    intro s
    induction s using List.reverseRecOn with
    | nil => rfl
    | append_singleton s c ih =>
      rw [trimEnd]
      by_cases hc : isWhitespace c = true
      · rw [List.rdropWhile_concat_pos _ _ _ hc, splitItems_concat_white hc]
        exact ih
      · rw [List.rdropWhile_concat_neg _ _ _ hc]
  rw [trim, hend, hstart]
end Split

end ItemList
