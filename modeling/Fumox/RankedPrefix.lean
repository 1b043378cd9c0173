import Mathlib

/-!
Ranking a merged list and keeping a prefix: copies of one key collapse onto the first of them, a
stable sort ranks the rest, and two rankings are compared on their first places.
-/

namespace RankedPrefix

variable {α β κ : Type*}

section Copies

variable [DecidableEq κ] (key : α → κ)

/-- Keeps the first element of each key that has not been seen. -/
def firstCopies : List κ → List α → List α
  | _, [] => []
  | seen, x :: l =>
    if key x ∈ seen then firstCopies seen l else x :: firstCopies (key x :: seen) l

variable {key} {seen : List κ} {l : List α}

theorem firstCopies_sublist : (firstCopies key seen l).Sublist l := by
  induction l generalizing seen with
  | nil => exact .slnil
  | cons x l ih =>
    unfold firstCopies
    split
    · exact ih.cons x
    · exact ih.cons_cons x

theorem not_seen_of_mem {x : α} (hx : x ∈ firstCopies key seen l) : key x ∉ seen := by
  induction l generalizing seen with
  | nil => exact absurd hx List.not_mem_nil
  | cons y l ih =>
    unfold firstCopies at hx
    split at hx
    · exact ih hx
    next hy =>
      rcases List.mem_cons.mp hx with rfl | hx
      · exact hy
      · exact fun hseen => ih hx (List.mem_cons_of_mem _ hseen)

theorem nodup_firstCopies : ((firstCopies key seen l).map key).Nodup := by
  induction l generalizing seen with
  | nil => exact .nil
  | cons x l ih =>
    unfold firstCopies
    split
    · exact ih
    · rw [List.map_cons, List.nodup_cons]
      refine ⟨?_, ih⟩
      intro hmem
      obtain ⟨y, hy, hkey⟩ := List.mem_map.mp hmem
      exact not_seen_of_mem hy (hkey ▸ List.mem_cons_self)

theorem exists_firstCopy {x : α} (hx : x ∈ l) (hseen : key x ∉ seen) :
    ∃ y ∈ firstCopies key seen l, key y = key x := by
  induction l generalizing seen with
  | nil => exact absurd hx List.not_mem_nil
  | cons z l ih =>
    unfold firstCopies
    split
    next hz =>
      rcases List.mem_cons.mp hx with rfl | hx
      · exact absurd hz hseen
      · exact ih hx hseen
    next hz =>
      by_cases hkey : key z = key x
      · exact ⟨z, List.mem_cons_self, hkey⟩
      · have hl : x ∈ l := by
          rcases List.mem_cons.mp hx with rfl | hl
          · exact absurd rfl hkey
          · exact hl
        have hnot : key x ∉ key z :: seen := by
          intro hmem
          rcases List.mem_cons.mp hmem with heq | hmem
          · exact hkey heq.symm
          · exact hseen hmem
        obtain ⟨y, hy, heq⟩ := ih hl hnot
        exact ⟨y, List.mem_cons_of_mem z hy, heq⟩

theorem firstCopies_eq_self (h : (l.map key).Nodup) (hseen : ∀ x ∈ l, key x ∉ seen) :
    firstCopies key seen l = l := by
  induction l generalizing seen with
  | nil => rfl
  | cons x l ih =>
    rw [List.map_cons, List.nodup_cons] at h
    rw [firstCopies, if_neg (hseen x List.mem_cons_self), ih h.2]
    intro y hy hmem
    rcases List.mem_cons.mp hmem with hkey | hmem
    · exact h.1 (hkey ▸ List.mem_map_of_mem hy)
    · exact hseen y (List.mem_cons_of_mem x hy) hmem

theorem exists_split_of_mem {x : α} (hx : x ∈ firstCopies key seen l) :
    ∃ before after, l = before ++ x :: after ∧ ∀ y ∈ before, key y ≠ key x := by
  induction l generalizing seen with
  | nil => exact absurd hx List.not_mem_nil
  | cons z l ih =>
    have hrest : ∀ seen', x ∈ firstCopies key seen' l → key z ≠ key x →
        ∃ before after, z :: l = before ++ x :: after ∧ ∀ y ∈ before, key y ≠ key x := by
      intro seen' hx hne
      obtain ⟨before, after, rfl, hbefore⟩ := ih hx
      refine ⟨z :: before, after, rfl, fun y hy => ?_⟩
      rcases List.mem_cons.mp hy with rfl | hy
      · exact hne
      · exact hbefore y hy
    have hnot := not_seen_of_mem hx
    unfold firstCopies at hx
    split at hx
    next hz => exact hrest seen hx fun heq => hnot (heq ▸ hz)
    next hz =>
      rcases List.mem_cons.mp hx with rfl | hx
      · exact ⟨[], l, rfl, fun y hy => absurd hy List.not_mem_nil⟩
      · exact hrest _ hx fun heq => not_seen_of_mem hx (heq ▸ List.mem_cons_self)

theorem firstCopies_split {x : α} {before : List α} (after : List α)
    (hbefore : ∀ y ∈ before, key y ≠ key x) (hseen : key x ∉ seen) :
    ∃ later, (∀ k ∈ seen, k ∈ later) ∧ (∀ y ∈ before, key y ∈ later) ∧
      firstCopies key seen (before ++ x :: after) =
        firstCopies key seen before ++ x :: firstCopies key later after := by
  induction before generalizing seen with
  | nil =>
    refine ⟨key x :: seen, fun k hk => List.mem_cons_of_mem _ hk,
      fun y hy => absurd hy List.not_mem_nil, ?_⟩
    have hfirst : firstCopies key seen (x :: after) = x :: firstCopies key (key x :: seen) after :=
      if_neg hseen
    rw [List.nil_append, hfirst]
    rfl
  | cons z before ih =>
    have hrest : ∀ y ∈ before, key y ≠ key x := fun y hy => hbefore y (List.mem_cons_of_mem z hy)
    rw [List.cons_append, firstCopies, firstCopies]
    split
    next hz =>
      obtain ⟨later, hkept, hlater, heq⟩ := ih hrest hseen
      refine ⟨later, hkept, fun y hy => ?_, heq⟩
      rcases List.mem_cons.mp hy with rfl | hy
      · exact hkept _ hz
      · exact hlater y hy
    next hz =>
      have hseen' : key x ∉ key z :: seen := by
        intro hmem
        rcases List.mem_cons.mp hmem with heq | hmem
        · exact hbefore z List.mem_cons_self heq.symm
        · exact hseen hmem
      obtain ⟨later, hkept, hlater, heq⟩ := ih hrest hseen'
      refine ⟨later, fun k hk => hkept k (List.mem_cons_of_mem _ hk), fun y hy => ?_, ?_⟩
      · rcases List.mem_cons.mp hy with rfl | hy
        · exact hkept _ List.mem_cons_self
        · exact hlater y hy
      · rw [heq, List.cons_append]

end Copies

section Ranking

variable (le : α → α → Bool)

def ranked (descending : Bool) (l : List α) : List α :=
  if descending then (l.insertionSort fun a b => le a b).reverse
  else l.insertionSort fun a b => le a b

/-- Strictly smaller, or as small and earlier in the list. -/
def Precedes (l : List α) (a b : α) : Prop :=
  le b a = false ∨ (le a b = true ∧ [a, b].Sublist l)

/-- The place before in the ranking of a list. -/
def Ahead (descending : Bool) (l : List α) (a b : α) : Prop :=
  if descending then Precedes le l b a else Precedes le l a b

instance [DecidableEq α] (l : List α) : DecidableRel (Precedes le l) := fun _ _ =>
  inferInstanceAs (Decidable (_ ∨ _ ∧ _))

instance [DecidableEq α] (descending : Bool) (l : List α) :
    DecidableRel (Ahead le descending l) := fun a b => by
  unfold Ahead
  split <;> infer_instance

variable {le} {l : List α} {a b : α} {descending : Bool}

theorem perm_ranked : (ranked le descending l).Perm l := by
  unfold ranked
  split
  · exact (List.reverse_perm _).trans (List.perm_insertionSort _ l)
  · exact List.perm_insertionSort _ l

theorem mem_ranked : a ∈ ranked le descending l ↔ a ∈ l :=
  perm_ranked.mem_iff

theorem not_sublist_swap (h : l.Nodup) (hab : [a, b].Sublist l) : ¬[b, a].Sublist l := by
  intro hba
  induction l with
  | nil => cases hab
  | cons x l ih =>
    rw [List.nodup_cons] at h
    cases hab with
    | cons _ hab =>
      cases hba with
      | cons _ hba => exact ih h.2 hab hba
      | cons_cons _ _ => exact h.1 (hab.subset (List.mem_cons_of_mem a List.mem_cons_self))
    | cons_cons _ hb =>
      cases hba with
      | cons _ hba => exact h.1 (hba.subset (List.mem_cons_of_mem b List.mem_cons_self))
      | cons_cons _ hb' => exact h.1 (hb'.subset List.mem_cons_self)

theorem sublist_or_swap (ha : a ∈ l) (hb : b ∈ l) (hne : a ≠ b) :
    [a, b].Sublist l ∨ [b, a].Sublist l := by
  induction l with
  | nil => exact absurd ha List.not_mem_nil
  | cons x l ih =>
    rcases List.mem_cons.mp ha with rfl | hrest
    · have hb : b ∈ l := (List.mem_cons.mp hb).resolve_left (Ne.symm hne)
      exact .inl ((List.singleton_sublist.mpr hb).cons_cons a)
    · rcases List.mem_cons.mp hb with rfl | hrest'
      · exact .inr ((List.singleton_sublist.mpr hrest).cons_cons b)
      · rcases ih hrest hrest' with h | h
        · exact .inl (h.cons x)
        · exact .inr (h.cons x)

theorem Precedes.asymm (htotal : ∀ a b, le a b = true ∨ le b a = true) (hl : l.Nodup)
    (h : Precedes le l a b) : ¬Precedes le l b a := by
  rintro (hba | ⟨hba, hplace⟩)
  · rcases h with hab | ⟨hab, -⟩
    · rcases htotal a b with h | h
      · rw [h] at hba
        cases hba
      · rw [h] at hab
        cases hab
    · rw [hab] at hba
      cases hba
  · rcases h with hab | ⟨-, hplace'⟩
    · rw [hba] at hab
      cases hab
    · exact not_sublist_swap hl hplace' hplace

theorem Ahead.asymm (htotal : ∀ a b, le a b = true ∨ le b a = true) (hl : l.Nodup)
    (h : Ahead le descending l a b) : ¬Ahead le descending l b a := by
  cases descending with
  | true => exact Precedes.asymm (a := b) (b := a) htotal hl h
  | false => exact Precedes.asymm htotal hl h

theorem pairwise_insertionSort (htotal : ∀ a b, le a b = true ∨ le b a = true)
    (htrans : ∀ a b c, le a b = true → le b c = true → le a c = true) (hl : l.Nodup) :
    (l.insertionSort fun a b => le a b).Pairwise (Precedes le l) := by
  have htot : Std.Total fun a b => le a b = true := ⟨htotal⟩
  have htra : IsTrans α fun a b => le a b = true := ⟨htrans⟩
  have hperm := List.perm_insertionSort (fun a b => le a b = true) l
  have hsorted := List.pairwise_insertionSort (fun a b => le a b = true) l
  have hnodup := hperm.nodup_iff.mpr hl
  apply List.pairwise_iff_forall_sublist.mpr
  intro a b hab
  have hle : le a b = true := List.pairwise_iff_forall_sublist.mp hsorted hab
  cases hba : le b a with
  | false => exact .inl hba
  | true =>
    have ha : a ∈ l := hperm.mem_iff.mp (hab.subset List.mem_cons_self)
    have hb : b ∈ l := hperm.mem_iff.mp (hab.subset (List.mem_cons_of_mem a List.mem_cons_self))
    have hne : a ≠ b := by
      rintro rfl
      exact List.nodup_iff_sublist.mp hnodup a hab
    rcases sublist_or_swap ha hb hne with hplace | hplace
    · exact .inr ⟨hle, hplace⟩
    · have hback := List.pair_sublist_insertionSort (r := fun a b => le a b = true) hba hplace
      exact absurd hback (not_sublist_swap hnodup hab)

theorem pairwise_ranked (htotal : ∀ a b, le a b = true ∨ le b a = true)
    (htrans : ∀ a b c, le a b = true → le b c = true → le a c = true) (hl : l.Nodup) :
    (ranked le descending l).Pairwise (Ahead le descending l) := by
  have hsorted := pairwise_insertionSort htotal htrans hl
  cases descending with
  | true => exact List.pairwise_reverse.mpr hsorted
  | false => exact hsorted

theorem sorted_ranked (htotal : ∀ a b, le a b = true ∨ le b a = true)
    (htrans : ∀ a b c, le a b = true → le b c = true → le a c = true) :
    (ranked le false l).Pairwise fun a b => le a b = true := by
  have htot : Std.Total fun a b => le a b = true := ⟨htotal⟩
  have htra : IsTrans α fun a b => le a b = true := ⟨htrans⟩
  exact List.pairwise_insertionSort (fun a b => le a b = true) l

end Ranking

section FirstPlaces

variable {R R' : α → α → Prop} {l l' : List α} {n : ℕ} (image : α → β) (key : α → κ)

def placesAhead (R : α → α → Prop) [DecidableRel R] (l : List α) (x : α) : ℕ :=
  l.countP fun y => decide (R y x)

/-- Every element among the first places has a copy with its image in the other list, ahead there
of the copies of everything that it is ahead of here. -/
def KeepsPlaces (R R' : α → α → Prop) [DecidableRel R] (l l' : List α) (n : ℕ) : Prop :=
  ∀ x ∈ l, placesAhead R l x < n →
    ∃ x' ∈ l', image x' = image x ∧
      ∀ y ∈ l, R x y → ∀ y' ∈ l', key y' = key y → R' x' y'

variable {image key} [DecidableRel R]

theorem keepsPlaces_perm {m m' : List α} (h : l.Perm m) (h' : l'.Perm m') :
    KeepsPlaces image key R R' l l' n ↔ KeepsPlaces image key R R' m m' n := by
  have hcount : ∀ x, placesAhead R l x = placesAhead R m x := fun x => h.countP_eq _
  unfold KeepsPlaces
  simp only [hcount, h.mem_iff, h'.mem_iff]

theorem placesAhead_head (hasymm : ∀ a b, R a b → ¬R b a) {x : α}
    (h : (x :: l).Pairwise R) : placesAhead R (x :: l) x = 0 := by
  apply List.countP_eq_zero.mpr
  rw [List.pairwise_cons] at h
  intro y hy hyx
  rcases List.mem_cons.mp hy with rfl | hy
  · exact hasymm y y (of_decide_eq_true hyx) (of_decide_eq_true hyx)
  · exact hasymm x y (h.1 y hy) (of_decide_eq_true hyx)

theorem placesAhead_tail {x y : α} (h : R x y) :
    placesAhead R (x :: l) y = placesAhead R l y + 1 := by
  have hpos : decide (R x y) = true := decide_eq_true h
  exact List.countP_cons_of_pos hpos

theorem KeepsPlaces.tail {x x' : α} (hl : (x :: l).Pairwise R)
    (hkeys : ((x :: l).map key).Nodup) (himage : ∀ a b, image a = image b → key a = key b)
    (hx : key x' = key x) (h : KeepsPlaces image key R R' (x :: l) (x' :: l') (n + 1)) :
    KeepsPlaces image key R R' l l' n := by
  rw [List.pairwise_cons] at hl
  rw [List.map_cons, List.nodup_cons] at hkeys
  intro y hy hplaces
  have hcount : placesAhead R (x :: l) y < n + 1 := by
    rw [placesAhead_tail (hl.1 y hy)]
    omega
  obtain ⟨y', hy', hread, hahead⟩ := h y (List.mem_cons_of_mem x hy) hcount
  have hkey : key y' = key y := himage y' y hread
  have hne : y' ≠ x' := by
    rintro rfl
    exact hkeys.1 (List.mem_map.mpr ⟨y, hy, by rw [← hkey, hx]⟩)
  refine ⟨y', (List.mem_cons.mp hy').resolve_left hne, hread, ?_⟩
  intro z hz hyz z' hz' hzkey
  exact hahead z (List.mem_cons_of_mem x hz) hyz z' (List.mem_cons_of_mem x' hz') hzkey

theorem KeepsPlaces.head {x : α} (hasymm : ∀ a b, R a b → ¬R b a)
    (hasymm' : ∀ a b, R' a b → ¬R' b a) (hl : (x :: l).Pairwise R) (hl' : l'.Pairwise R')
    (hkeys' : (l'.map key).Nodup) (himage : ∀ a b, image a = image b → key a = key b)
    (hsub : ∀ y' ∈ l', ∃ y ∈ x :: l, key y = key y')
    (h : KeepsPlaces image key R R' (x :: l) l' (n + 1)) :
    ∃ x' t', l' = x' :: t' ∧ image x' = image x := by
  have hfirst : placesAhead R (x :: l) x < n + 1 := by
    rw [placesAhead_head hasymm hl]
    omega
  obtain ⟨x', hx', hread, hahead⟩ := h x List.mem_cons_self hfirst
  cases l' with
  | nil => exact absurd hx' List.not_mem_nil
  | cons h' t' =>
    rcases List.mem_cons.mp hx' with rfl | hmem
    · exact ⟨x', t', rfl, hread⟩
    · exfalso
      rw [List.pairwise_cons] at hl hl'
      rw [List.map_cons, List.nodup_cons] at hkeys'
      obtain ⟨y, hy, hkey⟩ := hsub h' List.mem_cons_self
      rcases List.mem_cons.mp hy with rfl | hy
      · apply hkeys'.1
        rw [← hkey, ← himage _ _ hread]
        exact List.mem_map_of_mem hmem
      · have hback := hahead y (List.mem_cons_of_mem x hy) (hl.1 y hy) h' List.mem_cons_self hkey.symm
        exact hasymm' _ _ (hl'.1 x' hmem) hback

theorem take_map_of_keeps (hasymm : ∀ a b, R a b → ¬R b a) (hasymm' : ∀ a b, R' a b → ¬R' b a)
    (hl : l.Pairwise R) (hl' : l'.Pairwise R') (hkeys : (l.map key).Nodup)
    (hkeys' : (l'.map key).Nodup) (himage : ∀ a b, image a = image b → key a = key b)
    (hsub : ∀ y' ∈ l', ∃ y ∈ l, key y = key y') (h : KeepsPlaces image key R R' l l' n) :
    (l'.take n).map image = (l.take n).map image := by
  induction n generalizing l l' with
  | zero => rfl
  | succ n ih =>
    cases l with
    | nil =>
      cases l' with
      | nil => rfl
      | cons x' t' =>
        obtain ⟨y, hy, -⟩ := hsub x' List.mem_cons_self
        exact absurd hy List.not_mem_nil
    | cons x t =>
      obtain ⟨x', t', rfl, hread⟩ := h.head hasymm hasymm' hl hl' hkeys' himage hsub
      have hkey := himage x' x hread
      have htail := h.tail hl hkeys himage hkey
      rw [List.map_cons, List.nodup_cons] at hkeys'
      have hsub' : ∀ y' ∈ t', ∃ y ∈ t, key y = key y' := by
        intro y' hy'
        obtain ⟨y, hy, heq⟩ := hsub y' (List.mem_cons_of_mem x' hy')
        rcases List.mem_cons.mp hy with rfl | hy
        · rw [hkey, heq] at hkeys'
          exact absurd (List.mem_map_of_mem hy') hkeys'.1
        · exact ⟨y, hy, heq⟩
      rw [List.map_cons, List.nodup_cons] at hkeys
      rw [List.take_succ_cons, List.take_succ_cons, List.map_cons, List.map_cons, hread,
        ih hl.of_cons hl'.of_cons hkeys.2 hkeys'.2 hsub' htail]

theorem keeps_of_take_map (hasymm : ∀ a b, R a b → ¬R b a) (hl : l.Pairwise R)
    (hl' : l'.Pairwise R') (hkeys : (l.map key).Nodup)
    (himage : ∀ a b, image a = image b → key a = key b)
    (h : (l'.take n).map image = (l.take n).map image) : KeepsPlaces image key R R' l l' n := by
  induction n generalizing l l' with
  | zero =>
    intro x hx hplaces
    omega
  | succ n ih =>
    cases l with
    | nil => exact fun x hx => absurd hx List.not_mem_nil
    | cons x t =>
      cases l' with
      | nil => cases h
      | cons x' t' =>
        rw [List.take_succ_cons, List.take_succ_cons, List.map_cons, List.map_cons,
          List.cons.injEq] at h
        have hkey := himage x' x h.1
        have hcons := List.pairwise_cons.mp hl
        have hcons' := List.pairwise_cons.mp hl'
        rw [List.map_cons, List.nodup_cons] at hkeys
        have htail := ih hcons.2 hcons'.2 hkeys.2 h.2
        intro y hy hplaces
        rcases List.mem_cons.mp hy with rfl | hrest
        · refine ⟨x', List.mem_cons_self, h.1, ?_⟩
          intro z hz hyz z' hz' hzkey
          rcases List.mem_cons.mp hz' with rfl | hz'
          · rcases List.mem_cons.mp hz with rfl | hz
            · exact absurd hyz (hasymm _ _ hyz)
            · exact absurd (List.mem_map.mpr ⟨z, hz, by rw [← hzkey, hkey]⟩) hkeys.1
          · exact hcons'.1 z' hz'
        · have hxy : R x y := hcons.1 y hrest
          rw [placesAhead_tail hxy] at hplaces
          obtain ⟨y', hy', hread, hahead⟩ := htail y hrest (by omega)
          refine ⟨y', List.mem_cons_of_mem x' hy', hread, ?_⟩
          intro z hz hyz z' hz' hzkey
          rcases List.mem_cons.mp hz with rfl | hz
          · exact absurd hyz (hasymm _ _ hxy)
          · rcases List.mem_cons.mp hz' with rfl | hz'
            · exact absurd (List.mem_map.mpr ⟨z, hz, by rw [← hzkey, hkey]⟩) hkeys.1
            · exact hahead z hz hyz z' hz' hzkey

/-- Two rankings read the same on their first places exactly when the second one keeps the places
of the first. -/
theorem take_map_eq_iff (hasymm : ∀ a b, R a b → ¬R b a) (hasymm' : ∀ a b, R' a b → ¬R' b a)
    (hl : l.Pairwise R) (hl' : l'.Pairwise R') (hkeys : (l.map key).Nodup)
    (hkeys' : (l'.map key).Nodup) (himage : ∀ a b, image a = image b → key a = key b)
    (hsub : ∀ y' ∈ l', ∃ y ∈ l, key y = key y') :
    (l'.take n).map image = (l.take n).map image ↔ KeepsPlaces image key R R' l l' n :=
  ⟨keeps_of_take_map hasymm hl hl' hkeys himage,
    take_map_of_keeps hasymm hasymm' hl hl' hkeys hkeys' himage hsub⟩

theorem placesAhead_lt_of_mem_take (hasymm : ∀ a b, R a b → ¬R b a) (hl : l.Pairwise R) {x : α}
    (hx : x ∈ l.take n) : placesAhead R l x < n := by
  induction l generalizing n with
  | nil => simp at hx
  | cons y l ih =>
    cases n with
    | zero => simp at hx
    | succ n =>
      rw [List.take_succ_cons, List.mem_cons] at hx
      rcases hx with rfl | hx
      · rw [placesAhead_head hasymm hl]
        omega
      · have hcons := List.pairwise_cons.mp hl
        have hplaces := ih hcons.2 hx
        rw [placesAhead_tail (hcons.1 x (List.mem_of_mem_take hx))]
        omega

end FirstPlaces

section Cuts

variable [DecidableEq κ] {le : α → α → Bool} {key : α → κ} {image : α → β}
  {lists : List (List α)} {n : ℕ} {x y : α}

theorem exists_first_list (hx : x ∈ firstCopies key [] lists.flatten) :
    ∃ before p q after, lists = before ++ (p ++ x :: q) :: after ∧
      ∀ y ∈ before.flatten ++ p, key y ≠ key x := by
  obtain ⟨front, back, hflat, hfront⟩ := exists_split_of_mem hx
  rcases List.flatten_eq_append_iff.mp hflat with
    ⟨as, bs, rfl, rfl, hbs⟩ | ⟨as, p, c, cs, ds, rfl, rfl, hcs⟩
  · obtain ⟨empty, q, after, rfl, hempty, -⟩ := List.flatten_eq_cons_iff.mp hbs.symm
    refine ⟨as ++ empty, [], q, after, by simp, fun y hy => hfront y ?_⟩
    rw [List.flatten_append, List.append_nil] at hy
    rcases List.mem_append.mp hy with hy | hy
    · exact hy
    · obtain ⟨l, hl, hy⟩ := List.mem_flatten.mp hy
      rw [hempty l hl] at hy
      exact absurd hy List.not_mem_nil
  · obtain ⟨rfl, -⟩ := List.cons.inj hcs
    exact ⟨as, p, cs, ds, rfl, hfront⟩

theorem le_of_firstCopy (htotal : ∀ a b, le a b = true ∨ le b a = true) {l : List α}
    (hcopies : l.Pairwise fun a b => key a = key b → le a b = true)
    (hy : y ∈ firstCopies key [] l) {y' : α} (hy' : y' ∈ l) (hkey : key y' = key y) :
    le y y' = true := by
  obtain ⟨before, after, rfl, hbefore⟩ := exists_split_of_mem hy
  rcases List.mem_append.mp hy' with hmem | hmem
  · exact absurd hkey (hbefore y' hmem)
  · rcases List.mem_cons.mp hmem with rfl | hmem
    · exact (htotal y' y').elim id id
    · have hafter := (List.pairwise_append.mp hcopies).2.1
      exact (List.pairwise_cons.mp hafter).1 y' hmem hkey.symm

theorem firstCopy_before {front : List α} (back : List α) (hfront : ∀ z ∈ front, key z ≠ key x) {z : α}
    (hz : z ∈ front) : ∃ z₀, key z₀ = key z ∧
      [z₀, x].Sublist (firstCopies key [] (front ++ x :: back)) := by
  obtain ⟨later, -, -, heq⟩ := firstCopies_split back hfront List.not_mem_nil
  obtain ⟨z₀, hz₀, hkey⟩ : ∃ y ∈ firstCopies key [] front, key y = key z :=
    exists_firstCopy hz List.not_mem_nil
  refine ⟨z₀, hkey, ?_⟩
  rw [heq]
  exact (List.singleton_sublist.mpr hz₀).append (List.singleton_sublist.mpr List.mem_cons_self)

theorem take_append_cons {p q : List α} (h : p.length < n) :
    ∃ q', (p ++ x :: q).take n = p ++ x :: q' := by
  obtain ⟨k, hk⟩ := Nat.exists_eq_add_of_lt h
  have hrest : n - p.length = k + 1 := by omega
  refine ⟨q.take k, ?_⟩
  rw [List.take_append, List.take_of_length_le h.le, hrest, List.take_succ_cons]

theorem mem_flatten_of_cut (hy : y ∈ (lists.map (List.take n)).flatten) : y ∈ lists.flatten := by
  obtain ⟨l, hl, hy⟩ := List.mem_flatten.mp hy
  obtain ⟨list, hlist, rfl⟩ := List.mem_map.mp hl
  exact List.mem_flatten.mpr ⟨list, hlist, List.mem_of_mem_take hy⟩

section Copied

variable (htotal : ∀ a b, le a b = true ∨ le b a = true)
  (htrans : ∀ a b c, le a b = true → le b c = true → le a c = true) {front back : List α}
  (hfront : ∀ z ∈ front, key z ≠ key x)
  (hcopies : (front ++ x :: back).Pairwise fun a b => key a = key b → le a b = true)

include htotal htrans hfront hcopies

/-- What stands before `x` in a list of different keys, and is no greater, has first copies at
places ahead of it. -/
theorem length_le_places [DecidableEq α] {p : List α} (hp : ∀ z ∈ p, z ∈ front) (hkeys : (p.map key).Nodup)
    (hle : ∀ z ∈ p, le z x = true) :
    p.length ≤ placesAhead (Precedes le (firstCopies key [] (front ++ x :: back)))
      (firstCopies key [] (front ++ x :: back)) x := by
  have hsub : p.map key ⊆ ((firstCopies key [] (front ++ x :: back)).filter fun y =>
      decide (Precedes le (firstCopies key [] (front ++ x :: back)) y x)).map key := by
    intro k hk
    obtain ⟨z, hz, rfl⟩ := List.mem_map.mp hk
    obtain ⟨z₀, hkey, hplace⟩ := firstCopy_before back hfront (hp z hz)
    have hz₀ : z₀ ∈ firstCopies key [] (front ++ x :: back) := hplace.subset List.mem_cons_self
    have hfirst : le z₀ z = true :=
      le_of_firstCopy htotal hcopies hz₀ (List.mem_append_left _ (hp z hz)) hkey.symm
    have hahead : Precedes le (firstCopies key [] (front ++ x :: back)) z₀ x :=
      .inr ⟨htrans z₀ z x hfirst (hle z hz), hplace⟩
    exact List.mem_map.mpr ⟨z₀, List.mem_filter.mpr ⟨hz₀, decide_eq_true hahead⟩, hkey⟩
  have hlength := (List.subperm_of_subset hkeys hsub).length_le
  rw [List.length_map, List.length_map, ← List.countP_eq_length_filter] at hlength
  exact hlength

/-- A list that keeps `x` and less before it keeps `x` ahead of the copies of what it preceded. -/
theorem precedes_copy {front' back' : List α} (hless : ∀ z ∈ front', z ∈ front)
    (hx : x ∈ firstCopies key [] (front ++ x :: back))
    (hy : y ∈ firstCopies key [] (front ++ x :: back))
    (hxy : Precedes le (firstCopies key [] (front ++ x :: back)) x y) {y' : α}
    (hy' : y' ∈ firstCopies key [] (front' ++ x :: back')) (hmem : y' ∈ front ++ x :: back)
    (hkey : key y' = key y) :
    Precedes le (firstCopies key [] (front' ++ x :: back')) x y' := by
  have hfirst : le y y' = true := le_of_firstCopy htotal hcopies hy hmem hkey
  have hnodup : (firstCopies key [] (front ++ x :: back)).Nodup :=
    List.Nodup.of_map _ nodup_firstCopies
  rcases hxy with hyx | ⟨hle, hplace⟩
  · left
    by_contra hback
    rw [htrans y y' x hfirst (eq_true_of_ne_false hback)] at hyx
    cases hyx
  · refine .inr ⟨htrans x y y' hle hfirst, ?_⟩
    -- a copy of `y` before `x` would put the first copy of `y` before `x`
    have hnot : y' ∉ front' := by
      intro hbefore
      obtain ⟨y₀, hkey₀, hback⟩ := firstCopy_before back hfront (hless y' hbefore)
      have hsame : y₀ = y := List.inj_on_of_nodup_map nodup_firstCopies
        (hback.subset List.mem_cons_self) hy (hkey₀.trans hkey)
      rw [hsame] at hback
      exact not_sublist_swap hnodup hplace hback
    have hne : y' ≠ x := by
      rintro rfl
      have hsame : y = y' := List.inj_on_of_nodup_map nodup_firstCopies hy hx hkey.symm
      rw [hsame] at hplace
      exact List.nodup_iff_sublist.mp hnodup y' hplace
    obtain ⟨later, -, -, hsplit⟩ := firstCopies_split back'
      (fun z hz => hfront z (hless z hz)) List.not_mem_nil
    rw [hsplit] at hy' ⊢
    have hbehind : y' ∈ firstCopies key later back' := by
      rcases List.mem_append.mp hy' with hbefore | hbehind
      · exact absurd (firstCopies_sublist.subset hbefore) hnot
      · exact (List.mem_cons.mp hbehind).resolve_left hne
    exact ((List.singleton_sublist.mpr hbehind).cons_cons x).trans (List.sublist_append_right _ _)

end Copied

/-- Lists in one order, of different keys each and with later copies no smaller, can be cut before
they are merged: the first places keep what they hold. -/
theorem keepsPlaces_of_cuts [DecidableEq α] (htotal : ∀ a b, le a b = true ∨ le b a = true)
    (htrans : ∀ a b c, le a b = true → le b c = true → le a c = true)
    (hsorted : ∀ l ∈ lists, l.Pairwise fun a b => le a b = true)
    (hkeys : ∀ l ∈ lists, (l.map key).Nodup)
    (hcopies : lists.flatten.Pairwise fun a b => key a = key b → le a b = true) :
    KeepsPlaces image key (Precedes le (firstCopies key [] lists.flatten))
      (Precedes le (firstCopies key [] (lists.map (List.take n)).flatten))
      (firstCopies key [] lists.flatten) (firstCopies key [] (lists.map (List.take n)).flatten)
      n := by
  intro x hx hplaces
  obtain ⟨before, p, q, after, rfl, hbefore⟩ := exists_first_list hx
  have hlist : p ++ x :: q ∈ before ++ (p ++ x :: q) :: after :=
    List.mem_append_right _ List.mem_cons_self
  have hflat : (before ++ (p ++ x :: q) :: after).flatten =
      (before.flatten ++ p) ++ x :: (q ++ after.flatten) := by simp
  have hpKeys : (p.map key).Nodup := by
    have hlistKeys := hkeys _ hlist
    rw [List.map_append] at hlistKeys
    exact (List.nodup_append.mp hlistKeys).1
  have hpSorted : ∀ z ∈ p, le z x = true := fun z hz =>
    (List.pairwise_append.mp (hsorted _ hlist)).2.2 z hz x List.mem_cons_self
  rw [hflat] at hx hplaces hcopies
  -- the cut keeps `x` in its list, as the first copy of its key
  have hlength := length_le_places htotal htrans hbefore hcopies
    (fun z hz => List.mem_append_right _ hz) hpKeys hpSorted
  obtain ⟨q', hcut⟩ := take_append_cons (x := x) (q := q) (hlength.trans_lt hplaces)
  have hcutFlat : ((before ++ (p ++ x :: q) :: after).map (List.take n)).flatten =
      ((before.map (List.take n)).flatten ++ p) ++
        x :: (q' ++ (after.map (List.take n)).flatten) := by
    simp [hcut]
  have hless : ∀ z ∈ (before.map (List.take n)).flatten ++ p, z ∈ before.flatten ++ p := by
    intro z hz
    rcases List.mem_append.mp hz with hz | hz
    · exact List.mem_append_left _ (mem_flatten_of_cut hz)
    · exact List.mem_append_right _ hz
  refine ⟨x, ?_, rfl, fun y hy hxy y' hy' hkey => ?_⟩
  · obtain ⟨later, -, -, hsplit⟩ := firstCopies_split
      (q' ++ (after.map (List.take n)).flatten) (fun z hz => hbefore z (hless z hz))
      List.not_mem_nil
    rw [hcutFlat, hsplit]
    exact List.mem_append_right _ List.mem_cons_self
  · have hmem : y' ∈ (before.flatten ++ p) ++ x :: (q ++ after.flatten) :=
      hflat ▸ mem_flatten_of_cut (firstCopies_sublist.subset hy')
    rw [hflat] at hy hxy
    rw [hcutFlat] at hy' ⊢
    exact precedes_copy htotal htrans hbefore hcopies hless hx hy hxy hy' hmem hkey

end Cuts

section Directions

variable (le : α → α → Bool)

/-- The comparison in one direction; equal keys are equal in both. -/
def directed (descending : Bool) (a b : α) : Bool :=
  if descending then le b a else le a b

/-- A list by its keys in one direction, equal keys in input order. -/
structure Ordered (descending : Bool) (l ordered : List α) : Prop where
  perm : ordered.Perm l
  inOrder : ordered.Pairwise (Precedes (directed le descending) l)

/-- Elements with equal keys have at least `n` elements with greater keys. -/
def TiesBeyond (n : ℕ) (l : List α) : Prop :=
  ∀ a ∈ l, ∀ b ∈ l, a ≠ b → le a b = true → le b a = true → n ≤ l.countP fun c => !le c a

variable {le} {descending : Bool} {l ordered ordered' : List α} {n : ℕ}

theorem directed_total (htotal : ∀ a b, le a b = true ∨ le b a = true) (a b : α) :
    directed le descending a b = true ∨ directed le descending b a = true := by
  cases descending with
  | true => exact htotal b a
  | false => exact htotal a b

theorem directed_trans (htrans : ∀ a b c, le a b = true → le b c = true → le a c = true)
    (a b c : α) (hab : directed le descending a b = true)
    (hbc : directed le descending b c = true) : directed le descending a c = true := by
  cases descending with
  | true => exact htrans c b a hbc hab
  | false => exact htrans a b c hab hbc

theorem ordered_ranked (htotal : ∀ a b, le a b = true ∨ le b a = true)
    (htrans : ∀ a b c, le a b = true → le b c = true → le a c = true) (hl : l.Nodup) :
    Ordered le descending l (ranked (directed le descending) false l) := by
  have hsorted : (ranked (directed le descending) false l).Pairwise
      (Ahead (directed le descending) false l) :=
    pairwise_ranked (directed_total htotal) (directed_trans htrans) hl
  exact ⟨perm_ranked, hsorted⟩

theorem Ordered.unique (htotal : ∀ a b, le a b = true ∨ le b a = true) (hl : l.Nodup)
    (h : Ordered le descending l ordered) (h' : Ordered le descending l ordered') :
    ordered = ordered' := by
  apply List.Perm.eq_of_pairwise _ h.inOrder h'.inOrder (h.perm.trans h'.perm.symm)
  intro a b _ _ hab hba
  exact absurd hba (hab.asymm (directed_total htotal) hl)

theorem not_match_before {p : α → Bool} {x y : α} (hl : l.Nodup) (hfind : l.find? p = some x)
    (hyx : [y, x].Sublist l) : p y = false := by
  induction l with
  | nil => cases hyx
  | cons z l ih =>
    rw [List.nodup_cons] at hl
    rw [List.find?_cons] at hfind
    cases hz : p z with
    | true =>
      rw [hz] at hfind
      cases hfind
      cases hyx with
      | cons _ hyx => exact absurd (hyx.subset (by simp)) hl.1
      | cons_cons _ hx => exact absurd (hx.subset (by simp)) hl.1
    | false =>
      rw [hz] at hfind
      cases hyx with
      | cons _ hyx => exact ih hl.2 hfind hyx
      | cons_cons _ _ => exact hz

section Ties

variable [DecidableEq α] (htotal : ∀ a b, le a b = true ∨ le b a = true)
  (htrans : ∀ a b c, le a b = true → le b c = true → le a c = true)

theorem countP_le_placesAhead (x : α) :
    (l.countP fun c => !le c x) ≤ placesAhead (Precedes (directed le true) l) l x := by
  apply List.countP_mono_left
  intro y _ hy
  exact decide_eq_true (.inl (by simpa [directed] using hy))

include htrans in
theorem placesAhead_first_tie (hl : l.Nodup) {a x : α}
    (hfind : l.find? (fun y => le a y && le y a) = some x) :
    placesAhead (Precedes (directed le true) l) l x ≤ l.countP fun c => !le c a := by
  have hx := List.find?_some hfind
  simp only [Bool.and_eq_true] at hx
  apply List.countP_mono_left
  intro y _ hahead
  have hgreater : le y a = true → le y x = true := fun hya => htrans y a x hya hx.1
  have hne : le y a ≠ true := by
    intro hya
    rcases of_decide_eq_true hahead with hxy | ⟨hxy, hplace⟩
    · simp only [directed, if_true] at hxy
      rw [hgreater hya] at hxy
      cases hxy
    · simp only [directed, if_true] at hxy
      have htie := not_match_before hl hfind hplace
      rw [htrans a x y hx.1 hxy, hya] at htie
      cases htie
  simpa using hne

include htotal htrans in
/-- A reversed ascending rank and the stable descending order have the same first places exactly
when equal keys come beyond these places. -/
theorem take_reversed_eq_iff (hl : l.Nodup) (h : Ordered le true l ordered) :
    (ranked le true l).take n = ordered.take n ↔ TiesBeyond le n l := by
  have hasymm : ∀ a b, Precedes (directed le true) l a b → ¬Precedes (directed le true) l b a :=
    fun a b hab => hab.asymm (directed_total htotal) hl
  have hasymm' : ∀ a b, Ahead le true l a b → ¬Ahead le true l b a :=
    fun a b hab => hab.asymm htotal hl
  have hnodup : (ordered.map id).Nodup := by
    rw [List.map_id]
    exact h.perm.nodup_iff.mpr hl
  have hnodup' : ((ranked le true l).map id).Nodup := by
    rw [List.map_id]
    exact perm_ranked.nodup_iff.mpr hl
  have hplaces : ((ranked le true l).take n).map id = (ordered.take n).map id ↔
      KeepsPlaces id id (Precedes (directed le true) l) (Ahead le true l) ordered
        (ranked le true l) n :=
    take_map_eq_iff hasymm hasymm' h.inOrder (pairwise_ranked htotal htrans hl) hnodup hnodup'
      (fun _ _ => id) (fun y hy => ⟨y, h.perm.mem_iff.mpr (mem_ranked.mp hy), rfl⟩)
  rw [List.map_id, List.map_id] at hplaces
  rw [hplaces, keepsPlaces_perm h.perm perm_ranked]
  constructor
  · intro hkeeps a ha b hb hne hab hba
    by_contra hfew
    obtain ⟨x, hfind⟩ : ∃ x, l.find? (fun y => le a y && le y a) = some x := by
      apply Option.isSome_iff_exists.mp
      exact List.find?_isSome.mpr ⟨b, hb, by rw [hab, hba]; rfl⟩
    have hx := List.find?_some hfind
    simp only [Bool.and_eq_true] at hx
    have hfirst := placesAhead_first_tie htrans hl hfind
    obtain ⟨x', hx', heq, hbehind⟩ := hkeeps x (List.mem_of_find?_eq_some hfind) (by omega)
    obtain rfl : x' = x := heq
    -- another element with the key of `x`, which stands behind it in the list
    obtain ⟨y, hy, hyx, hay, hya⟩ : ∃ y ∈ l, y ≠ x' ∧ le a y = true ∧ le y a = true := by
      by_cases hxa : a = x'
      · exact ⟨b, hb, fun hbx => hne (hxa.trans hbx.symm), hab, hba⟩
      · have hrefl := htrans a b a hab hba
        exact ⟨a, ha, hxa, hrefl, hrefl⟩
    have hback : ¬[y, x'].Sublist l := by
      intro hplace
      have htie := not_match_before hl hfind hplace
      rw [hay, hya] at htie
      cases htie
    have hplace : [x', y].Sublist l :=
      (sublist_or_swap (List.mem_of_find?_eq_some hfind) hy hyx.symm).resolve_right hback
    have hle : le y x' = true := htrans y a x' hya hx.1
    rcases hbehind y hy (.inr ⟨hle, hplace⟩) y hy rfl with hahead | ⟨-, hahead⟩
    · rw [htrans x' a y hx.2 hay] at hahead
      cases hahead
    · exact hback hahead
  · intro hties x hx hahead
    refine ⟨x, hx, rfl, ?_⟩
    intro z hz hxy z' hz' heq
    obtain rfl : z' = z := heq
    cases hxz : le x z' with
    | false => exact .inl hxz
    | true =>
      rcases hxy with hzx | ⟨hzx, hplace⟩
      · simp only [directed, if_true] at hzx
        rw [hxz] at hzx
        cases hzx
      · have hne : x ≠ z' := by
          rintro rfl
          exact List.nodup_iff_sublist.mp hl x hplace
        have hmany := hties x hx z' hz hne hxz hzx
        have hcount : (l.countP fun c => !le c x) ≤
            placesAhead (Precedes (directed le true) l) l x := countP_le_placesAhead x
        omega

end Ties

theorem ranked_take_ascending (htotal : ∀ a b, le a b = true ∨ le b a = true)
    (htrans : ∀ a b c, le a b = true → le b c = true → le a c = true) :
    ranked le false ((ranked le false l).take n) = (ranked le false l).take n := by
  have hsorted := (sorted_ranked (l := l) htotal htrans).sublist (List.take_sublist n _)
  exact hsorted.insertionSort_eq

theorem ranked_descending_self (htotal : ∀ a b, le a b = true ∨ le b a = true)
    (htrans : ∀ a b c, le a b = true → le b c = true → le a c = true)
    (hsorted : l.Pairwise fun a b => le b a = true)
    (hties : ∀ a ∈ l, ∀ b ∈ l, le a b = true → le b a = true → a = b) :
    ranked le true l = l := by
  have htot : Std.Total fun a b => le a b = true := ⟨htotal⟩
  have htra : IsTrans α fun a b => le a b = true := ⟨htrans⟩
  have hperm := List.perm_insertionSort (fun a b => le a b = true) l
  have hreverse : l.insertionSort (fun a b => le a b = true) = l.reverse := by
    apply List.Perm.eq_of_pairwise _ (List.pairwise_insertionSort _ l)
      (List.pairwise_reverse.mpr hsorted) (hperm.trans (List.reverse_perm l).symm)
    intro a b ha hb hab hba
    exact hties a (hperm.mem_iff.mp ha) b (List.mem_reverse.mp hb) hab hba
  rw [ranked, if_pos rfl, hreverse, List.reverse_reverse]

end Directions

end RankedPrefix
