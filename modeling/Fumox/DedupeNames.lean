import Mathlib
import Fumox.RustText

/-!
Unique names for structured output.  Later occurrences of a name are suffixed with the first number
that is free; a literal of that shape further down the list can find its own name taken.
-/

namespace DedupeNames

open RustText

def suffixed (name : Text) (n : ℕ) : Text :=
  name ++ (" (" : Text) ++ decimal n ++ (")" : Text)

structure State where
  taken : List Text := []
  nextSuffix : Text → Option ℕ := fun _ => none
  out : List Text := []

def State.counter (st : State) (name : Text) : ℕ :=
  (st.nextSuffix name).getD 1

def freeSuffix (taken : List Text) (name : Text) : ℕ → ℕ → Option ℕ
  | 0, _ => none
  | fuel + 1, n =>
    if suffixed name (n + 1) ∈ taken then freeSuffix taken name fuel (n + 1) else some (n + 1)

def dedupeStep (fuel : ℕ) (st : State) (name : Text) : Option State :=
  if name ∈ st.taken then
    (freeSuffix st.taken name fuel (st.counter name)).map fun n => {
      taken := suffixed name n :: st.taken
      nextSuffix := Function.update st.nextSuffix name (some n)
      out := st.out ++ [suffixed name n] }
  else
    some { st with
      taken := name :: st.taken
      out := st.out ++ [name] }

def dedupeNames (fuel : ℕ) (names : List Text) : Option (List Text) :=
  (names.foldlM (dedupeStep fuel) {}).map State.out

theorem suffixed_inj {x x' : Text} {n n' : ℕ} :
    suffixed x n = suffixed x' n' ↔ x = x' ∧ n = n' := by
  constructor
  · intro h
    have hdigits : ∀ k, '(' ∉ (decimal k ++ (")" : Text)).reverse := by
      intro k hk
      rw [List.mem_reverse, List.mem_append] at hk
      rcases hk with hk | hk
      · exact absurd (isDigit_of_mem_decimal hk) (by decide)
      · exact absurd hk (by decide)
    have hsplit : ∀ t k, (suffixed t k).reverse =
        (decimal k ++ (")" : Text)).reverse ++ '(' :: (' ' :: t.reverse) := by
      intro t k
      simp [suffixed]
    have hrev := congrArg List.reverse h
    rw [hsplit, hsplit] at hrev
    have hplain : ∀ k, ∀ c ∈ (decimal k ++ (")" : Text)).reverse, decide (c ≠ '(') = true := by
      intro k c hc
      exact decide_eq_true fun heq => hdigits k (heq ▸ hc)
    have htake := congrArg (List.takeWhile fun c => decide (c ≠ '(')) hrev
    rw [List.takeWhile_append_of_pos (hplain n), List.takeWhile_append_of_pos (hplain n')] at htake
    simp only [List.takeWhile_cons, decide_not, decide_true, Bool.not_true, Bool.false_eq_true,
      if_false, List.append_nil, ne_eq] at htake
    obtain rfl := decimal_injective (List.append_cancel_right (List.reverse_injective htake))
    have hname := List.append_cancel_left hrev
    simpa using hname
  · rintro ⟨rfl, rfl⟩
    rfl

theorem suffixed_ne_self (x : Text) (n : ℕ) : suffixed x n ≠ x := by
  intro h
  have hlength := congrArg List.length h
  simp [suffixed] at hlength

section Probe

variable {taken : List Text} {name : Text} {fuel n m : ℕ}

theorem freeSuffix_eq_some (h : freeSuffix taken name fuel n = some m) :
    n < m ∧ suffixed name m ∉ taken ∧ ∀ j, n < j → j < m → suffixed name j ∈ taken := by
  induction fuel generalizing n with
  | zero => simp [freeSuffix] at h
  | succ fuel ih =>
    rw [freeSuffix] at h
    by_cases htaken : suffixed name (n + 1) ∈ taken
    · rw [if_pos htaken] at h
      obtain ⟨hlt, hfree, hbelow⟩ := ih h
      refine ⟨by omega, hfree, fun j hj hjm => ?_⟩
      by_cases hnext : j = n + 1
      · exact hnext ▸ htaken
      · exact hbelow j (by omega) hjm
    · rw [if_neg htaken] at h
      obtain rfl := Option.some.inj h
      exact ⟨by omega, htaken, fun j hj hjm => by omega⟩

theorem taken_of_freeSuffix_none (h : freeSuffix taken name fuel n = none) :
    ∀ j, n < j → j ≤ n + fuel → suffixed name j ∈ taken := by
  induction fuel generalizing n with
  | zero => intro j hj hle; omega
  | succ fuel ih =>
    rw [freeSuffix] at h
    by_cases htaken : suffixed name (n + 1) ∈ taken
    · rw [if_pos htaken] at h
      intro j hj hle
      by_cases hnext : j = n + 1
      · exact hnext ▸ htaken
      · exact ih h j (by omega) (by omega)
    · rw [if_neg htaken] at h
      contradiction

theorem freeSuffix_isSome (name : Text) (n : ℕ) (h : taken.length < fuel) :
    ∃ m, freeSuffix taken name fuel n = some m := by
  cases hprobe : freeSuffix taken name fuel n with
  | some m => exact ⟨m, rfl⟩
  | none =>
    have hsub : (List.range' (n + 1) fuel).map (suffixed name) ⊆ taken := by
      intro t ht
      obtain ⟨j, hj, rfl⟩ := List.mem_map.mp ht
      obtain ⟨hlow, hhigh⟩ := List.mem_range'_1.mp hj
      exact taken_of_freeSuffix_none hprobe j (by omega) (by omega)
    have hnodup : ((List.range' (n + 1) fuel).map (suffixed name)).Nodup :=
      List.Nodup.map (fun i j hij => (suffixed_inj.mp hij).2) List.nodup_range'
    have hle := (List.subperm_of_subset hnodup hsub).length_le
    rw [List.length_map, List.length_range'] at hle
    omega

end Probe

structure Built (pre : List Text) (st : State) : Prop where
  length : st.out.length = pre.length
  nodup : st.out.Nodup
  size : st.taken.length = pre.length
  mem_taken : ∀ t, t ∈ st.taken ↔ t ∈ st.out
  names : ∀ x ∈ pre, x ∈ st.out
  origin : ∀ t ∈ st.out, t ∈ pre ∨ ∃ x n, t = suffixed x n ∧ 2 ≤ n ∧ n ≤ st.counter x
  filled : ∀ x n, 2 ≤ n → n ≤ st.counter x → suffixed x n ∈ st.out
  counted : ∀ x, 1 ≤ st.counter x
  unseen : ∀ x, x ∉ pre → st.counter x = 1

theorem built_nil : Built [] {} where
  length := rfl
  nodup := List.nodup_nil
  size := rfl
  mem_taken := fun t => Iff.rfl
  names := by simp
  origin := by simp
  filled := by
    intro x n hn hle
    simp only [State.counter, Option.getD_none] at hle
    omega
  counted := fun x => le_rfl
  unseen := fun x _ => rfl

section Step

variable {pre : List Text} {st st' : State} {name x : Text} {fuel n : ℕ}

theorem mem_taken_of_mem (hst : Built pre st) (h : name ∈ pre) : name ∈ st.taken :=
  (hst.mem_taken name).mpr (hst.names name h)

/-- A name that is free keeps its spelling, a taken one gets the first free number. -/
theorem dedupeStep_cases (h : dedupeStep fuel st name = some st') :
    (name ∉ st.taken ∧ st' = { st with taken := name :: st.taken, out := st.out ++ [name] }) ∨
    ∃ n, name ∈ st.taken ∧ freeSuffix st.taken name fuel (st.counter name) = some n ∧
      st' = {
        taken := suffixed name n :: st.taken
        nextSuffix := Function.update st.nextSuffix name (some n)
        out := st.out ++ [suffixed name n] } := by
  rw [dedupeStep] at h
  by_cases htaken : name ∈ st.taken
  · rw [if_pos htaken] at h
    obtain ⟨n, hfree, rfl⟩ := Option.map_eq_some_iff.mp h
    exact .inr ⟨n, htaken, hfree, rfl⟩
  · rw [if_neg htaken] at h
    exact .inl ⟨htaken, (Option.some.inj h).symm⟩

theorem counter_update {taken out : List Text} : State.counter {
      taken
      nextSuffix := Function.update st.nextSuffix name (some n)
      out } x = if x = name then n else st.counter x := by
  simp only [State.counter, Function.update_apply]
  by_cases hx : x = name
  · rw [if_pos hx, if_pos hx, Option.getD_some]
  · rw [if_neg hx, if_neg hx]

theorem built_fresh (hst : Built pre st) (hfree : name ∉ st.taken) :
    Built (pre ++ [name]) { st with taken := name :: st.taken, out := st.out ++ [name] } where
  length := by simp [hst.length]
  nodup := by
    have hout : name ∉ st.out := fun h => hfree ((hst.mem_taken name).mpr h)
    simpa using hst.nodup.concat hout
  size := by simp [hst.size]
  mem_taken := by simp [hst.mem_taken, or_comm]
  names := by
    intro y hy
    rw [List.mem_append] at hy ⊢
    exact hy.imp_left (hst.names y)
  origin := by
    intro t ht
    rcases List.mem_append.mp ht with ht | ht
    · exact (hst.origin t ht).imp_left (List.mem_append_left _)
    · exact .inl (List.mem_append_right _ ht)
  filled := fun y k hk hle => List.mem_append_left _ (hst.filled y k hk hle)
  counted := hst.counted
  unseen := fun y hy => hst.unseen y fun h => hy (List.mem_append_left _ h)

theorem built_suffixed (hst : Built pre st) (htaken : name ∈ st.taken)
    (hfree : freeSuffix st.taken name fuel (st.counter name) = some n) :
    Built (pre ++ [name]) {
      taken := suffixed name n :: st.taken
      nextSuffix := Function.update st.nextSuffix name (some n)
      out := st.out ++ [suffixed name n] } where
  length := by simp [hst.length]
  nodup := by
    obtain ⟨-, hnew, -⟩ := freeSuffix_eq_some hfree
    have hout : suffixed name n ∉ st.out := fun h => hnew ((hst.mem_taken _).mpr h)
    simpa using hst.nodup.concat hout
  size := by simp [hst.size]
  mem_taken := by simp [hst.mem_taken, or_comm]
  names := by
    intro y hy
    rcases List.mem_append.mp hy with hy | hy
    · exact List.mem_append_left _ (hst.names y hy)
    · rw [List.mem_singleton.mp hy]
      exact List.mem_append_left _ ((hst.mem_taken name).mp htaken)
  origin := by
    obtain ⟨hlt, -, -⟩ := freeSuffix_eq_some hfree
    have hcounted := hst.counted name
    intro t ht
    rcases List.mem_append.mp ht with ht | ht
    · rcases hst.origin t ht with hpre | ⟨y, k, hy, hk, hle⟩
      · exact .inl (List.mem_append_left _ hpre)
      · refine .inr ⟨y, k, hy, hk, ?_⟩
        rw [counter_update]
        split_ifs with heq
        · subst heq
          omega
        · exact hle
    · refine .inr ⟨name, n, List.mem_singleton.mp ht, by omega, ?_⟩
      rw [counter_update, if_pos rfl]
  filled := by
    obtain ⟨hlt, -, hbelow⟩ := freeSuffix_eq_some hfree
    intro y k hk hle
    rw [counter_update] at hle
    rw [List.mem_append]
    split_ifs at hle with heq
    · subst heq
      by_cases hold : k ≤ st.counter y
      · exact .inl (hst.filled y k hk hold)
      · by_cases hnew : k = n
        · exact .inr (hnew ▸ List.mem_singleton_self _)
        · exact .inl ((hst.mem_taken _).mp (hbelow k (by omega) (by omega)))
    · exact .inl (hst.filled y k hk hle)
  counted := by
    obtain ⟨hlt, -, -⟩ := freeSuffix_eq_some hfree
    intro y
    rw [counter_update]
    split_ifs
    · omega
    · exact hst.counted y
  unseen := by
    intro y hy
    have hne : y ≠ name := fun h => hy (List.mem_append_right _ (h ▸ List.mem_singleton_self _))
    rw [counter_update, if_neg hne]
    exact hst.unseen y fun h => hy (List.mem_append_left _ h)

theorem built_step (hst : Built pre st) (h : dedupeStep fuel st name = some st') :
    Built (pre ++ [name]) st' := by
  rcases dedupeStep_cases h with ⟨hfree, rfl⟩ | ⟨n, htaken, hfree, rfl⟩
  · exact built_fresh hst hfree
  · exact built_suffixed hst htaken hfree

theorem dedupeStep_isSome (name : Text) (hst : Built pre st) (hfuel : pre.length < fuel) :
    ∃ st', dedupeStep fuel st name = some st' := by
  rw [dedupeStep]
  by_cases htaken : name ∈ st.taken
  · have hsize : st.taken.length < fuel := by rw [hst.size]; exact hfuel
    obtain ⟨n, hn⟩ := freeSuffix_isSome name (st.counter name) hsize
    rw [if_pos htaken, hn]
    exact ⟨_, rfl⟩
  · rw [if_neg htaken]
    exact ⟨_, rfl⟩

end Step

section Run

variable {pre names : List Text} {st : State} {fuel : ℕ}

theorem run_concat {name : Text} : (pre ++ [name]).foldlM (dedupeStep fuel) {} = some st ↔
    ∃ before, pre.foldlM (dedupeStep fuel) {} = some before ∧
      dedupeStep fuel before name = some st := by
  simp [List.foldlM_append, Option.bind_eq_some_iff]

theorem built_run (h : pre.foldlM (dedupeStep fuel) {} = some st) : Built pre st := by
  induction pre using List.reverseRecOn generalizing st with
  | nil =>
    obtain rfl : {} = st := Option.some.inj h
    exact built_nil
  | append_singleton pre name ih =>
    obtain ⟨before, hbefore, hstep⟩ := run_concat.mp h
    exact built_step (ih hbefore) hstep

theorem run_isSome (hfuel : pre.length ≤ fuel) :
    ∃ st, pre.foldlM (dedupeStep fuel) {} = some st := by
  induction pre using List.reverseRecOn with
  | nil => exact ⟨{}, rfl⟩
  | append_singleton pre name ih =>
    rw [List.length_append, List.length_singleton] at hfuel
    obtain ⟨before, hbefore⟩ := ih (by omega)
    have hlt : pre.length < fuel := by omega
    obtain ⟨after, hafter⟩ := dedupeStep_isSome name (built_run hbefore) hlt
    exact ⟨after, run_concat.mpr ⟨before, hbefore, hafter⟩⟩

end Run

/-- The first occurrence of every name keeps its spelling. -/
def FirstsKept (names out : List Text) : Prop :=
  ∀ i (h : i < names.length), names[i] ∉ names.take i → out[i]? = some names[i]

/-- The numbers below `k` whose suffixed form of `x` is itself among the names. -/
def literals (pre : List Text) (x : Text) (k : ℕ) : Finset ℕ :=
  (Finset.Ico 2 k).filter fun n => suffixed x n ∈ pre

/-- The name is a literal `x (k)` after `x` and the literals `x (2)`, …, `x (k-1)` have been seen
`k` times, `x` with its repetitions and each literal once. -/
def ComesLate (pre : List Text) (name : Text) : Prop :=
  ∃ x k, name = suffixed x k ∧ 2 ≤ k ∧ k ≤ pre.count x + (literals pre x k).card

/-- Some name first occurs as a literal whose number has been given away. -/
def LateSuffix (names : List Text) : Prop :=
  ∃ pre name post, names = pre ++ name :: post ∧ name ∉ pre ∧ ComesLate pre name

section Firsts

variable {pre : List Text} {st st' : State} {name x : Text} {fuel k : ℕ}

theorem firstsKept_concat {out : List Text} {given : Text} (hlength : out.length = pre.length) :
    FirstsKept (pre ++ [name]) (out ++ [given]) ↔
      FirstsKept pre out ∧ (name ∉ pre → given = name) := by
  constructor
  · intro h
    refine ⟨fun i hi hfirst => ?_, fun hfirst => ?_⟩
    · have hlt : i < (pre ++ [name]).length := by
        rw [List.length_append]
        omega
      have hkept := h i hlt
      rw [List.getElem_append_left hi, List.take_append_of_le_length (by omega),
        List.getElem?_append_left (by omega)] at hkept
      exact hkept hfirst
    · have hlt : pre.length < (pre ++ [name]).length := by simp
      have hkept := h pre.length hlt
      simp only [List.getElem_concat_length, List.take_left', ← hlength] at hkept
      simpa [← hlength] using hkept hfirst
  · rintro ⟨hkept, hlast⟩ i hi hfirst
    rw [List.length_append, List.length_singleton] at hi
    by_cases hlt : i < pre.length
    · rw [List.getElem_append_left hlt, List.take_append_of_le_length (by omega)] at hfirst
      rw [List.getElem?_append_left (by omega), List.getElem_append_left hlt]
      exact hkept i hlt hfirst
    · obtain rfl : i = pre.length := by omega
      simp only [List.getElem_concat_length, List.take_left'] at hfirst ⊢
      rw [hlast hfirst, ← hlength]
      simp

theorem lateSuffix_concat :
    LateSuffix (pre ++ [name]) ↔ LateSuffix pre ∨ name ∉ pre ∧ ComesLate pre name := by
  constructor
  · rintro ⟨before, other, after, heq, hfirst, hlate⟩
    rcases List.eq_nil_or_concat after with rfl | ⟨after, last, rfl⟩
    · obtain ⟨rfl, hname⟩ := List.append_inj' heq rfl
      obtain rfl := List.singleton_inj.mp hname
      exact .inr ⟨hfirst, hlate⟩
    · have heq' : pre ++ [name] = (before ++ other :: after) ++ [last] := by simpa using heq
      obtain ⟨rfl, -⟩ := List.append_inj' heq' rfl
      exact .inl ⟨before, other, after, rfl, hfirst, hlate⟩
  · rintro (⟨before, other, after, rfl, hfirst, hlate⟩ | ⟨hfirst, hlate⟩)
    · exact ⟨before, other, after ++ [name], by simp, hfirst, hlate⟩
    · exact ⟨pre, name, [], rfl, hfirst, hlate⟩

theorem literals_split {c : ℕ} (hc : 2 ≤ c) (hle : c ≤ k) : (literals pre x k).card =
    (literals pre x c).card + ((Finset.Ico c k).filter fun n => suffixed x n ∈ pre).card := by
  rw [literals, ← Finset.Ico_union_Ico_eq_Ico hc hle, Finset.filter_union,
    Finset.card_union_of_disjoint]
  · rfl
  · exact Finset.disjoint_filter_filter (Finset.Ico_disjoint_Ico_consecutive 2 c k)

theorem literals_congr {pre' : List Text}
    (h : ∀ n, 2 ≤ n → n < k → (suffixed x n ∈ pre' ↔ suffixed x n ∈ pre)) :
    literals pre' x k = literals pre x k := by
  apply Finset.filter_congr
  intro n hn
  obtain ⟨hlow, hhigh⟩ := Finset.mem_Ico.mp hn
  exact h n hlow hhigh

/-- While every first occurrence keeps its name, the counter of a name is the number of its
occurrences and of the literals it passed. -/
def Counts (pre : List Text) (st : State) : Prop :=
  ∀ x ∈ pre, st.counter x = pre.count x + (literals pre x (st.counter x + 1)).card

theorem counts_fresh (hst : Built pre st) (hcounts : Counts pre st) (hfree : name ∉ st.taken) :
    Counts (pre ++ [name]) { st with taken := name :: st.taken, out := st.out ++ [name] } := by
  have hnew : name ∉ pre := fun h => hfree (mem_taken_of_mem hst h)
  intro x hx
  change st.counter x = _ + (literals _ x (st.counter x + 1)).card
  by_cases hname : x = name
  · subst hname
    simp [hst.unseen x hnew, List.count_append, List.count_eq_zero_of_not_mem hnew, literals]
  · have hold : x ∈ pre := by simpa [hname] using hx
    have hsame : literals (pre ++ [name]) x (st.counter x + 1) =
        literals pre x (st.counter x + 1) := by
      apply literals_congr
      intro n hn hlt
      have hout := hst.filled x n hn (by omega)
      have hne : suffixed x n ≠ name := fun h => hfree ((hst.mem_taken name).mpr (h ▸ hout))
      simp [hne]
    rw [hsame, List.count_append, List.count_singleton, if_neg (by simpa using Ne.symm hname)]
    exact hcounts x hold

theorem counts_suffixed {n : ℕ} (hst : Built pre st) (hcounts : Counts pre st) (hold : name ∈ pre)
    (hfree : freeSuffix st.taken name fuel (st.counter name) = some n) :
    Counts (pre ++ [name]) {
      taken := suffixed name n :: st.taken
      nextSuffix := Function.update st.nextSuffix name (some n)
      out := st.out ++ [suffixed name n] } := by
  have hmem : ∀ t, t ∈ pre ++ [name] ↔ t ∈ pre := by
    intro t
    rw [List.mem_append, List.mem_singleton, or_iff_left_of_imp]
    rintro rfl
    exact hold
  have hsame : ∀ x k, literals (pre ++ [name]) x k = literals pre x k :=
    fun x k => literals_congr fun n _ _ => hmem _
  intro x hx
  rw [hmem] at hx
  rw [counter_update, hsame, List.count_append, List.count_singleton]
  by_cases hname : x = name
  · subst hname
    obtain ⟨hlt, hnew, hbelow⟩ := freeSuffix_eq_some hfree
    have hcounted := hst.counted x
    have hnotin : suffixed x n ∉ pre := fun h => hnew (mem_taken_of_mem hst h)
    -- the numbers that the loop passed are literals, for nothing else was given away above
    have hpassed : ∀ j, st.counter x < j → j < n → suffixed x j ∈ pre := by
      intro j hj hjn
      have hout := (hst.mem_taken _).mp (hbelow j hj hjn)
      rcases hst.origin _ hout with hpre | ⟨y, k, heq, -, hle⟩
      · exact hpre
      · obtain ⟨rfl, rfl⟩ := suffixed_inj.mp heq
        omega
    have hrange : (Finset.Ico (st.counter x + 1) (n + 1)).filter (fun j => suffixed x j ∈ pre) =
        Finset.Ico (st.counter x + 1) n := by
      ext j
      rw [Finset.mem_filter, Finset.mem_Ico, Finset.mem_Ico]
      constructor
      · rintro ⟨⟨hlow, hhigh⟩, hpre⟩
        have hne : j ≠ n := fun h => hnotin (h ▸ hpre)
        omega
      · rintro ⟨hlow, hhigh⟩
        exact ⟨by omega, hpassed j (by omega) hhigh⟩
    have hsplit : (literals pre x (n + 1)).card = (literals pre x (st.counter x + 1)).card +
        (n - (st.counter x + 1)) := by
      rw [literals_split (by omega : 2 ≤ st.counter x + 1) (by omega), hrange, Nat.card_Ico]
    have hcount := hcounts x hx
    rw [if_pos rfl, hsplit]
    simp only [beq_self_eq_true, if_true]
    omega
  · rw [if_neg hname, if_neg (by simpa using Ne.symm hname)]
    exact hcounts x hx

theorem taken_iff_comesLate (hst : Built pre st) (hcounts : Counts pre st) (hfirst : name ∉ pre) :
    name ∈ st.taken ↔ ComesLate pre name := by
  constructor
  · intro htaken
    obtain ⟨x, n, rfl, hn, hle⟩ :=
      (hst.origin name ((hst.mem_taken name).mp htaken)).resolve_left hfirst
    refine ⟨x, n, rfl, hn, ?_⟩
    have hx : x ∈ pre := by
      by_contra hnot
      have hone := hst.unseen x hnot
      omega
    have hcount := hcounts x hx
    have hrange : ((Finset.Ico n (st.counter x + 1)).filter fun j => suffixed x j ∈ pre).card ≤
        st.counter x - n := by
      have hsub : (Finset.Ico n (st.counter x + 1)).filter (fun j => suffixed x j ∈ pre) ⊆
          Finset.Ioc n (st.counter x) := by
        intro j hj
        obtain ⟨hrange, hpre⟩ := Finset.mem_filter.mp hj
        obtain ⟨hlow, hhigh⟩ := Finset.mem_Ico.mp hrange
        have hne : j ≠ n := fun h => hfirst (h ▸ hpre)
        exact Finset.mem_Ioc.mpr ⟨by omega, by omega⟩
      simpa using Finset.card_le_card hsub
    rw [literals_split hn (by omega : n ≤ st.counter x + 1)] at hcount
    omega
  · rintro ⟨x, k, rfl, hk, hle⟩
    apply (hst.mem_taken _).mpr
    apply hst.filled x k hk
    by_contra hlt
    have hcard : ∀ c ≤ k, ((Finset.Ico c k).filter fun j => suffixed x j ∈ pre).card ≤ k - c := by
      intro c hc
      simpa using Finset.card_filter_le (Finset.Ico c k) fun j => suffixed x j ∈ pre
    by_cases hx : x ∈ pre
    · have hcount := hcounts x hx
      have hcounted := hst.counted x
      have hrest := hcard (st.counter x + 1) (by omega)
      rw [literals_split (by omega : 2 ≤ st.counter x + 1) (by omega)] at hle
      omega
    · have hall := hcard 2 hk
      rw [List.count_eq_zero_of_not_mem hx, literals] at hle
      omega

theorem given_eq_iff (h : dedupeStep fuel st name = some st') :
    ∃ given, st'.out = st.out ++ [given] ∧ (given = name ↔ name ∉ st.taken) := by
  rcases dedupeStep_cases h with ⟨hfree, rfl⟩ | ⟨n, htaken, -, rfl⟩
  · exact ⟨name, rfl, iff_of_true rfl hfree⟩
  · exact ⟨suffixed name n, rfl, iff_of_false (suffixed_ne_self name n) (not_not.mpr htaken)⟩

theorem counts_step (hst : Built pre st) (hcounts : Counts pre st)
    (h : dedupeStep fuel st name = some st') (hkept : name ∉ pre → name ∉ st.taken) :
    Counts (pre ++ [name]) st' := by
  rcases dedupeStep_cases h with ⟨hfree, rfl⟩ | ⟨n, htaken, hfree, rfl⟩
  · exact counts_fresh hst hcounts hfree
  · have hold : name ∈ pre := by
      by_contra hnot
      exact hkept hnot htaken
    exact counts_suffixed hst hcounts hold hfree

end Firsts

theorem firstsKept_run {names : List Text} {st : State} {fuel : ℕ}
    (h : names.foldlM (dedupeStep fuel) {} = some st) :
    (FirstsKept names st.out ↔ ¬ LateSuffix names) ∧
      (FirstsKept names st.out → Counts names st) := by
  induction names using List.reverseRecOn generalizing st with
  | nil =>
    refine ⟨iff_of_true (fun i hi => absurd hi (Nat.not_lt_zero i)) ?_, fun _ x hx => ?_⟩
    · rintro ⟨pre, name, post, heq, -⟩
      simp at heq
    · exact absurd hx List.not_mem_nil
  | append_singleton pre name ih =>
    obtain ⟨before, hbefore, hstep⟩ := run_concat.mp h
    obtain ⟨hfirsts, hcounts⟩ := ih hbefore
    have hbuilt := built_run hbefore
    obtain ⟨given, hout, hgiven⟩ := given_eq_iff hstep
    rw [hout, firstsKept_concat hbuilt.length, lateSuffix_concat, hgiven, hfirsts]
    constructor
    · constructor
      · rintro ⟨hkept, hname⟩ (hlate | ⟨hfirst, hlate⟩)
        · exact hkept hlate
        · have hcounted := hcounts (hfirsts.mpr hkept)
          exact hname hfirst ((taken_iff_comesLate hbuilt hcounted hfirst).mpr hlate)
      · intro hnot
        refine ⟨fun hlate => hnot (.inl hlate), fun hfirst htaken => hnot (.inr ⟨hfirst, ?_⟩)⟩
        have hcounted := hcounts (hfirsts.mpr fun hlate => hnot (.inl hlate))
        exact (taken_iff_comesLate hbuilt hcounted hfirst).mp htaken
    · rintro ⟨hkept, hname⟩
      exact counts_step hbuilt (hcounts (hfirsts.mpr hkept)) hstep hname

theorem dedupeNames_distinct {names : List Text} {fuel : ℕ} (hfuel : names.length ≤ fuel) :
    ∃ st, names.foldlM (dedupeStep fuel) {} = some st ∧
      dedupeNames fuel names = some st.out ∧ st.out.length = names.length ∧ st.out.Nodup := by
  obtain ⟨st, hst⟩ := run_isSome hfuel
  have hbuilt := built_run hst
  exact ⟨st, hst, by rw [dedupeNames, hst, Option.map_some], hbuilt.length, hbuilt.nodup⟩

/-- The loops end, no name is lost and none is given twice; and every first occurrence keeps its
name exactly when no name first occurs as a literal whose number has been given away. -/
theorem unique_names_iff (names : List Text) :
    (∀ fuel ≥ names.length, ∃ out, dedupeNames fuel names = some out ∧
      out.length = names.length ∧ out.Nodup ∧ FirstsKept names out) ↔ ¬ LateSuffix names := by
  constructor
  · intro h
    obtain ⟨out, hout, -, -, hkept⟩ := h names.length le_rfl
    obtain ⟨st, hst, hresult, -, -⟩ := dedupeNames_distinct (le_refl names.length)
    obtain rfl := Option.some.inj (hout.symm.trans hresult)
    exact (firstsKept_run hst).1.mp hkept
  · intro h fuel hfuel
    obtain ⟨st, hst, hresult, hlength, hnodup⟩ := dedupeNames_distinct hfuel
    exact ⟨st.out, hresult, hlength, hnodup, (firstsKept_run hst).1.mpr h⟩

/-- The third name is the only one of its spelling, and gets a suffix. -/
theorem unique_name_suffixed : ¬ ∀ names : List Text, ∀ fuel ≥ names.length,
    ∃ out, dedupeNames fuel names = some out ∧ FirstsKept names out := by
  intro h
  obtain ⟨out, hout, hkept⟩ := h ["a", "a", "a (2)"] 3 le_rfl
  have hrun : dedupeNames 3 ["a", "a", "a (2)"] =
      some ([("a" : Text), ("a (2)" : Text), ("a (2) (2)" : Text)]) := by
    decide +kernel
  obtain rfl := Option.some.inj (hout.symm.trans hrun)
  exact absurd (hkept 2 (by decide) (by decide)) (by decide)

end DedupeNames
