import Fumox.CycleCharges

/-!
The bounded window that a lane samples from.  The leg below the anchor is read only when the leg
above it is shorter than the limit, so a pool that would fit the window may be read in part.
-/

namespace WindowSample

open RustText ProxyModels ProxyStore ProbeCycle CycleCharges

variable {s : Store} {eligible : ProxyRow → Bool} {limit anchor : ℕ}

def pool (s : Store) (eligible : ProxyRow → Bool) : List ProxyRow :=
  s.proxies.filter eligible

def above (s : Store) (eligible : ProxyRow → Bool) (anchor : ℕ) : List ProxyRow :=
  (byId (pool s eligible)).filter fun r => anchor ≤ r.id

def below (s : Store) (eligible : ProxyRow → Bool) (anchor : ℕ) : List ProxyRow :=
  (byId (pool s eligible)).filter fun r => r.id < anchor

def Draws (s : Store) (eligible : ProxyRow → Bool) (limit anchor : ℕ) (d : Draw) : Prop :=
  d.anchor = anchor ∧ d.shuffled.Perm (windowRows s eligible limit anchor)

/-- What the draws around one anchor promise: as many distinct eligible rows as there are, up to the
limit; and a pool that fits the window is the window, so that each of its rows may be drawn. -/
structure SamplesPool (s : Store) (eligible : ProxyRow → Bool) (limit anchor : ℕ) : Prop where
  length : ∀ d, Draws s eligible limit anchor d →
    (d.rows limit).length = min limit (pool s eligible).length
  distinct : ∀ d, Draws s eligible limit anchor d → ((d.rows limit).map (·.id)).Nodup
  members : ∀ d, Draws s eligible limit anchor d → ∀ r ∈ d.rows limit, r ∈ pool s eligible
  whole : (pool s eligible).length ≤ limit * sampleWindowFactor →
    (windowRows s eligible limit anchor).Perm (pool s eligible)
  chance : (pool s eligible).length ≤ limit * sampleWindowFactor →
    ∀ r ∈ pool s eligible, ∃ d, Draws s eligible limit anchor d ∧ r ∈ d.rows limit

/-- A pool that fits the window has no row below the anchor, or fewer than `limit` rows from the
anchor upward. -/
def AnchorSpared (s : Store) (eligible : ProxyRow → Bool) (limit anchor : ℕ) : Prop :=
  (pool s eligible).length ≤ limit * sampleWindowFactor →
    (∀ r ∈ pool s eligible, anchor ≤ r.id) ∨
      ((pool s eligible).countP fun r => anchor ≤ r.id) < limit

theorem perm_byId (rows : List ProxyRow) : (byId rows).Perm rows :=
  List.perm_insertionSort _ rows

theorem perm_above_below :
    (above s eligible anchor ++ below s eligible anchor).Perm (pool s eligible) := by
  have hbelow : below s eligible anchor =
      (byId (pool s eligible)).filter fun r => !decide (anchor ≤ r.id) := by
    apply List.filter_congr
    intro r _
    by_cases h : anchor ≤ r.id
    · simp [h]
    · simp [h, Nat.lt_of_not_le h]
  rw [above, hbelow]
  exact (List.filter_append_perm _ _).trans (perm_byId _)

theorem length_pool :
    (pool s eligible).length =
      (above s eligible anchor).length + (below s eligible anchor).length := by
  rw [← perm_above_below.length_eq, List.length_append]

theorem length_above :
    (above s eligible anchor).length = (pool s eligible).countP fun r => anchor ≤ r.id := by
  rw [above, ← List.countP_eq_length_filter]
  exact (perm_byId _).countP_eq _

theorem below_eq_nil_iff : below s eligible anchor = [] ↔ ∀ r ∈ pool s eligible, anchor ≤ r.id := by
  rw [below, List.filter_eq_nil_iff]
  constructor
  · intro h r hr
    simpa using h r ((perm_byId _).mem_iff.mpr hr)
  · intro h r hr
    simpa using h r ((perm_byId _).mem_iff.mp hr)

theorem windowRows_eq :
    windowRows s eligible limit anchor =
      if (above s eligible anchor).length < limit ∧ 0 < anchor then
        above s eligible anchor ++
          (below s eligible anchor).reverse.take (limit * sampleWindowFactor)
      else (above s eligible anchor).take (limit * sampleWindowFactor) := by
  have hfactor : limit ≤ limit * sampleWindowFactor := by
    unfold sampleWindowFactor
    omega
  have hwindow : windowRows s eligible limit anchor =
      if ((above s eligible anchor).take (limit * sampleWindowFactor)).length < limit ∧
          0 < anchor then
        (above s eligible anchor).take (limit * sampleWindowFactor) ++
          (below s eligible anchor).reverse.take (limit * sampleWindowFactor)
      else (above s eligible anchor).take (limit * sampleWindowFactor) := rfl
  rw [hwindow, List.length_take]
  by_cases hshort : (above s eligible anchor).length < limit
  · have hmin : min (limit * sampleWindowFactor) (above s eligible anchor).length =
        (above s eligible anchor).length := by omega
    rw [hmin, List.take_of_length_le (by omega)]
  · have hmin : ¬min (limit * sampleWindowFactor) (above s eligible anchor).length < limit := by
      omega
    rw [if_neg fun h => hmin h.1, if_neg fun h => hshort h.1]

theorem below_zero : below s eligible 0 = [] :=
  below_eq_nil_iff.mpr fun _ _ => Nat.zero_le _

theorem length_windowRows :
    min limit (windowRows s eligible limit anchor).length = min limit (pool s eligible).length := by
  have hfactor : limit ≤ limit * sampleWindowFactor := by
    unfold sampleWindowFactor
    omega
  have hpool : (pool s eligible).length =
      (above s eligible anchor).length + (below s eligible anchor).length := length_pool
  rw [windowRows_eq]
  split_ifs with hshort
  · rw [List.length_append, List.length_take, List.length_reverse]
    omega
  · rw [List.length_take]
    by_cases hzero : anchor = 0
    · subst hzero
      rw [below_zero, List.length_nil] at hpool
      omega
    · have hlong : ¬(above s eligible anchor).length < limit := fun h => hshort ⟨h, by omega⟩
      omega

theorem perm_windowRows_iff (hfits : (pool s eligible).length ≤ limit * sampleWindowFactor) :
    (windowRows s eligible limit anchor).Perm (pool s eligible) ↔
      below s eligible anchor = [] ∨ (above s eligible anchor).length < limit := by
  have hpool : (pool s eligible).length =
      (above s eligible anchor).length + (below s eligible anchor).length := length_pool
  rw [windowRows_eq]
  by_cases hshort : (above s eligible anchor).length < limit ∧ 0 < anchor
  · rw [if_pos hshort, List.take_of_length_le (by rw [List.length_reverse]; omega)]
    have hboth : (above s eligible anchor ++ (below s eligible anchor).reverse).Perm
        (pool s eligible) :=
      ((List.reverse_perm _).append_left _).trans perm_above_below
    exact iff_of_true hboth (.inr hshort.1)
  · rw [if_neg hshort, List.take_of_length_le (by omega)]
    constructor
    · intro hperm
      left
      have hlength := hperm.length_eq
      exact List.length_eq_zero_iff.mp (by omega)
    · intro hspared
      have hempty : below s eligible anchor = [] := by
        rcases hspared with hempty | hfew
        · exact hempty
        · have hzero : anchor = 0 := by
            by_contra hne
            exact hshort ⟨hfew, by omega⟩
          rw [hzero]
          exact below_zero
      have hall : (above s eligible anchor ++ below s eligible anchor).Perm (pool s eligible) :=
        perm_above_below
      rwa [hempty, List.append_nil] at hall

theorem exists_draw {r : ProxyRow} (hlimit : 0 < limit)
    (hr : r ∈ windowRows s eligible limit anchor) :
    ∃ d, Draws s eligible limit anchor d ∧ r ∈ d.rows limit := by
  refine ⟨⟨anchor, r :: (windowRows s eligible limit anchor).erase r⟩,
    ⟨rfl, (List.perm_cons_erase hr).symm⟩, ?_⟩
  obtain ⟨n, rfl⟩ : ∃ n, limit = n + 1 := ⟨limit - 1, by omega⟩
  exact List.mem_cons_self

/-- A draw around an anchor samples the pool exactly when the anchor is spared: always in number and
kind, and as a whole unless both legs are needed and the one above fills the limit. -/
theorem samples_pool_iff (hkeys : Keys s) :
    SamplesPool s eligible limit anchor ↔ AnchorSpared s eligible limit anchor := by
  have hwhole : AnchorSpared s eligible limit anchor ↔
      ((pool s eligible).length ≤ limit * sampleWindowFactor →
        (windowRows s eligible limit anchor).Perm (pool s eligible)) := by
    unfold AnchorSpared
    rw [← below_eq_nil_iff, ← length_above]
    exact forall_congr' fun hfits => (perm_windowRows_iff hfits).symm
  rw [hwhole]
  constructor
  · exact fun h => h.whole
  · intro h
    refine ⟨?_, ?_, ?_, h, fun hfits r hr => ?_⟩
    · rintro d ⟨-, hshuffled⟩
      rw [Draw.rows, List.length_take, hshuffled.length_eq, length_windowRows]
    · rintro d ⟨-, hshuffled⟩
      exact ((hshuffled.map _).nodup_iff.mpr (nodup_windowRows hkeys)).sublist
        ((List.take_sublist _ _).map _)
    · rintro d ⟨-, hshuffled⟩ r hr
      exact List.mem_filter.mpr
        (mem_windowRows (hshuffled.mem_iff.mp (List.mem_of_mem_take hr)))
    · apply exists_draw _ ((h hfits).mem_iff.mpr hr)
      have hsome := List.length_pos_of_mem hr
      unfold sampleWindowFactor at hfits
      omega

section Samples

def pooledRow (id : ℕ) : ProxyRow :=
  { id := id, fingerprint := decimal id, scheme := .trojan, name := "n", host := "h", port := 443,
    credential := "u", params := none, unknownParams := none, rawLine := none,
    createdAt := 0, updatedAt := 0 }

def twoPooled : Store := { proxies := [pooledRow 1, pooledRow 2] }

theorem samples_pool_iff_sample :
    SamplesPool twoPooled (fun _ => true) 1 1 ↔ AnchorSpared twoPooled (fun _ => true) 1 1 :=
  samples_pool_iff ⟨by decide, by decide⟩

/-- Two rows fit a window of four, but an anchor at the second one leaves the first one out. -/
theorem anchor_leaves_row_out :
    (pool twoPooled fun _ => true).length ≤ 1 * sampleWindowFactor ∧
      windowRows twoPooled (fun _ => true) 1 2 = [pooledRow 2] ∧
      ¬SamplesPool twoPooled (fun _ => true) 1 2 := by
  refine ⟨by decide, by decide, fun h => ?_⟩
  exact absurd (h.whole (by decide)).length_eq (by decide)

end Samples

end WindowSample
