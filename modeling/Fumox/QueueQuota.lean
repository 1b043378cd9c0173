import Mathlib
import Fumox.ChunkedQuota
import Fumox.ProbeLifecycle

/-!
How `enqueue_checks` spends its limit.  Candidates that are already queued pass the filter of the
insert and take a place within the limit of their chunk before the insert ignores them.
-/

namespace QueueQuota

open RustText ProxyModels RowTable ProxyStore ChunkedQuota

def newestFirst (candidateIds : List ℕ) : List ℕ :=
  (candidateIds.insertionSort (· ≥ ·)).dedup

def eligible (s : Store) (id : ℕ) : Bool :=
  s.proxies.any fun r => r.id == id && queueable s r

def queued (s : Store) (id : ℕ) : Bool :=
  s.requests.any fun q => q.proxyId == id

/-- The eligible candidates without a request, in selection order. -/
def unqueued (s : Store) (candidateIds : List ℕ) : List ℕ :=
  ((newestFirst candidateIds).filter (eligible s)).filter (!queued s ·)

def withRequests (s : Store) (ids : List ℕ) (now : ℤ) : Store :=
  { s with requests := s.requests ++ ids.map fun id => ⟨id, now⟩ }

/-- What a limit promises: the first candidates that are not queued yet, each once, as many as the
limit allows, and nothing else changes. -/
structure FillsQuota (s : Store) (candidateIds : List ℕ) (limit : ℕ) (now : ℤ) : Prop where
  added : (enqueueChecks s candidateIds limit now).1 =
    withRequests s ((unqueued s candidateIds).take limit) now
  count : (enqueueChecks s candidateIds limit now).2 =
    min limit (unqueued s candidateIds).length
  once : ((unqueued s candidateIds).take limit).Nodup

def eligibleChunks (s : Store) (candidateIds : List ℕ) : List (List ℕ) :=
  ((newestFirst candidateIds).toChunks 500).map fun chunk => chunk.filter (eligible s)

/-- In every chunk, with the limit less the unqueued candidates of the chunks before it as `left`,
the first `left` eligible candidates are all unqueued, or no unqueued one comes after them. -/
def QuotaSpared (s : Store) (candidateIds : List ℕ) (limit : ℕ) : Prop :=
  Spared (!queued s ·) (eligibleChunks s candidateIds) limit

instance (s : Store) (candidateIds : List ℕ) (limit : ℕ) :
    Decidable (QuotaSpared s candidateIds limit) :=
  inferInstanceAs (Decidable (Spared _ _ _))

variable {s : Store} {candidateIds ids chunk : List ℕ} {chunks : List (List ℕ)}
  {limit left : ℕ} {now : ℤ}

theorem pairwise_newestFirst (candidateIds : List ℕ) :
    (newestFirst candidateIds).Pairwise (· > ·) := by
  have hsorted : (newestFirst candidateIds).Pairwise (· ≥ ·) :=
    (List.pairwise_insertionSort (· ≥ ·) candidateIds).sublist (List.dedup_sublist _)
  have hnodup : (newestFirst candidateIds).Nodup := List.nodup_dedup _
  exact (hsorted.and hnodup).imp fun ⟨hge, hne⟩ => lt_of_le_of_ne hge hne.symm

theorem eligible_withRequests : eligible (withRequests s ids now) = eligible s := rfl

theorem queued_withRequests (id : ℕ) :
    queued (withRequests s ids now) id = (queued s id || ids.contains id) := by
  apply Bool.eq_iff_iff.mpr
  simp [queued, withRequests]

theorem withRequests_nil : withRequests s [] now = s := by
  simp [withRequests]

theorem withRequests_append (ids' : List ℕ) :
    withRequests (withRequests s ids now) ids' now = withRequests s (ids ++ ids') now := by
  simp [withRequests]

theorem eligible_iff {id : ℕ} :
    eligible s id = true ↔ ∃ r ∈ s.proxies, r.id = id ∧ queueable s r = true := by
  simp [eligible]

theorem selected_chunk (hids : (s.proxies.map (·.id)).Nodup) (hchunk : chunk.Pairwise (· > ·)) :
    ((s.proxies.filter fun r => chunk.contains r.id && queueable s r).map (·.id)).insertionSort
        (· ≥ ·) = chunk.filter (eligible s) := by
  have hperm := List.perm_insertionSort (· ≥ ·)
    ((s.proxies.filter fun r => chunk.contains r.id && queueable s r).map (·.id))
  have hsorted := List.pairwise_insertionSort (· ≥ ·)
    ((s.proxies.filter fun r => chunk.contains r.id && queueable s r).map (·.id))
  have hselected :
      ((s.proxies.filter fun r => chunk.contains r.id && queueable s r).map (·.id)).Nodup :=
    hids.sublist (List.filter_sublist.map _)
  have hnodup : (chunk.filter (eligible s)).Nodup :=
    (hchunk.imp fun h => Nat.ne_of_gt h).sublist List.filter_sublist
  have hsame : ((s.proxies.filter fun r => chunk.contains r.id && queueable s r).map (·.id)).Perm
      (chunk.filter (eligible s)) := by
    apply (List.perm_ext_iff_of_nodup hselected hnodup).mpr
    intro id
    rw [List.mem_filter, eligible_iff]
    simp only [List.mem_map, List.mem_filter, Bool.and_eq_true, List.contains_iff_mem]
    constructor
    · rintro ⟨r, ⟨hr, hin, hqueueable⟩, rfl⟩
      exact ⟨hin, r, hr, rfl, hqueueable⟩
    · rintro ⟨hin, r, hr, rfl, hqueueable⟩
      exact ⟨r, ⟨hr, hin, hqueueable⟩, rfl⟩
  apply List.Perm.eq_of_pairwise _ hsorted
    ((hchunk.sublist List.filter_sublist).imp fun h => Nat.le_of_lt h) (hperm.trans hsame)
  intro a b _ _ hab hba
  exact Nat.le_antisymm hba hab

theorem enqueueChunk_eq (hids : (s.proxies.map (·.id)).Nodup) (hchunk : chunk.Pairwise (· > ·)) :
    enqueueChunk s chunk left now =
      (withRequests s (((chunk.filter (eligible s)).take left).filter (!queued s ·)) now,
        (((chunk.filter (eligible s)).take left).filter (!queued s ·)).length) := by
  unfold enqueueChunk
  simp only [selected_chunk hids hchunk]
  rfl

theorem enqueueChunks_eq (hids : (s.proxies.map (·.id)).Nodup)
    (hchunks : chunks.flatten.Pairwise (· > ·)) :
    enqueueChunks now s chunks left =
      (withRequests s (fill (!queued s ·) (chunks.map fun l => l.filter (eligible s)) left) now,
        (fill (!queued s ·) (chunks.map fun l => l.filter (eligible s)) left).length) := by
  induction chunks generalizing s left with
  | nil => rw [enqueueChunks, List.map_nil, fill, withRequests_nil, List.length_nil]
  | cons chunk chunks ih =>
    rw [List.flatten_cons, List.pairwise_append] at hchunks
    obtain ⟨hchunk, htail, hcross⟩ := hchunks
    rw [enqueueChunks, List.map_cons]
    by_cases hnone : left = 0
    · rw [if_pos hnone, hnone, fill_zero, withRequests_nil, List.length_nil]
    · rw [if_neg hnone, enqueueChunk_eq hids hchunk, fill]
      dsimp only
      rw [ih (s := withRequests s _ now) hids htail, withRequests_append, eligible_withRequests]
      -- the requests of this chunk are none of the later ones
      have hlater : ∀ x ∈ (chunks.map fun l => l.filter (eligible s)).flatten,
          (!queued (withRequests s (((chunk.filter (eligible s)).take left).filter
            (!queued s ·)) now) x) = !queued s x := by
        intro x hx
        obtain ⟨l, hl, hxl⟩ := List.mem_flatten.mp hx
        obtain ⟨l', hl', rfl⟩ := List.mem_map.mp hl
        have hxlater : x ∈ chunks.flatten :=
          List.mem_flatten.mpr ⟨l', hl', List.mem_of_mem_filter hxl⟩
        have hnot : x ∉ ((chunk.filter (eligible s)).take left).filter (!queued s ·) := by
          intro hmem
          have hxchunk := List.mem_of_mem_filter (List.mem_of_mem_take (List.mem_of_mem_filter hmem))
          exact absurd (hcross x hxchunk x hxlater) (lt_irrefl x)
        rw [queued_withRequests]
        simp [hnot]
      rw [fill_congr hlater, List.length_append]

theorem flatten_eligibleChunks (s : Store) (candidateIds : List ℕ) :
    (eligibleChunks s candidateIds).flatten = (newestFirst candidateIds).filter (eligible s) := by
  rw [eligibleChunks, ← List.filter_flatten, flatten_toChunks]

theorem enqueueChecks_eq (hids : (s.proxies.map (·.id)).Nodup) :
    enqueueChecks s candidateIds limit now =
      (withRequests s (fill (!queued s ·) (eligibleChunks s candidateIds) limit) now,
        (fill (!queued s ·) (eligibleChunks s candidateIds) limit).length) := by
  rw [enqueueChecks, eligibleChunks]
  apply enqueueChunks_eq hids
  have hpairwise := pairwise_newestFirst candidateIds
  rwa [← flatten_toChunks 500 (newestFirst candidateIds)] at hpairwise

theorem withRequests_inj {ids' : List ℕ} :
    withRequests s ids now = withRequests s ids' now ↔ ids = ids' := by
  constructor
  · intro h
    have hrequests := List.append_cancel_left (congrArg Store.requests h)
    have hinj : Function.Injective fun id : ℕ => (⟨id, now⟩ : ProbeRequest) :=
      fun a b hab => congrArg ProbeRequest.proxyId hab
    exact hinj.list_map hrequests
  · rintro rfl
    rfl

/-- The limit is spent on the first unqueued candidates exactly when no queued candidate stands
within the limit of its chunk ahead of an unqueued one beyond it. -/
theorem fills_quota_iff (hids : (s.proxies.map (·.id)).Nodup) :
    FillsQuota s candidateIds limit now ↔ QuotaSpared s candidateIds limit := by
  have hnodup : (newestFirst candidateIds).Nodup := List.nodup_dedup _
  have hchunks : (eligibleChunks s candidateIds).flatten.Nodup := by
    rw [flatten_eligibleChunks]
    exact hnodup.sublist List.filter_sublist
  have hfill : fill (!queued s ·) (eligibleChunks s candidateIds) limit =
      ((eligibleChunks s candidateIds).flatten.filter (!queued s ·)).take limit ↔
        QuotaSpared s candidateIds limit := fill_eq_take_iff hchunks
  rw [flatten_eligibleChunks] at hfill
  constructor
  · intro h
    apply hfill.mp
    have hadded := h.added
    rw [enqueueChecks_eq hids] at hadded
    exact withRequests_inj.mp hadded
  · intro h
    have heq := hfill.mpr h
    refine ⟨?_, ?_, ?_⟩
    · rw [enqueueChecks_eq hids, heq]
      rfl
    · rw [enqueueChecks_eq hids, heq, List.length_take]
      rfl
    · exact (hnodup.sublist (List.filter_sublist.trans List.filter_sublist)).sublist
        (List.take_sublist _ _)

section Samples

def unknownRow (id : ℕ) : ProxyRow :=
  { id := id, fingerprint := decimal id, scheme := .trojan, name := "n", host := "h", port := 443,
    credential := "u", params := none, unknownParams := none, rawLine := none,
    createdAt := 0, updatedAt := 0 }

def twoUnknown (requested : List ℕ) : Store where
  proxies := [unknownRow 1, unknownRow 2]
  links := [⟨1, "s", 0⟩, ⟨2, "s", 0⟩]
  requests := requested.map fun id => ⟨id, 0⟩

theorem fills_quota_iff_sample :
    FillsQuota (twoUnknown [1]) [1, 2] 1 9 ↔ QuotaSpared (twoUnknown [1]) [1, 2] 1 :=
  fills_quota_iff (by decide)

/-- The newest candidate is queued already and uses the limit up: nothing is added, though the
other one is eligible. -/
theorem queued_candidate_uses_the_limit :
    unqueued (twoUnknown [2]) [1, 2] = [1] ∧
      enqueueChecks (twoUnknown [2]) [1, 2] 1 9 = (twoUnknown [2], 0) ∧
      ¬FillsQuota (twoUnknown [2]) [1, 2] 1 9 := by
  refine ⟨by decide, by decide, fun h => ?_⟩
  exact absurd h.count (by decide)

end Samples

end QueueQuota
