import Fumox.ProfileLimit

/-!
The order of a finalized list.  Copies collapse onto the first of them, the sort ranks by its key
and the cap keeps a prefix; a descending sort by source, name or country reverses ties as well.
-/

namespace FinalizeOrder

open RustText ProxyModels ProxyFingerprint PipelineConfig RankedPrefix PipelineSteps

variable {env : Environment} {pipeline : Pipeline env} {candidates : List Candidate}

def distinct (env : Environment) (candidates : List Candidate) : List Candidate :=
  firstCopies (candidateKey env) [] candidates

/-- The ascending comparison that the sort runs; by latency it carries the direction itself. -/
def keyLe (pipeline : Pipeline env) : Candidate → Candidate → Bool :=
  sortLe env pipeline.sortBy pipeline.sortDesc

def places (pipeline : Pipeline env) (candidates : List Candidate) : ℕ :=
  pipeline.limitCount.getD (distinct env candidates).length

structure Finalized (pipeline : Pipeline env) (candidates : List Candidate) : Prop where
  distinct : ((finalize env pipeline candidates).map (candidateKey env)).Nodup
  first : ∀ c ∈ finalize env pipeline candidates,
    candidates.find? (fun x => candidateKey env x == candidateKey env c) = some c
  ordered : ∃ ordered : List Candidate,
    Ordered (keyLe pipeline) (reverses pipeline.sortBy pipeline.sortDesc)
        (FinalizeOrder.distinct env candidates) ordered ∧
      finalize env pipeline candidates = truncate pipeline.limitCount ordered
  missingLast : pipeline.sortBy = .latency →
    (finalize env pipeline candidates).Pairwise fun a b =>
      a.latencyMs = none → b.latencyMs = none
  idempotent :
    finalize env pipeline (finalize env pipeline candidates) = finalize env pipeline candidates

/-- No reversed sort, or equal keys only beyond the places of the cap. -/
def TiesSpared (pipeline : Pipeline env) (candidates : List Candidate) : Prop :=
  reverses pipeline.sortBy pipeline.sortDesc = true →
    TiesBeyond (keyLe pipeline) (places pipeline candidates) (distinct env candidates)

theorem nodup_keys_distinct : ((distinct env candidates).map (candidateKey env)).Nodup :=
  nodup_firstCopies

theorem nodup_distinct : (distinct env candidates).Nodup :=
  nodup_keys_distinct.of_map _

theorem truncate_eq_take {l : List Candidate} (h : l.length = (distinct env candidates).length) :
    truncate pipeline.limitCount l = l.take (places pipeline candidates) := by
  unfold truncate places
  cases pipeline.limitCount with
  | none => rw [Option.getD_none, ← h, List.take_length]
  | some n => rfl

theorem finalize_eq_take :
    finalize env pipeline candidates =
      (sort env pipeline (distinct env candidates)).take (places pipeline candidates) :=
  truncate_eq_take perm_ranked.length_eq

theorem mem_distinct_of_mem_finalize {c : Candidate} (h : c ∈ finalize env pipeline candidates) :
    c ∈ distinct env candidates := by
  rw [finalize_eq_take] at h
  exact mem_ranked.mp (List.mem_of_mem_take h)

theorem nodup_keys_finalize :
    ((finalize env pipeline candidates).map (candidateKey env)).Nodup := by
  have hsort : ((sort env pipeline (distinct env candidates)).map (candidateKey env)).Nodup :=
    (perm_ranked.map _).nodup_iff.mpr nodup_keys_distinct
  rw [finalize_eq_take]
  exact hsort.sublist ((List.take_sublist _ _).map _)

theorem first_of_mem_firstCopies {seen : List Text} {c : Candidate}
    (h : c ∈ firstCopies (candidateKey env) seen candidates) :
    candidates.find? (fun x => candidateKey env x == candidateKey env c) = some c := by
  induction candidates generalizing seen with
  | nil => simp [firstCopies] at h
  | cons x l ih =>
    have hnot := not_seen_of_mem h
    rw [firstCopies] at h
    by_cases hseen : candidateKey env x ∈ seen
    · rw [if_pos hseen] at h
      have hne : candidateKey env x ≠ candidateKey env c := fun heq => hnot (heq ▸ hseen)
      rw [List.find?_cons_of_neg (by simpa using hne)]
      exact ih h
    · rw [if_neg hseen] at h
      rcases List.mem_cons.mp h with rfl | h
      · simp
      · have hne : candidateKey env x ≠ candidateKey env c := by
          intro heq
          exact not_seen_of_mem h (heq ▸ List.mem_cons_self)
        rw [List.find?_cons_of_neg (by simpa using hne)]
        exact ih h

theorem distinct_finalize :
    distinct env (finalize env pipeline candidates) = finalize env pipeline candidates :=
  firstCopies_eq_self nodup_keys_finalize (by simp)

theorem length_finalize_le :
    (finalize env pipeline candidates).length ≤ places pipeline candidates := by
  rw [finalize_eq_take]
  exact List.length_take_le _ _

/-- Finalizing again is ranking again: nothing is left to drop or to cut. -/
theorem finalize_finalize :
    finalize env pipeline (finalize env pipeline candidates) =
      sort env pipeline (finalize env pipeline candidates) := by
  rw [finalize_eq_take, distinct_finalize]
  apply List.take_of_length_le
  rw [show (sort env pipeline (finalize env pipeline candidates)).length = _ from
    perm_ranked.length_eq]
  unfold places
  rw [distinct_finalize]
  cases hlimit : pipeline.limitCount with
  | none => rfl
  | some n =>
    have hlength : (finalize env pipeline candidates).length ≤ places pipeline candidates :=
      length_finalize_le
    rwa [places, hlimit] at hlength

theorem ordered_unique {ordered ordered' : List Candidate} {descending : Bool}
    (h : Ordered (keyLe pipeline) descending (distinct env candidates) ordered)
    (h' : Ordered (keyLe pipeline) descending (distinct env candidates) ordered') :
    ordered = ordered' :=
  h.unique sortLe_total nodup_distinct h'

theorem exists_ordered (pipeline : Pipeline env) (candidates : List Candidate) :
    ∃ ordered : List Candidate,
      Ordered (keyLe pipeline) (reverses pipeline.sortBy pipeline.sortDesc)
        (distinct env candidates) ordered :=
  ⟨_, ordered_ranked sortLe_total sortLe_trans nodup_distinct⟩

theorem finalize_eq_truncate_iff {ordered : List Candidate}
    (h : Ordered (keyLe pipeline) (reverses pipeline.sortBy pipeline.sortDesc)
      (distinct env candidates) ordered) :
    finalize env pipeline candidates = truncate pipeline.limitCount ordered ↔
      TiesSpared pipeline candidates := by
  rw [truncate_eq_take h.perm.length_eq, finalize_eq_take]
  unfold TiesSpared sort
  cases hreverses : reverses pipeline.sortBy pipeline.sortDesc with
  | false =>
    rw [hreverses] at h
    have hstable : ordered = ranked (keyLe pipeline) false (distinct env candidates) :=
      ordered_unique h (ordered_ranked sortLe_total sortLe_trans nodup_distinct)
    exact iff_of_true (by rw [hstable]; rfl) (by simp)
  | true =>
    rw [hreverses] at h
    have hties := take_reversed_eq_iff (n := places pipeline candidates) sortLe_total sortLe_trans
      nodup_distinct h
    exact hties.trans ⟨fun h _ => h, fun h => h rfl⟩

theorem eq_of_tie_of_mem_finalize (hspared : TiesSpared pipeline candidates)
    (hreverses : reverses pipeline.sortBy pipeline.sortDesc = true) {a b : Candidate}
    (ha : a ∈ finalize env pipeline candidates) (hb : b ∈ finalize env pipeline candidates)
    (hab : keyLe pipeline a b = true) (hba : keyLe pipeline b a = true) : a = b := by
  by_contra hne
  have hmany := hspared hreverses a (mem_distinct_of_mem_finalize ha) b
    (mem_distinct_of_mem_finalize hb) hne hab hba
  obtain ⟨ordered, hordered⟩ := exists_ordered pipeline candidates
  have hstem := (finalize_eq_truncate_iff hordered).mpr hspared
  rw [truncate_eq_take hordered.perm.length_eq] at hstem
  rw [hstem] at ha
  rw [hreverses] at hordered
  have hasymm : ∀ a b,
      Precedes (directed (keyLe pipeline) true) (distinct env candidates) a b →
        ¬Precedes (directed (keyLe pipeline) true) (distinct env candidates) b a :=
    fun a b hab => hab.asymm (directed_total sortLe_total) nodup_distinct
  have hplaces := placesAhead_lt_of_mem_take hasymm hordered.inOrder ha
  have hahead : ((distinct env candidates).countP fun c => !keyLe pipeline c a) ≤
      placesAhead (Precedes (directed (keyLe pipeline) true) (distinct env candidates))
        (distinct env candidates) a := countP_le_placesAhead a
  have hperm : placesAhead (Precedes (directed (keyLe pipeline) true) (distinct env candidates))
      ordered a = placesAhead (Precedes (directed (keyLe pipeline) true)
        (distinct env candidates)) (distinct env candidates) a := hordered.perm.countP_eq _
  omega

theorem finalize_finalize_of_spared (hspared : TiesSpared pipeline candidates) :
    finalize env pipeline (finalize env pipeline candidates) =
      finalize env pipeline candidates := by
  rw [finalize_finalize]
  unfold sort
  cases hreverses : reverses pipeline.sortBy pipeline.sortDesc with
  | false =>
    rw [finalize_eq_take, sort, hreverses]
    exact ranked_take_ascending sortLe_total sortLe_trans
  | true =>
    apply ranked_descending_self sortLe_total sortLe_trans
    · have hsorted : (sort env pipeline (distinct env candidates)).Pairwise
          fun a b => keyLe pipeline b a = true := by
        have htot : Std.Total fun a b => keyLe pipeline a b = true := ⟨sortLe_total⟩
        have htra : IsTrans Candidate fun a b => keyLe pipeline a b = true := ⟨sortLe_trans⟩
        rw [sort, hreverses]
        exact List.pairwise_reverse.mpr
          (List.pairwise_insertionSort (fun a b => keyLe pipeline a b = true) _)
      rw [finalize_eq_take]
      exact hsorted.sublist (List.take_sublist _ _)
    · intro a ha b hb hab hba
      exact eq_of_tie_of_mem_finalize hspared hreverses ha hb hab hba

theorem missing_last (hlatency : pipeline.sortBy = .latency) :
    (finalize env pipeline candidates).Pairwise fun a b =>
      a.latencyMs = none → b.latencyMs = none := by
  have htot : Std.Total fun a b => keyLe pipeline a b = true := ⟨sortLe_total⟩
  have htra : IsTrans Candidate fun a b => keyLe pipeline a b = true := ⟨sortLe_trans⟩
  have hkeeps : reverses pipeline.sortBy pipeline.sortDesc = false := by
    rw [hlatency]
    cases pipeline.sortDesc <;> rfl
  have hsorted : (sort env pipeline (distinct env candidates)).Pairwise
      fun a b => keyLe pipeline a b = true := by
    rw [sort, hkeeps]
    exact List.pairwise_insertionSort (fun a b => keyLe pipeline a b = true) _
  rw [finalize_eq_take]
  apply (hsorted.sublist (List.take_sublist _ _)).imp
  intro a b hab hmissing
  cases hb : b.latencyMs with
  | none => rfl
  | some ms => simp [keyLe, sortLe, hlatency, hmissing, hb] at hab

/-- A finalized list is what its pipeline asks for exactly when a reversed sort meets no ties among
the served places. -/
theorem finalized_iff_ties_spared (pipeline : Pipeline env) (candidates : List Candidate) :
    Finalized pipeline candidates ↔ TiesSpared pipeline candidates := by
  constructor
  · intro h
    obtain ⟨ordered, hordered, hstem⟩ := h.ordered
    exact (finalize_eq_truncate_iff hordered).mp hstem
  · intro hspared
    obtain ⟨ordered, hordered⟩ := exists_ordered pipeline candidates
    exact {
      distinct := nodup_keys_finalize
      first := fun c hc => first_of_mem_firstCopies (mem_distinct_of_mem_finalize hc)
      ordered := ⟨ordered, hordered, (finalize_eq_truncate_iff hordered).mpr hspared⟩
      missingLast := missing_last
      idempotent := finalize_finalize_of_spared hspared }

section Samples

open ProfileLimit (twoProxies)

def byCountryDescending : Pipeline twoProxies := { sortBy := .country, sortDesc := true }

def stateless (host : Text) : Candidate where
  entry :=
    { scheme := .vless, name := host, host := host, port := 443, credential := "u", params := []
      rawPath := [], rawLine := [] }
  sourcePosition := 0
  status := .alive
  latencyMs := none
  geoCountry := none
  geoAsn := none

/-- A descending sort turns two ties around, and back again when the list is finalized once
more. -/
theorem descending_ties_turn_around :
    (finalize twoProxies byCountryDescending [stateless "a", stateless "b"]).map
        (fun c => c.entry.host) = ["b", "a"] ∧
      (finalize twoProxies byCountryDescending
        (finalize twoProxies byCountryDescending [stateless "a", stateless "b"])).map
          (fun c => c.entry.host) = ["a", "b"] ∧
      ¬Finalized byCountryDescending [stateless "a", stateless "b"] := by
  refine ⟨by decide +kernel, by decide +kernel, fun h => ?_⟩
  exact absurd h.idempotent (by decide +kernel)

end Samples

end FinalizeOrder
