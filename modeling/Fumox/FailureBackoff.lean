import Fumox.MachineInt
import Fumox.SourceStore

/-!
Whether a source is due: its time to live, and, after failures, the backoff that the newest rows of
its fetch journal ask for.
-/

namespace FailureBackoff

open RustText ConfigModels MachineInt SourceStore

/-- A row of the fetch journal of one source, as far as the scheduler reads it. -/
structure FetchLogRow where
  fetchedAt : ℤ
  ok : Bool
  deriving DecidableEq, Repr

/-- The journal in the order of insertion, newest first: by time, then by insertion. -/
def newestFirst (journal : List FetchLogRow) : List FetchLogRow :=
  journal.reverse.insertionSort fun a b => b.fetchedAt ≤ a.fetchedAt

def recentForSource (journal : List FetchLogRow) (limit : ℕ) : List FetchLogRow :=
  (newestFirst journal).take limit

structure FailureHistory where
  lastAttemptAt : ℤ
  consecutiveFailures : ℕ
  deriving DecidableEq, Repr

def historyOf (rows : List FetchLogRow) : Option FailureHistory :=
  rows.head?.map fun newest => ⟨newest.fetchedAt, (rows.takeWhile fun row => !row.ok).length⟩

def failureHistoryRows : ℕ := 8

def failureHistory (journal : List FetchLogRow) : Option FailureHistory :=
  historyOf (recentForSource journal failureHistoryRows)

def failureBackoffBaseSecs : ℤ := 60

def failureBackoffMaxSecs : ℤ := 3600

def failureBackoffSecs (consecutiveFailures : ℕ) : ℤ :=
  min (saturateSigned (2 ^ 63) (failureBackoffBaseSecs * 2 ^ min consecutiveFailures 16))
    failureBackoffMaxSecs

def isDue (source : Source) (now : ℤ) (history : Option FailureHistory) : Bool :=
  let ttlDue :=
    match source.lastFetchedAt with
    | none => true
    | some fetchedAt => decide (source.cacheTtlSeconds ≤ saturatingSub now fetchedAt)
  if !ttlDue then false
  else
    match history with
    | none => true
    | some history =>
      if history.consecutiveFailures = 0 then true
      else if history.lastAttemptAt < source.updatedAt then true
      else
        decide (failureBackoffSecs history.consecutiveFailures ≤
          saturatingSub now history.lastAttemptAt)

theorem failureBackoffSecs_eq (k : ℕ) : failureBackoffSecs k = min (60 * 2 ^ k) 3600 := by
  have hexponent : min k 16 ≤ 16 := Nat.min_le_right _ _
  have hpow : (2 : ℤ) ^ min k 16 ≤ 2 ^ 16 := pow_le_pow_right₀ (by decide) hexponent
  have hpos : (1 : ℤ) ≤ 2 ^ min k 16 := one_le_pow₀ (by decide)
  unfold failureBackoffSecs failureBackoffBaseSecs failureBackoffMaxSecs
  rw [saturateSigned_eq_self (by omega) (by omega)]
  rcases Nat.le_total k 16 with hsmall | hlarge
  · rw [Nat.min_eq_left hsmall]
  · have hceiling : (2 : ℤ) ^ 16 ≤ 2 ^ k := pow_le_pow_right₀ (by decide) hlarge
    rw [Nat.min_eq_right hlarge, min_eq_right (by omega), min_eq_right (by omega)]

theorem failureBackoffSecs_mono {j k : ℕ} (h : j ≤ k) :
    failureBackoffSecs j ≤ failureBackoffSecs k := by
  have hpow : (2 : ℤ) ^ j ≤ 2 ^ k := pow_le_pow_right₀ (by decide) h
  rw [failureBackoffSecs_eq, failureBackoffSecs_eq]
  omega

theorem failureBackoffSecs_rows (k : ℕ) :
    failureBackoffSecs (min failureHistoryRows k) = failureBackoffSecs k := by
  rcases Nat.le_total k failureHistoryRows with hfew | hmany
  · rw [Nat.min_eq_right hfew]
  · have hrows : (2 : ℤ) ^ failureHistoryRows ≤ 2 ^ k := pow_le_pow_right₀ (by decide) hmany
    have height : (2 : ℤ) ^ failureHistoryRows = 256 := by decide
    rw [Nat.min_eq_left hmany, failureBackoffSecs_eq, failureBackoffSecs_eq]
    omega

theorem length_takeWhile_take {α : Type*} (p : α → Bool) (l : List α) (n : ℕ) :
    ((l.take n).takeWhile p).length = min n (l.takeWhile p).length := by
  induction l generalizing n with
  | nil => simp
  | cons a l ih =>
    cases n with
    | zero => simp
    | succ n =>
      rw [List.take_succ_cons, List.takeWhile_cons, List.takeWhile_cons]
      cases p a with
      | true => simp [ih]
      | false => simp

/-- The decision does not change when the history is cut to the rows that are read. -/
theorem isDue_historyOf_take (source : Source) (now : ℤ) (rows : List FetchLogRow) :
    isDue source now (historyOf (rows.take failureHistoryRows)) =
      isDue source now (historyOf rows) := by
  cases rows with
  | nil => rfl
  | cons newest rest =>
    have hcount := length_takeWhile_take (fun row : FetchLogRow => !row.ok) (newest :: rest)
      failureHistoryRows
    have hcut : historyOf ((newest :: rest).take failureHistoryRows) =
        some ⟨newest.fetchedAt,
          min failureHistoryRows ((newest :: rest).takeWhile fun row => !row.ok).length⟩ := by
      rw [← hcount]
      rfl
    have hfull : historyOf (newest :: rest) =
        some ⟨newest.fetchedAt, ((newest :: rest).takeWhile fun row => !row.ok).length⟩ := rfl
    rw [hcut, hfull]
    generalize ((newest :: rest).takeWhile fun row => !row.ok).length = k
    have hzero : min failureHistoryRows k = 0 ↔ k = 0 := by
      unfold failureHistoryRows
      omega
    unfold isDue
    dsimp only
    rw [failureBackoffSecs_rows]
    simp only [hzero]

theorem isDue_truncated (source : Source) (now : ℤ) (journal : List FetchLogRow) :
    isDue source now (failureHistory journal) =
      isDue source now (historyOf (newestFirst journal)) :=
  isDue_historyOf_take source now (newestFirst journal)

def failuresInRow (journal : List FetchLogRow) : ℕ :=
  (journal.reverse.takeWhile fun row => !row.ok).length

theorem newestFirst_eq {journal : List FetchLogRow}
    (h : journal.Pairwise fun a b => a.fetchedAt ≤ b.fetchedAt) :
    newestFirst journal = journal.reverse :=
  List.Pairwise.insertionSort_eq (List.pairwise_reverse.mpr h)

theorem failuresInRow_append (journal : List FetchLogRow) (row : FetchLogRow) :
    failuresInRow (journal ++ [row]) = if row.ok then 0 else failuresInRow journal + 1 := by
  unfold failuresInRow
  rw [List.reverse_append, List.reverse_singleton, List.singleton_append, List.takeWhile_cons]
  cases row.ok <;> simp

/-- After failures a source is due only once the backoff has passed, unless it was edited since. -/
theorem backoff_of_isDue {source : Source} {now : ℤ} {history : FailureHistory}
    (h : isDue source now (some history) = true) (hfailed : 0 < history.consecutiveFailures)
    (hedit : source.updatedAt ≤ history.lastAttemptAt) :
    failureBackoffSecs history.consecutiveFailures ≤ now - history.lastAttemptAt := by
  unfold isDue at h
  dsimp only at h
  rw [if_neg (Nat.pos_iff_ne_zero.mp hfailed), if_neg (Int.not_lt.mpr hedit)] at h
  generalize (match source.lastFetchedAt with
    | none => true
    | some fetchedAt => decide (source.cacheTtlSeconds ≤ saturatingSub now fetchedAt)) = ttlDue at h
  cases ttlDue with
  | false => cases h
  | true =>
    have hwait := of_decide_eq_true h
    have hpos : 0 < failureBackoffSecs history.consecutiveFailures := by
      have hbase := failureBackoffSecs_mono (Nat.zero_le history.consecutiveFailures)
      have hzero : failureBackoffSecs 0 = 60 := by decide
      omega
    unfold saturatingSub at hwait
    omega

theorem ttl_of_isDue {source : Source} {now fetchedAt : ℤ} {history : Option FailureHistory}
    (h : isDue source now history = true) (hfetched : source.lastFetchedAt = some fetchedAt)
    (httl : 60 ≤ source.cacheTtlSeconds) : source.cacheTtlSeconds ≤ now - fetchedAt := by
  unfold isDue at h
  rw [hfetched] at h
  dsimp only at h
  by_cases hdue : source.cacheTtlSeconds ≤ saturatingSub now fetchedAt
  · unfold saturatingSub at hdue
    omega
  · rw [decide_eq_false hdue] at h
    cases h

end FailureBackoff
