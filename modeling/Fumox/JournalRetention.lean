import Fumox.FailureBackoff
import Fumox.ProxyStore

/-!
The retention pass of the server over the fetch journal and the check queue, and what it does to
the decision whether a failing source is due.
-/

namespace JournalRetention

open ConfigModels SourceStore FailureBackoff ProxyStore

structure ServerRetention where
  fetchLogDays : ℕ
  queueStaleDays : ℕ

def daySecs : ℤ := 86400

/-- A window of no days would empty the table, so it counts as one day. -/
def cutoff (days : ℕ) (now : ℤ) : ℤ :=
  -- a `u32`, or a number that the loader keeps up to 365: days and seconds fit an `i64`
  now - max days 1 * daySecs

def purgeBefore (journal : List FetchLogRow) (cutoff : ℤ) : List FetchLogRow :=
  journal.filter fun row => !decide (row.fetchedAt < cutoff)

def retentionSweep (retention : ServerRetention) (now : ℤ) (journal : List FetchLogRow)
    (s : Store) : List FetchLogRow × Store :=
  (purgeBefore journal (cutoff retention.fetchLogDays now),
    purgeRequestsBefore (purgeSettledChecks s) (cutoff retention.queueStaleDays now))

section Sorting

variable {α : Type*} {r : α → α → Prop} [DecidableRel r] {p : α → Bool} {l l' : List α} {a : α}

theorem orderedInsert_of_all (h : ∀ b ∈ l, r a b) : l.orderedInsert r a = a :: l := by
  cases l with
  | nil => rfl
  | cons b l => rw [List.orderedInsert_cons, if_pos (h b List.mem_cons_self)]

variable [IsTrans α r]

theorem filter_orderedInsert (h : l.Pairwise r) : (l.orderedInsert r a).filter p =
    if p a then (l.filter p).orderedInsert r a else l.filter p := by
  induction l with
  | nil => cases hp : p a <;> simp [hp]
  | cons b l ih =>
    obtain ⟨hb, hl⟩ := List.pairwise_cons.mp h
    rw [List.orderedInsert_cons]
    split_ifs with hab hp hp
    · have hall : ∀ c ∈ (b :: l).filter p, r a c := by
        intro c hc
        rcases List.mem_cons.mp (List.mem_of_mem_filter hc) with rfl | hc
        · exact hab
        · exact IsTrans.trans a b c hab (hb c hc)
      rw [orderedInsert_of_all hall, List.filter_cons_of_pos hp]
    · rw [List.filter_cons_of_neg hp]
    · rw [List.filter_cons, List.filter_cons, ih hl, if_pos hp]
      split_ifs
      · rw [List.orderedInsert_cons, if_neg hab]
      · rfl
    · rw [List.filter_cons, List.filter_cons, ih hl, if_neg hp]

theorem insertionSort_filter [Std.Total r] (l : List α) :
    (l.filter p).insertionSort r = (l.insertionSort r).filter p := by
  induction l with
  | nil => rfl
  | cons a l ih =>
    rw [List.insertionSort_cons, filter_orderedInsert (List.pairwise_insertionSort r l),
      List.filter_cons]
    split_ifs
    · rw [List.insertionSort_cons, ih]
    · exact ih

end Sorting

section History

variable {source : Source} {now c : ℤ} {journal rows kept : List FetchLogRow}

/-- Failures in a row, counted from the newest row backwards. -/
def streak (rows : List FetchLogRow) : ℕ :=
  (rows.takeWhile fun row => !row.ok).length

theorem newestFirst_purgeBefore (journal : List FetchLogRow) (c : ℤ) :
    newestFirst (purgeBefore journal c) = purgeBefore (newestFirst journal) c := by
  have htrans : IsTrans FetchLogRow fun a b => b.fetchedAt ≤ a.fetchedAt :=
    ⟨fun _ _ _ hab hbc => hbc.trans hab⟩
  have htotal : Std.Total fun a b : FetchLogRow => b.fetchedAt ≤ a.fetchedAt :=
    ⟨fun a b => le_total b.fetchedAt a.fetchedAt⟩
  rw [newestFirst, purgeBefore, ← List.filter_reverse, insertionSort_filter]
  rfl

theorem newestFirst_sorted (journal : List FetchLogRow) :
    (newestFirst journal).Pairwise fun a b => b.fetchedAt ≤ a.fetchedAt := by
  have htrans : IsTrans FetchLogRow fun a b => b.fetchedAt ≤ a.fetchedAt :=
    ⟨fun _ _ _ hab hbc => hbc.trans hab⟩
  have htotal : Std.Total fun a b : FetchLogRow => b.fetchedAt ≤ a.fetchedAt :=
    ⟨fun a b => le_total b.fetchedAt a.fetchedAt⟩
  exact List.pairwise_insertionSort _ _

theorem purgeBefore_front (h : rows.Pairwise fun a b => b.fetchedAt ≤ a.fetchedAt) (c : ℤ) :
    purgeBefore rows c <+: rows := by
  induction rows with
  | nil => exact List.nil_prefix
  | cons newest rest ih =>
    obtain ⟨hnewest, hrest⟩ := List.pairwise_cons.mp h
    by_cases hold : newest.fetchedAt < c
    · have hnone : purgeBefore (newest :: rest) c = [] := by
        refine List.filter_eq_nil_iff.mpr fun row hrow => ?_
        rcases List.mem_cons.mp hrow with rfl | hrow
        · simp [hold]
        · have hle := hnewest row hrow
          simp only [Bool.not_eq_true', decide_eq_false_iff_not, not_not]
          omega
      rw [hnone]
      exact List.nil_prefix
    · rw [purgeBefore, List.filter_cons_of_pos (by simpa using hold), List.cons_prefix_cons]
      exact ⟨rfl, ih hrest⟩

theorem streak_front (h : kept <+: rows) : streak kept ≤ streak rows := by
  obtain ⟨rest, rfl⟩ := h
  unfold streak
  induction kept with
  | nil => exact Nat.zero_le _
  | cons row kept ih =>
    rw [List.cons_append, List.takeWhile_cons, List.takeWhile_cons]
    split_ifs
    · exact Nat.succ_le_succ ih
    · exact le_rfl

theorem isDue_mono {t : ℤ} {j k : ℕ} (hjk : j ≤ k) (h : isDue source now (some ⟨t, k⟩) = true) :
    isDue source now (some ⟨t, j⟩) = true := by
  have hmono := failureBackoffSecs_mono hjk
  unfold isDue at h ⊢
  dsimp only at h ⊢
  split_ifs at h ⊢ with httl hk hedit hj hj hj hj
  all_goals first
    | exact h
    | rfl
    | omega
    | exact decide_eq_true ((hmono).trans (of_decide_eq_true h))

theorem isDue_congr {t : ℤ} {j k : ℕ} (hj : 6 ≤ j) (hjk : j ≤ k) :
    isDue source now (some ⟨t, j⟩) = isDue source now (some ⟨t, k⟩) := by
  have hceiling : failureBackoffSecs j = failureBackoffSecs k := by
    have hpow : (2 : ℤ) ^ 6 ≤ 2 ^ j := pow_le_pow_right₀ (by decide) hj
    have hpow' : (2 : ℤ) ^ 6 ≤ 2 ^ k := pow_le_pow_right₀ (by decide) (hj.trans hjk)
    rw [failureBackoffSecs_eq, failureBackoffSecs_eq]
    omega
  unfold isDue
  dsimp only
  rw [hceiling, if_neg (show j ≠ 0 by omega), if_neg (show k ≠ 0 by omega)]

/-- A source that was last tried before the window is due again whatever its backoff. -/
theorem isDue_of_old {days : ℕ} {t : ℤ} {k : ℕ} (hold : t < cutoff days now) :
    isDue source now (some ⟨t, k⟩) = isDue source now none := by
  have hceiling : failureBackoffSecs k ≤ saturatingSub now t := by
    have hday : daySecs ≤ max days 1 * daySecs := by
      unfold daySecs
      omega
    rw [failureBackoffSecs_eq]
    unfold cutoff at hold
    unfold saturatingSub
    unfold daySecs at hold hday
    omega
  unfold isDue
  dsimp only
  rw [decide_eq_true hceiling]
  split_ifs <;> rfl

theorem historyOf_cons (newest : FetchLogRow) (rest : List FetchLogRow) :
    historyOf (newest :: rest) = some ⟨newest.fetchedAt, streak (newest :: rest)⟩ :=
  rfl

/-- The retention pass makes no failing source wait longer.  It changes a decision only where it
cuts a streak of failures to one that is not empty and has not reached the ceiling. -/
theorem retention_hastens (source : Source) (retention : ServerRetention) (now : ℤ)
    (journal : List FetchLogRow) (s : Store) :
    (isDue source now (failureHistory journal) = true →
        isDue source now (failureHistory (retentionSweep retention now journal s).1) = true) ∧
      (isDue source now (failureHistory (retentionSweep retention now journal s).1) ≠
          isDue source now (failureHistory journal) →
        0 < streak (newestFirst (retentionSweep retention now journal s).1) ∧
          streak (newestFirst (retentionSweep retention now journal s).1) <
            streak (newestFirst journal) ∧
          streak (newestFirst (retentionSweep retention now journal s).1) < 6) := by
  rw [isDue_truncated, isDue_truncated, retentionSweep, newestFirst_purgeBefore]
  have hfront := purgeBefore_front (newestFirst_sorted journal)
    (cutoff retention.fetchLogDays now)
  have hsorted := newestFirst_sorted journal
  cases hrows : newestFirst journal with
  | nil => exact ⟨id, fun h => absurd rfl h⟩
  | cons newest rest =>
    rw [hrows] at hfront hsorted
    by_cases hold : newest.fetchedAt < cutoff retention.fetchLogDays now
    · have hnone : purgeBefore (newest :: rest) (cutoff retention.fetchLogDays now) = [] := by
        refine List.filter_eq_nil_iff.mpr fun row hrow => ?_
        have hle : row.fetchedAt ≤ newest.fetchedAt := by
          rcases List.mem_cons.mp hrow with rfl | hrow
          · exact le_rfl
          · exact (List.pairwise_cons.mp hsorted).1 row hrow
        simp only [Bool.not_eq_true', decide_eq_false_iff_not, not_not]
        omega
      have hsame : isDue source now (historyOf []) = isDue source now
          (historyOf (newest :: rest)) := (isDue_of_old hold).symm
      rw [hnone, hsame]
      exact ⟨id, fun h => absurd rfl h⟩
    · obtain ⟨kept, hkept⟩ : ∃ kept, purgeBefore (newest :: rest)
          (cutoff retention.fetchLogDays now) = newest :: kept :=
        ⟨_, List.filter_cons_of_pos (by simpa using hold)⟩
      rw [hkept] at hfront ⊢
      have hle := streak_front hfront
      have hzero : streak (newest :: kept) = 0 ↔ streak (newest :: rest) = 0 := by
        unfold streak
        rw [List.takeWhile_cons, List.takeWhile_cons]
        cases newest.ok <;> simp
      rw [historyOf_cons, historyOf_cons]
      refine ⟨isDue_mono hle, fun hdiffers => ?_⟩
      by_contra hbound
      refine hdiffers ?_
      rcases Nat.lt_or_ge (streak (newest :: kept)) 6 with hfew | hmany
      · have heq : streak (newest :: kept) = streak (newest :: rest) := by omega
        rw [heq]
      · exact isDue_congr hmany hle

end History

end JournalRetention
