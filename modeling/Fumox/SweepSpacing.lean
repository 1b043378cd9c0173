import Fumox.FailureBackoff
import Fumox.TransitionRuns

/-!
The attempts to fetch one source: the sweep reads the row and the journal, decides and spawns a
task, forced refreshes spawn theirs, and the in-flight mark lets one task at a time run an ingest.
Every read and write of a task is a step of its own.
-/

namespace SweepSpacing

open RustText ConfigModels SourceStore FailureBackoff TransitionRuns

/-- An attempt to fetch.  `recorded` and `before` are failures in a row: those that were recorded
when the sweep listed the sources, and those before the attempt began. -/
structure Attempt where
  startedAt : ℤ
  bySweep : Bool
  recorded : ℕ
  before : ℕ
  failed : Bool := false
  deriving DecidableEq, Repr

def Attempt.row (a : Attempt) : FetchLogRow := ⟨a.startedAt, !a.failed⟩

/-- How far the task that holds the in-flight mark is. -/
inductive Stage where
  | queued
  | fetching (attempt : Attempt)
  | journaled (attempt : Attempt) (outcome : FetchOutcome)
  | ended

structure Flight where
  bySweep : Bool
  snapshot : Source
  recorded : ℕ
  stage : Stage

/-- The one sweep that may run: it lists the sources, reads the clock, decides and spawns. -/
inductive Sweep where
  | idle
  | listed (snapshot : Source) (recorded : ℕ)
  | stamped (snapshot : Source) (recorded : ℕ) (now : ℤ)
  | spawned (snapshot : Source) (recorded : ℕ)
  | running

structure World where
  row : Source
  journal : List FetchLogRow
  clock : ℤ
  sweep : Sweep := .idle
  /-- Forced refreshes that have been spawned. -/
  forced : ℕ → Option Source := fun _ => none
  flight : Option Flight := none
  /-- The attempts whose outcome is recorded. -/
  attempts : List Attempt := []

inductive Event where
  | tick (secs : ℕ)
  | list
  | stamp
  | judge
  | acquire
  | dispatch (task : ℕ)
  | acquireForced (task : ℕ)
  | start
  | journal (failure : Option (Text × ErrorClass))
  | record
  | release

/-- The journal without the row whose outcome is not on the source row yet. -/
def recordedJournal (w : World) : List FetchLogRow :=
  match w.flight with
  | some ⟨_, _, _, .journaled _ _⟩ => w.journal.dropLast
  | _ => w.journal

/-- `failure_history`, read for a row whose last verdict is a failure.  The journal is read without
an error; after one the source would give no history, and the TTL alone would decide. -/
def historyFor (w : World) (snapshot : Source) : Option FailureHistory :=
  if snapshot.errorClass.isSome then failureHistory w.journal else none

def outcomeOf (startedAt : ℤ) : Option (Text × ErrorClass) → FetchOutcome
  | none => .success startedAt
  | some (error, errorClass) => .failure error errorClass

def Enabled (w : World) : Event → Prop
  | .tick _ => True
  | .list => w.sweep = .idle ∧ w.row.enabled = true
  | .stamp => ∃ snapshot recorded, w.sweep = .listed snapshot recorded
  | .judge => ∃ snapshot recorded now, w.sweep = .stamped snapshot recorded now
  | .acquire => ∃ snapshot recorded, w.sweep = .spawned snapshot recorded
  | .dispatch task => w.forced task = none
  | .acquireForced task => ∃ snapshot, w.forced task = some snapshot
  | .start => ∃ bySweep snapshot recorded, w.flight = some ⟨bySweep, snapshot, recorded, .queued⟩
  | .journal _ => ∃ bySweep snapshot recorded attempt,
      w.flight = some ⟨bySweep, snapshot, recorded, .fetching attempt⟩
  | .record => ∃ bySweep snapshot recorded attempt outcome,
      w.flight = some ⟨bySweep, snapshot, recorded, .journaled attempt outcome⟩
  | .release => ∃ bySweep snapshot recorded, w.flight = some ⟨bySweep, snapshot, recorded, .ended⟩

def next (w : World) : Event → World
  | .tick secs => { w with clock := w.clock + secs }
  | .list => { w with sweep := .listed w.row (failuresInRow (recordedJournal w)) }
  | .stamp =>
    match w.sweep with
    | .listed snapshot recorded => { w with sweep := .stamped snapshot recorded w.clock }
    | _ => w
  | .judge =>
    match w.sweep with
    | .stamped snapshot recorded now =>
      if isDue snapshot now (historyFor w snapshot) then
        { w with sweep := .spawned snapshot recorded }
      else { w with sweep := .idle }
    | _ => w
  | .acquire =>
    match w.sweep, w.flight with
    | .spawned snapshot recorded, none =>
      { w with sweep := .running, flight := some ⟨true, snapshot, recorded, .queued⟩ }
    | .spawned _ _, some _ => { w with sweep := .idle }
    | _, _ => w
  | .dispatch task => { w with forced := Function.update w.forced task (some w.row) }
  | .acquireForced task =>
    match w.forced task, w.flight with
    | some snapshot, none =>
      { w with
        forced := Function.update w.forced task none
        flight := some ⟨false, snapshot, 0, .queued⟩ }
    | some _, some _ => { w with forced := Function.update w.forced task none }
    | none, _ => w
  | .start =>
    match w.flight with
    | some ⟨bySweep, snapshot, recorded, .queued⟩ =>
      -- a forced refresh always fetches
      if bySweep && isFresh snapshot w.clock then
        { w with flight := some ⟨bySweep, snapshot, recorded, .ended⟩ }
      else
        { w with
          flight := some ⟨bySweep, snapshot, recorded,
            .fetching ⟨w.clock, bySweep, recorded, failuresInRow w.journal, false⟩⟩ }
    | _ => w
  | .journal failure =>
    match w.flight with
    | some ⟨bySweep, snapshot, recorded, .fetching attempt⟩ =>
      let attempt := { attempt with failed := failure.isSome }
      { w with
        journal := w.journal ++ [attempt.row]
        flight := some ⟨bySweep, snapshot, recorded,
          .journaled attempt (outcomeOf attempt.startedAt failure)⟩ }
    | _ => w
  | .record =>
    match w.flight with
    | some ⟨bySweep, snapshot, recorded, .journaled attempt outcome⟩ =>
      { w with
        row := recordFetchOutcome w.row outcome
        attempts := w.attempts ++ [attempt]
        flight := some ⟨bySweep, snapshot, recorded, .ended⟩ }
    | _ => w
  | .release =>
    match w.flight with
    | some ⟨bySweep, _, _, .ended⟩ =>
      { w with flight := none, sweep := if bySweep then .idle else w.sweep }
    | _ => w

/-- A source that passed the checks of the form, and a journal in the order of its times. -/
structure Initial (w : World) : Prop where
  ttl : 60 ≤ w.row.cacheTtlSeconds
  updated : w.row.updatedAt ≤ w.clock
  ordered : w.journal.Pairwise fun a b => a.fetchedAt ≤ b.fetchedAt
  past : ∀ row ∈ w.journal, row.fetchedAt ≤ w.clock
  sweep : w.sweep = .idle
  forced : ∀ task, w.forced task = none
  flight : w.flight = none
  attempts : w.attempts = []

def scheduler : System World Event := ⟨Initial, Enabled, next⟩

def Stage.attempt : Stage → Option Attempt
  | .fetching attempt | .journaled attempt _ => some attempt
  | .queued | .ended => none

def current (w : World) : Option Attempt := w.flight.bind fun flight => flight.stage.attempt

def started (w : World) : List Attempt := w.attempts ++ (current w).toList

/-- Two attempts of the sweep with only failures between them are the backoff of so many failures
apart. -/
def SpacedBy (failures : Attempt → ℕ) (attempts : List Attempt) : Prop :=
  ∀ before a between b after, attempts = before ++ a :: (between ++ b :: after) →
    a.bySweep = true → b.bySweep = true → (∀ m ∈ between, m.failed = true) →
      min (60 * 2 ^ failures b) 3600 ≤ b.startedAt - a.startedAt

section Recency

/-- An attempt of the list after which none succeeded. -/
def Recent (attempts : List Attempt) (a : Attempt) : Prop :=
  ∃ before after, attempts = before ++ a :: after ∧ ∀ m ∈ after, m.failed = true

variable {attempts : List Attempt} {a b : Attempt}

theorem not_recent_nil : ¬Recent [] a := by
  rintro ⟨before, after, h, -⟩
  exact List.append_ne_nil_of_right_ne_nil before (List.cons_ne_nil a after) h.symm

theorem concat_eq_append_cons {α : Type*} {l before after : List α} {x y : α} :
    l ++ [y] = before ++ x :: after ↔
      after = [] ∧ before = l ∧ x = y ∨ ∃ rest, after = rest ++ [y] ∧ l = before ++ x :: rest := by
  constructor
  · intro h
    rcases List.eq_nil_or_concat after with rfl | ⟨rest, last, hafter⟩
    · obtain ⟨hl, hx⟩ := List.append_inj' h rfl
      exact .inl ⟨rfl, hl.symm, (List.singleton_inj.mp hx).symm⟩
    · rw [List.concat_eq_append] at hafter
      have hshape : l ++ [y] = (before ++ x :: rest) ++ [last] := by
        rw [h, hafter, List.append_assoc, List.cons_append]
      obtain ⟨hl, hy⟩ := List.append_inj' hshape rfl
      rw [List.singleton_inj.mp hy]
      exact .inr ⟨rest, hafter, hl⟩
  · rintro (⟨rfl, rfl, rfl⟩ | ⟨rest, rfl, rfl⟩)
    · rfl
    · rw [List.append_assoc, List.cons_append]

theorem recent_concat :
    Recent (attempts ++ [b]) a ↔ a = b ∨ b.failed = true ∧ Recent attempts a := by
  constructor
  · rintro ⟨before, after, h, hfailed⟩
    rcases concat_eq_append_cons.mp h with ⟨-, -, rfl⟩ | ⟨rest, rfl, hrest⟩
    · exact .inl rfl
    · refine .inr ⟨hfailed b (by simp), before, rest, hrest, fun m hm => hfailed m ?_⟩
      exact List.mem_append_left _ hm
  · rintro (rfl | ⟨hb, before, after, rfl, hfailed⟩)
    · exact ⟨attempts, [], rfl, fun m hm => absurd hm List.not_mem_nil⟩
    · refine ⟨before, after ++ [b], by rw [List.append_assoc, List.cons_append], fun m hm => ?_⟩
      rcases List.mem_append.mp hm with hm | hm
      · exact hfailed m hm
      · rw [List.mem_singleton.mp hm]
        exact hb

theorem Recent.mem (h : Recent attempts a) : a ∈ attempts := by
  obtain ⟨before, after, rfl, -⟩ := h
  exact List.mem_append_right _ List.mem_cons_self

/-- A last attempt is spaced when it is from the earlier ones without a success since. -/
theorem spacedBy_concat (failures : Attempt → ℕ) : SpacedBy failures (attempts ++ [b]) ↔
    SpacedBy failures attempts ∧
      (b.bySweep = true → ∀ a, Recent attempts a → a.bySweep = true →
        min (60 * 2 ^ failures b) 3600 ≤ b.startedAt - a.startedAt) := by
  constructor
  · intro h
    refine ⟨?_, ?_⟩
    · rintro before a between c after rfl ha hc hbetween
      refine h before a between c (after ++ [b]) ?_ ha hc hbetween
      simp
    · rintro hb a ⟨before, between, rfl, hbetween⟩ ha
      refine h before a between b [] ?_ ha hb hbetween
      simp
  · rintro ⟨hspaced, hlast⟩ before a between c after h ha hc hbetween
    rcases concat_eq_append_cons.mp h with ⟨hnil, -, -⟩ | ⟨rest, hrest, hattempts⟩
    · simp at hnil
    · rcases concat_eq_append_cons.mp hrest.symm with ⟨-, hbefore, rfl⟩ | ⟨rest', -, hrest'⟩
      · rw [hbefore] at hbetween
        exact hlast hc a ⟨before, rest, hattempts, hbetween⟩ ha
      · rw [hrest'] at hattempts
        exact hspaced before a between c rest' hattempts ha hc hbetween

end Recency

def known (w : World) : List Attempt :=
  match w.flight with
  | some ⟨_, _, _, .journaled attempt _⟩ => w.attempts ++ [attempt]
  | _ => w.attempts

/-- The journal: its rows before the run, then one for each known attempt, in time. -/
structure Journaled (past : List FetchLogRow) (w : World) : Prop where
  rows : w.journal = past ++ (known w).map Attempt.row
  ordered : w.journal.Pairwise fun a b => a.fetchedAt ≤ b.fetchedAt
  elapsed : ∀ row ∈ w.journal, row.fetchedAt ≤ w.clock

structure RowKept (w : World) : Prop where
  ttl : 60 ≤ w.row.cacheTtlSeconds
  elapsed : w.row.updatedAt ≤ w.clock
  updated : ∀ a, Recent w.attempts a → w.row.updatedAt ≤ a.startedAt
  failed : ∀ rest a, w.attempts = rest ++ [a] → a.failed = true → w.row.errorClass.isSome = true
  succeeded : ∀ rest a, w.attempts = rest ++ [a] → a.failed = false →
    w.row.lastFetchedAt = some a.startedAt

/-- The stored outcome is that of the attempt. -/
def Matches (attempt : Attempt) : FetchOutcome → Prop
  | .success at' => attempt.failed = false ∧ at' = attempt.startedAt
  | .failure _ _ => attempt.failed = true

/-- The attempt under way came after everything that is recorded. -/
structure CurrentKept (w : World) : Prop where
  bySweep : ∀ flight attempt, w.flight = some flight → flight.stage.attempt = some attempt →
    attempt.bySweep = flight.bySweep
  elapsed : ∀ attempt, current w = some attempt → attempt.startedAt ≤ w.clock
  latest : ∀ attempt, current w = some attempt → ∀ row ∈ w.journal,
    row.fetchedAt ≤ attempt.startedAt
  updated : ∀ attempt, current w = some attempt → w.row.updatedAt ≤ attempt.startedAt
  outcome : ∀ flight attempt outcome, w.flight = some flight →
    flight.stage = .journaled attempt outcome → Matches attempt outcome

/-- What a snapshot of the row still says about the attempts of the sweep. -/
structure Listed (attempts : List Attempt) (journal : List FetchLogRow) (snapshot : Source)
    (recorded : ℕ) : Prop where
  ttl : 60 ≤ snapshot.cacheTtlSeconds
  updated : ∀ a, Recent attempts a → a.bySweep = true → snapshot.updatedAt ≤ a.startedAt
  succeeded : ∀ a, Recent attempts a → a.bySweep = true → recorded = 0 →
    snapshot.lastFetchedAt = some a.startedAt
  failed : ∀ a, Recent attempts a → a.bySweep = true → 0 < recorded →
    snapshot.errorClass.isSome = true ∧ recorded ≤ failuresInRow journal

/-- The attempts of the sweep with no success since are the backoff before `now`. -/
def Waited (attempts : List Attempt) (recorded : ℕ) (now : ℤ) : Prop :=
  ∀ a, Recent attempts a → a.bySweep = true → failureBackoffSecs recorded ≤ now - a.startedAt

def NotBySweep (flight : Option Flight) : Prop := ∀ f, flight = some f → f.bySweep = false

def SweepKept (w : World) : Prop :=
  match w.sweep with
  | .idle => NotBySweep w.flight
  | .listed snapshot recorded =>
    NotBySweep w.flight ∧ Listed (known w) w.journal snapshot recorded
  | .stamped snapshot recorded now =>
    NotBySweep w.flight ∧ Listed (known w) w.journal snapshot recorded ∧ now ≤ w.clock
  | .spawned _ recorded => NotBySweep w.flight ∧ Waited (known w) recorded w.clock
  | .running => ∃ flight, w.flight = some flight ∧ flight.bySweep = true ∧
      (flight.stage = .queued → Waited w.attempts flight.recorded w.clock)

structure Sound (past : List FetchLogRow) (w : World) : Prop where
  journaled : Journaled past w
  row : RowKept w
  current : CurrentKept w
  sweep : SweepKept w
  spaced : SpacedBy Attempt.recorded (started w)

section SweepSteps

variable {past : List FetchLogRow} {w : World}

theorem Waited.later {attempts : List Attempt} {recorded : ℕ} {now later : ℤ}
    (h : Waited attempts recorded now) (hle : now ≤ later) : Waited attempts recorded later := by
  intro a ha hsweep
  have hwait := h a ha hsweep
  omega

theorem Sound.withSweep (h : Sound past w) {sweep : Sweep} (hsweep : SweepKept { w with sweep }) :
    Sound past { w with sweep } where
  journaled := ⟨h.journaled.rows, h.journaled.ordered, h.journaled.elapsed⟩
  row := ⟨h.row.ttl, h.row.elapsed, h.row.updated, h.row.failed, h.row.succeeded⟩
  current := ⟨h.current.bySweep, h.current.elapsed, h.current.latest, h.current.updated,
    h.current.outcome⟩
  sweep := hsweep
  spaced := h.spaced

theorem recordedJournal_eq (h : Journaled past w) :
    recordedJournal w = past ++ w.attempts.map Attempt.row := by
  have hrows := h.rows
  unfold known at hrows
  unfold recordedJournal
  split <;> simp_all

theorem failuresInRow_rows (rest : List Attempt) (a : Attempt) :
    failuresInRow (past ++ (rest ++ [a]).map Attempt.row) =
      if a.failed = true then failuresInRow (past ++ rest.map Attempt.row) + 1 else 0 := by
  rw [List.map_append, ← List.append_assoc, List.map_singleton, failuresInRow_append]
  cases hfailed : a.failed <;> simp [Attempt.row, hfailed]

theorem recent_recorded (hjournaled : Journaled past w) (hcurrent : CurrentKept w)
    (hnot : NotBySweep w.flight) {a : Attempt} (hrecent : Recent (known w) a)
    (hsweep : a.bySweep = true) :
    Recent w.attempts a ∧ failuresInRow (recordedJournal w) ≤ failuresInRow w.journal := by
  have hrows := hjournaled.rows
  have hrecorded := recordedJournal_eq hjournaled
  unfold known at hrecent hrows
  split at hrecent
  next bySweep snapshot recorded attempt outcome heq =>
    rw [heq] at hrows
    rcases recent_concat.mp hrecent with rfl | ⟨hfailed, hrecent⟩
    · rw [hcurrent.bySweep _ a heq rfl, hnot _ heq] at hsweep
      cases hsweep
    · refine ⟨hrecent, ?_⟩
      rw [hrecorded, hrows, failuresInRow_rows, if_pos hfailed]
      exact Nat.le_succ _
  next hother =>
    refine ⟨hrecent, ?_⟩
    have hsame : w.journal = past ++ w.attempts.map Attempt.row := by
      rw [hrows]
      split
      next bySweep snapshot recorded attempt outcome heq =>
        exact absurd heq (hother bySweep snapshot recorded attempt outcome)
      next => rfl
    rw [hrecorded, hsame]

theorem Recent.exists_last {attempts : List Attempt} {a : Attempt} (h : Recent attempts a) :
    ∃ rest last, attempts = rest ++ [last] ∧ (last.failed = false → a = last) := by
  rcases List.eq_nil_or_concat attempts with rfl | ⟨rest, last, hattempts⟩
  · exact absurd h not_recent_nil
  · rw [List.concat_eq_append] at hattempts
    refine ⟨rest, last, hattempts, fun hfailed => ?_⟩
    rw [hattempts] at h
    rcases recent_concat.mp h with rfl | ⟨htrue, -⟩
    · rfl
    · rw [hfailed] at htrue
      cases htrue

theorem listed_row (h : Sound past w) (hnot : NotBySweep w.flight) :
    Listed (known w) w.journal w.row (failuresInRow (recordedJournal w)) where
  ttl := h.row.ttl
  updated := fun a ha hsweep =>
    h.row.updated a (recent_recorded h.journaled h.current hnot ha hsweep).1
  succeeded := by
    intro a ha hsweep hnone
    obtain ⟨hrecent, -⟩ := recent_recorded h.journaled h.current hnot ha hsweep
    obtain ⟨rest, last, hlast, hsame⟩ := hrecent.exists_last
    rw [recordedJournal_eq h.journaled, hlast, failuresInRow_rows] at hnone
    have hsuccess : last.failed = false := by
      by_contra hfailed
      rw [if_pos (eq_true_of_ne_false hfailed)] at hnone
      omega
    rw [hsame hsuccess]
    exact h.row.succeeded rest last hlast hsuccess
  failed := by
    intro a ha hsweep hsome
    obtain ⟨hrecent, hle⟩ := recent_recorded h.journaled h.current hnot ha hsweep
    obtain ⟨rest, last, hlast, -⟩ := hrecent.exists_last
    refine ⟨?_, hle⟩
    rw [recordedJournal_eq h.journaled, hlast, failuresInRow_rows] at hsome
    by_cases hfailed : last.failed = true
    · exact h.row.failed rest last hlast hfailed
    · rw [if_neg hfailed] at hsome
      omega

theorem waited_of_isDue (h : Journaled past w) {snapshot : Source} {recorded : ℕ} {now : ℤ}
    (hlisted : Listed (known w) w.journal snapshot recorded)
    (hdue : isDue snapshot now (historyFor w snapshot) = true) :
    Waited (known w) recorded now := by
  intro a ha hsweep
  rcases Nat.eq_zero_or_pos recorded with rfl | hsome
  · have hwait := ttl_of_isDue hdue (hlisted.succeeded a ha hsweep rfl) hlisted.ttl
    have httl := hlisted.ttl
    have hbase : failureBackoffSecs 0 = 60 := by decide
    omega
  · obtain ⟨herror, hfailures⟩ := hlisted.failed a ha hsweep hsome
    unfold historyFor at hdue
    rw [if_pos herror, isDue_truncated, newestFirst_eq h.ordered] at hdue
    have hrow : a.row ∈ w.journal.reverse := by
      rw [List.mem_reverse, h.rows]
      exact List.mem_append_right _ (List.mem_map_of_mem ha.mem)
    have hordered := List.pairwise_reverse.mpr h.ordered
    cases hnewest : w.journal.reverse with
    | nil =>
      rw [hnewest] at hrow
      exact absurd hrow List.not_mem_nil
    | cons newest older =>
      have hlater : a.startedAt ≤ newest.fetchedAt := by
        rw [hnewest] at hrow hordered
        rcases List.mem_cons.mp hrow with heq | hmem
        · exact le_of_eq (congrArg FetchLogRow.fetchedAt heq)
        · exact (List.pairwise_cons.mp hordered).1 _ hmem
      have hhistory : historyOf w.journal.reverse =
          some ⟨newest.fetchedAt, failuresInRow w.journal⟩ := by
        unfold historyOf failuresInRow
        rw [hnewest]
        rfl
      rw [hhistory] at hdue
      have hupdated := hlisted.updated a ha hsweep
      have hbackoff := backoff_of_isDue hdue (Nat.lt_of_lt_of_le hsome hfailures)
        (hupdated.trans hlater)
      have hmono := failureBackoffSecs_mono hfailures
      dsimp only at hbackoff
      omega

theorem sound_list (h : Sound past w) (henabled : Enabled w .list) :
    Sound past (next w .list) := by
  have hsweep := h.sweep
  unfold SweepKept at hsweep
  rw [henabled.1] at hsweep
  have hlisted := listed_row h hsweep
  exact h.withSweep ⟨hsweep, hlisted⟩

theorem sound_stamp (h : Sound past w) (henabled : Enabled w .stamp) :
    Sound past (next w .stamp) := by
  obtain ⟨snapshot, recorded, hlisting⟩ := henabled
  have hsweep := h.sweep
  unfold SweepKept at hsweep
  rw [hlisting] at hsweep
  obtain ⟨hnot, hlisted⟩ := hsweep
  unfold next
  rw [hlisting]
  exact h.withSweep ⟨hnot, hlisted, le_refl _⟩

theorem sound_judge (h : Sound past w) (henabled : Enabled w .judge) :
    Sound past (next w .judge) := by
  obtain ⟨snapshot, recorded, now, hstamped⟩ := henabled
  have hsweep := h.sweep
  unfold SweepKept at hsweep
  rw [hstamped] at hsweep
  obtain ⟨hnot, hlisted, hnow⟩ := hsweep
  unfold next
  rw [hstamped]
  dsimp only
  split_ifs with hdue
  · exact h.withSweep ⟨hnot, (waited_of_isDue h.journaled hlisted hdue).later hnow⟩
  · exact h.withSweep hnot

end SweepSteps

section TaskSteps

variable {past : List FetchLogRow} {w : World}

theorem Sound.withForced (h : Sound past w) (forced : ℕ → Option Source) :
    Sound past { w with forced } where
  journaled := ⟨h.journaled.rows, h.journaled.ordered, h.journaled.elapsed⟩
  row := ⟨h.row.ttl, h.row.elapsed, h.row.updated, h.row.failed, h.row.succeeded⟩
  current := ⟨h.current.bySweep, h.current.elapsed, h.current.latest, h.current.updated,
    h.current.outcome⟩
  sweep := h.sweep
  spaced := h.spaced

theorem sound_tick (h : Sound past w) (secs : ℕ) : Sound past (next w (.tick secs)) where
  journaled := by
    refine ⟨h.journaled.rows, h.journaled.ordered, fun row hrow => ?_⟩
    have helapsed := h.journaled.elapsed row hrow
    change row.fetchedAt ≤ w.clock + secs
    omega
  row := by
    refine ⟨h.row.ttl, ?_, h.row.updated, h.row.failed, h.row.succeeded⟩
    have helapsed := h.row.elapsed
    change w.row.updatedAt ≤ w.clock + secs
    omega
  current := by
    refine ⟨h.current.bySweep, fun attempt hattempt => ?_, h.current.latest, h.current.updated,
      h.current.outcome⟩
    have helapsed := h.current.elapsed attempt hattempt
    change attempt.startedAt ≤ w.clock + secs
    omega
  sweep := by
    have hlater : w.clock ≤ w.clock + secs := by omega
    have hsweep := h.sweep
    unfold SweepKept at hsweep ⊢
    have hsame : (next w (.tick secs)).sweep = w.sweep := rfl
    rw [hsame]
    cases hw : w.sweep with
    | idle => rwa [hw] at hsweep
    | listed snapshot recorded => rwa [hw] at hsweep
    | stamped snapshot recorded now =>
      rw [hw] at hsweep
      exact ⟨hsweep.1, hsweep.2.1, hsweep.2.2.trans hlater⟩
    | spawned snapshot recorded =>
      rw [hw] at hsweep
      exact ⟨hsweep.1, hsweep.2.later hlater⟩
    | running =>
      rw [hw] at hsweep
      obtain ⟨flight, hflight, hby, hwaited⟩ := hsweep
      exact ⟨flight, hflight, hby, fun hqueued => (hwaited hqueued).later hlater⟩
  spaced := h.spaced

section Unattempted

variable (hcurrent : current w = none)
include hcurrent

theorem known_of_current_none : known w = w.attempts := by
  unfold known
  split
  next heq =>
    unfold current at hcurrent
    rw [heq] at hcurrent
    cases hcurrent
  next => rfl

theorem started_of_current_none : started w = w.attempts := by
  unfold started
  rw [hcurrent]
  exact List.append_nil _

theorem currentKept_of_none : CurrentKept w := by
  have hstage : ∀ flight attempt, w.flight = some flight →
      flight.stage.attempt ≠ some attempt := by
    intro flight attempt hflight hattempt
    unfold current at hcurrent
    rw [hflight] at hcurrent
    exact Option.some_ne_none _ (hattempt.symm.trans hcurrent)
  refine ⟨fun flight attempt hflight hattempt => absurd hattempt (hstage _ _ hflight), ?_, ?_, ?_,
    fun flight attempt outcome hflight heq => ?_⟩
  · intro attempt hattempt
    exact absurd (hcurrent.symm.trans hattempt) (Option.some_ne_none _).symm
  · intro attempt hattempt
    exact absurd (hcurrent.symm.trans hattempt) (Option.some_ne_none _).symm
  · intro attempt hattempt
    exact absurd (hcurrent.symm.trans hattempt) (Option.some_ne_none _).symm
  · refine absurd ?_ (hstage flight attempt hflight)
    rw [heq]
    rfl

theorem settled_of_sound (h : Sound past w) :
    w.journal = past ++ w.attempts.map Attempt.row ∧ SpacedBy Attempt.recorded w.attempts := by
  have hrows := h.journaled.rows
  have hspaced := h.spaced
  rw [known_of_current_none hcurrent] at hrows
  rw [started_of_current_none hcurrent] at hspaced
  exact ⟨hrows, hspaced⟩

theorem sound_of_settled (hjournaled : w.journal = past ++ w.attempts.map Attempt.row)
    (hordered : w.journal.Pairwise fun a b => a.fetchedAt ≤ b.fetchedAt)
    (helapsed : ∀ row ∈ w.journal, row.fetchedAt ≤ w.clock) (hrow : RowKept w)
    (hsweep : SweepKept w) (hspaced : SpacedBy Attempt.recorded w.attempts) : Sound past w := by
  refine ⟨⟨?_, hordered, helapsed⟩, hrow, currentKept_of_none hcurrent, hsweep, ?_⟩
  · rw [known_of_current_none hcurrent]
    exact hjournaled
  · rw [started_of_current_none hcurrent]
    exact hspaced

end Unattempted

theorem current_of_flight {flight : Flight} (h : w.flight = some flight) :
    current w = flight.stage.attempt := by
  unfold current
  rw [h]
  rfl

theorem sound_queued (h : Sound past w) (hfree : w.flight = none) {flight : Flight} {sweep : Sweep}
    (hqueued : flight.stage = .queued)
    (hsweep : SweepKept { w with flight := some flight, sweep }) :
    Sound past { w with flight := some flight, sweep } := by
  have hcurrent : current w = none := by
    unfold current
    rw [hfree]
    rfl
  obtain ⟨hrows, hspaced⟩ := settled_of_sound hcurrent h
  refine sound_of_settled ?_ hrows h.journaled.ordered h.journaled.elapsed
    ⟨h.row.ttl, h.row.elapsed, h.row.updated, h.row.failed, h.row.succeeded⟩ hsweep hspaced
  rw [current_of_flight rfl, hqueued]
  rfl

theorem sound_acquire (h : Sound past w) (henabled : Enabled w .acquire) :
    Sound past (next w .acquire) := by
  obtain ⟨snapshot, recorded, hspawned⟩ := henabled
  have hsweep := h.sweep
  unfold SweepKept at hsweep
  rw [hspawned] at hsweep
  obtain ⟨hnot, hwaited⟩ := hsweep
  cases hflight : w.flight with
  | none =>
    have hnext : next w .acquire =
        { w with sweep := .running, flight := some ⟨true, snapshot, recorded, .queued⟩ } := by
      simp only [next, hspawned, hflight]
    rw [hnext]
    refine sound_queued h hflight rfl ⟨_, rfl, rfl, fun _ => ?_⟩
    unfold known at hwaited
    rw [hflight] at hwaited
    exact hwaited
  | some held =>
    have hnext : next w .acquire = { w with sweep := .idle } := by
      simp only [next, hspawned, hflight]
    rw [hnext]
    exact h.withSweep hnot

theorem sound_acquireForced (h : Sound past w) (task : ℕ)
    (henabled : Enabled w (.acquireForced task)) : Sound past (next w (.acquireForced task)) := by
  obtain ⟨snapshot, hforced⟩ := henabled
  cases hflight : w.flight with
  | none =>
    have hnext : next w (.acquireForced task) =
        { w with
          forced := Function.update w.forced task none
          flight := some ⟨false, snapshot, 0, .queued⟩ } := by
      simp only [next, hforced, hflight]
    rw [hnext]
    have hqueued : Sound past { w with flight := some ⟨false, snapshot, 0, .queued⟩ } :=
      sound_queued h hflight rfl ?_
    · exact hqueued.withForced _
    have hsweep := h.sweep
    have hforcedFlight : NotBySweep (some ⟨false, snapshot, 0, .queued⟩) := by
      rintro flight ⟨⟩
      rfl
    unfold SweepKept at hsweep ⊢
    unfold known at hsweep
    dsimp only
    rw [hflight] at hsweep
    cases hw : w.sweep with
    | idle => exact hforcedFlight
    | listed snapshot recorded =>
      rw [hw] at hsweep
      exact ⟨hforcedFlight, hsweep.2⟩
    | stamped snapshot recorded now =>
      rw [hw] at hsweep
      exact ⟨hforcedFlight, hsweep.2⟩
    | spawned snapshot recorded =>
      rw [hw] at hsweep
      exact ⟨hforcedFlight, hsweep.2⟩
    | running =>
      rw [hw] at hsweep
      obtain ⟨flight, hnone, -⟩ := hsweep
      cases hnone
  | some held =>
    have hnext : next w (.acquireForced task) =
        { w with forced := Function.update w.forced task none } := by
      simp only [next, hforced, hflight]
    rw [hnext]
    exact h.withForced _

theorem Listed.forced {attempts : List Attempt} {journal : List FetchLogRow} {snapshot : Source}
    {recorded : ℕ} {b : Attempt} (h : Listed attempts journal snapshot recorded)
    (hb : b.bySweep = false) : Listed (attempts ++ [b]) (journal ++ [b.row]) snapshot recorded := by
  have hrecent : ∀ a, Recent (attempts ++ [b]) a → a.bySweep = true →
      b.failed = true ∧ Recent attempts a := by
    intro a ha hsweep
    rcases recent_concat.mp ha with rfl | hrecent
    · rw [hb] at hsweep
      cases hsweep
    · exact hrecent
  refine ⟨h.ttl, fun a ha hsweep => h.updated a (hrecent a ha hsweep).2 hsweep,
    fun a ha hsweep => h.succeeded a (hrecent a ha hsweep).2 hsweep, fun a ha hsweep hsome => ?_⟩
  obtain ⟨hfailed, ha⟩ := hrecent a ha hsweep
  obtain ⟨herror, hle⟩ := h.failed a ha hsweep hsome
  have hrow : b.row.ok = false := by simp [Attempt.row, hfailed]
  refine ⟨herror, ?_⟩
  rw [failuresInRow_append, hrow, if_neg Bool.false_ne_true]
  omega

theorem Waited.forced {attempts : List Attempt} {recorded : ℕ} {now : ℤ} {b : Attempt}
    (h : Waited attempts recorded now) (hb : b.bySweep = false) :
    Waited (attempts ++ [b]) recorded now := by
  intro a ha hsweep
  rcases recent_concat.mp ha with rfl | ⟨-, hrecent⟩
  · rw [hb] at hsweep
    cases hsweep
  · exact h a hrecent hsweep

theorem SweepKept.advance {w' : World} (h : SweepKept w) {bySweep : Bool} {snapshot : Source}
    {recorded : ℕ} {stage stage' : Stage}
    (hflight : w.flight = some ⟨bySweep, snapshot, recorded, stage⟩)
    (hflight' : w'.flight = some ⟨bySweep, snapshot, recorded, stage'⟩)
    (hstage : stage' ≠ .queued) (hsweep : w'.sweep = w.sweep) (hclock : w'.clock = w.clock)
    (hlisted : ∀ snapshot recorded, bySweep = false → Listed (known w) w.journal snapshot recorded →
      Listed (known w') w'.journal snapshot recorded)
    (hwaited : ∀ recorded, bySweep = false → Waited (known w) recorded w.clock →
      Waited (known w') recorded w.clock) : SweepKept w' := by
  have hforced : NotBySweep w.flight → bySweep = false := fun hnot => hnot _ hflight
  have hkeep : NotBySweep w.flight → NotBySweep w'.flight := by
    intro hnot f hf
    rw [hflight'] at hf
    cases hf
    exact hforced hnot
  unfold SweepKept at h ⊢
  rw [hsweep, hclock]
  cases hw : w.sweep with
  | idle =>
    rw [hw] at h
    exact hkeep h
  | listed snapshot recorded =>
    rw [hw] at h
    exact ⟨hkeep h.1, hlisted _ _ (hforced h.1) h.2⟩
  | stamped snapshot recorded now =>
    rw [hw] at h
    exact ⟨hkeep h.1, hlisted _ _ (hforced h.1) h.2.1, h.2.2⟩
  | spawned snapshot recorded =>
    rw [hw] at h
    exact ⟨hkeep h.1, hwaited _ (hforced h.1) h.2⟩
  | running =>
    rw [hw] at h
    obtain ⟨flight, heq, hby, -⟩ := h
    rw [hflight] at heq
    cases heq
    exact ⟨_, hflight', hby, fun hqueued => absurd hqueued hstage⟩

theorem waited_of_queued (h : SweepKept w) {snapshot : Source} {recorded : ℕ}
    (hflight : w.flight = some ⟨true, snapshot, recorded, .queued⟩) :
    Waited w.attempts recorded w.clock := by
  have hnot : ¬NotBySweep w.flight := fun hnot => Bool.noConfusion (hnot _ hflight)
  unfold SweepKept at h
  cases hw : w.sweep with
  | idle =>
    rw [hw] at h
    exact absurd h hnot
  | listed snapshot recorded =>
    rw [hw] at h
    exact absurd h.1 hnot
  | stamped snapshot recorded now =>
    rw [hw] at h
    exact absurd h.1 hnot
  | spawned snapshot recorded =>
    rw [hw] at h
    exact absurd h.1 hnot
  | running =>
    rw [hw] at h
    obtain ⟨flight, heq, -, hwaited⟩ := h
    rw [hflight] at heq
    cases heq
    exact hwaited rfl

theorem sound_dispatch (h : Sound past w) (task : ℕ) : Sound past (next w (.dispatch task)) :=
  h.withForced _

section Start

variable {bySweep : Bool} {snapshot : Source} {recorded : ℕ}

theorem sound_skipped (h : Sound past w)
    (hflight : w.flight = some ⟨bySweep, snapshot, recorded, .queued⟩) :
    Sound past { w with flight := some ⟨bySweep, snapshot, recorded, .ended⟩ } := by
  have hcurrent : current w = none := current_of_flight hflight
  obtain ⟨hrows, hspaced⟩ := settled_of_sound hcurrent h
  refine sound_of_settled rfl hrows h.journaled.ordered h.journaled.elapsed
    ⟨h.row.ttl, h.row.elapsed, h.row.updated, h.row.failed, h.row.succeeded⟩ ?_ hspaced
  refine h.sweep.advance hflight rfl (fun heq => by cases heq) rfl rfl ?_ ?_
  · intro snapshot recorded _ hlisted
    rwa [known_of_current_none hcurrent] at hlisted
  · intro recorded _ hwaited
    rwa [known_of_current_none hcurrent] at hwaited

def begun (w : World) (bySweep : Bool) (recorded : ℕ) : Attempt :=
  ⟨w.clock, bySweep, recorded, failuresInRow w.journal, false⟩

theorem sound_fetching (h : Sound past w)
    (hflight : w.flight = some ⟨bySweep, snapshot, recorded, .queued⟩) :
    Sound past { w with
      flight := some ⟨bySweep, snapshot, recorded, .fetching (begun w bySweep recorded)⟩ } := by
  have hcurrent : current w = none := current_of_flight hflight
  have hknown := known_of_current_none hcurrent
  obtain ⟨hrows, hspaced⟩ := settled_of_sound hcurrent h
  refine ⟨⟨hrows, h.journaled.ordered, h.journaled.elapsed⟩,
    ⟨h.row.ttl, h.row.elapsed, h.row.updated, h.row.failed, h.row.succeeded⟩,
    ⟨?_, ?_, ?_, ?_, ?_⟩, ?_, ?_⟩
  · rintro flight attempt ⟨⟩ ⟨⟩
    rfl
  · rintro attempt ⟨⟩
    exact le_refl _
  · rintro attempt ⟨⟩
    exact h.journaled.elapsed
  · rintro attempt ⟨⟩
    exact h.row.elapsed
  · rintro flight attempt outcome ⟨⟩ hstage
    cases hstage
  · refine h.sweep.advance hflight rfl (fun heq => by cases heq) rfl rfl ?_ ?_
    · intro snapshot recorded _ hlisted
      rwa [hknown] at hlisted
    · intro recorded _ hwaited
      rwa [hknown] at hwaited
  · refine (spacedBy_concat _).mpr ⟨hspaced, fun hby a ha hsweep => ?_⟩
    change bySweep = true at hby
    subst hby
    have hwait := waited_of_queued h.sweep hflight a ha hsweep
    rwa [failureBackoffSecs_eq] at hwait

theorem sound_start (h : Sound past w) (henabled : Enabled w .start) :
    Sound past (next w .start) := by
  obtain ⟨bySweep, snapshot, recorded, hflight⟩ := henabled
  by_cases hfresh : (bySweep && isFresh snapshot w.clock) = true
  · have hnext : next w .start =
        { w with flight := some ⟨bySweep, snapshot, recorded, .ended⟩ } := by
      simp only [next, hflight, hfresh, if_true]
    rw [hnext]
    exact sound_skipped h hflight
  · have hnext : next w .start = { w with
        flight := some ⟨bySweep, snapshot, recorded, .fetching (begun w bySweep recorded)⟩ } := by
      unfold next
      rw [hflight]
      exact if_neg hfresh
    rw [hnext]
    exact sound_fetching h hflight

end Start

theorem matches_outcomeOf (attempt : Attempt) (failure : Option (Text × ErrorClass)) :
    Matches { attempt with failed := failure.isSome } (outcomeOf attempt.startedAt failure) := by
  cases failure with
  | none => exact ⟨rfl, rfl⟩
  | some failure => rfl

theorem sound_journal (h : Sound past w) (failure : Option (Text × ErrorClass))
    (henabled : Enabled w (.journal failure)) : Sound past (next w (.journal failure)) := by
  obtain ⟨bySweep, snapshot, recorded, attempt, hflight⟩ := henabled
  have hcurrent : current w = some attempt := by
    unfold current
    rw [hflight]
    rfl
  have hby : attempt.bySweep = bySweep := h.current.bySweep _ attempt hflight rfl
  have hlatest := h.current.latest attempt hcurrent
  have helapsed := h.current.elapsed attempt hcurrent
  have hupdated := h.current.updated attempt hcurrent
  have hknown : known w = w.attempts := by
    unfold known
    rw [hflight]
  have hrows := h.journaled.rows
  have hspaced := h.spaced
  have hstarted : started w = w.attempts ++ [attempt] := by
    unfold started
    rw [hcurrent]
    rfl
  rw [hknown] at hrows
  rw [hstarted, spacedBy_concat] at hspaced
  have hnext : next w (.journal failure) = { w with
      journal := w.journal ++ [{ attempt with failed := failure.isSome }.row]
      flight := some ⟨bySweep, snapshot, recorded,
        .journaled { attempt with failed := failure.isSome }
          (outcomeOf attempt.startedAt failure)⟩ } := by
    simp only [next, hflight]
  rw [hnext]
  refine ⟨⟨?_, ?_, ?_⟩,
    ⟨h.row.ttl, h.row.elapsed, h.row.updated, h.row.failed, h.row.succeeded⟩,
    ⟨?_, ?_, ?_, ?_, ?_⟩, ?_, ?_⟩
  · change w.journal ++ [_] = past ++ List.map Attempt.row (w.attempts ++ [_])
    rw [hrows, List.map_append, List.append_assoc]
    rfl
  · refine List.pairwise_append.mpr ⟨h.journaled.ordered, List.pairwise_singleton _ _, ?_⟩
    intro row hrow last hlast
    rw [List.mem_singleton.mp hlast]
    exact hlatest row hrow
  · intro row hrow
    rcases List.mem_append.mp hrow with hrow | hrow
    · exact h.journaled.elapsed row hrow
    · rw [List.mem_singleton.mp hrow]
      exact helapsed
  · rintro flight current ⟨⟩ ⟨⟩
    exact hby
  · rintro current ⟨⟩
    exact helapsed
  · rintro current ⟨⟩ row hrow
    rcases List.mem_append.mp hrow with hrow | hrow
    · exact hlatest row hrow
    · rw [List.mem_singleton.mp hrow]
      exact le_refl _
  · rintro current ⟨⟩
    exact hupdated
  · rintro flight current outcome ⟨⟩ ⟨⟩
    exact matches_outcomeOf attempt failure
  · refine h.sweep.advance hflight rfl (fun heq => by cases heq) rfl rfl ?_ ?_
    · intro snapshot recorded hforced hlisted
      rw [hknown] at hlisted
      exact hlisted.forced (hby.trans hforced)
    · intro recorded hforced hwaited
      rw [hknown] at hwaited
      exact hwaited.forced (hby.trans hforced)
  · exact (spacedBy_concat _).mpr hspaced

theorem rowKept_record (h : RowKept w) {attempt : Attempt} {outcome : FetchOutcome}
    (hmatches : Matches attempt outcome) (hupdated : w.row.updatedAt ≤ attempt.startedAt)
    (helapsed : attempt.startedAt ≤ w.clock) {flight : Option Flight} :
    RowKept { w with
      row := recordFetchOutcome w.row outcome
      attempts := w.attempts ++ [attempt]
      flight } := by
  have hlast : ∀ rest a, w.attempts ++ [attempt] = rest ++ [a] → attempt = a := fun rest a heq =>
    List.singleton_inj.mp (List.append_inj' heq rfl).2
  cases outcome with
  | success at' =>
    obtain ⟨hfailed, rfl⟩ := hmatches
    refine ⟨h.ttl, helapsed, fun a ha => ?_, fun rest a heq hfail => ?_, fun rest a heq _ => ?_⟩
    · rcases recent_concat.mp ha with rfl | ⟨hfail, -⟩
      · exact le_refl _
      · rw [hfailed] at hfail
        cases hfail
    · rw [← hlast rest a heq, hfailed] at hfail
      cases hfail
    · rw [← hlast rest a heq]
      rfl
  | failure error errorClass =>
    have hfailed : attempt.failed = true := hmatches
    refine ⟨h.ttl, h.elapsed, fun a ha => ?_, fun _ _ _ _ => rfl, fun rest a heq hsuccess => ?_⟩
    · rcases recent_concat.mp ha with rfl | ⟨-, hrecent⟩
      · exact hupdated
      · exact h.updated a hrecent
    · rw [← hlast rest a heq, hfailed] at hsuccess
      cases hsuccess

theorem sound_record (h : Sound past w) (henabled : Enabled w .record) :
    Sound past (next w .record) := by
  obtain ⟨bySweep, snapshot, recorded, attempt, outcome, hflight⟩ := henabled
  have hcurrent : current w = some attempt := by
    unfold current
    rw [hflight]
    rfl
  have hknown : known w = w.attempts ++ [attempt] := by
    unfold known
    rw [hflight]
  have hrows := h.journaled.rows
  have hspaced := h.spaced
  have hstarted : started w = w.attempts ++ [attempt] := by
    unfold started
    rw [hcurrent]
    rfl
  rw [hknown] at hrows
  rw [hstarted] at hspaced
  have hnext : next w .record = { w with
      row := recordFetchOutcome w.row outcome
      attempts := w.attempts ++ [attempt]
      flight := some ⟨bySweep, snapshot, recorded, .ended⟩ } := by
    simp only [next, hflight]
  rw [hnext]
  refine sound_of_settled rfl hrows h.journaled.ordered h.journaled.elapsed
    (rowKept_record h.row (h.current.outcome _ attempt outcome hflight rfl)
      (h.current.updated attempt hcurrent) (h.current.elapsed attempt hcurrent)) ?_ hspaced
  refine h.sweep.advance hflight rfl (fun heq => by cases heq) rfl rfl ?_ ?_
  · intro snapshot recorded _ hlisted
    rwa [hknown] at hlisted
  · intro recorded _ hwaited
    rwa [hknown] at hwaited

theorem sound_release (h : Sound past w) (henabled : Enabled w .release) :
    Sound past (next w .release) := by
  obtain ⟨bySweep, snapshot, recorded, hflight⟩ := henabled
  have hcurrent : current w = none := current_of_flight hflight
  obtain ⟨hrows, hspaced⟩ := settled_of_sound hcurrent h
  have hnext : next w .release =
      { w with flight := none, sweep := if bySweep then .idle else w.sweep } := by
    simp only [next, hflight]
  rw [hnext]
  refine sound_of_settled rfl hrows h.journaled.ordered h.journaled.elapsed
    ⟨h.row.ttl, h.row.elapsed, h.row.updated, h.row.failed, h.row.succeeded⟩ ?_ hspaced
  have hfree : NotBySweep none := fun _ hnone => by cases hnone
  have hsweep := h.sweep
  unfold SweepKept at hsweep ⊢
  rw [known_of_current_none hcurrent] at hsweep
  cases bySweep with
  | true => exact hfree
  | false =>
    change match w.sweep with
      | .idle => _
      | .listed snapshot recorded => _
      | .stamped snapshot recorded now => _
      | .spawned _ recorded => _
      | .running => _
    cases hw : w.sweep with
    | idle => exact hfree
    | listed snapshot recorded =>
      rw [hw] at hsweep
      exact ⟨hfree, hsweep.2⟩
    | stamped snapshot recorded now =>
      rw [hw] at hsweep
      exact ⟨hfree, hsweep.2⟩
    | spawned snapshot recorded =>
      rw [hw] at hsweep
      exact ⟨hfree, hsweep.2⟩
    | running =>
      rw [hw] at hsweep
      obtain ⟨flight, heq, hby, -⟩ := hsweep
      rw [hflight] at heq
      cases heq
      cases hby

end TaskSteps

section Runs

variable {past : List FetchLogRow} {w : World}

theorem sound_next (h : Sound past w) (event : Event) (henabled : Enabled w event) :
    Sound past (next w event) := by
  cases event with
  | tick secs => exact sound_tick h secs
  | list => exact sound_list h henabled
  | stamp => exact sound_stamp h henabled
  | judge => exact sound_judge h henabled
  | acquire => exact sound_acquire h henabled
  | dispatch task => exact sound_dispatch h task
  | acquireForced task => exact sound_acquireForced h task henabled
  | start => exact sound_start h henabled
  | journal failure => exact sound_journal h failure henabled
  | record => exact sound_record h henabled
  | release => exact sound_release h henabled

theorem sound_initial (h : Initial w) : Sound w.journal w := by
  have hcurrent : current w = none := by
    unfold current
    rw [h.flight]
    rfl
  have hempty : ∀ a, ¬Recent w.attempts a := by
    rw [h.attempts]
    exact fun _ => not_recent_nil
  refine sound_of_settled hcurrent ?_ h.ordered h.past ?_ ?_ ?_
  · rw [h.attempts, List.map_nil, List.append_nil]
  · refine ⟨h.ttl, h.updated, fun a ha => absurd ha (hempty a), fun rest a heq => ?_,
      fun rest a heq => ?_⟩
    · rw [h.attempts] at heq
      simp at heq
    · rw [h.attempts] at heq
      simp at heq
  · unfold SweepKept NotBySweep
    rw [h.sweep, h.flight]
    exact fun _ hnone => by cases hnone
  · rw [h.attempts]
    intro before a between b after heq
    simp at heq

theorem sound_reachable (h : Reachable scheduler Any w) : ∃ past, Sound past w :=
  h.invariant (fun w => ∃ past, Sound past w)
    (fun w hinitial => ⟨w.journal, sound_initial hinitial⟩)
    fun _ event ⟨past, hsound⟩ henabled _ => ⟨past, sound_next hsound event henabled⟩

end Runs

/-- The truncated history decides like the whole journal, and the attempts of the sweep with only
failures between them keep the backoff of the failures recorded when the sweep lists the sources. -/
theorem truncated_history_spaces :
    (∀ (source : Source) (journal : List FetchLogRow) (now : ℤ),
      isDue source now (failureHistory journal) =
        isDue source now (historyOf (newestFirst journal))) ∧
    ∀ w, Reachable scheduler Any w → SpacedBy Attempt.recorded (started w) := by
  refine ⟨fun source journal now => isDue_truncated source now journal, fun w hreachable => ?_⟩
  obtain ⟨past, hsound⟩ := sound_reachable hreachable
  exact hsound.spaced

section Overtaken

def feed : Source := { id := "s1", name := "feed", url := "https://example.com/sub" }

def quiet : World := { row := feed, journal := [], clock := 0 }

def refused : Option (Text × ErrorClass) := some ("connection refused", .network)

/-- The sweep fails once; it decides again while a forced refresh is in flight, which then fails
before the task of the sweep takes the mark. -/
def overtaken : List Event :=
  [.list, .stamp, .judge, .acquire, .start, .journal refused, .record, .release, .tick 120,
    .dispatch 0, .acquireForced 0, .start, .list, .stamp, .judge, .journal refused, .record,
    .release, .acquire, .start]

theorem quiet_initial : Initial quiet :=
  ⟨by decide, by decide, List.Pairwise.nil, fun _ hrow => absurd hrow List.not_mem_nil, rfl,
    fun _ => rfl, rfl, rfl⟩

theorem overtaken_executes : Executes scheduler Any quiet overtaken :=
  ⟨⟨rfl, rfl⟩, trivial, ⟨_, _, rfl⟩, trivial, ⟨_, _, _, rfl⟩, trivial, ⟨_, _, rfl⟩, trivial,
    ⟨_, _, _, rfl⟩, trivial, ⟨_, _, _, _, rfl⟩, trivial, ⟨_, _, _, _, _, rfl⟩, trivial,
    ⟨_, _, _, rfl⟩, trivial, trivial, trivial, rfl, trivial, ⟨_, rfl⟩, trivial,
    ⟨_, _, _, rfl⟩, trivial, ⟨rfl, rfl⟩, trivial, ⟨_, _, rfl⟩, trivial, ⟨_, _, _, rfl⟩, trivial,
    ⟨_, _, _, _, rfl⟩, trivial, ⟨_, _, _, _, _, rfl⟩, trivial, ⟨_, _, _, rfl⟩, trivial,
    ⟨_, _, rfl⟩, trivial, ⟨_, _, _, rfl⟩, trivial, trivial⟩

theorem overtaken_reachable : Reachable scheduler Any (overtaken.foldl next quiet) :=
  (Reachable.init quiet_initial).execute overtaken_executes

theorem started_overtaken : started (overtaken.foldl next quiet) =
    [⟨0, true, 0, 0, true⟩, ⟨120, false, 0, 1, true⟩, ⟨120, true, 1, 2, false⟩] := by
  decide +kernel

end Overtaken

theorem overtaken_spaced : SpacedBy Attempt.recorded (started (overtaken.foldl next quiet)) :=
  truncated_history_spaces.2 _ overtaken_reachable

theorem overtaken_too_soon : ¬((∀ (source : Source) (journal : List FetchLogRow) (now : ℤ),
      isDue source now (failureHistory journal) =
        isDue source now (historyOf (newestFirst journal))) ∧
    ∀ w, Reachable scheduler Any w → SpacedBy Attempt.before (started w)) := by
  rintro ⟨-, hspaced⟩
  have hlate := hspaced _ overtaken_reachable [] ⟨0, true, 0, 0, true⟩ [⟨120, false, 0, 1, true⟩]
    ⟨120, true, 1, 2, false⟩ [] started_overtaken rfl rfl (by decide)
  exact absurd hlate (by decide)

end SweepSpacing
