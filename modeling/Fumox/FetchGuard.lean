import Fumox.RustText
import Fumox.TaskTable
import Fumox.TransitionRuns

/-!
The concurrency protocol of the refresh loop: the in-flight marks, the permits of the semaphore,
and the tasks that take and give them back, also when they fail half way.
-/

namespace FetchGuard

open RustText TaskTable TransitionRuns

inductive IngestOutcome where
  | ok
  | fetchFailed
  | parseFailed
  deriving DecidableEq, Repr

inductive BusEvent where
  | fetchQueued
  | fetchStarted
  | fetchDone
  | fetchFailed
  deriving DecidableEq, Repr

/-- Where an ingest task stands.  The mark is held from `marked` to `returned` and the permit from
`permitted` to `fetched`; no outcome means that the task ends early and only gives back. -/
inductive Task where
  | spawned (source : Text)
  | marked (source : Text)
  | queued (source : Text)
  | permitted (source : Text)
  | fetching (source : Text)
  | fetched (source : Text) (outcome : Option IngestOutcome)
  | returned (source : Text) (outcome : Option IngestOutcome)
  | released (source : Text) (outcome : IngestOutcome)
  | ended
  deriving DecidableEq, Repr

/-- `deferred` are the removals that a contended drop has handed to the runtime. -/
structure World where
  available : ℕ
  inFlight : Finset Text := ∅
  deferred : List Text := []
  tasks : List Task := []
  log : List (BusEvent × Text) := []

inductive Event where
  | spawnIngest (source : Text)
  | acquireSource (t : ℕ) (source : Text)
  | publishQueued (t : ℕ) (source : Text)
  | acquirePermit (t : ℕ) (source : Text)
  | publishStarted (t : ℕ) (source : Text)
  | ingest (t : ℕ) (source : Text) (outcome : IngestOutcome)
  | panic (t : ℕ) (source : Text)
  | closed (t : ℕ) (source : Text)
  | dropPermit (t : ℕ) (source : Text) (outcome : Option IngestOutcome)
  | dropGuard (t : ℕ) (source : Text) (outcome : Option IngestOutcome) (contended : Bool)
  | removeDeferred (source : Text)
  | publishOutcome (t : ℕ) (source : Text) (outcome : IngestOutcome)
  deriving DecidableEq, Repr

def Enabled (w : World) : Event → Prop
  | .spawnIngest _ => True
  | .acquireSource t source => w.tasks[t]? = some (.spawned source)
  | .publishQueued t source => w.tasks[t]? = some (.marked source)
  | .acquirePermit t source => w.tasks[t]? = some (.queued source) ∧ 0 < w.available
  | .publishStarted t source => w.tasks[t]? = some (.permitted source)
  | .ingest t source _ | .panic t source => w.tasks[t]? = some (.fetching source)
  -- the semaphore is closed while the runtime shuts down
  | .closed t source => w.tasks[t]? = some (.queued source)
  | .dropPermit t source outcome => w.tasks[t]? = some (.fetched source outcome)
  -- whether another task has the lock of the set is left open
  | .dropGuard t source outcome _ => w.tasks[t]? = some (.returned source outcome)
  | .removeDeferred source => source ∈ w.deferred
  | .publishOutcome t source outcome => w.tasks[t]? = some (.released source outcome)

instance (w : World) (e : Event) : Decidable (Enabled w e) := by
  unfold Enabled
  casesm Event <;> infer_instance

def World.goto (w : World) (t : ℕ) (task : Task) : World :=
  { w with tasks := w.tasks.set t task }

def World.publish (w : World) (e : BusEvent) (source : Text) : World :=
  { w with log := w.log ++ [(e, source)] }

def afterGuard (source : Text) : Option IngestOutcome → Task
  | some outcome => .released source outcome
  | none => .ended

def outcomeEvent : IngestOutcome → BusEvent
  | .ok => .fetchDone
  | .fetchFailed | .parseFailed => .fetchFailed

def next (w : World) : Event → World
  | .spawnIngest source => { w with tasks := w.tasks ++ [.spawned source] }
  | .acquireSource t source =>
    if source ∈ w.inFlight then w.goto t .ended
    else { w with inFlight := insert source w.inFlight }.goto t (.marked source)
  | .publishQueued t source => (w.publish .fetchQueued source).goto t (.queued source)
  | .acquirePermit t source =>
    { w with available := w.available - 1 }.goto t (.permitted source)
  | .publishStarted t source => (w.publish .fetchStarted source).goto t (.fetching source)
  | .ingest t source outcome => w.goto t (.fetched source (some outcome))
  -- unwinding drops the permit and then the guard
  | .panic t source => w.goto t (.fetched source none)
  | .closed t source => w.goto t (.returned source none)
  | .dropPermit t source outcome =>
    { w with available := w.available + 1 }.goto t (.returned source outcome)
  | .dropGuard t source outcome contended =>
    if contended then
      { w with deferred := w.deferred ++ [source] }.goto t (afterGuard source outcome)
    else { w with inFlight := w.inFlight.erase source }.goto t (afterGuard source outcome)
  | .removeDeferred source =>
    { w with deferred := w.deferred.erase source, inFlight := w.inFlight.erase source }
  | .publishOutcome t source outcome =>
    (w.publish (outcomeEvent outcome) source).goto t .ended

/-- `SchedulerState::new` and the tasks that share it. -/
def scheduler (maxConcurrency : ℕ) : System World Event where
  Initial w := w = { available := max maxConcurrency 1 }
  Enabled := Enabled
  next := next

instance (maxConcurrency : ℕ) (w : World) (e : Event) :
    Decidable ((scheduler maxConcurrency).Enabled w e) :=
  inferInstanceAs (Decidable (Enabled w e))

instance (w : World) (e : Event) : Decidable (Any w e) :=
  .isTrue trivial

namespace Task

def mark : Task → Multiset Text
  | marked source | queued source | permitted source | fetching source | fetched source _
  | returned source _ => {source}
  | spawned _ | released .. | ended => 0

def permits : Task → ℕ
  | permitted _ | fetching _ | fetched .. => 1
  | _ => 0

def toStart (source : Text) : Task → ℕ
  | queued s | permitted s => if s = source then 1 else 0
  | _ => 0

/-- Announced as started and, unless it fails half way, going to announce its outcome. -/
def toFinish (source : Text) : Task → ℕ
  | fetching s | fetched s (some _) | returned s (some _) | released s _ =>
    if s = source then 1 else 0
  | _ => 0

def remaining : Task → ℕ
  | spawned _ => 9
  | marked _ => 8
  | queued _ => 7
  | permitted _ => 6
  | fetching _ => 5
  | fetched .. => 4
  | returned .. => 3
  | released .. => 1
  | ended => 0

end Task

section AfterGuard

variable (source source' : Text) (outcome : Option IngestOutcome)

theorem mark_afterGuard : (afterGuard source outcome).mark = 0 := by
  cases outcome <;> rfl

theorem permits_afterGuard : (afterGuard source outcome).permits = 0 := by
  cases outcome <;> rfl

theorem toStart_afterGuard : (afterGuard source outcome).toStart source' = 0 := by
  cases outcome <;> rfl

theorem toFinish_afterGuard : (afterGuard source outcome).toFinish source' =
    (Task.returned source outcome).toFinish source' := by
  cases outcome <;> rfl

end AfterGuard

def World.finished (w : World) (source : Text) : ℕ :=
  w.log.count (.fetchDone, source) + w.log.count (.fetchFailed, source)

def World.remaining (w : World) : ℕ :=
  total Task.remaining w.tasks + w.deferred.length

/-- Every mark has one owner, every permit is somewhere, and nothing is announced out of order. -/
structure Invariant (maxConcurrency : ℕ) (w : World) : Prop where
  marks : w.inFlight.val = total Task.mark w.tasks + w.deferred
  permits : w.available + total Task.permits w.tasks = max maxConcurrency 1
  started : ∀ source, w.log.count (.fetchStarted, source) +
    total (Task.toStart source) w.tasks ≤ w.log.count (.fetchQueued, source)
  finished : ∀ source, w.finished source + total (Task.toFinish source) w.tasks ≤
    w.log.count (.fetchStarted, source)

variable {maxConcurrency t : ℕ} {w w' : World} {e : Event} {source : Text} {task task' : Task}

theorem init_invariant : Invariant maxConcurrency { available := max maxConcurrency 1 } :=
  ⟨rfl, rfl, fun _ => le_rfl, fun _ => le_rfl⟩

structure Moves (w w' : World) (t : ℕ) (task task' : Task) : Prop where
  tasks : w'.tasks = w.tasks.set t task'
  marks : w'.inFlight.val + w.deferred + task.mark = w.inFlight.val + w'.deferred + task'.mark
  permits : w'.available + task'.permits = w.available + task.permits
  started : ∀ source, w'.log.count (.fetchStarted, source) + w.log.count (.fetchQueued, source) +
    task'.toStart source ≤ w.log.count (.fetchStarted, source) +
      w'.log.count (.fetchQueued, source) + task.toStart source
  finished : ∀ source, w'.finished source + w.log.count (.fetchStarted, source) +
    task'.toFinish source ≤ w.finished source + w'.log.count (.fetchStarted, source) +
      task.toFinish source

theorem Invariant.move (h : Invariant maxConcurrency w) (ht : w.tasks[t]? = some task)
    (hmove : Moves w w' t task task') : Invariant maxConcurrency w' where
  marks := by
    have hsum := total_set Task.mark ht task'
    have hmarks := hmove.marks
    rw [h.marks] at hmarks
    rw [hmove.tasks]
    have hcancel : w'.inFlight.val + (w.deferred + task.mark) =
        total Task.mark (w.tasks.set t task') + w'.deferred + (w.deferred + task.mark) := calc
      _ = w'.inFlight.val + w.deferred + task.mark := (add_assoc _ _ _).symm
      _ = total Task.mark w.tasks + w.deferred + w'.deferred + task'.mark := hmarks
      _ = total Task.mark w.tasks + task'.mark + w'.deferred + w.deferred := by abel
      _ = total Task.mark (w.tasks.set t task') + task.mark + w'.deferred + w.deferred := by
        rw [hsum]
      _ = _ := by abel
    exact add_right_cancel hcancel
  permits := by
    have hsum := total_set Task.permits ht task'
    have hold := h.permits
    have hpermits := hmove.permits
    rw [hmove.tasks]
    omega
  started := by
    intro source
    have hsum := total_set (Task.toStart source) ht task'
    have hold := h.started source
    have hstarted := hmove.started source
    rw [hmove.tasks]
    omega
  finished := by
    intro source
    have hsum := total_set (Task.toFinish source) ht task'
    have hold := h.finished source
    have hfinished := hmove.finished source
    rw [hmove.tasks]
    omega

theorem Moves.goto (hmark : task'.mark = task.mark) (hpermits : task'.permits = task.permits)
    (hstart : ∀ source, task'.toStart source ≤ task.toStart source)
    (hfinish : ∀ source, task'.toFinish source ≤ task.toFinish source) :
    Moves w (w.goto t task') t task task' where
  tasks := rfl
  marks := by rw [hmark]; rfl
  permits := by rw [hpermits]; rfl
  started := fun source => by
    have hle := hstart source
    dsimp only [World.goto]
    omega
  finished := fun source => by
    have hle := hfinish source
    dsimp only [World.goto, World.finished]
    omega

theorem step_invariant (h : Invariant maxConcurrency w) (henabled : Enabled w e) :
    Invariant maxConcurrency (next w e) := by
  cases e with
  | spawnIngest source =>
    refine ⟨?_, ?_, fun s => ?_, fun s => ?_⟩
    · exact h.marks.trans (by simp [next, total_concat, Task.mark])
    · simpa [next, total_concat, Task.permits] using h.permits
    · simpa [next, total_concat, Task.toStart] using h.started s
    · simpa [next, total_concat, Task.toFinish, World.finished] using h.finished s
  | acquireSource t source =>
    simp only [next]
    split_ifs with hheld
    · exact h.move henabled (.goto rfl rfl (fun _ => le_rfl) fun _ => le_rfl)
    · refine h.move henabled ⟨rfl, ?_, rfl, fun _ => le_rfl, fun _ => le_rfl⟩
      simp only [World.goto, Task.mark, Finset.insert_val_of_notMem hheld,
        ← Multiset.singleton_add]
      abel
  | publishQueued t source =>
    refine h.move henabled ⟨rfl, rfl, rfl, fun s => ?_, fun s => ?_⟩
    · by_cases hs : source = s <;>
        simp [next, World.goto, World.publish, Task.toStart, hs]
    · simp [next, World.goto, World.publish, World.finished, Task.toFinish]
  | acquirePermit t source =>
    obtain ⟨ht, hpos⟩ := henabled
    refine h.move ht ⟨rfl, rfl, ?_, fun _ => le_rfl, fun _ => le_rfl⟩
    simp only [next, World.goto, Task.permits]
    omega
  | publishStarted t source =>
    refine h.move henabled ⟨rfl, rfl, rfl, fun s => ?_, fun s => ?_⟩
    · by_cases hs : source = s <;>
        simp [next, World.goto, World.publish, Task.toStart, hs]
      omega
    · by_cases hs : source = s <;>
        simp [next, World.goto, World.publish, World.finished, Task.toFinish, hs]
  | ingest t source outcome =>
    exact h.move henabled (.goto rfl rfl (fun _ => le_rfl) fun _ => le_rfl)
  | panic t source =>
    exact h.move henabled (.goto rfl rfl (fun _ => le_rfl) fun _ => Nat.zero_le _)
  | closed t source =>
    exact h.move henabled (.goto rfl rfl (fun _ => Nat.zero_le _) fun _ => le_rfl)
  | dropPermit t source outcome =>
    refine h.move henabled ⟨rfl, rfl, rfl, fun _ => le_rfl, fun s => ?_⟩
    cases outcome <;> exact le_rfl
  | dropGuard t source outcome contended =>
    have hheld : source ∈ w.inFlight.val := by
      rw [h.marks]
      exact Multiset.mem_add.mpr (.inl (mem_total.mpr
        ⟨_, List.mem_of_getElem? henabled, Multiset.mem_singleton_self source⟩))
    simp only [next]
    split_ifs
    · refine h.move henabled ⟨rfl, ?_, congrArg _ (permits_afterGuard source outcome),
        fun s => ?_, fun s => ?_⟩
      · change w.inFlight.val + w.deferred + {source} = w.inFlight.val +
          ((w.deferred ++ [source] : List Text) : Multiset Text) + (afterGuard source outcome).mark
        rw [mark_afterGuard, add_zero, ← Multiset.coe_add, Multiset.coe_singleton, add_assoc]
      · simp [World.goto, toStart_afterGuard]
      · simp [World.goto, World.finished, toFinish_afterGuard]
    · refine h.move henabled ⟨rfl, ?_, congrArg _ (permits_afterGuard source outcome),
        fun s => ?_, fun s => ?_⟩
      · obtain ⟨rest, hrest⟩ := Multiset.exists_cons_of_mem hheld
        change (w.inFlight.erase source).val + w.deferred + {source} =
          w.inFlight.val + w.deferred + (afterGuard source outcome).mark
        rw [mark_afterGuard, add_zero, Finset.erase_val, hrest, Multiset.erase_cons_head,
          ← Multiset.singleton_add]
        abel
      · simp [World.goto, toStart_afterGuard]
      · simp [World.goto, World.finished, toFinish_afterGuard]
  | removeDeferred source =>
    refine ⟨?_, h.permits, h.started, h.finished⟩
    have hmarks := h.marks
    have hperm : (w.deferred : Multiset Text) = source ::ₘ (w.deferred.erase source : List Text) :=
      Multiset.coe_eq_coe.mpr (List.perm_cons_erase henabled)
    rw [hperm, Multiset.add_cons] at hmarks
    simp only [next, Finset.erase_val, hmarks, Multiset.erase_cons_head]
  | publishOutcome t source outcome =>
    refine h.move henabled ⟨rfl, rfl, rfl, fun s => ?_, fun s => ?_⟩
    · cases outcome <;>
        simp [next, World.goto, World.publish, outcomeEvent, Task.toStart]
    · by_cases hs : source = s <;> cases outcome <;>
        simp [next, World.goto, World.publish, outcomeEvent, World.finished, Task.toFinish, hs] <;>
        omega

theorem reachable_invariant {Ok : World → Event → Prop}
    (h : Reachable (scheduler maxConcurrency) Ok w) : Invariant maxConcurrency w :=
  h.invariant (Invariant maxConcurrency) (by rintro _ rfl; exact init_invariant)
    fun _ _ hinv henabled _ => step_invariant hinv henabled

/-- No two tasks fetch one source, no more tasks fetch than there are permits, the set of marks
names exactly the sources that a task or a pending removal still stands for, and nothing is
announced as finished before it was started, nor as started before it was queued. -/
theorem single_flight (h : Reachable (scheduler maxConcurrency) Any w) :
    (∀ (i j : ℕ) (source : Text) (task task' : Task), w.tasks[i]? = some task →
        w.tasks[j]? = some task' → source ∈ task.mark → source ∈ task'.mark → i = j) ∧
      total Task.permits w.tasks ≤ max maxConcurrency 1 ∧
      (∀ source, source ∈ w.inFlight ↔
        (∃ task ∈ w.tasks, source ∈ task.mark) ∨ source ∈ w.deferred) ∧
      ∀ source, w.finished source ≤ w.log.count (.fetchStarted, source) ∧
        w.log.count (.fetchStarted, source) ≤ w.log.count (.fetchQueued, source) := by
  have hinv := reachable_invariant h
  have hnodup : (total Task.mark w.tasks).Nodup :=
    Multiset.nodup_of_le (Multiset.le_add_right _ _) (hinv.marks ▸ w.inFlight.nodup)
  refine ⟨fun i j source task task' hi hj hx hy => index_unique hnodup hi hj hx hy, ?_, ?_, ?_⟩
  · have hpermits := hinv.permits
    omega
  · intro source
    rw [← Finset.mem_val, hinv.marks, Multiset.mem_add, mem_total, Multiset.mem_coe]
  · intro source
    have hstarted := hinv.started source
    have hfinished := hinv.finished source
    omega

/-- Two refreshes of one source: the second task is spawned while the first one fetches, and takes
the mark after the contended removal of the first one has run. -/
def refreshedTwice : List Event :=
  [.spawnIngest "feed", .acquireSource 0 "feed", .publishQueued 0 "feed", .acquirePermit 0 "feed",
    .publishStarted 0 "feed", .spawnIngest "feed", .ingest 0 "feed" .ok,
    .dropPermit 0 "feed" (some .ok), .dropGuard 0 "feed" (some .ok) true, .removeDeferred "feed",
    .acquireSource 1 "feed", .publishQueued 1 "feed"]

theorem single_flight_sample :
    let w := refreshedTwice.foldl next { available := 1 }
    (∀ (i j : ℕ) (source : Text) (task task' : Task), w.tasks[i]? = some task →
        w.tasks[j]? = some task' → source ∈ task.mark → source ∈ task'.mark → i = j) ∧
      total Task.permits w.tasks ≤ max 1 1 ∧
      (∀ source, source ∈ w.inFlight ↔
        (∃ task ∈ w.tasks, source ∈ task.mark) ∨ source ∈ w.deferred) ∧
      ∀ source, w.finished source ≤ w.log.count (.fetchStarted, source) ∧
        w.log.count (.fetchStarted, source) ≤ w.log.count (.fetchQueued, source) :=
  single_flight (show Reachable (scheduler 1) Any _ from .execute (.init rfl) (by decide +kernel))

def SpawnsNothing (_ : World) : Event → Prop
  | .spawnIngest _ => False
  | _ => True

instance (w : World) : (e : Event) → Decidable (SpawnsNothing w e)
  | .spawnIngest _ => instDecidableFalse
  | .acquireSource .. | .publishQueued .. | .acquirePermit .. | .publishStarted .. | .ingest ..
  | .panic .. | .closed .. | .dropPermit .. | .dropGuard .. | .removeDeferred ..
  | .publishOutcome .. => instDecidableTrue

theorem remaining_goto (ht : w.tasks[t]? = some task) (hlt : task'.remaining < task.remaining) :
    total Task.remaining (w.tasks.set t task') < total Task.remaining w.tasks := by
  have hsum := total_set Task.remaining ht task'
  omega

theorem remaining_next (henabled : Enabled w e) (he : SpawnsNothing w e) :
    (next w e).remaining < w.remaining := by
  unfold World.remaining
  cases e with
  | spawnIngest source => exact he.elim
  | acquireSource t source =>
    simp only [next]
    split_ifs
    · have hlt : Task.ended.remaining < (Task.spawned source).remaining := Nat.zero_lt_succ _
      exact Nat.add_lt_add_right (remaining_goto henabled hlt) _
    · exact Nat.add_lt_add_right (remaining_goto henabled (Nat.lt_succ_self _)) _
  | acquirePermit t source =>
    exact Nat.add_lt_add_right (remaining_goto henabled.1 (Nat.lt_succ_self _)) _
  | publishQueued t source | publishStarted t source | ingest t source outcome
  | panic t source | dropPermit t source outcome | publishOutcome t source outcome =>
    exact Nat.add_lt_add_right (remaining_goto henabled (Nat.lt_succ_self _)) _
  | closed t source =>
    have hlt : (Task.returned source none).remaining < (Task.queued source).remaining :=
      show 3 < 7 by decide
    exact Nat.add_lt_add_right (remaining_goto henabled hlt) _
  | dropGuard t source outcome contended =>
    have hsum := total_set Task.remaining henabled (afterGuard source outcome)
    have hafter : (afterGuard source outcome).remaining ≤ 1 := by
      cases outcome with
      | none => exact Nat.zero_le 1
      | some outcome => exact le_rfl
    have hbefore : (Task.returned source outcome).remaining = 3 := rfl
    simp only [next]
    split_ifs
    · simp only [World.goto, List.length_append, List.length_singleton]
      omega
    · simp only [World.goto]
      omega
  | removeDeferred source =>
    have hlength := List.length_erase_add_one henabled
    simp only [next]
    omega

/-- The steps of a run in which nothing fails and the runtime does not shut down. -/
def Proceeds : Event → Prop
  | .spawnIngest _ | .panic .. | .closed .. => False
  | _ => True

theorem exists_step_of_task (ht : w.tasks[t]? = some task) (hleft : task ≠ .ended)
    (hqueued : ∀ source, task = .queued source → 0 < w.available) :
    ∃ e, Proceeds e ∧ Enabled w e := by
  cases task with
  | spawned source => exact ⟨.acquireSource t source, trivial, ht⟩
  | marked source => exact ⟨.publishQueued t source, trivial, ht⟩
  | queued source => exact ⟨.acquirePermit t source, trivial, ht, hqueued source rfl⟩
  | permitted source => exact ⟨.publishStarted t source, trivial, ht⟩
  | fetching source => exact ⟨.ingest t source .ok, trivial, ht⟩
  | fetched source outcome => exact ⟨.dropPermit t source outcome, trivial, ht⟩
  | returned source outcome => exact ⟨.dropGuard t source outcome false, trivial, ht⟩
  | released source outcome => exact ⟨.publishOutcome t source outcome, trivial, ht⟩
  | ended => exact absurd rfl hleft

theorem exists_step (h : Invariant maxConcurrency w) (hleft : w.remaining ≠ 0) :
    ∃ e, Proceeds e ∧ Enabled w e := by
  by_cases hdeferred : w.deferred = []
  · obtain ⟨task, hmem, hpos⟩ : ∃ task ∈ w.tasks, task.remaining ≠ 0 := by
      by_contra hnone
      push Not at hnone
      exact hleft (by rw [World.remaining, total_eq_zero.mpr hnone, hdeferred]; rfl)
    obtain ⟨t, ht⟩ := List.getElem?_of_mem hmem
    by_cases havailable : 0 < w.available
    · exact exists_step_of_task ht (fun heq => hpos (heq ▸ rfl)) fun _ _ => havailable
    · -- every permit is with a task, and a task with a permit never waits
      have hheld : total Task.permits w.tasks ≠ 0 := by
        have hpermits := h.permits
        omega
      obtain ⟨holder, hholder, hpermit⟩ : ∃ holder ∈ w.tasks, holder.permits ≠ 0 := by
        by_contra hnone
        push Not at hnone
        exact hheld (total_eq_zero.mpr hnone)
      obtain ⟨i, hi⟩ := List.getElem?_of_mem hholder
      exact exists_step_of_task hi (fun heq => hpermit (heq ▸ rfl))
        fun source heq => absurd (heq ▸ rfl) hpermit
  · obtain ⟨source, hmem⟩ := List.exists_mem_of_ne_nil _ hdeferred
    exact ⟨.removeDeferred source, trivial, hmem⟩

theorem length_le_remaining {es : List Event}
    (hes : Executes (scheduler maxConcurrency) SpawnsNothing w es) :
    es.length + (es.foldl next w).remaining ≤ w.remaining := by
  induction es generalizing w with
  | nil => exact (Nat.zero_add _).le
  | cons e es ih =>
    obtain ⟨henabled, hspawns, hrest⟩ := hes
    have hstep := remaining_next henabled hspawns
    have htail := ih hrest
    simp only [List.length_cons, List.foldl_cons]
    change _ + ((es.foldl next (next w e)).remaining) ≤ _
    change es.length + (es.foldl next (next w e)).remaining ≤ (next w e).remaining at htail
    omega

theorem executes_invariant (h : Invariant maxConcurrency w) {es : List Event}
    (hes : Executes (scheduler maxConcurrency) SpawnsNothing w es) :
    Invariant maxConcurrency (es.foldl next w) := by
  induction es generalizing w with
  | nil => exact h
  | cons e es ih =>
    obtain ⟨henabled, -, hrest⟩ := hes
    exact ih (step_invariant h henabled) hrest

/-- Whatever tasks fail or give up, and however their guards are dropped: once no more refreshes
are asked for the loop comes to rest, and at rest no mark and no permit is missing. -/
theorem drains (h : Reachable (scheduler maxConcurrency) Any w) {es : List Event}
    (hes : Executes (scheduler maxConcurrency) SpawnsNothing w es) :
    es.length ≤ w.remaining ∧
      ((∀ e, Proceeds e → ¬Enabled (es.foldl next w) e) →
        (es.foldl next w).inFlight = ∅ ∧ (es.foldl next w).available = max maxConcurrency 1 ∧
          ∀ task ∈ (es.foldl next w).tasks, task = .ended) := by
  refine ⟨by have hlength := length_le_remaining hes; omega, fun hrest => ?_⟩
  have hinv := executes_invariant (reachable_invariant h) hes
  have hleft : (es.foldl next w).remaining = 0 := by
    by_contra hleft
    obtain ⟨e, he, henabled⟩ := exists_step hinv hleft
    exact hrest e he henabled
  have hdeferred : (es.foldl next w).deferred = [] :=
    List.length_eq_zero_iff.mp (Nat.add_eq_zero_iff.mp hleft).2
  have hended : ∀ task ∈ (es.foldl next w).tasks, task = .ended := by
    intro task hmem
    have hzero := total_eq_zero.mp (Nat.add_eq_zero_iff.mp hleft).1 task hmem
    cases task <;> first | rfl | cases hzero
  refine ⟨?_, ?_, hended⟩
  · rw [← Finset.val_eq_zero, hinv.marks, hdeferred, Multiset.eq_zero_iff_forall_notMem]
    intro source hmem
    rw [Multiset.coe_nil, add_zero, mem_total] at hmem
    obtain ⟨task, htask, hmark⟩ := hmem
    rw [hended task htask] at hmark
    exact Multiset.notMem_zero source hmark
  · have hpermits := hinv.permits
    have hnone : total Task.permits (es.foldl next w).tasks = 0 :=
      total_eq_zero.mpr fun task htask => hended task htask ▸ rfl
    omega

def secondFails : List Event :=
  [.acquirePermit 1 "feed", .publishOutcome 0 "feed" .ok, .publishStarted 1 "feed",
    .panic 1 "feed", .dropPermit 1 "feed" none, .dropGuard 1 "feed" none true,
    .removeDeferred "feed"]

theorem drains_sample :
    let w := refreshedTwice.foldl next { available := 1 }
    secondFails.length ≤ w.remaining ∧
      ((∀ e, Proceeds e → ¬Enabled (secondFails.foldl next w) e) →
        (secondFails.foldl next w).inFlight = ∅ ∧
          (secondFails.foldl next w).available = max 1 1 ∧
          ∀ task ∈ (secondFails.foldl next w).tasks, task = .ended) :=
  drains (show Reachable (scheduler 1) Any _ from .execute (.init rfl) (by decide +kernel))
    (by decide +kernel)

end FetchGuard
