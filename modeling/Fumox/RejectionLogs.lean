import Mathlib
import Fumox.JsonValue

/-!
The registries that decide which rejections are logged as warnings: hosts that the host gate turns
away, and clients that fail a secret check.
-/

namespace RejectionLogs

open RustText JsonValue

/-- What the two registries differ in, and their bounds; times are in nanoseconds. -/
structure Registry where
  warnWindow : ℕ
  maxTracked : ℕ
  maxWarns : ℕ
  tracks : 0 < maxTracked
  /-- What was rejected. -/
  subject : Text
  /-- What one key is. -/
  noun : Text

def hour : ℕ := 3600 * 10 ^ 9

def hostRejectLog : Registry := ⟨hour, 1024, 64, by decide, "host-gate rejections", "host"⟩

def authFailLog : Registry := ⟨hour, 1024, 64, by decide, "public auth failures", "client"⟩

inductive RejectionLog where
  | hostReject | authFail
  deriving DecidableEq, Repr

def RejectionLog.registry : RejectionLog → Registry
  | .hostReject => hostRejectLog
  | .authFail => authFailLog

structure WarnLog where
  seen : List (Text × ℕ) := []
  windowStart : Option ℕ := none
  warnsEmitted : ℕ := 0
  suppressed : Option Text := none
  suppressedTotal : ℕ := 0
  deriving DecidableEq, Repr

section Steps

variable (r : Registry)

def summaryText (total : ℕ) (first : Text) : Text :=
  r.subject ++ ": " ++ decimal total ++ " dropped to debug this window, first suppressed " ++
    r.noun ++ " " ++ first

def elapsed (log : WarnLog) (now : ℕ) : Bool :=
  log.windowStart.any fun start => decide (r.warnWindow ≤ now - start)

def rollWindow (log : WarnLog) (now : ℕ) : WarnLog × Option Text :=
  match log.windowStart with
  | none => ({ log with windowStart := some now }, none)
  | some start =>
    if now - start < r.warnWindow then (log, none)
    else
      ({ log with
          suppressed := none, suppressedTotal := 0, warnsEmitted := 0, windowStart := some now },
        log.suppressed.map (summaryText r log.suppressedTotal))

/-- A full map loses its oldest entry, the first of them in the order of the map. -/
def makeRoom (order : List (Text × ℕ) → List (Text × ℕ)) (seen : List (Text × ℕ)) :
    List (Text × ℕ) :=
  if r.maxTracked ≤ seen.length then
    match (order seen).argmin Prod.snd with
    | some oldest => seen.filter fun f => f.1 ≠ oldest.1
    | none => seen
  else seen

/-- The verdict on a key in an open window, and the log after it. -/
def judge (order : List (Text × ℕ) → List (Text × ℕ)) (log : WarnLog) (key : Text) (now : ℕ) :
    Bool × WarnLog :=
  match log.seen.lookup key with
  | some first =>
    if now - first < r.warnWindow then (false, log)
    else (true, { log with seen := JsonValue.insert log.seen key now })
  | none =>
    let seen := JsonValue.insert (makeRoom r order log.seen) key now
    if r.maxWarns ≤ log.warnsEmitted then
      (false,
        { log with
          seen := seen
          suppressed := some (log.suppressed.getD key)
          suppressedTotal := log.suppressedTotal + 1 })
    else (true, { log with seen := seen, warnsEmitted := log.warnsEmitted + 1 })

def shouldWarn (order : List (Text × ℕ) → List (Text × ℕ)) (log : WarnLog) (key : Text) (now : ℕ) :
    (Bool × Option Text) × WarnLog :=
  let rolled := rollWindow r log now
  let judged := judge r order rolled.1 key now
  ((judged.1, rolled.2), judged.2)

end Steps

structure Call where
  key : Text
  now : ℕ
  order : List (Text × ℕ) → List (Text × ℕ) := id
  complete : ∀ seen, (order seen).Perm seen := by exact fun _ => .refl _

/-- What the log knows of a key when it is rejected. -/
inductive Known where
  | new | recent | stale
  deriving DecidableEq, Repr

structure Outcome where
  key : Text
  now : ℕ
  known : Known
  warned : Bool
  summary : Option Text
  deriving DecidableEq, Repr

/-- A window that a call has closed: its calls, and the time and the summary of that call. -/
structure Window where
  calls : List Outcome
  closedAt : ℕ
  summary : Option Text
  deriving DecidableEq, Repr

structure History where
  log : WarnLog := {}
  closed : List Window := []
  current : List Outcome := []
  deriving DecidableEq, Repr

section Runs

variable (r : Registry)

def known (log : WarnLog) (key : Text) (now : ℕ) : Known :=
  match log.seen.lookup key with
  | none => .new
  | some first => if now - first < r.warnWindow then .recent else .stale

def outcome (log : WarnLog) (c : Call) : Outcome :=
  let answer := (shouldWarn r c.order log c.key c.now).1
  ⟨c.key, c.now, known r log c.key c.now, answer.1, answer.2⟩

def step (h : History) (c : Call) : History :=
  let o := outcome r h.log c
  let log := (shouldWarn r c.order h.log c.key c.now).2
  if elapsed r h.log c.now then ⟨log, h.closed ++ [⟨h.current, c.now, o.summary⟩], [o]⟩
  else ⟨log, h.closed, h.current ++ [o]⟩

def replay (calls : List Call) : History := calls.foldl (step r) {}

end Runs

section Windows

variable (r : Registry)

def warnings (w : List Outcome) : ℕ := w.countP (·.warned)

/-- The calls for a key that the log did not track. -/
def newKeys (w : List Outcome) : ℕ := w.countP fun o => o.known = .new

def staleKeys (w : List Outcome) : ℕ := w.countP fun o => o.known = .stale

def denied (w : List Outcome) : List Outcome := w.filter fun o => o.known = .new && !o.warned

/-- The summary that a window leaves: its first denied key and their number. -/
def expectedSummary (w : List Outcome) : Option Text :=
  (denied w).head?.map fun first => summaryText r (denied w).length first.key

/-- Warnings again for keys of earlier windows leave room for those of new keys. -/
def WithinBudget (w : List Outcome) : Prop :=
  staleKeys w + min (newKeys w) r.maxWarns ≤ r.maxWarns

def windows (h : History) : List (List Outcome) := h.closed.map (·.calls) ++ [h.current]

/-- The law of a registry over a run: the map is bounded, no window spends more than its warnings,
and a window that denied a new key is named once, by the first call after it. -/
structure KeepsBudget (calls : List Call) : Prop where
  tracked : (replay r calls).log.seen.length ≤ r.maxTracked
  budget : ∀ w ∈ windows (replay r calls), warnings w ≤ r.maxWarns
  summaries : ∀ w ∈ (replay r calls).closed, w.summary = expectedSummary r w.calls
  timely : ∀ w ∈ (replay r calls).closed, ∀ first ∈ w.calls.head?,
    r.warnWindow ≤ w.closedAt - first.now ∧
      ∀ o ∈ w.calls.tail, o.now - first.now < r.warnWindow
  once : (windows (replay r calls)).flatten.filterMap (·.summary) =
    (replay r calls).closed.filterMap (·.summary)
  whole : (windows (replay r calls)).flatten.map (fun o => (o.key, o.now)) =
    calls.map fun c => (c.key, c.now)

end Windows

section OneCall

variable {r : Registry} {log : WarnLog} {order : List (Text × ℕ) → List (Text × ℕ)} {key : Text}
  {now : ℕ}

theorem rollWindow_elapsed (h : elapsed r log now = true) :
    rollWindow r log now =
      (⟨log.seen, some now, 0, none, 0⟩, log.suppressed.map (summaryText r log.suppressedTotal)) := by
  unfold elapsed at h
  unfold rollWindow
  cases hstart : log.windowStart with
  | none => simp [hstart] at h
  | some start =>
    have hlate : r.warnWindow ≤ now - start := by simpa [hstart] using h
    dsimp only
    rw [if_neg (Nat.not_lt.mpr hlate)]

theorem rollWindow_open (h : elapsed r log now = false) :
    rollWindow r log now = ({ log with windowStart := some (log.windowStart.getD now) }, none) := by
  unfold elapsed at h
  unfold rollWindow
  cases hstart : log.windowStart with
  | none => rfl
  | some start =>
    have hearly : now - start < r.warnWindow := by simpa [hstart] using h
    dsimp only
    rw [if_pos hearly, Option.getD_some, ← hstart]

theorem seen_rollWindow (log : WarnLog) (now : ℕ) : (rollWindow r log now).1.seen = log.seen := by
  cases h : elapsed r log now with
  | false => rw [rollWindow_open h]
  | true => rw [rollWindow_elapsed h]

theorem length_insert_old {m : List (Text × ℕ)} (h : key ∈ m.map Prod.fst) :
    (JsonValue.insert m key now).length = m.length := by
  rw [JsonValue.insert, if_pos h, List.length_map]

theorem length_insert_le (m : List (Text × ℕ)) :
    (JsonValue.insert m key now).length ≤ m.length + 1 := by
  unfold JsonValue.insert
  split_ifs
  · rw [List.length_map]
    omega
  · rw [List.length_append, List.length_singleton]

theorem length_makeRoom (horder : ∀ seen, (order seen).Perm seen) {seen : List (Text × ℕ)}
    (h : seen.length ≤ r.maxTracked) : (makeRoom r order seen).length + 1 ≤ r.maxTracked := by
  have htracks := r.tracks
  unfold makeRoom
  split_ifs with hfull
  · have hlength := (horder seen).length_eq
    cases holdest : (order seen).argmin Prod.snd with
    | none =>
      have hempty := List.argmin_eq_none.mp holdest
      rw [hempty, List.length_nil] at hlength
      omega
    | some oldest =>
      have hmem : oldest ∈ seen := (horder seen).mem_iff.mp (List.argmin_mem holdest)
      have hfewer : (seen.filter fun f => f.1 ≠ oldest.1).length < seen.length := by
        refine List.length_filter_lt_length_iff_exists.mpr ⟨oldest, hmem, ?_⟩
        simp
      dsimp only
      omega
  · omega

theorem length_judge (horder : ∀ seen, (order seen).Perm seen)
    (h : log.seen.length ≤ r.maxTracked) :
    (judge r order log key now).2.seen.length ≤ r.maxTracked := by
  have hroom := length_makeRoom horder h
  have hinsert := @length_insert_le key now (makeRoom r order log.seen)
  unfold judge
  cases hlookup : log.seen.lookup key with
  | some first =>
    have hkey : key ∈ log.seen.map Prod.fst := by
      obtain ⟨l, l', hseen, -⟩ := List.lookup_eq_some_iff.mp hlookup
      simp [hseen]
    dsimp only
    split_ifs
    · exact h
    · rw [length_insert_old hkey]
      exact h
  | none =>
    dsimp only
    split_ifs
    · exact hinsert.trans hroom
    · exact hinsert.trans hroom

theorem judge_cases (r : Registry) (order : List (Text × ℕ) → List (Text × ℕ)) (log : WarnLog)
    (key : Text) (now : ℕ) :
    (judge r order log key now).2.windowStart = log.windowStart ∧
      (known r log key now = .new ∧ log.warnsEmitted < r.maxWarns ∧
          (judge r order log key now).1 = true ∧
          (judge r order log key now).2.warnsEmitted = log.warnsEmitted + 1 ∧
          (judge r order log key now).2.suppressed = log.suppressed ∧
          (judge r order log key now).2.suppressedTotal = log.suppressedTotal ∨
        known r log key now = .new ∧ r.maxWarns ≤ log.warnsEmitted ∧
          (judge r order log key now).1 = false ∧
          (judge r order log key now).2.warnsEmitted = log.warnsEmitted ∧
          (judge r order log key now).2.suppressed = some (log.suppressed.getD key) ∧
          (judge r order log key now).2.suppressedTotal = log.suppressedTotal + 1 ∨
        known r log key now ≠ .new ∧
          (judge r order log key now).1 = decide (known r log key now = .stale) ∧
          (judge r order log key now).2.warnsEmitted = log.warnsEmitted ∧
          (judge r order log key now).2.suppressed = log.suppressed ∧
          (judge r order log key now).2.suppressedTotal = log.suppressedTotal) := by
  unfold judge known
  cases hlookup : log.seen.lookup key with
  | some first =>
    dsimp only
    split_ifs with hrecent
    · exact ⟨rfl, .inr (.inr ⟨by decide, rfl, rfl, rfl, rfl⟩)⟩
    · exact ⟨rfl, .inr (.inr ⟨by decide, rfl, rfl, rfl, rfl⟩)⟩
  | none =>
    dsimp only
    split_ifs with hspent
    · exact ⟨rfl, .inr (.inl ⟨rfl, hspent, rfl, rfl, rfl, rfl⟩)⟩
    · exact ⟨rfl, .inl ⟨rfl, by omega, rfl, rfl, rfl, rfl⟩⟩

end OneCall

section Counters

variable {r : Registry} {log : WarnLog} {w : List Outcome}

structure Counts (r : Registry) (log : WarnLog) (w : List Outcome) : Prop where
  emitted : log.warnsEmitted = min (newKeys w) r.maxWarns
  warned : warnings w = staleKeys w + log.warnsEmitted
  suppressed : log.suppressed = (denied w).head?.map (·.key)
  total : log.suppressedTotal = (denied w).length

theorem counts_nil (seen : List (Text × ℕ)) (start : Option ℕ) :
    Counts r ⟨seen, start, 0, none, 0⟩ [] where
  emitted := (Nat.zero_min _).symm
  warned := rfl
  suppressed := rfl
  total := rfl

theorem denied_append (o : Outcome) : denied (w ++ [o]) =
    denied w ++ if o.known = .new ∧ o.warned = false then [o] else [] := by
  unfold denied
  rw [List.filter_append]
  congr 1
  by_cases hnew : o.known = .new <;> cases hwarned : o.warned <;> simp [hnew, hwarned]

theorem counts_judge (h : Counts r log w) {order : List (Text × ℕ) → List (Text × ℕ)} {key : Text}
    {now : ℕ} {o : Outcome} (hkey : o.key = key) (hknown : o.known = known r log key now)
    (hwarned : o.warned = (judge r order log key now).1) :
    Counts r (judge r order log key now).2 (w ++ [o]) := by
  obtain ⟨hemitted, hcount, hsuppressed, htotal⟩ := h
  obtain ⟨-, hcases⟩ := judge_cases r order log key now
  rw [← hwarned, ← hknown] at hcases
  have hdenied := denied_append (w := w) o
  have hnew : newKeys (w ++ [o]) = newKeys w + if o.known = .new then 1 else 0 := by
    simp [newKeys, List.countP_append, List.countP_cons]
  have hstale : staleKeys (w ++ [o]) = staleKeys w + if o.known = .stale then 1 else 0 := by
    simp [staleKeys, List.countP_append, List.countP_cons]
  have hwarnings : warnings (w ++ [o]) = warnings w + if o.warned then 1 else 0 := by
    simp [warnings, List.countP_append, List.countP_cons]
  rcases hcases with ⟨hk, hleft, hw, he, hs, ht⟩ | ⟨hk, hspent, hw, he, hs, ht⟩ |
    ⟨hk, hw, he, hs, ht⟩
  · rw [if_neg (by simp [hw]), List.append_nil] at hdenied
    rw [if_pos hk] at hnew
    rw [if_neg (by simp [hk]), Nat.add_zero] at hstale
    rw [if_pos hw] at hwarnings
    constructor
    · omega
    · omega
    · rw [hs, hdenied, hsuppressed]
    · rw [ht, hdenied, htotal]
  · rw [if_pos ⟨hk, hw⟩] at hdenied
    rw [if_pos hk] at hnew
    rw [if_neg (by simp [hk]), Nat.add_zero] at hstale
    rw [if_neg (by simp [hw]), Nat.add_zero] at hwarnings
    constructor
    · omega
    · omega
    · rw [hs, hdenied, hsuppressed]
      cases hfirst : denied w with
      | nil => simp [hkey]
      | cons first rest => simp
    · rw [ht, hdenied, htotal, List.length_append, List.length_singleton]
  · rw [if_neg fun hboth => hk hboth.1, List.append_nil] at hdenied
    rw [if_neg hk, Nat.add_zero] at hnew
    constructor
    · omega
    · rw [he, hwarnings, hstale, hcount, hw]
      by_cases hstaleKey : o.known = .stale <;> simp [hstaleKey]
      omega
    · rw [hs, hdenied, hsuppressed]
    · rw [ht, hdenied, htotal]

theorem Counts.warnings_le_iff (h : Counts r log w) :
    warnings w ≤ r.maxWarns ↔ WithinBudget r w := by
  unfold WithinBudget
  rw [h.warned, h.emitted]

theorem Counts.summary (h : Counts r log w) :
    log.suppressed.map (summaryText r log.suppressedTotal) = expectedSummary r w := by
  unfold expectedSummary
  rw [h.suppressed, h.total, Option.map_map]
  rfl

end Counters

section WholeRuns

variable (r : Registry)

/-- What holds of the log and of its windows after any run. -/
structure Sound (h : History) : Prop where
  tracked : h.log.seen.length ≤ r.maxTracked
  start : h.log.windowStart = h.current.head?.map (·.now)
  counts : Counts r h.log h.current
  inside : ∀ first ∈ h.current.head?, ∀ o ∈ h.current.tail, o.now - first.now < r.warnWindow
  budget : ∀ w ∈ h.closed, (warnings w.calls ≤ r.maxWarns ↔ WithinBudget r w.calls)
  summaries : ∀ w ∈ h.closed, w.summary = expectedSummary r w.calls
  timely : ∀ w ∈ h.closed, ∀ first ∈ w.calls.head?,
    r.warnWindow ≤ w.closedAt - first.now ∧
      ∀ o ∈ w.calls.tail, o.now - first.now < r.warnWindow
  once : (windows h).flatten.filterMap (·.summary) = h.closed.filterMap (·.summary)

theorem sound_initial : Sound r {} where
  tracked := Nat.zero_le _
  start := rfl
  counts := counts_nil [] none
  inside := by simp
  budget := by simp
  summaries := by simp
  timely := by simp
  once := rfl

variable {r}

theorem known_rollWindow (log : WarnLog) (key : Text) (now : ℕ) :
    known r (rollWindow r log now).1 key now = known r log key now := by
  unfold known
  rw [seen_rollWindow]

theorem step_open {h : History} {c : Call} (hopen : elapsed r h.log c.now = false) :
    step r h c = ⟨(judge r c.order (rollWindow r h.log c.now).1 c.key c.now).2, h.closed,
        h.current ++ [outcome r h.log c]⟩ ∧
      (outcome r h.log c).summary = none := by
  unfold step outcome shouldWarn
  rw [hopen, rollWindow_open hopen]
  exact ⟨rfl, rfl⟩

theorem step_elapsed {h : History} {c : Call} (hlate : elapsed r h.log c.now = true) :
    step r h c = ⟨(judge r c.order (rollWindow r h.log c.now).1 c.key c.now).2,
        h.closed ++ [⟨h.current, c.now, (outcome r h.log c).summary⟩], [outcome r h.log c]⟩ ∧
      (outcome r h.log c).summary = h.log.suppressed.map (summaryText r h.log.suppressedTotal) := by
  unfold step outcome shouldWarn
  rw [hlate, rollWindow_elapsed hlate]
  exact ⟨rfl, rfl⟩

theorem judged_kept {log : WarnLog} {c : Call} {w : List Outcome}
    (htracked : log.seen.length ≤ r.maxTracked) (hcounts : Counts r (rollWindow r log c.now).1 w) :
    (judge r c.order (rollWindow r log c.now).1 c.key c.now).2.seen.length ≤ r.maxTracked ∧
      (judge r c.order (rollWindow r log c.now).1 c.key c.now).2.windowStart =
        (rollWindow r log c.now).1.windowStart ∧
      Counts r (judge r c.order (rollWindow r log c.now).1 c.key c.now).2
        (w ++ [outcome r log c]) := by
  refine ⟨length_judge c.complete ?_, (judge_cases ..).1, counts_judge hcounts rfl ?_ rfl⟩
  · rw [seen_rollWindow]
    exact htracked
  · exact (known_rollWindow log c.key c.now).symm

theorem sound_open {h : History} {c : Call} (hsound : Sound r h)
    (hopen : elapsed r h.log c.now = false) : Sound r (step r h c) := by
  obtain ⟨hstep, hquiet⟩ := step_open hopen
  have hrolled := rollWindow_open hopen
  have hcounts : Counts r (rollWindow r h.log c.now).1 h.current := by
    rw [hrolled]
    exact ⟨hsound.counts.emitted, hsound.counts.warned, hsound.counts.suppressed,
      hsound.counts.total⟩
  obtain ⟨htracked, hstart, hcounted⟩ := judged_kept hsound.tracked hcounts
  have hopened : (rollWindow r h.log c.now).1.windowStart =
      some ((h.current.head?.map (·.now)).getD c.now) := by
    rw [hrolled, hsound.start]
  rw [hstep]
  refine ⟨htracked, ?_, hcounted, ?_, hsound.budget, hsound.summaries, hsound.timely, ?_⟩
  · refine hstart.trans (hopened.trans ?_)
    cases h.current <;> rfl
  · intro first hfirst o ho
    cases hcurrent : h.current with
    | nil => simp [hcurrent] at ho
    | cons opening rest =>
      have hinside := hsound.inside opening (by simp [hcurrent])
      have hbefore : c.now - opening.now < r.warnWindow := by
        simpa [elapsed, hsound.start, hcurrent] using hopen
      rw [hcurrent] at hfirst ho hinside
      obtain rfl : opening = first := by simpa using hfirst
      rcases List.mem_append.mp ho with ho | ho
      · exact hinside o ho
      · rw [List.mem_singleton.mp ho]
        exact hbefore
  · have honce := hsound.once
    unfold windows at honce ⊢
    rw [List.flatten_append, List.filterMap_append, List.flatten_singleton] at honce ⊢
    rw [List.filterMap_append, ← List.append_assoc, honce]
    simp [hquiet]

theorem sound_elapsed {h : History} {c : Call} (hsound : Sound r h)
    (hlate : elapsed r h.log c.now = true) : Sound r (step r h c) := by
  obtain ⟨hstep, hreport⟩ := step_elapsed hlate
  have hrolled := rollWindow_elapsed hlate
  have hcounts : Counts r (rollWindow r h.log c.now).1 [] := by
    rw [hrolled]
    exact counts_nil _ _
  obtain ⟨htracked, hstart, hcounted⟩ := judged_kept hsound.tracked hcounts
  rw [hrolled] at hstart
  rw [hsound.counts.summary] at hreport
  rw [hstep]
  refine ⟨htracked, ?_, hcounted, ?_, ?_, ?_, ?_, ?_⟩
  · rw [hrolled]
    exact hstart
  · intro first _ o ho
    exact absurd ho (List.not_mem_nil)
  · intro w hw
    rcases List.mem_append.mp hw with hw | hw
    · exact hsound.budget w hw
    · rw [List.mem_singleton.mp hw]
      exact hsound.counts.warnings_le_iff
  · intro w hw
    rcases List.mem_append.mp hw with hw | hw
    · exact hsound.summaries w hw
    · rw [List.mem_singleton.mp hw]
      exact hreport
  · intro w hw
    rcases List.mem_append.mp hw with hw | hw
    · exact hsound.timely w hw
    · rw [List.mem_singleton.mp hw]
      intro first hfirst
      refine ⟨?_, hsound.inside first hfirst⟩
      have hopened := Option.mem_def.mp hfirst
      simpa [elapsed, hsound.start, hopened] using hlate
  · have honce := hsound.once
    unfold windows at honce ⊢
    rw [List.map_append, List.flatten_append, List.filterMap_append, List.filterMap_append,
      ← List.map_singleton, ← honce]
    cases hsummary : (outcome r h.log c).summary <;> simp [hsummary]

theorem sound_step {h : History} (c : Call) (hsound : Sound r h) : Sound r (step r h c) := by
  cases helapsed : elapsed r h.log c.now with
  | false => exact sound_open hsound helapsed
  | true => exact sound_elapsed hsound helapsed

theorem replay_append (calls : List Call) (c : Call) :
    replay r (calls ++ [c]) = step r (replay r calls) c := by
  unfold replay
  rw [List.foldl_append, List.foldl_cons, List.foldl_nil]

theorem sound_replay (calls : List Call) : Sound r (replay r calls) := by
  induction calls using List.reverseRecOn with
  | nil => exact sound_initial r
  | append_singleton calls c ih =>
    rw [replay_append]
    exact sound_step c ih

theorem windows_replay (calls : List Call) :
    (windows (replay r calls)).flatten.map (fun o => (o.key, o.now)) =
      calls.map fun c => (c.key, c.now) := by
  induction calls using List.reverseRecOn with
  | nil => rfl
  | append_singleton calls c ih =>
    rw [replay_append, List.map_append, ← ih]
    cases helapsed : elapsed r (replay r calls).log c.now with
    | false =>
      rw [(step_open helapsed).1]
      simp [windows, outcome]
    | true =>
      rw [(step_elapsed helapsed).1]
      simp [windows, outcome]

end WholeRuns

/-- A registry keeps its budget in exactly the runs in which, in each window, the keys tracked for
a whole window leave room for the new ones. -/
theorem keeps_budget_iff (which : RejectionLog) (calls : List Call) :
    KeepsBudget which.registry calls ↔
      ∀ w ∈ windows (replay which.registry calls), WithinBudget which.registry w := by
  have hsound := sound_replay (r := which.registry) calls
  have hbudget : ∀ w ∈ windows (replay which.registry calls),
      (warnings w ≤ which.registry.maxWarns ↔ WithinBudget which.registry w) := by
    intro w hw
    rcases List.mem_append.mp hw with hw | hw
    · obtain ⟨closed, hclosed, rfl⟩ := List.mem_map.mp hw
      exact hsound.budget closed hclosed
    · rw [List.mem_singleton.mp hw]
      exact hsound.counts.warnings_le_iff
  constructor
  · intro hkeeps w hw
    exact (hbudget w hw).mp (hkeeps.budget w hw)
  · intro hwithin
    exact {
      tracked := hsound.tracked
      budget := fun w hw => (hbudget w hw).mpr (hwithin w hw)
      summaries := hsound.summaries
      timely := hsound.timely
      once := hsound.once
      whole := windows_replay calls }

/-- A scan of as many hosts as one window may name, and one more, comes again an hour later. -/
def scanTwice : List Call :=
  let scan (now : ℕ) := (List.range 65).map fun n => (⟨decimal n, now, id, fun _ => .refl _⟩ : Call)
  scan 0 ++ scan hour

theorem scan_again_overspends : ¬ KeepsBudget RejectionLog.hostReject.registry scanTwice := by
  intro hkeeps
  have hover : ∃ w ∈ windows (replay RejectionLog.hostReject.registry scanTwice),
      RejectionLog.hostReject.registry.maxWarns < warnings w := by
    decide +kernel
  obtain ⟨w, hw, hspent⟩ := hover
  exact absurd (hkeeps.budget w hw) (Nat.not_le.mpr hspent)

end RejectionLogs
