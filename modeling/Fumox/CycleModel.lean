import Fumox.MachineInt
import Fumox.RustText

/-!
The model of one probe cycle behind the backlog banner: what the cycle retires and how long it
takes, the heuristics of the banner, and its tuning recommendations.  Arithmetic is that of the
source's widths, with the wrap of a release build.
-/

namespace CycleModel

open RustText MachineInt

/-- `[probe]`, as far as the cycle and the schedules of failed checks read it. -/
structure ProbeSettings where
  cycleIntervalSecs : ℕ := 60
  sampleSize : ℕ := 50
  connectTimeoutSecs : ℕ := 10
  tlsTimeoutSecs : ℕ := 10
  concurrency : ℕ := 8
  heartbeatIntervalSecs : ℕ := 30
  secondChanceMinHours : ℕ := 12
  secondChanceSpreadHours : ℕ := 4
  recheckDelaysSecs : List ℤ := [15 * 60, 30 * 60, 60 * 60]
  queueStaleDays : ℕ := 7
  backlogTargetDrainMinutes : ℕ := 60
  deriving DecidableEq, Repr

def i128 (z : ℤ) : ℤ := signed 128 z

def mulI128 (a b : ℤ) : ℤ := saturateSigned (2 ^ 127) (a * b)

def ceilDiv (numerator denominator : ℤ) : ℤ :=
  (i128 (i128 (numerator + denominator) - 1)).tdiv denominator

theorem ceilDiv_eq_ediv {n d : ℤ} (hn : 0 ≤ n) (hd : 0 < d) (h : n + d < 2 ^ 127) :
    ceilDiv n d = (n + d - 1) / d := by
  have hsum : i128 (n + d) = n + d := signed_eq_self ⟨by omega, by omega⟩
  have hless : i128 (n + d - 1) = n + d - 1 := signed_eq_self ⟨by omega, by omega⟩
  rw [ceilDiv, hsum, hless, Int.tdiv_eq_ediv_of_nonneg (by omega)]

structure Model where
  quarantineCount : ℤ
  dueCount : ℤ
  sampleSize : ℕ
  concurrency : ℕ
  cycleIntervalSecs : ℕ
  checkSecs : ℕ
  retirePerCycle : ℤ
  laneSecs : ℕ
  periodSecs : ℕ
  cyclesToDrain : Option ℤ
  drainMinutes : Option ℕ
  deriving DecidableEq, Repr

def modelInputs (cfg : ProbeSettings) : ℕ × ℕ :=
  (max cfg.cycleIntervalSecs 1,
    max (saturateUnsigned 64 (cfg.connectTimeoutSecs + cfg.tlsTimeoutSecs)) 1)

def minutesOf (cycles : ℤ) (periodSecs : ℕ) : ℕ :=
  unsigned 64 (ceilDiv (mulI128 cycles periodSecs) 60)

def deriveCycleModel (inputs : ℕ × ℕ) (quarantineCount dueCount : ℤ)
    (sampleSize concurrency : ℕ) : Model :=
  let concurrency := max concurrency 1
  let retirePerCycle := min (sampleSize : ℤ) (max dueCount 0)
  let laneSecs :=
    if retirePerCycle = 0 then 0
    else unsigned 64 (unsigned 64 (ceilDiv retirePerCycle concurrency) * inputs.2)
  let periodSecs := max inputs.1 laneSecs
  let cyclesToDrain :=
    if 0 < retirePerCycle then some (signed 64 (ceilDiv quarantineCount retirePerCycle)) else none
  { quarantineCount, dueCount, sampleSize, concurrency, retirePerCycle, laneSecs, periodSecs,
    cyclesToDrain
    cycleIntervalSecs := inputs.1
    checkSecs := inputs.2
    drainMinutes := cyclesToDrain.map fun cycles => minutesOf cycles periodSecs }

/-- `CycleModel::new` -/
def Model.ofSettings (cfg : ProbeSettings) (quarantineCount dueCount : ℤ) : Model :=
  deriveCycleModel (modelInputs cfg) quarantineCount dueCount cfg.sampleSize cfg.concurrency

def Model.withSample (m : Model) (sampleSize : ℕ) : Model :=
  deriveCycleModel (m.cycleIntervalSecs, m.checkSecs) m.quarantineCount m.dueCount sampleSize
    m.concurrency

def Model.withConcurrency (m : Model) (concurrency : ℕ) : Model :=
  deriveCycleModel (m.cycleIntervalSecs, m.checkSecs) m.quarantineCount m.dueCount m.sampleSize
    concurrency

structure TuningRec where
  key : Text
  args : List (Text × Text)
  deriving DecidableEq, Repr

def minRecommendedCycleSecs : ℕ := 5

def targetMinutes (cfg : ProbeSettings) : ℕ := max cfg.backlogTargetDrainMinutes 1

def targetSeconds (cfg : ProbeSettings) : ℤ := mulI128 (targetMinutes cfg) 60

/-- The order of optional figures: no figure is below every figure. -/
def below : Option ℕ → ℕ → Bool
  | none, _ => true
  | some d, bound => decide (d < bound)

/-- The sample that the target needs, capped by the rows that are due and by 500. -/
def requiredSample (cfg : ProbeSettings) (m : Model) : ℕ :=
  let required :=
    min (ceilDiv (mulI128 m.quarantineCount m.periodSecs) (targetSeconds cfg)) m.dueCount
  unsigned 32 (max 1 (min required 500))

def raisedSample (cfg : ProbeSettings) (m : Model) (drainNow : ℕ) : Option ℕ :=
  if (m.sampleSize : ℤ) < m.dueCount then
    let required := requiredSample cfg m
    if m.sampleSize * 6 < required * 5 ∧ below (m.withSample required).drainMinutes drainNow then
      some required
    else none
  else none

def candidates (m : Model) : List ℕ :=
  let start := saturateUnsigned 64 (m.concurrency + 1)
  List.range' start (65 - start)

/-- (2) Parallelism, when the lane is longer than the interval. -/
def fittingConcurrency (planned : Model) : Option ℕ :=
  if planned.cycleIntervalSecs < planned.laneSecs then
    (candidates planned).find? fun c =>
      (planned.withConcurrency c).laneSecs ≤ planned.cycleIntervalSecs
  else none

/-- (3) Period, when the shorter one still fits the lane. -/
def shorterPeriod (cfg : ProbeSettings) (planned : Model) : Option ℕ :=
  planned.cyclesToDrain.bind fun cycles =>
    if 0 < cycles then
      let required := unsigned 64 (ceilDiv (targetSeconds cfg) cycles)
      if planned.laneSecs ≤ required ∧ minRecommendedCycleSecs ≤ required ∧
          required < saturateUnsigned 64 (planned.cycleIntervalSecs * 8) / 10 then
        some required
      else none
    else none

def sampleRec (m : Model) (target : ℕ) : TuningRec :=
  ⟨"sample_size", [("target", decimal target), ("current", decimal m.sampleSize)]⟩

def concurrencyRec (planned : Model) (target : ℕ) : TuningRec :=
  ⟨"concurrency",
    [("target", decimal target),
     ("current", decimal planned.concurrency),
     ("sample", decimal planned.sampleSize),
     ("interval_secs", decimal planned.cycleIntervalSecs),
     ("lane_secs", decimal (planned.withConcurrency target).laneSecs)]⟩

def periodRec (planned : Model) (target : ℕ) : TuningRec :=
  ⟨"cycle_interval_secs",
    [("target", decimal target), ("current", decimal planned.cycleIntervalSecs)]⟩

def plannedModel (cfg : ProbeSettings) (m : Model) (drainNow : ℕ) : Model :=
  (raisedSample cfg m drainNow).elim m m.withSample

def computeRecs (cfg : ProbeSettings) (m : Model) : List TuningRec :=
  match m.drainMinutes with
  | none => []
  | some drainNow =>
    if drainNow ≤ targetMinutes cfg then []
    else
      let planned := plannedModel cfg m drainNow
      ((raisedSample cfg m drainNow).map (sampleRec m)).toList ++
        ((fittingConcurrency planned).map (concurrencyRec planned)).toList ++
        ((shorterPeriod cfg planned).map (periodRec planned)).toList

inductive BacklogLevel where
  | ok | warning | danger
  deriving DecidableEq, Repr

def BacklogLevel.escalate : BacklogLevel → BacklogLevel → BacklogLevel
  | .danger, _ | _, .danger => .danger
  | .warning, _ | _, .warning => .warning
  | _, _ => .ok

structure BacklogDiagnostic where
  level : BacklogLevel
  factors : List Text
  recs : List TuningRec
  targetDrainMinutes : ℕ
  quarantineCount : ℤ
  dueCount : ℤ
  dueCapacity : ℕ
  oldestQuarantinedAgeSecs : Option ℤ
  drainMinutes : Option ℕ
  staleDays : ℕ
  deriving DecidableEq, Repr

def heartbeatStaleAfter (cfg : ProbeSettings) (reportedSecs : Option ℕ) : ℤ :=
  let secs := max (reportedSecs.getD cfg.heartbeatIntervalSecs) 5
  saturateSigned (2 ^ 63) (signed 64 secs * 3)

def staleAfter (staleDays : ℕ) : ℕ :=
  saturateUnsigned 64 (saturateUnsigned 64 (staleDays * 86400) * 4) / 5

/-- The triggers that need no model, each with the level that it asks for. -/
def hardFactors (cfg : ProbeSettings) (quarantineCount dueCount : ℤ)
    (oldestAge heartbeatAge : Option ℤ) (reportedSecs : Option ℕ) : List (Text × BacklogLevel) :=
  let sampleSize : ℤ := cfg.sampleSize
  (if 0 < sampleSize ∧ sampleSize * 20 < quarantineCount then
      [(("deep_queue" : Text), BacklogLevel.warning)] else []) ++
    (if 0 < sampleSize ∧ sampleSize * 5 < dueCount then
      [(("due_overflow" : Text), BacklogLevel.warning)] else []) ++
    (if oldestAge.any fun age => staleAfter (max cfg.queueStaleDays 1) < (max age 0).toNat then
      [(("stale_oldest" : Text), BacklogLevel.danger)] else []) ++
    (if heartbeatAge.any fun age => heartbeatStaleAfter cfg reportedSecs < age then
      [(("heartbeat_dead" : Text), BacklogLevel.danger)] else [])

def stateFactor (m : Model) (overTarget : Bool) (hard : List (Text × BacklogLevel)) :
    List Text × BacklogLevel :=
  let level := hard.foldl (fun level factor => level.escalate factor.2) .warning
  if m.retirePerCycle = 0 then
    (["all_idle"], if hard = [] then .ok else level)
  else if hard = [] then
    if overTarget then (["drain_over_target"], level) else (["all_ok"], .ok)
  else ([], level)

def computeBacklog (cfg : ProbeSettings) (quarantineCount dueCount : ℤ)
    (oldestAge heartbeatAge : Option ℤ) (reportedSecs : Option ℕ) : BacklogDiagnostic :=
  let m := Model.ofSettings cfg quarantineCount dueCount
  let hard := hardFactors cfg quarantineCount dueCount oldestAge heartbeatAge reportedSecs
  let overTarget := m.drainMinutes.any fun d => targetMinutes cfg < d
  let state := stateFactor m overTarget hard
  { level := state.2
    factors := hard.map Prod.fst ++ state.1
    recs := if overTarget then computeRecs cfg m else []
    targetDrainMinutes := targetMinutes cfg
    quarantineCount, dueCount
    dueCapacity := cfg.sampleSize
    oldestQuarantinedAgeSecs := oldestAge
    drainMinutes := m.drainMinutes
    staleDays := max cfg.queueStaleDays 1 }

theorem computeBacklog_recs (cfg : ProbeSettings) (quarantineCount dueCount : ℤ)
    (oldestAge heartbeatAge : Option ℤ) (reportedSecs : Option ℕ) :
    (computeBacklog cfg quarantineCount dueCount oldestAge heartbeatAge reportedSecs).recs =
      computeRecs cfg (Model.ofSettings cfg quarantineCount dueCount) := by
  unfold computeBacklog computeRecs
  cases hdrain : (Model.ofSettings cfg quarantineCount dueCount).drainMinutes with
  | none => simp [hdrain]
  | some drainNow =>
    by_cases hover : drainNow ≤ targetMinutes cfg
    · simp [hdrain, hover]
    · simp [hdrain, hover, Nat.lt_of_not_le hover]

end CycleModel
