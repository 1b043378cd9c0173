import Mathlib
import Fumox.ConfigLoader
import Fumox.CycleModel
import Fumox.ProxyStore

/-!
The arithmetic of times in the registers of the code: the moment of a second chance and of a
recheck, and the figures of the cycle model, against their exact values.
-/

namespace TimeArithmetic

open ConfigLoader CycleModel MachineInt ProxyModels ProxyStore TomlDocument

def delaysAt (values : List Value) (key : Key) : List ℤ :=
  match lookupValue values key with
  | some (.delays l) => l
  | _ => []

def probeSettings (config : AppConfig) : ProbeSettings where
  cycleIntervalSecs := numberAt config.values ⟨"probe", "cycle_interval_secs"⟩
  sampleSize := numberAt config.values ⟨"probe", "sample_size"⟩
  connectTimeoutSecs := numberAt config.values ⟨"probe", "connect_timeout_secs"⟩
  tlsTimeoutSecs := numberAt config.values ⟨"probe", "tls_timeout_secs"⟩
  concurrency := numberAt config.values ⟨"probe", "concurrency"⟩
  heartbeatIntervalSecs := numberAt config.values ⟨"probe", "heartbeat_interval_secs"⟩
  secondChanceMinHours := numberAt config.values ⟨"probe", "second_chance_min_hours"⟩
  secondChanceSpreadHours := numberAt config.values ⟨"probe", "second_chance_spread_hours"⟩
  recheckDelaysSecs := delaysAt config.values ⟨"probe", "recheck_delays_secs"⟩
  queueStaleDays := numberAt config.values ⟨"probe", "queue_stale_days"⟩
  backlogTargetDrainMinutes := numberAt config.values ⟨"probe", "backlog_target_drain_minutes"⟩

/-- The seconds that `apply_regular_failure` and the T2 batch take the least delay to be. -/
def minSecs (cfg : ProbeSettings) : ℤ :=
  let secs := saturateUnsigned 64 (cfg.secondChanceMinHours * 3600)
  if secs < 2 ^ 63 then secs else 2 ^ 63 - 1

/-- The seconds of the spread; one that does not fit is dropped. -/
def spreadSecs (cfg : ProbeSettings) : ℤ :=
  let secs := saturateUnsigned 64 (cfg.secondChanceSpreadHours * 3600)
  if secs < 2 ^ 63 then secs else 0

/-- A jitter that `check_failed` may draw. -/
def Drawn (spread jitter : ℤ) : Prop := 0 < spread ∧ 0 ≤ jitter ∧ jitter < spread ∨
  spread ≤ 0 ∧ jitter = 0

def i64 (z : ℤ) : ℤ := signed 64 z

def secondChanceAt (now minSecs jitter : ℤ) : ℤ := i64 (i64 (now + minSecs) + jitter)

def recheckAt (now delay : ℤ) : ℤ := i64 (now + max delay 0)

def checkFailedI64 (s : Store) (id : ℕ) (now : ℤ) (failLimit : ℕ) (minSecs jitter : ℤ)
    (markT2Failed : Bool) : Store × Transition :=
  let guard := fun r : ProxyRow => r.id == id && regularState r
  match s.proxies.find? guard with
  | none => (s, .unchanged)
  | some row =>
    let newCount := row.failCount + 1
    if (failLimit : ℤ) ≤ newCount then
      (s.updateProxies guard
        (quarantineSet now newCount (secondChanceAt now minSecs jitter) markT2Failed),
        .quarantined)
    else
      (s.updateProxies guard (failedSet now newCount markT2Failed), .unchanged)

def quarantineCheckFailedI64 (s : Store) (id : ℕ) (now step : ℤ) (delays : List ℤ) :
    Store × Transition :=
  let guard := fun r : ProxyRow => r.id == id && r.status == .quarantine
  match delays[(max step 0).toNat]? with
  | none => (s.updateProxies guard (ladderRemovedSet now), .removed)
  | some delay =>
    (s.updateProxies guard (ladderAdvancedSet now (recheckAt now delay) (step + 1)), .unchanged)

section Exact

variable (cfg : ProbeSettings) (quarantineCount dueCount : ℤ)

def exactRetire : ℕ := min cfg.sampleSize dueCount.toNat

def exactLane : ℕ := (exactRetire cfg dueCount ⌈/⌉ max cfg.concurrency 1) * (modelInputs cfg).2

def exactPeriod : ℕ := max (modelInputs cfg).1 (exactLane cfg dueCount)

def exactDrain : ℕ :=
  (quarantineCount.toNat ⌈/⌉ exactRetire cfg dueCount) * exactPeriod cfg dueCount ⌈/⌉ 60

/-- The moments lie where the settings put them, and the figures are exact. -/
structure TimesExact (now : ℤ) : Prop where
  secondChance : ∀ jitter, Drawn (spreadSecs cfg) jitter →
    now + minSecs cfg ≤ secondChanceAt now (minSecs cfg) jitter ∧
      secondChanceAt now (minSecs cfg) jitter ≤ now + minSecs cfg + spreadSecs cfg
  recheck : ∀ delay ∈ cfg.recheckDelaysSecs, now ≤ recheckAt now delay
  lane : (Model.ofSettings cfg quarantineCount dueCount).laneSecs = exactLane cfg dueCount
  period : (Model.ofSettings cfg quarantineCount dueCount).periodSecs = exactPeriod cfg dueCount
  drain : (Model.ofSettings cfg quarantineCount dueCount).drainMinutes =
    if exactRetire cfg dueCount = 0 then none else some (exactDrain cfg quarantineCount dueCount)

/-- The last second chance, the lane and the drain fit their registers. -/
structure Representable (now : ℤ) : Prop where
  lastChance : now + minSecs cfg + max (spreadSecs cfg - 1) 0 < 2 ^ 63
  lane : exactLane cfg dueCount < 2 ^ 64
  drain : exactRetire cfg dueCount ≠ 0 → exactDrain cfg quarantineCount dueCount < 2 ^ 64

/-- The ranges of the types of `[probe]`, and of its ladder. -/
structure Typed : Prop where
  cycle : cfg.cycleIntervalSecs < 2 ^ 64
  sample : cfg.sampleSize < 2 ^ 32
  concurrency : cfg.concurrency < 2 ^ 64
  delays : ∀ delay ∈ cfg.recheckDelaysSecs, 1 ≤ delay ∧ delay ≤ recheckMaxDelaySecs

end Exact

def ThisCentury (now : ℤ) : Prop := 946684800 ≤ now ∧ now < 4102444800

theorem numberAt_lt (config : AppConfig) {f : Field} {bound : ℕ} (hf : f ∈ schema)
    (htype : f.type = .unsigned bound) : numberAt config.values f.key < bound := by
  obtain ⟨v, hv, hv'⟩ := config.hasType_get hf
  rw [htype] at hv'
  obtain ⟨n, rfl⟩ := number_of_hasType hv'
  rw [numberAt_eq hv]
  exact hv'

theorem typed_probeSettings (config : AppConfig) : Typed (probeSettings config) where
  cycle := numberAt_lt config
    (f := ⟨⟨"probe", "cycle_interval_secs"⟩, u64, .number 60⟩) (by decide +kernel) rfl
  sample := numberAt_lt config
    (f := ⟨⟨"probe", "sample_size"⟩, u32, .number 50⟩) (by decide +kernel) rfl
  concurrency := numberAt_lt config
    (f := ⟨⟨"probe", "concurrency"⟩, usize, .number 8⟩) (by decide +kernel) rfl
  delays := by
    obtain ⟨v, hv, htype⟩ := config.hasType_get
      (f := ⟨⟨"probe", "recheck_delays_secs"⟩, .delays, .delays [15 * 60, 30 * 60, 60 * 60]⟩)
      (by decide +kernel)
    cases v with
    | delays l =>
      have hdelays : (probeSettings config).recheckDelaysSecs = l := by
        change delaysAt config.values _ = l
        unfold delaysAt
        rw [show lookupValue config.values _ = _ from hv]
      rw [hdelays]
      exact htype.2
    | _ => exact htype.elim

section Moments

variable {cfg : ProbeSettings} {now jitter : ℤ}

theorem minSecs_bounds (cfg : ProbeSettings) : 0 ≤ minSecs cfg ∧ minSecs cfg < 2 ^ 63 := by
  unfold minSecs
  dsimp only
  split_ifs <;> omega

theorem spreadSecs_bounds (cfg : ProbeSettings) : 0 ≤ spreadSecs cfg ∧ spreadSecs cfg < 2 ^ 63 := by
  unfold spreadSecs
  dsimp only
  split_ifs <;> omega

theorem drawn_bounds (h : Drawn (spreadSecs cfg) jitter) :
    0 ≤ jitter ∧ jitter ≤ max (spreadSecs cfg - 1) 0 ∧ jitter ≤ spreadSecs cfg := by
  have hspread := spreadSecs_bounds cfg
  unfold Drawn at h
  omega

theorem drawn_last (cfg : ProbeSettings) :
    Drawn (spreadSecs cfg) (max (spreadSecs cfg - 1) 0) := by
  have hspread := spreadSecs_bounds cfg
  unfold Drawn
  omega

theorem secondChanceAt_eq (hnow : 0 ≤ now) (hjitter : 0 ≤ jitter)
    (h : now + minSecs cfg + jitter < 2 ^ 63) :
    secondChanceAt now (minSecs cfg) jitter = now + minSecs cfg + jitter := by
  have hmin := minSecs_bounds cfg
  unfold secondChanceAt i64
  rw [signed_eq_self (z := now + minSecs cfg) ⟨by omega, by omega⟩,
    signed_eq_self ⟨by omega, by omega⟩]

/-- A sum that does not fit comes back before the least moment. -/
theorem secondChanceAt_lt (hnow : ThisCentury now) (hjitter : 0 ≤ jitter ∧ jitter < 2 ^ 63)
    (h : 2 ^ 63 ≤ now + minSecs cfg + jitter) :
    secondChanceAt now (minSecs cfg) jitter < now + minSecs cfg := by
  have hmin := minSecs_bounds cfg
  obtain ⟨hlow, hhigh⟩ := hnow
  unfold secondChanceAt i64
  by_cases hfirst : now + minSecs cfg < 2 ^ 63
  · rw [signed_eq_self (z := now + minSecs cfg) ⟨by omega, by omega⟩,
      signed_over ⟨by omega, by omega⟩]
    omega
  · rw [signed_over (z := now + minSecs cfg) ⟨by omega, by omega⟩,
      signed_eq_self ⟨by omega, by omega⟩]
    omega

theorem recheckAt_eq (hnow : ThisCentury now) {delay : ℤ}
    (hdelay : 1 ≤ delay ∧ delay ≤ recheckMaxDelaySecs) : recheckAt now delay = now + delay := by
  obtain ⟨hlow, hhigh⟩ := hnow
  have hmax : recheckMaxDelaySecs = 2592000 := by decide
  unfold recheckAt i64
  rw [max_eq_left (by omega), signed_eq_self ⟨by omega, by omega⟩]

theorem checkFailedI64_eq (s : Store) (id failLimit : ℕ) (mark : Bool) (hnow : 0 ≤ now)
    (hjitter : 0 ≤ jitter) (h : now + minSecs cfg + jitter < 2 ^ 63) :
    checkFailedI64 s id now failLimit (minSecs cfg) jitter mark =
      checkFailed s id now failLimit (minSecs cfg) jitter mark := by
  have hchance := secondChanceAt_eq hnow hjitter h
  unfold checkFailedI64 checkFailed
  cases hfound : s.proxies.find? fun r : ProxyRow => r.id == id && regularState r with
  | none => simp only [hfound]
  | some r => simp only [hfound, hchance]

theorem quarantineCheckFailedI64_eq (s : Store) (id : ℕ) (step : ℤ) (hnow : ThisCentury now)
    (htyped : Typed cfg) :
    quarantineCheckFailedI64 s id now step cfg.recheckDelaysSecs =
      quarantineCheckFailed s id now step cfg.recheckDelaysSecs := by
  unfold quarantineCheckFailedI64 quarantineCheckFailed
  cases hdelay : cfg.recheckDelaysSecs[(max step 0).toNat]? with
  | none => rfl
  | some delay =>
    have hbounds := htyped.delays delay (List.mem_of_getElem? hdelay)
    dsimp only
    rw [recheckAt_eq hnow hbounds, max_eq_left (by omega)]

end Moments

section Figures

variable {cfg : ProbeSettings} {q due : ℤ}

theorem ceilDiv_le {n d : ℕ} (hd : 0 < d) : n ⌈/⌉ d ≤ n :=
  (ceilDiv_le_iff_le_mul hd).mpr (Nat.le_mul_of_pos_left n hd)

theorem ceilDiv_exact {n d : ℕ} (hd : 0 < d) (h : n + d < 2 ^ 127) :
    CycleModel.ceilDiv (n : ℤ) (d : ℤ) = ((n ⌈/⌉ d : ℕ) : ℤ) := by
  have hcast : (n : ℤ) + d - 1 = ((n + d - 1 : ℕ) : ℤ) := by omega
  rw [ceilDiv_eq_ediv (by omega) (by omega) (by omega), hcast, Nat.ceilDiv_eq_add_pred_div]
  exact (Int.natCast_ediv _ _).symm

theorem retire_eq (cfg : ProbeSettings) (due : ℤ) :
    min (cfg.sampleSize : ℤ) (max due 0) = (exactRetire cfg due : ℤ) := by
  unfold exactRetire
  omega

theorem exactRetire_le (cfg : ProbeSettings) (due : ℤ) : exactRetire cfg due ≤ cfg.sampleSize :=
  Nat.min_le_left _ _

theorem laneSecs_eq (htyped : Typed cfg) :
    (Model.ofSettings cfg q due).laneSecs = exactLane cfg due % 2 ^ 64 := by
  have hretire := retire_eq cfg due
  have hle := exactRetire_le cfg due
  have hsample := htyped.sample
  have hconcurrency := htyped.concurrency
  have hrounds : exactRetire cfg due ⌈/⌉ max cfg.concurrency 1 ≤ exactRetire cfg due :=
    ceilDiv_le (by omega)
  change (if min (cfg.sampleSize : ℤ) (max due 0) = 0 then 0 else
    unsigned 64 (unsigned 64 (CycleModel.ceilDiv (min (cfg.sampleSize : ℤ) (max due 0))
      ((max cfg.concurrency 1 : ℕ) : ℤ)) * (modelInputs cfg).2)) = _
  rw [hretire, ceilDiv_exact (by omega) (by omega), unsigned_natCast,
    Nat.mod_eq_of_lt (by omega)]
  unfold exactLane
  split_ifs with hidle
  · have hzero : exactRetire cfg due = 0 := by omega
    rw [hzero, zero_ceilDiv, Nat.zero_mul, Nat.zero_mod]
  · rw [← Nat.cast_mul, unsigned_natCast]

theorem periodSecs_eq (hlane : (Model.ofSettings cfg q due).laneSecs = exactLane cfg due) :
    (Model.ofSettings cfg q due).periodSecs = exactPeriod cfg due := by
  unfold exactPeriod
  rw [← hlane]
  rfl

theorem drainMinutes_eq (htyped : Typed cfg) (hq : 0 ≤ q ∧ q < 2 ^ 63)
    (hlane : (Model.ofSettings cfg q due).laneSecs = exactLane cfg due) :
    (Model.ofSettings cfg q due).drainMinutes =
      if exactRetire cfg due = 0 then none else some (exactDrain cfg q due % 2 ^ 64) := by
  have hretire := retire_eq cfg due
  have hle := exactRetire_le cfg due
  have hsample := htyped.sample
  have hperiod := periodSecs_eq hlane
  have hlaneLt : exactLane cfg due < 2 ^ 64 := by
    rw [← hlane, laneSecs_eq htyped]
    exact Nat.mod_lt _ (by decide)
  have hperiodLt : exactPeriod cfg due < 2 ^ 64 := by
    have hcycle := htyped.cycle
    unfold exactPeriod modelInputs
    dsimp only
    omega
  change Option.map (fun cycles => minutesOf cycles (Model.ofSettings cfg q due).periodSecs)
    (if 0 < min (cfg.sampleSize : ℤ) (max due 0) then
      some (signed 64 (CycleModel.ceilDiv q (min (cfg.sampleSize : ℤ) (max due 0)))) else none) = _
  rw [hretire, hperiod]
  by_cases hidle : exactRetire cfg due = 0
  · rw [if_neg (by omega), if_pos hidle]
    rfl
  · have hpos : 0 < exactRetire cfg due := Nat.pos_of_ne_zero hidle
    have hcast : q = (q.toNat : ℤ) := (Int.toNat_of_nonneg hq.1).symm
    have hcycles : q.toNat ⌈/⌉ exactRetire cfg due ≤ q.toNat := ceilDiv_le hpos
    have hceil : CycleModel.ceilDiv q (exactRetire cfg due : ℤ) =
        ((q.toNat ⌈/⌉ exactRetire cfg due : ℕ) : ℤ) := by
      conv_lhs => rw [hcast]
      exact ceilDiv_exact hpos (by omega)
    have hproduct : (q.toNat ⌈/⌉ exactRetire cfg due) * exactPeriod cfg due ≤
        (2 ^ 63 - 1) * (2 ^ 64 - 1) := Nat.mul_le_mul (by omega) (by omega)
    rw [if_pos (by omega), if_neg hidle, hceil, signed_eq_self ⟨by omega, by omega⟩,
      Option.map_some]
    unfold minutesOf mulI128 exactDrain
    rw [← Nat.cast_mul]
    generalize (q.toNat ⌈/⌉ exactRetire cfg due) * exactPeriod cfg due = product at hproduct ⊢
    rw [saturateSigned_eq_self (by omega) (by omega)]
    have hsixty := ceilDiv_exact (n := product) (d := 60) (by decide) (by omega)
    rw [Nat.cast_ofNat] at hsixty
    rw [hsixty, unsigned_natCast]

end Figures

/-- The times of a loaded configuration are exact exactly if they fit their registers. -/
theorem timesExact_iff (config : AppConfig) {now q : ℤ} (due : ℤ) (hnow : ThisCentury now)
    (hq : 0 ≤ q ∧ q < 2 ^ 63) :
    TimesExact (probeSettings config) q due now ↔
      Representable (probeSettings config) q due now := by
  have htyped := typed_probeSettings config
  have hspread := spreadSecs_bounds (probeSettings config)
  have hlane : (Model.ofSettings (probeSettings config) q due).laneSecs =
      exactLane (probeSettings config) due % 2 ^ 64 := laneSecs_eq htyped
  constructor
  · intro h
    have hlaneLt : exactLane (probeSettings config) due < 2 ^ 64 :=
      (Nat.mod_eq_iff_lt (by decide)).mp (hlane.symm.trans h.lane)
    refine ⟨?_, hlaneLt, ?_⟩
    · by_contra hover
      obtain ⟨hearly, -⟩ := h.secondChance _ (drawn_last _)
      have hlast : 0 ≤ max (spreadSecs (probeSettings config) - 1) 0 ∧
          max (spreadSecs (probeSettings config) - 1) 0 < 2 ^ 63 := ⟨by omega, by omega⟩
      have hlate := secondChanceAt_lt hnow hlast (Int.not_lt.mp hover)
      omega
    · intro hretire
      have hdrain := h.drain
      rw [drainMinutes_eq htyped hq h.lane, if_neg hretire, if_neg hretire] at hdrain
      exact (Nat.mod_eq_iff_lt (by decide)).mp (Option.some.inj hdrain)
  · intro h
    have hexact : (Model.ofSettings (probeSettings config) q due).laneSecs =
        exactLane (probeSettings config) due := hlane.trans (Nat.mod_eq_of_lt h.lane)
    refine ⟨?_, ?_, hexact, periodSecs_eq hexact, ?_⟩
    · intro jitter hdrawn
      have hbounds := drawn_bounds hdrawn
      have hlast := h.lastChance
      rw [secondChanceAt_eq (by unfold ThisCentury at hnow; omega) hbounds.1 (by omega)]
      omega
    · intro delay hdelay
      have hbounds := htyped.delays delay hdelay
      rw [recheckAt_eq hnow hbounds]
      omega
    · rw [drainMinutes_eq htyped hq hexact]
      split_ifs with hidle
      · rfl
      · rw [Nat.mod_eq_of_lt (h.drain hidle)]

section Samples

theorem default_times_exact : ∃ config, load (fun _ => none) [] [] = some config ∧
    TimesExact (probeSettings config) 10000 10000 1800000000 := by
  have hsettings : (load (fun _ => none) [] []).map probeSettings = some {} := by decide +kernel
  obtain ⟨config, hload, hconfig⟩ := Option.map_eq_some_iff.mp hsettings
  refine ⟨config, hload, (timesExact_iff config 10000 ⟨by decide, by decide⟩ (by decide)).mpr ?_⟩
  rw [hconfig]
  exact ⟨by decide +kernel, by decide +kernel, fun _ => by decide +kernel⟩

def longMinimumFile : Document :=
  [("probe", .table false
    [("second_chance_min_hours", .scalar (.integer 2562047788015215))])]

theorem long_minimum_wraps : ∃ config, load (fun _ => none) [] longMinimumFile = some config ∧
    ¬TimesExact (probeSettings config) 0 0 1800000000 := by
  have hsettings : (load (fun _ => none) [] longMinimumFile).map probeSettings =
      some { secondChanceMinHours := 2562047788015215 } := by
    decide +kernel
  obtain ⟨config, hload, hconfig⟩ := Option.map_eq_some_iff.mp hsettings
  refine ⟨config, hload, ?_⟩
  rw [hconfig]
  intro h
  obtain ⟨hearly, -⟩ := h.secondChance 0 (.inl (by decide +kernel))
  revert hearly
  decide +kernel

end Samples

end TimeArithmetic
