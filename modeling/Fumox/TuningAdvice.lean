import Fumox.CycleFigures

/-!
The recommendations of the backlog banner, applied: whether the configuration they name keeps the
modelled cycle inside its interval and drains the queue sooner.
-/

namespace TuningAdvice

open RustText MachineInt CycleModel CycleFigures

def target (rec : TuningRec) : Option ℕ := (rec.args.lookup "target".toList).bind parseU64

def applyRec (cfg : ProbeSettings) (rec : TuningRec) : ProbeSettings :=
  match target rec with
  | none => cfg
  | some n =>
    if rec.key = ("sample_size" : Text) then { cfg with sampleSize := n }
    else if rec.key = ("concurrency" : Text) then { cfg with concurrency := n }
    else if rec.key = ("cycle_interval_secs" : Text) then { cfg with cycleIntervalSecs := n }
    else cfg

def applyAll (cfg : ProbeSettings) (recs : List TuningRec) : ProbeSettings :=
  recs.foldl applyRec cfg

/-- A recommendation never asks for less than is set, nor for a period below the least. -/
def NotBelow (cfg : ProbeSettings) (rec : TuningRec) : Prop :=
  ∃ n, target rec = some n ∧
    (rec.key = ("sample_size" : Text) ∧ cfg.sampleSize ≤ n ∨
      rec.key = ("concurrency" : Text) ∧ cfg.concurrency ≤ n ∨
      rec.key = ("cycle_interval_secs" : Text) ∧ minRecommendedCycleSecs ≤ n)

section Advice

variable (cfg : ProbeSettings) (quarantineCount dueCount : ℤ)

def advice : List TuningRec := computeRecs cfg (Model.ofSettings cfg quarantineCount dueCount)

/-- The model of the cycle once every recommendation is applied. -/
def advised : Model :=
  Model.ofSettings (applyAll cfg (advice cfg quarantineCount dueCount)) quarantineCount dueCount

structure SelfConsistent : Prop where
  fits : advice cfg quarantineCount dueCount ≠ [] →
    (advised cfg quarantineCount dueCount).laneSecs ≤
      (advised cfg quarantineCount dueCount).cycleIntervalSecs
  faster : advice cfg quarantineCount dueCount ≠ [] →
    ∃ before after,
      (Model.ofSettings cfg quarantineCount dueCount).drainMinutes = some before ∧
        (advised cfg quarantineCount dueCount).drainMinutes = some after ∧ after < before
  notBelow : ∀ rec ∈ advice cfg quarantineCount dueCount, NotBelow cfg rec

end Advice

section Applied

variable {cfg : ProbeSettings}

theorem target_of_decimal {key : Text} {n : ℕ} {args : List (Text × Text)} (h : n < 2 ^ 64) :
    target ⟨key, ("target", decimal n) :: args⟩ = some n := by
  unfold target
  rw [List.lookup_cons_self, Option.bind_some]
  exact parseUnsigned_decimal h

theorem applyRec_sample (m : Model) {n : ℕ} (h : n < 2 ^ 64) :
    applyRec cfg (sampleRec m n) = { cfg with sampleSize := n } := by
  unfold applyRec sampleRec
  rw [target_of_decimal h]
  exact if_pos rfl

theorem applyRec_concurrency (m : Model) {n : ℕ} (h : n < 2 ^ 64) :
    applyRec cfg (concurrencyRec m n) = { cfg with concurrency := n } := by
  have hsample : ("concurrency" : Text) ≠ "sample_size" := by decide
  unfold applyRec concurrencyRec
  rw [target_of_decimal h]
  exact (if_neg hsample).trans (if_pos rfl)

theorem applyRec_period (m : Model) {n : ℕ} (h : n < 2 ^ 64) :
    applyRec cfg (periodRec m n) = { cfg with cycleIntervalSecs := n } := by
  have hsample : ("cycle_interval_secs" : Text) ≠ "sample_size" := by decide
  have hconcurrency : ("cycle_interval_secs" : Text) ≠ "concurrency" := by decide
  unfold applyRec periodRec
  rw [target_of_decimal h]
  exact (if_neg hsample).trans ((if_neg hconcurrency).trans (if_pos rfl))

theorem applyAll_recs (m planned : Model) {raised concurrency period : Option ℕ}
    (hraised : ∀ n ∈ raised, n < 2 ^ 64) (hconcurrency : ∀ n ∈ concurrency, n < 2 ^ 64)
    (hperiod : ∀ n ∈ period, n < 2 ^ 64) :
    applyAll cfg ((raised.map (sampleRec m)).toList ++
        (concurrency.map (concurrencyRec planned)).toList ++
        (period.map (periodRec planned)).toList) =
      { cfg with
        sampleSize := raised.getD cfg.sampleSize
        concurrency := concurrency.getD cfg.concurrency
        cycleIntervalSecs := period.getD cfg.cycleIntervalSecs } := by
  unfold applyAll
  rw [List.foldl_append, List.foldl_append]
  have hsample : ((raised.map (sampleRec m)).toList).foldl applyRec cfg =
      { cfg with sampleSize := raised.getD cfg.sampleSize } := by
    cases raised with
    | none => rfl
    | some n => exact applyRec_sample m (hraised n rfl)
  rw [hsample]
  have hparallel : ∀ cfg : ProbeSettings,
      ((concurrency.map (concurrencyRec planned)).toList).foldl applyRec cfg =
        { cfg with concurrency := concurrency.getD cfg.concurrency } := by
    intro cfg
    cases concurrency with
    | none => rfl
    | some n => exact applyRec_concurrency planned (hconcurrency n rfl)
  rw [hparallel]
  cases period with
  | none => rfl
  | some n => exact applyRec_period planned (hperiod n rfl)

end Applied

section Bounds

variable {cfg : ProbeSettings} {m : Model} {drainNow n : ℕ}

theorem requiredSample_bounds (cfg : ProbeSettings) (m : Model) :
    1 ≤ requiredSample cfg m ∧ requiredSample cfg m ≤ 500 := by
  unfold requiredSample
  generalize min (ceilDiv (mulI128 m.quarantineCount m.periodSecs) (targetSeconds cfg)) m.dueCount
    = required
  have hexact : (unsigned 32 (max 1 (min required 500)) : ℤ) = max 1 (min required 500) := by
    rw [unsigned_cast_iff]
    omega
  dsimp only
  omega

theorem raisedSample_spec (h : raisedSample cfg m drainNow = some n) :
    (m.sampleSize : ℤ) < m.dueCount ∧ m.sampleSize < n ∧ n ≤ 500 ∧
      below (m.withSample n).drainMinutes drainNow = true := by
  unfold raisedSample at h
  dsimp only at h
  split_ifs at h with hdue hmargin
  obtain rfl := Option.some.inj h
  have hbounds := requiredSample_bounds cfg m
  exact ⟨hdue, by omega, hbounds.2, hmargin.2⟩

theorem mem_candidates_iff : n ∈ candidates m ↔ m.concurrency < n ∧ n ≤ 64 := by
  unfold candidates saturateUnsigned
  dsimp only
  rw [List.mem_range'_1]
  omega

theorem fittingConcurrency_spec (h : fittingConcurrency m = some n) :
    m.cycleIntervalSecs < m.laneSecs ∧ n ∈ candidates m ∧
      (m.withConcurrency n).laneSecs ≤ m.cycleIntervalSecs := by
  unfold fittingConcurrency at h
  split_ifs at h with hlong
  refine ⟨hlong, List.mem_of_find?_eq_some h, ?_⟩
  have hfits := List.find?_some h
  simpa using hfits

theorem fittingConcurrency_none (hlong : m.cycleIntervalSecs < m.laneSecs)
    (h : fittingConcurrency m = none) :
    ∀ c ∈ candidates m, m.cycleIntervalSecs < (m.withConcurrency c).laneSecs := by
  intro c hc
  unfold fittingConcurrency at h
  rw [if_pos hlong] at h
  have hno := List.find?_eq_none.mp h c hc
  simpa using hno

theorem shorterPeriod_spec (h : shorterPeriod cfg m = some n) :
    m.laneSecs ≤ n ∧ minRecommendedCycleSecs ≤ n ∧ n < m.cycleIntervalSecs ∧ n < 2 ^ 64 := by
  unfold shorterPeriod at h
  obtain ⟨cycles, -, h⟩ := Option.bind_eq_some_iff.mp h
  dsimp only at h
  split_ifs at h with hcycles hperiod
  obtain rfl := Option.some.inj h
  obtain ⟨hlane, hmin, hshort⟩ := hperiod
  refine ⟨hlane, hmin, ?_, unsigned_lt 64 _⟩
  unfold saturateUnsigned at hshort
  omega

theorem shorterPeriod_of_long (h : m.cycleIntervalSecs < m.laneSecs) :
    shorterPeriod cfg m = none := by
  cases hperiod : shorterPeriod cfg m with
  | none => rfl
  | some n =>
    have hspec := shorterPeriod_spec hperiod
    omega

end Bounds

section Advised

variable {cfg : ProbeSettings} {q due : ℤ}

theorem derive_max (inputs : ℕ × ℕ) (s c : ℕ) :
    deriveCycleModel inputs q due s (max c 1) = deriveCycleModel inputs q due s c := by
  unfold deriveCycleModel
  rw [Nat.max_assoc, Nat.max_self]

theorem planned_eq (cfg : ProbeSettings) (q due : ℤ) (drainNow : ℕ) :
    plannedModel cfg (Model.ofSettings cfg q due) drainNow =
      deriveCycleModel (modelInputs cfg) q due
        ((raisedSample cfg (Model.ofSettings cfg q due) drainNow).getD cfg.sampleSize)
        cfg.concurrency := by
  unfold plannedModel
  cases raisedSample cfg (Model.ofSettings cfg q due) drainNow with
  | none => rfl
  | some n => exact derive_max _ _ _

theorem derive_drain (inputs : ℕ × ℕ) (s c : ℕ) :
    (deriveCycleModel inputs q due s c).drainMinutes =
      (deriveCycleModel inputs q due s c).cyclesToDrain.map fun cycles =>
        minutesOf cycles (deriveCycleModel inputs q due s c).periodSecs := rfl

theorem derive_period (inputs : ℕ × ℕ) (s c : ℕ) :
    (deriveCycleModel inputs q due s c).periodSecs =
      max inputs.1 (deriveCycleModel inputs q due s c).laneSecs := rfl

theorem cycles_of_drain {inputs : ℕ × ℕ} {s c drainNow : ℕ}
    (h : (deriveCycleModel inputs q due s c).drainMinutes = some drainNow) :
    0 < s ∧ 0 < due := by
  rw [derive_drain] at h
  obtain ⟨cycles, hcycles, -⟩ := Option.map_eq_some_iff.mp h
  have hretire : 0 < min (s : ℤ) (max due 0) := by
    by_contra hno
    have hnone : (deriveCycleModel inputs q due s c).cyclesToDrain = none := if_neg hno
    rw [hnone] at hcycles
    cases hcycles
  omega

end Advised

section Recommended

variable {cfg : ProbeSettings} {q due : ℤ} {drainNow : ℕ} {planned : Model}
  (hdrain : (Model.ofSettings cfg q due).drainMinutes = some drainNow)
  (hover : targetMinutes cfg < drainNow)
  (hplanned : plannedModel cfg (Model.ofSettings cfg q due) drainNow = planned)

include hdrain hover hplanned

theorem advice_over :
    advice cfg q due =
      ((raisedSample cfg (Model.ofSettings cfg q due) drainNow).map
          (sampleRec (Model.ofSettings cfg q due))).toList ++
        ((fittingConcurrency planned).map (concurrencyRec planned)).toList ++
        ((shorterPeriod cfg planned).map (periodRec planned)).toList := by
  subst hplanned
  unfold advice computeRecs
  rw [hdrain]
  exact if_neg (Nat.not_le.mpr hover)

theorem advised_over :
    advised cfg q due =
      deriveCycleModel
        (max ((shorterPeriod cfg planned).getD cfg.cycleIntervalSecs) 1, (modelInputs cfg).2) q due
        ((raisedSample cfg (Model.ofSettings cfg q due) drainNow).getD cfg.sampleSize)
        ((fittingConcurrency planned).getD cfg.concurrency) := by
  unfold advised
  rw [advice_over hdrain hover hplanned, applyAll_recs]
  · rfl
  · intro n hn
    have hspec := raisedSample_spec hn
    omega
  · intro n hn
    have hspec := mem_candidates_iff.mp (fittingConcurrency_spec hn).2.1
    omega
  · intro n hn
    exact (shorterPeriod_spec hn).2.2.2

theorem advised_plain (hconcurrency : fittingConcurrency planned = none)
    (hperiod : shorterPeriod cfg planned = none) : advised cfg q due = planned := by
  rw [advised_over hdrain hover hplanned, hconcurrency, hperiod, ← hplanned, planned_eq]
  rfl

theorem advised_fitting {c : ℕ} (hconcurrency : fittingConcurrency planned = some c) :
    (advised cfg q due).laneSecs ≤ (advised cfg q due).cycleIntervalSecs ∧
      (advised cfg q due).drainMinutes =
        planned.cyclesToDrain.map fun cycles => minutesOf cycles planned.cycleIntervalSecs := by
  obtain ⟨hlong, -, hfits⟩ := fittingConcurrency_spec hconcurrency
  rw [advised_over hdrain hover hplanned, hconcurrency, shorterPeriod_of_long hlong]
  rw [← hplanned, planned_eq] at hfits ⊢
  refine ⟨hfits, ?_⟩
  rw [derive_drain, derive_period]
  refine congrArg (fun period => Option.map (fun cycles => minutesOf cycles period) _) ?_
  exact Nat.max_eq_left hfits

theorem advised_shorter {period : ℕ} (hconcurrency : fittingConcurrency planned = none)
    (hperiod : shorterPeriod cfg planned = some period) :
    (advised cfg q due).laneSecs ≤ (advised cfg q due).cycleIntervalSecs ∧
      (advised cfg q due).drainMinutes =
        planned.cyclesToDrain.map fun cycles => minutesOf cycles period := by
  obtain ⟨hlane, hmin, -, -⟩ := shorterPeriod_spec hperiod
  have hpos : max period 1 = period := Nat.max_eq_left ((by decide : 1 ≤ 5).trans hmin)
  rw [advised_over hdrain hover hplanned, hconcurrency, hperiod]
  rw [← hplanned, planned_eq] at hlane ⊢
  rw [Option.getD_some, Option.getD_none, hpos]
  refine ⟨hlane, ?_⟩
  rw [derive_drain, derive_period]
  refine congrArg (fun period => Option.map (fun cycles => minutesOf cycles period) _) ?_
  exact Nat.max_eq_left hlane

omit hplanned in
theorem advice_notBelow : ∀ rec ∈ advice cfg q due, NotBelow cfg rec := by
  intro rec hrec
  rw [advice_over hdrain hover rfl] at hrec
  rcases List.mem_append.mp hrec with hrec | hrec
  · rcases List.mem_append.mp hrec with hrec | hrec
    · obtain ⟨n, hn, rfl⟩ := Option.map_eq_some_iff.mp (Option.mem_toList.mp hrec)
      obtain ⟨-, hmore, hle, -⟩ := raisedSample_spec hn
      exact ⟨n, target_of_decimal (by omega), .inl ⟨rfl, Nat.le_of_lt hmore⟩⟩
    · obtain ⟨n, hn, rfl⟩ := Option.map_eq_some_iff.mp (Option.mem_toList.mp hrec)
      obtain ⟨hmore, hle⟩ := mem_candidates_iff.mp (fittingConcurrency_spec hn).2.1
      refine ⟨n, target_of_decimal (by omega), .inr (.inl ⟨rfl, ?_⟩)⟩
      rw [planned_eq] at hmore
      exact (Nat.le_max_left _ _).trans (Nat.le_of_lt hmore)
  · obtain ⟨n, hn, rfl⟩ := Option.map_eq_some_iff.mp (Option.mem_toList.mp hrec)
    obtain ⟨-, hmin, -, hbound⟩ := shorterPeriod_spec hn
    exact ⟨n, target_of_decimal hbound, .inr (.inr ⟨rfl, hmin⟩)⟩

end Recommended

section Settled

variable {cfg : ProbeSettings} {q due : ℤ}

theorem selfConsistent_of_empty (h : advice cfg q due = []) : SelfConsistent cfg q due where
  fits := fun hne => absurd h hne
  faster := fun hne => absurd h hne
  notBelow := by
    rw [h]
    exact fun rec hrec => absurd hrec List.not_mem_nil

theorem advice_within
    (h : ∀ drainNow, (Model.ofSettings cfg q due).drainMinutes = some drainNow →
      drainNow ≤ targetMinutes cfg) : advice cfg q due = [] := by
  unfold advice computeRecs
  cases hdrain : (Model.ofSettings cfg q due).drainMinutes with
  | none => rfl
  | some drainNow => exact if_pos (h drainNow hdrain)

section Consistent

variable {drainNow : ℕ} {cycles : ℤ} {planned : Model}
  (hdrain : (Model.ofSettings cfg q due).drainMinutes = some drainNow)
  (hover : targetMinutes cfg < drainNow)
  (hplanned : plannedModel cfg (Model.ofSettings cfg q due) drainNow = planned)
  (hcycles : planned.cyclesToDrain = some cycles)

include hdrain hover

theorem selfConsistent_iff_faster {after : ℕ} (hne : advice cfg q due ≠ [])
    (hfits : (advised cfg q due).laneSecs ≤ (advised cfg q due).cycleIntervalSecs)
    (hafter : (advised cfg q due).drainMinutes = some after) :
    SelfConsistent cfg q due ↔ after < drainNow := by
  constructor
  · intro h
    obtain ⟨before, after', hbefore, hafter', hless⟩ := h.faster hne
    rw [hdrain] at hbefore
    rw [hafter] at hafter'
    cases hbefore
    cases hafter'
    exact hless
  · intro hless
    exact ⟨fun _ => hfits, fun _ => ⟨drainNow, after, hdrain, hafter, hless⟩,
      advice_notBelow hdrain hover⟩

include hplanned hcycles

theorem selfConsistent_long (hlong : planned.cycleIntervalSecs < planned.laneSecs) :
    SelfConsistent cfg q due ↔
      ((∃ c ∈ candidates planned,
          (planned.withConcurrency c).laneSecs ≤ planned.cycleIntervalSecs) ∧
        minutesOf cycles planned.cycleIntervalSecs < drainNow) ∨
      raisedSample cfg (Model.ofSettings cfg q due) drainNow = none ∧
        ∀ c ∈ candidates planned,
          planned.cycleIntervalSecs < (planned.withConcurrency c).laneSecs := by
  have hadvice := advice_over hdrain hover hplanned
  have hperiod : shorterPeriod cfg planned = none := shorterPeriod_of_long hlong
  cases hconcurrency : fittingConcurrency planned with
  | some c =>
    obtain ⟨-, hmem, hfit⟩ := fittingConcurrency_spec hconcurrency
    obtain ⟨hfits, hafter⟩ := advised_fitting hdrain hover hplanned hconcurrency
    rw [hcycles] at hafter
    have hne : advice cfg q due ≠ [] := by
      rw [hadvice, hconcurrency]
      simp
    rw [selfConsistent_iff_faster hdrain hover hne hfits hafter]
    constructor
    · exact fun hless => .inl ⟨⟨c, hmem, hfit⟩, hless⟩
    · rintro (⟨-, hless⟩ | ⟨-, hnone⟩)
      · exact hless
      · exact absurd hfit (Nat.not_le.mpr (hnone c hmem))
  | none =>
    have hnofit := fittingConcurrency_none hlong hconcurrency
    rw [hconcurrency, hperiod] at hadvice
    cases hraised : raisedSample cfg (Model.ofSettings cfg q due) drainNow with
    | none =>
      rw [hraised] at hadvice
      exact iff_of_true (selfConsistent_of_empty hadvice) (.inr ⟨rfl, hnofit⟩)
    | some n =>
      have hne : advice cfg q due ≠ [] := by
        rw [hadvice, hraised]
        simp
      apply iff_of_false
      · intro h
        have hfits := h.fits hne
        rw [advised_plain hdrain hover hplanned hconcurrency hperiod] at hfits
        omega
      · rintro (⟨⟨c, hc, hfit⟩, -⟩ | ⟨hno, -⟩)
        · exact absurd hfit (Nat.not_le.mpr (hnofit c hc))
        · cases hno

theorem selfConsistent_short (hshort : planned.laneSecs ≤ planned.cycleIntervalSecs) :
    SelfConsistent cfg q due ↔
      ∀ period, shorterPeriod cfg planned = some period → minutesOf cycles period < drainNow := by
  have hadvice := advice_over hdrain hover hplanned
  have hconcurrency : fittingConcurrency planned = none := if_neg (Nat.not_lt.mpr hshort)
  cases hperiod : shorterPeriod cfg planned with
  | some period =>
    obtain ⟨hfits, hafter⟩ := advised_shorter hdrain hover hplanned hconcurrency hperiod
    rw [hcycles] at hafter
    have hne : advice cfg q due ≠ [] := by
      rw [hadvice, hperiod]
      simp
    rw [selfConsistent_iff_faster hdrain hover hne hfits hafter]
    constructor
    · rintro hless _ ⟨⟩
      exact hless
    · exact fun h => h period rfl
  | none =>
    refine iff_of_true ?_ fun period h => nomatch h
    rw [hconcurrency, hperiod] at hadvice
    have hplain := advised_plain hdrain hover hplanned hconcurrency hperiod
    cases hraised : raisedSample cfg (Model.ofSettings cfg q due) drainNow with
    | none =>
      rw [hraised] at hadvice
      exact selfConsistent_of_empty hadvice
    | some n =>
      have hne : advice cfg q due ≠ [] := by
        rw [hadvice, hraised]
        simp
      -- the raised sample alone is applied, and was chosen because it drains the queue sooner
      obtain ⟨-, -, -, hbelow⟩ := raisedSample_spec hraised
      have hsame : planned = (Model.ofSettings cfg q due).withSample n := by
        rw [← hplanned, plannedModel, hraised]
        rfl
      rw [← hsame] at hbelow
      have hsome : planned.drainMinutes = some (minutesOf cycles planned.periodSecs) := by
        have hmap : planned.drainMinutes = planned.cyclesToDrain.map fun cycles =>
            minutesOf cycles planned.periodSecs := by
          rw [← hplanned, planned_eq]
          rfl
        rw [hmap, hcycles, Option.map_some]
      rw [hsome] at hbelow
      have hafter : (advised cfg q due).drainMinutes = some (minutesOf cycles planned.periodSecs) :=
        hplain ▸ hsome
      rw [← hplain] at hshort
      exact (selfConsistent_iff_faster hdrain hover hne hshort hafter).mpr
        (of_decide_eq_true hbelow)

end Consistent

end Settled

section Conditions

variable (cfg : ProbeSettings) (q due : ℤ)

/-- The banner gives advice: a cycle takes rows, and the queue outlasts its target. -/
def OverTarget : Prop :=
  0 < rows due cfg.sampleSize ∧ targetMinutes cfg < drainNow cfg q due
  deriving Decidable

/-- The sample that drains the queue in the target, up to the rows that are due and to 500. -/
def neededSample : ℕ :=
  unsigned 32 (max 1 (min (min (ceilDiv (mulI128 q (period cfg due cfg.sampleSize))
    (targetSeconds cfg)) due) 500))

/-- A larger sample is advised: it is worth a fifth more, and drains the queue sooner. -/
def RaisesSample : Prop :=
  (cfg.sampleSize : ℤ) < due ∧ cfg.sampleSize * 6 < neededSample cfg q due * 5 ∧
    drain q due (neededSample cfg q due) (period cfg due (neededSample cfg q due)) <
      drainNow cfg q due
  deriving Decidable

def sampleInEffect : ℕ :=
  if RaisesSample cfg q due then neededSample cfg q due else cfg.sampleSize

/-- The lane fits the interval at the configured concurrency, or at a higher one up to 64. -/
def CanFit (sample : ℕ) : Prop :=
  ∃ parallel, (parallel = cfg.concurrency ∨ cfg.concurrency < parallel ∧ parallel ≤ 64) ∧
    lane cfg due sample parallel ≤ interval cfg

/-- A period that meets the target, holds the lane and is at least a fifth below the interval. -/
def Shortens (sample short : ℕ) : Prop :=
  0 < cycles q due sample ∧
    short = unsigned 64 (ceilDiv (targetSeconds cfg) (cycles q due sample)) ∧
    max (lane cfg due sample cfg.concurrency) minRecommendedCycleSecs ≤ short ∧
    short < saturateUnsigned 64 (interval cfg * 8) / 10

/-- What each step of the advice asks of the figures, wherever they wrap. -/
def AdviceFits : Prop :=
  OverTarget cfg q due →
    (RaisesSample cfg q due → CanFit cfg due (sampleInEffect cfg q due)) ∧
    (interval cfg < lane cfg due (sampleInEffect cfg q due) cfg.concurrency →
      CanFit cfg due (sampleInEffect cfg q due) →
        drain q due (sampleInEffect cfg q due) (interval cfg) < drainNow cfg q due) ∧
    ∀ short, Shortens cfg q due (sampleInEffect cfg q due) short →
      drain q due (sampleInEffect cfg q due) short < drainNow cfg q due

/-- Some minute is over between the ends of the last cycle at the two periods. -/
def EndsBetween (short long : ℕ) : Prop :=
  ∃ minutes : ℕ, cycles q due cfg.sampleSize * short ≤ minutes * 60 ∧
    (minutes : ℤ) * 60 < cycles q due cfg.sampleSize * long

/-- A raised sample fits at the highest concurrency; without one, what is changed about the lane
or the interval is worth a minute. -/
def Settles : Prop :=
  OverTarget cfg q due →
    if RaisesSample cfg q due then
      lane cfg due (neededSample cfg q due) (max cfg.concurrency 64) ≤ interval cfg
    else
      (interval cfg < lane cfg due cfg.sampleSize cfg.concurrency →
        lane cfg due cfg.sampleSize (max cfg.concurrency 64) ≤ interval cfg →
          EndsBetween cfg q due (interval cfg) (lane cfg due cfg.sampleSize cfg.concurrency)) ∧
      ∀ short, Shortens cfg q due cfg.sampleSize short →
        EndsBetween cfg q due short (interval cfg)

end Conditions

section Bridges

variable {cfg : ProbeSettings} {q due : ℤ}

theorem neededSample_bounds (cfg : ProbeSettings) (q due : ℤ) :
    1 ≤ neededSample cfg q due ∧ neededSample cfg q due ≤ 500 :=
  requiredSample_bounds cfg (Model.ofSettings cfg q due)

theorem drain_of_over (h : 0 < rows due cfg.sampleSize) :
    (Model.ofSettings cfg q due).drainMinutes = some (drainNow cfg q due) :=
  derive_drainMinutes cfg q due cfg.sampleSize h

theorem rows_inEffect (h : 0 < rows due cfg.sampleSize) :
    0 < rows due (sampleInEffect cfg q due) := by
  have hneeded := (neededSample_bounds cfg q due).1
  unfold rows at h ⊢
  unfold sampleInEffect
  split_ifs <;> omega

theorem raisedSample_eq (h : 0 < rows due cfg.sampleSize) :
    raisedSample cfg (Model.ofSettings cfg q due) (drainNow cfg q due) =
      if RaisesSample cfg q due then some (neededSample cfg q due) else none := by
  have hrows : 0 < rows due (neededSample cfg q due) := by
    have hneeded := (neededSample_bounds cfg q due).1
    unfold rows at h ⊢
    omega
  have hdrain : ((Model.ofSettings cfg q due).withSample (neededSample cfg q due)).drainMinutes =
      some (drain q due (neededSample cfg q due) (period cfg due (neededSample cfg q due))) := by
    rw [← derive_drainMinutes cfg q due _ hrows]
    exact congrArg Model.drainMinutes (derive_max _ _ _)
  have hneeded : requiredSample cfg (Model.ofSettings cfg q due) = neededSample cfg q due := rfl
  have hdue : (Model.ofSettings cfg q due).dueCount = due := rfl
  have hsample : (Model.ofSettings cfg q due).sampleSize = cfg.sampleSize := rfl
  unfold raisedSample
  dsimp only
  rw [hneeded, hdrain, hdue, hsample]
  simp only [below, decide_eq_true_eq]
  by_cases hmore : (cfg.sampleSize : ℤ) < due
  · rw [if_pos hmore]
    exact if_congr (and_iff_right hmore).symm rfl rfl
  · rw [if_neg hmore, if_neg fun hraises => hmore hraises.1]

theorem raisedSample_getD (h : 0 < rows due cfg.sampleSize) :
    (raisedSample cfg (Model.ofSettings cfg q due) (drainNow cfg q due)).getD cfg.sampleSize =
      sampleInEffect cfg q due := by
  rw [raisedSample_eq h]
  unfold sampleInEffect
  split_ifs <;> rfl

theorem planned_inEffect (h : 0 < rows due cfg.sampleSize) :
    plannedModel cfg (Model.ofSettings cfg q due) (drainNow cfg q due) =
      deriveCycleModel (modelInputs cfg) q due (sampleInEffect cfg q due) cfg.concurrency := by
  rw [planned_eq, raisedSample_getD h]

theorem planned_cycles (h : 0 < rows due cfg.sampleSize) :
    (deriveCycleModel (modelInputs cfg) q due (sampleInEffect cfg q due)
        cfg.concurrency).cyclesToDrain = some (cycles q due (sampleInEffect cfg q due)) := by
  rw [derive_cycles, if_pos (rows_inEffect h)]

theorem derive_interval (sample parallel : ℕ) :
    (deriveCycleModel (modelInputs cfg) q due sample parallel).cycleIntervalSecs =
      interval cfg := rfl

theorem derive_withConcurrency (sample parallel other : ℕ) :
    ((deriveCycleModel (modelInputs cfg) q due sample parallel).withConcurrency other).laneSecs =
      lane cfg due sample other := rfl

theorem canFit_iff {sample : ℕ} (hlong : interval cfg < lane cfg due sample cfg.concurrency) :
    CanFit cfg due sample ↔
      ∃ c ∈ candidates (deriveCycleModel (modelInputs cfg) q due sample cfg.concurrency),
        lane cfg due sample c ≤ interval cfg := by
  constructor
  · rintro ⟨parallel, rfl | ⟨hmore, hle⟩, hfits⟩
    · exact absurd hfits (Nat.not_le.mpr hlong)
    · refine ⟨parallel, mem_candidates_iff.mpr ⟨?_, hle⟩, hfits⟩
      -- a concurrency of 0 runs one check at a time, as does 1
      by_contra hone
      have hsame : max parallel 1 = max cfg.concurrency 1 := by
        have hmax : (deriveCycleModel (modelInputs cfg) q due sample cfg.concurrency).concurrency =
          max cfg.concurrency 1 := rfl
        omega
      have hlane : lane cfg due sample parallel = lane cfg due sample cfg.concurrency := by
        unfold lane
        rw [hsame]
      omega
  · rintro ⟨c, hc, hfits⟩
    obtain ⟨hmore, hle⟩ := mem_candidates_iff.mp hc
    exact ⟨c, .inr ⟨(Nat.le_max_left _ _).trans_lt hmore, hle⟩, hfits⟩

theorem shorterPeriod_iff {sample short : ℕ} (h : 0 < rows due sample) :
    shorterPeriod cfg (deriveCycleModel (modelInputs cfg) q due sample cfg.concurrency) =
      some short ↔ Shortens cfg q due sample short := by
  unfold shorterPeriod Shortens
  rw [derive_cycles, if_pos h, derive_laneSecs, Option.bind_some]
  dsimp only
  constructor
  · intro hsome
    split_ifs at hsome with hcycles hperiod
    obtain rfl := Option.some.inj hsome
    exact ⟨hcycles, rfl, max_le hperiod.1 hperiod.2.1, hperiod.2.2⟩
  · rintro ⟨hcycles, rfl, hmax, hshort⟩
    have hlane := (le_max_left _ _).trans hmax
    have hleast := (le_max_right _ _).trans hmax
    rw [if_pos hcycles, if_pos ⟨hlane, hleast, hshort⟩]

end Bridges

section SelfConsistent

variable {cfg : ProbeSettings} {q due : ℤ}

theorem selfConsistent_of_within (h : ¬OverTarget cfg q due) : SelfConsistent cfg q due := by
  apply selfConsistent_of_empty
  apply advice_within
  intro drainNow hdrain
  have hrows : 0 < rows due cfg.sampleSize := by
    obtain ⟨hsample, hdue⟩ := cycles_of_drain hdrain
    unfold rows
    omega
  rw [drain_of_over hrows] at hdrain
  cases hdrain
  exact Nat.le_of_not_lt fun hover => h ⟨hrows, hover⟩

theorem selfConsistent_overrun (hover : OverTarget cfg q due)
    (hlong : interval cfg < lane cfg due (sampleInEffect cfg q due) cfg.concurrency) :
    SelfConsistent cfg q due ↔
      (RaisesSample cfg q due → CanFit cfg due (sampleInEffect cfg q due)) ∧
      (CanFit cfg due (sampleInEffect cfg q due) →
        drain q due (sampleInEffect cfg q due) (interval cfg) < drainNow cfg q due) := by
  have hiff := selfConsistent_long (drain_of_over hover.1) hover.2 (planned_inEffect hover.1)
    (planned_cycles hover.1) hlong
  have hraised : raisedSample cfg (Model.ofSettings cfg q due) (drainNow cfg q due) = none ↔
      ¬RaisesSample cfg q due := by
    rw [raisedSample_eq hover.1]
    split_ifs with hraises <;> simp [hraises]
  have hfit := canFit_iff (q := q) hlong
  rw [hraised] at hiff
  simp only [derive_interval, derive_withConcurrency, ← not_le] at hiff
  have hnofit : (∀ c ∈ candidates (deriveCycleModel (modelInputs cfg) q due
        (sampleInEffect cfg q due) cfg.concurrency),
      ¬lane cfg due (sampleInEffect cfg q due) c ≤ interval cfg) ↔
      ¬CanFit cfg due (sampleInEffect cfg q due) := by
    rw [hfit]
    simp only [not_exists, not_and]
  rw [hnofit, ← hfit, not_le] at hiff
  rw [hiff]
  constructor
  · rintro (⟨hcan, hless⟩ | ⟨hkept, hcannot⟩)
    · exact ⟨fun _ => hcan, fun _ => hless⟩
    · exact ⟨fun hraises => absurd hraises hkept, fun hcan => absurd hcan hcannot⟩
  · rintro ⟨hraised, hless⟩
    by_cases hcan : CanFit cfg due (sampleInEffect cfg q due)
    · exact .inl ⟨hcan, hless hcan⟩
    · exact .inr ⟨fun hraises => hcan (hraised hraises), hcan⟩

theorem selfConsistent_inside (hover : OverTarget cfg q due)
    (hfits : lane cfg due (sampleInEffect cfg q due) cfg.concurrency ≤ interval cfg) :
    SelfConsistent cfg q due ↔
      ∀ short, Shortens cfg q due (sampleInEffect cfg q due) short →
        drain q due (sampleInEffect cfg q due) short < drainNow cfg q due := by
  rw [selfConsistent_short (drain_of_over hover.1) hover.2 (planned_inEffect hover.1)
    (planned_cycles hover.1) hfits]
  refine forall_congr' fun short => ?_
  rw [shorterPeriod_iff (rows_inEffect hover.1)]
  rfl

theorem interval_of_shortens {sample short : ℕ} (h : Shortens cfg q due sample short) :
    lane cfg due sample cfg.concurrency ≤ short ∧ short < interval cfg := by
  obtain ⟨-, -, hmax, hshort⟩ := h
  unfold saturateUnsigned at hshort
  omega

theorem selfConsistent_iff_fits : SelfConsistent cfg q due ↔ AdviceFits cfg q due := by
  unfold AdviceFits
  by_cases hover : OverTarget cfg q due
  · rw [forall_prop_of_true hover]
    by_cases hlong : interval cfg < lane cfg due (sampleInEffect cfg q due) cfg.concurrency
    · rw [selfConsistent_overrun hover hlong, forall_prop_of_true hlong]
      refine and_congr_right' (and_iff_left ?_).symm
      intro short hshort
      have hinside := interval_of_shortens hshort
      omega
    · rw [selfConsistent_inside hover (Nat.le_of_not_lt hlong)]
      have hfit : CanFit cfg due (sampleInEffect cfg q due) :=
        ⟨cfg.concurrency, .inl rfl, Nat.le_of_not_lt hlong⟩
      constructor
      · exact fun h => ⟨fun _ => hfit, fun hlong' => absurd hlong' hlong, h⟩
      · exact fun h => h.2.2
  · exact iff_of_true (selfConsistent_of_within hover) fun hover' => absurd hover' hover

theorem canFit_iff_highest (h : Regular cfg q) {sample : ℕ}
    (hs : sample ≤ max cfg.sampleSize 500) :
    CanFit cfg due sample ↔ lane cfg due sample (max cfg.concurrency 64) ≤ interval cfg := by
  have hconcurrency := h.concurrency
  constructor
  · rintro ⟨parallel, hparallel, hfits⟩
    exact (h.lane_antitone hs (by omega) (by omega)).trans hfits
  · intro hfits
    obtain hhigh | hlow := Nat.lt_or_ge cfg.concurrency 64
    · rw [Nat.max_eq_right hhigh.le] at hfits
      exact ⟨64, .inr ⟨hhigh, le_rfl⟩, hfits⟩
    · rw [Nat.max_eq_left hlow] at hfits
      exact ⟨cfg.concurrency, .inl rfl, hfits⟩

theorem fits_iff_settles (h : Regular cfg q) : AdviceFits cfg q due ↔ Settles cfg q due := by
  unfold AdviceFits Settles
  refine forall_congr' fun hover => ?_
  by_cases hraises : RaisesSample cfg q due
  · have heffect : sampleInEffect cfg q due = neededSample cfg q due := if_pos hraises
    have hneeded := (neededSample_bounds cfg q due).2
    have hs : neededSample cfg q due ≤ max cfg.sampleSize 500 := by omega
    have hrows := rows_inEffect (q := q) hover.1
    rw [if_pos hraises, forall_prop_of_true hraises]
    rw [heffect] at hrows ⊢
    rw [canFit_iff_highest h hs]
    -- any period up to the one in effect drains no later than the raised sample does
    have hsooner : ∀ short ≤ period cfg due (neededSample cfg q due),
        drain q due (neededSample cfg q due) short < drainNow cfg q due :=
      fun short hle => (h.drain_mono hs hrows hle (h.period_le due hs)).trans_lt hraises.2.2
    refine and_iff_left ⟨fun _ _ => hsooner _ (Nat.le_max_left _ _), fun short hshort => ?_⟩
    have hinside := interval_of_shortens hshort
    exact hsooner short (hinside.2.le.trans (Nat.le_max_left _ _))
  · have heffect : sampleInEffect cfg q due = cfg.sampleSize := if_neg hraises
    have hs : cfg.sampleSize ≤ max cfg.sampleSize 500 := Nat.le_max_left _ _
    have hbound := h.period_le due hs
    rw [if_neg hraises, heffect, canFit_iff_highest h hs]
    rw [and_iff_right fun hraises' => absurd hraises' hraises]
    refine and_congr ?_ (forall_congr' fun short => forall_congr' fun hshort => ?_)
    · refine forall_congr' fun hlong => forall_congr' fun _ => ?_
      have hperiod : period cfg due cfg.sampleSize = lane cfg due cfg.sampleSize cfg.concurrency :=
        Nat.max_eq_right hlong.le
      unfold drainNow EndsBetween
      rw [hperiod] at hbound ⊢
      exact h.drain_lt_iff hs hover.1 (by omega) hbound
    · have hinside := interval_of_shortens hshort
      have hperiod : period cfg due cfg.sampleSize = interval cfg := Nat.max_eq_left (by omega)
      unfold drainNow EndsBetween
      rw [hperiod]
      exact h.drain_lt_iff hs hover.1 (by omega) (by omega)

/-- The advice of the banner is self-consistent exactly where the figures of the configuration and
of the two counts settle it. -/
theorem advice_selfConsistent_iff (cfg : ProbeSettings) (quarantineCount dueCount : ℤ) :
    (Regular cfg quarantineCount →
      (SelfConsistent cfg quarantineCount dueCount ↔ Settles cfg quarantineCount dueCount)) ∧
    (SelfConsistent cfg quarantineCount dueCount ↔ AdviceFits cfg quarantineCount dueCount) :=
  ⟨fun h => selfConsistent_iff_fits.trans (fits_iff_settles h), selfConsistent_iff_fits⟩

/-- The default settings with 10 000 rows due: the raised sample takes 980 seconds of a minute. -/
theorem raised_sample_overruns : ¬SelfConsistent {} 10000 10000 := by
  intro h
  have hne : advice {} 10000 10000 ≠ [] := by decide +kernel
  have hover : (advised {} 10000 10000).cycleIntervalSecs < (advised {} 10000 10000).laneSecs := by
    decide +kernel
  exact absurd (h.fits hne) (Nat.not_le.mpr hover)

end SelfConsistent

end TuningAdvice
