import Fumox.CycleModel

/-!
The figures of a probe cycle as numbers of the configuration and the two counts: the rows that it
takes, the seconds of its lane, and the minutes until the queue is empty.  They are monotone where
none of them passes its width.
-/

namespace CycleFigures

open MachineInt CycleModel

section Figures

variable (cfg : ProbeSettings) (q due : ℤ) (sample parallel : ℕ)

def interval : ℕ := max cfg.cycleIntervalSecs 1

def checkTime : ℕ :=
  max (saturateUnsigned 64 (cfg.connectTimeoutSecs + cfg.tlsTimeoutSecs)) 1

/-- The rows that a cycle with this sample takes. -/
def rows : ℤ := min (sample : ℤ) (max due 0)

/-- The seconds of the lane, with so many checks at once. -/
def lane : ℕ :=
  if rows due sample = 0 then 0
  else unsigned 64
    (unsigned 64 (ceilDiv (rows due sample) (max parallel 1 : ℕ)) * checkTime cfg)

def cycles : ℤ := signed 64 (ceilDiv q (rows due sample))

/-- The minutes until the queue is empty, with so many seconds from cycle to cycle. -/
def drain (period : ℕ) : ℕ := minutesOf (cycles q due sample) period

/-- The seconds from cycle to cycle at the configured concurrency. -/
def period : ℕ := max (interval cfg) (lane cfg due sample cfg.concurrency)

def drainNow : ℕ := drain q due cfg.sampleSize (period cfg due cfg.sampleSize)

theorem derive_laneSecs :
    (deriveCycleModel (modelInputs cfg) q due sample parallel).laneSecs =
      lane cfg due sample parallel := rfl

theorem derive_cycles :
    (deriveCycleModel (modelInputs cfg) q due sample parallel).cyclesToDrain =
      if 0 < rows due sample then some (cycles q due sample) else none := rfl

theorem derive_drainMinutes (h : 0 < rows due sample) :
    (deriveCycleModel (modelInputs cfg) q due sample cfg.concurrency).drainMinutes =
      some (drain q due sample (period cfg due sample)) := by
  have hcycles := derive_cycles cfg q due sample cfg.concurrency
  rw [if_pos h] at hcycles
  exact congrArg (Option.map fun cycles => minutesOf cycles (period cfg due sample)) hcycles

/-- The figures of the cycle, with any sample up to 500 or the configured one, fit their widths. -/
structure Regular : Prop where
  nonneg : 0 ≤ q
  concurrency : cfg.concurrency < 2 ^ 64
  room : (q + 1) * ((interval cfg + max cfg.sampleSize 500 * checkTime cfg : ℕ) : ℤ) < 2 ^ 63

end Figures

example : Regular {} 10000 := ⟨by decide, by decide, by decide +kernel⟩

theorem ceilDiv_le_iff {n d k : ℤ} (hn : 0 ≤ n) (hd : 0 < d) (hroom : n + d < 2 ^ 126) :
    ceilDiv n d ≤ k ↔ n ≤ k * d := by
  rw [ceilDiv_eq_ediv hn hd (by omega), ← Int.lt_add_one_iff, Int.ediv_lt_iff_lt_mul hd,
    Int.add_mul]
  omega

theorem ceilDiv_nonneg {n d : ℤ} (hn : 0 ≤ n) (hd : 0 < d) (hroom : n + d < 2 ^ 126) :
    0 ≤ ceilDiv n d := by
  by_contra hneg
  have hle := (ceilDiv_le_iff hn hd hroom).mp (show ceilDiv n d ≤ -1 by omega)
  omega

section Regular

variable {cfg : ProbeSettings} {q due : ℤ} {sample parallel : ℕ}

theorem interval_pos (cfg : ProbeSettings) : 1 ≤ interval cfg := Nat.le_max_right _ _

theorem checkTime_pos (cfg : ProbeSettings) : 1 ≤ checkTime cfg := Nat.le_max_right _ _

theorem rows_nonneg (due : ℤ) (sample : ℕ) : 0 ≤ rows due sample := by
  unfold rows
  omega

theorem rows_le (due : ℤ) (sample : ℕ) : rows due sample ≤ sample := min_le_left _ _

namespace Regular

theorem figures_lt (h : Regular cfg q) :
    interval cfg + max cfg.sampleSize 500 * checkTime cfg < 2 ^ 63 := by
  have hroom := h.room
  have hnonneg := h.nonneg
  have hle : (1 : ℤ) * ((interval cfg + max cfg.sampleSize 500 * checkTime cfg : ℕ) : ℤ) ≤
      (q + 1) * ((interval cfg + max cfg.sampleSize 500 * checkTime cfg : ℕ) : ℤ) :=
    mul_le_mul_of_nonneg_right (by omega) (Int.natCast_nonneg _)
  omega

theorem count_lt (h : Regular cfg q) : q < 2 ^ 63 := by
  have hroom := h.room
  have hnonneg := h.nonneg
  have hpos := interval_pos cfg
  have hle : (q + 1) * 1 ≤
      (q + 1) * ((interval cfg + max cfg.sampleSize 500 * checkTime cfg : ℕ) : ℤ) :=
    mul_le_mul_of_nonneg_left (by omega) (by omega)
  omega

theorem sample_lt (h : Regular cfg q) (hs : sample ≤ max cfg.sampleSize 500) :
    sample * checkTime cfg < 2 ^ 63 ∧ sample < 2 ^ 63 := by
  have hfigures := h.figures_lt
  have hpos := checkTime_pos cfg
  have hmul := Nat.mul_le_mul_right (checkTime cfg) hs
  have hone := Nat.mul_le_mul_left sample hpos
  omega

theorem lane_eq (h : Regular cfg q) (due : ℤ) (hs : sample ≤ max cfg.sampleSize 500)
    (hp : parallel < 2 ^ 64) :
    0 ≤ ceilDiv (rows due sample) (max parallel 1 : ℕ) ∧
      ceilDiv (rows due sample) (max parallel 1 : ℕ) ≤ sample ∧
      lane cfg due sample parallel =
        (ceilDiv (rows due sample) (max parallel 1 : ℕ)).toNat * checkTime cfg := by
  obtain ⟨hproduct, hsample⟩ := h.sample_lt hs
  have hrows := rows_nonneg due sample
  have hle := rows_le due sample
  have hd : (1 : ℤ) ≤ (max parallel 1 : ℕ) := by omega
  have hroom : rows due sample + (max parallel 1 : ℕ) < 2 ^ 126 := by omega
  have hn := ceilDiv_nonneg hrows (by omega) hroom
  have hup : ceilDiv (rows due sample) (max parallel 1 : ℕ) ≤ sample := by
    rw [ceilDiv_le_iff hrows (by omega) hroom]
    exact hle.trans (le_mul_of_one_le_right (by omega) hd)
  refine ⟨hn, hup, ?_⟩
  unfold lane
  split_ifs with hzero
  · have hnone : ceilDiv (rows due sample) (max parallel 1 : ℕ) ≤ 0 := by
      rw [ceilDiv_le_iff hrows (by omega) hroom]
      omega
    rw [Int.toNat_of_nonpos hnone, Nat.zero_mul]
  · generalize ceilDiv (rows due sample) (max parallel 1 : ℕ) = batches at hn hup ⊢
    obtain ⟨n, rfl⟩ := Int.eq_ofNat_of_zero_le hn
    have hmul : n * checkTime cfg ≤ sample * checkTime cfg :=
      Nat.mul_le_mul_right _ (Int.ofNat_le.mp hup)
    rw [unsigned_natCast, Nat.mod_eq_of_lt (by omega), Int.toNat_natCast, ← Int.natCast_mul,
      unsigned_natCast, Nat.mod_eq_of_lt (by omega)]

theorem lane_le (h : Regular cfg q) (due : ℤ) (hs : sample ≤ max cfg.sampleSize 500)
    (hp : parallel < 2 ^ 64) :
    lane cfg due sample parallel ≤ max cfg.sampleSize 500 * checkTime cfg := by
  obtain ⟨-, hle, hlane⟩ := h.lane_eq due hs hp
  rw [hlane]
  exact Nat.mul_le_mul_right _ (by omega)

theorem lane_antitone (h : Regular cfg q) (hs : sample ≤ max cfg.sampleSize 500) {more : ℕ}
    (hmore : parallel ≤ more) (hp : more < 2 ^ 64) :
    lane cfg due sample more ≤ lane cfg due sample parallel := by
  obtain ⟨hproduct, hsample⟩ := h.sample_lt hs
  obtain ⟨hn, -, hlane⟩ := h.lane_eq due hs (hmore.trans_lt hp)
  obtain ⟨-, -, hlane'⟩ := h.lane_eq due hs hp
  have hrows := rows_nonneg due sample
  have hle := rows_le due sample
  rw [hlane, hlane']
  apply Nat.mul_le_mul_right
  apply Int.toNat_le_toNat
  have hself := (ceilDiv_le_iff hrows (d := (max parallel 1 : ℕ)) (by omega)
    (by omega)).mp le_rfl
  rw [ceilDiv_le_iff hrows (by omega) (by omega)]
  exact hself.trans (mul_le_mul_of_nonneg_left (by omega) hn)

theorem cycles_bounds (h : Regular cfg q) (hs : sample ≤ max cfg.sampleSize 500)
    (hrows : 0 < rows due sample) : 0 ≤ cycles q due sample ∧ cycles q due sample ≤ q := by
  have hnonneg := h.nonneg
  have hcount := h.count_lt
  have hle := rows_le due sample
  obtain ⟨-, hsample⟩ := h.sample_lt hs
  have hroom : q + rows due sample < 2 ^ 126 := by omega
  have hn := ceilDiv_nonneg hnonneg hrows hroom
  have hup : ceilDiv q (rows due sample) ≤ q := by
    rw [ceilDiv_le_iff hnonneg hrows hroom]
    exact le_mul_of_one_le_right hnonneg hrows
  have hself : cycles q due sample = ceilDiv q (rows due sample) :=
    signed_eq_self ⟨by omega, by omega⟩
  rw [hself]
  exact ⟨hn, hup⟩

theorem drain_le_iff (h : Regular cfg q) (hs : sample ≤ max cfg.sampleSize 500)
    (hrows : 0 < rows due sample) {seconds minutes : ℕ}
    (hseconds : seconds ≤ interval cfg + max cfg.sampleSize 500 * checkTime cfg) :
    drain q due sample seconds ≤ minutes ↔ cycles q due sample * seconds ≤ minutes * 60 := by
  obtain ⟨hzero, hle⟩ := h.cycles_bounds hs hrows
  have hroom := h.room
  have hmul : cycles q due sample * seconds ≤
      (q + 1) * ((interval cfg + max cfg.sampleSize 500 * checkTime cfg : ℕ) : ℤ) :=
    mul_le_mul (by omega) (by omega) (by omega) (by omega)
  have hpos : 0 ≤ cycles q due sample * seconds := mul_nonneg hzero (Int.natCast_nonneg _)
  have hexact : mulI128 (cycles q due sample) seconds = cycles q due sample * seconds :=
    saturateSigned_eq_self (by omega) (by omega)
  have hiff := fun k : ℤ => @ceilDiv_le_iff (cycles q due sample * seconds) 60 k hpos (by omega)
    (by omega)
  have hn := ceilDiv_nonneg (d := 60) hpos (by omega) (by omega)
  have hup := (hiff (2 ^ 63)).mpr (by omega)
  unfold drain minutesOf
  rw [hexact]
  have hcast : (unsigned 64 (ceilDiv (cycles q due sample * seconds) 60) : ℤ) =
      ceilDiv (cycles q due sample * seconds) 60 := unsigned_cast_iff.mpr ⟨hn, by omega⟩
  rw [← Int.ofNat_le, hcast]
  exact hiff minutes

/-- The drain takes fewer minutes exactly if the end of a minute lies between the two. -/
theorem drain_lt_iff (h : Regular cfg q) (hs : sample ≤ max cfg.sampleSize 500)
    (hrows : 0 < rows due sample) {a b : ℕ}
    (ha : a ≤ interval cfg + max cfg.sampleSize 500 * checkTime cfg)
    (hb : b ≤ interval cfg + max cfg.sampleSize 500 * checkTime cfg) :
    drain q due sample a < drain q due sample b ↔
      ∃ minutes : ℕ, cycles q due sample * a ≤ minutes * 60 ∧
        (minutes : ℤ) * 60 < cycles q due sample * b := by
  constructor
  · intro hless
    refine ⟨drain q due sample a, (h.drain_le_iff hs hrows ha).mp le_rfl, ?_⟩
    rw [← not_le, ← h.drain_le_iff hs hrows hb]
    exact not_le.mpr hless
  · rintro ⟨minutes, hle, hlt⟩
    rw [← h.drain_le_iff hs hrows ha] at hle
    rw [← not_le, ← h.drain_le_iff hs hrows hb, not_le] at hlt
    exact hle.trans_lt hlt

theorem drain_mono (h : Regular cfg q) (hs : sample ≤ max cfg.sampleSize 500)
    (hrows : 0 < rows due sample) {a b : ℕ} (hab : a ≤ b)
    (hb : b ≤ interval cfg + max cfg.sampleSize 500 * checkTime cfg) :
    drain q due sample a ≤ drain q due sample b := by
  obtain ⟨hzero, -⟩ := h.cycles_bounds hs hrows
  have hself := (h.drain_le_iff hs hrows hb).mp le_rfl
  rw [h.drain_le_iff hs hrows (hab.trans hb)]
  exact (mul_le_mul_of_nonneg_left (Int.ofNat_le.mpr hab) hzero).trans hself

theorem period_le (h : Regular cfg q) (due : ℤ) (hs : sample ≤ max cfg.sampleSize 500) :
    period cfg due sample ≤ interval cfg + max cfg.sampleSize 500 * checkTime cfg := by
  have hlane := h.lane_le due hs h.concurrency
  unfold period
  omega

end Regular

end Regular

end CycleFigures
