import Fumox.ConfigLoader
import Fumox.CycleCharges

/-!
A row on the quarantine ladder.  Due checks follow one another, each under the configuration of its
own moment; between them anything may happen that leaves the lifecycle columns of the row alone.
-/

namespace LadderWalk

open RustText ProxyModels ProxyStore ProbeLifecycle ProbeCycle CycleCharges

/-- A quarantine check: the configuration in force, with delays that the loader accepts, the moment
of the selection and the judgement. -/
structure LadderCheck where
  config : CycleConfig
  delays_pos : ∀ d ∈ config.recheckDelays, 1 ≤ d
  selectedAt : ℤ
  judgement : Judgement

namespace LadderCheck

def delays (c : LadderCheck) : List ℤ := c.config.recheckDelays

def run (c : LadderCheck) (s : Store) : Store := judge c.config s c.judgement

def failed (c : LadderCheck) : Bool :=
  match c.judgement.finding with
  | .down _ => true
  | _ => false

end LadderCheck

def laneDue (lane : Lane) (now : ℤ) (r : ProxyRow) : Bool :=
  match lane with
  | .quarantine => dueQuarantineLane now r
  | .quarantineT2 => dueQuarantineT2Lane now r
  | .t1 | .t2 => false

/-- The check selected the row while it was due, and found what its lane can find. -/
structure Due (id : ℕ) (s : Store) (c : LadderCheck) : Prop where
  selected : ∃ row, rowAt id s = some row ∧
    c.judgement.check = ⟨id, c.judgement.check.lane, row.ladderStep⟩ ∧
    laneDue c.judgement.check.lane c.selectedAt row = true
  allowed : Allowed c.config c.judgement

inductive Walk (id : ℕ) (s₀ : Store) : List LadderCheck → Store → Prop
  | start : Walk id s₀ [] s₀
  | check {log s c} : Walk id s₀ log s → Due id s c → Walk id s₀ (log ++ [c]) (c.run s)
  | other {log s s'} : Walk id s₀ log s →
      (rowAt id s').map (·.toLifecycle) = (rowAt id s).map (·.toLifecycle) → Walk id s₀ log s'

def failures (log : List LadderCheck) : ℕ := log.countP (·.failed)

def Leaves (c : LadderCheck) (k : ℕ) (row row' : ProxyRow) : Prop :=
  match c.judgement.finding with
  | .down _ =>
    if hk : k < c.delays.length then
      row'.status = .quarantine ∧ row'.ladderAt = some (c.judgement.now + c.delays[k]) ∧
        row'.ladderStep = k + 1
    else row'.status = .removed
  | .up _ =>
    (row'.status = .alive ∨ row'.status = .ready) ∧ row'.ladderStep = 0 ∧ row'.failCount = 0 ∧
      row'.ladderAt = none ∧ row'.quarantinedAt = none
  | .engineDown => row' = row

variable {id : ℕ} {s s₀ : Store} {c : LadderCheck} {log : List LadderCheck} {row : ProxyRow}

theorem laneDue_quarantine {lane : Lane} {now : ℤ} (h : laneDue lane now row = true) :
    row.status = .quarantine ∧ (lane = .quarantine ∨ lane = .quarantineT2) := by
  cases lane with
  | t1 | t2 => cases h
  | quarantine =>
    simp only [laneDue, dueQuarantineLane, ladderDue, Bool.and_eq_true, beq_iff_eq] at h
    exact ⟨h.1.1, .inl rfl⟩
  | quarantineT2 =>
    simp only [laneDue, dueQuarantineT2Lane, ladderDue, Bool.and_eq_true, beq_iff_eq] at h
    exact ⟨h.1.1, .inr rfl⟩

theorem rowAt_journaled (s : Store) (j : Judgement) : rowAt id (journaled s j) = rowAt id s := by
  rw [rowAt, proxies_journaled, rowAt]

theorem rowAt_run (hdue : Due id s c) :
    ∃ row, rowAt id s = some row ∧ row.status = .quarantine ∧
      rowAt id (c.run s) = some
        (judgedRow c.config.toProbeConfig c.judgement.check
          (outcome (journaled s c.judgement) c.judgement) c.judgement.now row) ∧
      c.judgement.check.ladderStep = row.ladderStep ∧
      (c.judgement.check.lane = .quarantine ∨ c.judgement.check.lane = .quarantineT2) := by
  obtain ⟨row, hrow, hcheck, hlane⟩ := hdue.selected
  obtain ⟨hheld, hlanes⟩ := laneDue_quarantine hlane
  have hid : c.judgement.check.id = id := by rw [hcheck]
  have hstep : c.judgement.check.ladderStep = row.ladderStep := by rw [hcheck]
  refine ⟨row, hrow, hheld, ?_, hstep, hlanes⟩
  have hjournaled : rowAt id (journaled s c.judgement) = rowAt id s := rowAt_journaled s c.judgement
  rw [hrow] at hjournaled
  rw [LadderCheck.run, judge_eq]
  unfold applyVerdict judgedRow
  rw [hid]
  rcases hlanes with hl | hl
  · rw [hl]
    cases outcome (journaled s c.judgement) c.judgement with
    | succeeded latencyMs reset =>
      simp [rowAt_checkSucceeded, hjournaled]
    | failed jitter =>
      simp [rowAt_quarantineCheckFailed, hjournaled]
    | engineUnavailable => simpa using hjournaled
  · rw [hl]
    cases outcome (journaled s c.judgement) c.judgement with
    | succeeded latencyMs reset =>
      simp [rowAt_checkSucceeded, hjournaled]
    | failed jitter =>
      simp [rowAt_quarantineCheckFailed, hjournaled]
    | engineUnavailable =>
      simp [rowAt_checkEngineUnavailable, hjournaled]

theorem afterSuccess_leaves (now : ℤ) (latencyMs : Option ℤ) (tier : ProxyStatus)
    (hheld : row.status = .quarantine) :
    ((afterSuccess now latencyMs true tier row).status = .alive ∨
        (afterSuccess now latencyMs true tier row).status = .ready) ∧
      (afterSuccess now latencyMs true tier row).ladderStep = 0 ∧
      (afterSuccess now latencyMs true tier row).failCount = 0 ∧
      (afterSuccess now latencyMs true tier row).ladderAt = none ∧
      (afterSuccess now latencyMs true tier row).quarantinedAt = none := by
  have hpresent : ¬row.status = .removed := by simp [hheld]
  rw [afterSuccess, if_neg hpresent]
  refine ⟨?_, rfl, rfl, rfl, rfl⟩
  by_cases htier : tier = .ready <;> simp [succeededSet, htier, hheld]

theorem afterRecheck_leaves {delays : List ℤ} {k : ℕ} (now : ℤ)
    (hdelays : ∀ d ∈ delays, 0 ≤ d) (hheld : row.status = .quarantine) :
    if hk : k < delays.length then
      (afterRecheck delays now k row).status = .quarantine ∧
        (afterRecheck delays now k row).ladderAt = some (now + delays[k]) ∧
        (afterRecheck delays now k row).ladderStep = k + 1
    else (afterRecheck delays now k row).status = .removed := by
  have hrung : (max (k : ℤ) 0).toNat = k := by omega
  unfold afterRecheck
  rw [if_pos hheld, hrung]
  split_ifs with hk
  · rw [List.getElem?_eq_getElem hk]
    have hdelay := hdelays _ (List.getElem_mem hk)
    refine ⟨hheld, ?_, rfl⟩
    simp [ladderAdvancedSet, max_eq_left hdelay]
  · rw [List.getElem?_eq_none (by omega)]
    rfl

theorem afterOutage_quarantine (now : ℤ) (hheld : row.status = .quarantine) :
    afterOutage now row = row := by
  have hregular : regularState row = false := by simp [regularState, hheld]
  simp [afterOutage, hregular]

theorem due_check {k : ℕ} (hdue : Due id s c) (hrow : rowAt id s = some row)
    (hrung : row.ladderStep = k) :
    ∃ row', rowAt id (c.run s) = some row' ∧ Leaves c k row row' := by
  obtain ⟨row₁, hrow₁, hheld, hafter, hstep, hlanes⟩ := rowAt_run hdue
  obtain rfl : row₁ = row := Option.some.inj (hrow₁.symm.trans hrow)
  refine ⟨_, hafter, ?_⟩
  have hdelays : ∀ d ∈ c.delays, 0 ≤ d := fun d hd => by
    have hpos := c.delays_pos d hd
    omega
  have hallowed := hdue.allowed
  unfold Leaves judgedRow outcome
  unfold Allowed at hallowed
  rw [hstep, hrung]
  cases hfinding : c.judgement.finding with
  | up latencyMs =>
    rcases hlanes with hl | hl <;> rw [hl] <;> exact afterSuccess_leaves _ _ _ hheld
  | down jitter =>
    rcases hlanes with hl | hl <;> rw [hl] <;> exact afterRecheck_leaves _ hdelays hheld
  | engineDown =>
    rw [hfinding] at hallowed
    rcases hlanes with hl | hl
    · simp [hl, Lane.Tunnel] at hallowed
    · rw [hl]
      exact afterOutage_quarantine _ hheld

theorem loaded_delays_pos (config : ConfigLoader.AppConfig) :
    ∃ l, config.get ⟨"probe", "recheck_delays_secs"⟩ = some (.delays l) ∧ ∀ d ∈ l, 1 ≤ d := by
  obtain ⟨v, hv, htype⟩ := config.hasType_get
    (f := ⟨⟨"probe", "recheck_delays_secs"⟩, .delays, .delays [15 * 60, 30 * 60, 60 * 60]⟩)
    (by decide +kernel)
  cases v with
  | delays l => exact ⟨l, hv, fun d hd => (htype.2 d hd).1⟩
  | _ => exact htype.elim

/-- A walk from rung `j`: while the row waits, its rung counts the failures, and none of them found
a single list of delays exhausted. -/
def OnLadder (id j : ℕ) (log : List LadderCheck) (s : Store) : Prop :=
  ∃ row, rowAt id s = some row ∧
    (row.status = .quarantine → row.ladderStep = (j + failures log : ℕ) ∧
      ∀ ds : List ℤ, j ≤ ds.length → (∀ x ∈ log, x.delays = ds) → j + failures log ≤ ds.length)

theorem failures_snoc (log : List LadderCheck) (c : LadderCheck) :
    failures (log ++ [c]) = failures log + if c.failed then 1 else 0 := by
  simp [failures, List.countP_append, List.countP_cons]

theorem OnLadder.rung {j : ℕ} (h : OnLadder id j log s) (hdue : Due id s c) :
    ∃ row, rowAt id s = some row ∧ row.ladderStep = (j + failures log : ℕ) ∧
      ∀ ds : List ℤ, j ≤ ds.length → (∀ x ∈ log, x.delays = ds) →
        j + failures log ≤ ds.length := by
  obtain ⟨row, hrow, hwaits⟩ := h
  obtain ⟨row₁, hrow₁, -, hlane⟩ := hdue.selected
  obtain rfl : row₁ = row := Option.some.inj (hrow₁.symm.trans hrow)
  exact ⟨row₁, hrow, hwaits (laneDue_quarantine hlane).1⟩

theorem OnLadder.check {j : ℕ} (h : OnLadder id j log s) (hdue : Due id s c) :
    OnLadder id j (log ++ [c]) (c.run s) := by
  obtain ⟨row, hrow, hrung, hbound⟩ := h.rung hdue
  obtain ⟨row', hrow', hleaves⟩ := due_check hdue hrow hrung
  refine ⟨row', hrow', fun hwaits => ?_⟩
  have hbefore : ∀ ds : List ℤ, (∀ x ∈ log ++ [c], x.delays = ds) → ∀ x ∈ log, x.delays = ds :=
    fun ds hall x hx => hall x (List.mem_append_left _ hx)
  rw [failures_snoc]
  unfold Leaves at hleaves
  unfold LadderCheck.failed
  cases hfinding : c.judgement.finding with
  | up latencyMs =>
    rw [hfinding] at hleaves
    rcases hleaves.1 with hup | hup <;> simp [hup] at hwaits
  | engineDown =>
    rw [hfinding] at hleaves
    subst hleaves
    exact ⟨hrung, fun ds hj hall => hbound ds hj (hbefore ds hall)⟩
  | down jitter =>
    rw [hfinding] at hleaves
    simp only at hleaves
    split_ifs at hleaves with hk
    · have hnext := hleaves.2.2
      refine ⟨?_, fun ds _ hall => ?_⟩
      · simp only [if_true]
        omega
      · have hds : c.delays = ds := hall c (by simp)
        subst hds
        simp only [if_true]
        omega
    · simp [hleaves] at hwaits

theorem onLadder_walk {j : ℕ} (hrow : rowAt id s₀ = some row) (hrung : row.ladderStep = j)
    (hwalk : Walk id s₀ log s) : OnLadder id j log s := by
  induction hwalk with
  | start =>
    have hnone : failures [] = 0 := rfl
    refine ⟨row, hrow, fun _ => ?_⟩
    rw [hnone]
    exact ⟨hrung, fun ds hj _ => hj⟩
  | check _ hdue ih => exact ih.check hdue
  | other _ hsame ih =>
    obtain ⟨r, hr, hwaits⟩ := ih
    rw [hr] at hsame
    obtain ⟨r', hr', hlifecycle⟩ := Option.map_eq_some_iff.mp hsame
    refine ⟨r', hr', fun hheld => ?_⟩
    have hstatus : r'.status = r.status := congrArg (·.status) hlifecycle
    have hstep : r'.ladderStep = r.ladderStep := congrArg (·.ladderStep) hlifecycle
    rw [hstep]
    exact hwaits (hstatus ▸ hheld)

/-- A due check after any walk of due checks from rung `j` on: a failure takes the delay of its own
rung or removes the row past the last one, a success clears the ladder, an engine fault changes
nothing.  Under a single list of delays the removal comes at the failure after its last delay. -/
theorem ladder_walk {j : ℕ} (hrow : rowAt id s₀ = some row) (hrung : row.ladderStep = j)
    (hwalk : Walk id s₀ log s) (hdue : Due id s c) :
    ∃ before after, rowAt id s = some before ∧ rowAt id (c.run s) = some after ∧
      before.status = .quarantine ∧ Leaves c (j + failures log) before after ∧
      ∀ ds : List ℤ, j ≤ ds.length → (∀ x ∈ log ++ [c], x.delays = ds) →
        (after.status = .removed ↔ c.failed = true ∧ j + failures log = ds.length) := by
  obtain ⟨before, hbefore, hstep, hbound⟩ := (onLadder_walk hrow hrung hwalk).rung hdue
  obtain ⟨after, hafter, hleaves⟩ := due_check hdue hbefore hstep
  obtain ⟨row₁, hrow₁, -, hlane⟩ := hdue.selected
  have hheld : before.status = .quarantine := by
    obtain rfl : row₁ = before := Option.some.inj (hrow₁.symm.trans hbefore)
    exact (laneDue_quarantine hlane).1
  refine ⟨before, after, hbefore, hafter, hheld, hleaves, fun ds hj hall => ?_⟩
  have hk := hbound ds hj fun x hx => hall x (List.mem_append_left _ hx)
  have hds : c.delays = ds := hall c (by simp)
  unfold Leaves at hleaves
  unfold LadderCheck.failed
  cases hfinding : c.judgement.finding with
  | up latencyMs =>
    rw [hfinding] at hleaves
    rcases hleaves.1 with hup | hup <;> simp [hup]
  | engineDown =>
    rw [hfinding] at hleaves
    subst hleaves
    simp [hheld]
  | down jitter =>
    rw [hfinding] at hleaves
    simp only at hleaves
    subst hds
    split_ifs at hleaves with hroom
    · have hne : ¬j + failures log = c.delays.length := by omega
      simp [hleaves.1, hne]
    · have heq : j + failures log = c.delays.length := by omega
      simp [hleaves, heq]

section Samples

def secondChanceRow : ProxyRow :=
  { status := .quarantine, failCount := 2, quarantinedAt := some 100, ladderAt := some 500, id := 1,
    fingerprint := "f", scheme := .trojan, name := "n", host := "h", port := 443,
    credential := "u", params := none, unknownParams := none, rawLine := none,
    createdAt := 0, updatedAt := 100 }

def refused (now step : ℤ) (delays : List ℤ) (h : ∀ d ∈ delays, 1 ≤ d) : LadderCheck where
  config :=
    { failLimit := 2, secondChanceMinSecs := 400, secondChanceSpreadSecs := 0
      recheckDelays := delays, sampleSize := 10 }
  delays_pos := h
  selectedAt := now
  judgement := ⟨⟨1, .quarantine, step⟩, "tls", .down 0, now⟩

/-- The second chance and the recheck fail; the list lost its second entry in between. -/
theorem ladder_walk_sample :
    ∃ before after,
      rowAt 1 ((refused 500 0 [900, 1800] (by decide)).run { proxies := [secondChanceRow] }) =
          some before ∧
        rowAt 1 ((refused 1400 1 [900] (by decide)).run
          ((refused 500 0 [900, 1800] (by decide)).run { proxies := [secondChanceRow] })) =
          some after ∧
        before.status = .quarantine ∧ after.status = .removed := by
  have hfirst : Due 1 { proxies := [secondChanceRow] } (refused 500 0 [900, 1800] (by decide)) :=
    ⟨⟨secondChanceRow, by decide, by decide, by decide⟩, by decide⟩
  have hsecond : Due 1
      ((refused 500 0 [900, 1800] (by decide)).run { proxies := [secondChanceRow] })
      (refused 1400 1 [900] (by decide)) :=
    ⟨⟨_, rfl, by decide, by decide⟩, by decide⟩
  obtain ⟨before, after, hbefore, hafter, hheld, hleaves, -⟩ :=
    @ladder_walk 1 _ _ _ _ secondChanceRow 0 (by decide) (by decide)
      (.check .start hfirst) hsecond
  exact ⟨before, after, hbefore, hafter, hheld, hleaves⟩

end Samples

end LadderWalk
