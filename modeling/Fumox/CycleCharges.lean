import Fumox.LaneCoverage
import Fumox.ProbeCycle

/-!
What one probe cycle may do to one row: at most one rise of its fail counter and at most one step
on the quarantine ladder, whichever lanes select it.
-/

namespace CycleCharges

open RustText ProxyModels RowTable ProxyStore ProbeLifecycle ProbeCycle

/-- The primary keys of the two tables that the lanes select from. -/
structure Keys (s : Store) : Prop where
  proxies : (s.proxies.map (·.id)).Nodup
  requests : (s.requests.map (·.proxyId)).Nodup

def rowAt (id : ℕ) (s : Store) : Option ProxyRow :=
  s.proxies.find? (·.id == id)

/-- A counter that no statement writes below zero. -/
def charged (r : ProxyRow) : ℤ :=
  max r.failCount 0

def ladderPosition (r : ProxyRow) : ℤ :=
  max r.ladderStep 0

def columnAt (column : ProxyRow → ℤ) (id : ℕ) (s : Store) : ℤ :=
  ((rowAt id s).map column).getD 0

/-- By how much a column of a row rises from one store to the next. -/
def rise (column : ProxyRow → ℤ) (id : ℕ) (s s' : Store) : ℤ :=
  max 0 (columnAt column id s' - columnAt column id s)

/-- All rises of a column along the steps of a cycle. -/
def totalRise (cfg : CycleConfig) (column : ProxyRow → ℤ) (id : ℕ) : Store → List CycleStep → ℤ
  | _, [] => 0
  | s, step :: steps =>
    rise column id s (applyStep cfg s step) + totalRise cfg column id (applyStep cfg s step) steps

section Judgement

variable {cfg : CycleConfig} {s : Store} {id : ℕ} {r : ProxyRow}

theorem rowAt_updateProxies {guard : ProxyRow → Bool} {set : ProxyRow → ProxyRow}
    (hid : ∀ r, (set r).id = r.id) :
    rowAt id (s.updateProxies guard set) =
      (rowAt id s).map fun r => if guard r then set r else r := by
  have hkey : ((fun r : ProxyRow => r.id == id) ∘ fun r => if guard r then set r else r) =
      fun r => r.id == id := by
    funext r
    by_cases hguard : guard r = true <;> simp [hguard, hid]
  rw [rowAt, Store.proxies_updateProxies, updateWhere, List.find?_map, hkey]
  rfl

theorem rowAt_eq_some (hids : (s.proxies.map (·.id)).Nodup) :
    rowAt id s = some r ↔ r ∈ s.proxies ∧ r.id = id := by
  unfold rowAt
  constructor
  · intro hfind
    exact ⟨List.mem_of_find?_eq_some hfind, by simpa using List.find?_some hfind⟩
  · rintro ⟨hr, rfl⟩
    cases hfind : s.proxies.find? (·.id == r.id) with
    | none => simpa using List.find?_eq_none.mp hfind r hr
    | some x =>
      have hx : x.id = r.id := by simpa using List.find?_some hfind
      rw [List.inj_on_of_nodup_map hids (List.mem_of_find?_eq_some hfind) hr hx]

theorem find_regular (hids : (s.proxies.map (·.id)).Nodup) :
    s.proxies.find? (fun r => r.id == id && regularState r) =
      (rowAt id s).filter regularState :=
  find?_key_and hids

/-- What a failed regular check leaves of a row. -/
def afterFailure (cfg : ProbeConfig) (now jitter : ℤ) (mark : Bool) (r : ProxyRow) : ProxyRow :=
  if regularState r then
    if (cfg.failLimit : ℤ) ≤ r.failCount + 1 then
      quarantineSet now (r.failCount + 1) (now + cfg.secondChanceMinSecs + jitter) mark r
    else failedSet now (r.failCount + 1) mark r
  else r

def afterSuccess (now : ℤ) (latencyMs : Option ℤ) (reset : Bool) (tier : ProxyStatus)
    (r : ProxyRow) : ProxyRow :=
  if r.status = .removed then r else succeededSet now latencyMs reset tier r

/-- What a failed ladder check leaves of a row. -/
def afterRecheck (delays : List ℤ) (now step : ℤ) (r : ProxyRow) : ProxyRow :=
  if r.status = .quarantine then
    match delays[(max step 0).toNat]? with
    | none => ladderRemovedSet now r
    | some delay => ladderAdvancedSet now (now + max delay 0) (step + 1) r
  else r

def afterOutage (now : ℤ) (r : ProxyRow) : ProxyRow :=
  if regularState r then engineUnavailableSet now r else r

/-- What a judgement leaves of the row that it is about. -/
def judgedRow (cfg : ProbeConfig) (c : Check) (o : Outcome) (now : ℤ) (r : ProxyRow) : ProxyRow :=
  match c.lane, o with
  | .t1, .succeeded latencyMs reset => afterSuccess now latencyMs reset .alive r
  | .t1, .failed jitter => afterFailure cfg now jitter false r
  | .t2, .succeeded latencyMs _ => afterSuccess now latencyMs true .ready r
  | .t2, .failed jitter => afterFailure cfg now jitter true r
  | .quarantine, .succeeded latencyMs _ => afterSuccess now latencyMs true .alive r
  | .quarantineT2, .succeeded latencyMs _ => afterSuccess now latencyMs true .ready r
  | .quarantine, .failed _ | .quarantineT2, .failed _ =>
    afterRecheck cfg.recheckDelays now c.ladderStep r
  | .t2, .engineUnavailable | .quarantineT2, .engineUnavailable => afterOutage now r
  | .t1, .engineUnavailable | .quarantine, .engineUnavailable => r

theorem id_of_rowAt (h : rowAt id s = some r) : r.id = id := by
  simpa using List.find?_some h

theorem rowAt_updateOne (i : ℕ) (p : ProxyRow → Bool) {set : ProxyRow → ProxyRow}
    (hid : ∀ r, (set r).id = r.id) :
    rowAt id (s.updateProxies (fun r => r.id == i && p r) set) =
      if i = id then (rowAt id s).map fun r => if p r then set r else r else rowAt id s := by
  rw [rowAt_updateProxies hid]
  cases hrow : rowAt id s with
  | none => simp
  | some r =>
    have hrid := id_of_rowAt hrow
    by_cases hi : i = id
    · simp [hrid, hi]
    · have hne : ¬id = i := fun h => hi h.symm
      simp [hrid, hi, hne]

theorem rowAt_checkSucceeded (i : ℕ) (now : ℤ) (latencyMs : Option ℤ) (reset : Bool)
    (tier : ProxyStatus) :
    rowAt id (checkSucceeded s i now latencyMs reset tier).1 =
      if i = id then (rowAt id s).map (afterSuccess now latencyMs reset tier) else rowAt id s := by
  have hset : (fun r : ProxyRow => if (r.status != .removed) = true then
      succeededSet now latencyMs reset tier r else r) = afterSuccess now latencyMs reset tier := by
    funext r
    by_cases h : r.status = .removed <;> simp [afterSuccess, h]
  rw [← hset]
  exact rowAt_updateOne i (fun r => r.status != .removed) fun _ => rfl

theorem rowAt_checkEngineUnavailable (i : ℕ) (now : ℤ) :
    rowAt id (checkEngineUnavailable s i now).1 =
      if i = id then (rowAt id s).map (afterOutage now) else rowAt id s :=
  rowAt_updateOne i regularState fun _ => rfl

theorem rowAt_quarantineCheckFailed (i : ℕ) (now step : ℤ) (delays : List ℤ) :
    rowAt id (quarantineCheckFailed s i now step delays).1 =
      if i = id then (rowAt id s).map (afterRecheck delays now step) else rowAt id s := by
  have hset : afterRecheck delays now step = fun r => if (r.status == .quarantine) = true then
      (match delays[(max step 0).toNat]? with
        | none => ladderRemovedSet now r
        | some delay => ladderAdvancedSet now (now + max delay 0) (step + 1) r) else r := by
    funext r
    simp [afterRecheck]
  rw [hset]
  unfold quarantineCheckFailed
  cases delays[(max step 0).toNat]? with
  | none => exact rowAt_updateOne i (fun r => r.status == .quarantine) fun _ => rfl
  | some delay => exact rowAt_updateOne i (fun r => r.status == .quarantine) fun _ => rfl

theorem rowAt_checkFailed (hids : (s.proxies.map (·.id)).Nodup) (i : ℕ) (now jitter : ℤ)
    (mark : Bool) :
    rowAt id (checkFailed s i now cfg.failLimit cfg.secondChanceMinSecs jitter mark).1 =
      if i = id then (rowAt id s).map (afterFailure cfg.toProbeConfig now jitter mark)
      else rowAt id s := by
  unfold checkFailed
  simp only [find_regular hids]
  cases hrow : rowAt i s with
  | none =>
    by_cases hi : i = id
    · subst hi
      simp [hrow]
    · simp [hi]
  | some r =>
    cases hregular : regularState r with
    | false =>
      have hafter : afterFailure cfg.toProbeConfig now jitter mark r = r := by
        simp [afterFailure, hregular]
      have hnone : Option.filter regularState (some r) = none := by simp [hregular]
      rw [hnone]
      by_cases hi : i = id
      · subst hi
        simp [hrow, hafter]
      · simp [hi]
    | true =>
      rw [Option.filter_some, hregular, if_pos rfl]
      by_cases hlimit : (cfg.failLimit : ℤ) ≤ r.failCount + 1
      · simp only [hlimit, if_true]
        rw [rowAt_updateOne i regularState (by intro; rfl)]
        by_cases hi : i = id
        · subst hi
          simp [hrow, hregular, afterFailure, hlimit]
        · simp [hi]
      · simp only [hlimit, if_false]
        rw [rowAt_updateOne i regularState (by intro; rfl)]
        by_cases hi : i = id
        · subst hi
          simp [hrow, hregular, afterFailure, hlimit]
        · simp [hi]

theorem rowAt_applyVerdict (hids : (s.proxies.map (·.id)).Nodup) (c : Check) (o : Outcome)
    (now : ℤ) :
    rowAt id (applyVerdict cfg.toProbeConfig s c o now) =
      if c.id = id then (rowAt id s).map (judgedRow cfg.toProbeConfig c o now) else rowAt id s := by
  have hkept : rowAt id s = if c.id = id then (rowAt id s).map fun r => r else rowAt id s := by
    simp
  unfold applyVerdict judgedRow
  cases c.lane with
  | t1 =>
    cases o with
    | succeeded latencyMs reset => exact rowAt_checkSucceeded c.id now latencyMs reset .alive
    | failed jitter => exact rowAt_checkFailed hids c.id now jitter false
    | engineUnavailable => exact hkept
  | t2 =>
    cases o with
    | succeeded latencyMs reset => exact rowAt_checkSucceeded c.id now latencyMs true .ready
    | failed jitter => exact rowAt_checkFailed hids c.id now jitter true
    | engineUnavailable => exact rowAt_checkEngineUnavailable c.id now
  | quarantine =>
    cases o with
    | succeeded latencyMs reset => exact rowAt_checkSucceeded c.id now latencyMs true .alive
    | failed jitter => exact rowAt_quarantineCheckFailed c.id now c.ladderStep cfg.recheckDelays
    | engineUnavailable => exact hkept
  | quarantineT2 =>
    cases o with
    | succeeded latencyMs reset => exact rowAt_checkSucceeded c.id now latencyMs true .ready
    | failed jitter => exact rowAt_quarantineCheckFailed c.id now c.ladderStep cfg.recheckDelays
    | engineUnavailable => exact rowAt_checkEngineUnavailable c.id now

/-- The columns that no verdict writes. -/
def KeepsIdentity (set : ProxyRow → ProxyRow) : Prop :=
  ∀ r, (set r).id = r.id ∧ (set r).scheme = r.scheme

theorem applyVerdict_update (s : Store) (c : Check) (o : Outcome) (now : ℤ) :
    ∃ guard set, applyVerdict cfg.toProbeConfig s c o now = s.updateProxies guard set ∧
      KeepsIdentity set := by
  have hnone : ∃ guard set, s = s.updateProxies guard set ∧ KeepsIdentity set := by
    refine ⟨fun _ => false, fun r => r, ?_, fun r => ⟨rfl, rfl⟩⟩
    simp [Store.updateProxies, updateWhere]
  have hsucceeded : ∀ latencyMs reset tier, ∃ guard set,
      (checkSucceeded s c.id now latencyMs reset tier).1 = s.updateProxies guard set ∧
        KeepsIdentity set :=
    fun _ _ _ => ⟨_, _, rfl, fun r => ⟨rfl, rfl⟩⟩
  have hfailed : ∀ jitter mark, ∃ guard set,
      (checkFailed s c.id now cfg.failLimit cfg.secondChanceMinSecs jitter mark).1 =
        s.updateProxies guard set ∧ KeepsIdentity set := by
    intro jitter mark
    unfold checkFailed
    dsimp only
    split
    · exact hnone
    · split
      · exact ⟨_, _, rfl, fun r => ⟨rfl, rfl⟩⟩
      · exact ⟨_, _, rfl, fun r => ⟨rfl, rfl⟩⟩
  have hrecheck : ∃ guard set,
      (quarantineCheckFailed s c.id now c.ladderStep cfg.recheckDelays).1 =
        s.updateProxies guard set ∧ KeepsIdentity set := by
    unfold quarantineCheckFailed
    dsimp only
    split
    · exact ⟨_, _, rfl, fun r => ⟨rfl, rfl⟩⟩
    · exact ⟨_, _, rfl, fun r => ⟨rfl, rfl⟩⟩
  unfold applyVerdict
  split
  · exact hsucceeded _ _ _
  · exact hfailed _ _
  · exact hsucceeded _ _ _
  · exact hfailed _ _
  · exact hsucceeded _ _ _
  · exact hsucceeded _ _ _
  · exact hrecheck
  · exact hrecheck
  · exact ⟨_, _, rfl, fun r => ⟨rfl, rfl⟩⟩
  · exact ⟨_, _, rfl, fun r => ⟨rfl, rfl⟩⟩
  · exact hnone
  · exact hnone

/-- The store in which the verdict of a judgement lands. -/
def journaled (s : Store) (j : Judgement) : Store :=
  insertResult s ⟨j.check.id, j.now, j.finding.isUp, j.kind⟩

theorem judge_eq (s : Store) (j : Judgement) :
    judge cfg s j =
      applyVerdict cfg.toProbeConfig (journaled s j) j.check (outcome (journaled s j) j) j.now := rfl

theorem proxies_journaled (s : Store) (j : Judgement) : (journaled s j).proxies = s.proxies := by
  unfold journaled insertResult
  split <;> rfl

theorem requests_journaled (s : Store) (j : Judgement) : (journaled s j).requests = s.requests := by
  unfold journaled insertResult
  split <;> rfl

theorem keys_journaled (hkeys : Keys s) (j : Judgement) : Keys (journaled s j) where
  proxies := by
    rw [proxies_journaled]
    exact hkeys.proxies
  requests := by
    rw [requests_journaled]
    exact hkeys.requests

theorem rowAt_judge (hkeys : Keys s) (j : Judgement) :
    rowAt id (judge cfg s j) =
      if j.check.id = id then
        (rowAt id s).map (judgedRow cfg.toProbeConfig j.check (outcome (journaled s j) j) j.now)
      else rowAt id s := by
  rw [judge_eq, rowAt_applyVerdict (keys_journaled hkeys j).proxies]
  simp only [rowAt, proxies_journaled]

theorem keys_judge (hkeys : Keys s) (j : Judgement) : Keys (judge cfg s j) := by
  obtain ⟨guard, set, heq, hset⟩ := @applyVerdict_update cfg (journaled s j) j.check
    (outcome (journaled s j) j) j.now
  rw [judge_eq, heq]
  refine ⟨?_, ?_⟩
  · rw [Store.proxies_updateProxies, map_updateWhere fun r => (hset r).1, proxies_journaled]
    exact hkeys.proxies
  · exact (keys_journaled hkeys j).requests

theorem charged_judgedRow (c : Check) (o : Outcome) (now : ℤ) (r : ProxyRow) :
    charged (judgedRow cfg.toProbeConfig c o now r) ≤ charged r ∨
      (c.lane = .t1 ∨ c.lane = .t2) ∧
        charged (judgedRow cfg.toProbeConfig c o now r) ≤ charged r + 1 ∧
          (r.status = .unknown → (judgedRow cfg.toProbeConfig c o now r).status = .unknown ∨
            (judgedRow cfg.toProbeConfig c o now r).status = .quarantine) := by
  have hsuccess : ∀ latencyMs reset tier,
      charged (afterSuccess now latencyMs reset tier r) ≤ charged r := by
    intro latencyMs reset tier
    unfold afterSuccess
    split
    · exact le_rfl
    · cases reset <;> simp [charged, succeededSet]
  have hfailure : ∀ jitter mark,
      charged (afterFailure cfg.toProbeConfig now jitter mark r) ≤ charged r + 1 ∧
        (r.status = .unknown →
          (afterFailure cfg.toProbeConfig now jitter mark r).status = .unknown ∨
            (afterFailure cfg.toProbeConfig now jitter mark r).status = .quarantine) := by
    intro jitter mark
    unfold afterFailure
    split_ifs
    · refine ⟨?_, fun _ => .inr rfl⟩
      simp only [charged, quarantineSet]
      omega
    · refine ⟨?_, fun hunknown => .inl (by simp [failedSet, demote, hunknown])⟩
      simp only [charged, failedSet]
      omega
    · exact ⟨by omega, fun hunknown => .inl hunknown⟩
  have hrecheck : ∀ delays step, charged (afterRecheck delays now step r) ≤ charged r := by
    intro delays step
    unfold afterRecheck
    split
    · split <;> exact le_rfl
    · exact le_rfl
  have houtage : charged (afterOutage now r) ≤ charged r := by
    unfold afterOutage
    split <;> exact le_rfl
  unfold judgedRow
  split
  · exact .inl (hsuccess _ _ _)
  next hlane => exact .inr ⟨.inl hlane, hfailure _ _⟩
  · exact .inl (hsuccess _ _ _)
  next hlane => exact .inr ⟨.inr hlane, hfailure _ _⟩
  · exact .inl (hsuccess _ _ _)
  · exact .inl (hsuccess _ _ _)
  · exact .inl (hrecheck _ _)
  · exact .inl (hrecheck _ _)
  · exact .inl houtage
  · exact .inl houtage
  · exact .inl le_rfl
  · exact .inl le_rfl

theorem ladder_judgedRow (c : Check) (o : Outcome) (now : ℤ) (r : ProxyRow) :
    ladderPosition (judgedRow cfg.toProbeConfig c o now r) ≤ ladderPosition r ∨
      (c.lane = .quarantine ∨ c.lane = .quarantineT2) ∧
        ladderPosition (judgedRow cfg.toProbeConfig c o now r) ≤
          max (ladderPosition r) (max c.ladderStep 0 + 1) := by
  have hsuccess : ∀ latencyMs reset tier,
      ladderPosition (afterSuccess now latencyMs reset tier r) ≤ ladderPosition r := by
    intro latencyMs reset tier
    unfold afterSuccess
    split
    · exact le_rfl
    · simp [ladderPosition, succeededSet]
  have hfailure : ∀ jitter mark,
      ladderPosition (afterFailure cfg.toProbeConfig now jitter mark r) ≤ ladderPosition r := by
    intro jitter mark
    unfold afterFailure
    split_ifs
    · simp [ladderPosition, quarantineSet]
    · exact le_rfl
    · exact le_rfl
  have hrecheck : ∀ delays, ladderPosition (afterRecheck delays now c.ladderStep r) ≤
      max (ladderPosition r) (max c.ladderStep 0 + 1) := by
    intro delays
    unfold afterRecheck
    split
    · split
      · simp only [ladderPosition, ladderRemovedSet]
        omega
      · simp only [ladderPosition, ladderAdvancedSet]
        omega
    · exact le_max_left _ _
  have houtage : ladderPosition (afterOutage now r) ≤ ladderPosition r := by
    unfold afterOutage
    split <;> exact le_rfl
  unfold judgedRow
  split
  · exact .inl (hsuccess _ _ _)
  · exact .inl (hfailure _ _)
  · exact .inl (hsuccess _ _ _)
  · exact .inl (hfailure _ _)
  · exact .inl (hsuccess _ _ _)
  · exact .inl (hsuccess _ _ _)
  next hlane => exact .inr ⟨.inl hlane, hrecheck _⟩
  next hlane => exact .inr ⟨.inr hlane, hrecheck _⟩
  · exact .inl houtage
  · exact .inl houtage
  · exact .inl le_rfl
  · exact .inl le_rfl

theorem scheme_judgedRow (c : Check) (o : Outcome) (now : ℤ) (r : ProxyRow) :
    (judgedRow cfg.toProbeConfig c o now r).scheme = r.scheme := by
  unfold judgedRow afterSuccess afterFailure afterRecheck afterOutage
  split <;> (try split_ifs) <;> (try split) <;> rfl

end Judgement

section Log

variable {cfg : CycleConfig} {s : Store} {id : ℕ} {log : List Judgement} {column : ProxyRow → ℤ}

@[simp] theorem runLog_nil (s : Store) : runLog cfg s [] = s := rfl

@[simp] theorem runLog_cons (s : Store) (j : Judgement) (log : List Judgement) :
    runLog cfg s (j :: log) = runLog cfg (judge cfg s j) log := rfl

theorem runLog_append (s : Store) (a b : List Judgement) :
    runLog cfg s (a ++ b) = runLog cfg (runLog cfg s a) b := by
  simp [runLog, runSteps]

theorem totalRise_append (s : Store) (a b : List CycleStep) :
    totalRise cfg column id s (a ++ b) =
      totalRise cfg column id s a + totalRise cfg column id (runSteps cfg s a) b := by
  induction a generalizing s with
  | nil => simp [totalRise, runSteps]
  | cons step a ih =>
    rw [List.cons_append, totalRise, ih, totalRise, Int.add_assoc]
    rfl

theorem keys_runLog (hkeys : Keys s) (log : List Judgement) : Keys (runLog cfg s log) := by
  induction log generalizing s with
  | nil => exact hkeys
  | cons j log ih => exact ih (keys_judge hkeys j)

theorem rise_of_eq {s' : Store} (h : rowAt id s' = rowAt id s) : rise column id s s' = 0 := by
  simp [rise, columnAt, h]

/-- A log that does not judge a row leaves it alone. -/
theorem lane_other (hkeys : Keys s) (h : ∀ j ∈ log, j.check.id ≠ id) :
    rowAt id (runLog cfg s log) = rowAt id s ∧
      ∀ column, totalRise cfg column id s (log.map .judge) = 0 := by
  induction log generalizing s with
  | nil => exact ⟨rfl, fun _ => rfl⟩
  | cons j log ih =>
    have hrow : rowAt id (judge cfg s j) = rowAt id s := by
      rw [rowAt_judge hkeys, if_neg (h j List.mem_cons_self)]
    obtain ⟨hrest, hrise⟩ := ih (keys_judge hkeys j) fun x hx => h x (List.mem_cons_of_mem j hx)
    refine ⟨hrest.trans hrow, fun column => ?_⟩
    rw [List.map_cons, totalRise, applyStep, hrise, rise_of_eq hrow]
    rfl

/-- A log that judges every row once acts on a row through its one judgement. -/
theorem lane_own (hkeys : Keys s) (hnodup : (log.map (·.check.id)).Nodup) {j : Judgement}
    (hj : j ∈ log) : ∃ o,
      rowAt j.check.id (runLog cfg s log) =
          (rowAt j.check.id s).map (judgedRow cfg.toProbeConfig j.check o j.now) ∧
        ∀ column, totalRise cfg column j.check.id s (log.map .judge) =
          rise column j.check.id s (runLog cfg s log) := by
  obtain ⟨before, after, rfl⟩ := List.append_of_mem hj
  rw [List.map_append, List.map_cons, List.nodup_append] at hnodup
  obtain ⟨-, hafter, hbefore⟩ := hnodup
  have hfront : ∀ x ∈ before, x.check.id ≠ j.check.id := by
    intro x hx
    exact hbefore _ (List.mem_map_of_mem hx) _ List.mem_cons_self
  have hback : ∀ x ∈ after, x.check.id ≠ j.check.id := by
    intro x hx heq
    exact (List.nodup_cons.mp hafter).1 (heq ▸ List.mem_map_of_mem hx)
  have hkeys₁ := @keys_runLog cfg s hkeys before
  have hkeys₂ := @keys_judge cfg _ hkeys₁ j
  obtain ⟨hrow₁, hrise₁⟩ := @lane_other cfg s j.check.id before hkeys hfront
  obtain ⟨hrow₂, hrise₂⟩ := @lane_other cfg _ j.check.id after hkeys₂ hback
  have hown := @rowAt_judge cfg _ j.check.id hkeys₁ j
  rw [if_pos rfl, hrow₁] at hown
  refine ⟨outcome (journaled (runLog cfg s before) j) j, ?_, fun column => ?_⟩
  · rw [runLog_append, runLog_cons, hrow₂, hown]
  · have hsplit : (before ++ j :: after).map CycleStep.judge =
        before.map .judge ++ (.judge j :: after.map .judge) := by simp
    have hrun : runSteps cfg s (before.map .judge) = runLog cfg s before := rfl
    rw [hsplit, totalRise_append, hrise₁, hrun, totalRise, applyStep, hrise₂, runLog_append,
      runLog_cons]
    simp only [rise, columnAt, hrow₁, hrow₂]
    omega

end Log

section Selections

variable {cfg : CycleConfig} {s : Store} {eligible : ProxyRow → Bool} {limit anchor : ℕ}
  {r : ProxyRow} {rows : List ProxyRow} {lane : Lane} {kind : ProxyRow → Text}
  {log : List Judgement}

theorem mem_byId : r ∈ byId rows ↔ r ∈ rows :=
  List.mem_insertionSort _

theorem mem_windowRows (h : r ∈ windowRows s eligible limit anchor) :
    r ∈ s.proxies ∧ eligible r = true := by
  have hpool : ∀ {p : ProxyRow → Bool},
      r ∈ (byId (s.proxies.filter eligible)).filter p → r ∈ s.proxies ∧ eligible r = true :=
    fun hr => List.mem_filter.mp (mem_byId.mp (List.mem_filter.mp hr).1)
  unfold windowRows at h
  dsimp only at h
  split at h
  · rcases List.mem_append.mp h with h | h
    · exact hpool (List.mem_of_mem_take h)
    · exact hpool (List.mem_reverse.mp (List.mem_of_mem_take h))
  · exact hpool (List.mem_of_mem_take h)

theorem nodup_of_keys (hkeys : Keys s) {p : ProxyRow → Bool} :
    ((s.proxies.filter p).map (·.id)).Nodup :=
  hkeys.proxies.sublist (List.filter_sublist.map _)

theorem nodup_windowRows (hkeys : Keys s) :
    ((windowRows s eligible limit anchor).map (·.id)).Nodup := by
  have hpool : ((byId (s.proxies.filter eligible)).map (·.id)).Nodup :=
    ((List.perm_insertionSort _ _).map _).nodup_iff.mpr (nodup_of_keys hkeys)
  have hleg : ∀ p : ProxyRow → Bool,
      (((byId (s.proxies.filter eligible)).filter p).map (·.id)).Nodup :=
    fun p => hpool.sublist (List.filter_sublist.map _)
  have habove := (hleg fun r => anchor ≤ r.id).sublist
    ((List.take_sublist (limit * sampleWindowFactor) _).map _)
  unfold windowRows
  dsimp only
  split
  · rw [List.map_append, List.nodup_append]
    refine ⟨habove, ?_, ?_⟩
    · refine List.Nodup.sublist ((List.take_sublist _ _).map _) ?_
      rw [List.map_reverse, List.nodup_reverse]
      exact hleg fun r => r.id < anchor
    · intro a ha b hb heq
      obtain ⟨x, hx, rfl⟩ := List.mem_map.mp ha
      obtain ⟨y, hy, rfl⟩ := List.mem_map.mp hb
      have hxa := (List.mem_filter.mp (List.mem_of_mem_take hx)).2
      have hya := (List.mem_filter.mp (List.mem_reverse.mp (List.mem_of_mem_take hy))).2
      simp only [decide_eq_true_eq] at hxa hya
      omega
  · exact habove

theorem mem_drawRows {d : Draw} (h : d.From s eligible limit) (hr : r ∈ d.rows limit) :
    r ∈ s.proxies ∧ eligible r = true :=
  mem_windowRows (h.2.mem_iff.mp (List.mem_of_mem_take hr))

theorem nodup_drawRows {d : Draw} (hkeys : Keys s) (h : d.From s eligible limit) :
    ((d.rows limit).map (·.id)).Nodup :=
  ((h.2.map _).nodup_iff.mpr (nodup_windowRows hkeys)).sublist ((List.take_sublist _ _).map _)

theorem mem_selectQueuedChecks (h : r ∈ selectQueuedChecks s limit) :
    r ∈ s.proxies ∧ queuedLane s r = true := by
  obtain ⟨q, -, hr⟩ := List.mem_flatMap.mp (List.mem_of_mem_take h)
  obtain ⟨hmem, hboth⟩ := List.mem_filter.mp hr
  exact ⟨hmem, (Bool.and_eq_true _ _ ▸ hboth).2⟩

/-- A proxy has one request at most, and a request one proxy. -/
theorem nodup_selectQueuedChecks (hkeys : Keys s) :
    ((selectQueuedChecks s limit).map (·.id)).Nodup := by
  refine List.Nodup.sublist ((List.take_sublist _ _).map _) ?_
  rw [List.map_flatMap, List.nodup_flatMap]
  constructor
  · exact fun q _ => nodup_of_keys hkeys
  · have hsorted : ((s.requests.insertionSort (newerRequest · ·)).map (·.proxyId)).Nodup :=
      ((List.perm_insertionSort _ _).map _).nodup_iff.mpr hkeys.requests
    refine (List.pairwise_map.mp hsorted).imp ?_
    intro q q' hne
    rw [Function.onFun, List.disjoint_left]
    intro id hid hid'
    obtain ⟨x, hx, rfl⟩ := List.mem_map.mp hid
    obtain ⟨y, hy, heq⟩ := List.mem_map.mp hid'
    have hxq := (List.mem_filter.mp hx).2
    have hyq := (List.mem_filter.mp hy).2
    simp only [Bool.and_eq_true, beq_iff_eq] at hxq hyq
    exact hne (by rw [← hxq.1, ← hyq.1, heq])

theorem mem_selectT2Candidates (h : r ∈ selectT2Candidates s limit) :
    r ∈ s.proxies ∧ t2Lane s r = true :=
  List.mem_filter.mp ((List.mem_insertionSort _).mp (List.mem_of_mem_take h))

theorem nodup_selectT2Candidates (hkeys : Keys s) :
    ((selectT2Candidates s limit).map (·.id)).Nodup :=
  (((List.perm_insertionSort _ _).map _).nodup_iff.mpr (nodup_of_keys hkeys)).sublist
    ((List.take_sublist _ _).map _)

theorem exists_row (h : Judges cfg lane kind rows log) {j : Judgement} (hj : j ∈ log) :
    ∃ r ∈ rows, j.check = ⟨r.id, lane, r.ladderStep⟩ ∧ j.kind = kind r := by
  obtain ⟨r, hr, heq⟩ := List.mem_map.mp (h.1.mem_iff.mp (List.mem_map_of_mem hj))
  obtain ⟨hcheck, hkind⟩ := Prod.mk.inj heq
  exact ⟨r, hr, hcheck.symm, hkind.symm⟩

theorem exists_judgement (h : Judges cfg lane kind rows log) (hr : r ∈ rows) :
    ∃ j ∈ log, j.check = ⟨r.id, lane, r.ladderStep⟩ ∧ j.kind = kind r := by
  obtain ⟨j, hj, heq⟩ := List.mem_map.mp (h.1.mem_iff.mpr (List.mem_map_of_mem hr))
  obtain ⟨hcheck, hkind⟩ := Prod.mk.inj heq
  exact ⟨j, hj, hcheck, hkind⟩

theorem nodup_log (h : Judges cfg lane kind rows log) (hrows : (rows.map (·.id)).Nodup) :
    (log.map (·.check.id)).Nodup := by
  have hids := h.1.map fun x => x.1.id
  rw [List.map_map, List.map_map] at hids
  exact hids.nodup_iff.mpr hrows

theorem rise_some {s s' : Store} {id : ℕ} {r r' : ProxyRow}
    {column : ProxyRow → ℤ} (h : rowAt id s = some r) (h' : rowAt id s' = some r') :
    rise column id s s' = max 0 (column r' - column r) := by
  simp [rise, columnAt, h, h']

theorem lane_cases (hkeys : Keys s) (h : Judges cfg lane kind rows log)
    (hmem : ∀ r ∈ rows, r ∈ s.proxies) (hnodup : (rows.map (·.id)).Nodup) (id : ℕ) :
    ((∀ r ∈ rows, r.id ≠ id) ∧ rowAt id (runLog cfg s log) = rowAt id s ∧
        ∀ column, totalRise cfg column id s (log.map .judge) = 0) ∨
      ∃ r ∈ rows, r.id = id ∧ rowAt id s = some r ∧ ∃ o now,
        rowAt id (runLog cfg s log) =
            some (judgedRow cfg.toProbeConfig ⟨id, lane, r.ladderStep⟩ o now r) ∧
          ∀ column, totalRise cfg column id s (log.map .judge) =
            max 0 (column (judgedRow cfg.toProbeConfig ⟨id, lane, r.ladderStep⟩ o now r) -
              column r) := by
  by_cases hid : ∃ r ∈ rows, r.id = id
  · obtain ⟨r, hr, rfl⟩ := hid
    obtain ⟨j, hj, hcheck, -⟩ := exists_judgement h hr
    have hrow : rowAt r.id s = some r := (rowAt_eq_some hkeys.proxies).mpr ⟨hmem r hr, rfl⟩
    obtain ⟨o, hjudged, hrise⟩ := @lane_own cfg s log hkeys (nodup_log h hnodup) j hj
    rw [hcheck] at hjudged hrise
    rw [hrow, Option.map_some] at hjudged
    refine .inr ⟨r, hr, rfl, hrow, o, j.now, hjudged, fun column => ?_⟩
    rw [hrise column, rise_some hrow hjudged]
  · push Not at hid
    refine .inl ⟨hid, lane_other hkeys fun j hj heq => ?_⟩
    obtain ⟨r, hr, hcheck, -⟩ := exists_row h hj
    rw [hcheck] at heq
    exact hid r hr heq

theorem charged_ladderLane (hkeys : Keys s) (h : Judges cfg lane kind rows log)
    (hmem : ∀ r ∈ rows, r ∈ s.proxies) (hnodup : (rows.map (·.id)).Nodup)
    (hlane : lane = .quarantine ∨ lane = .quarantineT2) (id : ℕ) :
    totalRise cfg charged id s (log.map .judge) = 0 := by
  rcases lane_cases hkeys h hmem hnodup id with ⟨-, -, hrise⟩ | ⟨r, -, -, -, o, now, -, hrise⟩
  · exact hrise charged
  · rw [hrise charged]
    rcases @charged_judgedRow cfg ⟨id, lane, r.ladderStep⟩ o now r with hle | ⟨hreg, -⟩
    · omega
    · rcases hlane with rfl | rfl <;> simp at hreg

theorem charged_lane (hkeys : Keys s) (h : Judges cfg lane kind rows log)
    (hmem : ∀ r ∈ rows, r ∈ s.proxies) (hnodup : (rows.map (·.id)).Nodup) (id : ℕ) :
    totalRise cfg charged id s (log.map .judge) ≤ 1 := by
  rcases lane_cases hkeys h hmem hnodup id with ⟨-, -, hrise⟩ | ⟨r, -, -, -, o, now, -, hrise⟩
  · rw [hrise charged]
    omega
  · rw [hrise charged]
    rcases @charged_judgedRow cfg ⟨id, lane, r.ladderStep⟩ o now r with hle | ⟨-, hle, -⟩
    · omega
    · omega

theorem ladder_regularLane (hkeys : Keys s) (h : Judges cfg lane kind rows log)
    (hmem : ∀ r ∈ rows, r ∈ s.proxies) (hnodup : (rows.map (·.id)).Nodup)
    (hlane : lane = .t1 ∨ lane = .t2) (id : ℕ) :
    totalRise cfg ladderPosition id s (log.map .judge) = 0 := by
  rcases lane_cases hkeys h hmem hnodup id with ⟨-, -, hrise⟩ | ⟨r, -, -, -, o, now, -, hrise⟩
  · exact hrise ladderPosition
  · rw [hrise ladderPosition]
    rcases @ladder_judgedRow cfg ⟨id, lane, r.ladderStep⟩ o now r with hle | ⟨hquar, -⟩
    · omega
    · rcases hlane with rfl | rfl <;> simp at hquar

theorem ladder_lane (hkeys : Keys s) (h : Judges cfg lane kind rows log)
    (hmem : ∀ r ∈ rows, r ∈ s.proxies) (hnodup : (rows.map (·.id)).Nodup) (id : ℕ) :
    totalRise cfg ladderPosition id s (log.map .judge) ≤ 1 := by
  rcases lane_cases hkeys h hmem hnodup id with ⟨-, -, hrise⟩ | ⟨r, -, -, -, o, now, -, hrise⟩
  · rw [hrise ladderPosition]
    omega
  · rw [hrise ladderPosition]
    have hposition : ladderPosition r = max r.ladderStep 0 := rfl
    rcases @ladder_judgedRow cfg ⟨id, lane, r.ladderStep⟩ o now r with hle | ⟨-, hle⟩
    · omega
    · simp only at hle
      omega

end Selections

section Cycles

variable {json : JsonValue.SerdeJson} {cfg : CycleConfig} {s : Store} {c : Cycle}

theorem keys_claimChecks (hkeys : Keys s) (ids : List ℕ) : Keys (claimChecks s ids) where
  proxies := hkeys.proxies
  requests := hkeys.requests.sublist (List.filter_sublist.map _)

theorem totalRise_steps (column : ProxyRow → ℤ) (id : ℕ) :
    totalRise cfg column id s (c.steps cfg s) =
      totalRise cfg column id s (c.revivals.map .judge) +
        totalRise cfg column id (c.afterRevivals cfg s) (c.rechecks.map .judge) +
        totalRise cfg column id (c.afterClaim cfg s) (c.queued.map .judge) +
        totalRise cfg column id (c.afterQueued cfg s) (c.sampled.map .judge) +
        totalRise cfg column id (c.afterSample cfg s) (c.tunnels.map .judge) := by
  have hclaim : rise column id (c.afterRechecks cfg s)
      (applyStep cfg (c.afterRechecks cfg s) (.claim (c.claimedIds cfg s))) = 0 :=
    rise_of_eq rfl
  rw [Cycle.steps, totalRise_append, totalRise_append, totalRise]
  have hrevivals : runSteps cfg s (c.revivals.map .judge) = c.afterRevivals cfg s := rfl
  have hrechecks : runSteps cfg (c.afterRevivals cfg s) (c.rechecks.map .judge) =
      c.afterRechecks cfg s := rfl
  rw [hrevivals, hrechecks, hclaim, totalRise_append, totalRise_append]
  have hqueued : runSteps cfg (applyStep cfg (c.afterRechecks cfg s)
      (.claim (c.claimedIds cfg s))) (c.queued.map .judge) = c.afterQueued cfg s := rfl
  have hsampled : runSteps cfg (c.afterQueued cfg s) (c.sampled.map .judge) =
      c.afterSample cfg s := rfl
  rw [hqueued, hsampled]
  have hafter : applyStep cfg (c.afterRechecks cfg s) (.claim (c.claimedIds cfg s)) =
      c.afterClaim cfg s := rfl
  rw [hafter]
  omega

theorem keys_afterRevivals (hkeys : Keys s) : Keys (c.afterRevivals cfg s) :=
  keys_runLog hkeys c.revivals

theorem keys_afterRechecks (hkeys : Keys s) : Keys (c.afterRechecks cfg s) :=
  keys_runLog (keys_afterRevivals hkeys) c.rechecks

theorem keys_afterClaim (hkeys : Keys s) : Keys (c.afterClaim cfg s) :=
  keys_claimChecks (keys_afterRechecks hkeys) _

theorem keys_afterQueued (hkeys : Keys s) : Keys (c.afterQueued cfg s) :=
  keys_runLog (keys_afterClaim hkeys) c.queued

theorem keys_afterSample (hkeys : Keys s) : Keys (c.afterSample cfg s) :=
  keys_runLog (keys_afterQueued hkeys) c.sampled

/-- The rows of a lane: stored, without repetition, and eligible. -/
structure Offers (s : Store) (eligible : ProxyRow → Prop) (rows : List ProxyRow) : Prop where
  stored : ∀ r ∈ rows, r ∈ s.proxies
  nodup : (rows.map (·.id)).Nodup
  eligible : ∀ r ∈ rows, eligible r

theorem Offers.filter {eligible : ProxyRow → Prop} {rows : List ProxyRow}
    (h : Offers s eligible rows) (p : ProxyRow → Bool) : Offers s eligible (rows.filter p) where
  stored r hr := h.stored r (List.mem_of_mem_filter hr)
  nodup := h.nodup.sublist (List.filter_sublist.map _)
  eligible r hr := h.eligible r (List.mem_of_mem_filter hr)

theorem offers_draw {lane : ProxyRow → Bool} {limit : ℕ} {d : Draw} (hkeys : Keys s)
    (h : d.From s lane limit) : Offers s (fun r => lane r = true) (d.rows limit) where
  stored _ hr := (mem_drawRows h hr).1
  nodup := nodup_drawRows hkeys h
  eligible _ hr := (mem_drawRows h hr).2

theorem offers_unless {eligible : ProxyRow → Prop} {rows : List ProxyRow} (skip : Bool)
    (h : Offers s eligible rows) : Offers s eligible (if skip then [] else rows) := by
  cases skip with
  | true => exact ⟨by simp, by simp, by simp⟩
  | false => exact h

theorem offers_queued (hkeys : Keys s) : Offers (c.afterRechecks cfg s)
    (fun r => queuedLane (c.afterRechecks cfg s) r = true) (c.queuedRows cfg s) where
  stored _ hr := (mem_selectQueuedChecks hr).1
  nodup := nodup_selectQueuedChecks (keys_afterRechecks hkeys)
  eligible _ hr := (mem_selectQueuedChecks hr).2

theorem offers_tunnel (hkeys : Keys s) : Offers (c.afterSample cfg s)
    (fun r => t2Lane (c.afterSample cfg s) r = true) (c.tunnelSelection cfg s) where
  stored _ hr := (mem_selectT2Candidates hr).1
  nodup := nodup_selectT2Candidates (keys_afterSample hkeys)
  eligible _ hr := (mem_selectT2Candidates hr).2

theorem mem_uncovered {covered : List ℕ} {rows : List ProxyRow} {r : ProxyRow} :
    r ∈ uncovered covered rows ↔ r ∈ rows ∧ r.id ∉ covered := by
  simp [uncovered]

theorem queued_then_tunnel {lane : Lane} {o : Outcome} {now : ℤ} {r r' : ProxyRow}
    {s₁ s₂ : Store} (hqueued : queuedLane s₁ r = true) (htunnel : t2Lane s₂ r' = true)
    (hjudged : judgedRow cfg.toProbeConfig ⟨r.id, lane, r.ladderStep⟩ o now r = r') :
    charged r' ≤ charged r := by
  subst hjudged
  rcases @charged_judgedRow cfg ⟨r.id, lane, r.ladderStep⟩ o now r with
    hle | ⟨-, -, hstatus⟩
  · exact hle
  · simp only [queuedLane, Bool.and_eq_true, beq_iff_eq] at hqueued
    obtain ⟨⟨⟨⟨-, hunknown⟩, hscheme⟩, -⟩, -⟩ := hqueued
    have hkept := @scheme_judgedRow cfg ⟨r.id, lane, r.ladderStep⟩ o now r
    have hhysteria : r.scheme ≠ .hysteria2 := by
      intro h
      rw [h] at hscheme
      exact absurd hscheme (by decide)
    rcases hstatus hunknown with hstatus | hstatus
    · simp [t2Lane, hstatus, hkept, hhysteria] at htunnel
    · simp [t2Lane, hstatus] at htunnel

def tunnelRows (cfg : CycleConfig) (s : Store) (c : Cycle) : List ProxyRow :=
  if c.tunnelBackoff then [] else c.tunnelBatch cfg s

/-- What the five lanes of a cycle offer. -/
structure CycleOffers (cfg : CycleConfig) (s : Store) (c : Cycle) : Prop where
  revivals : Offers s (fun r => dueQuarantineT2Lane c.now r = true)
    (if c.revivalBackoff then [] else c.revivalDraw.rows cfg.sampleSize)
  rechecks : Offers (c.afterRevivals cfg s) (fun r => dueQuarantineLane c.now r = true)
    ((c.recheckDraw.rows cfg.sampleSize).filter dialable)
  queued : Offers (c.afterClaim cfg s) (fun r => queuedLane (c.afterRechecks cfg s) r = true)
    ((c.queuedRows cfg s).filter dialable)
  sampled : Offers (c.afterQueued cfg s) (fun r => t1Lane (c.afterQueued cfg s) r = true)
    (c.sampledRows cfg s)
  tunnels : Offers (c.afterSample cfg s) (fun r => t2Lane (c.afterSample cfg s) r = true)
    (tunnelRows cfg s c)

theorem cycleOffers (hkeys : Keys s) (h : c.Follows json cfg s) : CycleOffers cfg s c where
  revivals := offers_unless c.revivalBackoff (offers_draw hkeys h.revivalDraw)
  rechecks := (offers_draw (keys_afterRevivals hkeys) h.recheckDraw).filter dialable
  queued :=
    have hqueue := (offers_queued hkeys).filter dialable
    ⟨hqueue.stored, hqueue.nodup, hqueue.eligible⟩
  sampled := ((offers_draw (keys_afterQueued hkeys) h.sampleDraw).filter _).filter dialable
  tunnels := offers_unless c.tunnelBackoff (((offers_tunnel hkeys).filter _).filter _)

theorem mem_tunnelRows {r : ProxyRow} : r ∈ tunnelRows cfg s c ↔
    c.tunnelBackoff = false ∧ r ∈ c.tunnelSelection cfg s ∧
      r.id ∉ (c.sampledRows cfg s).map (·.id) ∧ t2Schemes.contains r.scheme = true := by
  unfold tunnelRows
  cases c.tunnelBackoff with
  | true => simp
  | false =>
    simp only [Bool.false_eq_true, if_false, Cycle.tunnelBatch, List.mem_filter, mem_uncovered,
      true_and, and_assoc]

/-- A row that the sample judges was not claimed by the queue and is skipped by the tunnel lane. -/
theorem sampled_excludes {r : ProxyRow} (hr : r ∈ c.sampledRows cfg s) :
    (∀ x ∈ (c.queuedRows cfg s).filter dialable, x.id ≠ r.id) ∧
      ∀ x ∈ tunnelRows cfg s c, x.id ≠ r.id := by
  constructor
  · intro x hx hid
    have hunclaimed := (mem_uncovered.mp (List.mem_filter.mp hr).1).2
    have hclaimed : x.id ∈ c.claimedIds cfg s := List.mem_map_of_mem (List.mem_filter.mp hx).1
    exact hunclaimed (hid ▸ hclaimed)
  · intro x hx hid
    have huncovered := (mem_tunnelRows.mp hx).2.2.1
    exact huncovered (hid ▸ List.mem_map_of_mem hr)

theorem charged_once (hkeys : Keys s) (h : c.Follows json cfg s) (ho : CycleOffers cfg s c)
    (id : ℕ) : totalRise cfg charged id s (c.steps cfg s) ≤ 1 := by
  have hrevivals := charged_ladderLane hkeys h.revivals ho.revivals.stored ho.revivals.nodup
    (.inr rfl) id
  have hrechecks := charged_ladderLane (keys_afterRevivals hkeys) h.rechecks ho.rechecks.stored
    ho.rechecks.nodup (.inl rfl) id
  have hqueued := charged_lane (keys_afterClaim hkeys) h.queued ho.queued.stored ho.queued.nodup id
  have hsampled := charged_lane (keys_afterQueued hkeys) h.sampled ho.sampled.stored
    ho.sampled.nodup id
  have htunnels := charged_lane (keys_afterSample hkeys) h.tunnels ho.tunnels.stored
    ho.tunnels.nodup id
  rw [totalRise_steps, hrevivals, hrechecks]
  rcases lane_cases (keys_afterClaim hkeys) h.queued ho.queued.stored ho.queued.nodup id with
    ⟨-, -, hqueue⟩ | ⟨r₁, hr₁, hid₁, -, o, now, hrow₁, hrise₁⟩
  · -- without the queue lane, the sample and the tunnel lane exclude each other
    rw [hqueue charged]
    rcases lane_cases (keys_afterQueued hkeys) h.sampled ho.sampled.stored ho.sampled.nodup id with
      ⟨-, -, hsample⟩ | ⟨r, hr, rfl, -⟩
    · rw [hsample charged]
      omega
    · rcases lane_cases (keys_afterSample hkeys) h.tunnels ho.tunnels.stored ho.tunnels.nodup r.id
        with ⟨-, -, htunnel⟩ | ⟨x, hx, hid, -⟩
      · rw [htunnel charged]
        omega
      · exact absurd hid ((sampled_excludes hr).2 x hx)
  · rcases lane_cases (keys_afterQueued hkeys) h.sampled ho.sampled.stored ho.sampled.nodup id with
      ⟨-, hkept, hsample⟩ | ⟨r, hr, hid, -⟩
    · rw [hsample charged]
      rcases lane_cases (keys_afterSample hkeys) h.tunnels ho.tunnels.stored ho.tunnels.nodup id with
        ⟨-, -, htunnel⟩ | ⟨r₂, hr₂, -, hrow₂, -⟩
      · rw [htunnel charged]
        omega
      · subst hid₁
        have hsame := Option.some.inj ((hrow₁.symm.trans hkept.symm).trans hrow₂)
        have hle := queued_then_tunnel (ho.queued.eligible r₁ hr₁) (ho.tunnels.eligible r₂ hr₂) hsame
        rw [hrise₁ charged, hsame]
        omega
    · exact absurd (hid₁.trans hid.symm) ((sampled_excludes hr).1 r₁ hr₁)

theorem climbs_once (hkeys : Keys s) (h : c.Follows json cfg s) (ho : CycleOffers cfg s c)
    (id : ℕ) : totalRise cfg ladderPosition id s (c.steps cfg s) ≤ 1 := by
  have hqueued := ladder_regularLane (keys_afterClaim hkeys) h.queued ho.queued.stored
    ho.queued.nodup (.inl rfl) id
  have hsampled := ladder_regularLane (keys_afterQueued hkeys) h.sampled ho.sampled.stored
    ho.sampled.nodup (.inl rfl) id
  have htunnels := ladder_regularLane (keys_afterSample hkeys) h.tunnels ho.tunnels.stored
    ho.tunnels.nodup (.inr rfl) id
  have hrevivals := ladder_lane hkeys h.revivals ho.revivals.stored ho.revivals.nodup id
  have hrechecks := ladder_lane (keys_afterRevivals hkeys) h.rechecks ho.rechecks.stored
    ho.rechecks.nodup id
  rw [totalRise_steps, hqueued, hsampled, htunnels]
  rcases lane_cases hkeys h.revivals ho.revivals.stored ho.revivals.nodup id with
    ⟨-, -, hnone⟩ | ⟨r, hr, rfl, -, o, now, hrow, -⟩
  · rw [hnone ladderPosition]
    omega
  rcases lane_cases (keys_afterRevivals hkeys) h.rechecks ho.rechecks.stored ho.rechecks.nodup r.id
    with ⟨-, -, hnone⟩ | ⟨r₁, hr₁, -, hrow₁, -⟩
  · rw [hnone ladderPosition]
    omega
  have hsame := Option.some.inj (hrow.symm.trans hrow₁)
  have hscheme := @scheme_judgedRow cfg ⟨r.id, .quarantineT2, r.ladderStep⟩ o now r
  have hrevived := ho.revivals.eligible r hr
  have hladdered := ho.rechecks.eligible r₁ hr₁
  rw [← hsame] at hladdered
  simp only [dueQuarantineT2Lane, dueQuarantineLane, Bool.and_eq_true, hscheme] at hrevived hladdered
  rw [hrevived.2] at hladdered
  exact absurd hladdered.2 (by decide)

/-- One cycle raises the fail counter of a row by one at most, and moves it up the ladder by one
step at most. -/
theorem one_charge_per_cycle (json : JsonValue.SerdeJson) (cfg : CycleConfig) (s : Store)
    (c : Cycle) (hkeys : Keys s) (h : c.Follows json cfg s) (id : ℕ) :
    totalRise cfg charged id s (c.steps cfg s) ≤ 1 ∧
      totalRise cfg ladderPosition id s (c.steps cfg s) ≤ 1 :=
  ⟨charged_once hkeys h (cycleOffers hkeys h) id, climbs_once hkeys h (cycleOffers hkeys h) id⟩

end Cycles

section Sample

open LaneCoverage JsonText

def sampleConfig : CycleConfig where
  toProbeConfig := defaultConfig
  sampleSize := 1

/-- One `alive` row with a link. -/
def soloStore : Store :=
  (ingestedAndDrawn.foldl (lifecycle sampleLibraries defaultConfig).next {}).store

/-- The random sample draws the only row, so the tunnel lane is left with nothing. -/
def sampleCycle (s : Store) (finding : Finding) (now : ℤ) : Cycle where
  now := now
  revivalDraw := ⟨0, []⟩
  revivalBackoff := false
  revivals := []
  recheckDraw := ⟨0, []⟩
  rechecks := []
  queued := []
  sampleDraw := ⟨0, s.proxies⟩
  sampled := [⟨⟨1, .t1, 0⟩, "tcp", finding, now⟩]
  tunnelBackoff := false
  tunnels := []

theorem soloStore_keys : Keys soloStore :=
  ⟨by decide +kernel, by decide +kernel⟩

theorem failing_follows :
    (sampleCycle soloStore (.down 0) 2000).Follows stringCodec sampleConfig soloStore := by
  decide +kernel

theorem one_charge_per_cycle_sample :
    totalRise sampleConfig charged 1 soloStore
        ((sampleCycle soloStore (.down 0) 2000).steps sampleConfig soloStore) ≤ 1 ∧
      totalRise sampleConfig ladderPosition 1 soloStore
        ((sampleCycle soloStore (.down 0) 2000).steps sampleConfig soloStore) ≤ 1 :=
  one_charge_per_cycle stringCodec sampleConfig soloStore (sampleCycle soloStore (.down 0) 2000)
    soloStore_keys failing_follows 1

end Sample

end CycleCharges
