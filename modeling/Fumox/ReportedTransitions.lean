import Fumox.CycleCharges

/-!
What the three verdict statements report.  The reported transition is compared with the move of the
row that the call is about, whatever happened to the row before the verdict lands.
-/

namespace ReportedTransitions

open RustText ProxyModels RowTable ProxyStore ProbeLifecycle LifecycleInvariants CycleCharges

inductive Call where
  | succeeded (now : ℤ) (latencyMs : Option ℤ) (resetFailCount : Bool) (statusTo : ProxyStatus)
  | failed (now : ℤ) (failLimit : ℕ) (secondChanceMinSecs jitter : ℤ) (markT2Failed : Bool)
  | quarantineFailed (now step : ℤ) (delays : List ℤ)
  deriving DecidableEq, Repr

def Call.run (s : Store) (id : ℕ) : Call → Store × Transition
  | .succeeded now latencyMs reset statusTo => checkSucceeded s id now latencyMs reset statusTo
  | .failed now failLimit minSecs jitter mark => checkFailed s id now failLimit minSecs jitter mark
  | .quarantineFailed now step delays => quarantineCheckFailed s id now step delays

def statusOf (s : Store) (id : ℕ) : Option ProxyStatus :=
  (rowAt id s).map (·.status)

def outOfService (status : ProxyStatus) : Bool :=
  status == .quarantine || status == .removed

def moveOf (before after : ProxyStatus) : Transition :=
  if outOfService before ∧ ¬outOfService after then .revived
  else if before ≠ .quarantine ∧ after = .quarantine then .quarantined
  else if before ≠ .removed ∧ after = .removed then .removed
  else .unchanged

def moved (before after : Option ProxyStatus) : Transition :=
  match before, after with
  | some a, some b => moveOf a b
  | _, _ => .unchanged

/-- A success on a row that is out of service or gone, any failed regular check, and a failed ladder
check that schedules a delay or finds the row in quarantine. -/
def Call.Candid (status : Option ProxyStatus) : Call → Prop
  | .succeeded .. => ∀ a ∈ status, outOfService a = true
  | .failed .. => True
  | .quarantineFailed _ step delays =>
    (max step 0).toNat < delays.length ∨ status = some .quarantine

variable {s : Store} {id : ℕ}

theorem moveOf_self (a : ProxyStatus) : moveOf a a = .unchanged := by
  cases a <;> decide

theorem moved_self (a : Option ProxyStatus) : moved a a = .unchanged := by
  cases a with
  | none => rfl
  | some a => exact moveOf_self a

theorem statusOf_of_rowAt {s' : Store} {after : ProxyRow → ProxyRow}
    (h : rowAt id s' = (rowAt id s).map after) :
    statusOf s' id = (rowAt id s).map fun r => (after r).status := by
  rw [statusOf, h, Option.map_map]
  rfl

section Success

variable (now : ℤ) (latencyMs : Option ℤ) (reset : Bool) (statusTo : ProxyStatus)

theorem checkSucceeded_transition (hids : (s.proxies.map (·.id)).Nodup) :
    (checkSucceeded s id now latencyMs reset statusTo).2 =
      if (statusOf s id).any (· != .removed) then .revived else .unchanged := by
  have hany : s.proxies.any (fun r => r.id == id && r.status != .removed) =
      (statusOf s id).any (· != .removed) := by
    rw [any_key_and hids, statusOf, rowAt]
    cases s.proxies.find? fun r => r.id == id <;> rfl
  rw [checkSucceeded]
  simp only [hany]

theorem status_afterSuccess (r : ProxyRow) :
    (afterSuccess now latencyMs reset statusTo r).status = .removed ∧ r.status = .removed ∨
      r.status ≠ .removed ∧
        outOfService (afterSuccess now latencyMs reset statusTo r).status = false := by
  unfold afterSuccess
  by_cases hremoved : r.status = .removed
  · rw [if_pos hremoved]
    exact .inl ⟨hremoved, hremoved⟩
  · right
    rw [if_neg hremoved]
    refine ⟨hremoved, ?_⟩
    simp only [succeededSet]
    by_cases hready : statusTo = .ready
    · simp [hready, outOfService]
    · by_cases hwas : r.status = .ready <;> simp [hready, hwas, outOfService]

theorem checkSucceeded_reports_iff (hids : (s.proxies.map (·.id)).Nodup) :
    (checkSucceeded s id now latencyMs reset statusTo).2 =
        moved (statusOf s id)
          (statusOf (checkSucceeded s id now latencyMs reset statusTo).1 id) ↔
      ∀ a ∈ statusOf s id, outOfService a = true := by
  have hafter := @rowAt_checkSucceeded s id id now latencyMs reset statusTo
  rw [if_pos rfl] at hafter
  rw [checkSucceeded_transition now latencyMs reset statusTo hids, statusOf_of_rowAt hafter,
    statusOf]
  cases rowAt id s with
  | none => simp [moved]
  | some r =>
    rcases status_afterSuccess now latencyMs reset statusTo r with ⟨hgone, hr⟩ | ⟨hr, hin⟩
    · simp [moved, hgone, hr, moveOf_self, outOfService]
    · by_cases hheld : outOfService r.status = true
      · simp [moved, moveOf, hr, hin, hheld]
      · have hother : ¬(afterSuccess now latencyMs reset statusTo r).status = .quarantine ∧
            ¬(afterSuccess now latencyMs reset statusTo r).status = .removed := by
          simpa [outOfService] using hin
        simp [moved, moveOf, hr, hheld, hother]

end Success

section RegularFailure

variable (now : ℤ) (failLimit : ℕ) (secondChanceMinSecs jitter : ℤ) (mark : Bool)

theorem checkFailed_reports (hids : (s.proxies.map (·.id)).Nodup) :
    (checkFailed s id now failLimit secondChanceMinSecs jitter mark).2 =
      moved (statusOf s id)
        (statusOf (checkFailed s id now failLimit secondChanceMinSecs jitter mark).1 id) := by
  have hfind : s.proxies.find? (fun r => r.id == id && regularState r) =
      (rowAt id s).filter regularState := find?_key_and hids
  have hset : ∀ set : ProxyRow → ProxyRow, (∀ r, (set r).id = r.id) →
      statusOf (s.updateProxies (fun r => r.id == id && regularState r) set) id =
        (rowAt id s).map fun r => (if regularState r then set r else r).status := by
    intro set hid
    apply statusOf_of_rowAt
    rw [rowAt_updateOne id regularState hid, if_pos rfl]
  unfold checkFailed
  simp only [hfind]
  cases hrow : (rowAt id s).filter regularState with
  | none => exact (moved_self _).symm
  | some row =>
    obtain ⟨hat, hregular⟩ := Option.filter_eq_some_iff.mp hrow
    have hbefore : statusOf s id = some row.status := by rw [statusOf, hat]; rfl
    have hstatus := regularState_iff.mp hregular
    by_cases hlimit : (failLimit : ℤ) ≤ row.failCount + 1
    · simp only [hlimit, if_true]
      have hafter := hset (quarantineSet now (row.failCount + 1)
        (now + secondChanceMinSecs + jitter) mark) fun _ => rfl
      rw [hafter, hat, hbefore]
      rcases hstatus with h | h | h <;>
        simp [moved, moveOf, outOfService, hregular, quarantineSet, h]
    · simp only [hlimit, if_false]
      have hafter := hset (failedSet now (row.failCount + 1) mark) fun _ => rfl
      rw [hafter, hat, hbefore]
      rcases hstatus with h | h | h <;>
        simp [moved, moveOf, outOfService, hregular, failedSet, demote, h]

end RegularFailure

section LadderFailure

variable (now step : ℤ) (delays : List ℤ)

theorem quarantineCheckFailed_transition :
    (quarantineCheckFailed s id now step delays).2 =
      if (max step 0).toNat < delays.length then .unchanged else .removed := by
  unfold quarantineCheckFailed
  cases hdelay : delays[(max step 0).toNat]? with
  | none =>
    have hpast := List.getElem?_eq_none_iff.mp hdelay
    rw [if_neg (by omega)]
  | some delay =>
    obtain ⟨hbound, -⟩ := List.getElem?_eq_some_iff.mp hdelay
    rw [if_pos hbound]

theorem status_afterRecheck (r : ProxyRow) :
    (afterRecheck delays now step r).status =
      if r.status = .quarantine ∧ delays.length ≤ (max step 0).toNat then .removed
      else r.status := by
  unfold afterRecheck
  by_cases hheld : r.status = .quarantine
  · rw [if_pos hheld]
    cases hdelay : delays[(max step 0).toNat]? with
    | none =>
      have hpast := List.getElem?_eq_none_iff.mp hdelay
      simp [ladderRemovedSet, hheld, hpast]
    | some delay =>
      obtain ⟨hbound, -⟩ := List.getElem?_eq_some_iff.mp hdelay
      rw [if_neg (by omega)]
      rfl
  · simp [hheld]

theorem quarantineCheckFailed_reports_iff :
    (quarantineCheckFailed s id now step delays).2 =
        moved (statusOf s id) (statusOf (quarantineCheckFailed s id now step delays).1 id) ↔
      (max step 0).toNat < delays.length ∨ statusOf s id = some .quarantine := by
  have hafter := @rowAt_quarantineCheckFailed s id id now step delays
  rw [if_pos rfl] at hafter
  rw [quarantineCheckFailed_transition, statusOf_of_rowAt hafter, statusOf]
  simp only [status_afterRecheck]
  by_cases hdelay : (max step 0).toNat < delays.length
  · have hstays : ¬delays.length ≤ (max step 0).toNat := by omega
    simp [hdelay, hstays, moved_self]
  · have hpast : delays.length ≤ (max step 0).toNat := by omega
    rw [if_neg hdelay]
    simp only [hdelay, false_or, hpast, and_true]
    cases rowAt id s with
    | none => simp [moved]
    | some r => cases hstatus : r.status <;> simp [moved, moveOf, outOfService, hstatus]

end LadderFailure

/-- A call reports the move that it made exactly when it is candid about the row it found. -/
theorem reports_move_iff (call : Call) (hids : (s.proxies.map (·.id)).Nodup) :
    (call.run s id).2 = moved (statusOf s id) (statusOf (call.run s id).1 id) ↔
      call.Candid (statusOf s id) := by
  cases call with
  | succeeded now latencyMs reset statusTo =>
    exact checkSucceeded_reports_iff now latencyMs reset statusTo hids
  | failed now failLimit minSecs jitter mark =>
    exact iff_of_true (checkFailed_reports now failLimit minSecs jitter mark hids) trivial
  | quarantineFailed now step delays => exact quarantineCheckFailed_reports_iff now step delays

section Samples

def oneRow (status : ProxyStatus) : Store where
  proxies :=
    [{ status := status, id := 1, fingerprint := "f", scheme := .vless, name := "n", host := "h",
       port := 443, credential := "u", params := none, unknownParams := none, rawLine := none,
       createdAt := 0, updatedAt := 0 }]

/-- The second chance of a quarantined row succeeds. -/
theorem reports_move_iff_sample :
    ((Call.succeeded 9 none true .alive).run (oneRow .quarantine) 1).2 =
        moved (statusOf (oneRow .quarantine) 1)
          (statusOf ((Call.succeeded 9 none true .alive).run (oneRow .quarantine) 1).1 1) ↔
      (Call.succeeded 9 none true .alive).Candid (statusOf (oneRow .quarantine) 1) :=
  reports_move_iff _ (by decide)

/-- A success on a row that is alive is reported as a revival, and a failed last recheck of a row
that has been revived in between, or deleted, as a removal. -/
theorem reports_unmade_moves :
    ((Call.succeeded 9 none true .alive).run (oneRow .alive) 1).2 = .revived ∧
      moved (statusOf (oneRow .alive) 1)
        (statusOf ((Call.succeeded 9 none true .alive).run (oneRow .alive) 1).1 1) = .unchanged ∧
      ((Call.quarantineFailed 9 3 [900, 1800, 3600]).run (oneRow .unknown) 1).2 = .removed ∧
      moved (statusOf (oneRow .unknown) 1)
        (statusOf ((Call.quarantineFailed 9 3 [900, 1800, 3600]).run (oneRow .unknown) 1).1 1) =
          .unchanged ∧
      ((Call.quarantineFailed 9 3 [900, 1800, 3600]).run {} 1).2 = .removed := by
  decide

end Samples

end ReportedTransitions
