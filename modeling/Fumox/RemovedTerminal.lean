import Fumox.LaneCoverage

/-!
`removed` is terminal for the probe and for ingest: only an operator's reset or a revival leads out
of it, and each of these leaves a pristine lifecycle.
-/

namespace RemovedTerminal

open RowTable ProxyModels ProxyStore ProbeLifecycle LifecycleSteps LifecycleInvariants LaneCoverage
  TransitionRuns

structure Cleared (l : Lifecycle) : Prop where
  failCount : l.failCount = 0
  ladderStep : l.ladderStep = 0
  ladderAt : l.ladderAt = none
  quarantinedAt : l.quarantinedAt = none
  removedAt : l.removedAt = none
  lastT2FailedAt : l.lastT2FailedAt = none

variable {lib : Libraries} {cfg : ProbeConfig} {e : Event} {w : World} {r r' : ProxyRow}
  {l : Lifecycle}

theorem revives_of_move (h : Move cfg e r l) (hr : r.status = .removed) (hl : l.status ≠ .removed) :
    e.Revives := by
  cases h with
  | kept => exact absurd hr hl
  | pristine he | released he => exact he
  | retired _ hne | cleaned _ hne | succeeded _ hne => exact absurd hr hne
  | failed _ hregular | quarantined _ hregular | engineUnavailable _ hregular =>
    simp [regularState, hr] at hregular
  | ladderRemoved _ hquarantine | ladderAdvanced _ hquarantine => simp [hr] at hquarantine

theorem cleared_of_move (h : Move cfg e r l) (he : e.Revives)
    (hrow : RowInvariant r.scheme r.toLifecycle) :
    l = r.toLifecycle ∨ (l.status = .unknown ∧ Cleared l) := by
  cases h with
  | kept => exact .inl rfl
  | pristine => exact .inr ⟨rfl, rfl, rfl, rfl, rfl, rfl, rfl⟩
  | released _ hstatus =>
    -- the statement leaves `removed_at` alone, but an active row never carries one
    have hactive : r.removedAt = none := by
      refine hrow.active ?_
      rcases hstatus with hstatus | hstatus <;> simp [hstatus]
    exact .inr ⟨rfl, rfl, rfl, rfl, rfl, hactive, rfl⟩
  | retired hne | cleaned hne => exact absurd he hne
  | succeeded | failed | quarantined | engineUnavailable | ladderRemoved | ladderAdvanced =>
    exact absurd he id

/-- The rows that a reset or a revival reports. -/
def revivedIds (s : Store) : Event → List ℕ
  | .resetStatus id now => if (resetStatus s id now).2 then [id] else []
  | .reviveRemoved fingerprints now => (reviveRemoved s fingerprints now).2
  | .reviveRemovedByCountry code now => (reviveRemovedByCountry s code now).2
  | .reviveRemovedByAsn asn now => (reviveRemovedByAsn s asn now).2
  | .reviveRemovedWithoutProbeHistory now => (reviveRemovedWithoutProbeHistory s now).2
  | .reviveQuarantine now => (reviveQuarantine s now).2
  | _ => []

/-- A row of this id stands at the starting square. -/
def Restarted (s : Store) (id : ℕ) : Prop :=
  ∃ r ∈ s.proxies, r.id = id ∧ r.status = .unknown ∧ Cleared r.toLifecycle

section Reported

variable {s : Store} {guard : ProxyRow → Bool} {now : ℤ} {id : ℕ}

theorem cleared_resetSet (hr : r.removedAt = none) : Cleared (resetSet now r).toLifecycle :=
  ⟨rfl, rfl, rfl, rfl, hr, rfl⟩

theorem restarted_pristineSet (hid : id ∈ (updateReturning s guard (pristineSet now)).2) :
    Restarted (updateReturning s guard (pristineSet now)).1 id := by
  obtain ⟨r, hr, rfl⟩ := List.mem_map.mp hid
  obtain ⟨hr, hguard⟩ := List.mem_filter.mp hr
  refine ⟨pristineSet now r, mem_updateWhere.mpr ⟨r, hr, if_pos hguard⟩, rfl, rfl, ?_⟩
  exact ⟨rfl, rfl, rfl, rfl, rfl, rfl⟩

theorem restarted_frozen (hactive : ∀ r ∈ s.proxies, r.status = .unknown → r.removedAt = none)
    (hguard : ∀ r, guard r = true → r.status = .unknown)
    (hid : id ∈ (updateReturning s guard (resetSet now)).2) :
    Restarted (updateReturning s guard (resetSet now)).1 id := by
  obtain ⟨r, hr, rfl⟩ := List.mem_map.mp hid
  obtain ⟨hr, hset⟩ := List.mem_filter.mp hr
  have hunknown := hguard r hset
  exact ⟨resetSet now r, mem_updateWhere.mpr ⟨r, hr, if_pos hset⟩, rfl, hunknown,
    cleared_resetSet (hactive r hr hunknown)⟩

theorem Restarted.resetSet (h : Restarted s id) :
    Restarted (s.updateProxies guard (resetSet now)) id := by
  obtain ⟨r, hr, hid, hstatus, hcleared⟩ := h
  have hmem : (if guard r then ProxyStore.resetSet now r else r) ∈
      (s.updateProxies guard (ProxyStore.resetSet now)).proxies :=
    mem_updateWhere.mpr ⟨r, hr, rfl⟩
  split_ifs at hmem
  · exact ⟨_, hmem, hid, hstatus, cleared_resetSet hcleared.removedAt⟩
  · exact ⟨r, hmem, hid, hstatus, hcleared⟩

theorem restarted_resetStatus (h : (resetStatus s id now).2 = true) :
    Restarted (resetStatus s id now).1 id := by
  unfold resetStatus at h ⊢
  split_ifs at h ⊢ with hany
  obtain ⟨r, hr, hguard⟩ := List.any_eq_true.mp hany
  have hid : r.id = id := by
    simp only [resettable, Bool.and_eq_true, beq_iff_eq] at hguard
    exact hguard.1.1
  have hframe := (enqueueChunks_frame now (s.updateProxies (resettable s id) (pristineSet now))
    (([id].insertionSort (· ≥ ·)).dedup.toChunks 500) 1).1
  refine ⟨pristineSet now r, ?_, hid, rfl, rfl, rfl, rfl, rfl, rfl, rfl⟩
  unfold enqueueChecks
  dsimp only
  rw [hframe]
  exact mem_updateWhere.mpr ⟨r, hr, if_pos hguard⟩

theorem restarted_reviveQuarantine (hrows : ∀ r ∈ s.proxies, RowInvariant r.scheme r.toLifecycle)
    (hid : id ∈ (reviveQuarantine s now).2) : Restarted (reviveQuarantine s now).1 id := by
  obtain ⟨r, hr, rfl⟩ := List.mem_map.mp hid
  obtain ⟨hr, hguard⟩ := List.mem_filter.mp hr
  have hstatus : r.status = .quarantine := by
    simp only [Bool.and_eq_true, beq_iff_eq] at hguard
    exact hguard.1
  have hremoved : r.removedAt = none := (hrows r hr).active (by simp [hstatus])
  exact ⟨releaseSet now r, mem_updateWhere.mpr ⟨r, hr, if_pos hguard⟩, rfl, rfl,
    rfl, rfl, rfl, rfl, hremoved, rfl⟩

theorem restarted_withoutProbeHistory
    (hrows : ∀ r ∈ s.proxies, RowInvariant r.scheme r.toLifecycle)
    (hid : id ∈ (reviveRemovedWithoutProbeHistory s now).2) :
    Restarted (reviveRemovedWithoutProbeHistory s now).1 id := by
  rcases List.mem_append.mp hid with hremoved | hfrozen
  · exact (restarted_pristineSet hremoved).resetSet
  · refine restarted_frozen (fun r hr hstatus => ?_) (fun r hguard => ?_) hfrozen
    · rcases mem_updateWhere_cases hr with ⟨hr, -⟩ | ⟨r₀, -, -, rfl⟩
      · exact (hrows r hr).active (by simp [hstatus])
      · rfl
    · simp only [Bool.and_eq_true, beq_iff_eq] at hguard
      exact hguard.1.1.1

end Reported

/-- In every run, a removed row changes its status only by a reset or a revival, each of these
leaves every row either untouched or at the starting square, and the rows that it reports are
there. -/
theorem removed_is_terminal (h : Reachable (lifecycle lib cfg) Any w) :
    (∀ r ∈ w.store.proxies, r.status = .removed →
      ∀ r' ∈ ((lifecycle lib cfg).next w e).store.proxies, r'.id = r.id →
        r'.status ≠ .removed → e.Revives ∧ Cleared r'.toLifecycle) ∧
    (e.Revives → ∀ r' ∈ ((lifecycle lib cfg).next w e).store.proxies,
      ∃ r ∈ w.store.proxies, r.id = r'.id ∧
        (r'.toLifecycle = r.toLifecycle ∨
          (r'.status = .unknown ∧ Cleared r'.toLifecycle))) ∧
    ∀ id ∈ revivedIds w.store e, Restarted ((lifecycle lib cfg).next w e).store id := by
  have hinv := reachable_invariant h
  have hsteps := steps_nextStore lib cfg hinv.keyed e
  refine ⟨?_, ?_, ?_⟩
  · intro r hr hremoved r' hr' hid hactive
    obtain ⟨r₀, hr₀ | hr₀, hstep⟩ := hsteps.rows r' hr'
    · obtain rfl := hinv.keyed.unique hr₀ hr (hstep.id.symm.trans hid)
      have hrevives := revives_of_move hstep.move hremoved hactive
      refine ⟨hrevives, ?_⟩
      rcases cleared_of_move hstep.move hrevives (hinv.rows r₀ hr₀) with hkept | ⟨-, hcleared⟩
      · exact absurd (congrArg Lifecycle.status hkept |>.trans hremoved) hactive
      · exact hcleared
    · -- an inserted row has a new id
      have hold := hinv.keyed.fresh r hr
      have hnew := hr₀.fresh
      have hsame := hstep.id
      omega
  · intro hrevives r' hr'
    obtain ⟨r, hr | hr, hstep⟩ := hsteps.rows r' hr'
    · exact ⟨r, hr, hstep.id.symm, cleared_of_move hstep.move hrevives (hinv.rows r hr)⟩
    · exact absurd hrevives hr.ingest
  · intro id hid
    cases e with
    | resetStatus reset now =>
      simp only [revivedIds] at hid
      split_ifs at hid with hreset
      · rw [List.mem_singleton.mp hid]
        exact restarted_resetStatus hreset
      · cases hid
    | reviveRemoved | reviveRemovedByCountry | reviveRemovedByAsn =>
      exact restarted_pristineSet hid
    | reviveRemovedWithoutProbeHistory now =>
      exact restarted_withoutProbeHistory hinv.rows hid
    | reviveQuarantine now => exact restarted_reviveQuarantine hinv.rows hid
    | _ => cases hid

def removedAfterCleanup : World :=
  (ingestedAndDrawn ++ [Event.removeAliveWithoutCountry 1004]).foldl
    (lifecycle sampleLibraries defaultConfig).next {}

theorem removed_is_terminal_sample :
    (∀ r ∈ removedAfterCleanup.store.proxies, r.status = .removed →
      ∀ r' ∈ ((lifecycle sampleLibraries defaultConfig).next removedAfterCleanup
          (.resetStatus 1 1005)).store.proxies, r'.id = r.id →
        r'.status ≠ .removed → (Event.resetStatus 1 1005).Revives ∧ Cleared r'.toLifecycle) ∧
    ((Event.resetStatus 1 1005).Revives →
      ∀ r' ∈ ((lifecycle sampleLibraries defaultConfig).next removedAfterCleanup
          (.resetStatus 1 1005)).store.proxies,
        ∃ r ∈ removedAfterCleanup.store.proxies, r.id = r'.id ∧
          (r'.toLifecycle = r.toLifecycle ∨
            (r'.status = .unknown ∧ Cleared r'.toLifecycle))) ∧
    ∀ id ∈ revivedIds removedAfterCleanup.store (.resetStatus 1 1005),
      Restarted ((lifecycle sampleLibraries defaultConfig).next removedAfterCleanup
        (.resetStatus 1 1005)).store id :=
  removed_is_terminal (.execute (.init rfl) (by decide +kernel))

example : revivedIds removedAfterCleanup.store (.resetStatus 1 1005) = [1] := by decide +kernel

end RemovedTerminal
