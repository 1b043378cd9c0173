import Fumox.ProbeLifecycle

/-!
What one step can do to a row.  Every row after a step stems from a row before it, or was inserted
by it, and its lifecycle columns change in one of the few ways listed in `Move`.
-/

namespace LifecycleSteps

open RustText ProxyModels ProxyFingerprint JsonValue RowTable ProxyStore ProbeLifecycle

/-- The ways in which an event may change the lifecycle columns of a row. -/
inductive Move (cfg : ProbeConfig) : Event → ProxyRow → Lifecycle → Prop
  | kept {e r} : Move cfg e r r.toLifecycle
  | pristine {e r} (he : e.Revives) : Move cfg e r {}
  | released {e r} (he : e.Revives) (hr : r.status = .quarantine ∨ r.status = .unknown) :
      Move cfg e r { removedAt := r.removedAt }
  | retired {e r now} (he : ¬e.Revives) (hr : r.status ≠ .removed) :
      Move cfg e r { r.toLifecycle with status := .removed, removedAt := some now }
  | cleaned {e r now} (he : ¬e.Revives) (hr : r.status ≠ .removed) :
      Move cfg e r
        { r.toLifecycle with
          status := .removed, quarantinedAt := none, ladderAt := none, ladderStep := 0
          removedAt := some now }
  | succeeded {c o now r reset tier} (hid : r.id = c.id) (hr : r.status ≠ .removed)
      (htier : tier = .ready → c.lane.Tunnel) :
      Move cfg (.verdict c o now) r (succeededSet now none reset tier r).toLifecycle
  | failed {c jitter now r mark} (hid : r.id = c.id) (hr : regularState r = true)
      (hmark : mark = true → c.lane = .t2) (hlimit : r.failCount + 1 < cfg.failLimit) :
      Move cfg (.verdict c (.failed jitter) now) r
        (failedSet now (r.failCount + 1) mark r).toLifecycle
  | quarantined {c jitter now r mark at_} (hid : r.id = c.id) (hr : regularState r = true)
      (hmark : mark = true → c.lane = .t2) (hlimit : cfg.failLimit ≤ r.failCount + 1) :
      Move cfg (.verdict c (.failed jitter) now) r
        (quarantineSet now (r.failCount + 1) at_ mark r).toLifecycle
  | engineUnavailable {c now r} (hid : r.id = c.id) (hr : regularState r = true)
      (hlane : c.lane.Tunnel) :
      Move cfg (.verdict c .engineUnavailable now) r (engineUnavailableSet now r).toLifecycle
  | ladderRemoved {c o now r} (hid : r.id = c.id) (hr : r.status = .quarantine) :
      Move cfg (.verdict c o now) r (ladderRemovedSet now r).toLifecycle
  | ladderAdvanced {c o now r nextAt step} (hid : r.id = c.id) (hr : r.status = .quarantine) :
      Move cfg (.verdict c o now) r (ladderAdvancedSet now nextAt step r).toLifecycle

structure RowStep (cfg : ProbeConfig) (e : Event) (r r' : ProxyRow) : Prop where
  id : r'.id = r.id
  scheme : r'.scheme = r.scheme
  move : Move cfg e r r'.toLifecycle

/-- Ids are distinct and were all handed out by the sequence. -/
structure WellKeyed (s : Store) : Prop where
  nodup : (s.proxies.map (·.id)).Nodup
  fresh : ∀ r ∈ s.proxies, r.id < s.nextId

/-- A row that the event inserted into `s`, as the insert left it. -/
structure Inserted (e : Event) (s : Store) (r : ProxyRow) : Prop where
  ingest : ¬e.Revives
  pristine : r.toLifecycle = {}
  fresh : s.nextId ≤ r.id

/-- The row after a step and where it comes from. -/
structure Steps (cfg : ProbeConfig) (e : Event) (s s' : Store) : Prop where
  nextId : s.nextId ≤ s'.nextId
  keyed : WellKeyed s'
  rows : ∀ r' ∈ s'.proxies, ∃ r, (r ∈ s.proxies ∨ Inserted e s r) ∧ RowStep cfg e r r'

variable {lib : Libraries} {cfg : ProbeConfig} {e : Event} {s s' : Store} {r r' : ProxyRow}

theorem WellKeyed.unique (h : WellKeyed s) (hr : r ∈ s.proxies) (hr' : r' ∈ s.proxies)
    (hid : r.id = r'.id) : r = r' :=
  List.inj_on_of_nodup_map h.nodup hr hr' hid

theorem WellKeyed.find_eq (h : WellKeyed s) (hr : r ∈ s.proxies) {p : ProxyRow → Bool}
    (hp : p r = true) : s.proxies.find? (fun x => x.id == r.id && p x) = some r := by
  cases hfind : s.proxies.find? (fun x => x.id == r.id && p x) with
  | none => simpa [hp] using List.find?_eq_none.mp hfind r hr
  | some x =>
    have hx := List.find?_some hfind
    simp only [Bool.and_eq_true, beq_iff_eq] at hx
    rw [h.unique (List.mem_of_find?_eq_some hfind) hr hx.1]

theorem RowStep.refl : RowStep cfg e r r :=
  ⟨rfl, rfl, .kept⟩

theorem Steps.congr {s'' : Store} (h : Steps cfg e s s') (hproxies : s''.proxies = s'.proxies)
    (hnext : s''.nextId = s'.nextId) : Steps cfg e s s'' where
  nextId := h.nextId.trans hnext.ge
  keyed := ⟨hproxies ▸ h.keyed.nodup, by rw [hproxies, hnext]; exact h.keyed.fresh⟩
  rows := hproxies ▸ h.rows

theorem Steps.refl (h : WellKeyed s) : Steps cfg e s s where
  nextId := le_rfl
  keyed := h
  rows := fun r hr => ⟨r, .inl hr, .refl⟩

theorem Steps.of_eq (h : WellKeyed s) (hproxies : s'.proxies = s.proxies)
    (hnext : s'.nextId = s.nextId) : Steps cfg e s s' :=
  (Steps.refl h).congr hproxies hnext

theorem WellKeyed.updateProxies (h : WellKeyed s) {guard : ProxyRow → Bool}
    {set : ProxyRow → ProxyRow} (hid : ∀ r, (set r).id = r.id) :
    WellKeyed (s.updateProxies guard set) where
  nodup := by
    rw [Store.proxies_updateProxies, map_updateWhere hid]
    exact h.nodup
  fresh := by
    intro r hr
    rcases mem_updateWhere_cases hr with ⟨hr, -⟩ | ⟨r₀, hr₀, -, rfl⟩
    · exact h.fresh r hr
    · rw [hid]
      exact h.fresh r₀ hr₀

theorem Steps.updateProxies (h : WellKeyed s) {guard : ProxyRow → Bool}
    {set : ProxyRow → ProxyRow} (hid : ∀ r, (set r).id = r.id)
    (hset : ∀ r ∈ s.proxies, guard r = true → RowStep cfg e r (set r)) :
    Steps cfg e s (s.updateProxies guard set) where
  nextId := le_rfl
  keyed := h.updateProxies hid
  rows := by
    intro r hr
    rcases mem_updateWhere_cases hr with ⟨hr, -⟩ | ⟨r₀, hr₀, hguard, rfl⟩
    · exact ⟨r, .inl hr, .refl⟩
    · exact ⟨r₀, .inl hr₀, hset r₀ hr₀ hguard⟩

section Verdicts

variable {c : Check} {o : Outcome} {now : ℤ}

theorem steps_checkSucceeded (h : WellKeyed s) {latencyMs : Option ℤ} {reset : Bool}
    {tier : ProxyStatus} (htier : tier = .ready → c.lane.Tunnel) :
    Steps cfg (.verdict c o now) s (checkSucceeded s c.id now latencyMs reset tier).1 := by
  refine .updateProxies h (fun _ => rfl) fun r _ hguard => ⟨rfl, rfl, ?_⟩
  simp only [Bool.and_eq_true, beq_iff_eq, bne_iff_ne] at hguard
  exact .succeeded hguard.1 hguard.2 htier

theorem steps_checkFailed (h : WellKeyed s) {jitter : ℤ} {mark : Bool}
    (hmark : mark = true → c.lane = .t2) :
    Steps cfg (.verdict c (.failed jitter) now) s
      (checkFailed s c.id now cfg.failLimit cfg.secondChanceMinSecs jitter mark).1 := by
  dsimp only [checkFailed]
  split
  · exact .of_eq h rfl rfl
  next row hrow =>
    -- the counter that the statement read belongs to the one row with this id
    have hfound : ∀ r ∈ s.proxies, r.id = c.id → r = row := by
      intro r hr hid
      have hguard := List.find?_some hrow
      simp only [Bool.and_eq_true, beq_iff_eq] at hguard
      exact h.unique hr (List.mem_of_find?_eq_some hrow) (hid.trans hguard.1.symm)
    split_ifs with hlimit
    · refine .updateProxies h (fun _ => rfl) fun r hr hguard => ⟨rfl, rfl, ?_⟩
      simp only [Bool.and_eq_true, beq_iff_eq] at hguard
      obtain rfl := hfound r hr hguard.1
      exact .quarantined hguard.1 hguard.2 hmark hlimit
    · refine .updateProxies h (fun _ => rfl) fun r hr hguard => ⟨rfl, rfl, ?_⟩
      simp only [Bool.and_eq_true, beq_iff_eq] at hguard
      obtain rfl := hfound r hr hguard.1
      exact .failed hguard.1 hguard.2 hmark (not_le.mp hlimit)

theorem steps_checkEngineUnavailable (h : WellKeyed s) (hlane : c.lane.Tunnel) :
    Steps cfg (.verdict c .engineUnavailable now) s (checkEngineUnavailable s c.id now).1 := by
  refine .updateProxies h (fun _ => rfl) fun r _ hguard => ⟨rfl, rfl, ?_⟩
  simp only [Bool.and_eq_true, beq_iff_eq] at hguard
  exact .engineUnavailable hguard.1 hguard.2 hlane

theorem steps_quarantineCheckFailed (h : WellKeyed s) {step : ℤ} {delays : List ℤ} :
    Steps cfg (.verdict c o now) s (quarantineCheckFailed s c.id now step delays).1 := by
  dsimp only [quarantineCheckFailed]
  split
  · refine .updateProxies h (fun _ => rfl) fun r _ hguard => ⟨rfl, rfl, ?_⟩
    simp only [Bool.and_eq_true, beq_iff_eq] at hguard
    exact .ladderRemoved hguard.1 hguard.2
  · refine .updateProxies h (fun _ => rfl) fun r _ hguard => ⟨rfl, rfl, ?_⟩
    simp only [Bool.and_eq_true, beq_iff_eq] at hguard
    exact .ladderAdvanced hguard.1 hguard.2

theorem steps_applyVerdict (h : WellKeyed s) :
    Steps cfg (.verdict c o now) s (applyVerdict cfg s c o now) := by
  unfold applyVerdict
  split
  case h_1 => exact steps_checkSucceeded h (by simp)
  case h_2 => exact steps_checkFailed h (by simp)
  case h_3 hlane => exact steps_checkSucceeded h fun _ => .inl hlane
  case h_4 hlane => exact steps_checkFailed h fun _ => hlane
  case h_5 => exact steps_checkSucceeded h (by simp)
  case h_6 hlane => exact steps_checkSucceeded h fun _ => .inr hlane
  case h_7 => exact steps_quarantineCheckFailed h
  case h_8 => exact steps_quarantineCheckFailed h
  case h_9 hlane => exact steps_checkEngineUnavailable h (.inl hlane)
  case h_10 hlane => exact steps_checkEngineUnavailable h (.inr hlane)
  case h_11 => exact .of_eq h rfl rfl
  case h_12 => exact .of_eq h rfl rfl

end Verdicts

section Queue

variable {now : ℤ}

@[simp] theorem enqueueChunk_proxies (s : Store) (chunk : List ℕ) (remaining : ℕ) :
    (enqueueChunk s chunk remaining now).1.proxies = s.proxies := rfl

@[simp] theorem enqueueChunk_nextId (s : Store) (chunk : List ℕ) (remaining : ℕ) :
    (enqueueChunk s chunk remaining now).1.nextId = s.nextId := rfl

theorem enqueueChunks_frame (now : ℤ) (s : Store) (chunks : List (List ℕ)) (remaining : ℕ) :
    (enqueueChunks now s chunks remaining).1.proxies = s.proxies ∧
      (enqueueChunks now s chunks remaining).1.nextId = s.nextId := by
  induction chunks generalizing s remaining with
  | nil => exact ⟨rfl, rfl⟩
  | cons chunk chunks ih =>
    unfold enqueueChunks
    split_ifs
    · exact ⟨rfl, rfl⟩
    · exact ih (enqueueChunk s chunk remaining now).1 _

theorem Steps.enqueueChecks {s₀ : Store} (h : Steps cfg e s₀ s) (ids : List ℕ) (limit : ℕ) :
    Steps cfg e s₀ (enqueueChecks s ids limit now).1 := by
  obtain ⟨hproxies, hnext⟩ := enqueueChunks_frame now s
    ((ids.insertionSort (· ≥ ·)).dedup.toChunks 500) limit
  exact h.congr hproxies hnext

end Queue

section Revival

variable {now : ℤ}

theorem steps_pristine (h : WellKeyed s) (he : e.Revives) {guard : ProxyRow → Bool} :
    Steps cfg e s (s.updateProxies guard (pristineSet now)) :=
  .updateProxies h (fun _ => rfl) fun _ _ _ => ⟨rfl, rfl, .pristine he⟩

theorem steps_resetStatus (h : WellKeyed s) (he : e.Revives) (id : ℕ) :
    Steps cfg e s (resetStatus s id now).1 := by
  unfold resetStatus
  split_ifs
  · exact (steps_pristine h he).enqueueChecks [id] 1
  · exact .of_eq h rfl rfl

theorem steps_reviveQuarantine (h : WellKeyed s) (he : e.Revives) :
    Steps cfg e s (reviveQuarantine s now).1 := by
  refine .updateProxies h (fun _ => rfl) fun r _ hguard => ⟨rfl, rfl, ?_⟩
  simp only [Bool.and_eq_true, beq_iff_eq] at hguard
  exact .released he (.inl hguard.1)

/-- The two arms are disjoint: a row that the first one wrote carries no T2 failure. -/
theorem steps_reviveRemovedWithoutProbeHistory (h : WellKeyed s) (he : e.Revives) :
    Steps cfg e s (reviveRemovedWithoutProbeHistory s now).1 where
  nextId := le_rfl
  keyed := by
    have hremoved : Steps cfg e s (s.updateProxies
        (fun r => r.status == .removed && !s.hasResult r.id && s.hasLink r.id)
        (pristineSet now)) := steps_pristine h he
    exact hremoved.keyed.updateProxies fun _ => rfl
  rows := by
    intro r hr
    rcases mem_updateWhere_cases hr with ⟨hr, -⟩ | ⟨r₁, hr₁, hfrozen, rfl⟩
    · exact (steps_pristine h he).rows r hr
    · simp only [Bool.and_eq_true, beq_iff_eq] at hfrozen
      rcases mem_updateWhere_cases hr₁ with ⟨hr₁, -⟩ | ⟨r₀, hr₀, -, rfl⟩
      · refine ⟨r₁, .inl hr₁, rfl, rfl, ?_⟩
        have hmove : Move cfg e r₁ { removedAt := r₁.removedAt } :=
          .released he (.inr hfrozen.1.1.1)
        simpa [resetSet, hfrozen.1.1.1] using hmove
      · exact ⟨r₀, .inl hr₀, rfl, rfl, .pristine he⟩

end Revival

section Cleanup

variable {now : ℤ}

theorem steps_cleanup (h : WellKeyed s) (he : ¬e.Revives) {guard : ProxyRow → Bool}
    (hguard : ∀ r, guard r = true → r.status ≠ .removed) :
    Steps cfg e s (s.updateProxies guard (cleanupSet now)) :=
  .updateProxies h (fun _ => rfl) fun r _ hr => ⟨rfl, rfl, .cleaned he (hguard r hr)⟩

theorem liveTier_ne_removed (h : liveTier r = true) : r.status ≠ .removed := by
  intro hr
  simp [liveTier, hr] at h

theorem steps_markOrphansRemoved (h : WellKeyed s) (he : ¬e.Revives)
    (statuses : List ProxyStatus) :
    Steps cfg e s (markOrphansRemoved s statuses now) := by
  refine .updateProxies h (fun _ => rfl) fun r _ hguard => ⟨rfl, rfl, ?_⟩
  simp only [Bool.and_eq_true, bne_iff_ne] at hguard
  exact .retired he hguard.1.1

theorem steps_purgeRemoved (h : WellKeyed s) : Steps cfg e s (purgeRemoved s) where
  nextId := le_rfl
  keyed := ⟨h.nodup.sublist (List.filter_sublist.map _),
    fun r hr => h.fresh r (List.mem_of_mem_filter hr)⟩
  rows := fun r hr => ⟨r, .inl (List.mem_of_mem_filter hr), .refl⟩

end Cleanup

section Reconcile

variable {now : ℤ}

/-- Rows of `s` are rows of `s₀` with refreshed identity fields, or inserted since. -/
structure Upserted (e : Event) (s₀ s : Store) : Prop where
  nextId : s₀.nextId ≤ s.nextId
  keyed : WellKeyed s
  rows : ∀ r ∈ s.proxies, ∃ r₀, (r₀ ∈ s₀.proxies ∨ Inserted e s₀ r₀) ∧
    r.id = r₀.id ∧ r.scheme = r₀.scheme ∧ r.toLifecycle = r₀.toLifecycle

theorem Upserted.refl (h : WellKeyed s) : Upserted e s s :=
  ⟨le_rfl, h, fun r hr => ⟨r, .inl hr, rfl, rfl, rfl⟩⟩

/-- A conflicting row keeps its lifecycle, a new one starts pristine under a fresh id. -/
theorem Upserted.upsertEntry {s₀ : Store} (h : Upserted e s₀ s) (he : ¬e.Revives)
    (entry : ProxyEntry) (stamp : GeoStamp) :
    Upserted e s₀ (upsertEntry lib s entry stamp now) := by
  obtain ⟨hnext, hkeyed, hrows⟩ := h
  dsimp only [ProxyStore.upsertEntry]
  split_ifs
  · refine ⟨hnext, hkeyed.updateProxies fun _ => rfl, ?_⟩
    intro r hr
    rcases mem_updateWhere_cases hr with ⟨hr, -⟩ | ⟨r₁, hr₁, -, rfl⟩
    · exact hrows r hr
    · exact hrows r₁ hr₁
  · refine ⟨hnext.trans (Nat.le_succ _), ⟨?_, ?_⟩, ?_⟩
    · rw [List.map_append, List.nodup_append]
      refine ⟨hkeyed.nodup, by simp, ?_⟩
      rintro a ha b hb rfl
      obtain ⟨r, hr, rfl⟩ := List.mem_map.mp ha
      have hfresh := hkeyed.fresh r hr
      simp only [List.map_singleton, List.mem_singleton, insertedRow] at hb
      omega
    · intro r hr
      rcases List.mem_append.mp hr with hr | hr
      · exact (hkeyed.fresh r hr).trans (Nat.lt_succ_self _)
      · obtain rfl := List.mem_singleton.mp hr
        exact Nat.lt_succ_self _
    · intro r hr
      rcases List.mem_append.mp hr with hr | hr
      · exact hrows r hr
      · obtain rfl := List.mem_singleton.mp hr
        exact ⟨_, .inr ⟨he, rfl, hnext⟩, rfl, rfl, rfl⟩

theorem Upserted.upsertEntries {s₀ : Store} (h : Upserted e s₀ s) (he : ¬e.Revives)
    (entries : List ProxyEntry) (geo : List (Option GeoStamp)) :
    Upserted e s₀ (upsertEntries lib now s entries geo) := by
  induction entries generalizing s geo with
  | nil => exact h
  | cons entry entries ih => exact ih (h.upsertEntry he entry _) geo.tail

theorem Upserted.steps {s₀ : Store} (h : Upserted e s₀ s) : Steps cfg e s₀ s where
  nextId := h.nextId
  keyed := h.keyed
  rows := by
    intro r hr
    obtain ⟨r₀, hr₀, hid, hscheme, hlife⟩ := h.rows r hr
    exact ⟨r₀, hr₀, hid, hscheme, hlife ▸ .kept⟩

theorem Upserted.retire {s₀ : Store} (h : Upserted e s₀ s) (he : ¬e.Revives)
    {guard : ProxyRow → Bool}
    (hguard : ∀ r, guard r = true → r.status ≠ .removed) :
    Steps cfg e s₀ (s.updateProxies guard (retire now)) where
  nextId := h.nextId
  keyed := h.keyed.updateProxies fun _ => rfl
  rows := by
    intro r hr
    rcases mem_updateWhere_cases hr with ⟨hr, -⟩ | ⟨r₁, hr₁, hg, rfl⟩
    · exact h.steps.rows r hr
    · obtain ⟨r₀, hr₀, hid, hscheme, hlife⟩ := h.rows r₁ hr₁
      have hactive : r₀.status ≠ .removed := by
        rw [← show r₁.status = r₀.status from congrArg Lifecycle.status hlife]
        exact hguard r₁ hg
      refine ⟨r₀, hr₀, hid, hscheme, ?_⟩
      have hmove : Move cfg e r₀
          { r₀.toLifecycle with status := .removed, removedAt := some now } := .retired he hactive
      rw [← hlife] at hmove
      exact hmove

theorem steps_reconcileSource (h : WellKeyed s) (he : ¬e.Revives) {sourceId : Text}
    {entries : List ProxyEntry} {geo : List (Option GeoStamp)} {linger : Bool}
    {stats : ReconciliationStats}
    (hok : reconcileSource lib s sourceId entries geo now linger = .ok (s', stats)) :
    Steps cfg e s s' := by
  have hup : Upserted e s (upsertEntries lib now s entries geo) :=
    (Upserted.refl h).upsertEntries he entries geo
  have hactive : ∀ (s₂ : Store) (r : ProxyRow),
      (r.status != .removed && losesLastLink s₂ sourceId now r.id) = true →
        r.status ≠ .removed := by
    intro s₂ r hr
    simp only [Bool.and_eq_true, bne_iff_ne] at hr
    exact hr.1
  unfold reconcileSource at hok
  split at hok
  · cases hok
  dsimp only at hok
  split at hok
  · cases hok
  next proxyIds _ =>
    obtain ⟨rfl, -⟩ := Prod.mk.inj (Except.ok.inj hok)
    cases linger with
    | true => exact hup.steps.congr rfl rfl
    | false =>
      -- the orphan sweep reads the links as the pass stamped them
      let stamped : Store :=
        { upsertEntries lib now s entries geo with
          links := proxyIds.foldl (stampLink sourceId now)
            (upsertEntries lib now s entries geo).links }
      exact (hup.retire he (hactive stamped)).congr rfl rfl

end Reconcile

variable (lib cfg) in
theorem steps_nextStore (h : WellKeyed s) (e : Event) :
    Steps cfg e s (nextStore lib cfg s e) := by
  cases e with
  | selectT1 | selectQueued | selectT2 | selectDueQuarantine | selectDueQuarantineT2 | abandon
  | claimChecks | purgeResultsBefore | purgeSettledChecks | purgeRequestsBefore
  | deleteSource => exact .of_eq h rfl rfl
  | journal result =>
    simp only [nextStore, insertResult]
    split_ifs
    · exact .of_eq h rfl rfl
    · exact .of_eq h rfl rfl
  | verdict => exact steps_applyVerdict h
  | reconcileSource sourceId entries geo now linger =>
    simp only [nextStore]
    split
    next hok => exact steps_reconcileSource h (by exact id) hok
    next => exact .of_eq h rfl rfl
  | updateGeo =>
    exact .updateProxies h (fun _ => rfl) fun _ _ _ => ⟨rfl, rfl, .kept⟩
  | enqueueChecks ids limit now =>
    exact (Steps.of_eq h rfl rfl).enqueueChecks ids limit
  | resetStatus id now => exact steps_resetStatus h (by trivial) id
  | reviveRemoved | reviveRemovedByCountry | reviveRemovedByAsn => exact steps_pristine h (by trivial)
  | reviveRemovedWithoutProbeHistory now =>
    exact steps_reviveRemovedWithoutProbeHistory h (by trivial)
  | reviveQuarantine now => exact steps_reviveQuarantine h (by trivial)
  | markOrphansRemoved statuses now => exact steps_markOrphansRemoved h (by exact id) statuses
  | purgeRemoved => exact steps_purgeRemoved h
  | quarantineToRemoved now =>
    refine steps_cleanup h (by exact id) fun r hr => ?_
    simp only [beq_iff_eq] at hr
    simp [hr]
  | removeAliveWithoutCountry | removeAliveByAsn | removeAliveByCountry =>
    refine steps_cleanup h (by exact id) fun r hr => ?_
    simp only [Bool.and_eq_true] at hr
    exact liveTier_ne_removed hr.1
  | removeUnprobeableUnknown now =>
    refine steps_cleanup h (by exact id) fun r hr => ?_
    simp only [Bool.and_eq_true, beq_iff_eq] at hr
    simp [hr.1]

end LifecycleSteps
