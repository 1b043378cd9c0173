import Fumox.ReconcilePass

/-!
The representation invariant of the lifecycle columns: which of them are set in which status, in
every run in which no pass retires a row off the quarantine ladder.
-/

namespace RowRepresentation

open RustText ProxyModels ProxyFingerprint RowTable ProxyStore ProbeLifecycle LifecycleSteps
  LifecycleInvariants LaneCoverage ProxyIdentity ReconcilePass TransitionRuns

/-- The columns of a row with `delays` ladder delays configured. -/
structure Represented (delays : ℕ) (l : Lifecycle) : Prop where
  quarantine : l.status = .quarantine →
    l.ladderAt ≠ none ∧ l.quarantinedAt ≠ none ∧ 0 ≤ l.ladderStep ∧ l.ladderStep ≤ delays
  active : l.status = .unknown ∨ l.status = .alive ∨ l.status = .ready →
    l.ladderAt = none ∧ l.quarantinedAt = none ∧ l.removedAt = none ∧ l.ladderStep = 0
  removed : l.status = .removed → l.removedAt ≠ none ∧ l.ladderAt = none

/-- The event retires a row that still stands on the quarantine ladder. -/
def RetiresQuarantined (lib : Libraries) (w : World) : Event → Prop
  | .reconcileSource sourceId entries geo now linger =>
    geo.length ≤ entries.length ∧ linger = false ∧ ∃ r ∈ w.store.proxies, r.status = .quarantine ∧
      r.fingerprint ∉ entries.map (fingerprint lib.sha256) ∧
        losesLastLink w.store sourceId now r.id = true
  | .markOrphansRemoved protectedStatuses _ =>
    ProxyStatus.quarantine ∉ protectedStatuses ∧
      ∃ r ∈ w.store.proxies, r.status = .quarantine ∧ w.store.hasLink r.id = false
  | _ => False

instance (lib : Libraries) (w : World) (e : Event) : Decidable (RetiresQuarantined lib w e) := by
  unfold RetiresQuarantined
  casesm Event <;> infer_instance

variable {lib : Libraries} {cfg : ProbeConfig} {w : World} {s s' : Store} {e : Event} {delays : ℕ}
  {r : ProxyRow} {now : ℤ}

theorem Represented.pristine (delays : ℕ) : Represented delays {} :=
  ⟨by simp, by simp, by simp⟩

theorem Represented.ladderStep_nonneg {l : Lifecycle} (h : Represented delays l)
    (hl : l.status ≠ .removed) : 0 ≤ l.ladderStep := by
  cases hs : l.status with
  | quarantine => exact (h.quarantine hs).2.2.1
  | removed => exact absurd hs hl
  | unknown => exact (h.active (.inl hs)).2.2.2.ge
  | alive => exact (h.active (.inr (.inl hs))).2.2.2.ge
  | ready => exact (h.active (.inr (.inr hs))).2.2.2.ge

section Sets

theorem represented_regular {l : Lifecycle}
    (hstatus : l.status = .unknown ∨ l.status = .alive ∨ l.status = .ready)
    (h : l.ladderAt = none ∧ l.quarantinedAt = none ∧ l.removedAt = none ∧ l.ladderStep = 0) :
    Represented delays l := by
  refine ⟨?_, fun _ => h, ?_⟩
  · intro hquarantine
    rw [hquarantine] at hstatus
    simp at hstatus
  · intro hremoved
    rw [hremoved] at hstatus
    simp at hstatus

theorem represented_succeededSet (hremoved : r.removedAt = none) {latencyMs : Option ℤ}
    {reset : Bool} {tier : ProxyStatus} :
    Represented delays (succeededSet now latencyMs reset tier r).toLifecycle := by
  refine represented_regular ?_ ⟨rfl, rfl, hremoved, rfl⟩
  simp only [succeededSet]
  split_ifs <;> simp

theorem regular_columns (h : Represented delays r.toLifecycle) (hr : regularState r = true) :
    r.ladderAt = none ∧ r.quarantinedAt = none ∧ r.removedAt = none ∧ r.ladderStep = 0 :=
  h.active (regularState_iff.mp hr)

theorem represented_failedSet (h : Represented delays r.toLifecycle) (hr : regularState r = true)
    {count : ℤ} {mark : Bool} : Represented delays (failedSet now count mark r).toLifecycle := by
  have hcolumns := regular_columns h hr
  refine represented_regular ?_ hcolumns
  rcases demote_regular hr with ⟨hd, -⟩ | hd <;> simp [failedSet, hd]

theorem represented_engineUnavailableSet (h : Represented delays r.toLifecycle)
    (hr : regularState r = true) :
    Represented delays (engineUnavailableSet now r).toLifecycle := by
  have hcolumns := regular_columns h hr
  refine represented_regular ?_ hcolumns
  rcases demote_regular hr with ⟨hd, -⟩ | hd <;> simp [engineUnavailableSet, hd]

theorem represented_quarantineSet {count secondChanceAt : ℤ} {mark : Bool} :
    Represented delays (quarantineSet now count secondChanceAt mark r).toLifecycle := by
  refine ⟨fun _ => ⟨?_, ?_, le_rfl, ?_⟩, ?_, ?_⟩ <;> simp [quarantineSet]

theorem represented_ladderAdvancedSet (h : Represented delays r.toLifecycle)
    (hr : r.status = .quarantine) {nextAt step : ℤ} (hstep : 0 ≤ step ∧ step ≤ delays) :
    Represented delays (ladderAdvancedSet now nextAt step r).toLifecycle := by
  refine ⟨fun _ => ⟨?_, (h.quarantine hr).2.1, hstep⟩, ?_, ?_⟩ <;> simp [ladderAdvancedSet, hr]

theorem represented_ladderRemovedSet :
    Represented delays (ladderRemovedSet now r).toLifecycle := by
  constructor <;> simp [ladderRemovedSet]

theorem represented_cleanupSet : Represented delays (cleanupSet now r).toLifecycle := by
  constructor <;> simp [cleanupSet]

theorem represented_releaseSet (hremoved : r.removedAt = none) :
    Represented delays (releaseSet now r).toLifecycle :=
  represented_regular (.inl rfl) ⟨rfl, rfl, hremoved, rfl⟩

theorem represented_resetSet (hr : r.status = .unknown) (hremoved : r.removedAt = none) :
    Represented delays (resetSet now r).toLifecycle :=
  represented_regular (.inl hr) ⟨rfl, rfl, hremoved, rfl⟩

theorem represented_retire (h : Represented delays r.toLifecycle) (hr : r.status ≠ .removed)
    (hladder : r.status ≠ .quarantine) : Represented delays (retire now r).toLifecycle := by
  refine ⟨by simp [retire], by simp [retire], fun _ => ⟨by simp [retire], ?_⟩⟩
  change r.ladderAt = none
  refine (h.active ?_).1
  revert hr hladder
  cases r.status <;> simp

end Sets

section Steps

def AllRepresented (delays : ℕ) (s : Store) : Prop :=
  ∀ r ∈ s.proxies, Represented delays r.toLifecycle

/-- Only removed rows carry a removal time. -/
def ActiveUnremoved (s : Store) : Prop :=
  ∀ r ∈ s.proxies, r.status ≠ .removed → r.removedAt = none

theorem AllRepresented.updateProxies (h : AllRepresented delays s) {guard : ProxyRow → Bool}
    {set : ProxyRow → ProxyRow}
    (hset : ∀ r ∈ s.proxies, guard r = true → Represented delays (set r).toLifecycle) :
    AllRepresented delays (s.updateProxies guard set) := by
  intro r hr
  rcases mem_updateWhere_cases hr with ⟨hr, -⟩ | ⟨r₀, hr₀, hguard, rfl⟩
  · exact h r hr
  · exact hset r₀ hr₀ hguard

theorem allRepresented_applyVerdict (h : AllRepresented cfg.recheckDelays.length s)
    (hactive : ActiveUnremoved s) (c : Check) (hstep : 0 ≤ c.ladderStep) (o : Outcome) (now : ℤ) :
    AllRepresented cfg.recheckDelays.length (applyVerdict cfg s c o now) := by
  have hsucceeded : ∀ latencyMs reset tier, AllRepresented cfg.recheckDelays.length
      (checkSucceeded s c.id now latencyMs reset tier).1 := by
    intro latencyMs reset tier
    refine h.updateProxies fun r hr hguard => represented_succeededSet (hactive r hr ?_)
    simp only [Bool.and_eq_true, bne_iff_ne] at hguard
    exact hguard.2
  have hfailed : ∀ jitter mark, AllRepresented cfg.recheckDelays.length
      (checkFailed s c.id now cfg.failLimit cfg.secondChanceMinSecs jitter mark).1 := by
    intro jitter mark
    dsimp only [checkFailed]
    split
    · exact h
    · split_ifs
      · exact h.updateProxies fun _ _ _ => represented_quarantineSet
      · refine h.updateProxies fun r hr hguard => ?_
        simp only [Bool.and_eq_true] at hguard
        exact represented_failedSet (h r hr) hguard.2
  have hladder : AllRepresented cfg.recheckDelays.length
      (quarantineCheckFailed s c.id now c.ladderStep cfg.recheckDelays).1 := by
    dsimp only [quarantineCheckFailed]
    split
    · exact h.updateProxies fun _ _ _ => represented_ladderRemovedSet
    next delay hdelay =>
      -- the failed step has a delay, so the next one is at most their number
      obtain ⟨hlt, -⟩ := List.getElem?_eq_some_iff.mp hdelay
      refine h.updateProxies fun r hr hguard => ?_
      simp only [Bool.and_eq_true, beq_iff_eq] at hguard
      exact represented_ladderAdvancedSet (h r hr) hguard.2 (by omega)
  have hengine : AllRepresented cfg.recheckDelays.length
      (checkEngineUnavailable s c.id now).1 := by
    refine h.updateProxies fun r hr hguard => ?_
    simp only [Bool.and_eq_true] at hguard
    exact represented_engineUnavailableSet (h r hr) hguard.2
  unfold applyVerdict
  split
  case h_1 | h_3 | h_5 | h_6 => exact hsucceeded _ _ _
  case h_2 | h_4 => exact hfailed _ _
  case h_7 | h_8 => exact hladder
  case h_9 | h_10 => exact hengine
  case h_11 | h_12 => exact h

/-- The stamped links orphan a row exactly when the pass did not stamp it and its old links are
stale. -/
theorem orphaned_stampedLinks_iff {sourceId : Text} {ids : List ℕ} {id : ℕ} :
    orphaned sourceId now (stampedLinks sourceId now s.links ids) id ↔
      id ∉ ids ∧ orphaned sourceId now s.links id := by
  by_cases hid : id ∈ ids
  · refine ⟨fun h => absurd (h.2 ⟨id, sourceId, now⟩ ?_ rfl) (by simp [staleLink]),
      fun h => absurd hid h.1⟩
    exact mem_stampLinks.mpr (.inr ⟨hid, rfl, rfl⟩)
  · have hsame : ∀ l : Link, l.proxyId = id →
        (l ∈ stampedLinks sourceId now s.links ids ↔ l ∈ s.links) := by
      rintro l rfl
      rw [stampedLinks, mem_stampLinks]
      simp [hid]
    simp only [hid, not_false_eq_true, true_and, orphaned]
    constructor
    · rintro ⟨⟨l, hl, hlid, hstale⟩, hall⟩
      exact ⟨⟨l, (hsame l hlid).mp hl, hlid, hstale⟩,
        fun l hl hlid => hall l ((hsame l hlid).mpr hl) hlid⟩
    · rintro ⟨⟨l, hl, hlid, hstale⟩, hall⟩
      exact ⟨⟨l, (hsame l hlid).mpr hl, hlid, hstale⟩,
        fun l hl hlid => hall l ((hsame l hlid).mp hl) hlid⟩

theorem lostLastLink_iff (h : Schema s) {sourceId : Text} {entries : List ProxyEntry}
    {geo : List (Option GeoStamp)} {stats : ReconciliationStats}
    (hok : reconcileSource lib s sourceId entries geo now false = .ok (s', stats))
    (hr : r ∈ s.proxies) :
    LostLastLink s s' r.id ↔ r.fingerprint ∉ entries.map (fingerprint lib.sha256) ∧
      losesLastLink s sourceId now r.id = true := by
  obtain ⟨ids, hids, -⟩ := reconcileSource_eq_ok hok
  rw [← orphaned_iff_lost hok hids, orphaned_stampedLinks_iff, losesLastLink_iff, mem_ids h hids]
  refine and_congr_left fun _ => not_congr ?_
  obtain ⟨r₁, hr₁, heq⟩ := @kept_upsertEntries lib s entries geo now r hr
  have hid : r₁.id = r.id := congrArg (·.id) heq
  have hfp : r₁.fingerprint = r.fingerprint := congrArg (·.fingerprint) heq
  constructor
  · rintro ⟨r₂, hr₂, hid₂, hlisted⟩
    obtain rfl := (h.upsertEntries).keyed.unique hr₂ hr₁ (hid₂.trans hid.symm)
    rwa [← hfp]
  · intro hlisted
    exact ⟨r₁, hr₁, hid, by rwa [hfp]⟩

theorem allRepresented_reconcileSource (hschema : Schema s) (h : AllRepresented delays s)
    {sourceId : Text} {entries : List ProxyEntry} {geo : List (Option GeoStamp)} {linger : Bool}
    {stats : ReconciliationStats}
    (hok : reconcileSource lib s sourceId entries geo now linger = .ok (s', stats))
    (hspared : linger = false → ∀ r ∈ s.proxies, r.status = .quarantine →
      r.fingerprint ∉ entries.map (fingerprint lib.sha256) →
        losesLastLink s sourceId now r.id = false) : AllRepresented delays s' := by
  intro r' hr'
  obtain ⟨r₁, hr₁, rfl⟩ := (mem_reconciled hok).mp hr'
  rcases origin_upsertEntries hr₁ with ⟨r, hr, heq⟩ | hfresh
  · have hlife : r₁.toLifecycle = r.toLifecycle := congrArg (·.toLifecycle) heq
    have hid : r₁.id = r.id := congrArg (·.id) heq
    have hold : Represented delays r₁.toLifecycle := hlife ▸ h r hr
    split_ifs with hretired
    · obtain ⟨rfl, hactive, hlost⟩ := hretired
      refine represented_retire hold hactive fun hquarantine => ?_
      rw [hid, lostLastLink_iff hschema hok hr] at hlost
      have hstatus : r.status = .quarantine := hlife ▸ hquarantine
      rw [hspared rfl r hr hstatus hlost.1] at hlost
      exact absurd hlost.2 Bool.false_ne_true
    · exact hold
  · have hpristine : Represented delays r₁.toLifecycle := by
      rw [hfresh.lifecycle]
      exact .pristine delays
    split_ifs with hretired
    · refine represented_retire hpristine hretired.2.1 ?_
      rw [show r₁.status = .unknown from congrArg Lifecycle.status hfresh.lifecycle]
      simp
    · exact hpristine

theorem allRepresented_nextStore (hschema : Schema w.store)
    (h : AllRepresented cfg.recheckDelays.length w.store) (hactive : ActiveUnremoved w.store)
    (hchecks : ∀ c ∈ w.inFlight, 0 ≤ c.ladderStep) (henabled : Enabled cfg w e)
    (hspared : ¬RetiresQuarantined lib w e) :
    AllRepresented cfg.recheckDelays.length (nextStore lib cfg w.store e) := by
  cases e with
  | selectT1 | selectQueued | selectT2 | selectDueQuarantine | selectDueQuarantineT2 | abandon
  | claimChecks | purgeResultsBefore | purgeSettledChecks | purgeRequestsBefore
  | deleteSource => exact h
  | journal result =>
    simp only [nextStore, insertResult]
    split_ifs <;> exact h
  | verdict c o now => exact allRepresented_applyVerdict h hactive c (hchecks c henabled.1) o now
  | reconcileSource sourceId entries geo now linger =>
    simp only [nextStore]
    split
    next s' stats hok =>
      refine allRepresented_reconcileSource hschema h hok ?_
      intro hlinger r hr hstatus hunlisted
      by_contra hlost
      refine hspared ⟨?_, hlinger, r, hr, hstatus, hunlisted, by simpa using hlost⟩
      by_contra hlength
      rw [reconcileSource, if_pos (by omega)] at hok
      cases hok
    next => exact h
  | updateGeo => exact h.updateProxies fun r hr _ => h r hr
  | enqueueChecks ids limit now =>
    intro r hr
    simp only [nextStore, enqueueChecks] at hr
    rw [(enqueueChunks_frame now _ _ limit).1] at hr
    exact h r hr
  | resetStatus id now =>
    simp only [nextStore, resetStatus]
    split_ifs
    · have hreset : AllRepresented cfg.recheckDelays.length
          (w.store.updateProxies (resettable w.store id) (pristineSet now)) :=
        h.updateProxies fun _ _ _ => .pristine _
      intro r hr
      simp only [enqueueChecks] at hr
      rw [(enqueueChunks_frame now _ _ 1).1] at hr
      exact hreset r hr
    · exact h
  | reviveRemoved | reviveRemovedByCountry | reviveRemovedByAsn =>
    exact h.updateProxies fun _ _ _ => .pristine _
  | reviveRemovedWithoutProbeHistory now =>
    have hremoved : AllRepresented cfg.recheckDelays.length (w.store.updateProxies
        (fun r => r.status == .removed && !w.store.hasResult r.id && w.store.hasLink r.id)
          (pristineSet now)) := h.updateProxies fun _ _ _ => .pristine _
    refine hremoved.updateProxies fun r hr hguard => ?_
    simp only [Bool.and_eq_true, beq_iff_eq] at hguard
    exact represented_resetSet hguard.1.1.1 ((hremoved r hr).active (.inl hguard.1.1.1)).2.2.1
  | reviveQuarantine now =>
    refine h.updateProxies fun r hr hguard => represented_releaseSet (hactive r hr ?_)
    simp only [Bool.and_eq_true, beq_iff_eq] at hguard
    simp [hguard.1]
  | markOrphansRemoved statuses now =>
    refine h.updateProxies fun r hr hguard => ?_
    simp only [Bool.and_eq_true, bne_iff_ne, Bool.not_eq_true'] at hguard
    refine represented_retire (h r hr) hguard.1.1 fun hquarantine => hspared ⟨?_, r, hr,
      hquarantine, hguard.1.2⟩
    simpa [hquarantine] using hguard.2
  | purgeRemoved => exact fun r hr => h r (List.mem_of_mem_filter hr)
  | quarantineToRemoved | removeAliveWithoutCountry | removeAliveByAsn | removeAliveByCountry
  | removeUnprobeableUnknown => exact h.updateProxies fun _ _ _ => represented_cleanupSet

end Steps

section Runs

theorem offered_ne_removed (h : t1Lane s r = true ∨ queuedLane s r = true ∨ t2Lane s r = true) :
    r.status ≠ .removed := by
  intro hremoved
  simp [t1Lane, queuedLane, t2Lane, hremoved] at h

theorem ladderDue_ne_removed (h : ladderDue now r = true) : r.status ≠ .removed := by
  intro hremoved
  simp [ladderDue, hremoved] at h

theorem ladderStep_nextInFlight {c : Check} (h : c ∈ nextInFlight w e) :
    c ∈ w.inFlight ∨ ∃ r ∈ w.store.proxies, c.ladderStep = r.ladderStep ∧ r.status ≠ .removed := by
  have hstart : ∀ {lane offered ids}, c ∈ (start w lane offered ids).inFlight →
      (∀ r, offered r = true → r.status ≠ .removed) →
      c ∈ w.inFlight ∨ ∃ r ∈ w.store.proxies, c.ladderStep = r.ladderStep ∧
        r.status ≠ .removed := by
    intro lane offered ids hc hactive
    simp only [start, List.mem_append, List.mem_map, List.mem_filter, Bool.and_eq_true] at hc
    rcases hc with hc | ⟨r, ⟨hr, hoffered, -⟩, rfl⟩
    · exact .inl hc
    · exact .inr ⟨r, hr, rfl, hactive r hoffered⟩
  have hdue : ∀ (now : ℤ) (r : ProxyRow) {p : Bool}, (ladderDue now r && p) = true →
      r.status ≠ .removed := by
    intro now r p hr
    rw [Bool.and_eq_true] at hr
    exact ladderDue_ne_removed hr.1
  cases e with
  | selectT1 => exact hstart h fun r hr => offered_ne_removed (.inl hr)
  | selectQueued => exact hstart h fun r hr => offered_ne_removed (.inr (.inl hr))
  | selectT2 => exact hstart h fun r hr => offered_ne_removed (.inr (.inr hr))
  | selectDueQuarantine => exact hstart h fun r hr => hdue _ r hr
  | selectDueQuarantineT2 => exact hstart h fun r hr => hdue _ r hr
  | verdict | abandon => exact .inl (List.mem_of_mem_erase h)
  | _ => exact .inl h

theorem represented_run
    (h : Reachable (lifecycle lib cfg) (fun w e => ¬RetiresQuarantined lib w e) w) :
    AllRepresented cfg.recheckDelays.length w.store ∧ ∀ c ∈ w.inFlight, 0 ≤ c.ladderStep := by
  induction h with
  | init hinit =>
    obtain rfl := hinit
    exact ⟨fun r hr => absurd hr List.not_mem_nil, fun c hc => absurd hc List.not_mem_nil⟩
  | step hreach henabled hspared ih =>
    obtain ⟨hrows, hchecks⟩ := ih
    have hactive := fun r hr => ((LifecycleInvariants.reachable_invariant hreach).rows r hr).active
    refine ⟨allRepresented_nextStore (reachable_schema hreach) hrows hactive hchecks henabled
      hspared, fun c hc => ?_⟩
    rcases ladderStep_nextInFlight hc with hold | ⟨r, hr, hstep, hstatus⟩
    · exact hchecks c hold
    · exact hstep ▸ (hrows r hr).ladderStep_nonneg hstatus

/-- The lifecycle columns of every row fit its status, in every run that retires no quarantined
row. -/
theorem reachable_represented
    (h : Reachable (lifecycle lib cfg) (fun w e => ¬RetiresQuarantined lib w e) w) :
    ∀ r ∈ w.store.proxies, Represented cfg.recheckDelays.length r.toLifecycle :=
  (represented_run h).1

theorem reconcileSource_total {sourceId : Text} {entries : List ProxyEntry}
    {geo : List (Option GeoStamp)} {linger : Bool} (hschema : Schema s)
    (hgeo : geo.length ≤ entries.length) :
    ∃ s' stats, reconcileSource lib s sourceId entries geo now linger = .ok (s', stats) := by
  have hids : ∀ fps : List Text,
      (∀ fp ∈ fps, ∃ id, idOfFingerprint (upsertEntries lib now s entries geo) fp = some id) →
        ∃ ids, fps.mapM (idOfFingerprint (upsertEntries lib now s entries geo)) = some ids := by
    intro fps
    induction fps with
    | nil => exact fun _ => ⟨[], rfl⟩
    | cons fp fps ih =>
      intro hall
      obtain ⟨id, hid⟩ := hall fp List.mem_cons_self
      obtain ⟨ids, hrest⟩ := ih fun fp' hfp' => hall fp' (List.mem_cons_of_mem fp hfp')
      exact ⟨id :: ids, by simp [List.mapM_cons, hid, hrest]⟩
  have hfound : ∀ fp ∈ entries.map (fingerprint lib.sha256),
      ∃ id, idOfFingerprint (upsertEntries lib now s entries geo) fp = some id := by
    intro fp hfp
    obtain ⟨e, he, rfl⟩ := List.mem_map.mp hfp
    obtain ⟨r, hr, hfp⟩ := List.mem_map.mp
      (@mem_fingerprints_upsertEntries lib s now _ entries geo (.inr ⟨e, he, rfl⟩))
    exact ⟨r.id, (idOfFingerprint_eq_some hschema.upsertEntries).mpr ⟨r, hr, hfp, rfl⟩⟩
  obtain ⟨ids, hids⟩ := hids _ hfound
  unfold reconcileSource
  rw [if_neg (by omega)]
  dsimp only
  rw [hids]
  exact ⟨_, _, rfl⟩

theorem retired_row_keeps_ladder
    (h : Reachable (lifecycle lib cfg) (fun w e => ¬RetiresQuarantined lib w e) w)
    (hretires : RetiresQuarantined lib w e) :
    ∃ r ∈ (nextStore lib cfg w.store e).proxies, r.status = .removed ∧ r.ladderAt ≠ none := by
  have hschema := reachable_schema h
  have hrows := reachable_represented h
  cases e with
  | reconcileSource sourceId entries geo now linger =>
    obtain ⟨hgeo, rfl, r, hr, hstatus, hlost⟩ := hretires
    obtain ⟨s', stats, hok⟩ := @reconcileSource_total lib w.store now sourceId entries geo false
      hschema hgeo
    rw [← lostLastLink_iff hschema hok hr] at hlost
    obtain ⟨r', hr', heq⟩ := rows_reconciled hok r hr
    rw [if_pos ⟨rfl, by simp [hstatus], hlost⟩] at heq
    have hlife : r'.toLifecycle = (retire now r).toLifecycle := congrArg (·.toLifecycle) heq
    refine ⟨r', by simpa only [nextStore, hok] using hr', congrArg Lifecycle.status hlife, ?_⟩
    have hladder : r'.ladderAt = (retire now r).ladderAt := congrArg Lifecycle.ladderAt hlife
    rw [hladder]
    exact ((hrows r hr).quarantine hstatus).1
  | markOrphansRemoved statuses now =>
    obtain ⟨hunprotected, r, hr, hstatus, hlink⟩ := hretires
    refine ⟨retire now r, mem_updateWhere.mpr ⟨r, hr, if_pos ?_⟩, rfl,
      ((hrows r hr).quarantine hstatus).1⟩
    simp [hstatus, hlink, hunprotected]
  | _ => exact absurd hretires id

/-- A row is ingested, fails its check twice, walks one ladder step, and leaves the feed. -/
def quarantinedRun : List Event :=
  [.reconcileSource "feed" [sampleEntry "n" "a.example" []] [] 1000 true,
    .selectT1 [1], .verdict ⟨1, .t1, 0⟩ (.failed 0) 1001,
    .selectT1 [1], .verdict ⟨1, .t1, 0⟩ (.failed 5) 1002,
    .selectDueQuarantine 200000 [1], .verdict ⟨1, .quarantine, 0⟩ (.failed 0) 200000]

theorem reachable_represented_sample :
    ∃ r ∈ (quarantinedRun.foldl (lifecycle sampleLibraries defaultConfig).next {}).store.proxies,
      r.status = .quarantine ∧ Represented 3 r.toLifecycle := by
  have hheld : ∃ r ∈ (quarantinedRun.foldl (lifecycle sampleLibraries defaultConfig).next
      {}).store.proxies, r.status = .quarantine := by decide +kernel
  obtain ⟨r, hr, hstatus⟩ := hheld
  exact ⟨r, hr, hstatus, @reachable_represented sampleLibraries defaultConfig _
    (.execute (.init rfl) (by decide +kernel)) r hr⟩

/-- The source drops the row while the ladder still runs. -/
theorem retired_ladder_reachable :
    ¬∀ (lib : Libraries) (cfg : ProbeConfig) (w : World), Reachable (lifecycle lib cfg) Any w →
      ∀ r ∈ w.store.proxies, Represented cfg.recheckDelays.length r.toLifecycle := by
  intro h
  let run := quarantinedRun ++ [.reconcileSource "feed" [] [] 200001 false]
  have hrun : Executes (lifecycle sampleLibraries defaultConfig) Any {} run := by
    decide +kernel
  have hkept : ∃ r ∈ (run.foldl (lifecycle sampleLibraries defaultConfig).next {}).store.proxies,
      r.status = .removed ∧ r.ladderAt ≠ none := by
    decide +kernel
  obtain ⟨r, hr, hstatus, hladder⟩ := hkept
  exact hladder ((h _ _ _ (Reachable.execute (.init rfl) hrun) r hr).removed hstatus).2

end Runs

end RowRepresentation
