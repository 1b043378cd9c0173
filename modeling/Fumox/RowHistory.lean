import Fumox.ReconcilePass

/-!
What a run keeps of a row: an id names one proxy for ever, no geo fact is lost, and the journal and
the check queue refer to rows that exist.
-/

namespace RowHistory

open RustText ProxyModels ProxyFingerprint RowTable ProxyStore ProbeLifecycle LifecycleSteps
  LifecycleInvariants LaneCoverage ProxyIdentity ReconcilePass TransitionRuns

/-- Two states of one proxy: the identifying columns agree, and what the first one knows about its
location the second one knows too. -/
structure SameProxy (r r' : ProxyRow) : Prop where
  id : r'.id = r.id
  fingerprint : r'.fingerprint = r.fingerprint
  scheme : r'.scheme = r.scheme
  host : r'.host = r.host
  port : r'.port = r.port
  credential : r'.credential = r.credential
  createdAt : r'.createdAt = r.createdAt
  country : r.geoCountry ≠ none → r'.geoCountry ≠ none
  city : r.geoCity ≠ none → r'.geoCity ≠ none
  asn : r.geoAsn ≠ none → r'.geoAsn ≠ none

/-- Every later row is an earlier one, or its id is a new one. -/
structure Traces (s s' : Store) : Prop where
  nextId : s.nextId ≤ s'.nextId
  rows : ∀ r' ∈ s'.proxies, (∃ r ∈ s.proxies, SameProxy r r') ∨ s.nextId ≤ r'.id

variable {lib : Libraries} {cfg : ProbeConfig} {s s' s'' : Store} {r r' r'' : ProxyRow}
  {now : ℤ}

/-- The columns that no verdict and no admin action writes. -/
def columns (r : ProxyRow) :=
  (r.id, r.fingerprint, r.scheme, r.host, r.port, r.credential, r.createdAt, r.geoCountry,
    r.geoCity, r.geoAsn)

theorem SameProxy.of_columns (h : columns r' = columns r) : SameProxy r r' := by
  simp only [columns, Prod.mk.injEq] at h
  obtain ⟨hid, hfp, hscheme, hhost, hport, hcredential, hcreated, hcountry, hcity, hasn⟩ := h
  exact ⟨hid, hfp, hscheme, hhost, hport, hcredential, hcreated, fun hr => hcountry ▸ hr,
    fun hr => hcity ▸ hr, fun hr => hasn ▸ hr⟩

theorem SameProxy.refl (r : ProxyRow) : SameProxy r r :=
  .of_columns rfl

theorem SameProxy.trans (h : SameProxy r r') (h' : SameProxy r' r'') : SameProxy r r'' where
  id := h'.id.trans h.id
  fingerprint := h'.fingerprint.trans h.fingerprint
  scheme := h'.scheme.trans h.scheme
  host := h'.host.trans h.host
  port := h'.port.trans h.port
  credential := h'.credential.trans h.credential
  createdAt := h'.createdAt.trans h.createdAt
  country := fun hr => h'.country (h.country hr)
  city := fun hr => h'.city (h.city hr)
  asn := fun hr => h'.asn (h.asn hr)

theorem Traces.of_eq (hproxies : s'.proxies = s.proxies) (hnext : s'.nextId = s.nextId) :
    Traces s s' :=
  ⟨hnext.ge, fun r hr => .inl ⟨r, hproxies ▸ hr, .refl r⟩⟩

theorem Traces.refl (s : Store) : Traces s s :=
  .of_eq rfl rfl

theorem Traces.trans (h : Traces s s') (h' : Traces s' s'') : Traces s s'' where
  nextId := h.nextId.trans h'.nextId
  rows := by
    intro r'' hr''
    rcases h'.rows r'' hr'' with ⟨r', hr', hsame'⟩ | hnew
    · rcases h.rows r' hr' with ⟨r, hr, hsame⟩ | hnew
      · exact .inl ⟨r, hr, hsame.trans hsame'⟩
      · exact .inr (hsame'.id ▸ hnew)
    · exact .inr (h.nextId.trans hnew)

theorem Traces.updateProxies (s : Store) (guard : ProxyRow → Bool) {set : ProxyRow → ProxyRow}
    (hset : ∀ r, SameProxy r (set r)) : Traces s (s.updateProxies guard set) where
  nextId := le_rfl
  rows := by
    intro r' hr'
    rcases mem_updateWhere_cases hr' with ⟨hr', -⟩ | ⟨r, hr, -, rfl⟩
    · exact .inl ⟨r', hr', .refl r'⟩
    · exact .inl ⟨r, hr, hset r⟩

theorem orElse_ne_none {α : Type*} {a b : Option α} (h : b ≠ none) : (a <|> b) ≠ none := by
  cases a with
  | none => exact h
  | some a => exact Option.some_ne_none a

theorem sameProxy_onConflict (excluded r : ProxyRow) : SameProxy r (onConflict excluded r) :=
  ⟨rfl, rfl, rfl, rfl, rfl, rfl, rfl, orElse_ne_none, orElse_ne_none, orElse_ne_none⟩

theorem traces_updateGeo (s : Store) (id : ℕ) (geo : GeoStamp) : Traces s (updateGeo s id geo) :=
  .updateProxies s _ fun _ =>
    ⟨rfl, rfl, rfl, rfl, rfl, rfl, rfl, orElse_ne_none, orElse_ne_none, orElse_ne_none⟩

theorem traces_applyVerdict (s : Store) (c : Check) (o : Outcome) (now : ℤ) :
    Traces s (applyVerdict cfg s c o now) := by
  have hfailed : ∀ jitter mark, Traces s
      (checkFailed s c.id now cfg.failLimit cfg.secondChanceMinSecs jitter mark).1 := by
    intro jitter mark
    dsimp only [checkFailed]
    split
    · exact .refl s
    · split_ifs <;> exact .updateProxies s _ fun _ => .of_columns rfl
  have hladder : Traces s
      (quarantineCheckFailed s c.id now c.ladderStep cfg.recheckDelays).1 := by
    dsimp only [quarantineCheckFailed]
    split <;> exact .updateProxies s _ fun _ => .of_columns rfl
  unfold applyVerdict
  split
  case h_1 | h_3 | h_5 | h_6 => exact .updateProxies s _ fun _ => .of_columns rfl
  case h_2 | h_4 => exact hfailed _ _
  case h_7 | h_8 => exact hladder
  case h_9 | h_10 => exact .updateProxies s _ fun _ => .of_columns rfl
  case h_11 | h_12 => exact .refl s

theorem traces_upsertEntry (s : Store) (entry : ProxyEntry) (stamp : GeoStamp) :
    Traces s (upsertEntry lib s entry stamp now) := by
  dsimp only [upsertEntry]
  split_ifs
  · exact .updateProxies s _ (sameProxy_onConflict _)
  · refine ⟨Nat.le_succ _, fun r hr => ?_⟩
    rcases List.mem_append.mp hr with hr | hr
    · exact .inl ⟨r, hr, .refl r⟩
    · obtain rfl := List.mem_singleton.mp hr
      exact .inr le_rfl

theorem traces_upsertEntries (s : Store) (entries : List ProxyEntry)
    (geo : List (Option GeoStamp)) : Traces s (upsertEntries lib now s entries geo) := by
  induction entries generalizing s geo with
  | nil => exact .refl s
  | cons entry entries ih => exact (traces_upsertEntry s entry _).trans (ih _ geo.tail)

theorem traces_reconcileSource {sourceId : Text} {entries : List ProxyEntry}
    {geo : List (Option GeoStamp)} {linger : Bool} {stats : ReconciliationStats}
    (hok : reconcileSource lib s sourceId entries geo now linger = .ok (s', stats)) :
    Traces s s' := by
  obtain ⟨ids, -, hproxies, -, hnext, -⟩ := reconcileSource_eq_ok hok
  refine (traces_upsertEntries s entries geo).trans ⟨hnext.ge, fun r' hr' => .inl ?_⟩
  rw [hproxies] at hr'
  split_ifs at hr'
  · exact ⟨r', hr', .refl r'⟩
  · rcases mem_updateWhere_cases hr' with ⟨hr', -⟩ | ⟨r, hr, -, rfl⟩
    · exact ⟨r', hr', .refl r'⟩
    · exact ⟨r, hr, .of_columns rfl⟩

variable (lib cfg) in
theorem traces_nextStore (s : Store) (e : Event) : Traces s (nextStore lib cfg s e) := by
  cases e with
  | reconcileSource sourceId entries geo now linger =>
    simp only [nextStore]
    split
    next hok => exact traces_reconcileSource hok
    next => exact .refl s
  | updateGeo id geo => exact traces_updateGeo s id geo
  | verdict c o now => exact traces_applyVerdict s c o now
  | journal result =>
    simp only [nextStore, insertResult]
    split_ifs
    · exact .of_eq rfl rfl
    · exact .refl s
  | enqueueChecks ids limit now =>
    obtain ⟨hproxies, hnext⟩ := enqueueChunks_frame now s
      ((ids.insertionSort (· ≥ ·)).dedup.toChunks 500) limit
    exact .of_eq hproxies hnext
  | resetStatus id now =>
    simp only [nextStore, resetStatus]
    split_ifs
    · have hreset : Traces s (s.updateProxies (resettable s id) (pristineSet now)) :=
        .updateProxies s _ fun _ => .of_columns rfl
      obtain ⟨hproxies, hnext⟩ := enqueueChunks_frame now
        (s.updateProxies (resettable s id) (pristineSet now))
        (([id].insertionSort (· ≥ ·)).dedup.toChunks 500) 1
      exact hreset.trans (.of_eq hproxies hnext)
    · exact .refl s
  | reviveRemovedWithoutProbeHistory now =>
    have hrevived : Traces s (s.updateProxies
        (fun r => r.status == .removed && !s.hasResult r.id && s.hasLink r.id)
        (pristineSet now)) := .updateProxies s _ fun _ => .of_columns rfl
    exact hrevived.trans (.updateProxies _ _ fun _ => .of_columns rfl)
  | purgeRemoved =>
    exact ⟨le_rfl, fun r hr => .inl ⟨r, List.mem_of_mem_filter hr, .refl r⟩⟩
  | reviveRemoved | reviveRemovedByCountry | reviveRemovedByAsn | reviveQuarantine
  | markOrphansRemoved | quarantineToRemoved | removeAliveWithoutCountry | removeAliveByAsn
  | removeAliveByCountry | removeUnprobeableUnknown =>
    exact .updateProxies s _ fun _ => .of_columns rfl
  | _ => exact .of_eq rfl rfl

section Runs

variable {Ok : World → Event → Prop} {w : World}

theorem traces_run (lib : Libraries) (cfg : ProbeConfig) (w : World) (es : List Event) :
    Traces w.store (es.foldl (lifecycle lib cfg).next w).store := by
  induction es generalizing w with
  | nil => exact .refl w.store
  | cons e es ih =>
    exact (traces_nextStore lib cfg w.store e).trans (ih ((lifecycle lib cfg).next w e))

/-- An id that was handed out names the same proxy for the rest of the run, or no row: also a check
that is still running finds, however late, the proxy that it was started for. -/
theorem row_history (h : Reachable (lifecycle lib cfg) Ok w) (es : List Event) :
    (∀ r' ∈ (es.foldl (lifecycle lib cfg).next w).store.proxies, r'.id < w.store.nextId →
        ∃ r ∈ w.store.proxies, SameProxy r r') ∧
      ∀ c ∈ w.inFlight, ∀ r' ∈ (es.foldl (lifecycle lib cfg).next w).store.proxies,
        r'.id = c.id → ∃ r ∈ w.store.proxies, r.id = c.id ∧ SameProxy r r' := by
  have hold : ∀ r' ∈ (es.foldl (lifecycle lib cfg).next w).store.proxies,
      r'.id < w.store.nextId → ∃ r ∈ w.store.proxies, SameProxy r r' := by
    intro r' hr' hid
    rcases (traces_run lib cfg w es).rows r' hr' with hrow | hnew
    · exact hrow
    · omega
  refine ⟨hold, fun c hc r' hr' hid => ?_⟩
  obtain ⟨r, hr, hsame⟩ := hold r' hr' (hid ▸ (reachable_invariant h).issued c hc)
  exact ⟨r, hr, hsame.id.symm.trans hid, hsame⟩

end Runs

/-- The row of the running T2 check is removed, purged and ingested again. -/
def reingested : List Event :=
  [.markOrphansRemoved [] 1002, .deleteSource "feed", .markOrphansRemoved [] 1003, .purgeRemoved,
    .reconcileSource "other" [sampleEntry "node" "example.com" []] [] 1004 true]

theorem row_history_sample :
    let w := ingestedAndDrawn.foldl (lifecycle sampleLibraries defaultConfig).next {}
    (∀ r' ∈ (reingested.foldl (lifecycle sampleLibraries defaultConfig).next w).store.proxies,
        r'.id < w.store.nextId → ∃ r ∈ w.store.proxies, SameProxy r r') ∧
      ∀ c ∈ w.inFlight,
        ∀ r' ∈ (reingested.foldl (lifecycle sampleLibraries defaultConfig).next w).store.proxies,
          r'.id = c.id → ∃ r ∈ w.store.proxies, r.id = c.id ∧ SameProxy r r' :=
  row_history (show Reachable (lifecycle sampleLibraries defaultConfig) Any _ from
    .execute (.init rfl) (by decide +kernel)) reingested

structure Tracked (s : Store) : Prop where
  journaled : ∀ p ∈ s.results, p.proxyId ∈ s.proxies.map (·.id)
  queued : ∀ q ∈ s.requests, q.proxyId ∈ s.proxies.map (·.id)
  once : (s.requests.map (·.proxyId)).Nodup

section Tracked

theorem Tracked.shrink (h : Tracked s) (hids : s.proxies.map (·.id) ⊆ s'.proxies.map (·.id))
    (hresults : s'.results.Sublist s.results) (hrequests : s'.requests.Sublist s.requests) :
    Tracked s' where
  journaled := fun p hp => hids (h.journaled p (hresults.subset hp))
  queued := fun q hq => hids (h.queued q (hrequests.subset hq))
  once := h.once.sublist (hrequests.map _)

theorem Tracked.updateProxies (h : Tracked s) (guard : ProxyRow → Bool)
    {set : ProxyRow → ProxyRow} (hid : ∀ r, (set r).id = r.id) :
    Tracked (s.updateProxies guard set) :=
  h.shrink (by rw [Store.proxies_updateProxies, map_updateWhere hid]; exact List.Subset.refl _)
    (.refl _) (.refl _)

theorem Tracked.enqueueChunk (h : Tracked s) (hkeyed : WellKeyed s) (chunk : List ℕ)
    (remaining : ℕ) : Tracked (enqueueChunk s chunk remaining now).1 := by
  set eligible := (s.proxies.filter fun r => chunk.contains r.id && queueable s r).map (·.id)
    with heligible
  set fresh := ((eligible.insertionSort (· ≥ ·)).take remaining).filter
    (fun id => !s.requests.any fun q => q.proxyId == id) with hfresh
  have hnodup : fresh.Nodup := by
    have hids : eligible.Nodup := hkeyed.nodup.sublist (List.filter_sublist.map _)
    have hsorted := (List.perm_insertionSort (· ≥ ·) eligible).nodup_iff.mpr hids
    exact (hsorted.sublist (List.take_sublist _ _)).filter _
  have hmem : ∀ id ∈ fresh, id ∈ s.proxies.map (·.id) ∧ id ∉ s.requests.map (·.proxyId) := by
    intro id hid
    obtain ⟨hid, hnew⟩ := List.mem_filter.mp hid
    have hid := (List.perm_insertionSort (· ≥ ·) eligible).mem_iff.mp (List.mem_of_mem_take hid)
    refine ⟨(List.filter_sublist.map _).subset hid, fun hqueued => ?_⟩
    obtain ⟨q, hq, rfl⟩ := List.mem_map.mp hqueued
    simp only [Bool.not_eq_true', List.any_eq_false, beq_iff_eq] at hnew
    exact hnew q hq rfl
  refine ⟨h.journaled, fun q hq => ?_, ?_⟩
  · rcases List.mem_append.mp hq with hq | hq
    · exact h.queued q hq
    · obtain ⟨id, hid, rfl⟩ := List.mem_map.mp hq
      exact (hmem id hid).1
  · have hrequests : (ProxyStore.enqueueChunk s chunk remaining now).1.requests.map (·.proxyId) =
        s.requests.map (·.proxyId) ++ fresh := by
      dsimp only [ProxyStore.enqueueChunk]
      rw [List.map_append, List.map_map]
      exact congrArg _ (List.map_id' fresh)
    rw [hrequests, List.nodup_append]
    refine ⟨h.once, hnodup, ?_⟩
    rintro a ha b hb rfl
    exact (hmem a hb).2 ha

theorem Tracked.enqueueChunks (h : Tracked s) (hkeyed : WellKeyed s) (chunks : List (List ℕ))
    (remaining : ℕ) : Tracked (enqueueChunks now s chunks remaining).1 := by
  induction chunks generalizing s remaining with
  | nil => exact h
  | cons chunk chunks ih =>
    unfold ProxyStore.enqueueChunks
    split_ifs
    · exact h
    · exact ih (h.enqueueChunk hkeyed chunk remaining) ⟨hkeyed.nodup, hkeyed.fresh⟩ _

theorem tracked_applyVerdict (h : Tracked s) (c : Check) (o : Outcome) (now : ℤ) :
    Tracked (applyVerdict cfg s c o now) := by
  have hfailed : ∀ jitter mark, Tracked
      (checkFailed s c.id now cfg.failLimit cfg.secondChanceMinSecs jitter mark).1 := by
    intro jitter mark
    dsimp only [checkFailed]
    split
    · exact h
    · split_ifs <;> exact h.updateProxies _ fun _ => rfl
  have hladder : Tracked
      (quarantineCheckFailed s c.id now c.ladderStep cfg.recheckDelays).1 := by
    dsimp only [quarantineCheckFailed]
    split <;> exact h.updateProxies _ fun _ => rfl
  unfold applyVerdict
  split
  case h_1 | h_3 | h_5 | h_6 => exact h.updateProxies _ fun _ => rfl
  case h_2 | h_4 => exact hfailed _ _
  case h_7 | h_8 => exact hladder
  case h_9 | h_10 => exact h.updateProxies _ fun _ => rfl
  case h_11 | h_12 => exact h

theorem Tracked.upsertEntries (h : Tracked s) (entries : List ProxyEntry)
    (geo : List (Option GeoStamp)) : Tracked (upsertEntries lib now s entries geo) := by
  induction entries generalizing s geo with
  | nil => exact h
  | cons entry entries ih =>
    refine ih ?_ geo.tail
    dsimp only [upsertEntry]
    split_ifs
    · exact h.updateProxies _ fun _ => rfl
    · exact h.shrink (by simp) (.refl _) (.refl _)

theorem tracked_reconcileSource (h : Tracked s) {sourceId : Text} {entries : List ProxyEntry}
    {geo : List (Option GeoStamp)} {linger : Bool} {stats : ReconciliationStats}
    (hok : reconcileSource lib s sourceId entries geo now linger = .ok (s', stats)) :
    Tracked s' := by
  have hup : Tracked (upsertEntries lib now s entries geo) := h.upsertEntries entries geo
  unfold reconcileSource at hok
  split at hok
  · cases hok
  dsimp only at hok
  split at hok
  · cases hok
  next proxyIds _ =>
    obtain ⟨rfl, -⟩ := Prod.mk.inj (Except.ok.inj hok)
    cases linger with
    | true => exact hup.shrink (List.Subset.refl _) (.refl _) (.refl _)
    | false =>
      have hretired : Tracked ((upsertEntries lib now s entries geo).updateProxies
          (fun r => r.status != .removed && losesLastLink
            { upsertEntries lib now s entries geo with
              links := proxyIds.foldl (stampLink sourceId now)
                (upsertEntries lib now s entries geo).links } sourceId now r.id)
          (retire now)) := hup.updateProxies _ fun _ => rfl
      exact hretired.shrink (List.Subset.refl _) (.refl _) (.refl _)

theorem tracked_purgeRemoved (h : Tracked s) : Tracked (purgeRemoved s) := by
  have hkept : ∀ id ∈ s.proxies.map (·.id),
      (!s.proxies.any fun r => r.id == id && r.status == .removed) = true →
        id ∈ (purgeRemoved s).proxies.map (·.id) := by
    intro id hid hgone
    obtain ⟨r, hr, rfl⟩ := List.mem_map.mp hid
    simp only [Bool.not_eq_true', List.any_eq_false, Bool.and_eq_true, beq_iff_eq,
      not_and] at hgone
    exact List.mem_map_of_mem (List.mem_filter.mpr ⟨hr, by simpa using hgone r hr rfl⟩)
  refine ⟨fun p hp => ?_, fun q hq => ?_, h.once.sublist (List.filter_sublist.map _)⟩
  · obtain ⟨hp, hgone⟩ := List.mem_filter.mp hp
    exact hkept _ (h.journaled p hp) hgone
  · obtain ⟨hq, hgone⟩ := List.mem_filter.mp hq
    exact hkept _ (h.queued q hq) hgone

variable (lib cfg) in
theorem tracked_nextStore (h : Tracked s) (hkeyed : WellKeyed s) (e : Event) :
    Tracked (nextStore lib cfg s e) := by
  cases e with
  | reconcileSource sourceId entries geo now linger =>
    simp only [nextStore]
    split
    next hok => exact tracked_reconcileSource h hok
    next => exact h
  | verdict c o now => exact tracked_applyVerdict h c o now
  | journal result =>
    simp only [nextStore, insertResult]
    split_ifs with hrow
    · refine ⟨fun p hp => ?_, h.queued, h.once⟩
      rcases List.mem_append.mp hp with hp | hp
      · exact h.journaled p hp
      · obtain rfl := List.mem_singleton.mp hp
        obtain ⟨r, hr, hid⟩ := List.any_eq_true.mp hrow
        exact List.mem_map.mpr ⟨r, hr, by simpa using hid⟩
    · exact h
  | enqueueChecks ids limit now => exact h.enqueueChunks hkeyed _ limit
  | resetStatus id now =>
    simp only [nextStore, resetStatus]
    split_ifs
    · have hreset : Tracked (s.updateProxies (resettable s id) (pristineSet now)) :=
        h.updateProxies _ fun _ => rfl
      exact hreset.enqueueChunks (hkeyed.updateProxies fun _ => rfl) _ 1
    · exact h
  | reviveRemovedWithoutProbeHistory now =>
    have hrevived : Tracked (s.updateProxies
        (fun r => r.status == .removed && !s.hasResult r.id && s.hasLink r.id)
        (pristineSet now)) := h.updateProxies _ fun _ => rfl
    exact hrevived.updateProxies _ fun _ => rfl
  | purgeRemoved => exact tracked_purgeRemoved h
  | updateGeo | reviveRemoved | reviveRemovedByCountry | reviveRemovedByAsn | reviveQuarantine
  | markOrphansRemoved | quarantineToRemoved | removeAliveWithoutCountry | removeAliveByAsn
  | removeAliveByCountry | removeUnprobeableUnknown =>
    exact h.updateProxies _ fun _ => rfl
  | claimChecks | purgeSettledChecks | purgeRequestsBefore =>
    exact h.shrink (List.Subset.refl _) (.refl _) List.filter_sublist
  | purgeResultsBefore => exact h.shrink (List.Subset.refl _) List.filter_sublist (.refl _)
  | deleteSource => exact h.shrink (List.Subset.refl _) (.refl _) (.refl _)
  | _ => exact h

/-- In every reachable store each link, journal entry and queued check refers to a row, no link is
stored twice, no two rows share an id or a fingerprint, and no proxy is queued twice. -/
theorem references_whole {Ok : World → Event → Prop} {w : World}
    (h : Reachable (lifecycle lib cfg) Ok w) : Schema w.store ∧ Tracked w.store := by
  refine ⟨reachable_schema h, ?_⟩
  induction h with
  | init hinit =>
    obtain rfl := hinit
    exact ⟨by simp, by simp, by simp⟩
  | step hreach _ _ ih => exact tracked_nextStore lib cfg ih (reachable_schema hreach).keyed _

theorem references_whole_sample :
    let s := (ingestedAndDrawn.foldl (lifecycle sampleLibraries defaultConfig).next {}).store
    Schema s ∧ Tracked s :=
  references_whole (show Reachable (lifecycle sampleLibraries defaultConfig) Any _ from
    .execute (.init rfl) (by decide +kernel))

end Tracked

/-- The daemon claims the check, or its age is cut off. -/
def TakesRequest (q : ProbeRequest) : Event → Prop
  | .claimChecks ids => q.proxyId ∈ ids
  | .purgeRequestsBefore cutoff => q.requestedAt < cutoff
  | _ => False

instance (q : ProbeRequest) (e : Event) : Decidable (TakesRequest q e) := by
  unfold TakesRequest
  casesm Event <;> infer_instance

/-- The step does not take the check, and its proxy is still unknown. -/
def LeavesQueued (q : ProbeRequest) (w : World) (e : Event) : Prop :=
  ¬TakesRequest q e ∧ ∀ r ∈ w.store.proxies, r.id = q.proxyId → r.status = .unknown

instance (q : ProbeRequest) (w : World) (e : Event) : Decidable (LeavesQueued q w e) :=
  inferInstanceAs (Decidable (_ ∧ _))

section Queue

variable {q : ProbeRequest}

theorem requests_enqueueChunks (now : ℤ) (s : Store) (chunks : List (List ℕ)) (remaining : ℕ) :
    s.requests ⊆ (enqueueChunks now s chunks remaining).1.requests := by
  induction chunks generalizing s remaining with
  | nil => exact List.Subset.refl _
  | cons chunk chunks ih =>
    unfold enqueueChunks
    split_ifs
    · exact List.Subset.refl _
    · exact fun q hq => ih (enqueueChunk s chunk remaining now).1 _ (List.mem_append_left _ hq)

theorem requests_upsertEntries (s : Store) (entries : List ProxyEntry)
    (geo : List (Option GeoStamp)) :
    (upsertEntries lib now s entries geo).requests = s.requests := by
  induction entries generalizing s geo with
  | nil => rfl
  | cons entry entries ih =>
    rw [upsertEntries, ih]
    dsimp only [upsertEntry]
    split_ifs <;> rfl

theorem requests_reconcileSource {sourceId : Text} {entries : List ProxyEntry}
    {geo : List (Option GeoStamp)} {linger : Bool} {stats : ReconciliationStats}
    (hok : reconcileSource lib s sourceId entries geo now linger = .ok (s', stats)) :
    s'.requests = s.requests := by
  unfold reconcileSource at hok
  split at hok
  · cases hok
  dsimp only at hok
  split at hok
  · cases hok
  · obtain ⟨rfl, -⟩ := Prod.mk.inj (Except.ok.inj hok)
    cases linger <;> exact requests_upsertEntries s entries geo

theorem requests_applyVerdict (s : Store) (c : Check) (o : Outcome) (now : ℤ) :
    (applyVerdict cfg s c o now).requests = s.requests := by
  have hfailed : ∀ jitter mark,
      (checkFailed s c.id now cfg.failLimit cfg.secondChanceMinSecs jitter mark).1.requests =
        s.requests := by
    intro jitter mark
    dsimp only [checkFailed]
    split
    · rfl
    · split_ifs <;> rfl
  have hladder :
      (quarantineCheckFailed s c.id now c.ladderStep cfg.recheckDelays).1.requests =
        s.requests := by
    dsimp only [quarantineCheckFailed]
    split <;> rfl
  unfold applyVerdict
  split
  case h_2 | h_4 => exact hfailed _ _
  case h_7 | h_8 => exact hladder
  all_goals rfl

theorem step_keeps_request {w : World} {e : Event} (hq : q ∈ w.store.requests)
    (h : LeavesQueued q w e) : q ∈ (nextStore lib cfg w.store e).requests := by
  obtain ⟨htakes, hunknown⟩ := h
  cases e with
  | claimChecks ids => exact List.mem_filter.mpr ⟨hq, by simpa [TakesRequest] using htakes⟩
  | purgeRequestsBefore cutoff => exact List.mem_filter.mpr ⟨hq, by simpa [TakesRequest] using htakes⟩
  | purgeSettledChecks =>
    refine List.mem_filter.mpr ⟨hq, ?_⟩
    simp only [Bool.not_eq_true', List.any_eq_false, Bool.and_eq_true, beq_iff_eq, bne_iff_ne,
      not_and, not_not]
    exact hunknown
  | purgeRemoved =>
    refine List.mem_filter.mpr ⟨hq, ?_⟩
    simp only [Bool.not_eq_true', List.any_eq_false, Bool.and_eq_true, beq_iff_eq, not_and]
    intro r hr hid hremoved
    rw [hunknown r hr hid] at hremoved
    cases hremoved
  | reconcileSource sourceId entries geo now linger =>
    simp only [nextStore]
    split
    next hok => exact (requests_reconcileSource hok).symm ▸ hq
    next => exact hq
  | verdict c o now => exact (requests_applyVerdict w.store c o now).symm ▸ hq
  | journal result =>
    simp only [nextStore, insertResult]
    split_ifs <;> exact hq
  | enqueueChecks ids limit now => exact requests_enqueueChunks now w.store _ limit hq
  | resetStatus id now =>
    simp only [nextStore, resetStatus]
    split_ifs
    · exact requests_enqueueChunks now _ _ 1 hq
    · exact hq
  | _ => exact hq

/-- A queued check is lost in no run: it leaves the queue by being claimed, by age, or after its
proxy has left `unknown`. -/
theorem request_persists {w : World} {es : List Event} (hq : q ∈ w.store.requests)
    (hes : Executes (lifecycle lib cfg) (LeavesQueued q) w es) :
    q ∈ (es.foldl (lifecycle lib cfg).next w).store.requests := by
  induction es generalizing w with
  | nil => exact hq
  | cons e es ih =>
    obtain ⟨-, hleaves, hrest⟩ := hes
    exact ih (step_keeps_request hq hleaves) hrest

def queuedStore : World :=
  [Event.reconcileSource "feed" [sampleEntry "node" "example.com" []] [] 1000 true,
    .enqueueChecks [1] 10 1001].foldl (lifecycle sampleLibraries defaultConfig).next {}

theorem request_persists_sample : ⟨1, 1001⟩ ∈
    ([Event.purgeSettledChecks, .selectT1 [1], .verdict ⟨1, .t1, 0⟩ (.failed 0) 1002,
      .purgeRequestsBefore 900, .purgeRemoved].foldl
        (lifecycle sampleLibraries defaultConfig).next queuedStore).store.requests :=
  request_persists (by decide +kernel) (by decide +kernel)

end Queue

end RowHistory
