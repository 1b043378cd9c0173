import Fumox.RowRepresentation
import Fumox.RenderCacheSteps

/-!
An ingest and the cached renderings of the rows that it writes.  The counters of the pass decide
whether the renderings of the source go, and the membership of the source decides which ones do.
-/

namespace IngestInvalidation

open RustText ProxyModels ProxyFingerprint RowTable ProxyStore LifecycleSteps ReconcilePass
open RenderCache (Caches Key Rendered)

structure IngestSettings where
  refreshCheckLimit : ℕ
  dropGate : Bool
  removedAsUnknown : Bool

structure Source where
  id : Text
  lastFetchedAt : Option ℤ
  cacheTtlSeconds : ℤ

/-- What the fetch brings: a failure, or the entries that the drop rules leave. -/
inductive Payload where
  | fetchFailed
  | parseFailed
  | parsed (entries : List ProxyEntry) (geo : List (Option GeoStamp)) (hasDropRules : Bool)

structure Ingest where
  source : Source
  force : Bool
  now : ℤ
  payload : Payload
  revivalFailsAfter : Option ℕ

inductive IngestOutcome where
  | ok (stats : ReconciliationStats)
  | fetchFailed
  | parseFailed
  deriving DecidableEq

variable (lib : Libraries)

/-- The `removed_as_unknown` step: the revived rows and the ids that it hands to the queue. -/
def reviveCarried (settings : IngestSettings) (i : Ingest) (s : Store)
    (fingerprints : List Text) : Store × List ℕ :=
  if settings.removedAsUnknown then
    match i.revivalFailsAfter with
    | none => reviveRemoved s fingerprints i.now
    | some chunks => ((reviveRemoved s (fingerprints.take (500 * chunks)) i.now).1, [])
  else (s, [])

def enqueueProbeRequests (s : Store) (ids : List ℕ) (limit : ℕ) (now : ℤ) : Store :=
  if limit = 0 ∨ ids = [] then s else (enqueueChecks s ids limit now).1

def Ingest.stillFresh (i : Ingest) : Bool :=
  !i.force && i.source.lastFetchedAt.any fun fetchedAt =>
    decide (i.now - fetchedAt < i.source.cacheTtlSeconds)

def ingestSource (settings : IngestSettings) (s : Store) (i : Ingest) : Store × IngestOutcome :=
  if i.stillFresh then (s, .ok {})
  else
    match i.payload with
    | .fetchFailed => (s, .fetchFailed)
    | .parseFailed => (s, .parseFailed)
    | .parsed entries geo hasDropRules =>
      match reconcileSource lib s i.source.id entries geo i.now
        (!(settings.dropGate && hasDropRules)) with
      | .error _ => (s, .fetchFailed)
      | .ok (s₁, stats) =>
        let (s₂, revived) := reviveCarried settings i s₁ (entries.map (fingerprint lib.sha256))
        (enqueueProbeRequests s₂ (stats.insertedIds ++ revived) settings.refreshCheckLimit i.now,
          .ok stats)

def invalidateKey (c : Caches) (key : Key) : Caches :=
  (c.bumpGeneration key).processedRemove key

def invalidateProcessedForSource (c : Caches) (sourceId : Text) : Caches :=
  (c.dependentEntries sourceId ++ c.dependentClaims sourceId).foldl invalidateKey c

def spawnIngest (c : Caches) (sourceId : Text) : IngestOutcome → Caches
  | .ok stats =>
    if 0 < stats.inserted + stats.updated + stats.removed then
      invalidateProcessedForSource c sourceId
    else c
  | .fetchFailed | .parseFailed => c

/-- The join of links and rows, `ORDER BY p.id`. -/
def listWithSource (s : Store) (sourceIds : List Text) : List (Text × ProxyRow) :=
  ((s.links.filter fun l => sourceIds.contains l.sourceId).flatMap fun l =>
    (s.proxies.filter fun r => r.id == l.proxyId).map fun r => (l.sourceId, r)).insertionSort
      fun a b => a.2.id ≤ b.2.id

/-- A cached rendering is gone after the ingest, or would read what it read before. -/
def GoneOrRight (settings : IngestSettings) (s : Store) (c : Caches) (i : Ingest) (key : Key)
    (r : Rendered) : Prop :=
  (spawnIngest c i.source.id (ingestSource lib settings s i).2).processedGet key = none ∨
    listWithSource (ingestSource lib settings s i).1 r.sourceIds = listWithSource s r.sourceIds

def refreshedBy (now : ℤ) : List ProxyEntry → List (Option GeoStamp) → ProxyRow → ProxyRow
  | [], _, row => row
  | entry :: entries, geo, row =>
    refreshedBy now entries geo.tail
      (if row.fingerprint = fingerprint lib.sha256 entry then
        onConflict (insertedRow lib 0 entry (geo.head?.join.getD {}) now) row
      else row)

def revivedFingerprints (settings : IngestSettings) (i : Ingest) (fingerprints : List Text) :
    List Text :=
  if settings.removedAsUnknown then
    match i.revivalFailsAfter with
    | none => fingerprints
    | some chunks => fingerprints.take (500 * chunks)
  else []

def GoesWithoutEntries (s : Store) (i : Ingest) (linger : Bool) (l : Link) : Prop :=
  staleLink i.source.id i.now l = true ∧
    ¬(linger = true ∧ ∃ r ∈ s.proxies, r.id = l.proxyId ∧ lingers r = true)

/-- The row is retired when a feed without entries is reconciled. -/
def RetiredWithoutEntries (s : Store) (i : Ingest) (linger : Bool) (r : ProxyRow) : Prop :=
  linger = false ∧ r.status ≠ .removed ∧ orphaned i.source.id i.now s.links r.id

/-- A rendering of the source goes unless the feed has lost every entry and unlinks rows without
retiring one; another rendering stays, and so do its rows unless the feed carries them. -/
def Spares (settings : IngestSettings) (s : Store) (c : Caches) (i : Ingest) (key : Key)
    (r : Rendered) (entries : List ProxyEntry) (geo : List (Option GeoStamp)) (linger : Bool) :
    Prop :=
  (i.source.id ∈ r.sourceIds → entries = [] →
      (∃ row ∈ s.proxies, RetiredWithoutEntries s i linger row) ∨
        ∀ l ∈ s.links, ¬GoesWithoutEntries s i linger l) ∧
    (i.source.id ∉ r.sourceIds →
      (entries ≠ [] ∧ ∃ sources, c.inlineSources key = some sources ∧ i.source.id ∈ sources) ∨
        ∀ l ∈ s.links, l.sourceId ∈ r.sourceIds → ∀ row ∈ s.proxies, row.id = l.proxyId →
          refreshedBy lib i.now entries geo row = row ∧
            ¬(row.status = .removed ∧ row.fingerprint ∈ revivedFingerprints settings i
              (entries.map (fingerprint lib.sha256))))

def SparesIngest (settings : IngestSettings) (s : Store) (c : Caches) (i : Ingest) (key : Key)
    (r : Rendered) : Prop :=
  i.stillFresh = false → ∀ entries geo hasDropRules,
    i.payload = .parsed entries geo hasDropRules → geo.length ≤ entries.length →
      Spares lib settings s c i key r entries geo (!(settings.dropGate && hasDropRules))

section Rows

variable {lib : Libraries} {s : Store} {now : ℤ} {entries : List ProxyEntry}
  {geo : List (Option GeoStamp)} {r : ProxyRow}

theorem refreshedBy_keeps : (refreshedBy lib now entries geo r).id = r.id ∧
    (refreshedBy lib now entries geo r).status = r.status ∧
      (refreshedBy lib now entries geo r).fingerprint = r.fingerprint := by
  induction entries generalizing geo r with
  | nil => exact ⟨rfl, rfl, rfl⟩
  | cons entry entries ih =>
    rw [refreshedBy]
    obtain ⟨hid, hstatus, hfp⟩ := @ih geo.tail (if r.fingerprint = fingerprint lib.sha256 entry then
      onConflict (insertedRow lib 0 entry (geo.head?.join.getD {}) now) r else r)
    rw [hid, hstatus, hfp]
    split_ifs <;> exact ⟨rfl, rfl, rfl⟩

theorem proxies_upsertEntries :
    ∃ new, (upsertEntries lib now s entries geo).proxies =
        s.proxies.map (refreshedBy lib now entries geo) ++ new ∧ ∀ r ∈ new, s.nextId ≤ r.id := by
  induction entries generalizing s geo with
  | nil => exact ⟨[], by simp [upsertEntries, refreshedBy], by simp⟩
  | cons entry entries ih =>
    obtain ⟨new, hrest, hnew⟩ := @ih (upsertEntry lib s entry (geo.head?.join.getD {}) now) geo.tail
    rw [upsertEntries, hrest]
    have hnext := @nextId_le_upsertEntry lib s now entry (geo.head?.join.getD {})
    dsimp only [upsertEntry] at hnext hnew ⊢
    split_ifs at hnext hnew ⊢ with hany
    · refine ⟨new, ?_, fun r hr => hnext.trans (hnew r hr)⟩
      rw [Store.proxies_updateProxies, updateWhere, List.map_map]
      congr 1
      apply List.map_congr_left
      intro r _
      simp only [Function.comp_apply, beq_iff_eq]
      rfl
    · refine ⟨refreshedBy lib now entries geo.tail (insertedRow lib s.nextId entry
        (geo.head?.join.getD {}) now) :: new, ?_, ?_⟩
      · rw [List.map_append, List.append_assoc]
        congr 1
        apply List.map_congr_left
        intro r hr
        have hother : ¬r.fingerprint = fingerprint lib.sha256 entry := fun heq =>
          hany (List.any_eq_true.mpr ⟨r, hr, beq_iff_eq.mpr heq⟩)
        rw [refreshedBy, if_neg hother]
      · intro r hr
        rcases List.mem_cons.mp hr with rfl | hr
        · rw [refreshedBy_keeps.1]
          exact le_rfl
        · exact (Nat.le_succ _).trans (hnew r hr)

end Rows

section Reading

variable {s s' : Store} {sourceIds : List Text}

def joined (s : Store) (sourceIds : List Text) : List (Text × ProxyRow) :=
  (s.links.filter fun l => sourceIds.contains l.sourceId).flatMap fun l =>
    (s.proxies.filter fun r => r.id == l.proxyId).map fun r => (l.sourceId, r)

theorem listWithSource_eq : listWithSource s sourceIds =
    (joined s sourceIds).insertionSort fun a b => a.2.id ≤ b.2.id := rfl

theorem mem_listWithSource {source : Text} {r : ProxyRow} :
    (source, r) ∈ listWithSource s sourceIds ↔
      ∃ l ∈ s.links, l.sourceId = source ∧ source ∈ sourceIds ∧ r ∈ s.proxies ∧
        r.id = l.proxyId := by
  rw [listWithSource_eq, List.mem_insertionSort]
  simp only [joined, List.mem_flatMap, List.mem_filter, List.mem_map, List.contains_iff_mem,
    beq_iff_eq, Prod.mk.injEq]
  constructor
  · rintro ⟨l, ⟨hl, hsource⟩, r', ⟨hr', hid⟩, rfl, rfl⟩
    exact ⟨l, hl, rfl, hsource, hr', hid⟩
  · rintro ⟨l, hl, rfl, hsource, hr, hid⟩
    exact ⟨l, ⟨hl, hsource⟩, r, ⟨hr, hid⟩, rfl, rfl⟩

theorem length_listWithSource (hkeys : (s.proxies.map (·.id)).Nodup)
    (hreferenced : ∀ l ∈ s.links, ∃ r ∈ s.proxies, r.id = l.proxyId) :
    (listWithSource s sourceIds).length =
      (s.links.filter fun l => sourceIds.contains l.sourceId).length := by
  rw [listWithSource_eq, List.length_insertionSort, joined, List.length_flatMap]
  have hone : ∀ l ∈ s.links.filter (fun l => sourceIds.contains l.sourceId),
      ((s.proxies.filter fun r => r.id == l.proxyId).map fun r => (l.sourceId, r)).length = 1 := by
    intro l hl
    obtain ⟨r, hr, hid⟩ := hreferenced l (List.mem_of_mem_filter hl)
    rw [List.length_map, ← List.countP_eq_length_filter]
    have hcount := List.count_eq_one_of_mem hkeys (List.mem_map_of_mem hr)
    rw [List.count, List.countP_map, hid] at hcount
    exact hcount
  rw [List.map_congr_left hone]
  simp

theorem filter_id (h : Schema s) {row : ProxyRow} (hrow : row ∈ s.proxies)
    {f : ProxyRow → ProxyRow} (hf : ∀ r, (f r).id = r.id) {new : List ProxyRow}
    (hnew : ∀ r ∈ new, s.nextId ≤ r.id) :
    (s.proxies.map f ++ new).filter (fun r => r.id == row.id) = [f row] := by
  have hold : s.proxies.filter (fun r => r.id == row.id) = [row] := by
    have hcount := List.count_eq_one_of_mem h.keyed.nodup (List.mem_map_of_mem hrow)
    rw [List.count, List.countP_map, List.countP_eq_length_filter] at hcount
    obtain ⟨x, hx⟩ := List.length_eq_one_iff.mp hcount
    have hmem : row ∈ s.proxies.filter fun r => r.id == row.id :=
      List.mem_filter.mpr ⟨hrow, beq_self_eq_true _⟩
    have hx' : s.proxies.filter (fun r => r.id == row.id) = [x] := hx
    rw [hx'] at hmem ⊢
    rw [List.mem_singleton.mp hmem]
  have hempty : new.filter (fun r => r.id == row.id) = [] := by
    apply List.filter_eq_nil_iff.mpr
    intro r hr hid
    have hfresh := h.keyed.fresh row hrow
    have hge := hnew r hr
    simp only [beq_iff_eq] at hid
    omega
  have hkey : ((fun r : ProxyRow => r.id == row.id) ∘ f) = fun r => r.id == row.id := by
    funext r
    simp [hf]
  rw [List.filter_append, hempty, List.append_nil, List.filter_map, hkey, hold]
  rfl

end Reading

section Effect

variable {lib : Libraries} {settings : IngestSettings} {s : Store} {i : Ingest}
  {entries : List ProxyEntry} {geo : List (Option GeoStamp)} {hasDropRules : Bool}

theorem reviveCarried_eq (s : Store) (fingerprints : List Text) :
    (reviveCarried settings i s fingerprints).1 = s.updateProxies
      (fun r => r.status == .removed &&
        (revivedFingerprints settings i fingerprints).contains r.fingerprint && s.hasLink r.id)
      (pristineSet i.now) := by
  unfold reviveCarried revivedFingerprints
  cases settings.removedAsUnknown with
  | true =>
    cases i.revivalFailsAfter with
    | none => rfl
    | some chunks => rfl
  | false => simp [Store.updateProxies, updateWhere]

theorem enqueueProbeRequests_frame (s : Store) (ids : List ℕ) (limit : ℕ) (now : ℤ) :
    (enqueueProbeRequests s ids limit now).proxies = s.proxies ∧
      (enqueueProbeRequests s ids limit now).links = s.links := by
  unfold enqueueProbeRequests
  split_ifs
  · exact ⟨rfl, rfl⟩
  · exact ⟨(enqueueChunks_frame now s _ limit).1, enqueueChunks_links now s _ limit⟩

structure Reconciles (i : Ingest) (entries : List ProxyEntry) (geo : List (Option GeoStamp))
    (hasDropRules : Bool) : Prop where
  expired : i.stillFresh = false
  payload : i.payload = .parsed entries geo hasDropRules
  aligned : geo.length ≤ entries.length

theorem ingestSource_eq (hschema : Schema s) (h : Reconciles i entries geo hasDropRules) :
    ∃ s₁ stats, reconcileSource lib s i.source.id entries geo i.now
        (!(settings.dropGate && hasDropRules)) = .ok (s₁, stats) ∧
      (ingestSource lib settings s i).2 = .ok stats ∧
      (ingestSource lib settings s i).1.links = s₁.links ∧
      (ingestSource lib settings s i).1.proxies = updateWhere
        (fun r => r.status == .removed && (revivedFingerprints settings i
          (entries.map (fingerprint lib.sha256))).contains r.fingerprint && s₁.hasLink r.id)
        (pristineSet i.now) s₁.proxies := by
  obtain ⟨s₁, stats, hok⟩ := @RowRepresentation.reconcileSource_total lib s i.now i.source.id
    entries geo (!(settings.dropGate && hasDropRules)) hschema h.aligned
  have hrevived := @reviveCarried_eq settings i s₁ (entries.map (fingerprint lib.sha256))
  have hframe := enqueueProbeRequests_frame
    (reviveCarried settings i s₁ (entries.map (fingerprint lib.sha256))).1
    (stats.insertedIds ++ (reviveCarried settings i s₁ (entries.map (fingerprint lib.sha256))).2)
    settings.refreshCheckLimit i.now
  refine ⟨s₁, stats, hok, ?_⟩
  simp only [ingestSource, h.expired, h.payload, hok, Bool.false_eq_true, if_false]
  refine ⟨trivial, hframe.2.trans ?_, hframe.1.trans ?_⟩
  · rw [hrevived]
    rfl
  · rw [hrevived]
    rfl

theorem ingestSource_unchanged
    (h : ∀ entries geo hasDropRules, ¬Reconciles i entries geo hasDropRules) :
    (ingestSource lib settings s i).1 = s := by
  unfold ingestSource
  split_ifs with hfresh
  · rfl
  · split
    · rfl
    · rfl
    next entries geo hasDropRules hpayload =>
      have hlength : entries.length < geo.length := by
        by_contra hge
        exact h entries geo hasDropRules ⟨by simpa using hfresh, hpayload, by omega⟩
      have herror : reconcileSource lib s i.source.id entries geo i.now
          (!(settings.dropGate && hasDropRules)) =
            .error "reconcile_source: geo stamp count does not match entry count" := by
        unfold reconcileSource
        rw [if_pos hlength]
      rw [herror]

def sharedRow (lib : Libraries) (settings : IngestSettings) (i : Ingest)
    (entries : List ProxyEntry) (geo : List (Option GeoStamp)) (row : ProxyRow) : ProxyRow :=
  if row.status = .removed ∧ row.fingerprint ∈ revivedFingerprints settings i
      (entries.map (fingerprint lib.sha256)) then
    pristineSet i.now (refreshedBy lib i.now entries geo row)
  else refreshedBy lib i.now entries geo row

theorem sharedRow_eq_self {row : ProxyRow} : sharedRow lib settings i entries geo row = row ↔
    refreshedBy lib i.now entries geo row = row ∧
      ¬(row.status = .removed ∧ row.fingerprint ∈ revivedFingerprints settings i
        (entries.map (fingerprint lib.sha256))) := by
  unfold sharedRow
  split_ifs with hrevived
  · constructor
    · intro heq
      have hstatus := congrArg (·.status) heq
      simp [pristineSet, hrevived.1] at hstatus
    · rintro ⟨-, hkept⟩
      exact absurd hrevived hkept
  · simp [hrevived]

theorem links_ingestSource (hschema : Schema s) (h : Reconciles i entries geo hasDropRules)
    {sourceIds : List Text} (hother : i.source.id ∉ sourceIds) :
    (ingestSource lib settings s i).1.links.filter (fun l => sourceIds.contains l.sourceId) =
      s.links.filter fun l => sourceIds.contains l.sourceId := by
  obtain ⟨s₁, stats, hok, -, hlinks, -⟩ := @ingestSource_eq lib settings s i entries geo
    hasDropRules hschema h
  obtain ⟨ids, -, -, hreconciled, -⟩ := reconcileSource_eq_ok hok
  have hforeign : ∀ l : Link, sourceIds.contains l.sourceId = true →
      (l.sourceId != i.source.id) = true := by
    intro l hl
    rw [bne_iff_ne]
    rintro heq
    exact hother (heq ▸ List.contains_iff_mem.mp hl)
  have honly : ∀ links : List Link, links.filter (fun l => sourceIds.contains l.sourceId) =
      (links.filter fun l => l.sourceId != i.source.id).filter
        fun l => sourceIds.contains l.sourceId := by
    intro links
    rw [List.filter_filter]
    apply List.filter_congr
    intro l _
    cases hl : sourceIds.contains l.sourceId with
    | true => simp [hforeign l hl]
    | false => simp
  rw [hlinks, hreconciled, honly s.links, ← @filter_stampLinks _ i.now _ ids,
    ← honly, List.filter_filter]
  apply List.filter_congr
  intro l _
  cases hl : sourceIds.contains l.sourceId with
  | true =>
    have hne := hforeign l hl
    rw [bne_iff_ne] at hne
    simp [staleLink, hne]
  | false => simp

theorem filter_ingestSource (hschema : Schema s) (h : Reconciles i entries geo hasDropRules)
    {l : Link} (hl : l ∈ s.links) (hother : l.sourceId ≠ i.source.id) {row : ProxyRow}
    (hrow : row ∈ s.proxies) (hid : row.id = l.proxyId) :
    (ingestSource lib settings s i).1.proxies.filter (fun r => r.id == l.proxyId) =
      [sharedRow lib settings i entries geo row] := by
  obtain ⟨s₁, stats, hok, -, hlinks, hproxies⟩ := @ingestSource_eq lib settings s i entries geo
    hasDropRules hschema h
  obtain ⟨ids, -, hreconciled, hkept, -⟩ := reconcileSource_eq_ok hok
  obtain ⟨new, hupserts, hnew⟩ := @proxies_upsertEntries lib s i.now entries geo
  have hstamped : l ∈ stampedLinks i.source.id i.now s.links ids :=
    mem_stampLinks.mpr (.inl ⟨hl, fun hown => hother hown.2⟩)
  have hfresh : staleLink i.source.id i.now l = false := by simp [staleLink, hother]
  -- the link of the other source keeps the row from being retired
  obtain ⟨retired, hretired, hretiredId, hretiredRow⟩ : ∃ retired : ProxyRow → ProxyRow,
      s₁.proxies = (upsertEntries lib i.now s entries geo).proxies.map retired ∧
        (∀ r, (retired r).id = r.id) ∧ ∀ r, r.id = l.proxyId → retired r = r := by
    rw [hreconciled]
    cases !(settings.dropGate && hasDropRules) with
    | true => exact ⟨id, by simp, fun _ => rfl, fun _ _ => rfl⟩
    | false =>
      refine ⟨_, rfl, ?_, ?_⟩
      · intro r
        exact id_reconciled.1
      · intro r hr
        rw [if_neg]
        intro hguard
        rw [Bool.and_eq_true, losesLastLink_iff] at hguard
        have hstale := hguard.2.2 l hstamped hr.symm
        rw [hfresh] at hstale
        exact absurd hstale (by decide)
  have hlinked : s₁.hasLink l.proxyId = true := by
    apply List.any_eq_true.mpr
    refine ⟨l, ?_, beq_self_eq_true _⟩
    rw [hkept]
    exact List.mem_filter.mpr ⟨hstamped, by simp [hfresh]⟩
  obtain ⟨hfid, hfstatus, hffp⟩ := @refreshedBy_keeps lib i.now entries geo row
  rw [hproxies, hretired, hupserts, List.map_append, updateWhere, List.map_append, List.map_map,
    List.map_map, ← hid, filter_id hschema hrow]
  · simp only [Function.comp_apply, hretiredRow _ (hfid.trans hid), sharedRow, hfstatus, hffp,
      hfid, hid, hlinked, and_true, Bool.and_eq_true, beq_iff_eq, List.contains_iff_mem]
  · intro r
    simp only [Function.comp_apply]
    split_ifs <;> simp [pristineSet, resetSet, hretiredId, refreshedBy_keeps.1]
  · intro r hr
    obtain ⟨r₁, hr₁, rfl⟩ := List.mem_map.mp hr
    obtain ⟨r₂, hr₂, rfl⟩ := List.mem_map.mp hr₁
    have hge := hnew r₂ hr₂
    split_ifs <;> simpa [pristineSet, resetSet, hretiredId] using hge

/-- A rendering of other sources reads what it read before exactly when its rows are left alone. -/
theorem reading_other_iff (hschema : Schema s) (h : Reconciles i entries geo hasDropRules)
    {sourceIds : List Text} (hother : i.source.id ∉ sourceIds) :
    listWithSource (ingestSource lib settings s i).1 sourceIds = listWithSource s sourceIds ↔
      ∀ l ∈ s.links, l.sourceId ∈ sourceIds → ∀ row ∈ s.proxies, row.id = l.proxyId →
        sharedRow lib settings i entries geo row = row := by
  have hforeign : ∀ l : Link, l.sourceId ∈ sourceIds → l.sourceId ≠ i.source.id :=
    fun l hl heq => hother (heq ▸ hl)
  constructor
  · intro heq l hl hsource row hrow hid
    have hread : (l.sourceId, row) ∈ listWithSource (ingestSource lib settings s i).1 sourceIds := by
      rw [heq]
      exact mem_listWithSource.mpr ⟨l, hl, rfl, hsource, hrow, hid⟩
    obtain ⟨-, -, -, -, hrow', -⟩ := mem_listWithSource.mp hread
    have hfound : row ∈ (ingestSource lib settings s i).1.proxies.filter
        (fun r => r.id == l.proxyId) :=
      List.mem_filter.mpr ⟨hrow', by simpa using hid⟩
    rw [filter_ingestSource hschema h hl (hforeign l hsource) hrow hid] at hfound
    exact (List.mem_singleton.mp hfound).symm
  · intro hkept
    rw [listWithSource_eq, listWithSource_eq, joined, joined,
      links_ingestSource hschema h hother]
    congr 1
    apply List.flatMap_congr
    intro l hl
    obtain ⟨hl, hsource⟩ := List.mem_filter.mp hl
    rw [List.contains_iff_mem] at hsource
    obtain ⟨row, hrow, hid⟩ := hschema.referenced l hl
    have hold := @filter_id s hschema row hrow id (fun _ => rfl) [] (by simp)
    rw [List.map_id, List.append_nil, hid] at hold
    rw [filter_ingestSource hschema h hl (hforeign l hsource) hrow hid, hold,
      hkept l hl hsource row hrow hid]
    rfl

theorem reconcileSource_nil {linger : Bool} {sourceId : Text} {now : ℤ} {s₁ : Store}
    {stats : ReconciliationStats}
    (hok : reconcileSource lib s sourceId [] [] now linger = .ok (s₁, stats)) :
    stats.inserted + stats.updated = 0 ∧
      stats.removed = (if linger then 0 else
        (s.proxies.filter fun r => r.status != .removed && losesLastLink s sourceId now r.id).length) ∧
      s₁.proxies = (if linger then s.proxies else updateWhere
        (fun r => r.status != .removed && losesLastLink s sourceId now r.id) (retire now)
          s.proxies) ∧
      s₁.links = s.links.filter fun l => !(staleLink sourceId now l &&
        !(linger && ((s₁.proxies.filter lingers).map (·.id)).contains l.proxyId)) := by
  unfold reconcileSource at hok
  rw [if_neg (by simp)] at hok
  simp only [List.map_nil, List.mapM_nil, Option.pure_def, List.zip_nil_right, countUpserts,
    upsertEntries, List.foldl_nil] at hok
  obtain ⟨rfl, rfl⟩ := Prod.mk.inj (Except.ok.inj hok)
  cases linger with
  | true => exact ⟨rfl, rfl, rfl, rfl⟩
  | false => exact ⟨rfl, rfl, rfl, rfl⟩

theorem removed_pos_iff {linger : Bool} {s₁ : Store} {stats : ReconciliationStats}
    (hok : reconcileSource lib s i.source.id [] [] i.now linger = .ok (s₁, stats)) :
    0 < stats.removed ↔ ∃ row ∈ s.proxies, RetiredWithoutEntries s i linger row := by
  rw [(reconcileSource_nil hok).2.1]
  cases linger with
  | true => simp [RetiredWithoutEntries]
  | false =>
    simp only [Bool.false_eq_true, if_false, List.length_pos_iff_exists_mem, List.mem_filter,
      Bool.and_eq_true, bne_iff_ne, losesLastLink_iff, RetiredWithoutEntries, true_and]

theorem rows_without_retirement {linger : Bool} {s₁ : Store} {stats : ReconciliationStats}
    (hok : reconcileSource lib s i.source.id [] [] i.now linger = .ok (s₁, stats))
    (hnone : ¬∃ row ∈ s.proxies, RetiredWithoutEntries s i linger row) :
    s₁.proxies = s.proxies := by
  rw [(reconcileSource_nil hok).2.2.1]
  cases linger with
  | true => rfl
  | false =>
    have hself : ∀ r ∈ s.proxies, (if (r.status != .removed &&
        losesLastLink s i.source.id i.now r.id) = true then retire i.now r else r) = r := by
      intro r hr
      rw [if_neg]
      intro hguard
      simp only [Bool.and_eq_true, bne_iff_ne, losesLastLink_iff] at hguard
      exact hnone ⟨r, hr, rfl, hguard⟩
    rw [if_neg Bool.false_ne_true, updateWhere, List.map_congr_left hself, List.map_id']

theorem revivedFingerprints_nil : revivedFingerprints settings i [] = [] := by
  unfold revivedFingerprints
  split_ifs
  · split
    · rfl
    · exact List.take_nil
  · rfl

/-- A feed that lost every entry changes what a rendering of its source reads exactly when a link
goes or a row is retired. -/
theorem reading_own_iff (hschema : Schema s) (h : Reconciles i [] geo hasDropRules)
    {sourceIds : List Text} (hown : i.source.id ∈ sourceIds)
    (hnone : ¬∃ row ∈ s.proxies,
      RetiredWithoutEntries s i (!(settings.dropGate && hasDropRules)) row) :
    listWithSource (ingestSource lib settings s i).1 sourceIds = listWithSource s sourceIds ↔
      ∀ l ∈ s.links, ¬GoesWithoutEntries s i (!(settings.dropGate && hasDropRules)) l := by
  obtain ⟨s₁, stats, hok, -, hlinks, hproxies⟩ := @ingestSource_eq lib settings s i [] geo
    hasDropRules hschema h
  have hgeo : geo = [] := List.length_eq_zero_iff.mp (Nat.le_zero.mp h.aligned)
  subst hgeo
  have hrows := rows_without_retirement hok hnone
  have hrows' : (ingestSource lib settings s i).1.proxies = s.proxies := by
    rw [hproxies, List.map_nil, revivedFingerprints_nil, hrows]
    simp [updateWhere]
  have hkept := (reconcileSource_nil hok).2.2.2
  rw [hrows] at hkept
  have hkeep : ∀ l, (!(staleLink i.source.id i.now l &&
      !(!(settings.dropGate && hasDropRules) &&
        ((s.proxies.filter lingers).map (·.id)).contains l.proxyId))) = true ↔
      ¬GoesWithoutEntries s i (!(settings.dropGate && hasDropRules)) l := by
    intro l
    have hlingers : ((s.proxies.filter lingers).map (·.id)).contains l.proxyId = true ↔
        ∃ r ∈ s.proxies, r.id = l.proxyId ∧ lingers r = true := by
      rw [List.contains_iff_mem, List.mem_map]
      constructor
      · rintro ⟨r, hr, hid⟩
        obtain ⟨hr, hlive⟩ := List.mem_filter.mp hr
        exact ⟨r, hr, hid, hlive⟩
      · rintro ⟨r, hr, hid, hlive⟩
        exact ⟨r, List.mem_filter.mpr ⟨hr, hlive⟩, hid⟩
    rw [GoesWithoutEntries, ← hlingers]
    generalize ((s.proxies.filter lingers).map (·.id)).contains l.proxyId = lingering
    generalize (!(settings.dropGate && hasDropRules)) = linger
    cases staleLink i.source.id i.now l <;> cases linger <;> simp
  constructor
  · intro heq
    have hlength := congrArg List.length heq
    rw [length_listWithSource hschema.keyed.nodup hschema.referenced,
      length_listWithSource, hlinks, hkept, List.filter_comm,
      List.length_filter_eq_length_iff] at hlength
    · intro l hl hgoes
      have hsource : l.sourceId = i.source.id := by
        have hstale := hgoes.1
        simp only [staleLink, Bool.and_eq_true, beq_iff_eq] at hstale
        exact hstale.1
      have hread : l ∈ s.links.filter fun l => sourceIds.contains l.sourceId :=
        List.mem_filter.mpr ⟨hl, List.contains_iff_mem.mpr (hsource ▸ hown)⟩
      exact (hkeep l).mp (hlength l hread) hgoes
    · rw [hrows']
      exact hschema.keyed.nodup
    · intro l hl
      rw [hlinks, hkept] at hl
      rw [hrows']
      exact hschema.referenced l (List.mem_of_mem_filter hl)
  · intro hstays
    have hsame : (ingestSource lib settings s i).1.links = s.links := by
      rw [hlinks, hkept, List.filter_eq_self]
      exact fun l hl => (hkeep l).mpr (hstays l hl)
    rw [listWithSource_eq, listWithSource_eq, joined, joined, hsame, hrows']

end Effect

section Invalidation

variable {c : Caches} {key : Key} {r : Rendered} {sourceId : Text}

theorem processedGet_invalidateKeys (keys : List Key) :
    (keys.foldl invalidateKey c).processedGet key =
      if key ∈ keys then none else c.processedGet key := by
  induction keys generalizing c with
  | nil => simp
  | cons k keys ih =>
    have hone : (invalidateKey c k).processedGet key =
        if key = k then none else c.processedGet key :=
      RenderCache.Caches.processedGet_remove
    rw [List.foldl_cons, ih, hone]
    by_cases hk : key = k
    · simp [hk]
    · simp [hk]

theorem gone_iff (hcached : c.processedGet key = some r) :
    (invalidateProcessedForSource c sourceId).processedGet key = none ↔
      sourceId ∈ r.sourceIds ∨
        ∃ sources, c.inlineSources key = some sources ∧ sourceId ∈ sources := by
  have hcontains : key ∈ c.dependentEntries sourceId ↔ sourceId ∈ r.sourceIds := by
    rw [RenderCache.Caches.mem_dependentEntries, hcached]
    simp
  have hgone : (invalidateProcessedForSource c sourceId).processedGet key = none ↔
      key ∈ c.dependentEntries sourceId ++ c.dependentClaims sourceId := by
    rw [invalidateProcessedForSource, processedGet_invalidateKeys]
    split_ifs with hkey
    · simp [hkey]
    · simp [hkey, hcached]
  rw [hgone, List.mem_append, hcontains, RenderCache.Caches.mem_dependentClaims]

end Invalidation

section Exact

variable {lib : Libraries} {settings : IngestSettings} {s : Store} {c : Caches} {i : Ingest}
  {key : Key} {r : Rendered} {entries : List ProxyEntry} {geo : List (Option GeoStamp)}
  {hasDropRules : Bool}

theorem spawned_gone_iff (hschema : Schema s) (hcached : c.processedGet key = some r)
    (h : Reconciles i entries geo hasDropRules) :
    (spawnIngest c i.source.id (ingestSource lib settings s i).2).processedGet key = none ↔
      (entries ≠ [] ∨ ∃ row ∈ s.proxies,
          RetiredWithoutEntries s i (!(settings.dropGate && hasDropRules)) row) ∧
        (i.source.id ∈ r.sourceIds ∨
          ∃ sources, c.inlineSources key = some sources ∧ i.source.id ∈ sources) := by
  obtain ⟨s₁, stats, hok, hstats, -⟩ := @ingestSource_eq lib settings s i entries geo
    hasDropRules hschema h
  have hcount : 0 < stats.inserted + stats.updated + stats.removed ↔
      entries ≠ [] ∨ ∃ row ∈ s.proxies,
        RetiredWithoutEntries s i (!(settings.dropGate && hasDropRules)) row := by
    by_cases hempty : entries = []
    · subst hempty
      have hgeo : geo = [] := List.length_eq_zero_iff.mp (Nat.le_zero.mp h.aligned)
      subst hgeo
      have hzero := (reconcileSource_nil hok).1
      rw [← removed_pos_iff hok]
      simp [hzero]
    · have htotal := (counts_reconciled hschema hok).total
      have hpos := List.length_pos_iff.mpr hempty
      simp only [ne_eq, hempty, not_false_eq_true, true_or, iff_true]
      omega
  rw [hstats, spawnIngest, ← hcount]
  split_ifs with hpos
  · simp only [hpos, true_and]
    exact gone_iff hcached
  · simp [hpos, hcached]

/-- An ingest drops a cached rendering or leaves it right exactly when it spares it. -/
theorem gone_or_right_iff (lib : Libraries) (settings : IngestSettings) (s : Store) (c : Caches)
    (i : Ingest) (key : Key) (r : Rendered) (hschema : Schema s)
    (hcached : c.processedGet key = some r) :
    GoneOrRight lib settings s c i key r ↔ SparesIngest lib settings s c i key r := by
  by_cases hreconciles : ∃ entries geo hasDropRules, Reconciles i entries geo hasDropRules
  · obtain ⟨entries, geo, hasDropRules, h⟩ := hreconciles
    have hspares : SparesIngest lib settings s c i key r ↔ Spares lib settings s c i key r entries
        geo (!(settings.dropGate && hasDropRules)) := by
      constructor
      · intro hall
        exact hall h.expired entries geo hasDropRules h.payload h.aligned
      · intro hspares _ entries' geo' hasDropRules' hpayload _
        obtain ⟨rfl, rfl, rfl⟩ := Payload.parsed.inj (h.payload.symm.trans hpayload)
        exact hspares
    rw [hspares, GoneOrRight, spawned_gone_iff hschema hcached h, Spares]
    by_cases hown : i.source.id ∈ r.sourceIds
    · simp only [hown, true_or, and_true, true_imp_iff, not_true_eq_false, false_imp_iff]
      by_cases hempty : entries = []
      · subst hempty
        by_cases hretired : ∃ row ∈ s.proxies,
            RetiredWithoutEntries s i (!(settings.dropGate && hasDropRules)) row
        · simp only [hretired, or_true, true_or, implies_true]
        · simp only [ne_eq, not_true_eq_false, hretired, false_or, true_imp_iff]
          exact reading_own_iff hschema h hown hretired
      · simp [hempty]
    · simp only [hown, false_or, false_imp_iff, true_and, not_false_eq_true, true_imp_iff]
      rw [reading_other_iff hschema h hown]
      simp only [sharedRow_eq_self]
      -- a feed without entries refreshes and revives no row
      have hnothing : entries = [] → ∀ l ∈ s.links, l.sourceId ∈ r.sourceIds →
          ∀ row ∈ s.proxies, row.id = l.proxyId →
            refreshedBy lib i.now entries geo row = row ∧
              ¬(row.status = .removed ∧ row.fingerprint ∈ revivedFingerprints settings i
                (entries.map (fingerprint lib.sha256))) := by
        rintro rfl l - - row - -
        refine ⟨rfl, fun hrevived => ?_⟩
        rw [List.map_nil, revivedFingerprints_nil] at hrevived
        exact List.not_mem_nil hrevived.2
      by_cases hempty : entries = []
      · constructor
        · exact fun _ => .inr (hnothing hempty)
        · exact fun _ => .inr (hnothing hempty)
      · simp [hempty]
  · have hunchanged := @ingestSource_unchanged lib settings s i fun entries geo hasDropRules h =>
      hreconciles ⟨entries, geo, hasDropRules, h⟩
    constructor
    · intro _ hexpired entries geo hasDropRules hpayload haligned
      exact absurd ⟨entries, geo, hasDropRules, hexpired, hpayload, haligned⟩ hreconciles
    · exact fun _ => .inr (by rw [hunchanged])

end Exact

section Counterexample

open ProbeLifecycle LaneCoverage ProxyIdentity TransitionRuns

def sharedFeeds : List Event :=
  [.reconcileSource "a" [sampleEntry "node" "example.com" []] [] 1000 false,
    .reconcileSource "b" [sampleEntry "node" "example.com" []] [] 1001 false]

def sharedStore : Store :=
  (sharedFeeds.foldl (lifecycle sampleLibraries defaultConfig).next {}).store

def sharedRendering : Rendered := ⟨["a"], 2000, fun _ => 0⟩

def sharedCaches : Caches :=
  Caches.empty.processedPut "src:a" sharedRendering

/-- A drop rule now discards every entry of the first feed. -/
def droppedIngest : Ingest where
  source := ⟨"a", some 1000, 60⟩
  force := false
  now := 1100
  payload := .parsed [] [] true
  revivalFailsAfter := none

def gatedSettings : IngestSettings := ⟨0, true, false⟩

instance (settings : IngestSettings) (s : Store) (c : Caches) (i : Ingest) (key : Key)
    (r : Rendered) : Decidable (GoneOrRight lib settings s c i key r) :=
  inferInstanceAs (Decidable (_ ∨ _))

theorem sharedCaches_cached : sharedCaches.processedGet "src:a" = some sharedRendering :=
  AList.lookup_insert _

theorem gone_or_right_iff_sample :
    GoneOrRight sampleLibraries gatedSettings sharedStore sharedCaches droppedIngest "src:a"
        sharedRendering ↔
      SparesIngest sampleLibraries gatedSettings sharedStore sharedCaches droppedIngest "src:a"
        sharedRendering :=
  gone_or_right_iff sampleLibraries gatedSettings sharedStore sharedCaches droppedIngest "src:a"
    sharedRendering ⟨⟨by decide +kernel, by decide +kernel⟩, by decide +kernel, by decide +kernel,
      by decide +kernel⟩ sharedCaches_cached

/-- The link of a shared row goes without any counter moving, and the rendering stays. -/
theorem unlinked_row_stays_cached :
    ¬∀ (lib : Libraries) (cfg : ProbeConfig) (settings : IngestSettings) (w : World) (c : Caches)
      (i : Ingest) (key : Key) (r : Rendered), Reachable (lifecycle lib cfg) Any w →
        c.processedGet key = some r → GoneOrRight lib settings w.store c i key r := by
  intro h
  have hrun : Executes (lifecycle sampleLibraries defaultConfig) Any {} sharedFeeds := by
    decide +kernel
  have hstale : ¬GoneOrRight sampleLibraries gatedSettings sharedStore sharedCaches droppedIngest
      "src:a" sharedRendering := by
    decide +kernel
  exact hstale (h sampleLibraries defaultConfig gatedSettings _ sharedCaches droppedIngest "src:a"
    sharedRendering (Reachable.execute (.init rfl) hrun) sharedCaches_cached)

end Counterexample

end IngestInvalidation
