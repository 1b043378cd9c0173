import Fumox.JsonValue
import Fumox.ProxyFingerprint
import Fumox.RowTable

/-!
The proxy tables and the statements that run against them.  Each `UPDATE` is a guarded update of
one table; the ingest transaction composes several of them.  Digest and JSON codec are parameters.
-/

namespace ProxyStore

open RustText ProxyModels ProxyFingerprint JsonValue RowTable

structure Libraries where
  sha256 : List UInt8 → List UInt8
  json : SerdeJson

structure Lifecycle where
  status : ProxyStatus := .unknown
  failCount : ℤ := 0
  quarantinedAt : Option ℤ := none
  ladderAt : Option ℤ := none
  ladderStep : ℤ := 0
  removedAt : Option ℤ := none
  lastT2FailedAt : Option ℤ := none
  deriving DecidableEq, Repr

structure ProxyRow extends Lifecycle where
  id : ℕ
  fingerprint : Text
  scheme : Scheme
  name : Text
  host : Text
  port : ℤ
  credential : Text
  params : Option Text
  unknownParams : Option Text
  rawLine : Option Text
  geoCountry : Option Text := none
  geoCity : Option Text := none
  geoAsn : Option Text := none
  lastCheckedAt : Option ℤ := none
  lastAliveAt : Option ℤ := none
  latencyMs : Option ℤ := none
  createdAt : ℤ
  updatedAt : ℤ
  deriving DecidableEq, Repr

structure Link where
  proxyId : ℕ
  sourceId : Text
  seenAt : ℤ
  deriving DecidableEq, Repr

structure ProbeResult where
  proxyId : ℕ
  checkedAt : ℤ
  ok : Bool
  probeKind : Text
  deriving DecidableEq, Repr

structure ProbeRequest where
  proxyId : ℕ
  requestedAt : ℤ
  deriving DecidableEq, Repr

/-- `nextId` is the `AUTOINCREMENT` sequence of the proxies table: an id is never used twice. -/
structure Store where
  proxies : List ProxyRow := []
  links : List Link := []
  results : List ProbeResult := []
  requests : List ProbeRequest := []
  nextId : ℕ := 1
  deriving DecidableEq, Repr

structure GeoStamp where
  country : Option Text := none
  city : Option Text := none
  asn : Option Text := none
  deriving DecidableEq, Repr

namespace Store

/-- `EXISTS (SELECT 1 FROM proxy_source_links l WHERE l.proxy_id = id)`. -/
def hasLink (s : Store) (id : ℕ) : Bool :=
  s.links.any fun l => l.proxyId == id

def hasResult (s : Store) (id : ℕ) : Bool :=
  s.results.any fun r => r.proxyId == id

def updateProxies (s : Store) (guard : ProxyRow → Bool) (set : ProxyRow → ProxyRow) : Store :=
  { s with proxies := updateWhere guard set s.proxies }

@[simp] theorem proxies_updateProxies (s : Store) (guard : ProxyRow → Bool)
    (set : ProxyRow → ProxyRow) :
    (s.updateProxies guard set).proxies = updateWhere guard set s.proxies := rfl

@[simp] theorem nextId_updateProxies (s : Store) (guard : ProxyRow → Bool)
    (set : ProxyRow → ProxyRow) : (s.updateProxies guard set).nextId = s.nextId := rfl

end Store

section Entries

/-- One half of the parameter list as a JSON map; the first of two equal keys wins. -/
def splitParamsJson (params : List Param) (known : Bool) : List (Text × Text) :=
  (params.filter fun p => p.known == known && !p.key.isEmpty).foldl
    (fun m p => orInsert m p.key p.value) []

def paramsFromColumn (json : SerdeJson) (column : Option Text) (known : Bool) :
    Except Text (List Param) :=
  match column with
  | none => .ok []
  | some text =>
    match json.fromStr text with
    | some (.obj fields) => .ok (fields.map fun f => ⟨f.1, f.2.asStr.getD [], known⟩)
    | _ => .error "corrupt proxy params JSON"

def toEntry (json : SerdeJson) (row : ProxyRow) : Except Text ProxyEntry := do
  let known ← paramsFromColumn json row.params true
  let unknown ← paramsFromColumn json row.unknownParams false
  if 0 ≤ row.port ∧ row.port < 2 ^ 16 then
    return {
      scheme := row.scheme
      name := row.name
      host := row.host
      port := UInt16.ofNat row.port.toNat
      credential := row.credential
      params := known ++ unknown
      rawPath := []
      rawLine := row.rawLine.getD [] }
  else .error "port out of range"

end Entries

section Reconcile

variable (lib : Libraries)

def insertedRow (id : ℕ) (entry : ProxyEntry) (stamp : GeoStamp) (now : ℤ) : ProxyRow where
  id := id
  fingerprint := fingerprint lib.sha256 entry
  scheme := entry.scheme
  name := entry.name
  host := entry.host
  port := entry.port.toNat
  credential := entry.credential
  params := some (lib.json.toStr (stringObject (splitParamsJson entry.params true)))
  unknownParams := some (lib.json.toStr (stringObject (splitParamsJson entry.params false)))
  rawLine := some entry.rawLine
  geoCountry := stamp.country
  geoCity := stamp.city
  geoAsn := stamp.asn
  createdAt := now
  updatedAt := now

/-- `ON CONFLICT(fingerprint) DO UPDATE SET`: the mutable fields only, never the lifecycle. -/
def onConflict (excluded row : ProxyRow) : ProxyRow :=
  { row with
    name := excluded.name
    params := excluded.params
    unknownParams := excluded.unknownParams
    rawLine := excluded.rawLine
    geoCountry := excluded.geoCountry <|> row.geoCountry
    geoCity := excluded.geoCity <|> row.geoCity
    geoAsn := excluded.geoAsn <|> row.geoAsn
    updatedAt := excluded.updatedAt }

def upsertEntry (s : Store) (entry : ProxyEntry) (stamp : GeoStamp) (now : ℤ) : Store :=
  let row := insertedRow lib s.nextId entry stamp now
  if s.proxies.any (fun r => r.fingerprint == row.fingerprint) then
    s.updateProxies (fun r => r.fingerprint == row.fingerprint) (onConflict row)
  else
    { s with proxies := s.proxies ++ [row], nextId := s.nextId + 1 }

/-- The upsert statements of one pass; `geo` runs parallel to the entries and may be shorter. -/
def upsertEntries (now : ℤ) : Store → List ProxyEntry → List (Option GeoStamp) → Store
  | s, [], _ => s
  | s, entry :: entries, geo =>
    upsertEntries now (upsertEntry lib s entry (geo.head?.join.getD {}) now) entries geo.tail

def idOfFingerprint (s : Store) (fp : Text) : Option ℕ :=
  (s.proxies.find? fun r => r.fingerprint == fp).map (·.id)

def stampLink (sourceId : Text) (now : ℤ) (links : List Link) (id : ℕ) : List Link :=
  if links.any (fun l => l.proxyId == id && l.sourceId == sourceId) then
    updateWhere (fun l => l.proxyId == id && l.sourceId == sourceId)
      (fun l => { l with seenAt := now }) links
  else links ++ [⟨id, sourceId, now⟩]

/-- A link of this source that the pass did not stamp. -/
def staleLink (sourceId : Text) (now : ℤ) (l : Link) : Bool :=
  l.sourceId == sourceId && decide (l.seenAt < now)

/-- The rows that the unlink sweep leaves without any link. -/
def losesLastLink (s : Store) (sourceId : Text) (now : ℤ) (id : ℕ) : Bool :=
  s.links.any (fun l => l.proxyId == id && staleLink sourceId now l) &&
    !s.links.any (fun l => l.proxyId == id && !staleLink sourceId now l)

def retire (now : ℤ) (row : ProxyRow) : ProxyRow :=
  { row with status := .removed, removedAt := some now, updatedAt := now }

/-- Statuses whose link a lingering pass keeps. -/
def lingers (row : ProxyRow) : Bool :=
  row.status == .alive || row.status == .ready || row.status == .unknown ||
    row.status == .quarantine

structure ReconciliationStats where
  inserted : ℕ := 0
  updated : ℕ := 0
  unlinked : ℕ := 0
  removed : ℕ := 0
  insertedIds : List ℕ := []
  deriving DecidableEq, Repr

def countUpserts (existing : List Text) :
    List Text → List (Text × ℕ) → ReconciliationStats → ReconciliationStats
  | _, [], stats => stats
  | seen, (fp, id) :: rest, stats =>
    if existing.contains fp then
      countUpserts existing seen rest { stats with updated := stats.updated + 1 }
    else if seen.contains fp then
      countUpserts existing seen rest { stats with updated := stats.updated + 1 }
    else
      countUpserts existing (fp :: seen) rest
        { stats with
          inserted := stats.inserted + 1
          insertedIds := stats.insertedIds ++ [id] }

def reconcileSource (s : Store) (sourceId : Text) (entries : List ProxyEntry)
    (geo : List (Option GeoStamp)) (now : ℤ) (keepAliveLinger : Bool) :
    Except Text (Store × ReconciliationStats) :=
  if entries.length < geo.length then
    .error "reconcile_source: geo stamp count does not match entry count"
  else
    let fingerprints := entries.map (fingerprint lib.sha256)
    let existing := (s.proxies.map (·.fingerprint)).filter fingerprints.contains
    let s₁ := upsertEntries lib now s entries geo
    match fingerprints.mapM (idOfFingerprint s₁) with
    | none => .error "reconcile_source: upsert returned no id for a bound fingerprint"
    | some proxyIds =>
      let stats := countUpserts existing [] (fingerprints.zip proxyIds) {}
      let s₂ := { s₁ with links := proxyIds.foldl (stampLink sourceId now) s₁.links }
      let orphan := fun r : ProxyRow =>
        r.status != .removed && losesLastLink s₂ sourceId now r.id
      let s₃ := if keepAliveLinger then s₂ else s₂.updateProxies orphan (retire now)
      let removed := if keepAliveLinger then 0 else (s₂.proxies.filter orphan).length
      let lingering := (s₃.proxies.filter lingers).map (·.id)
      let unlink := fun l : Link =>
        staleLink sourceId now l && !(keepAliveLinger && lingering.contains l.proxyId)
      .ok ({ s₃ with links := s₃.links.filter fun l => !unlink l },
        { stats with unlinked := (s₃.links.filter unlink).length, removed := removed })

end Reconcile

section Geo

def updateGeo (s : Store) (id : ℕ) (geo : GeoStamp) : Store :=
  s.updateProxies (fun r => r.id == id) fun r =>
    { r with
      geoCountry := geo.country <|> r.geoCountry
      geoCity := geo.city <|> r.geoCity
      geoAsn := geo.asn <|> r.geoAsn }

end Geo

section Lanes

def t1ExcludedSchemes : List Scheme := [.hysteria2, .tuic, .mieru]

def t2Schemes : List Scheme :=
  [.vless, .vmess, .trojan, .ss, .hysteria2, .socks5, .snell, .anyTls]

def t2RevivalSchemes : List Scheme := [.hysteria2]

def t1Lane (s : Store) (r : ProxyRow) : Bool :=
  (r.status == .unknown || r.status == .alive) && !t1ExcludedSchemes.contains r.scheme &&
    r.lastT2FailedAt.isNone && s.hasLink r.id

def queuedLane (s : Store) (r : ProxyRow) : Bool :=
  s.requests.any (fun q => q.proxyId == r.id) && r.status == .unknown &&
    !t1ExcludedSchemes.contains r.scheme && r.lastT2FailedAt.isNone && s.hasLink r.id

def t2Lane (s : Store) (r : ProxyRow) : Bool :=
  (r.status == .alive || r.status == .ready ||
      (r.status == .unknown && r.scheme == .hysteria2)) &&
    t2Schemes.contains r.scheme && s.hasLink r.id

/-- A ladder check that has come due; the quarantine lanes ask for no link. -/
def ladderDue (now : ℤ) (r : ProxyRow) : Bool :=
  r.status == .quarantine && r.ladderAt.any (fun t => decide (t ≤ now))

def dueQuarantineLane (now : ℤ) (r : ProxyRow) : Bool :=
  ladderDue now r && !t2RevivalSchemes.contains r.scheme

def dueQuarantineT2Lane (now : ℤ) (r : ProxyRow) : Bool :=
  ladderDue now r && t2RevivalSchemes.contains r.scheme

end Lanes

section Verdicts

inductive Transition where
  | unchanged | quarantined | revived | removed
  deriving DecidableEq, Repr

def regularState (r : ProxyRow) : Bool :=
  r.status == .unknown || r.status == .alive || r.status == .ready

def demote (status : ProxyStatus) : ProxyStatus :=
  if status = .ready then .alive else status

def succeededSet (now : ℤ) (latencyMs : Option ℤ) (resetFailCount : Bool)
    (statusTo : ProxyStatus) (r : ProxyRow) : ProxyRow :=
  { r with
    status := if statusTo = .ready then .ready
      else if r.status = .ready then .ready else .alive
    failCount := if resetFailCount then 0 else r.failCount
    lastCheckedAt := some now
    lastAliveAt := some now
    latencyMs := latencyMs <|> r.latencyMs
    quarantinedAt := none
    ladderAt := none
    ladderStep := 0
    lastT2FailedAt := if statusTo = .ready then none else r.lastT2FailedAt
    updatedAt := now }

def checkSucceeded (s : Store) (id : ℕ) (now : ℤ) (latencyMs : Option ℤ) (resetFailCount : Bool)
    (statusTo : ProxyStatus) : Store × Transition :=
  let guard := fun r : ProxyRow => r.id == id && r.status != .removed
  (s.updateProxies guard (succeededSet now latencyMs resetFailCount statusTo),
    if s.proxies.any guard then .revived else .unchanged)

def quarantineSet (now : ℤ) (newCount secondChanceAt : ℤ) (markT2Failed : Bool)
    (r : ProxyRow) : ProxyRow :=
  { r with
    status := .quarantine
    failCount := newCount
    lastCheckedAt := some now
    quarantinedAt := some now
    ladderAt := some secondChanceAt
    ladderStep := 0
    lastT2FailedAt := if markT2Failed then some now else r.lastT2FailedAt
    updatedAt := now }

def failedSet (now : ℤ) (newCount : ℤ) (markT2Failed : Bool) (r : ProxyRow) : ProxyRow :=
  { r with
    status := demote r.status
    failCount := newCount
    lastCheckedAt := some now
    lastT2FailedAt := if markT2Failed then some now else r.lastT2FailedAt
    updatedAt := now }

/-- A failed regular check.  `jitter` is the drawn part of the second-chance window. -/
def checkFailed (s : Store) (id : ℕ) (now : ℤ) (failLimit : ℕ) (secondChanceMinSecs jitter : ℤ)
    (markT2Failed : Bool) : Store × Transition :=
  let guard := fun r : ProxyRow => r.id == id && regularState r
  match s.proxies.find? guard with
  | none => (s, .unchanged)
  | some row =>
    let newCount := row.failCount + 1
    if (failLimit : ℤ) ≤ newCount then
      (s.updateProxies guard
        (quarantineSet now newCount (now + secondChanceMinSecs + jitter) markT2Failed),
        .quarantined)
    else
      (s.updateProxies guard (failedSet now newCount markT2Failed), .unchanged)

def engineUnavailableSet (now : ℤ) (r : ProxyRow) : ProxyRow :=
  { r with
    status := demote r.status
    lastCheckedAt := some now
    lastT2FailedAt := some now
    updatedAt := now }

def checkEngineUnavailable (s : Store) (id : ℕ) (now : ℤ) : Store × Bool :=
  let guard := fun r : ProxyRow => r.id == id && regularState r
  (s.updateProxies guard (engineUnavailableSet now), s.proxies.any guard)

def ladderRemovedSet (now : ℤ) (r : ProxyRow) : ProxyRow :=
  { r with
    status := .removed
    lastCheckedAt := some now
    removedAt := some now
    ladderAt := none
    ladderStep := 0
    updatedAt := now }

def ladderAdvancedSet (now nextAt step : ℤ) (r : ProxyRow) : ProxyRow :=
  { r with
    lastCheckedAt := some now
    ladderAt := some nextAt
    ladderStep := step
    updatedAt := now }

/-- A failed ladder check: the next delay, or removal past the last one. -/
def quarantineCheckFailed (s : Store) (id : ℕ) (now : ℤ) (step : ℤ) (delays : List ℤ) :
    Store × Transition :=
  let guard := fun r : ProxyRow => r.id == id && r.status == .quarantine
  match delays[(max step 0).toNat]? with
  | none => (s.updateProxies guard (ladderRemovedSet now), .removed)
  | some delay =>
    (s.updateProxies guard (ladderAdvancedSet now (now + max delay 0) (step + 1)), .unchanged)

end Verdicts

section Queue

/-- The rows that `enqueue_checks` accepts. -/
def queueable (s : Store) (r : ProxyRow) : Bool :=
  r.status == .unknown && !t1ExcludedSchemes.contains r.scheme && s.hasLink r.id

/-- One chunk of the queue insert: at most `remaining` rows, newest first, queued ones ignored. -/
def enqueueChunk (s : Store) (chunk : List ℕ) (remaining : ℕ) (now : ℤ) : Store × ℕ :=
  let eligible := (s.proxies.filter fun r => chunk.contains r.id && queueable s r).map (·.id)
  let selected := (eligible.insertionSort (· ≥ ·)).take remaining
  let fresh := selected.filter fun id => !s.requests.any fun q => q.proxyId == id
  ({ s with requests := s.requests ++ fresh.map fun id => ⟨id, now⟩ }, fresh.length)

def enqueueChunks (now : ℤ) : Store → List (List ℕ) → ℕ → Store × ℕ
  | s, [], _ => (s, 0)
  | s, chunk :: chunks, remaining =>
    if remaining = 0 then (s, 0)
    else
      let (s', inserted) := enqueueChunk s chunk remaining now
      let (s'', queued) := enqueueChunks now s' chunks (remaining - inserted)
      (s'', inserted + queued)

def enqueueChecks (s : Store) (candidateIds : List ℕ) (limit : ℕ) (now : ℤ) : Store × ℕ :=
  let newestFirst := (candidateIds.insertionSort (· ≥ ·)).dedup
  enqueueChunks now s (newestFirst.toChunks 500) limit

def claimChecks (s : Store) (ids : List ℕ) : Store :=
  { s with requests := s.requests.filter fun q => !ids.contains q.proxyId }

/-- Requests of rows that already left `unknown`. -/
def purgeSettledChecks (s : Store) : Store :=
  { s with
    requests := s.requests.filter fun q =>
      !s.proxies.any fun r => r.id == q.proxyId && r.status != .unknown }

def purgeRequestsBefore (s : Store) (cutoff : ℤ) : Store :=
  { s with requests := s.requests.filter fun q => !decide (q.requestedAt < cutoff) }

end Queue

section Journal

def insertResult (s : Store) (result : ProbeResult) : Store :=
  if s.proxies.any fun r => r.id == result.proxyId then
    { s with results := s.results ++ [result] }
  else s

def purgeResultsBefore (s : Store) (cutoff : ℤ) : Store :=
  { s with results := s.results.filter fun r => !decide (r.checkedAt < cutoff) }

end Journal

section Revival

def resetSet (now : ℤ) (r : ProxyRow) : ProxyRow :=
  { r with
    failCount := 0
    quarantinedAt := none
    ladderAt := none
    ladderStep := 0
    lastT2FailedAt := none
    updatedAt := now }

def pristineSet (now : ℤ) (r : ProxyRow) : ProxyRow :=
  { resetSet now r with status := .unknown, removedAt := none }

def releaseSet (now : ℤ) (r : ProxyRow) : ProxyRow :=
  { resetSet now r with status := .unknown }

def resettable (s : Store) (id : ℕ) (r : ProxyRow) : Bool :=
  r.id == id && s.hasLink r.id &&
    (!t1ExcludedSchemes.contains r.scheme || r.scheme == .hysteria2)

def resetStatus (s : Store) (id : ℕ) (now : ℤ) : Store × Bool :=
  if s.proxies.any (resettable s id) then
    ((enqueueChecks (s.updateProxies (resettable s id) (pristineSet now)) [id] 1 now).1, true)
  else (s, false)

def updateReturning (s : Store) (guard : ProxyRow → Bool) (set : ProxyRow → ProxyRow) :
    Store × List ℕ :=
  (s.updateProxies guard set, (s.proxies.filter guard).map (·.id))

def reviveRemoved (s : Store) (fingerprints : List Text) (now : ℤ) : Store × List ℕ :=
  updateReturning s
    (fun r => r.status == .removed && fingerprints.contains r.fingerprint && s.hasLink r.id)
    (pristineSet now)

def reviveRemovedByCountry (s : Store) (code : Text) (now : ℤ) : Store × List ℕ :=
  updateReturning s
    (fun r => r.status == .removed && r.geoCountry == some code && s.hasLink r.id)
    (pristineSet now)

def asnText (asn : Text) : Text :=
  ("AS" : Text) ++ asn

def reviveRemovedByAsn (s : Store) (asn : Text) (now : ℤ) : Store × List ℕ :=
  updateReturning s
    (fun r => r.status == .removed && r.geoAsn == some (asnText asn) && s.hasLink r.id)
    (pristineSet now)

def reviveRemovedWithoutProbeHistory (s : Store) (now : ℤ) : Store × List ℕ :=
  let (s₁, removedIds) := updateReturning s
    (fun r => r.status == .removed && !s.hasResult r.id && s.hasLink r.id) (pristineSet now)
  let (s₂, frozenIds) := updateReturning s₁
    (fun r => r.status == .unknown && r.lastT2FailedAt.isSome && !s₁.hasResult r.id &&
      s₁.hasLink r.id) (resetSet now)
  (s₂, removedIds ++ frozenIds)

def reviveQuarantine (s : Store) (now : ℤ) : Store × List ℕ :=
  updateReturning s (fun r => r.status == .quarantine && s.hasLink r.id) (releaseSet now)

end Revival

section Cleanup

def markOrphansRemoved (s : Store) (protectedStatuses : List ProxyStatus) (now : ℤ) : Store :=
  s.updateProxies
    (fun r => r.status != .removed && !s.hasLink r.id && !protectedStatuses.contains r.status)
    (retire now)

/-- `DELETE FROM proxies WHERE status = 'removed'` with its cascades. -/
def purgeRemoved (s : Store) : Store :=
  let kept := s.proxies.filter fun r => r.status != .removed
  let gone := fun id : ℕ => s.proxies.any fun r => r.id == id && r.status == .removed
  { s with
    proxies := kept
    links := s.links.filter fun l => !gone l.proxyId
    results := s.results.filter fun r => !gone r.proxyId
    requests := s.requests.filter fun q => !gone q.proxyId }

/-- `SET status = 'removed'` with the ladder cleared, shared by the cleanup actions. -/
def cleanupSet (now : ℤ) (r : ProxyRow) : ProxyRow :=
  { r with
    status := .removed
    quarantinedAt := none
    ladderAt := none
    ladderStep := 0
    removedAt := some now
    updatedAt := now }

def quarantineToRemoved (s : Store) (now : ℤ) : Store :=
  s.updateProxies (fun r => r.status == .quarantine) (cleanupSet now)

def liveTier (r : ProxyRow) : Bool :=
  r.status == .alive || r.status == .ready

def removeAliveWithoutCountry (s : Store) (now : ℤ) : Store :=
  s.updateProxies (fun r => liveTier r && r.geoCountry.isNone) (cleanupSet now)

def removeAliveByAsn (s : Store) (asn : Text) (now : ℤ) : Store :=
  s.updateProxies (fun r => liveTier r && r.geoAsn == some (asnText asn)) (cleanupSet now)

def removeAliveByCountry (s : Store) (code : Text) (now : ℤ) : Store :=
  s.updateProxies (fun r => liveTier r && r.geoCountry == some code) (cleanupSet now)

def removeUnprobeableUnknown (s : Store) (now : ℤ) : Store :=
  s.updateProxies
    (fun r => r.status == .unknown && (r.scheme == .tuic || r.scheme == .mieru)) (cleanupSet now)

def deleteSource (s : Store) (sourceId : Text) : Store :=
  { s with links := s.links.filter fun l => l.sourceId != sourceId }

end Cleanup

end ProxyStore
