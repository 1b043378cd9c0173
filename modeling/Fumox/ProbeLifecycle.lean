import Fumox.ProxyStore
import Fumox.TransitionRuns

/-!
The proxy lifecycle under any interleaving of ingest, admin actions and the probe daemon.  A
candidate selection starts checks; the verdict of a check is a separate, later step, so it may land
on a row that has moved since.
-/

namespace ProbeLifecycle

open RustText ProxyModels JsonValue RowTable ProxyStore TransitionRuns

inductive Lane where
  | t1 | t2 | quarantine | quarantineT2
  deriving DecidableEq, Repr

def Lane.Tunnel (l : Lane) : Prop :=
  l = .t2 ∨ l = .quarantineT2

/-- A running check: the row id, the lane and the ladder step read at selection. -/
structure Check where
  id : ℕ
  lane : Lane
  ladderStep : ℤ
  deriving DecidableEq, Repr

inductive Outcome where
  | succeeded (latencyMs : Option ℤ) (resetFailCount : Bool)
  | failed (jitter : ℤ)
  | engineUnavailable
  deriving DecidableEq, Repr

structure ProbeConfig where
  failLimit : ℕ
  secondChanceMinSecs : ℤ
  secondChanceSpreadSecs : ℤ
  recheckDelays : List ℤ

structure World where
  store : Store := {}
  inFlight : List Check := []
  deriving DecidableEq, Repr

inductive Event where
  | selectT1 (ids : List ℕ)
  | selectQueued (ids : List ℕ)
  | claimChecks (ids : List ℕ)
  | selectT2 (ids : List ℕ)
  | selectDueQuarantine (now : ℤ) (ids : List ℕ)
  | selectDueQuarantineT2 (now : ℤ) (ids : List ℕ)
  | journal (result : ProbeResult)
  | verdict (check : Check) (outcome : Outcome) (now : ℤ)
  | abandon (check : Check)
  | purgeResultsBefore (cutoff : ℤ)
  | purgeSettledChecks
  | purgeRequestsBefore (cutoff : ℤ)
  | reconcileSource (sourceId : Text) (entries : List ProxyEntry) (geo : List (Option GeoStamp))
      (now : ℤ) (keepAliveLinger : Bool)
  | updateGeo (id : ℕ) (geo : GeoStamp)
  | enqueueChecks (ids : List ℕ) (limit : ℕ) (now : ℤ)
  | resetStatus (id : ℕ) (now : ℤ)
  | reviveRemoved (fingerprints : List Text) (now : ℤ)
  | reviveRemovedByCountry (code : Text) (now : ℤ)
  | reviveRemovedByAsn (asn : Text) (now : ℤ)
  | reviveRemovedWithoutProbeHistory (now : ℤ)
  | reviveQuarantine (now : ℤ)
  | markOrphansRemoved (protectedStatuses : List ProxyStatus) (now : ℤ)
  | purgeRemoved
  | quarantineToRemoved (now : ℤ)
  | removeAliveWithoutCountry (now : ℤ)
  | removeAliveByAsn (asn : Text) (now : ℤ)
  | removeAliveByCountry (code : Text) (now : ℤ)
  | removeUnprobeableUnknown (now : ℤ)
  | deleteSource (sourceId : Text)
  deriving DecidableEq

/-- `reset_status` and the `revive_*` operations. -/
def Event.Revives : Event → Prop
  | .resetStatus .. | .reviveRemoved .. | .reviveRemovedByCountry .. | .reviveRemovedByAsn ..
  | .reviveRemovedWithoutProbeHistory .. | .reviveQuarantine .. => True
  | _ => False

variable (lib : Libraries) (cfg : ProbeConfig)

/-- The statement that a verdict runs.  The `reset` of a T1 success is the caller's earlier lookup
of the last failure kind, so it may be stale. -/
def applyVerdict (s : Store) (c : Check) (o : Outcome) (now : ℤ) : Store :=
  match c.lane, o with
  | .t1, .succeeded latencyMs reset => (checkSucceeded s c.id now latencyMs reset .alive).1
  | .t1, .failed jitter =>
    (checkFailed s c.id now cfg.failLimit cfg.secondChanceMinSecs jitter false).1
  | .t2, .succeeded latencyMs _ => (checkSucceeded s c.id now latencyMs true .ready).1
  | .t2, .failed jitter =>
    (checkFailed s c.id now cfg.failLimit cfg.secondChanceMinSecs jitter true).1
  | .quarantine, .succeeded latencyMs _ => (checkSucceeded s c.id now latencyMs true .alive).1
  | .quarantineT2, .succeeded latencyMs _ => (checkSucceeded s c.id now latencyMs true .ready).1
  | .quarantine, .failed _ | .quarantineT2, .failed _ =>
    (quarantineCheckFailed s c.id now c.ladderStep cfg.recheckDelays).1
  | .t2, .engineUnavailable | .quarantineT2, .engineUnavailable =>
    (checkEngineUnavailable s c.id now).1
  | .t1, .engineUnavailable | .quarantine, .engineUnavailable => s

def OutcomeOf (l : Lane) : Outcome → Prop
  | .succeeded .. => True
  | .failed jitter =>
    0 ≤ jitter ∧ (jitter < cfg.secondChanceSpreadSecs ∨
      (cfg.secondChanceSpreadSecs ≤ 0 ∧ jitter = 0))
  | .engineUnavailable => l.Tunnel

instance (l : Lane) : Decidable l.Tunnel :=
  inferInstanceAs (Decidable (_ ∨ _))

instance (l : Lane) : (o : Outcome) → Decidable (OutcomeOf cfg l o)
  | .succeeded .. => inferInstanceAs (Decidable True)
  | .failed _ => inferInstanceAs (Decidable (_ ∧ _))
  | .engineUnavailable => inferInstanceAs (Decidable l.Tunnel)

def start (w : World) (lane : Lane) (offered : ProxyRow → Bool) (ids : List ℕ) : World :=
  { w with
    inFlight := w.inFlight ++
      (w.store.proxies.filter fun r => offered r && ids.contains r.id).map
        fun r => ⟨r.id, lane, r.ladderStep⟩ }

def nextStore (s : Store) : Event → Store
  | .selectT1 _ | .selectQueued _ | .selectT2 _ | .selectDueQuarantine _ _
  | .selectDueQuarantineT2 _ _ | .abandon _ => s
  | .claimChecks ids => claimChecks s ids
  | .journal result => insertResult s result
  | .verdict c o now => applyVerdict cfg s c o now
  | .purgeResultsBefore cutoff => purgeResultsBefore s cutoff
  | .purgeSettledChecks => purgeSettledChecks s
  | .purgeRequestsBefore cutoff => purgeRequestsBefore s cutoff
  | .reconcileSource sourceId entries geo now linger =>
    match reconcileSource lib s sourceId entries geo now linger with
    | .ok (s', _) => s'
    | .error _ => s
  | .updateGeo id geo => updateGeo s id geo
  | .enqueueChecks ids limit now => (enqueueChecks s ids limit now).1
  | .resetStatus id now => (resetStatus s id now).1
  | .reviveRemoved fps now => (reviveRemoved s fps now).1
  | .reviveRemovedByCountry code now => (reviveRemovedByCountry s code now).1
  | .reviveRemovedByAsn asn now => (reviveRemovedByAsn s asn now).1
  | .reviveRemovedWithoutProbeHistory now => (reviveRemovedWithoutProbeHistory s now).1
  | .reviveQuarantine now => (reviveQuarantine s now).1
  | .markOrphansRemoved statuses now => markOrphansRemoved s statuses now
  | .purgeRemoved => purgeRemoved s
  | .quarantineToRemoved now => quarantineToRemoved s now
  | .removeAliveWithoutCountry now => removeAliveWithoutCountry s now
  | .removeAliveByAsn asn now => removeAliveByAsn s asn now
  | .removeAliveByCountry code now => removeAliveByCountry s code now
  | .removeUnprobeableUnknown now => removeUnprobeableUnknown s now
  | .deleteSource sourceId => deleteSource s sourceId

def nextInFlight (w : World) : Event → List Check
  | .selectT1 ids => (start w .t1 (t1Lane w.store) ids).inFlight
  | .selectQueued ids => (start w .t1 (queuedLane w.store) ids).inFlight
  | .selectT2 ids => (start w .t2 (t2Lane w.store) ids).inFlight
  | .selectDueQuarantine now ids => (start w .quarantine (dueQuarantineLane now) ids).inFlight
  | .selectDueQuarantineT2 now ids =>
    (start w .quarantineT2 (dueQuarantineT2Lane now) ids).inFlight
  | .verdict c _ _ | .abandon c => w.inFlight.erase c
  | _ => w.inFlight

/-- A verdict or a journal entry needs a running check; everything else may happen at any time. -/
def Enabled (w : World) : Event → Prop
  | .verdict c o _ => c ∈ w.inFlight ∧ OutcomeOf cfg c.lane o
  | .journal result => ∃ c ∈ w.inFlight, c.id = result.proxyId
  | .abandon c => c ∈ w.inFlight
  | _ => True

instance (w : World) (e : Event) : Decidable (Enabled cfg w e) := by
  unfold Enabled
  split <;> infer_instance

def lifecycle : System World Event where
  Initial := fun w => w = {}
  Enabled := Enabled cfg
  next := fun w e => ⟨nextStore lib cfg w.store e, nextInFlight w e⟩

instance (w : World) (e : Event) : Decidable ((lifecycle lib cfg).Enabled w e) :=
  inferInstanceAs (Decidable (Enabled cfg w e))

instance (w : World) (e : Event) : Decidable (Any w e) :=
  inferInstanceAs (Decidable True)

end ProbeLifecycle
