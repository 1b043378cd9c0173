import Fumox.ProbeLifecycle

/-!
One probe cycle: the quarantine lanes, the queue, the random sample and the tunnel batch run one
after the other, and each hands the rows it judged to a later one.  The random draws and the
findings of the checks, in the order in which the checks finish, are inputs of a cycle.
-/

namespace ProbeCycle

open RustText ProxyModels JsonValue ProxyStore ProbeLifecycle

structure CycleConfig extends ProbeConfig where
  sampleSize : ℕ

inductive CheckKind where
  | tcp | tls
  deriving DecidableEq, Repr

def CheckKind.asStr : CheckKind → Text
  | tcp => "tcp"
  | tls => "tls"

def t2Kind : Text := "t2"

/-- Trimmed textual form of a member, looked up in any letter case. -/
def paramText (json : SerdeJson) (params : List (Text × Json)) (key : Text) : Option Text :=
  ((params.find? fun f => eqIgnoreAsciiCase f.1 key).map fun f =>
    trim (match f.2 with
      | .str text => text
      | other => json.toStr other)).filter (· ≠ [])

def paramsEnableTls (json : SerdeJson) (params : Option Text) : Bool :=
  match params.bind json.fromStr with
  | some (.obj fields) =>
    (paramText json fields "security").any (fun v =>
        eqIgnoreAsciiCase v "tls" || eqIgnoreAsciiCase v "reality") ||
      (paramText json fields "tls").any fun v =>
        (["tls", "1", "true", "yes", "on"] : List Text).contains (toAsciiLowercase v)
  | _ => false

/-- The T1 flavour of a scheme and its recognized parameters. -/
def checkKind (json : SerdeJson) (row : ProxyRow) : CheckKind :=
  match row.scheme with
  | .trojan | .naive | .anyTls => .tls
  | .vless | .vmess => if paramsEnableTls json row.params then .tls else .tcp
  | .ss | .socks5 | .snell | .hysteria2 | .tuic | .mieru => .tcp

def sampleWindowFactor : ℕ := 4

def byId (rows : List ProxyRow) : List ProxyRow :=
  rows.insertionSort fun a b => a.id ≤ b.id

def maxId (s : Store) : ℕ :=
  (s.proxies.map (·.id)).foldr max 0

/-- The eligible rows from the anchor upward, and once below it when they fall short. -/
def windowRows (s : Store) (eligible : ProxyRow → Bool) (limit anchor : ℕ) : List ProxyRow :=
  let window := limit * sampleWindowFactor
  let pool := byId (s.proxies.filter eligible)
  let above := (pool.filter fun r => anchor ≤ r.id).take window
  if above.length < limit ∧ 0 < anchor then
    above ++ (pool.filter fun r => r.id < anchor).reverse.take window
  else above

structure Draw where
  anchor : ℕ
  shuffled : List ProxyRow
  deriving DecidableEq

/-- Any anchor up to the largest id, and any order of the window. -/
def Draw.From (s : Store) (eligible : ProxyRow → Bool) (limit : ℕ) (d : Draw) : Prop :=
  d.anchor ≤ maxId s ∧ d.shuffled.Perm (windowRows s eligible limit d.anchor)

instance (s : Store) (eligible : ProxyRow → Bool) (limit : ℕ) (d : Draw) :
    Decidable (d.From s eligible limit) :=
  inferInstanceAs (Decidable (_ ∧ _))

def Draw.rows (limit : ℕ) (d : Draw) : List ProxyRow :=
  d.shuffled.take limit

/-- `ORDER BY q.requested_at DESC, q.proxy_id DESC`. -/
def newerRequest (a b : ProbeRequest) : Bool :=
  b.requestedAt < a.requestedAt || (a.requestedAt == b.requestedAt && b.proxyId ≤ a.proxyId)

def selectQueuedChecks (s : Store) (limit : ℕ) : List ProxyRow :=
  ((s.requests.insertionSort (newerRequest · ·)).flatMap fun q =>
    s.proxies.filter fun r => r.id == q.proxyId && queuedLane s r).take limit

def lastTunnelCheck (s : Store) (id : ℕ) : Option ℤ :=
  ((s.results.filter fun x => x.proxyId == id && x.probeKind == t2Kind).map (·.checkedAt)).max?

/-- Rows without a tunnel check first, then the longest ago. -/
def checkedEarlier (s : Store) (a b : ProxyRow) : Bool :=
  match lastTunnelCheck s a.id, lastTunnelCheck s b.id with
  | none, some _ => true
  | some _, none => false
  | none, none => a.id ≤ b.id
  | some x, some y => x < y || (x == y && a.id ≤ b.id)

def selectT2Candidates (s : Store) (limit : ℕ) : List ProxyRow :=
  ((s.proxies.filter (t2Lane s)).insertionSort (checkedEarlier s · ·)).take limit

def lastFailedKind (s : Store) (id : ℕ) : Option Text :=
  ((s.results.filter fun x => x.proxyId == id && !x.ok).foldl
    (fun best x => if best.all (·.checkedAt ≤ x.checkedAt) then some x else best) none).map
      fun x : ProbeResult => x.probeKind

inductive Finding where
  | up (latencyMs : ℤ)
  | down (jitter : ℤ)
  | engineDown
  deriving DecidableEq, Repr

def Finding.isUp : Finding → Bool
  | up _ => true
  | _ => false

structure Judgement where
  check : Check
  kind : Text
  finding : Finding
  now : ℤ
  deriving DecidableEq

/-- A T1 success clears the fail counter unless the last failure was a tunnel failure. -/
def outcome (s : Store) (j : Judgement) : Outcome :=
  match j.finding with
  | .up latencyMs => .succeeded (some latencyMs) (lastFailedKind s j.check.id ≠ some t2Kind)
  | .down jitter => .failed jitter
  | .engineDown => .engineUnavailable

def judge (cfg : CycleConfig) (s : Store) (j : Judgement) : Store :=
  let journaled := insertResult s ⟨j.check.id, j.now, j.finding.isUp, j.kind⟩
  applyVerdict cfg.toProbeConfig journaled j.check (outcome journaled j) j.now

def Allowed (cfg : CycleConfig) (j : Judgement) : Prop :=
  match j.finding with
  | .up _ => True
  | .down jitter => OutcomeOf cfg.toProbeConfig j.check.lane (.failed jitter)
  | .engineDown => j.check.lane.Tunnel

instance (cfg : CycleConfig) (j : Judgement) : Decidable (Allowed cfg j) := by
  unfold Allowed
  split <;> infer_instance

/-- Every row of a lane is judged once, in any order. -/
def Judges (cfg : CycleConfig) (lane : Lane) (kind : ProxyRow → Text) (rows : List ProxyRow)
    (log : List Judgement) : Prop :=
  (log.map fun j => (j.check, j.kind)).Perm (rows.map fun r => (⟨r.id, lane, r.ladderStep⟩, kind r)) ∧
    ∀ j ∈ log, Allowed cfg j

instance (cfg : CycleConfig) (lane : Lane) (kind : ProxyRow → Text) (rows : List ProxyRow)
    (log : List Judgement) : Decidable (Judges cfg lane kind rows log) :=
  inferInstanceAs (Decidable (_ ∧ _))

structure Cycle where
  now : ℤ
  revivalDraw : Draw
  revivalBackoff : Bool
  revivals : List Judgement
  recheckDraw : Draw
  rechecks : List Judgement
  queued : List Judgement
  sampleDraw : Draw
  sampled : List Judgement
  tunnelBackoff : Bool
  tunnels : List Judgement

inductive CycleStep where
  | judge (j : Judgement)
  | claim (ids : List ℕ)

def applyStep (cfg : CycleConfig) (s : Store) : CycleStep → Store
  | .judge j => judge cfg s j
  | .claim ids => claimChecks s ids

def runSteps (cfg : CycleConfig) (s : Store) (steps : List CycleStep) : Store :=
  steps.foldl (applyStep cfg) s

def runLog (cfg : CycleConfig) (s : Store) (log : List Judgement) : Store :=
  runSteps cfg s (log.map .judge)

def dialable (r : ProxyRow) : Bool :=
  0 ≤ r.port && r.port < 65536

/-- What a lane leaves of its selection: the rows that no earlier lane covered. -/
def uncovered (covered : List ℕ) (rows : List ProxyRow) : List ProxyRow :=
  rows.filter fun r => !covered.contains r.id

namespace Cycle

variable (json : SerdeJson) (cfg : CycleConfig) (s : Store) (c : Cycle)

def afterRevivals : Store := runLog cfg s c.revivals

def afterRechecks : Store := runLog cfg (c.afterRevivals cfg s) c.rechecks

def queuedRows : List ProxyRow := selectQueuedChecks (c.afterRechecks cfg s) cfg.sampleSize

/-- Requests are claimed before their checks run, whether or not they yield a verdict. -/
def claimedIds : List ℕ := (c.queuedRows cfg s).map (·.id)

def afterClaim : Store := claimChecks (c.afterRechecks cfg s) (c.claimedIds cfg s)

def afterQueued : Store := runLog cfg (c.afterClaim cfg s) c.queued

def sampledRows : List ProxyRow :=
  (uncovered (c.claimedIds cfg s) (c.sampleDraw.rows cfg.sampleSize)).filter dialable

def afterSample : Store := runLog cfg (c.afterQueued cfg s) c.sampled

def tunnelSelection : List ProxyRow := selectT2Candidates (c.afterSample cfg s) cfg.sampleSize

def tunnelBatch : List ProxyRow :=
  (uncovered ((c.sampledRows cfg s).map (·.id)) (c.tunnelSelection cfg s)).filter
    fun r => t2Schemes.contains r.scheme

def afterTunnels : Store := runLog cfg (c.afterSample cfg s) c.tunnels

def steps : List CycleStep :=
  c.revivals.map .judge ++ (c.rechecks.map .judge ++ (.claim (c.claimedIds cfg s) ::
    (c.queued.map .judge ++ (c.sampled.map .judge ++ c.tunnels.map .judge))))

@[mk_iff]
structure Follows : Prop where
  revivalDraw : c.revivalDraw.From s (dueQuarantineT2Lane c.now) cfg.sampleSize
  revivals : Judges cfg .quarantineT2 (fun _ => t2Kind)
    (if c.revivalBackoff then [] else c.revivalDraw.rows cfg.sampleSize) c.revivals
  recheckDraw : c.recheckDraw.From (c.afterRevivals cfg s) (dueQuarantineLane c.now) cfg.sampleSize
  rechecks : Judges cfg .quarantine (fun r => (checkKind json r).asStr)
    ((c.recheckDraw.rows cfg.sampleSize).filter dialable) c.rechecks
  queued : Judges cfg .t1 (fun r => (checkKind json r).asStr)
    ((c.queuedRows cfg s).filter dialable) c.queued
  sampleDraw : c.sampleDraw.From (c.afterQueued cfg s) (t1Lane (c.afterQueued cfg s)) cfg.sampleSize
  sampled : Judges cfg .t1 (fun r => (checkKind json r).asStr) (c.sampledRows cfg s) c.sampled
  tunnels : Judges cfg .t2 (fun _ => t2Kind)
    (if c.tunnelBackoff then [] else c.tunnelBatch cfg s) c.tunnels

instance : Decidable (c.Follows json cfg s) :=
  decidable_of_iff' _ (follows_iff json cfg s c)

theorem runSteps_steps : runSteps cfg s (c.steps cfg s) = c.afterTunnels cfg s := by
  simp only [steps, runSteps, List.foldl_append, List.foldl_cons]
  rfl

end Cycle

end ProbeCycle
