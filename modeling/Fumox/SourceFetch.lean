import Fumox.AddressPolicy
import Fumox.PinnedConfig
import Fumox.UrlRedaction

/-!
The download of a source.  Every hop of a redirect chain is parsed, resolved, vetted and pinned
anew, source headers stay with the configured origin, and recoverable failures start the chain
again.  The network answers one hop after another, in any way it likes.
-/

namespace SourceFetch

open RustText AddressText SocketText ConfigModels VettedAddresses AddressPolicy PinnedConfig
  UrlRecord UrlRedaction

inductive FetchFailure where
  | network (message : Text) (permanent : Bool)
  | httpServer (status : ℕ)
  | httpClient (status : ℕ)
  | responseTooLarge (limit : ℕ)
  deriving DecidableEq, Repr

def FetchFailure.errorClass : FetchFailure → ErrorClass
  | .network _ _ => .network
  | .httpServer _ => .httpServer
  | .httpClient _ => .httpClient
  | .responseTooLarge _ => .httpServer

def FetchFailure.isRecoverable : FetchFailure → Bool
  | .network _ permanent => !permanent
  | .httpServer _ => true
  | .httpClient _ => false
  | .responseTooLarge _ => false

inductive Answer where
  | addresses (ips : List IpAddr)
  | failed (error : Text)
  | timedOut

structure Response where
  status : ℕ
  location : Option Text := none
  /-- The body as it arrives, until an error ends it. -/
  chunks : List (Except RequestError (List UInt8)) := []

structure Hop where
  answer : Answer
  /-- The error of the client's builder. -/
  client : Option RequestError := none
  response : Except RequestError Response

structure UrlParser where
  parse : Text → Option Url
  parseError : Text → Text
  join : Url → Text → Option Url

def familyMatches (ip : IpAddr) : IpFamily → Bool
  | .any => true
  | .ipv4 => isIpv4 ip
  | .ipv6 => isIpv6 ip

def familyLabel : IpFamily → Text
  | .any => "IPv4/IPv6"
  | .ipv4 => "IPv4"
  | .ipv6 => "IPv6"

def lookupWithTimeout (host : Text) (dnsTimeoutSecs : ℕ) : Answer → Except Text (List IpAddr)
  | .addresses ips => .ok ips
  | .failed error => .error ("DNS resolution failed for " ++ host ++ ": " ++ error)
  | .timedOut => .error ("DNS resolution timed out after " ++ decimal dnsTimeoutSecs ++ "s for " ++
      host)

/-- The first address against which the policy has a reason. -/
def checkAll (allowPrivateUrls : Bool) (host : Text) : List IpAddr → Except Text Unit
  | [] => .ok ()
  | ip :: ips =>
    match checkIp allowPrivateUrls ip with
    | some reason => .error (host ++ " -> " ++ printIp ip ++ ": " ++ reason)
    | none => checkAll allowPrivateUrls host ips

/-- The addresses of a host in the family; a literal fixes its family and skips the resolver. -/
def candidates (host : Text) (family : IpFamily) (dnsTimeoutSecs : ℕ) (answer : Answer) :
    Except Text (List IpAddr) :=
  match parseIp host with
  | some ip =>
    if familyMatches ip family then .ok [ip]
    else .error (host ++ " is a " ++ (if isIpv4 ip then "IPv4" else "IPv6") ++
      " address but the source requires " ++ familyLabel family)
  | none => do
    let lookup ← lookupWithTimeout host dnsTimeoutSecs answer
    if lookup.filter (familyMatches · family) = [] then
      .error ("no " ++ familyLabel family ++ " addresses for " ++ host)
    else .ok (lookup.filter (familyMatches · family))

def vetHost (host : Text) (allowPrivateUrls : Bool) (family : IpFamily) (dnsTimeoutSecs : ℕ)
    (answer : Answer) : Except Text IpAddr := do
  let addrs ← candidates host family dnsTimeoutSecs answer
  checkAll allowPrivateUrls host addrs
  (pickVetted addrs family).elim
    (.error ("no " ++ familyLabel family ++ " addresses for " ++ host)) .ok

structure FetchConfig where
  ipFamily : IpFamily := .any
  maxRetries : ℕ := 3
  maxResponseBytes : ℕ

structure Fetcher where
  config : FetchConfig
  allowPrivateUrls : Bool
  dnsTimeoutSecs : ℕ

structure FetchedPayload where
  httpStatus : ℕ
  bytes : ℕ
  body : List UInt8
  deriving DecidableEq

def maxUrlLen : ℕ := 2048

def maxRedirects : ℕ := 5

def maxRetriesCeiling : ℕ := 16

def effectivePort (u : Url) : ℕ :=
  u.portOrKnownDefault.getD (if u.scheme = "https" then 443 else 80)

def originOf (u : Url) : Text × Text × ℕ :=
  (toAsciiLowercase u.scheme, toAsciiLowercase (u.hostStr.getD []), effectivePort u)

/-- A request as it is handed to the client: the pinned address, and the source headers. -/
structure Request where
  url : Url
  pinned : IpAddr
  port : ℕ
  headers : List (Text × Text)

/-- The client dials the address of a literal, and the pinned address for a name. -/
def Request.dialled (request : Request) : IpAddr :=
  match request.url.host with
  | some (.ipv4 a b c d) => .v4 a b c d
  | some (.ipv6 segments) => .v6 segments
  | _ => request.pinned

inductive Next where
  | payload (p : FetchedPayload)
  | follow (url : Text)

/-- What a hop did. -/
structure Visit where
  hop : Hop
  target : Option Url := none
  vetted : Option (Except Text IpAddr) := none
  warnings : List Warning := []
  request : Option Request := none

section Hops

variable (fetcher : Fetcher) (parser : UrlParser) (headers : List (Text × Text))
  (family : IpFamily)

def targetOf (current : Text) : Except FetchFailure (Url × Text) :=
  if maxUrlLen < (bytes current).length then .error (.httpClient 414)
  else
    match parser.parse current with
    | none => .error (.network ("invalid URL: " ++ parser.parseError current) true)
    | some parsed =>
      if parsed.scheme = "http" ∨ parsed.scheme = "https" then
        match parsed.hostStr with
        | some host => .ok (parsed, host)
        | none => .error (.network "URL has no host" true)
      else .error (.network ("unsupported scheme: " ++ parsed.scheme) true)

def readBody (limit : ℕ) : List UInt8 → List (Except RequestError (List UInt8)) →
    Except FetchFailure (List UInt8)
  | body, [] => .ok body
  | _, .error e :: _ => .error (.network (redactedRequestError parser.parse e) false)
  | body, .ok chunk :: chunks =>
    if limit < body.length + chunk.length then .error (.responseTooLarge limit)
    else readBody limit (body ++ chunk) chunks

def settle (parsed : Url) (response : Response) : Except FetchFailure Next :=
  let status := response.status
  if 300 ≤ status ∧ status < 400 then
    match response.location with
    | none => .error (.httpClient status)
    | some location =>
      match parser.join parsed location with
      | none => .error (.httpClient status)
      | some joined => .ok (.follow joined.serialize)
  else if 500 ≤ status ∨ status = 408 ∨ status = 429 then .error (.httpServer status)
  else if ¬(200 ≤ status ∧ status < 300) then .error (.httpClient status)
  else
    match readBody parser fetcher.config.maxResponseBytes [] response.chunks with
    | .error failure => .error failure
    | .ok body => .ok (.payload ⟨status, body.length, body⟩)

def withheld (sameOrigin : Bool) (current : Text) : List Warning :=
  if sameOrigin = false ∧ headers ≠ [] then [withheldWarning parser.parse current] else []

/-- The request of a hop, which carries the source headers within the configured origin only. -/
def requestFor (configured : Option (Text × Text × ℕ)) (parsed : Url) (pinned : IpAddr) :
    Request :=
  ⟨parsed, pinned, effectivePort parsed, if configured = some (originOf parsed) then headers
    else []⟩

def visit (configured : Option (Text × Text × ℕ)) (current : Text) (hop : Hop) :
    Visit × Except FetchFailure Next :=
  match targetOf parser current with
  | .error failure => ({ hop }, .error failure)
  | .ok (parsed, host) =>
    let vetted := vetHost host fetcher.allowPrivateUrls family fetcher.dnsTimeoutSecs hop.answer
    match vetted with
    | .error reason =>
      ({ hop, target := some parsed, vetted := some vetted,
          warnings := [blockedWarning parser.parse current reason] }, .error (.httpClient 403))
    | .ok pinned =>
      match hop.client with
      | some e =>
        ({ hop, target := some parsed, vetted := some vetted },
          .error (.network (redactedRequestError parser.parse e) false))
      | none =>
        let sameOrigin := decide (configured = some (originOf parsed))
        ({ hop, target := some parsed, vetted := some vetted
           warnings := withheld parser headers sameOrigin current
           request := some (requestFor headers configured parsed pinned) },
          match hop.response with
          | .error e => .error (.network (redactedRequestError parser.parse e) false)
          | .ok response => settle fetcher parser parsed response)

structure Attempt where
  visits : List Visit
  outcome : Except FetchFailure FetchedPayload

/-- The hops that are left; the network goes on with its `n`-th hop. -/
def follow (configured : Option (Text × Text × ℕ)) (net : ℕ → Hop) : ℕ → ℕ → Text → Attempt
  | 0, _, _ => ⟨[], .error (.httpClient 508)⟩
  | hops + 1, n, current =>
    match visit fetcher parser headers family configured current (net n) with
    | (v, .error failure) => ⟨[v], .error failure⟩
    | (v, .ok (.payload p)) => ⟨[v], .ok p⟩
    | (v, .ok (.follow url)) =>
      let rest := follow configured net hops (n + 1) url
      ⟨v :: rest.visits, rest.outcome⟩

def fetchOnce (net : ℕ → Hop) (n : ℕ) (url : Text) : Attempt :=
  follow fetcher parser headers family ((parser.parse url).map originOf) net (maxRedirects + 1) n
    url

/-- The retries that are left after the attempt of a number. -/
def retry (net : ℕ → Hop) (url : Text) : ℕ → ℕ → List Attempt
  | 0, n => [fetchOnce fetcher parser headers family net n url]
  | left + 1, n =>
    let attempt := fetchOnce fetcher parser headers family net n url
    match attempt.outcome with
    | .ok _ => [attempt]
    | .error failure =>
      if failure.isRecoverable then attempt :: retry net url left (n + attempt.visits.length)
      else [attempt]

end Hops

/-- All attempts of a fetch, in order; the last one decides. -/
def fetch (fetcher : Fetcher) (parser : UrlParser) (net : ℕ → Hop) (url : Text)
    (headers : List (Text × Text)) (family : Option IpFamily) : List Attempt :=
  retry fetcher parser headers (family.getD fetcher.config.ipFamily) net url
    (min fetcher.config.maxRetries maxRetriesCeiling) 0

section Vetting

/-- The policy has nothing against the address, and it is of the family. -/
def Acceptable (allowPrivateUrls : Bool) (family : IpFamily) (ip : IpAddr) : Prop :=
  checkIp allowPrivateUrls ip = none ∧ familyMatches ip family = true

instance (allowPrivateUrls : Bool) (family : IpFamily) (ip : IpAddr) :
    Decidable (Acceptable allowPrivateUrls family ip) :=
  inferInstanceAs (Decidable (_ ∧ _))

variable {host : Text} {allowPrivateUrls : Bool} {family : IpFamily} {dnsTimeoutSecs : ℕ}
  {answer : Answer} {addrs : List IpAddr} {ip : IpAddr}

theorem checkAll_ok (h : checkAll allowPrivateUrls host addrs = .ok ()) :
    ∀ ip ∈ addrs, checkIp allowPrivateUrls ip = none := by
  induction addrs with
  | nil => exact fun ip hip => absurd hip List.not_mem_nil
  | cons first addrs ih =>
    unfold checkAll at h
    cases hcheck : checkIp allowPrivateUrls first with
    | some reason =>
      rw [hcheck] at h
      cases h
    | none =>
      rw [hcheck] at h
      intro ip hip
      rcases List.mem_cons.mp hip with rfl | hip
      · exact hcheck
      · exact ih h ip hip

theorem mem_of_pickVetted (h : pickVetted addrs family = some ip) : ip ∈ addrs := by
  cases family with
  | any =>
    rcases Option.or_eq_some_iff.mp h with hfound | ⟨-, hhead⟩
    · exact List.mem_of_find?_eq_some hfound
    · exact List.mem_of_head? hhead
  | ipv4 => exact List.mem_of_find?_eq_some h
  | ipv6 => exact List.mem_of_find?_eq_some h

theorem candidates_ok (h : candidates host family dnsTimeoutSecs answer = .ok addrs) :
    (∀ ip ∈ addrs, familyMatches ip family = true) ∧
      ∀ literal, parseIp host = some literal → addrs = [literal] := by
  unfold candidates at h
  cases hliteral : parseIp host with
  | some literal =>
    rw [hliteral] at h
    dsimp only at h
    split_ifs at h with hfamily
    have haddrs := Except.ok.inj h
    subst haddrs
    refine ⟨fun ip hip => ?_, fun other hother => ?_⟩
    · rwa [List.mem_singleton.mp hip]
    · rw [Option.some_inj.mp hother]
  | none =>
    rw [hliteral] at h
    obtain ⟨lookup, -, h⟩ := bind_eq_ok.mp h
    split_ifs at h
    have haddrs := Except.ok.inj h
    subst haddrs
    exact ⟨fun ip hip => (List.mem_filter.mp hip).2, fun _ hother => by cases hother⟩

theorem vetHost_ok (h : vetHost host allowPrivateUrls family dnsTimeoutSecs answer = .ok ip) :
    Acceptable allowPrivateUrls family ip ∧ ∀ literal, parseIp host = some literal →
      ip = literal := by
  unfold vetHost at h
  obtain ⟨addrs, haddrs, h⟩ := bind_eq_ok.mp h
  obtain ⟨_, hcheck, h⟩ := bind_eq_ok.mp h
  obtain ⟨hfamily, hsame⟩ := candidates_ok haddrs
  have hpick : pickVetted addrs family = some ip := elim_eq_ok.mp h
  have hmem := mem_of_pickVetted hpick
  refine ⟨⟨checkAll_ok hcheck ip hmem, hfamily ip hmem⟩, fun literal hliteral => ?_⟩
  rw [hsame literal hliteral] at hmem
  exact List.mem_singleton.mp hmem

theorem pickVetted_single (h : familyMatches ip family = true) :
    pickVetted [ip] family = some ip := by
  cases family with
  | any => cases ip <;> rfl
  | ipv4 => exact List.find?_cons_of_pos h
  | ipv6 => exact List.find?_cons_of_pos h

theorem vetHost_literal (hliteral : parseIp host = some ip) (pinned : IpAddr) :
    vetHost host allowPrivateUrls family dnsTimeoutSecs answer = .ok pinned ↔
      pinned = ip ∧ Acceptable allowPrivateUrls family ip := by
  constructor
  · intro h
    obtain ⟨hacceptable, hsame⟩ := vetHost_ok h
    rw [← hsame ip hliteral]
    exact ⟨rfl, hacceptable⟩
  · rintro ⟨rfl, hcheck, hfamily⟩
    have hcandidates : candidates host family dnsTimeoutSecs answer = .ok [pinned] := by
      unfold candidates
      rw [hliteral]
      exact if_pos hfamily
    have hall : checkAll allowPrivateUrls host [pinned] = .ok () := by
      unfold checkAll
      rw [hcheck]
      rfl
    unfold vetHost
    refine bind_eq_ok.mpr ⟨[pinned], hcandidates, bind_eq_ok.mpr ⟨(), hall, ?_⟩⟩
    exact elim_eq_ok.mpr (pickVetted_single hfamily)

end Vetting

section Visits

variable {fetcher : Fetcher} {parser : UrlParser} {headers : List (Text × Text)}
  {family : IpFamily} {configured : Option (Text × Text × ℕ)} {current host : Text} {hop : Hop}
  {parsed : Url}

def verdict (fetcher : Fetcher) (family : IpFamily) (host : Text) (hop : Hop) :
    Except Text IpAddr :=
  vetHost host fetcher.allowPrivateUrls family fetcher.dnsTimeoutSecs hop.answer

theorem targetOf_ok (h : targetOf parser current = .ok (parsed, host)) :
    parser.parse current = some parsed ∧
      (parsed.scheme = ("http" : Text) ∨ parsed.scheme = ("https" : Text)) ∧
      parsed.hostStr = some host := by
  unfold targetOf at h
  split_ifs at h
  cases hparse : parser.parse current with
  | none =>
    rw [hparse] at h
    cases h
  | some other =>
    rw [hparse] at h
    dsimp only at h
    split_ifs at h with hscheme
    cases hhost : other.hostStr with
    | none =>
      rw [hhost] at h
      cases h
    | some text =>
      rw [hhost] at h
      obtain ⟨rfl, rfl⟩ := Prod.mk.inj (Except.ok.inj h)
      exact ⟨rfl, hscheme, hhost⟩

theorem visit_hop : (visit fetcher parser headers family configured current hop).1.hop = hop := by
  unfold visit
  cases targetOf parser current with
  | error failure => rfl
  | ok target =>
    obtain ⟨parsed, host⟩ := target
    dsimp only
    split
    next => rfl
    next => cases hop.client <;> rfl

/-- A hop with a target has vetted its host, and sends a request to the pinned address exactly when
the vetting succeeds and the client is built. -/
theorem visit_target {v : Visit}
    (hv : v = (visit fetcher parser headers family configured current hop).1)
    (h : v.target = some parsed) : ∃ host, targetOf parser current = .ok (parsed, host) ∧
      v.vetted = some (verdict fetcher family host hop) ∧
      ∀ request, v.request = some request ↔ hop.client = none ∧ ∃ pinned,
        verdict fetcher family host hop = .ok pinned ∧
          request = requestFor headers configured parsed pinned := by
  unfold visit at hv
  cases htarget : targetOf parser current with
  | error failure =>
    rw [htarget] at hv
    rw [hv] at h
    cases h
  | ok target =>
    obtain ⟨other, host⟩ := target
    rw [htarget] at hv
    dsimp only at hv
    have hverdict : verdict fetcher family host hop = vetHost host fetcher.allowPrivateUrls family
      fetcher.dnsTimeoutSecs hop.answer := rfl
    rw [← hverdict] at hv
    cases hvetted : verdict fetcher family host hop with
    | error reason =>
      rw [hvetted] at hv
      subst hv
      obtain rfl := Option.some_inj.mp h
      refine ⟨host, rfl, by rw [hvetted], fun request =>
        ⟨fun hrequest => (by cases hrequest), ?_⟩⟩
      rintro ⟨-, pinned, hpinned, -⟩
      rw [hvetted] at hpinned
      cases hpinned
    | ok pinned =>
      rw [hvetted] at hv
      cases hclient : hop.client with
      | some e =>
        rw [hclient] at hv
        subst hv
        obtain rfl := Option.some_inj.mp h
        refine ⟨host, rfl, by rw [hvetted], fun request =>
        ⟨fun hrequest => (by cases hrequest), ?_⟩⟩
        rintro ⟨hnone, -⟩
        cases hnone
      | none =>
        rw [hclient] at hv
        subst hv
        obtain rfl := Option.some_inj.mp h
        refine ⟨host, rfl, by rw [hvetted], fun request => ⟨fun hrequest => ?_, ?_⟩⟩
        · exact ⟨rfl, pinned, hvetted, (Option.some_inj.mp hrequest).symm⟩
        · rintro ⟨-, other', hother, rfl⟩
          rw [hvetted] at hother
          rw [Except.ok.inj hother]

theorem target_of_targetOf (h : targetOf parser current = .ok (parsed, host)) :
    (visit fetcher parser headers family configured current hop).1.target = some parsed := by
  unfold visit
  rw [h]
  dsimp only
  split
  next => rfl
  next => cases hop.client <;> rfl

theorem visit_request {v : Visit} {request : Request}
    (hv : v = (visit fetcher parser headers family configured current hop).1)
    (h : v.request = some request) : v.target = some request.url := by
  unfold visit at hv
  cases htarget : targetOf parser current with
  | error failure =>
    rw [htarget] at hv
    rw [hv] at h
    cases h
  | ok target =>
    obtain ⟨parsed, host⟩ := target
    rw [htarget] at hv
    dsimp only at hv
    split at hv
    next =>
      rw [hv] at h
      cases h
    next =>
      cases hclient : hop.client with
      | some e =>
        rw [hclient] at hv
        rw [hv] at h
        cases h
      | none =>
        rw [hclient] at hv
        rw [hv] at h ⊢
        rw [← Option.some_inj.mp h]
        rfl

theorem length_readBody {limit : ℕ} {body result : List UInt8}
    {chunks : List (Except RequestError (List UInt8))} (hbody : body.length ≤ limit)
    (h : readBody parser limit body chunks = .ok result) : result.length ≤ limit := by
  induction chunks generalizing body with
  | nil =>
    rw [← Except.ok.inj h]
    exact hbody
  | cons chunk chunks ih =>
    cases chunk with
    | error e => cases h
    | ok chunk =>
      unfold readBody at h
      split_ifs at h with hlarge
      refine ih ?_ h
      rw [List.length_append]
      omega

theorem settle_payload {response : Response} {p : FetchedPayload}
    (h : settle fetcher parser parsed response = .ok (.payload p)) :
    p.body.length ≤ fetcher.config.maxResponseBytes ∧ p.bytes = p.body.length := by
  unfold settle at h
  dsimp only at h
  split_ifs at h
  · cases hlocation : response.location with
    | none =>
      rw [hlocation] at h
      cases h
    | some location =>
      rw [hlocation] at h
      dsimp only at h
      cases hjoin : parser.join parsed location with
      | none =>
        rw [hjoin] at h
        cases h
      | some joined =>
        rw [hjoin] at h
        cases h
  · cases hread : readBody parser fetcher.config.maxResponseBytes [] response.chunks with
    | error failure =>
      rw [hread] at h
      cases h
    | ok body =>
      rw [hread] at h
      rw [← Next.payload.inj (Except.ok.inj h)]
      exact ⟨length_readBody (Nat.zero_le _) hread, rfl⟩

theorem visit_payload {p : FetchedPayload}
    (h : (visit fetcher parser headers family configured current hop).2 = .ok (.payload p)) :
    p.body.length ≤ fetcher.config.maxResponseBytes ∧ p.bytes = p.body.length := by
  unfold visit at h
  cases htarget : targetOf parser current with
  | error failure =>
    rw [htarget] at h
    cases h
  | ok target =>
    obtain ⟨parsed, host⟩ := target
    rw [htarget] at h
    dsimp only at h
    split at h
    next => cases h
    next =>
      cases hclient : hop.client with
      | some e =>
        rw [hclient] at h
        cases h
      | none =>
        rw [hclient] at h
        cases hresponse : hop.response with
        | error e =>
          rw [hresponse] at h
          cases h
        | ok response =>
          rw [hresponse] at h
          exact settle_payload h

end Visits

section Attempts

variable {fetcher : Fetcher} {parser : UrlParser} {headers : List (Text × Text)}
  {family : IpFamily} {configured : Option (Text × Text × ℕ)} {net : ℕ → Hop} {url : Text}

/-- Every visit of an attempt is a visit of some URL, and the payload comes from the last one. -/
theorem follow_spec (hops n : ℕ) (current : Text) :
    (∀ v ∈ (follow fetcher parser headers family configured net hops n current).visits,
      ∃ current hop, v = (visit fetcher parser headers family configured current hop).1) ∧
    (follow fetcher parser headers family configured net hops n current).visits.length ≤ hops ∧
    ∀ p, (follow fetcher parser headers family configured net hops n current).outcome = .ok p →
      p.body.length ≤ fetcher.config.maxResponseBytes ∧ p.bytes = p.body.length := by
  induction hops generalizing n current with
  | zero =>
    exact ⟨fun v hv => absurd hv List.not_mem_nil, le_refl _, fun p hp => by cases hp⟩
  | succ hops ih =>
    have hone : ∀ v ∈ [(visit fetcher parser headers family configured current (net n)).1],
        ∃ current hop, v = (visit fetcher parser headers family configured current hop).1 :=
      fun v hv => ⟨current, net n, List.mem_singleton.mp hv⟩
    unfold follow
    cases hvisit : visit fetcher parser headers family configured current (net n) with
    | mk v next =>
      rw [hvisit] at hone
      cases next with
      | error failure =>
        exact ⟨hone, Nat.succ_le_succ (Nat.zero_le _), fun p hp => by cases hp⟩
      | ok next =>
        cases next with
        | payload p =>
          refine ⟨hone, Nat.succ_le_succ (Nat.zero_le _), fun other hother => ?_⟩
          rw [← Except.ok.inj hother]
          exact visit_payload (congrArg Prod.snd hvisit)
        | follow location =>
          obtain ⟨hvisits, hlength, hpayload⟩ := ih (n + 1) location
          refine ⟨fun w hw => ?_, Nat.succ_le_succ hlength, hpayload⟩
          rcases List.mem_cons.mp hw with rfl | hw
          · exact hone w (List.mem_singleton.mpr rfl)
          · exact hvisits w hw

theorem mem_retry (left n : ℕ) :
    ∀ attempt ∈ retry fetcher parser headers family net url left n,
      ∃ n, attempt = fetchOnce fetcher parser headers family net n url := by
  induction left generalizing n with
  | zero => exact fun attempt hattempt => ⟨n, List.mem_singleton.mp hattempt⟩
  | succ left ih =>
    intro attempt hattempt
    unfold retry at hattempt
    dsimp only at hattempt
    cases houtcome : (fetchOnce fetcher parser headers family net n url).outcome with
    | ok p =>
      rw [houtcome] at hattempt
      exact ⟨n, List.mem_singleton.mp hattempt⟩
    | error failure =>
      rw [houtcome] at hattempt
      dsimp only at hattempt
      split_ifs at hattempt
      · rcases List.mem_cons.mp hattempt with rfl | hattempt
        · exact ⟨n, rfl⟩
        · exact ih _ attempt hattempt
      · exact ⟨n, List.mem_singleton.mp hattempt⟩

theorem visit_mem_follow (hops n : ℕ) (current : Text) :
    (visit fetcher parser headers family configured current (net n)).1 ∈
      (follow fetcher parser headers family configured net (hops + 1) n current).visits := by
  unfold follow
  cases visit fetcher parser headers family configured current (net n) with
  | mk v next =>
    cases next with
    | error failure => exact List.mem_cons_self
    | ok next => cases next <;> exact List.mem_cons_self

theorem fetchOnce_mem_retry (left n : ℕ) : fetchOnce fetcher parser headers family net n url ∈
    retry fetcher parser headers family net url left n := by
  cases left with
  | zero => exact List.mem_cons_self
  | succ left =>
    unfold retry
    dsimp only
    cases (fetchOnce fetcher parser headers family net n url).outcome with
    | ok p => exact List.mem_cons_self
    | error failure =>
      dsimp only
      split_ifs <;> exact List.mem_cons_self

end Attempts

def literalAddress (u : Url) : Option IpAddr :=
  match u.host with
  | some (.ipv4 a b c d) => some (.v4 a b c d)
  | some (.ipv6 segments) => some (.v6 segments)
  | _ => none

section Guarantees

variable (fetcher : Fetcher) (parser : UrlParser) (net : ℕ → Hop) (url : Text)
  (headers : List (Text × Text)) (family : Option IpFamily)

/-- The address is accepted by the policy of the fetcher, and is of the family of the source. -/
def Accepted (ip : IpAddr) : Prop :=
  Acceptable fetcher.allowPrivateUrls (family.getD fetcher.config.ipFamily) ip

structure StaysVetted : Prop where
  address : ∀ attempt ∈ fetch fetcher parser net url headers family, ∀ v ∈ attempt.visits,
    ∀ request, v.request = some request → Accepted fetcher family request.dialled
  bounded : ∀ attempt ∈ fetch fetcher parser net url headers family,
    (attempt.visits.filterMap Visit.request).length ≤ maxRedirects + 1
  home : ∀ attempt ∈ fetch fetcher parser net url headers family, ∀ v ∈ attempt.visits,
    ∀ request, v.request = some request → request.headers ≠ [] →
      request.headers = headers ∧ ∃ configured, parser.parse url = some configured ∧
        request.url.scheme = configured.scheme ∧ request.url.hostStr = configured.hostStr ∧
        effectivePort request.url = effectivePort configured
  capped : ∀ attempt ∈ fetch fetcher parser net url headers family, ∀ p,
    attempt.outcome = .ok p →
      p.body.length ≤ fetcher.config.maxResponseBytes ∧ p.bytes = p.body.length
  literal : ∀ attempt ∈ fetch fetcher parser net url headers family, ∀ v ∈ attempt.visits,
    ∀ parsed ip, v.target = some parsed → literalAddress parsed = some ip →
      (∀ pinned, v.vetted = some (.ok pinned) ↔ pinned = ip ∧ Accepted fetcher family ip) ∧
      ((∃ request, v.request = some request ∧ request.dialled = ip) ↔
        v.hop.client = none ∧ Accepted fetcher family ip)

def NoBracketedHost : Prop :=
  ∀ attempt ∈ fetch fetcher parser net url headers family, ∀ v ∈ attempt.visits,
    ∀ parsed segments, v.target = some parsed → parsed.host ≠ some (.ipv6 segments)

variable {fetcher parser net url headers family}

theorem exists_visit {attempt : Attempt} {v : Visit}
    (hattempt : attempt ∈ fetch fetcher parser net url headers family) (hv : v ∈ attempt.visits) :
    ∃ current hop, v = (visit fetcher parser headers (family.getD fetcher.config.ipFamily)
      ((parser.parse url).map originOf) current hop).1 := by
  obtain ⟨n, rfl⟩ := mem_retry _ 0 attempt hattempt
  exact (follow_spec _ _ _).1 v hv

theorem parseIp_literal {parsed : Url} {host : Text} {ip : IpAddr} (hstandard : StandardHost parsed)
    (hhost : parsed.hostStr = some host) (hip : literalAddress parsed = some ip)
    (hno : ∀ segments, parsed.host ≠ some (.ipv6 segments)) : parseIp host = some ip := by
  unfold literalAddress at hip
  unfold Url.hostStr at hhost
  cases hcase : parsed.host with
  | none =>
    rw [hcase] at hip
    cases hip
  | some literal =>
    rw [hcase] at hip hhost
    cases literal with
    | domain name => cases hip
    | ipv4 a b c d =>
      obtain ⟨ha, hb, hc, hd⟩ := hstandard.ipv4 a b c d hcase
      rw [← Option.some_inj.mp hhost, ← hip]
      exact parseIp_printIpv4 ha hb hc hd
    | ipv6 segments => exact absurd hcase (hno segments)

theorem dialled_verdict {parsed : Url} {host : Text} {hop : Hop} {pinned : IpAddr}
    (hstandard : StandardHost parsed) (hhost : parsed.hostStr = some host)
    (hno : ∀ segments, parsed.host ≠ some (.ipv6 segments)) {familyOf : IpFamily}
    (hverdict : verdict fetcher familyOf host hop = .ok pinned) (port : ℕ)
    (sent : List (Text × Text)) : Request.dialled ⟨parsed, pinned, port, sent⟩ = pinned := by
  have hliteral := (vetHost_ok hverdict).2
  have hip := fun ip hip => @parseIp_literal parsed host ip hstandard hhost hip hno
  unfold literalAddress at hip
  unfold Request.dialled
  dsimp only
  cases hcase : parsed.host with
  | none => rfl
  | some literal =>
    rw [hcase] at hip
    cases literal with
    | domain name => rfl
    | ipv4 a b c d => exact (hliteral _ (hip _ rfl)).symm
    | ipv6 segments => exact absurd hcase (hno segments)

theorem special_of_web {scheme : Text} (h : scheme = ("http" : Text) ∨ scheme = ("https" : Text)) :
    isSpecial scheme = true ∧ scheme ≠ ("file" : Text) := by
  rcases h with rfl | rfl
  · exact ⟨by decide, by decide⟩
  · exact ⟨by decide, by decide⟩

theorem originOf_eq {u v : Url} (hu : StandardHost u) (hv : StandardHost v)
    (hweb : u.scheme = ("http" : Text) ∨ u.scheme = ("https" : Text))
    (h : originOf v = originOf u) :
    u.scheme = v.scheme ∧ u.hostStr = v.hostStr ∧ effectivePort u = effectivePort v := by
  unfold originOf at h
  obtain ⟨hscheme, hrest⟩ := Prod.mk.inj h
  obtain ⟨hhost, hport⟩ := Prod.mk.inj hrest
  rw [hu.scheme_lower, hv.scheme_lower] at hscheme
  obtain ⟨hspecial, hfile⟩ := special_of_web hweb
  have hspecial' : isSpecial v.scheme = true := by rwa [hscheme]
  rw [hu.hostStr_lower hspecial, hv.hostStr_lower hspecial'] at hhost
  refine ⟨hscheme.symm, ?_, hport.symm⟩
  have hsome := hu.host hspecial hfile
  have hsome' := hv.host hspecial' (by rwa [hscheme])
  unfold Url.hostStr at hhost ⊢
  cases hcase : u.host with
  | none => exact absurd hcase hsome
  | some host =>
    cases hcase' : v.host with
    | none => exact absurd hcase' hsome'
    | some host' =>
      rw [hcase, hcase'] at hhost
      exact congrArg some hhost.symm

/-- While no hop has a bracketed host, a fetch stays vetted and keeps its headers home. -/
theorem staysVetted_of_noBracketedHost (hreading : ReadsHosts parser.parse)
    (hno : NoBracketedHost fetcher parser net url headers family) :
    StaysVetted fetcher parser net url headers family where
  address := by
    intro attempt hattempt v hv request hrequest
    obtain ⟨current, hop, heq⟩ := exists_visit hattempt hv
    have htarget := visit_request heq hrequest
    obtain ⟨host, hok, -, hiff⟩ := visit_target heq htarget
    obtain ⟨-, pinned, hverdict, hsent⟩ := (hiff request).mp hrequest
    obtain ⟨hparse, -, hhost⟩ := targetOf_ok hok
    have hdialled : request.dialled = pinned := by
      rw [hsent]
      exact dialled_verdict (hreading _ _ hparse) hhost
        (hno attempt hattempt v hv _ · htarget) hverdict _ _
    rw [hdialled]
    exact (vetHost_ok hverdict).1
  bounded := by
    intro attempt hattempt
    obtain ⟨n, rfl⟩ := mem_retry _ 0 attempt hattempt
    exact (List.length_filterMap_le _ _).trans (follow_spec _ _ _).2.1
  home := by
    intro attempt hattempt v hv request hrequest hheaders
    obtain ⟨current, hop, heq⟩ := exists_visit hattempt hv
    have htarget := visit_request heq hrequest
    obtain ⟨host, hok, -, hiff⟩ := visit_target heq htarget
    obtain ⟨-, pinned, hverdict, hsent⟩ := (hiff request).mp hrequest
    obtain ⟨hparse, hweb, hhost⟩ := targetOf_ok hok
    unfold requestFor at hsent
    rw [hsent] at hheaders ⊢
    dsimp only at hheaders ⊢
    split_ifs at hheaders ⊢ with horigin
    · obtain ⟨configured, hconfigured, hsame⟩ := Option.map_eq_some_iff.mp horigin
      exact ⟨rfl, configured, hconfigured, originOf_eq (hreading _ _ hparse)
        (hreading _ _ hconfigured) hweb hsame⟩
    · exact absurd rfl hheaders
  capped := by
    intro attempt hattempt p hp
    obtain ⟨n, rfl⟩ := mem_retry _ 0 attempt hattempt
    exact (follow_spec _ _ _).2.2 p hp
  literal := by
    intro attempt hattempt v hv parsed ip htarget hip
    obtain ⟨current, hop, heq⟩ := exists_visit hattempt hv
    obtain ⟨host, hok, hvetted, hiff⟩ := visit_target heq htarget
    obtain ⟨hparse, -, hhost⟩ := targetOf_ok hok
    have hstandard := hreading _ _ hparse
    have hbracket := fun segments => hno attempt hattempt v hv parsed segments htarget
    have hliteral := parseIp_literal hstandard hhost hip hbracket
    have hhop : v.hop = hop := by
      rw [heq]
      exact visit_hop
    refine ⟨fun pinned => ?_, ?_⟩
    · rw [hvetted, Option.some_inj]
      exact vetHost_literal hliteral pinned
    · rw [hhop]
      constructor
      · rintro ⟨request, hrequest, -⟩
        obtain ⟨hclient, pinned, hverdict, -⟩ := (hiff request).mp hrequest
        exact ⟨hclient, ((vetHost_literal hliteral pinned).mp hverdict).2⟩
      · rintro ⟨hclient, haccepted⟩
        have hverdict : verdict fetcher (family.getD fetcher.config.ipFamily) host hop = .ok ip :=
          (vetHost_literal hliteral ip).mpr ⟨rfl, haccepted⟩
        refine ⟨_, (hiff _).mpr ⟨hclient, ip, hverdict, rfl⟩, ?_⟩
        exact dialled_verdict hstandard hhost hbracket hverdict _ _

theorem noBracketedHost_of_parse (h : ∀ text u segments, parser.parse text = some u →
    u.host ≠ some (.ipv6 segments)) : NoBracketedHost fetcher parser net url headers family := by
  intro attempt hattempt v hv parsed segments htarget
  obtain ⟨current, hop, heq⟩ := exists_visit hattempt hv
  obtain ⟨host, hok, -, -⟩ := visit_target heq htarget
  exact h current parsed segments (targetOf_ok hok).1

/-- An accepted address in brackets is not dialled unless the resolver answers for its text. -/
theorem not_staysVetted_of_bracketed {parsed : Url} {host error : Text} {segments : List ℕ}
    (htarget : targetOf parser url = .ok (parsed, host))
    (hhost : parsed.host = some (.ipv6 segments)) (hanswer : (net 0).answer = .failed error)
    (hclient : (net 0).client = none) (haccepted : Accepted fetcher family (.v6 segments)) :
    ¬StaysVetted fetcher parser net url headers family := by
  intro h
  have hattempt : fetchOnce fetcher parser headers (family.getD fetcher.config.ipFamily) net 0 url ∈
      fetch fetcher parser net url headers family := fetchOnce_mem_retry _ 0
  have hvisit : (visit fetcher parser headers (family.getD fetcher.config.ipFamily)
      ((parser.parse url).map originOf) url (net 0)).1 ∈
      (fetchOnce fetcher parser headers (family.getD fetcher.config.ipFamily) net 0 url).visits :=
    visit_mem_follow maxRedirects 0 url
  have hip : literalAddress parsed = some (.v6 segments) := by
    unfold literalAddress
    rw [hhost]
  obtain ⟨-, hdialled⟩ := h.literal _ hattempt _ hvisit parsed _ (target_of_targetOf htarget) hip
  rw [visit_hop] at hdialled
  obtain ⟨request, hrequest, -⟩ := hdialled.mpr ⟨hclient, haccepted⟩
  obtain ⟨other, hok, -, hiff⟩ := visit_target rfl (target_of_targetOf htarget)
  obtain ⟨-, pinned, hverdict, -⟩ := (hiff request).mp hrequest
  have htext := (targetOf_ok hok).2.2
  unfold Url.hostStr at htext
  rw [hhost] at htext
  have hbracketed : parseIp other = none := by
    rw [← Option.some_inj.mp htext]
    exact parseIp_bracketed _
  unfold verdict vetHost candidates at hverdict
  rw [hbracketed, hanswer] at hverdict
  cases hverdict

end Guarantees

section Fetches

def sampleFetcher : Fetcher := ⟨⟨.any, 3, 1000⟩, false, 5⟩

def namesOnly : UrlParser := ⟨parseOnly [plainB], fun _ => [], fun _ _ => none⟩

def literalUrl : Url where
  scheme := "https"
  host := some (.ipv6 [0x2606, 0x4700, 0, 0, 0, 0, 0, 0x1111])
  path := "/sub"

def literalsOnly : UrlParser := ⟨parseOnly [literalUrl], fun _ => [], fun _ _ => none⟩

def publicAnswer : ℕ → Hop := fun _ =>
  ⟨.addresses [.v4 93 184 216 34], none, .ok ⟨200, none, [.ok [0x61]]⟩⟩

def noSuchName : ℕ → Hop := fun _ =>
  ⟨.failed "Name or service not known", none, .ok ⟨200, none, []⟩⟩

theorem readsHosts_parseOnly {urls : List Url} (h : ∀ u ∈ urls, StandardHost u) :
    ReadsHosts (parseOnly urls) :=
  fun _ u hu => h u (mem_of_parseOnly hu)

theorem readsHosts_names : ReadsHosts namesOnly.parse :=
  readsHosts_parseOnly fun u hu => by
    rw [List.mem_singleton.mp hu]
    exact {
      scheme_lower := by
        change toAsciiLowercase "https" = "https"
        decide
      ipv4 := by rintro a b c d ⟨⟩
      host := fun _ _ hnone => Option.some_ne_none _ hnone
      domain_lower := by
        rintro _ - ⟨⟩
        decide +kernel }

theorem readsHosts_literals : ReadsHosts literalsOnly.parse :=
  readsHosts_parseOnly fun u hu => by
    rw [List.mem_singleton.mp hu]
    exact {
      scheme_lower := by
        change toAsciiLowercase "https" = "https"
        decide
      ipv4 := by rintro a b c d ⟨⟩
      host := fun _ _ hnone => Option.some_ne_none _ hnone
      domain_lower := by rintro _ - ⟨⟩ }

theorem reading_literals : Reading literalsOnly.parse :=
  reading_parseOnly fun u hu => by
    rw [List.mem_singleton.mp hu]
    exact ⟨fun _ => ⟨rfl, rfl⟩, by rintro _ ⟨⟩⟩

theorem target_literalUrl : ∃ host,
    targetOf literalsOnly literalUrl.serialize = .ok (literalUrl, host) :=
  ⟨"[2606:4700::1111]", by decide +kernel⟩

end Fetches

theorem staysVetted_name : StaysVetted sampleFetcher namesOnly publicAnswer plainB.serialize
    [("X-Token", "secret")] none := by
  refine staysVetted_of_noBracketedHost readsHosts_names
    (noBracketedHost_of_parse fun text u segments hu hhost => ?_)
  have hmem : u ∈ [plainB] := mem_of_parseOnly hu
  rw [List.mem_singleton.mp hmem] at hhost
  cases hhost

/-- A public address in brackets goes to the resolver, which knows no such name, and is not
dialled. -/
theorem bracketed_literal_refused : ¬∀ (fetcher : Fetcher) (parser : UrlParser) (net : ℕ → Hop)
    (url : Text) (headers : List (Text × Text)) (family : Option IpFamily),
    Reading parser.parse → ReadsHosts parser.parse →
      StaysVetted fetcher parser net url headers family := by
  intro h
  obtain ⟨host, htarget⟩ := target_literalUrl
  refine not_staysVetted_of_bracketed htarget rfl rfl rfl ?_
    (h sampleFetcher literalsOnly noSuchName literalUrl.serialize [] none reading_literals
      readsHosts_literals)
  unfold Accepted Acceptable
  decide +kernel

end SourceFetch
