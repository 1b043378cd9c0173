import Fumox.AddressPolicy
import Fumox.ClashReading
import Fumox.ProxyStore
import Fumox.SocketText

/-!
The engine configuration of a tunnel batch.  A row whose host is pinned dials the vetted address
and keeps its name for the TLS handshake.
-/

namespace PinnedConfig

open RustText PercentText ProxyModels FormatParams JsonValue YamlValue AddressText SocketText
  VettedAddresses AddressPolicy ProxyStore ClashWriter

def isSupported : Scheme → Bool
  | .vless | .vmess | .trojan | .ss | .hysteria2 | .socks5 | .snell | .anyTls => true
  | .naive | .tuic | .mieru => false

def proxyName (proxyId : ℕ) : Text := ("fumox-" : Text) ++ decimal proxyId

def printIp : IpAddr → Text
  | .v4 a b c d => printIpv4 a b c d
  | .v6 segments => printIpv6 segments

abbrev Pins := Text → Option IpAddr

/-- The destination key of the server name and the keys to consult for it, in order. -/
def serverNameSources : Scheme → Option (Text × List Text)
  | .vless | .vmess => some ("servername", ["servername", "sni"])
  | .trojan | .hysteria2 | .anyTls => some ("sni", ["sni", "servername"])
  | .ss | .socks5 | .naive | .tuic | .mieru | .snell => none

def isServerNameKey (key : Text) : Bool :=
  eqIgnoreAsciiCase key "sni" || eqIgnoreAsciiCase key "servername"

/-- The first source that is not blank, or the host. -/
def carriedName (entry : ProxyEntry) (sources : List Text) (prePinHost : Text) : Text :=
  (((sources.filterMap entry.paramIgnoreCase).map trim).find? (· ≠ [])).getD prePinHost

/-- The entry keeps one server-name parameter, under the key that the mapping renders. -/
def carryServerName (entry : ProxyEntry) (prePinHost : Text) : ProxyEntry :=
  match serverNameSources entry.scheme with
  | none => entry
  | some (key, sources) =>
    if (parseIp prePinHost).isSome then entry
    else { entry with
      params := entry.params.filter (fun p => !isServerNameKey p.key) ++
        [⟨key, carriedName entry sources prePinHost, true⟩] }

/-- One row as a proxy definition, dialled at the pinned address when its host has one. -/
def proxyToValue (yaml : SerdeNorway) (json : SerdeJson) (row : ProxyRow) (pins : Pins) :
    Option Yaml := do
  let entry ← (toEntry json row).toOption
  if isSupported entry.scheme then
    let entry := (pins row.host).elim entry fun ip =>
      { carryServerName entry row.host with host := printIp ip }
    entryToClashNamed yaml entry (proxyName row.id)
  else none

/-- The document of a batch and the ids of the rows in it. -/
def generate (yaml : SerdeNorway) (json : SerdeJson) (rows : List ProxyRow) (pins : Pins)
    (ipv6 : Bool) : Yaml × List ℕ :=
  (mapping [("port", num 0), ("socks-port", num 0), ("allow-lan", .bool false),
      ("mode", .str "rule"), ("log-level", .str "silent"), ("ipv6", .bool ipv6),
      ("proxies", .seq (rows.filterMap fun row => proxyToValue yaml json row pins))],
    (rows.filter fun row => (proxyToValue yaml json row pins).isSome).map (·.id))

section Carried

variable {yaml : SerdeNorway} {entry : ProxyEntry} {host key : Text} {sources : List Text}

/-- Two entries that differ in host and server names at most. -/
structure SameParams (entry other : ProxyEntry) : Prop where
  scheme : other.scheme = entry.scheme
  credential : other.credential = entry.credential
  port : other.port = entry.port
  params : ∀ key, isServerNameKey key = false →
    other.paramIgnoreCase key = entry.paramIgnoreCase key
  insecure : isInsecure other.params = isInsecure entry.params

theorem isServerNameKey_congr {a b : Text} (h : eqIgnoreAsciiCase a b = true) :
    isServerNameKey a = isServerNameKey b := by
  have hlower : toAsciiLowercase a = toAsciiLowercase b := by simpa [eqIgnoreAsciiCase] using h
  simp only [isServerNameKey, eqIgnoreAsciiCase, hlower]

theorem insecure_of_serverName {p : Param} (h : isServerNameKey p.key = true) :
    isInsecureParam p = false := by
  have hlower : toAsciiLowercase p.key = "sni" ∨ toAsciiLowercase p.key = "servername" := by
    simpa [isServerNameKey, eqIgnoreAsciiCase, toAsciiLowercase] using h
  have hnot : insecureAliases.contains (toAsciiLowercase p.key) = false := by
    rcases hlower with h | h <;> rw [h] <;> decide
  rw [isInsecureParam, hnot, Bool.false_and]

theorem find?_carried (params : List Param) (new : Param) (q : Param → Bool)
    (h : ∀ p, q p = true → isServerNameKey p.key = false) (hnew : q new = false) :
    (params.filter (fun p => !isServerNameKey p.key) ++ [new]).find? q = params.find? q := by
  rw [List.find?_append, List.find?_filter]
  have hsame : (fun p => decide ((!isServerNameKey p.key) = true ∧ q p = true)) = q := by
    funext p
    by_cases hq : q p = true
    · simp [hq, h p hq]
    · simp [hq]
  have hnone : [new].find? q = none := by simp [hnew]
  rw [hsame, hnone, Option.or_none]

theorem sameParams_carry (entry : ProxyEntry) (prePinHost : Text) :
    SameParams entry (carryServerName entry prePinHost) := by
  rw [carryServerName]
  cases hsources : serverNameSources entry.scheme with
  | none => exact ⟨rfl, rfl, rfl, fun _ _ => rfl, rfl⟩
  | some s =>
    obtain ⟨key, sources⟩ := s
    by_cases hliteral : (parseIp prePinHost).isSome = true
    · simp only [hliteral, if_true]
      exact ⟨rfl, rfl, rfl, fun _ _ => rfl, rfl⟩
    · have hkey : isServerNameKey key = true := by
        cases hscheme : entry.scheme <;> rw [hscheme] at hsources <;>
          simp only [serverNameSources, Option.some.injEq, Prod.mk.injEq, reduceCtorEq] at hsources <;>
          obtain ⟨rfl, -⟩ := hsources <;> decide
      simp only [if_neg hliteral]
      refine ⟨rfl, rfl, rfl, fun other hother => ?_, ?_⟩
      · have hfree : ∀ p : Param, eqIgnoreAsciiCase p.key other = true →
            isServerNameKey p.key = false := by
          intro p hp
          rw [isServerNameKey_congr hp, hother]
        have hnew : eqIgnoreAsciiCase key other = false := by
          rw [Bool.eq_false_iff]
          intro heq
          rw [isServerNameKey_congr heq, hother] at hkey
          contradiction
        exact congrArg (Option.map Param.value) (find?_carried _ _ _ hfree hnew)
      · have hfree : ∀ p : Param, isInsecureParam p = true → isServerNameKey p.key = false := by
          intro p hp
          rw [Bool.eq_false_iff]
          intro hname
          rw [insecure_of_serverName hname] at hp
          contradiction
        have hfind := find?_carried entry.params
          ⟨key, carriedName entry sources prePinHost, true⟩ isInsecureParam hfree
          (insecure_of_serverName hkey)
        have hany : ∀ l : List Param, isInsecure l = (l.find? isInsecureParam).isSome := by
          intro l
          rw [Bool.eq_iff_iff, isInsecure, List.any_eq_true, List.find?_isSome]
        rw [hany, hany, hfind]

section Readings

variable {other : ProxyEntry}

theorem SameParams.paramValue (h : SameParams entry other) (hkey : isServerNameKey key = false) :
    paramValue other key = FormatParams.paramValue entry key := by
  rw [FormatParams.paramValue, FormatParams.paramValue, h.params key hkey]

theorem SameParams.paramTruthy (h : SameParams entry other) (hkey : isServerNameKey key = false) :
    paramTruthy other key = FormatParams.paramTruthy entry key := by
  rw [FormatParams.paramTruthy, FormatParams.paramTruthy, h.params key hkey]

theorem SameParams.paramList (h : SameParams entry other) (hkey : isServerNameKey key = false) :
    paramList yaml other key = FormatParams.paramList yaml entry key := by
  rw [FormatParams.paramList, FormatParams.paramList, h.params key hkey]

theorem SameParams.paramMap (h : SameParams entry other) (hkey : isServerNameKey key = false) :
    paramMap yaml other key = FormatParams.paramMap yaml entry key := by
  rw [FormatParams.paramMap, FormatParams.paramMap, h.params key hkey]

theorem SameParams.transport (h : SameParams entry other) (hkey : isServerNameKey key = false) :
    transport yaml other key = ClashWriter.transport yaml entry key := by
  simp (disch := first | exact hkey | decide) only [ClashWriter.transport, networkOf, httpHeader,
    httpNetwork, wsNetwork, grpcNetwork, h2Network, paramValueIs, h.paramValue, h.paramMap, h.scheme]
  congr

theorem SameParams.realityOpts (h : SameParams entry other) :
    realityOpts yaml other = ClashWriter.realityOpts yaml entry := by
  have hpbk : realityPublicKey yaml other = realityPublicKey yaml entry := by
    simp (disch := decide) only [realityPublicKey, h.paramValue, h.paramMap]
  have hsid : realityShortId yaml other = realityShortId yaml entry := by
    simp (disch := decide) only [realityShortId, h.paramValue, h.paramMap]
  rw [ClashWriter.realityOpts, ClashWriter.realityOpts, SingboxWriter.realityKeys,
    SingboxWriter.realityKeys, hpbk, hsid]

theorem SameParams.vlessTls (h : SameParams entry other) :
    vlessTls other = ClashWriter.vlessTls entry := by
  simp (disch := decide) only [ClashWriter.vlessTls, SingboxWriter.securityIs, h.paramValue,
    h.paramTruthy]

theorem SameParams.vmessTls (h : SameParams entry other) :
    SingboxWriter.vmessTls other = SingboxWriter.vmessTls entry := by
  simp (disch := decide) only [SingboxWriter.vmessTls, SingboxWriter.securityIs, h.paramValue,
    h.paramTruthy]

def withServerName (servername sni : Option Text) : Proxy → Proxy
  | .vless uuid flow tls fingerprint reality alpn network =>
    .vless uuid flow (tls.map fun _ => servername) fingerprint reality alpn network
  | .vmess uuid alterId cipher tls fingerprint alpn network =>
    .vmess uuid alterId cipher (tls.map fun _ => servername) fingerprint alpn network
  | .trojan password _ flow fingerprint reality alpn network =>
    .trojan password sni flow fingerprint reality alpn network
  | .hysteria2 password _ obfs obfsPassword up down fingerprint ports alpn =>
    .hysteria2 password sni obfs obfsPassword up down fingerprint ports alpn
  | .anyTls password _ => .anyTls password sni
  | p => p

theorem SameParams.proxyOf (h : SameParams entry other) : proxyOf yaml other =
    (ClashWriter.proxyOf yaml entry).map
      (withServerName (servername other) (FormatParams.paramValue other "sni")) := by
  cases hscheme : entry.scheme <;>
    simp (disch := decide) only [ClashWriter.proxyOf, h.scheme, hscheme, h.credential,
      h.paramValue, h.paramTruthy, h.paramList, h.paramMap, h.transport, h.realityOpts, h.vlessTls,
      h.vmessTls, SingboxWriter.alterIdText, SingboxWriter.cipherOf, snellObfs, Option.map_some,
      Option.map_none, withServerName]
  · by_cases htls : ClashWriter.vlessTls entry = true
    · simp only [htls, if_true, Option.map_some]
    · simp only [htls, Bool.false_eq_true, if_false, Option.map_none]
  · by_cases htls : SingboxWriter.vmessTls entry = true
    · simp only [htls, if_true, Option.map_some]
    · simp only [htls, Bool.false_eq_true, if_false, Option.map_none]

end Readings

def hostName (host : Text) : Option Text :=
  if trim host = [] then none else some (trim host)

def readValue (raw : Text) : Option Text :=
  if trim raw = [] then none else some (percentDecode (trim raw))

theorem paramValue_eq (entry : ProxyEntry) (key : Text) :
    paramValue entry key = (entry.paramIgnoreCase key).bind readValue := rfl

theorem readValue_host (hhost : '%' ∉ host) : readValue host = hostName host := by
  have hplain : '%' ∉ trim host := by
    intro h
    exact hhost ((List.dropWhile_sublist isWhitespace).subset (trimEnd_sublist _ _ h))
  rw [readValue, hostName, percentDecode_plain hplain]

theorem readValue_carriedName (entry : ProxyEntry) (sources : List Text) (host : Text) :
    readValue (carriedName entry sources host) =
      (sources.findSome? (paramValue entry)).or (readValue host) := by
  induction sources with
  | nil => rfl
  | cons key sources ih =>
    rw [List.findSome?_cons, paramValue_eq]
    cases hraw : entry.paramIgnoreCase key with
    | none =>
      have hskip : carriedName entry (key :: sources) host = carriedName entry sources host := by
        rw [carriedName, List.filterMap_cons, hraw]
        rfl
      rw [hskip, ih]
      rfl
    | some raw =>
      by_cases hblank : trim raw = []
      · have hskip : carriedName entry (key :: sources) host = carriedName entry sources host := by
          rw [carriedName, List.filterMap_cons, hraw]
          simp [hblank, carriedName]
        have hnone : readValue raw = none := if_pos hblank
        rw [hskip, ih, Option.bind_some, hnone]
      · have hfound : carriedName entry (key :: sources) host = trim raw := by
          rw [carriedName, List.filterMap_cons, hraw]
          simp [hblank]
        have hread : readValue raw = some (percentDecode (trim raw)) := if_neg hblank
        have hagain : readValue (trim raw) = readValue raw := by
          rw [readValue, readValue, trim_trim]
        rw [hfound, Option.bind_some, hagain, hread]
        rfl

/-- The server-name parameter of a carried entry is read under its key, and no other one is. -/
theorem paramValue_carried {dest : Text} (hsources : serverNameSources entry.scheme = some (dest, sources))
    (hname : parseIp host = none) (hkey : isServerNameKey key = true) :
    paramValue (carryServerName entry host) key =
      if eqIgnoreAsciiCase dest key then
        (sources.findSome? (paramValue entry)).or (readValue host) else none := by
  have hparams : (carryServerName entry host).params =
      entry.params.filter (fun p => !isServerNameKey p.key) ++
        [⟨dest, carriedName entry sources host, true⟩] := by
    rw [carryServerName, hsources]
    simp [hname]
  have hnone : (entry.params.filter fun p => !isServerNameKey p.key).find?
      (fun p => eqIgnoreAsciiCase p.key key) = none := by
    rw [List.find?_eq_none]
    intro p hp heq
    have hfree := (List.mem_filter.mp hp).2
    rw [isServerNameKey_congr heq, hkey] at hfree
    contradiction
  rw [paramValue_eq, ProxyEntry.paramIgnoreCase, hparams, List.find?_append, hnone, Option.none_or,
    List.find?_singleton]
  by_cases hdest : eqIgnoreAsciiCase dest key = true
  · rw [if_pos hdest, if_pos hdest]
    exact readValue_carriedName entry sources host
  · rw [if_neg hdest, if_neg hdest]
    rfl

end Carried

section Fields

open OptionalFields ClashReading

variable {key : Text} {p : Proxy} {name host host' : Text} {port : UInt16} {skip udp : Bool}

def fieldOf (definition : Yaml) (key : Text) : Option Yaml :=
  definition.asMapping.bind (mapGet · key)

theorem fieldOf_fields : fieldOf (mapping (p.fields name host port skip udp)) key =
    pick (allSlots p name host port skip udp) key := by
  rw [fields_eq]
  exact mapGet_flat _ key

/-- The server name that a definition renders as `servername`. -/
def tlsName : Proxy → Option Text
  | .vless _ _ tls _ _ _ _ | .vmess _ _ _ tls _ _ _ => tls.bind id
  | _ => none

def sniName : Proxy → Option Text
  | .trojan _ sni _ _ _ _ _ | .hysteria2 _ sni _ _ _ _ _ _ _ | .anyTls _ sni => sni
  | _ => none

def tlsFlag : Proxy → Bool
  | .vless _ _ tls _ _ _ _ | .vmess _ _ _ tls _ _ _ => tls.isSome
  | .socks5 _ _ tls => tls
  | _ => false

theorem fieldOf_server :
    fieldOf (mapping (p.fields name host port skip udp)) "server" = some (.str host) := by
  rw [fieldOf_fields]
  rfl

theorem fieldOf_servername :
    fieldOf (mapping (p.fields name host port skip udp)) "servername" = (tlsName p).map .str := by
  rw [fieldOf_fields]
  cases p <;> first | rfl | exact Option.or_none

theorem fieldOf_sni :
    fieldOf (mapping (p.fields name host port skip udp)) "sni" = (sniName p).map .str := by
  rw [fieldOf_fields]
  cases p <;> first | rfl | exact Option.or_none

theorem fieldOf_tls : fieldOf (mapping (p.fields name host port skip udp)) "tls" =
    if tlsFlag p then some (.bool true) else none := by
  rw [fieldOf_fields]
  cases p <;> first | rfl | exact Option.or_none

theorem fieldOf_other (hserver : key ≠ ("server" : Text)) (hservername : key ≠ ("servername" : Text))
    (hsni : key ≠ ("sni" : Text)) (servername sni : Option Text) :
    fieldOf (mapping ((withServerName servername sni p).fields name host' port skip udp)) key =
      fieldOf (mapping (p.fields name host port skip udp)) key := by
  have hserver : (key == ("server" : Text)) = false := beq_false_of_ne hserver
  have hservername : (key == ("servername" : Text)) = false := beq_false_of_ne hservername
  have hsni : (key == ("sni" : Text)) = false := beq_false_of_ne hsni
  rw [fieldOf_fields, fieldOf_fields]
  cases p with
  | vless _ _ tls => cases tls <;>
      simp only [withServerName, allSlots, written, headSlots, optionSlots, tlsSlots, pick_cons,
        pick_append, hserver, hservername, Option.map_none, Option.map_some, Option.isSome_none,
        Option.isSome_some, Bool.false_eq_true, if_false]
  | vmess _ _ _ tls => cases tls <;>
      simp only [withServerName, allSlots, written, headSlots, optionSlots, tlsSlots, pick_cons,
        pick_append, hserver, hservername, Option.map_none, Option.map_some, Option.isSome_none,
        Option.isSome_some, Bool.false_eq_true, if_false]
  | trojan | hysteria2 | anyTls =>
    simp only [withServerName, allSlots, written, headSlots, optionSlots, pick_cons, pick_append,
      hserver, hsni, Bool.false_eq_true, if_false]
  | ss | socks5 | snell =>
    simp only [withServerName, allSlots, pick_cons, hserver, Bool.false_eq_true, if_false]

end Fields

section Pinning

variable {yaml : SerdeNorway} {json : SerdeJson} {row : ProxyRow} {entry : ProxyEntry}
  {pins : Pins} {ip : IpAddr} {key : Text}

/-- An address that a vetting of the host accepts. -/
def VettedFor (host : Text) (ip : IpAddr) : Prop :=
  ∃ (resolve : Text → Except Text (List IpAddr)) (allowPrivate : Bool) (vetted : List IpAddr),
    vetProbeHostAddrs resolve allowPrivate host = .ok vetted ∧ ip ∈ vetted

theorem parseIp_printIp {t : Text} (h : parseIp t = some ip) : parseIp (printIp ip) = some ip := by
  have hread : readIp t = some (ip, []) := by
    unfold parseIp at h
    split at h
    next hread =>
      cases h
      exact hread
    next => cases h
  unfold readIp at hread
  split at hread
  next a b c d rest hv4 =>
    cases hread
    obtain ⟨ha, hb, hc, hd⟩ := readIpv4_lt hv4
    exact parseIp_printIpv4 ha hb hc hd
  next =>
    obtain ⟨⟨segments, rest⟩, hv6, heq⟩ := Option.map_eq_some_iff.mp hread
    cases heq
    obtain ⟨hlen, hsmall⟩ := readIpv6_valid hv6
    exact parseIp_printIpv6 hlen hsmall

theorem literal_of_vetted {host : Text} {literal : IpAddr} (hvetted : VettedFor host ip)
    (h : parseIp host = some literal) : parseIp (printIp ip) = some literal := by
  obtain ⟨resolve, allowPrivate, vetted, hok, hmem⟩ := hvetted
  obtain ⟨-, hanswers, -⟩ := vetProbeHostAddrs_ok hok
  have hself := hanswers ip hmem
  simp only [Answers, h] at hself
  rw [hself]
  exact parseIp_printIp h

/-- The host is a name and the definition negotiates TLS with it. -/
def NamesServer (row : ProxyRow) (unpinned : Yaml) : Prop :=
  parseIp row.host = none ∧
    match row.scheme with
    | .trojan | .hysteria2 | .anyTls => True
    | .vless | .vmess => fieldOf unpinned "tls" = some (.bool true)
    | _ => False

/-- The field of the server name, and the other spelling that an entry may have for it. -/
def serverNameKey (scheme : Scheme) : Text :=
  if scheme = .vless ∨ scheme = .vmess then "servername" else "sni"

def otherSpelling (scheme : Scheme) : Text :=
  if scheme = .vless ∨ scheme = .vmess then "sni" else "servername"

theorem toEntry_fields (h : toEntry json row = .ok entry) :
    entry.scheme = row.scheme ∧ entry.host = row.host := by
  rw [toEntry] at h
  cases hknown : paramsFromColumn json row.params true with
  | error e => simp [hknown, bind, Except.bind] at h
  | ok known =>
    cases hunknown : paramsFromColumn json row.unknownParams false with
    | error e => simp [hknown, hunknown, bind, Except.bind] at h
    | ok unknown =>
      simp only [hknown, hunknown, bind, Except.bind] at h
      split_ifs at h
      obtain rfl := Except.ok.inj h
      exact ⟨rfl, rfl⟩

theorem proxyToValue_eq (hentry : toEntry json row = .ok entry)
    (hsupported : isSupported row.scheme = true) (pins : Pins) :
    proxyToValue yaml json row pins = entryToClashNamed yaml ((pins row.host).elim entry fun ip =>
      { carryServerName entry row.host with host := printIp ip }) (proxyName row.id) := by
  obtain ⟨hscheme, -⟩ := toEntry_fields hentry
  have hok : (toEntry json row).toOption = some entry := by
    rw [hentry]
    rfl
  simp only [proxyToValue, hok, bind, Option.bind_some, hscheme, hsupported, if_true]

theorem proxyOf_isSome (yaml : SerdeNorway) (h : isSupported entry.scheme = true) :
    ∃ p, proxyOf yaml entry = some p := by
  rw [proxyOf]
  cases hscheme : entry.scheme <;> simp [isSupported, hscheme, -String.reduceToList] at h ⊢

theorem SameParams.refl (entry : ProxyEntry) : SameParams entry entry :=
  ⟨rfl, rfl, rfl, fun _ _ => rfl, rfl⟩

theorem withServerName_self {p : Proxy} (h : proxyOf yaml entry = some p) :
    withServerName (servername entry) (paramValue entry "sni") p = p := by
  have hsame := @SameParams.proxyOf yaml entry entry (SameParams.refl entry)
  rw [h] at hsame
  exact (Option.some.inj hsame).symm

theorem sources_eq {scheme : Scheme} {dest : Text} {sources : List Text}
    (h : serverNameSources scheme = some (dest, sources)) :
    dest = serverNameKey scheme ∧ sources = [serverNameKey scheme, otherSpelling scheme] := by
  cases scheme <;> simp only [serverNameSources, Option.some.injEq, Prod.mk.injEq,
    reduceCtorEq] at h <;> obtain ⟨rfl, rfl⟩ := h <;> exact ⟨rfl, rfl⟩

theorem carried_names {host : Text} {source : Text × List Text}
    (hsources : serverNameSources entry.scheme = some source) (hname : parseIp host = none)
    (hhost : '%' ∉ host) :
    paramValue (carryServerName entry host) (serverNameKey entry.scheme) =
        (paramValue entry (serverNameKey entry.scheme) <|>
          paramValue entry (otherSpelling entry.scheme) <|> hostName host) ∧
      paramValue (carryServerName entry host) (otherSpelling entry.scheme) = none := by
  obtain ⟨dest, sources⟩ := source
  obtain ⟨rfl, rfl⟩ := sources_eq hsources
  have hkeys : isServerNameKey (serverNameKey entry.scheme) = true ∧
      isServerNameKey (otherSpelling entry.scheme) = true ∧
      eqIgnoreAsciiCase (serverNameKey entry.scheme) (serverNameKey entry.scheme) = true ∧
      eqIgnoreAsciiCase (serverNameKey entry.scheme) (otherSpelling entry.scheme) = false := by
    cases entry.scheme <;> decide
  obtain ⟨hkey, hother, hsame, hdiffer⟩ := hkeys
  constructor
  · rw [paramValue_carried hsources hname hkey, if_pos hsame, readValue_host hhost]
    simp only [List.findSome?_cons, List.findSome?_nil]
    cases paramValue entry (serverNameKey entry.scheme) with
    | some v => rfl
    | none => cases paramValue entry (otherSpelling entry.scheme) <;> rfl
  · rw [paramValue_carried hsources hname hother, if_neg (by simp [hdiffer])]

theorem pinned_definition (hentry : toEntry json row = .ok entry)
    (hsupported : isSupported row.scheme = true) (hpin : pins row.host = some ip) :
    ∃ p port skip udp, proxyOf yaml entry = some p ∧
      proxyToValue yaml json row (fun _ => none) =
        some (mapping (p.fields (proxyName row.id) row.host port skip udp)) ∧
      proxyToValue yaml json row pins = some (mapping ((withServerName
        (servername (carryServerName entry row.host))
        (paramValue (carryServerName entry row.host) "sni") p).fields (proxyName row.id)
          (printIp ip) port skip udp)) := by
  obtain ⟨hscheme, hrow⟩ := toEntry_fields hentry
  have hentrySupported : isSupported entry.scheme = true := by rw [hscheme]; exact hsupported
  obtain ⟨p, hp⟩ := proxyOf_isSome yaml hentrySupported
  have hcarry := sameParams_carry entry row.host
  have hsame : SameParams entry { carryServerName entry row.host with host := printIp ip } :=
    ⟨hcarry.scheme, hcarry.credential, hcarry.port, hcarry.params, hcarry.insecure⟩
  refine ⟨p, entry.port, isInsecure entry.params, paramTruthy entry "udp", hp, ?_, ?_⟩
  · rw [proxyToValue_eq hentry hsupported, Option.elim_none, entryToClashNamed, hp, hrow]
    rfl
  · rw [proxyToValue_eq hentry hsupported, hpin, Option.elim_some, entryToClashNamed,
      hsame.proxyOf, hp, hsame.port, hsame.insecure, hsame.paramTruthy (by decide)]
    rfl

theorem names_withServerName {p : Proxy} (hp : proxyOf yaml entry = some p)
    (name sni : Option Text) :
    tlsName (withServerName name sni p) =
        (if (entry.scheme = .vless ∨ entry.scheme = .vmess) ∧ tlsFlag p = true then name else none) ∧
      sniName (withServerName name sni p) =
        if entry.scheme = .trojan ∨ entry.scheme = .hysteria2 ∨ entry.scheme = .anyTls then sni
        else none := by
  rw [proxyOf] at hp
  cases hscheme : entry.scheme <;> rw [hscheme] at hp <;> cases hp
  case vless => by_cases htls : vlessTls entry = true <;> simp [withServerName, tlsName, sniName,
    tlsFlag, htls]
  case vmess => by_cases htls : SingboxWriter.vmessTls entry = true <;> simp [withServerName,
    tlsName, sniName, tlsFlag, htls]
  all_goals exact ⟨rfl, rfl⟩

theorem namesServer_iff {p : Proxy} {name : Text} {port : UInt16} {skip udp : Bool} :
    NamesServer row (mapping (p.fields name row.host port skip udp)) ↔
      parseIp row.host = none ∧
        ((row.scheme = .vless ∨ row.scheme = .vmess) ∧ tlsFlag p = true ∨
          row.scheme = .trojan ∨ row.scheme = .hysteria2 ∨ row.scheme = .anyTls) := by
  unfold NamesServer
  refine and_congr_right fun _ => ?_
  rw [fieldOf_tls]
  cases row.scheme <;> simp

theorem carryServerName_self {host : Text}
    (h : ¬ (parseIp host = none ∧ (serverNameSources entry.scheme).isSome = true)) :
    carryServerName entry host = entry := by
  rw [carryServerName]
  cases hsources : serverNameSources entry.scheme with
  | none => rfl
  | some s =>
    have hliteral : (parseIp host).isSome = true := by
      by_contra hnone
      exact h ⟨by simpa using hnone, by rw [hsources]; rfl⟩
    exact if_pos hliteral

section Names

variable {p : Proxy} (hp : proxyOf yaml entry = some p)

include hp

/-- An address literal, and an entry whose definition has no server name, keep their names. -/
theorem names_kept (host : Text) :
    (¬ (parseIp host = none ∧ (entry.scheme = .vless ∨ entry.scheme = .vmess) ∧
        tlsFlag p = true) →
      tlsName (withServerName (servername (carryServerName entry host))
        (paramValue (carryServerName entry host) "sni") p) = tlsName p) ∧
    (¬ (parseIp host = none ∧
        (entry.scheme = .trojan ∨ entry.scheme = .hysteria2 ∨ entry.scheme = .anyTls)) →
      sniName (withServerName (servername (carryServerName entry host))
        (paramValue (carryServerName entry host) "sni") p) = sniName p) := by
  have hself := withServerName_self hp
  obtain ⟨htls, hsni⟩ := names_withServerName hp (servername entry) (paramValue entry "sni")
  obtain ⟨htls', hsni'⟩ := names_withServerName hp (servername (carryServerName entry host))
    (paramValue (carryServerName entry host) "sni")
  rw [hself] at htls hsni
  by_cases hcarried : parseIp host = none ∧ (serverNameSources entry.scheme).isSome = true
  · constructor
    · intro hnot
      have hplain : ¬ ((entry.scheme = .vless ∨ entry.scheme = .vmess) ∧ tlsFlag p = true) :=
        fun h => hnot ⟨hcarried.1, h⟩
      rw [htls, htls', if_neg hplain, if_neg hplain]
    · intro hnot
      have hplain : ¬ (entry.scheme = .trojan ∨ entry.scheme = .hysteria2 ∨
          entry.scheme = .anyTls) := fun h => hnot ⟨hcarried.1, h⟩
      rw [hsni, hsni', if_neg hplain, if_neg hplain]
  · rw [carryServerName_self hcarried, hself]
    exact ⟨fun _ => rfl, fun _ => rfl⟩

/-- The name carried for a host name is the one rendered before, else the other spelling, else the
host. -/
theorem names_carried {host : Text} (hname : parseIp host = none) (hhost : '%' ∉ host) :
    ((entry.scheme = .vless ∨ entry.scheme = .vmess) ∧ tlsFlag p = true →
      tlsName (withServerName (servername (carryServerName entry host))
        (paramValue (carryServerName entry host) "sni") p) =
          (tlsName p <|> paramValue entry "sni" <|> hostName host)) ∧
    (entry.scheme = .trojan ∨ entry.scheme = .hysteria2 ∨ entry.scheme = .anyTls →
      sniName (withServerName (servername (carryServerName entry host))
        (paramValue (carryServerName entry host) "sni") p) =
          (sniName p <|> paramValue entry "servername" <|> hostName host)) := by
  have hself := withServerName_self hp
  obtain ⟨htls, hsni⟩ := names_withServerName hp (servername entry) (paramValue entry "sni")
  obtain ⟨htls', hsni'⟩ := names_withServerName hp (servername (carryServerName entry host))
    (paramValue (carryServerName entry host) "sni")
  rw [hself] at htls hsni
  constructor
  · intro hrendered
    have hsources : (serverNameSources entry.scheme).isSome = true := by
      rcases hrendered.1 with h | h <;> rw [h] <;> rfl
    obtain ⟨source, hsources⟩ := Option.isSome_iff_exists.mp hsources
    obtain ⟨hdest, hother⟩ := carried_names hsources hname hhost
    rw [serverNameKey, otherSpelling, if_pos hrendered.1, if_pos hrendered.1] at hdest
    rw [otherSpelling, if_pos hrendered.1] at hother
    rw [htls, htls', if_pos hrendered, if_pos hrendered, servername, servername, hdest, hother]
    cases paramValue entry "servername" <;> cases paramValue entry "sni" <;>
      cases hostName host <;> rfl
  · intro hrendered
    have hplain : ¬ (entry.scheme = .vless ∨ entry.scheme = .vmess) := by
      rcases hrendered with h | h | h <;> simp [h]
    have hsources : (serverNameSources entry.scheme).isSome = true := by
      rcases hrendered with h | h | h <;> rw [h] <;> rfl
    obtain ⟨source, hsources⟩ := Option.isSome_iff_exists.mp hsources
    obtain ⟨hdest, -⟩ := carried_names hsources hname hhost
    rw [serverNameKey, otherSpelling, if_neg hplain, if_neg hplain] at hdest
    rw [hsni, hsni', if_pos hrendered, if_pos hrendered, hdest]

end Names

/-- Pinning to a vetted address changes the endpoint, and the server name of a host name on a
definition with TLS: that is the one rendered before, else the other spelling of the entry, else the
host itself, freed of surrounding white space.  A literal keeps its address. -/
theorem pinning_keeps_proxy (hentry : toEntry json row = .ok entry)
    (hsupported : isSupported row.scheme = true) (hhost : '%' ∉ row.host)
    (hpin : pins row.host = some ip) (hvetted : VettedFor row.host ip) :
    ∃ unpinned pinned, proxyToValue yaml json row (fun _ => none) = some unpinned ∧
      proxyToValue yaml json row pins = some pinned ∧
      fieldOf pinned "server" = some (.str (printIp ip)) ∧
      (∀ key, key ≠ ("server" : Text) →
        ¬ (NamesServer row unpinned ∧ key = serverNameKey row.scheme) →
          fieldOf pinned key = fieldOf unpinned key) ∧
      (NamesServer row unpinned → fieldOf pinned (serverNameKey row.scheme) =
        (fieldOf unpinned (serverNameKey row.scheme) <|>
          (paramValue entry (otherSpelling row.scheme)).map .str <|>
          (hostName row.host).map .str)) ∧
      ∀ literal, parseIp row.host = some literal →
        fieldOf unpinned "server" = some (.str row.host) ∧
          parseIp (printIp ip) = some literal ∧
          ∀ key, key ≠ ("server" : Text) → fieldOf pinned key = fieldOf unpinned key := by
  obtain ⟨hscheme, hrow⟩ := toEntry_fields hentry
  obtain ⟨p, port, skip, udp, hp, hunpinned, hpinned⟩ :=
    @pinned_definition yaml json row entry pins ip hentry hsupported hpin
  have hothers : ∀ key, key ≠ ("server" : Text) →
      ¬ (NamesServer row (mapping (p.fields (proxyName row.id) row.host port skip udp)) ∧
        key = serverNameKey row.scheme) →
      fieldOf (mapping ((withServerName (servername (carryServerName entry row.host))
        (paramValue (carryServerName entry row.host) "sni") p).fields (proxyName row.id)
          (printIp ip) port skip udp)) key =
        fieldOf (mapping (p.fields (proxyName row.id) row.host port skip udp)) key := by
    intro key hserver hnot
    obtain ⟨htls, hsni⟩ := names_kept hp row.host
    rw [hscheme] at htls hsni
    by_cases hservername : key = "servername"
    · rw [hservername, fieldOf_servername, fieldOf_servername, htls]
      rintro ⟨hname, hrendered⟩
      refine hnot ⟨namesServer_iff.mpr ⟨hname, .inl hrendered⟩, ?_⟩
      rw [hservername, serverNameKey, if_pos hrendered.1]
    · by_cases hsniKey : key = "sni"
      · rw [hsniKey, fieldOf_sni, fieldOf_sni, hsni]
        rintro ⟨hname, hrendered⟩
        refine hnot ⟨namesServer_iff.mpr ⟨hname, .inr hrendered⟩, ?_⟩
        rcases hrendered with h | h | h <;> rw [hsniKey, h] <;> rfl
      · exact fieldOf_other hserver hservername hsniKey _ _
  refine ⟨_, _, hunpinned, hpinned, fieldOf_server, hothers, fun hnames => ?_,
    fun literal hliteral => ?_⟩
  · obtain ⟨hname, hrendered⟩ := namesServer_iff.mp hnames
    obtain ⟨htls, hsni⟩ := names_carried hp hname hhost
    rw [hscheme] at htls hsni
    rcases hrendered with htype | htype
    · rw [serverNameKey, otherSpelling, if_pos htype.1, if_pos htype.1, fieldOf_servername,
        fieldOf_servername, htls htype]
      simp only [Option.orElse_eq_orElse, Option.orElse_eq_or, Option.map_or]
    · have hplain : ¬ (row.scheme = .vless ∨ row.scheme = .vmess) := by
        rcases htype with h | h | h <;> simp [h]
      rw [serverNameKey, otherSpelling, if_neg hplain, if_neg hplain, fieldOf_sni, fieldOf_sni,
        hsni htype]
      simp only [Option.orElse_eq_orElse, Option.orElse_eq_or, Option.map_or]
  · refine ⟨fieldOf_server, literal_of_vetted hvetted hliteral, fun key hserver => ?_⟩
    apply hothers key hserver
    rintro ⟨⟨hname, -⟩, -⟩
    rw [hliteral] at hname
    cases hname

end Pinning

section Samples

def sampleRow (host : Text) : ProxyRow where
  id := 1
  fingerprint := []
  scheme := .trojan
  name := []
  host := host
  port := 443
  credential := "p"
  params := none
  unknownParams := none
  rawLine := none
  status := .alive
  createdAt := 0
  updatedAt := 0

def noYaml : SerdeNorway := ⟨fun _ => none, fun _ => none⟩

def noJson : SerdeJson := ⟨fun _ => [], fun _ => none⟩

def sampleAddress : IpAddr := .v4 93 184 216 34

def pinAll : Pins := fun _ => some sampleAddress

theorem vettedFor_sample {host : Text} (h : parseIp host = none) :
    VettedFor host sampleAddress := by
  refine ⟨fun _ => .ok [sampleAddress], false, [sampleAddress], ?_, List.mem_cons_self⟩
  rw [vetProbeHostAddrs, h]
  rfl

theorem pinning_keeps_proxy_sample : ∃ unpinned pinned,
    proxyToValue noYaml noJson (sampleRow "h") (fun _ => none) = some unpinned ∧
      proxyToValue noYaml noJson (sampleRow "h") pinAll = some pinned ∧
      fieldOf pinned "server" = some (.str "93.184.216.34") ∧
      fieldOf pinned "password" = fieldOf unpinned "password" := by
  have hentry : toEntry noJson (sampleRow "h") =
      .ok ⟨.trojan, [], "h", 443, "p", [], [], []⟩ := by
    decide +kernel
  obtain ⟨unpinned, pinned, hunpinned, hpinned, hserver, hsame, -⟩ :=
    @pinning_keeps_proxy noYaml noJson (sampleRow "h") _ pinAll sampleAddress hentry rfl
      (by decide) rfl (vettedFor_sample (by decide +kernel))
  refine ⟨unpinned, pinned, hunpinned, hpinned, ?_, hsame "password" (by decide) ?_⟩
  · have hprint : printIp sampleAddress = ("93.184.216.34" : Text) := by decide +kernel
    rw [hserver, hprint]
  · rintro ⟨-, hkey⟩
    exact absurd hkey (by decide)

/-- A host with a blank in front is a server name without the blank. -/
theorem blank_host_trimmed : ¬ ∀ (row : ProxyRow) (ip : IpAddr) (unpinned pinned : Yaml),
    row.scheme = .trojan → '%' ∉ row.host → parseIp row.host = none → VettedFor row.host ip →
      proxyToValue noYaml noJson row (fun _ => none) = some unpinned →
      proxyToValue noYaml noJson row (fun _ => some ip) = some pinned →
      fieldOf unpinned "sni" = none → fieldOf pinned "sni" = some (.str row.host) := by
  intro h
  obtain ⟨unpinned, hunpinned⟩ : ∃ d, proxyToValue noYaml noJson (sampleRow " h") (fun _ => none) =
      some d := Option.isSome_iff_exists.mp (by decide +kernel)
  obtain ⟨pinned, hpinned⟩ : ∃ d, proxyToValue noYaml noJson (sampleRow " h")
      pinAll = some d := Option.isSome_iff_exists.mp (by decide +kernel)
  have hunnamed : ((proxyToValue noYaml noJson (sampleRow " h") (fun _ => none)).bind
      (fieldOf · "sni")).isNone = true := by decide +kernel
  have hnamed : ((proxyToValue noYaml noJson (sampleRow " h")
      pinAll).bind (fieldOf · "sni")).bind Yaml.asStr =
        some ("h" : Text) := by decide +kernel
  rw [hunpinned, Option.bind_some, Option.isNone_iff_eq_none] at hunnamed
  rw [hpinned, Option.bind_some, h (sampleRow " h") _ unpinned pinned rfl (by decide)
    (by decide +kernel) (vettedFor_sample (by decide +kernel)) hunpinned hpinned hunnamed] at hnamed
  exact absurd hnamed (by decide)

end Samples

end PinnedConfig
