import Fumox.SingboxWriter

/-!
Clash (mihomo) YAML output.  An entry is read into the options of a proxy definition, and the
definition is printed as a YAML mapping; a scheme without a mihomo counterpart has none.
-/

namespace ClashWriter

open RustText ProxyModels FormatParams JsonValue YamlValue

abbrev Fields := List (Text × Yaml)

def mapping (fields : Fields) : Yaml :=
  .map (fields.map fun f => (.str f.1, f.2))

inductive Network where
  | ws (path host : Option Text) (httpUpgrade : Bool)
  | grpc (serviceName : Option Text)
  | h2 (hosts : Option (List Text)) (path : Option Text)
  | http (path host : Option Text)
  | other (network : Text)

/-- TLS of vless and vmess is a flag with the server name beside it. -/
inductive Proxy where
  | vless (uuid : Text) (flow : Option Text) (tls : Option (Option Text))
      (fingerprint : Option Text) (reality : Option (Option Text × Option Text))
      (alpn : Option (List Text)) (network : Option Network)
  | vmess (uuid : Text) (alterId : ℤ) (cipher : Text) (tls : Option (Option Text))
      (fingerprint : Option Text) (alpn : Option (List Text)) (network : Option Network)
  | trojan (password : Text) (sni flow fingerprint : Option Text)
      (reality : Option (Option Text × Option Text)) (alpn : Option (List Text))
      (network : Option Network)
  | ss (cipher password : Text) (plugin : Option (Text × Fields))
  | hysteria2 (password : Text) (sni obfs obfsPassword up down fingerprint ports : Option Text)
      (alpn : Option (List Text))
  | socks5 (username password : Option Text) (tls : Bool)
  | snell (psk : Text) (version : Option Text) (reuse : Bool) (mode : Option Text)
      (obfs : Option (Text × Option Text))
  | anyTls (password : Text) (sni : Option Text)

def num (value : ℤ) : Yaml :=
  .num (if 0 ≤ value then .posInt value.toNat else .negInt value)

def yamlList (fields : Option (List (Yaml × Yaml))) (key : Text) : Option (List Text) :=
  ((fields.bind (mapGet · key)).bind Yaml.asSequence).bind fun seq =>
    nonemptyList (((seq.filterMap Yaml.asStr).filter fun s => trim s ≠ []).map trim)

/-- `Host` header inside a parsed `ws-opts.headers` block. -/
def nestedHost (fields : Option (List (Yaml × Yaml))) : Option Text :=
  ((fields.bind (mapGet · "headers")).bind Yaml.asMapping).bind fun headers =>
    (["Host", "host"] : List Text).findSome? fun key =>
      ((mapGet headers key).bind Yaml.asStr).bind fun host =>
        if trim host = [] then none else some (trim host)

section Reading

variable (yaml : SerdeNorway) (entry : ProxyEntry)

def paramValueIs (key want : Text) : Bool :=
  (paramValue entry key).any fun v => eqIgnoreAsciiCase v want

/-- The server name; a `servername` parameter replaces an `sni` one. -/
def servername : Option Text :=
  paramValue entry "servername" <|> paramValue entry "sni"

def vlessTls : Bool :=
  SingboxWriter.securityIs entry "tls" || SingboxWriter.securityIs entry "reality" ||
    paramTruthy entry "tls"

def wsNetwork (httpUpgrade : Bool) : Network :=
  let wsYaml := paramMap yaml entry "ws-opts"
  .ws (paramValue entry "path" <|> mapStr wsYaml "path")
    (paramValue entry "host" <|> mapStr (paramMap yaml entry "ws-headers") "host" <|>
      nestedHost wsYaml)
    httpUpgrade

def grpcNetwork : Network :=
  .grpc (paramValue entry "serviceName" <|>
    mapStr (paramMap yaml entry "grpc-opts") "grpc-service-name" <|>
    paramValue entry "grpc-service-name" <|>
    if entry.scheme = .vmess then paramValue entry "path" else none)

def h2Network : Network :=
  let h2Yaml := paramMap yaml entry "h2-opts"
  .h2 (((paramValue entry "host" <|> mapStr h2Yaml "host").map SingboxWriter.splitHosts) <|>
      yamlList h2Yaml "host")
    (paramValue entry "path" <|> mapStr h2Yaml "path")

def httpNetwork : Network :=
  .http (paramValue entry "path") (paramValue entry "host")

/-- Plain-HTTP header obfuscation over TCP: `headerType=http`, or `type: http` in vmess JSON. -/
def httpHeader : Bool :=
  paramValueIs entry "headerType" "http" ||
    (entry.scheme == .vmess && paramValueIs entry "type" "http")

def transport (uriKey : Text) : Option Network :=
  (networkOf entry uriKey).bind fun network =>
    if network = [] ∨ network = "tcp" then
      if httpHeader entry then some (httpNetwork entry) else none
    else if network = "ws" ∨ network = "httpupgrade" then
      some (wsNetwork yaml entry (network == "httpupgrade"))
    else if network = "grpc" then some (grpcNetwork yaml entry)
    else if network = "h2" then some (h2Network yaml entry)
    else if network = "http" then
      if entry.scheme = .vmess ∨ paramValueIs entry "headerType" "http" then
        some (httpNetwork entry)
      else some (h2Network yaml entry)
    else some (.other network)

def pluginPart (part : Text) : Option (Text × Option Text) :=
  if trim part = [] then none
  else
    match splitOnce '=' (trim part) with
    | some (key, value) => some (toAsciiLowercase (trim key), some (trim value))
    | none => some (toAsciiLowercase (trim part), none)

def pluginKeys (parts : List Text) : List (Text × Text) :=
  (parts.filterMap pluginPart).filterMap fun p => p.2.map fun v => (p.1, v)

def pluginFlags (parts : List Text) : List Text :=
  (parts.filterMap pluginPart).filterMap fun p => if p.2.isNone then some p.1 else none

def textOption (parts : List Text) (key out : Text) : Fields :=
  ((pluginKeys parts).lookup key).elim [] fun v => [(out, .str v)]

def flagOption (parts : List Text) (key out : Text) : Fields :=
  if (pluginFlags parts).contains key then [(out, .bool true)] else []

def versionOption (parts : List Text) : Fields :=
  ((pluginKeys parts).lookup ("version" : Text)).elim [] fun v =>
    [("version", (parseI64 v).elim (.str v) num)]

/-- The raw options of an unknown plugin; a repeated key keeps its last value. -/
def rawOptions (parts : List Text) : Fields :=
  (pluginFlags parts).foldl (fun m f => insert m f (.bool true))
    ((pluginKeys parts).foldl (fun m f => insert m f.1 (.str f.2)) [])

def pluginOf (raw : Text) : Option (Text × Fields) :=
  let name := trim ((raw.splitOn ';').headD [])
  let parts := (raw.splitOn ';').tail
  if name = [] then none
  else if name = "obfs-local" ∨ name = "simple-obfs" then
    some ("obfs", textOption parts "obfs" "mode" ++ textOption parts "obfs-host" "host")
  else if name = "v2ray-plugin" then
    some ("v2ray-plugin", textOption parts "mode" "mode" ++ textOption parts "host" "host" ++
      textOption parts "path" "path" ++ flagOption parts "tls" "tls" ++
      flagOption parts "mux" "mux" ++ flagOption parts "skipverify" "skip-cert-verify")
  else if name = "shadow-tls" then
    some ("shadow-tls", textOption parts "host" "host" ++
      textOption parts "password" "password" ++ versionOption parts)
  else some (name, rawOptions parts)

def realityOpts : Option (Option Text × Option Text) :=
  SingboxWriter.realityKeys yaml entry

/-- The obfuscation of a snell proxy; a host without a mode is sent as off. -/
def snellObfs : Option (Text × Option Text) :=
  let obfsYaml := paramMap yaml entry "obfs-opts"
  let obfs := paramValue entry "obfs" <|> mapStr obfsYaml "mode"
  let host := paramValue entry "obfs-host" <|> mapStr obfsYaml "host"
  if obfs.isSome || host.isSome then some (obfs.getD "off", host) else none

def proxyOf : Option Proxy :=
  match entry.scheme with
  | .vless =>
    some (.vless entry.credential (paramValue entry "flow")
      (if vlessTls entry then some (servername entry) else none) (paramValue entry "fp")
      (realityOpts yaml entry) (paramList yaml entry "alpn") (transport yaml entry "type"))
  | .vmess =>
    some (.vmess entry.credential (((SingboxWriter.alterIdText entry).bind parseI64).getD 0)
      (SingboxWriter.cipherOf entry)
      (if SingboxWriter.vmessTls entry then some (servername entry) else none)
      (paramValue entry "client-fingerprint" <|> paramValue entry "fp")
      (paramList yaml entry "alpn") (transport yaml entry "net"))
  | .trojan =>
    some (.trojan entry.credential (paramValue entry "sni") (paramValue entry "flow")
      (paramValue entry "fp") (realityOpts yaml entry) (paramList yaml entry "alpn")
      (transport yaml entry "type"))
  | .ss =>
    some (.ss (SingboxWriter.methodAndPassword entry.credential).1
      (SingboxWriter.methodAndPassword entry.credential).2
      ((paramValue entry "plugin").bind pluginOf))
  | .hysteria2 =>
    some (.hysteria2 entry.credential (paramValue entry "sni") (paramValue entry "obfs")
      (paramValue entry "obfs-password") (paramValue entry "up" <|> paramValue entry "upMbps")
      (paramValue entry "down" <|> paramValue entry "downMbps")
      (paramValue entry "fingerprint" <|> paramValue entry "pinSHA256")
      (paramValue entry "ports") (paramList yaml entry "alpn"))
  | .socks5 =>
    let parts := splitOnce ':' entry.credential
    some (.socks5 (parts.bind fun p => SingboxWriter.nonEmpty p.1)
      (parts.bind fun p => SingboxWriter.nonEmpty p.2) (paramTruthy entry "tls"))
  | .snell =>
    some (.snell entry.credential (paramValue entry "version") (paramTruthy entry "reuse")
      (paramValue entry "mode") (snellObfs yaml entry))
  | .anyTls => some (.anyTls entry.credential (paramValue entry "sni"))
  | .naive | .tuic | .mieru => none

end Reading

def put (key : Text) (value : Option Yaml) : Fields :=
  value.elim [] fun v => [(key, v)]

def putText (key : Text) (value : Option Text) : Fields :=
  put key (value.map .str)

def putFlag (key : Text) (value : Bool) : Fields :=
  put key (if value then some (.bool true) else none)

def putList (key : Text) (items : Option (List Text)) : Fields :=
  put key (items.map fun l => .seq (l.map .str))

def putBlock (key : Text) (block : Fields) : Fields :=
  if block = [] then [] else [(key, mapping block)]

def realityBlock (reality : Option (Option Text × Option Text)) : Fields :=
  reality.elim [] fun r => putText "public-key" r.1 ++ putText "short-id" r.2

def wsBlock (path host : Option Text) (httpUpgrade : Bool) : Fields :=
  putText "path" path ++
    put "headers" (host.map fun h => mapping [("Host", .str h)]) ++
    putFlag "v2ray-http-upgrade" httpUpgrade

def httpBlock (path host : Option Text) : Fields :=
  put "path" (path.map fun p => .seq [.str p]) ++
    put "headers" (host.map fun h => mapping [("Host", .seq [.str h])])

def Network.fields : Network → Fields
  | ws path host httpUpgrade =>
    ("network", .str "ws") :: putBlock "ws-opts" (wsBlock path host httpUpgrade)
  | grpc serviceName =>
    ("network", .str "grpc") :: putBlock "grpc-opts" (putText "grpc-service-name" serviceName)
  | h2 hosts path =>
    ("network", .str "h2") :: putBlock "h2-opts" (putList "host" hosts ++ putText "path" path)
  | http path host => ("network", .str "http") :: putBlock "http-opts" (httpBlock path host)
  | other network => [("network", .str network)]

def tlsFields (tls : Option (Option Text)) : Fields :=
  tls.elim [] fun name => ("tls", .bool true) :: putText "servername" name

/-- The `type` of a proxy and the fields that depend on it. -/
def Proxy.options : Proxy → Fields
  | vless uuid flow tls fingerprint reality alpn network =>
    ("type", .str "vless") :: ("uuid", .str uuid) :: (putText "flow" flow ++ tlsFields tls ++
      putText "client-fingerprint" fingerprint ++ putBlock "reality-opts" (realityBlock reality) ++
      putList "alpn" alpn ++ network.elim [] Network.fields)
  | vmess uuid alterId cipher tls fingerprint alpn network =>
    ("type", .str "vmess") :: ("uuid", .str uuid) :: ("alterId", num alterId) ::
      ("cipher", .str cipher) :: (tlsFields tls ++ putText "client-fingerprint" fingerprint ++
        putList "alpn" alpn ++ network.elim [] Network.fields)
  | trojan password sni flow fingerprint reality alpn network =>
    ("type", .str "trojan") :: ("password", .str password) :: (putText "sni" sni ++
      putText "flow" flow ++ putText "client-fingerprint" fingerprint ++
      putBlock "reality-opts" (realityBlock reality) ++ putList "alpn" alpn ++
      network.elim [] Network.fields)
  | ss cipher password plugin =>
    ("type", .str "ss") :: ("cipher", .str cipher) :: ("password", .str password) ::
      plugin.elim [] fun p => ("plugin", .str p.1) :: putBlock "plugin-opts" p.2
  | hysteria2 password sni obfs obfsPassword up down fingerprint ports alpn =>
    ("type", .str "hysteria2") :: ("password", .str password) :: (putText "sni" sni ++
      putText "obfs" obfs ++ putText "obfs-password" obfsPassword ++ putText "up" up ++
      putText "down" down ++ putText "fingerprint" fingerprint ++ putText "ports" ports ++
      putList "alpn" alpn)
  | socks5 username password tls =>
    ("type", .str "socks5") :: (putText "username" username ++ putText "password" password ++
      putFlag "tls" tls)
  | snell psk version reuse mode obfs =>
    ("type", .str "snell") :: ("psk", .str psk) :: (putText "version" version ++
      putFlag "reuse" reuse ++ putText "mode" mode ++
      putBlock "obfs-opts" (obfs.elim [] fun o => ("mode", .str o.1) :: putText "host" o.2))
  | anyTls password sni =>
    ("type", .str "anytls") :: ("password", .str password) :: putText "sni" sni

/-- What every type shares: name and endpoint in front, the two toggles behind. -/
def Proxy.fields (p : Proxy) (name host : Text) (port : UInt16) (skipCertVerify udp : Bool) :
    Fields :=
  ("name", .str name) :: ("server", .str host) :: ("port", num port.toNat) ::
    (p.options ++ putFlag "skip-cert-verify" skipCertVerify ++ putFlag "udp" udp)

def entryToClashNamed (yaml : SerdeNorway) (entry : ProxyEntry) (name : Text) : Option Yaml :=
  (proxyOf yaml entry).map fun p => mapping
    (p.fields name entry.host entry.port (isInsecure entry.params) (paramTruthy entry "udp"))

def entryToClash (yaml : SerdeNorway) (entry : ProxyEntry) : Option Yaml :=
  entryToClashNamed yaml entry entry.name

end ClashWriter
