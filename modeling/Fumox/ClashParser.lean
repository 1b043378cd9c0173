import Fumox.FormatParams
import Fumox.UriGrammar

/-!
Clash (mihomo) YAML input: items of the `proxies` list become entries that carry every option they
do not consume as a parameter.
-/

namespace ClashParser

open RustText ProxyModels PayloadGuards UriGrammar JsonValue YamlValue

/-- Per-type knowledge for mapping an item onto an entry. -/
structure ClashTypeSpec where
  scheme : Scheme
  credentialFields : List Text
  optionalCredentialFields : Bool
  knownFields : List Text

def ssSpec : ClashTypeSpec where
  scheme := .ss
  credentialFields := ["cipher", "password"]
  optionalCredentialFields := false
  knownFields := ["udp", "plugin", "plugin-opts"]

def trojanSpec : ClashTypeSpec where
  scheme := .trojan
  credentialFields := ["password"]
  optionalCredentialFields := false
  knownFields := ["sni", "skip-cert-verify", "alpn", "network", "ws-path", "ws-headers",
    "fingerprint", "udp"]

def vmessSpec : ClashTypeSpec where
  scheme := .vmess
  credentialFields := ["uuid"]
  optionalCredentialFields := false
  knownFields := ["alterid", "cipher", "tls", "skip-cert-verify", "servername", "network",
    "ws-path", "ws-headers", "ws-opts", "h2-opts", "http-opts", "grpc-service-name",
    "fingerprint", "client-fingerprint", "udp"]

def hysteria2Spec : ClashTypeSpec where
  scheme := .hysteria2
  credentialFields := ["password"]
  optionalCredentialFields := false
  knownFields := ["sni", "skip-cert-verify", "alpn", "obfs", "obfs-password", "fingerprint",
    "ports"]

def vlessSpec : ClashTypeSpec where
  scheme := .vless
  credentialFields := ["uuid"]
  optionalCredentialFields := false
  knownFields := ["tls", "skip-cert-verify", "servername", "network", "ws-path", "ws-headers",
    "ws-opts", "flow", "reality-opts", "client-fingerprint", "fingerprint", "alpn", "udp"]

def socks5Spec : ClashTypeSpec where
  scheme := .socks5
  credentialFields := ["username", "password"]
  optionalCredentialFields := true
  knownFields := ["udp"]

def snellSpec : ClashTypeSpec where
  scheme := .snell
  credentialFields := ["psk"]
  optionalCredentialFields := false
  knownFields := ["version", "mode", "reuse", "udp", "obfs", "obfs-host", "obfs-opts"]

def anyTlsSpec : ClashTypeSpec where
  scheme := .anyTls
  credentialFields := ["password"]
  optionalCredentialFields := false
  knownFields := ["sni", "udp", "skip-cert-verify", "insecure"]

def specOfType (typeName : Text) : Option ClashTypeSpec :=
  if typeName = "ss" then some ssSpec
  else if typeName = "trojan" then some trojanSpec
  else if typeName = "vmess" then some vmessSpec
  else if typeName = "hysteria2" then some hysteria2Spec
  else if typeName = "vless" then some vlessSpec
  else if typeName = "socks5" then some socks5Spec
  else if typeName = "snell" then some snellSpec
  else if typeName = "anytls" then some anyTlsSpec
  else none

/-- Fields that become part of the entry itself. -/
def structuralFields : List Text := ["name", "type", "server", "port"]

inductive ClashError where
  | alias (line : ℕ)
  | invalidYaml
  | noProxies
  | notAMapping
  | missingField (field : Text)
  | portOutOfRange (image : Text)
  | invalidPort (port : Text)
  | lineBreak (field : Text)
  | tooManyParams (count : ℕ)
  | oversizedField
  deriving DecidableEq, Repr

def stringField (fields : List (Yaml × Yaml)) (key : Text) : Except ClashError Text :=
  ((mapGet fields key).bind Yaml.asStr).elim (.error (.missingField key)) .ok

def numericField (fields : List (Yaml × Yaml)) (key : Text) : Except ClashError UInt16 :=
  match mapGet fields key with
  | some (.num n) =>
    match n.asU64 with
    | some v => if v < 65536 then .ok (UInt16.ofNat v) else .error (.portOutOfRange n.image)
    | none => .error (.portOutOfRange n.image)
  | some (.str s) => (parseU16 (trim s)).elim (.error (.invalidPort s)) .ok
  | _ => .error (.missingField key)

def yamlToString (yaml : SerdeNorway) : Yaml → Text
  | .str s => s
  | .num n => n.image
  | .bool b => if b then "true" else "false"
  | .null => []
  | other => trim ((yaml.toStr other).getD [])

/-- The credential fields joined by colons.  A missing field in front of the first present one
keeps its slot only when every field is optional; a missing later one always does. -/
def joinCredential (optionalFields : Bool) (fields : List (Option Text)) : Text :=
  if fields.all Option.isNone then []
  else
    let kept := if optionalFields then fields else fields.dropWhile Option.isNone
    [':'].intercalate (kept.map (·.getD []))

def keyText (key : Yaml) : Text :=
  key.asStr.getD []

def fieldParam (yaml : SerdeNorway) (spec : ClashTypeSpec) (f : Yaml × Yaml) : Param where
  key := keyText f.1
  value := yamlToString yaml f.2
  known := spec.knownFields.contains (toAsciiLowercase (keyText f.1))

def itemParams (yaml : SerdeNorway) (spec : ClashTypeSpec) (fields : List (Yaml × Yaml)) :
    List Param :=
  (fields.filter fun f => !structuralFields.contains (keyText f.1) &&
    !spec.credentialFields.contains (keyText f.1)).map (fieldParam yaml spec)

def itemCredential (yaml : SerdeNorway) (spec : ClashTypeSpec) (fields : List (Yaml × Yaml)) :
    Text :=
  joinCredential spec.optionalCredentialFields
    (spec.credentialFields.map fun field => (mapGet fields field).map (yamlToString yaml))

def parseTyped (yaml : SerdeNorway) (spec : ClashTypeSpec) (fields : List (Yaml × Yaml)) :
    Except ClashError ProxyEntry := do
  let name := ((mapGet fields "name").bind Yaml.asStr).getD []
  let host ← stringField fields "server"
  let port ← numericField fields "port"
  let credential := itemCredential yaml spec fields
  (rejectLineBreaks "clash: server" host).mapError .lineBreak
  (rejectLineBreaks "clash: credential" credential).mapError .lineBreak
  let params := itemParams yaml spec fields
  ensure (params.length ≤ maxQueryParams) (.tooManyParams params.length)
  params.forM fun p => (checkParamSize p.key p.value).mapError fun _ => .oversizedField
  return {
    scheme := spec.scheme
    name, host, port, credential, params
    rawPath := []
    rawLine := [] }

/-- One item of the list; `none` is an unsupported type. -/
def parseItem (yaml : SerdeNorway) (item : Yaml) : Except ClashError (Option ProxyEntry) := do
  let fields ← item.asMapping.elim (.error .notAMapping) .ok
  let typeName ← stringField fields "type"
  match specOfType typeName with
  | some spec => some <$> parseTyped yaml spec fields
  | none => return none

structure ClashParseResult where
  entries : List ProxyEntry := []
  unsupported : ℕ := 0
  invalid : ℕ := 0

/-- Malformed items are counted, never fatal. -/
def countItem (yaml : SerdeNorway) (result : ClashParseResult) (item : Yaml) : ClashParseResult :=
  match parseItem yaml item with
  | .ok (some entry) => { result with entries := result.entries ++ [entry] }
  | .ok none => { result with unsupported := result.unsupported + 1 }
  | .error _ => { result with invalid := result.invalid + 1 }

def parsePayload (yaml : SerdeNorway) (payload : Text) : Except ClashError ClashParseResult := do
  (rejectYamlAliases payload).mapError .alias
  let root ← (yaml.fromStr payload).elim (.error .invalidYaml) .ok
  let proxies ← ((root.asMapping.bind (mapGet · "proxies")).bind Yaml.asSequence).elim
    (.error .noProxies) .ok
  return proxies.foldl (countItem yaml) {}

end ClashParser
