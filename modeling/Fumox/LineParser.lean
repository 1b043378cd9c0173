import Fumox.FormatParams
import Fumox.VmessLine

/-!
Single subscription lines: dispatch on the scheme, and the serializer back into a line, with the
translation of structured-input parameters onto the URI vocabulary.
-/

namespace LineParser

open RustText PercentText ProxyModels UriGrammar PayloadGuards Base64Text JsonValue YamlValue
  FormatParams

structure Codecs where
  base64 : Base64
  json : SerdeJson
  yaml : SerdeNorway

inductive LineOutcome where
  | parsed (entry : ProxyEntry)
  | discarded
  | unrecognized
  deriving DecidableEq, Repr

def parsed {ε : Type} : Except ε ProxyEntry → LineOutcome
  | .ok entry => .parsed entry
  | .error _ => .unrecognized

def transportKey : Text := "naive_transport"

/-- The transport of a naive scheme is kept as the first parameter. -/
def withTransport (transport : Text) (entry : ProxyEntry) : ProxyEntry :=
  { entry with params := ⟨transportKey, transport, true⟩ :: entry.params }

def parseNaive (transport rest line : Text) : LineOutcome :=
  if transport = "https" ∨ transport = "quic" then
    match parseWithSpec naiveSpec rest line with
    | .ok entry => .parsed (withTransport transport entry)
    | .error _ => .unrecognized
  else .unrecognized

def stripNaive (scheme : Text) : Option Text :=
  if ("naive+" : Text).isPrefixOf scheme then some (scheme.drop 6) else none

def specNamed (scheme : Text) : Option UriSchemeSpec :=
  if scheme = "vless" then some vlessSpec
  else if scheme = "trojan" then some trojanSpec
  else if scheme = "hysteria2" ∨ scheme = "hy2" then some hysteria2Spec
  else if scheme = "tuic" then some tuicSpec
  else if scheme = "mieru" then some mieruSpec
  else if scheme = "socks5" then some socks5Spec
  else if scheme = "snell" then some snellSpec
  else if scheme = "anytls" then some anyTlsSpec
  else none

def parseScheme (codecs : Codecs) (scheme rest line : Text) : LineOutcome :=
  match specNamed scheme with
  | some spec => parsed (parseWithSpec spec rest line)
  | none =>
    if scheme = "ss" then parsed (SsLine.parse codecs.base64 rest line)
    else if scheme = "vmess" then parsed (VmessLine.parse codecs.base64 codecs.json rest line)
    else if scheme = "happ" then .discarded
    else (stripNaive scheme).elim .unrecognized fun transport => parseNaive transport rest line

def parseLine (codecs : Codecs) (line : Text) : LineOutcome :=
  if maxLineBytes < (bytes line).length then .unrecognized
  else
    match splitOnceStr "://" (trim line) with
    | none => .unrecognized
    | some (schemeRaw, rest) => parseScheme codecs (toAsciiLowercase schemeRaw) rest (trim line)

def push (key value : Text) : List Param :=
  if value = [] then [] else [⟨key, value, true⟩]

def pushOpt (key : Text) (value : Option Text) : List Param :=
  value.elim [] (push key)

def yamlScalar : Yaml → Option Text
  | .str s => some s
  | .num n => some n.image
  | .bool b => some (if b then "true" else "false")
  | _ => none

def joined (items : List Yaml) : Option Text :=
  (nonemptyList (items.filterMap yamlScalar)).map [','].intercalate

def joinedAlpn (yaml : SerdeNorway) (value : Text) : Text :=
  match yamlValue yaml value with
  | some (.seq items) => (joined items).getD value
  | _ => value

def yamlMapping (yaml : SerdeNorway) (t : Text) : Option (List (Yaml × Yaml)) :=
  match yamlValue yaml t with
  | some (.map fields) => some fields
  | _ => none

def blockValue (fields : List (Yaml × Yaml)) (key : Text) : Option Yaml :=
  (fields.find? fun f => f.1.asStr.any (eqIgnoreAsciiCase · key)).map Prod.snd

def blockString (fields : List (Yaml × Yaml)) (key : Text) : Option Text :=
  (blockValue fields key).bind fun
    | .seq items => joined items
    | other => (yamlScalar other).filter (· ≠ [])

def blockHeaders (fields : List (Yaml × Yaml)) : List Param :=
  match (blockValue fields "headers").bind Yaml.asMapping with
  | some headers => pushOpt "host" (blockString headers "host")
  | none => []

def withMapping (yaml : SerdeNorway) (value : Text) (f : List (Yaml × Yaml) → List Param) :
    List Param :=
  (yamlMapping yaml value).elim [] f

def flattenWsOpts (yaml : SerdeNorway) (value : Text) : List Param :=
  withMapping yaml value fun fields =>
    pushOpt "path" (blockString fields "path") ++ blockHeaders fields

def isTlsOn (value : Text) : Bool :=
  isTruthyToggle value || eqIgnoreAsciiCase value "tls"

def translateUriParam (yaml : SerdeNorway) (scheme : Scheme) (param : Param) : List Param :=
  let key := toAsciiLowercase param.key
  let value := trim param.value
  if key = "servername" then push "sni" value
  else if key = "network" then push (if scheme = .vmess then "net" else "type") value
  else if key = "ws-path" then push "path" value
  else if key = "client-fingerprint" then push "fp" value
  else if key = "grpc-service-name" then push "servicename" value
  else if key = "fingerprint" then push "pinsha256" value
  else if key = "cipher" ∧ scheme = .vmess then push "scy" value
  else if key = "alterid" ∧ scheme = .vmess then push "aid" value
  else if key = "alpn" then push "alpn" (joinedAlpn yaml value)
  else if key = "tls" then
    match scheme with
    | .vless | .trojan => if isTlsOn value then push "security" "tls" else []
    | .vmess => if isTlsOn value then push "tls" "tls" else []
    | _ => [param]
  else if key = "skip-cert-verify" then
    if isTruthyToggle value then
      match scheme with
      | .vless | .trojan | .vmess => push "allowInsecure" "1"
      | .hysteria2 | .anyTls => push "insecure" "1"
      | _ => []
    else []
  else if key = "ws-opts" then flattenWsOpts yaml value
  else if key = "ws-headers" then
    withMapping yaml value fun fields => pushOpt "host" (blockString fields "host")
  else if key = "reality-opts" then
    withMapping yaml value fun fields =>
      pushOpt "pbk" (blockString fields "public-key" <|> blockString fields "public_key") ++
        pushOpt "sid" (blockString fields "short-id" <|> blockString fields "short_id")
  else if key = "grpc-opts" then
    withMapping yaml value fun fields =>
      pushOpt "servicename"
        (blockString fields "grpc-service-name" <|> blockString fields "serviceName")
  else if key = "h2-opts" then
    withMapping yaml value fun fields =>
      pushOpt "host" (blockString fields "host") ++ pushOpt "path" (blockString fields "path")
  else if key = "http-opts" then
    withMapping yaml value fun fields =>
      pushOpt "path" (blockString fields "path") ++ blockHeaders fields
  else if key = "obfs-opts" then
    withMapping yaml value fun fields =>
      pushOpt "obfs" (blockString fields "mode") ++ pushOpt "obfs-host" (blockString fields "host")
  else [param]

/-- Keeps the first parameter of each key, compared without case. -/
def retainFirst (seen : List Text) : List Param → List Param
  | [] => []
  | p :: rest =>
    let key := toAsciiLowercase p.key
    if key ∈ seen then retainFirst seen rest else p :: retainFirst (key :: seen) rest

/-- Rewrites the first `security` parameter, or adds one. -/
def forceReality : List Param → List Param
  | [] => push "security" "reality"
  | p :: rest =>
    if eqIgnoreAsciiCase p.key "security" then { p with value := "reality" } :: rest
    else p :: forceReality rest

def canonicalUriParams (yaml : SerdeNorway) (entry : ProxyEntry) : List Param :=
  let params := retainFirst [] (entry.params.flatMap (translateUriParam yaml entry.scheme))
  if (entry.scheme = .vless ∨ entry.scheme = .trojan) ∧ (realityPublicKey yaml entry).isSome then
    forceReality params
  else params

def canonicalUriEntry (yaml : SerdeNorway) (entry : ProxyEntry) : ProxyEntry :=
  { entry with params := canonicalUriParams yaml entry }

def stripLineBreaks (value : Text) : Text :=
  value.map fun c => if c = '\n' ∨ c = '\r' then ' ' else c

def sanitizeParam (p : Param) : Param :=
  { p with key := stripLineBreaks p.key, value := stripLineBreaks p.value }

/-- The name needs no treatment: every serializer encodes it. -/
def sanitizeForOutput (entry : ProxyEntry) : ProxyEntry :=
  { entry with
    host := stripLineBreaks entry.host
    credential := stripLineBreaks entry.credential
    rawPath := stripLineBreaks entry.rawPath
    params := entry.params.map sanitizeParam }

/-- The generic serializer with the scheme prefix swapped for the transport's. -/
def serializeNaive (entry : ProxyEntry) : Text :=
  let transport := (entry.param transportKey).getD "https"
  let stripped := { entry with params := entry.params.filter fun p => p.key ≠ transportKey }
  "naive+" ++ transport ++ "://" ++
    (serializeWithSpec naiveSpec stripped).drop naiveSpec.uriPrefix.length

/-- Entries without a source line are translated first. -/
def canonicalForm (yaml : SerdeNorway) (entry : ProxyEntry) : ProxyEntry :=
  if entry.rawLine = [] then canonicalUriEntry yaml entry else entry

def serialize (codecs : Codecs) (entry : ProxyEntry) : Text :=
  let entry := sanitizeForOutput (canonicalForm codecs.yaml entry)
  match entry.scheme with
  | .vless => serializeWithSpec vlessSpec entry
  | .trojan => serializeWithSpec trojanSpec entry
  | .hysteria2 => serializeWithSpec hysteria2Spec entry
  | .tuic => serializeWithSpec tuicSpec entry
  | .mieru => serializeWithSpec mieruSpec entry
  | .socks5 => serializeWithSpec socks5Spec entry
  | .snell => serializeWithSpec snellSpec entry
  | .anyTls => serializeWithSpec anyTlsSpec entry
  | .naive => serializeNaive entry
  | .ss => SsLine.serialize codecs.base64 entry
  | .vmess => VmessLine.serialize codecs.base64 codecs.json entry

end LineParser
