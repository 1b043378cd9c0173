import Fumox.PercentText
import Fumox.ProxyModels

/-!
The tolerant URI grammar shared by the line-oriented schemes: split rules, parameter queries, and
the generic parser and serializer of the `userinfo@host:port[?query][#name]` family.
-/

namespace UriGrammar

open RustText PercentText ProxyModels

/-- Scheme-specific behaviour of the generic parser and serializer. -/
structure UriSchemeSpec where
  scheme : Scheme
  uriPrefix : Text
  knownKeys : List Text
  credentialRequired : Bool

def vlessSpec : UriSchemeSpec where
  scheme := .vless
  uriPrefix := "vless://"
  knownKeys := ["security", "encryption", "type", "headertype", "path", "host", "mode", "sni",
    "fp", "pbk", "sid", "spx", "flow", "alpn", "servicename", "congestioncontrol",
    "packetencoding", "allowinsecure", "insecure", "authority"]
  credentialRequired := true

def trojanSpec : UriSchemeSpec where
  scheme := .trojan
  uriPrefix := "trojan://"
  knownKeys := ["security", "type", "headertype", "path", "host", "sni", "fp", "pbk", "sid",
    "flow", "alpn", "encryption", "allowinsecure", "insecure"]
  credentialRequired := true

def hysteria2Spec : UriSchemeSpec where
  scheme := .hysteria2
  uriPrefix := "hysteria2://"
  knownKeys := ["sni", "insecure", "allowinsecure", "obfs", "obfs-password", "alpn", "upmbps",
    "downmbps", "pinsha256"]
  credentialRequired := true

def tuicSpec : UriSchemeSpec where
  scheme := .tuic
  uriPrefix := "tuic://"
  knownKeys := ["congestion_control", "sni", "alpn", "udp_relay_mode", "disable_sni"]
  credentialRequired := true

def mieruSpec : UriSchemeSpec where
  scheme := .mieru
  uriPrefix := "mieru://"
  knownKeys := ["sni"]
  credentialRequired := true

def socks5Spec : UriSchemeSpec where
  scheme := .socks5
  uriPrefix := "socks5://"
  knownKeys := []
  credentialRequired := false

def snellSpec : UriSchemeSpec where
  scheme := .snell
  uriPrefix := "snell://"
  knownKeys := ["version", "mode", "obfs", "obfs-host", "reuse", "udp"]
  credentialRequired := true

def anyTlsSpec : UriSchemeSpec where
  scheme := .anyTls
  uriPrefix := "anytls://"
  knownKeys := ["sni", "alpn", "fp", "insecure", "allowinsecure", "udp"]
  credentialRequired := true

def naiveSpec : UriSchemeSpec where
  scheme := .naive
  uriPrefix := "naive+https://"
  knownKeys := ["sni", "naive_transport"]
  credentialRequired := true

/-- Why a line is rejected, with the values that the message shows. -/
inductive UriError where
  | emptyHost
  | unclosedBracket
  | portAfterLiteral
  | missingPort
  | invalidPort (port : Text)
  | tooManyParams (count : ℕ)
  | oversizedParam (keyBytes valueBytes : ℕ)
  | missingCredential
  deriving DecidableEq, Repr

structure UriParts where
  userinfo : Option Text
  host : Text
  port : UInt16
  rawPath : Text
  queryPairs : List Param
  fragment : Option Text
  deriving DecidableEq, Repr

/-- An IPv6 literal is bracketed in front of a port. -/
def hostForUri (host : Text) : Text :=
  if ':' ∈ host ∧ host.head? ≠ some '[' then '[' :: (host ++ [']']) else host

/-- Everything after the first separator is optional. -/
def splitOptional (c : Char) (s : Text) : Text × Option Text :=
  match splitOnce c s with
  | some (before, after) => (before, some after)
  | none => (s, none)

def splitFragment (s : Text) : Text × Option Text :=
  splitOptional '#' s

def splitQuery (s : Text) : Text × Option Text :=
  splitOptional '?' s

/-- The userinfo ends at the last `@`. -/
def splitUserinfo (s : Text) : Option Text × Text :=
  match rsplitOnce '@' s with
  | some (userinfo, rest) => (some userinfo, rest)
  | none => (none, s)

/-- The path starts at the first slash and keeps it. -/
def splitPath (s : Text) : Text × Text :=
  match splitOnce '/' s with
  | some (before, after) => (before, '/' :: after)
  | none => (s, [])

def splitHostport (s : Text) : Except UriError (Text × Text) :=
  match s with
  | [] => .error .emptyHost
  | '[' :: stripped =>
    match splitOnce ']' stripped with
    | none => .error .unclosedBracket
    | some (host, ':' :: port) => .ok (host, port)
    | some _ => .error .portAfterLiteral
  | s =>
    match rsplitOnce ':' s with
    | none => .error .missingPort
    | some hostport => .ok hostport

def parseHostport (s : Text) : Except UriError (Text × UInt16) := do
  let (host, portStr) ← splitHostport s
  if host = [] then throw .emptyHost
  match parseU16 portStr with
  | some port => return (host, port)
  | none => throw (.invalidPort portStr)

def maxQueryParams : ℕ := 256

def maxParamBytes : ℕ := 8 * 1024

def maxLineBytes : ℕ := 64 * 1024

def checkParamSize (key value : Text) : Except UriError Unit :=
  if maxParamBytes < (bytes key).length ∨ maxParamBytes < (bytes value).length then
    .error (.oversizedParam (bytes key).length (bytes value).length)
  else .ok ()

def parsePair (pair : Text) : Except UriError Param := do
  let (key, value) := (splitOnce '=' pair).getD (pair, [])
  checkParamSize key value
  return ⟨key, value, false⟩

def parseQuery (query : Text) : Except UriError (List Param) :=
  let pairs := query.splitOn '&'
  if maxQueryParams < pairs.length then .error (.tooManyParams pairs.length)
  else pairs.mapM parsePair

def splitUri (rest : Text) : Except UriError UriParts := do
  let (beforeFrag, fragment) := splitFragment rest
  let (beforeQuery, query) := splitQuery beforeFrag
  let (userinfo, hostportPath) := splitUserinfo beforeQuery
  let (hostport, rawPath) := splitPath hostportPath
  let (host, port) ← parseHostport hostport
  let queryPairs ← query.elim (.ok []) parseQuery
  return { userinfo, host, port, rawPath, queryPairs, fragment }

/-- A character with structural meaning in an emitted query, or one that no URI may carry. -/
def mustEncode (ch : Char) (inKey : Bool) : Bool :=
  ch = '&' || ch = '#' || ch = ' ' || ch = '\x7f' || isControl ch || (inKey && ch = '=')

def encodeQueryChar (inKey : Bool) (ch : Char) : Text :=
  if mustEncode ch inKey then (String.utf8EncodeChar ch).flatMap percentByte else [ch]

def encodeQueryChars (raw : Text) (inKey : Bool) : Text :=
  raw.flatMap (encodeQueryChar inKey)

def serializePair (p : Param) : Text :=
  if p.key = [] ∧ p.value = [] then []
  else encodeQueryChars p.key true ++ '=' :: encodeQueryChars p.value false

def serializeQuery (params : List Param) : Text :=
  ['&'].intercalate (params.map serializePair)

def isUnreserved (b : UInt8) : Bool :=
  let n := b.toNat
  (48 ≤ n && n ≤ 57) || (65 ≤ n && n ≤ 90) || (97 ≤ n && n ≤ 122) || n = 45 || n = 46 || n = 95 ||
    n = 126

def encodeFragmentByte (b : UInt8) : Text :=
  if isUnreserved b then [Char.ofNat b.toNat] else percentByte b

def encodeFragment (name : Text) : Text :=
  (bytes name).flatMap encodeFragmentByte

def markKnown (params : List Param) (knownKeys : List Text) : List Param :=
  params.map fun p => { p with known := knownKeys.contains (toAsciiLowercase p.key) }

def parseWithSpec (spec : UriSchemeSpec) (rest rawLine : Text) : Except UriError ProxyEntry := do
  let parts ← splitUri rest
  let credential ← match parts.userinfo with
    | some userinfo => pure userinfo
    | none => if spec.credentialRequired then throw .missingCredential else pure []
  return {
    scheme := spec.scheme
    name := (parts.fragment.map percentDecode).getD []
    host := parts.host
    port := parts.port
    credential
    params := markKnown parts.queryPairs spec.knownKeys
    rawPath := parts.rawPath
    rawLine }

def queryText : Option Text → Text
  | none => []
  | some query => '?' :: query

def fragmentText : Option Text → Text
  | none => []
  | some fragment => '#' :: fragment

def exportedQuery (params : List Param) : Option Text :=
  if params = [] then none else some (serializeQuery params)

def exportedFragment (name : Text) : Option Text :=
  if name = [] then none else some (encodeFragment name)

/-- What every serializer of the family prints from the host on. -/
def serializeEndpoint (entry : ProxyEntry) : Text :=
  hostForUri entry.host ++ ':' :: (decimal entry.port.toNat ++ entry.rawPath ++
    queryText (exportedQuery entry.params) ++ fragmentText (exportedFragment entry.name))

def serializeWithSpec (spec : UriSchemeSpec) (entry : ProxyEntry) : Text :=
  let userinfo := if entry.credential = [] then [] else entry.credential ++ ['@']
  spec.uriPrefix ++ userinfo ++ serializeEndpoint entry

end UriGrammar
