import Fumox.Base64Text
import Fumox.PayloadGuards
import Fumox.UriGrammar

/-!
Shadowsocks lines: the SIP002 form, the legacy form, and the serializer to SIP002.
-/

namespace SsLine

open RustText PercentText ProxyModels UriGrammar PayloadGuards Base64Text

inductive SsError where
  | uri (e : UriError)
  | invalidBase64
  | nonUtf8
  | missingAt
  | notMethodPassword
  | lineBreak (field : Text)
  deriving DecidableEq, Repr

def normalizeAlphabet (input : Text) : Text :=
  input.map fun c => if c = '-' then '+' else if c = '_' then '/' else c

/-- Accepts both alphabets, with or without padding. -/
def decodeB64Lenient (base64 : Base64) (input : Text) : Option (List UInt8) :=
  if input = [] then none
  else
    let normalized := normalizeAlphabet input
    let length := (bytes normalized).length
    if length % 4 = 1 then none else base64.decode (normalized ++ padding length)

structure SsServer where
  credential : Text
  host : Text
  port : UInt16
  rawPath : Text

def decodeText (base64 : Base64) (input : Text) : Except SsError Text := do
  let decoded ← (decodeB64Lenient base64 input).elim (.error .invalidBase64) .ok
  (fromUtf8 decoded).elim (.error .nonUtf8) .ok

def parseSip002 (base64 : Base64) (beforeQuery : Text) : Except SsError SsServer := do
  let (userinfo, hostportPath) ← (rsplitOnce '@' beforeQuery).elim (.error .missingAt) .ok
  let credential ← decodeText base64 userinfo
  ensure (':' ∈ credential) .notMethodPassword
  (rejectLineBreaks "ss: credential" credential).mapError .lineBreak
  let (hostport, rawPath) := splitPath hostportPath
  let (host, port) ← (parseHostport hostport).mapError .uri
  return { credential, host, port, rawPath }

def parseLegacy (base64 : Base64) (beforeQuery : Text) : Except SsError SsServer := do
  let decoded ← decodeText base64 beforeQuery
  let (credential, hostport) ← (rsplitOnce '@' decoded).elim (.error .missingAt) .ok
  ensure (':' ∈ credential) .notMethodPassword
  (rejectLineBreaks "ss: credential" credential).mapError .lineBreak
  let (host, port) ← (parseHostport hostport).mapError .uri
  (rejectLineBreaks "ss: host" host).mapError .lineBreak
  return { credential, host, port, rawPath := [] }

def parseServer (base64 : Base64) (beforeQuery : Text) : Except SsError SsServer :=
  if '@' ∈ beforeQuery then parseSip002 base64 beforeQuery else parseLegacy base64 beforeQuery

/-- The part of a line after `ss://`. -/
def parse (base64 : Base64) (rest rawLine : Text) : Except SsError ProxyEntry := do
  let (beforeFrag, fragment) := splitFragment rest
  let (beforeQuery, query) := splitQuery beforeFrag
  let server ← parseServer base64 beforeQuery
  let params ← (query.elim (.ok []) parseQuery).mapError .uri
  return {
    scheme := .ss
    name := (fragment.map percentDecode).getD []
    host := server.host
    port := server.port
    credential := server.credential
    params := markKnown params []
    rawPath := server.rawPath
    rawLine }

/-- A credential without a method is given the default one. -/
def exportedCredential (credential : Text) : Text :=
  if ':' ∈ credential then credential else "chacha20-ietf-poly1305:" ++ credential

def serialize (base64 : Base64) (entry : ProxyEntry) : Text :=
  "ss://" ++ base64.encode (bytes (exportedCredential entry.credential)) ++
    '@' :: serializeEndpoint entry

end SsLine
