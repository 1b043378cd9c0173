import Fumox.FormatParams
import Fumox.JsonValue
import Fumox.UriGrammar

/-!
sing-box JSON output.  An entry is read into the options of an outbound, and an outbound is printed
as a JSON object; a scheme without a sing-box counterpart has no outbound.
-/

namespace SingboxWriter

open RustText ProxyModels FormatParams JsonValue YamlValue

abbrev Object := List (Text × Json)

structure TlsOptions where
  serverName : Option Text
  insecure : Bool
  alpn : Option (List Text)
  fingerprint : Option Text
  reality : Option (Option Text × Option Text)
  deriving DecidableEq, Repr

inductive Transport where
  | ws (path host : Option Text)
  | httpUpgrade (path host : Option Text)
  | grpc (serviceName : Option Text)
  | http (hosts : Option (List Text)) (path : Option Text)
  deriving DecidableEq, Repr

inductive Outbound where
  | vless (uuid : Text) (flow : Option Text) (tls : Option TlsOptions)
      (transport : Option Transport)
  | vmess (uuid cipher : Text) (alterId : ℕ) (tls : Option TlsOptions)
      (transport : Option Transport)
  | trojan (password : Text) (tls : TlsOptions) (transport : Option Transport)
  | shadowsocks (method password : Text) (plugin : Option (Text × Option Text))
  | hysteria2 (password : Text) (tls : TlsOptions) (obfs : Option (Text × Option Text))
      (upMbps downMbps : Option ℕ)
  | socks (username password : Option Text) (tls : Option TlsOptions)
  deriving DecidableEq, Repr

section Reading

variable (yaml : SerdeNorway) (entry : ProxyEntry)

def nonEmptyParam (key : Text) : Option Text :=
  (entry.param key).filter (· ≠ [])

/-- SNI under either spelling: `sni` of the URI family, `servername` of Clash YAML. -/
def sniOf : Option Text :=
  nonEmptyParam entry "sni" <|> paramValue entry "servername"

def securityIs (want : Text) : Bool :=
  (paramValue entry "security").any fun v => eqIgnoreAsciiCase v want

def tlsToggle (value : Text) : Option Bool :=
  if toAsciiLowercase (trim value) ∈ (["1", "true", "yes", "on", "tls"] : List Text) then some true
  else if toAsciiLowercase (trim value) ∈ (["0", "false", "no", "off"] : List Text) then some false
  else none

/-- An explicit `tls` toggle decides; without one, the TLS markers do. -/
def wantsTls : Bool :=
  match (paramValue entry "tls").bind tlsToggle with
  | some on => on
  | none =>
    (entry.param "security").getD [] == "tls" || (sniOf entry).isSome || isInsecure entry.params

def vmessTls : Bool :=
  (paramValue entry "tls").any (fun v => eqIgnoreAsciiCase v "tls") || paramTruthy entry "tls" ||
    securityIs entry "tls"

def minimalTls : TlsOptions where
  serverName := sniOf entry
  insecure := isInsecure entry.params
  alpn := none
  fingerprint := none
  reality := none

/-- The REALITY keys, when the entry has one of them. -/
def realityKeys : Option (Option Text × Option Text) :=
  let pbk := realityPublicKey yaml entry
  let sid := realityShortId yaml entry
  if pbk.isSome || sid.isSome then some (pbk, sid) else none

def tlsObject (reality : Bool) : TlsOptions where
  serverName := sniOf entry
  insecure := isInsecure entry.params
  alpn := paramList yaml entry "alpn"
  fingerprint := nonEmptyParam entry "fp"
  reality := if reality then realityKeys yaml entry else none

def splitHosts (host : Text) : List Text :=
  ((host.splitOn ',').map trim).filter (· ≠ [])

def transportObject (uriKey : Text) : Option Transport :=
  (networkOf entry uriKey).bind fun network =>
    if network = "ws" then some (.ws (paramValue entry "path") (paramValue entry "host"))
    else if network = "httpupgrade" then
      some (.httpUpgrade (paramValue entry "path") (paramValue entry "host"))
    else if network = "grpc" then
      some (.grpc (paramValue entry "serviceName" <|>
        if entry.scheme = .vmess then paramValue entry "path" else none))
    else if network = "h2" ∨ network = "http" then
      some (.http ((paramValue entry "host").map splitHosts) (paramValue entry "path"))
    else none

def wantsReality : Bool :=
  securityIs entry "reality" || (realityPublicKey yaml entry).isSome

def cipherOf : Text :=
  (paramValue entry "scy" <|> paramValue entry "cipher").getD "auto"

def alterIdText : Option Text :=
  paramValue entry "aid" <|> paramValue entry "alterId"

/-- A SIP003 value is the plugin name and the option string after it. -/
def splitPlugin (raw : Text) : Option (Text × Option Text) :=
  let (name, opts) := UriGrammar.splitOptional ';' raw
  if trim name = [] then none
  else some (trim name, (opts.map fun o => trimEndMatches ';' (trim o)).filter (· ≠ []))

/-- The digits at the front of a rate, without its unit. -/
def rateOf (value : Text) : Option ℕ :=
  parseU32 ((trim value).rdropWhile fun c => !c.isDigit)

def methodAndPassword (credential : Text) : Text × Text :=
  (splitOnce ':' credential).getD ("chacha20-ietf-poly1305", credential)

def nonEmpty (t : Text) : Option Text :=
  if t = [] then none else some t

def outboundOf : Option Outbound :=
  match entry.scheme with
  | .vless =>
    let reality := wantsReality yaml entry
    some (.vless entry.credential (nonEmptyParam entry "flow")
      (if reality || wantsTls entry then some (tlsObject yaml entry reality) else none)
      (transportObject entry "type"))
  | .vmess =>
    some (.vmess entry.credential (cipherOf entry) (((alterIdText entry).bind parseU64).getD 0)
      (if vmessTls entry then some (tlsObject yaml entry false) else none)
      (transportObject entry "net"))
  | .trojan =>
    some (.trojan entry.credential (tlsObject yaml entry (wantsReality yaml entry))
      (transportObject entry "type"))
  | .ss =>
    some (.shadowsocks (methodAndPassword entry.credential).1
      (methodAndPassword entry.credential).2 ((paramValue entry "plugin").bind splitPlugin))
  | .hysteria2 =>
    some (.hysteria2 entry.credential (tlsObject yaml entry false)
      ((nonEmptyParam entry "obfs").map fun obfs => (obfs, nonEmptyParam entry "obfs-password"))
      ((paramValue entry "upMbps" <|> paramValue entry "up").bind rateOf)
      ((paramValue entry "downMbps" <|> paramValue entry "down").bind rateOf))
  | .socks5 =>
    let parts := splitOnce ':' entry.credential
    some (.socks (parts.bind fun p => nonEmpty p.1) (parts.bind fun p => nonEmpty p.2)
      (if paramTruthy entry "tls" then some (minimalTls entry) else none))
  | .naive | .tuic | .mieru | .snell | .anyTls => none

end Reading

def field (key : Text) (value : Option Json) : Object :=
  value.elim [] fun v => [(key, v)]

def textField (key : Text) (value : Option Text) : Object :=
  field key (value.map .str)

def flagField (key : Text) (value : Bool) : Object :=
  field key (if value then some (.bool true) else none)

def listField (key : Text) (items : Option (List Text)) : Object :=
  field key (items.map fun l => .arr (l.map .str))

def numField (key : Text) (value : Option ℕ) : Object :=
  field key (value.map fun n => .num (.posInt n))

def objectField (key : Text) (value : Option Object) : Object :=
  field key (value.map .obj)

/-- Empty values were dropped when the entry was read; `enabled` is always true once emitted. -/
def TlsOptions.fields (tls : TlsOptions) : Object :=
  ("enabled", .bool true) :: (textField "server_name" tls.serverName ++
    flagField "insecure" tls.insecure ++ listField "alpn" tls.alpn ++
    objectField "utls" (tls.fingerprint.map fun fp =>
      [("enabled", .bool true), ("fingerprint", .str fp)]) ++
    objectField "reality" (tls.reality.map fun r =>
      ("enabled", .bool true) :: (textField "public_key" r.1 ++ textField "short_id" r.2)))

def Transport.fields : Transport → Object
  | ws path host =>
    ("type", .str "ws") :: (textField "path" path ++
      objectField "headers" (host.map fun h => [("Host", .str h)]))
  | httpUpgrade path host =>
    ("type", .str "httpupgrade") :: (textField "path" path ++ textField "host" host)
  | grpc serviceName => ("type", .str "grpc") :: textField "service_name" serviceName
  | http hosts path => ("type", .str "http") :: (listField "host" hosts ++ textField "path" path)

/-- The sing-box name of an outbound type. -/
def Outbound.kind : Outbound → Text
  | vless .. => "vless"
  | vmess .. => "vmess"
  | trojan .. => "trojan"
  | shadowsocks .. => "shadowsocks"
  | hysteria2 .. => "hysteria2"
  | socks .. => "socks"

def Outbound.options : Outbound → Object
  | vless uuid flow tls transport =>
    ("uuid", .str uuid) :: (textField "flow" flow ++ objectField "tls" (tls.map (·.fields)) ++
      objectField "transport" (transport.map (·.fields)))
  | vmess uuid cipher alterId tls transport =>
    ("uuid", .str uuid) :: ("security", .str cipher) :: ("alter_id", .num (.posInt alterId)) ::
      (objectField "tls" (tls.map (·.fields)) ++
        objectField "transport" (transport.map (·.fields)))
  | trojan password tls transport =>
    ("password", .str password) :: (objectField "tls" (some tls.fields) ++
      objectField "transport" (transport.map (·.fields)))
  | shadowsocks method password plugin =>
    ("method", .str method) :: ("password", .str password) ::
      (textField "plugin" (plugin.map (·.1)) ++ textField "plugin_opts" (plugin.bind (·.2)))
  | hysteria2 password tls obfs upMbps downMbps =>
    ("password", .str password) :: (objectField "tls" (some tls.fields) ++
      objectField "obfs" (obfs.map fun o => ("type", .str o.1) :: textField "password" o.2) ++
      numField "up_mbps" upMbps ++ numField "down_mbps" downMbps)
  | socks username password tls =>
    textField "username" username ++ textField "password" password ++
      objectField "tls" (tls.map (·.fields))

def Outbound.object (o : Outbound) (tag host : Text) (port : UInt16) : Object :=
  ("tag", .str tag) :: ("type", .str o.kind) :: ("server", .str host) ::
    ("server_port", .num (.posInt port.toNat)) :: o.options

def entryToOutboundNamed (yaml : SerdeNorway) (entry : ProxyEntry) (tag : Text) : Option Json :=
  (outboundOf yaml entry).map fun o => .obj (o.object tag entry.host entry.port)

def entryToOutbound (yaml : SerdeNorway) (entry : ProxyEntry) : Option Json :=
  entryToOutboundNamed yaml entry entry.name

end SingboxWriter
