import Fumox.PayloadGuards
import Fumox.UriGrammar
import Fumox.JsonValue

/-!
sing-box and Xray JSON input: the `outbounds` of both dialects become entries with the parameter
vocabulary of the URI parsers.
-/

namespace SingboxParser

open RustText ProxyModels PayloadGuards UriGrammar JsonValue

abbrev Object := List (Text × Json)

/-- Outbound types of the control plane. -/
def nonProxyTypes : List Text :=
  ["direct", "block", "dns", "selector", "urltest", "freedom", "blackhole", "loopback"]

inductive SingboxError where
  | missingField (field : Text)
  | portOutOfRange (image : Text)
  | invalidPort (port : Text)
  | missingSettings (field : Text)
  | noUsableEndpoint (kind : Text)
  | lineBreak (field : Text)
  | tooManyParams (count : ℕ)
  | oversizedField
  deriving DecidableEq, Repr

def strField (map : Object) (key : Text) : Option Text :=
  ((objectGet map key).bind Json.asStr).filter (· ≠ [])

def objField (map : Object) (key : Text) : Option Object :=
  (objectGet map key).bind Json.asObject

def boolField (map : Object) (key : Text) : Option Bool :=
  (objectGet map key).bind Json.asBool

def requiredStr (map : Object) (key : Text) : Except SingboxError Text :=
  (strField map key).elim (.error (.missingField key)) .ok

def numericField (map : Object) (key : Text) : Except SingboxError UInt16 :=
  match objectGet map key with
  | some (.num n) =>
    match n.asU64 with
    | some v => if v < 65536 then .ok (UInt16.ofNat v) else .error (.portOutOfRange n.image)
    | none => .error (.portOutOfRange n.image)
  | some (.str s) => (parseU16 (trim s)).elim (.error (.invalidPort s)) .ok
  | _ => .error (.missingField key)

def xrayTruthy (map : Object) (key : Text) : Bool :=
  match objectGet map key with
  | some (.bool b) => b
  | some (.str s) => toAsciiLowercase (trim s) = "true" || toAsciiLowercase (trim s) = "1"
  | _ => false

/-- A string, or the nonempty strings of an array joined by commas. -/
def stringOrJoinedArray (value : Option Json) : Option Text :=
  match value with
  | some (.str s) => if s = [] then none else some s
  | some (.arr items) =>
    let joined := [','].intercalate ((items.filterMap Json.asStr).filter (· ≠ []))
    if joined = [] then none else some joined
  | _ => none

def jsonToParamValue (json : SerdeJson) : Json → Text
  | .str s => s
  | .num n => n.image
  | .bool b => if b then "true" else "false"
  | .null => []
  | other => json.toStr other

def pushParam (known : Bool) (key value : Text) : List Param :=
  if value = [] then [] else [⟨key, value, known⟩]

def pushSome (known : Bool) (key : Text) (value : Option Text) : List Param :=
  value.elim [] (pushParam known key)

/-- Dialer knobs, which describe no proxy. -/
def clientSideFields : List Text := ["mux", "sockopt"]

def isNull : Json → Bool
  | .null => true
  | _ => false

/-- The fields that no builder consumed, as unknown parameters. -/
def leftovers (json : SerdeJson) (map : Object) (dropped : List Text) : List Param :=
  (map.filter fun f => !dropped.contains f.1 && !isNull f.2).flatMap fun f =>
    pushParam false f.1 (jsonToParamValue json f.2)

def passthrough (json : SerdeJson) (map : Object) (consumed : List Text) : List Param :=
  leftovers json map (consumed ++ clientSideFields)

def finish (scheme : Scheme) (name host : Text) (port : UInt16) (credential : Text)
    (params : List Param) : Except SingboxError ProxyEntry := do
  (rejectLineBreaks "sing-box: server" host).mapError .lineBreak
  (rejectLineBreaks "sing-box: credential" credential).mapError .lineBreak
  params.forM fun p =>
    (rejectLineBreaks ("sing-box: field " ++ p.key) p.value).mapError .lineBreak
  ensure (params.length ≤ maxQueryParams) (.tooManyParams params.length)
  params.forM fun p => (checkParamSize p.key p.value).mapError fun _ => .oversizedField
  return {
    scheme, name, host, port, credential, params
    rawPath := []
    rawLine := [] }

def nativeEndpoint (map : Object) : Except SingboxError (Text × UInt16) := do
  let host ← requiredStr map "server"
  let port ← numericField map "server_port"
  return (host, port)

/-- How a scheme spells TLS-on: `security=tls` in the URI family, `tls=tls` in vmess JSON. -/
inductive TlsSpelling where
  | security
  | tls

def spellTls (spelling : TlsSpelling) (realityOn : Bool) : List Param :=
  match spelling with
  | .security => pushParam true "security" (if realityOn then "reality" else "tls")
  | .tls => pushParam true "tls" "tls"

def nativeTlsParams (tls : Object) (spelling : TlsSpelling) : List Param :=
  let enabled := (boolField tls "enabled").getD false
  let reality := objField tls "reality"
  let realityKey := (reality.bind (strField · "public_key")).isSome
  let realityOn := realityKey || reality.any fun r => boolField r "enabled" == some true
  if !enabled && !realityOn then []
  else
    spellTls spelling realityOn ++
      (if realityOn then
        pushSome true "pbk" (reality.bind (strField · "public_key")) ++
          pushSome true "sid" (reality.bind (strField · "short_id"))
      else []) ++
      pushSome true "sni" (strField tls "server_name") ++
      (if boolField tls "insecure" == some true then pushParam true "insecure" "true" else []) ++
      pushSome true "alpn" (stringOrJoinedArray (objectGet tls "alpn")) ++
      pushSome true "fp" ((objField tls "utls").bind (strField · "fingerprint"))

def transportConsumed : List Text := ["type", "path", "host", "headers", "service_name"]

def nativeTransportParams (json : SerdeJson) (transport : Object) (networkKey : Text) :
    List Param :=
  (strField transport "type").elim [] fun network =>
    pushParam true networkKey network ++
      (if network = "ws" then
        pushSome true "path" (strField transport "path") ++
          pushSome true "host" ((objField transport "headers").bind fun headers =>
            (objectGet headers "Host").bind Json.asStr)
      else if network = "httpupgrade" then
        pushSome true "path" (strField transport "path") ++
          pushSome true "host" (strField transport "host")
      else if network = "grpc" then
        pushSome true "serviceName" (strField transport "service_name")
      else if network = "http" ∨ network = "h2" then
        pushSome true "host" (stringOrJoinedArray (objectGet transport "host")) ++
          pushSome true "path" (strField transport "path")
      else []) ++
      leftovers json transport transportConsumed

/-- The `tls` and `transport` objects of an outbound. -/
def nativeStreamParams (json : SerdeJson) (map : Object) (spelling : TlsSpelling)
    (networkKey : Text) : List Param :=
  (objField map "tls").elim [] (nativeTlsParams · spelling) ++
    (objField map "transport").elim [] (nativeTransportParams json · networkKey)

def nativeVless (json : SerdeJson) (map : Object) (name : Text) :
    Except SingboxError ProxyEntry := do
  let (host, port) ← nativeEndpoint map
  let credential ← requiredStr map "uuid"
  let params := pushSome true "flow" (strField map "flow") ++
    nativeStreamParams json map .security "type" ++
    passthrough json map ["tag", "type", "server", "server_port", "uuid", "flow", "tls",
      "transport"]
  finish .vless name host port credential params

def nativeVmess (json : SerdeJson) (map : Object) (name : Text) :
    Except SingboxError ProxyEntry := do
  let (host, port) ← nativeEndpoint map
  let credential ← requiredStr map "uuid"
  let params := pushSome true "scy" (strField map "security") ++
    pushSome true "aid" ((objectGet map "alter_id").map (jsonToParamValue json)) ++
    nativeStreamParams json map .tls "net" ++
    passthrough json map ["tag", "type", "server", "server_port", "uuid", "security", "alter_id",
      "tls", "transport"]
  finish .vmess name host port credential params

def nativeTrojan (json : SerdeJson) (map : Object) (name : Text) :
    Except SingboxError ProxyEntry := do
  let (host, port) ← nativeEndpoint map
  let credential ← requiredStr map "password"
  let params := nativeStreamParams json map .security "type" ++
    passthrough json map ["tag", "type", "server", "server_port", "password", "tls", "transport"]
  finish .trojan name host port credential params

/-- The SIP003 string of a plugin and its options. -/
def pluginValue (plugin opts : Text) : Text :=
  if opts = [] then plugin else plugin ++ ';' :: opts

def nativeSs (json : SerdeJson) (map : Object) (name : Text) :
    Except SingboxError ProxyEntry := do
  let (host, port) ← nativeEndpoint map
  let method ← requiredStr map "method"
  let password := (strField map "password").getD []
  let opts := (strField map "plugin_opts").getD []
  let params := pushSome true "plugin" ((strField map "plugin").map (pluginValue · opts)) ++
    passthrough json map ["tag", "type", "server", "server_port", "method", "password", "plugin",
      "plugin_opts"]
  finish .ss name host port (method ++ ':' :: password) params

def rateParam (map : Object) (key out : Text) : List Param :=
  pushSome true out (((objectGet map key).bind Json.asU64).map decimal)

def nativeHysteria2 (json : SerdeJson) (map : Object) (name : Text) :
    Except SingboxError ProxyEntry := do
  let (host, port) ← nativeEndpoint map
  let credential ← requiredStr map "password"
  let params := (objField map "tls").elim [] (nativeTlsParams · .security) ++
    pushSome true "obfs" ((objField map "obfs").bind (strField · "type")) ++
    pushSome true "obfs-password" ((objField map "obfs").bind (strField · "password")) ++
    rateParam map "up_mbps" "upMbps" ++ rateParam map "down_mbps" "downMbps" ++
    passthrough json map ["tag", "type", "server", "server_port", "password", "tls", "obfs",
      "up_mbps", "down_mbps"]
  finish .hysteria2 name host port credential params

def socksTlsParams (tls : Object) : List Param :=
  if boolField tls "enabled" == some true then
    pushParam true "tls" "true" ++ pushSome true "sni" (strField tls "server_name") ++
      (if boolField tls "insecure" == some true then pushParam true "insecure" "true" else [])
  else []

def nativeSocks (json : SerdeJson) (map : Object) (name : Text) :
    Except SingboxError ProxyEntry := do
  let (host, port) ← nativeEndpoint map
  let user := (strField map "username").getD []
  let password := (strField map "password").getD []
  let params := (objField map "tls").elim [] socksTlsParams ++
    passthrough json map ["tag", "type", "server", "server_port", "username", "password", "tls",
      "version"]
  finish .socks5 name host port (user ++ ':' :: password) params

def xrayTopLevelConsumed : List Text := ["tag", "protocol", "settings", "streamSettings", "mux"]

def xraySettingsList (map : Object) (field : Text) : Except SingboxError (List Object) :=
  ((objField map "settings").bind fun settings => (objectGet settings field).bind Json.asArray).elim
    (.error (.missingSettings field)) fun items => .ok (items.filterMap Json.asObject)

def xrayEndpoint (map : Object) : Except SingboxError (Text × UInt16) := do
  let host ← requiredStr map "address"
  let port ← numericField map "port"
  return (host, port)

def xrayUsers (map : Object) : List Object :=
  (((objectGet map "users").bind Json.asArray).getD []).filterMap Json.asObject

def xraySecurityParams (stream : Object) (spelling : TlsSpelling) : List Param :=
  if strField stream "security" = some "tls" then
    spellTls spelling false ++
      (objField stream "tlsSettings").elim [] fun tls =>
        pushSome true "sni" (strField tls "serverName") ++
          pushSome true "fp" (strField tls "fingerprint") ++
          pushSome true "alpn" (stringOrJoinedArray (objectGet tls "alpn")) ++
          (if xrayTruthy tls "allowInsecure" then pushParam true "insecure" "true" else [])
  else if strField stream "security" = some "reality" then
    spellTls spelling true ++
      (objField stream "realitySettings").elim [] fun reality =>
        pushSome true "sni" (strField reality "serverName") ++
          pushSome true "fp" (strField reality "fingerprint") ++
          pushSome true "pbk" (strField reality "publicKey") ++
          pushSome true "sid" (strField reality "shortId") ++
          (if xrayTruthy reality "allowInsecure" then pushParam true "insecure" "true" else [])
  else []

def hostHeader (map : Object) : Option Text :=
  (objField map "headers").bind fun headers => stringOrJoinedArray (objectGet headers "Host")

/-- TCP is stored only when it carries HTTP obfuscation. -/
def xrayTcpParams (stream : Object) (networkKey : Text) : List Param :=
  match (objField stream "tcpSettings").bind (objField · "header") with
  | some header =>
    if strField header "type" = some "http" then
      pushParam true networkKey "tcp" ++ pushParam true "headertype" "http" ++
        (objField header "request").elim [] fun request =>
          pushSome true "path" (stringOrJoinedArray (objectGet request "path")) ++
            pushSome true "host" (hostHeader request)
    else []
  | none => []

def xrayNetworkParams (json : SerdeJson) (stream : Object) (network networkKey : Text) :
    List Param :=
  if network = "ws" then
    (objField stream "wsSettings").elim [] fun ws =>
      pushSome true "path" (strField ws "path") ++ pushSome true "host" (hostHeader ws)
  else if network = "grpc" then
    pushSome true "serviceName" ((objField stream "grpcSettings").bind (strField · "serviceName"))
  else if network = "http" ∨ network = "h2" then
    (objField stream "httpSettings").elim [] fun http =>
      pushSome true "host" (stringOrJoinedArray (objectGet http "host")) ++
        pushSome true "path" (strField http "path")
  else if network = "httpupgrade" then
    (objField stream "httpupgradeSettings").elim [] fun upgrade =>
      pushSome true "path" (strField upgrade "path") ++
        pushSome true "host" (strField upgrade "host")
  else if network = "xhttp" ∨ network = "splithttp" then
    (objField stream "xhttpSettings").elim [] fun xhttp =>
      pushSome true "host" (strField xhttp "host") ++ pushSome true "path" (strField xhttp "path") ++
        pushSome true "mode" (strField xhttp "mode") ++
        pushSome false "extra" ((objectGet xhttp "extra").map (jsonToParamValue json))
  else if network = "tcp" then xrayTcpParams stream networkKey
  else []

def xrayStreamParams (json : SerdeJson) (map : Object) (networkKey : Text)
    (spelling : TlsSpelling) : List Param :=
  (objField map "streamSettings").elim [] fun stream =>
    let network := (strField stream "network").getD "tcp"
    (if network = "tcp" then [] else pushParam true networkKey network) ++
      xraySecurityParams stream spelling ++ xrayNetworkParams json stream network networkKey

/-- An encryption that is not spelled `none`. -/
def encryptionParam (user : Object) : List Param :=
  pushSome true "encryption" ((strField user "encryption").filter fun e => e ≠ "none")

def xrayVlessUser (json : SerdeJson) (map user : Object) (name host : Text) (port : UInt16) :
    Except SingboxError ProxyEntry := do
  let id ← requiredStr user "id"
  let params := pushSome true "flow" (strField user "flow") ++ encryptionParam user ++
    xrayStreamParams json map "type" .security ++ passthrough json map xrayTopLevelConsumed
  finish .vless name host port id params

def xrayVmessUser (json : SerdeJson) (map user : Object) (name host : Text) (port : UInt16) :
    Except SingboxError ProxyEntry := do
  let id ← requiredStr user "id"
  let params := pushSome true "scy" (strField user "security") ++
    pushSome true "aid" ((objectGet user "alterId").map (jsonToParamValue json)) ++
    encryptionParam user ++ xrayStreamParams json map "net" .tls ++
    passthrough json map xrayTopLevelConsumed
  finish .vmess name host port id params

def xrayTrojanServer (json : SerdeJson) (map server : Object) (name : Text) :
    Except SingboxError ProxyEntry := do
  let (host, port) ← xrayEndpoint server
  let credential ← requiredStr server "password"
  let params := xrayStreamParams json map "type" .security ++
    passthrough json map xrayTopLevelConsumed
  finish .trojan name host port credential params

def xraySsServer (json : SerdeJson) (map server : Object) (name : Text) :
    Except SingboxError ProxyEntry := do
  let (host, port) ← xrayEndpoint server
  let method ← requiredStr server "method"
  let password := (strField server "password").getD []
  let settings := objField map "settings"
  let plugin := settings.bind fun s => (objectGet s "plugin").bind Json.asStr
  let opts := (settings.bind fun s => (objectGet s "pluginOpts").bind Json.asStr).getD []
  let params := pushSome true "plugin" (plugin.map (pluginValue · opts)) ++
    passthrough json map xrayTopLevelConsumed
  finish .ss name host port (method ++ ':' :: password) params

def xraySocksUser (json : SerdeJson) (map : Object) (name host : Text) (port : UInt16)
    (credential : Text × Text) : Except SingboxError ProxyEntry :=
  finish .socks5 name host port (credential.1 ++ ':' :: credential.2)
    (passthrough json map xrayTopLevelConsumed)

/-- A server without users is one proxy without authentication. -/
def xraySocksCredentials (server : Object) : List (Text × Text) :=
  let users := (xrayUsers server).map fun user =>
    ((strField user "user").getD [], (strField user "pass").getD [])
  if users = [] then [([], [])] else users

def xraySocksServer (json : SerdeJson) (map server : Object) (name : Text) : List ProxyEntry :=
  match strField server "address" <|> strField server "addr", numericField server "port" with
  | some host, .ok port =>
    (xraySocksCredentials server).filterMap fun credential =>
      (xraySocksUser json map name host port credential).toOption
  | _, _ => []

/-- An outbound is invalid only when none of its endpoints yields an entry. -/
def usable (kind : Text) (endpoints : List Object) (entries : List ProxyEntry) :
    Except SingboxError (List ProxyEntry) :=
  if endpoints ≠ [] ∧ entries = [] then .error (.noUsableEndpoint kind) else .ok entries

def xrayUserEntries (build : Object → Text → UInt16 → Except SingboxError ProxyEntry)
    (endpoint : Object) : List ProxyEntry :=
  match xrayEndpoint endpoint with
  | .ok (host, port) => (xrayUsers endpoint).filterMap fun user => (build user host port).toOption
  | .error _ => []

def xrayVless (json : SerdeJson) (map : Object) (name : Text) :
    Except SingboxError (List ProxyEntry) := do
  let vnext ← xraySettingsList map "vnext"
  usable "vless" vnext (vnext.flatMap
    (xrayUserEntries fun user => xrayVlessUser json map user name))

def xrayVmess (json : SerdeJson) (map : Object) (name : Text) :
    Except SingboxError (List ProxyEntry) := do
  let vnext ← xraySettingsList map "vnext"
  usable "vmess" vnext (vnext.flatMap
    (xrayUserEntries fun user => xrayVmessUser json map user name))

def xrayTrojan (json : SerdeJson) (map : Object) (name : Text) :
    Except SingboxError (List ProxyEntry) := do
  let servers ← xraySettingsList map "servers"
  usable "trojan" servers (servers.filterMap fun server =>
    (xrayTrojanServer json map server name).toOption)

def xraySs (json : SerdeJson) (map : Object) (name : Text) :
    Except SingboxError (List ProxyEntry) := do
  let servers ← xraySettingsList map "servers"
  usable "shadowsocks" servers (servers.filterMap fun server =>
    (xraySsServer json map server name).toOption)

def xraySocks (json : SerdeJson) (map : Object) (name : Text) :
    Except SingboxError (List ProxyEntry) := do
  let servers ← xraySettingsList map "servers"
  usable "socks" servers (servers.flatMap fun server => xraySocksServer json map server name)

structure SingBoxParseResult where
  entries : List ProxyEntry := []
  unsupported : ℕ := 0
  invalid : ℕ := 0

def buildNative (json : SerdeJson) (map : Object) (kind name : Text) :
    Option (Except SingboxError (List ProxyEntry)) :=
  let one := fun e : Except SingboxError ProxyEntry => some (e.map fun entry => [entry])
  if kind = "vless" then one (nativeVless json map name)
  else if kind = "vmess" then one (nativeVmess json map name)
  else if kind = "trojan" then one (nativeTrojan json map name)
  else if kind = "shadowsocks" then one (nativeSs json map name)
  else if kind = "hysteria2" then one (nativeHysteria2 json map name)
  else if kind = "socks" ∨ kind = "socks5" then one (nativeSocks json map name)
  else none

def buildXray (json : SerdeJson) (map : Object) (kind name : Text) :
    Option (Except SingboxError (List ProxyEntry)) :=
  if kind = "vless" then some (xrayVless json map name)
  else if kind = "vmess" then some (xrayVmess json map name)
  else if kind = "trojan" then some (xrayTrojan json map name)
  else if kind = "shadowsocks" then some (xraySs json map name)
  else if kind = "socks" then some (xraySocks json map name)
  else none

def buildOutbound (json : SerdeJson) (map : Object) (native : Bool) (kind name : Text) :
    Option (Except SingboxError (List ProxyEntry)) :=
  if native then buildNative json map kind name else buildXray json map kind name

/-- The dialect of an outbound: sing-box spells its kind `type`, Xray `protocol`. -/
def outboundKind (map : Object) : Option (Bool × Text) :=
  (((objectGet map "type").bind Json.asStr).map fun kind => (true, kind)) <|>
    ((objectGet map "protocol").bind Json.asStr).map fun kind => (false, kind)

def parseOutbound (json : SerdeJson) (result : SingBoxParseResult) (outbound : Json) :
    SingBoxParseResult :=
  match outbound with
  | .obj map =>
    match outboundKind map with
    | none => { result with invalid := result.invalid + 1 }
    | some (native, kind) =>
      if kind ∈ nonProxyTypes then result
      else
        match buildOutbound json map native kind (((objectGet map "tag").bind Json.asStr).getD []) with
        | none => { result with unsupported := result.unsupported + 1 }
        | some (.ok entries) => { result with entries := result.entries ++ entries }
        | some (.error _) => { result with invalid := result.invalid + 1 }
  | _ => { result with invalid := result.invalid + 1 }

/-- The outbounds of one config; `none` when it has none. -/
def harvest (json : SerdeJson) (config : Object) (result : SingBoxParseResult) :
    Option SingBoxParseResult :=
  ((objectGet config "outbounds").bind Json.asArray).map
    fun outbounds => outbounds.foldl (parseOutbound json) result

inductive PayloadError where
  | invalidJson
  | notAConfig
  | noOutbounds

def harvestConfig (json : SerdeJson) (acc : Bool × SingBoxParseResult) (config : Json) :
    Bool × SingBoxParseResult :=
  match config.asObject.bind (harvest json · acc.2) with
  | some result => (true, result)
  | none => acc

def harvestAll (json : SerdeJson) (configs : List Json) : Bool × SingBoxParseResult :=
  configs.foldl (harvestConfig json) (false, {})

def parsePayload (json : SerdeJson) (payload : Text) : Except PayloadError SingBoxParseResult := do
  let root ← (json.fromStr payload).elim (.error .invalidJson) .ok
  match root with
  | .obj config => (harvest json config {}).elim (.error .noOutbounds) .ok
  | .arr configs =>
    if (harvestAll json configs).1 then .ok (harvestAll json configs).2 else .error .noOutbounds
  | _ => .error .notAConfig

end SingboxParser
