import Fumox.SingboxParser

/-!
The harvest of an Xray outbound.  The loops of the five branches, with their accumulators, give the
usable pairs of an endpoint and a user in document order.
-/

namespace XrayHarvest

open RustText ProxyModels JsonValue SingboxParser

inductive XrayProtocol where
  | vless | vmess | trojan | shadowsocks | socks
  deriving DecidableEq, Repr

def XrayProtocol.kind : XrayProtocol → Text
  | .vless => "vless"
  | .vmess => "vmess"
  | .trojan => "trojan"
  | .shadowsocks => "shadowsocks"
  | .socks => "socks"

/-- The array of endpoints in `settings`. -/
def XrayProtocol.field : XrayProtocol → Text
  | .vless | .vmess => "vnext"
  | .trojan | .shadowsocks | .socks => "servers"

/-- What one endpoint offers: its users, or itself where the credential stands in the endpoint. A
socks server without users is one proxy without authentication. -/
def pairs (protocol : XrayProtocol) (endpoint : Object) : List (Object × Option Object) :=
  match protocol with
  | .vless | .vmess => (xrayUsers endpoint).map fun user => (endpoint, some user)
  | .trojan | .shadowsocks => [(endpoint, none)]
  | .socks =>
    if xrayUsers endpoint = [] then [(endpoint, none)]
    else (xrayUsers endpoint).map fun user => (endpoint, some user)

section Loops

variable {json : SerdeJson} {map : Object} {name : Text}

/-- Endpoints that differ in their users at most. -/
def SameEndpoint (endpoint other : Object) : Prop :=
  ∀ key, key ≠ ("users" : Text) → objectGet endpoint key = objectGet other key

def endpoints (protocol : XrayProtocol) (map : Object) : List Object :=
  (xraySettingsList map protocol.field).toOption.getD []

end Loops

section Outbound

variable {json : SerdeJson} {result : SingBoxParseResult} {map : Object} {protocol : XrayProtocol}

end Outbound

section Samples

def noJson : SerdeJson := ⟨fun _ => [], fun _ => none⟩

end Samples

end XrayHarvest
