import Fumox.ClashReading
import Fumox.SingboxReading

/-!
The mihomo and the sing-box output of one entry, compared by what a client reads from them.
-/

namespace WriterAgreement

open RustText ProxyModels FormatParams JsonValue YamlValue OptionalFields ClashReading

structure Description where
  tls : Bool
  serverName : Option Text
  skipVerify : Bool
  cipher : Option Text
  alterId : Option Number
  transport : Option Text
  deriving DecidableEq, Repr

def asNumber : Yaml → Option Number
  | .num n => some n
  | _ => none

def asJsonNumber : Json → Option Number
  | .num n => some n
  | _ => none

def isTrue : Yaml → Bool
  | .bool b => b
  | _ => false

section Clash

variable (fields : List (Yaml × Yaml))

def textOf (key : Text) : Option Text :=
  (mapGet fields key).bind Yaml.asStr

def flagOf (key : Text) : Bool :=
  (mapGet fields key).any isTrue

/-- WebSocket with the upgrade flag is httpupgrade; sing-box spells HTTP/2 and plain HTTP alike. -/
def clashTransport (network : Text) : Text :=
  if network = "ws" ∧ (((mapGet fields "ws-opts").bind Yaml.asMapping).any
      (flagOf · "v2ray-http-upgrade")) = true then "httpupgrade"
  else if network = "h2" then "http"
  else network

def impliedTls : List Text := ["trojan", "hysteria2"]

/-- mihomo reads the server name of vless and vmess under `servername`, that of the types with
implied TLS under `sni`. -/
def describeClash : Description where
  tls := (textOf fields "type").any impliedTls.contains || flagOf fields "tls"
  serverName := textOf fields "servername" <|> textOf fields "sni"
  skipVerify := flagOf fields "skip-cert-verify"
  cipher := textOf fields "cipher"
  alterId := (mapGet fields "alterId").bind asNumber
  transport := (textOf fields "network").map (clashTransport fields)

end Clash

def describeSingbox (outbound : List (Text × Json)) : Description :=
  let tls := SingboxParser.objField outbound "tls"
  { tls := tls.any fun t => SingboxParser.boolField t "enabled" == some true
    serverName := tls.bind fun t => (objectGet t "server_name").bind Json.asStr
    skipVerify := tls.any fun t => SingboxParser.boolField t "insecure" == some true
    cipher := ((objectGet outbound "security").bind Json.asStr) <|>
      (objectGet outbound "method").bind Json.asStr
    alterId := (objectGet outbound "alter_id").bind asJsonNumber
    transport := (SingboxParser.objField outbound "transport").bind fun t =>
      (objectGet t "type").bind Json.asStr }

/-- Where both writers support an entry, their outputs describe the same proxy. -/
def WritersAgree (yaml : SerdeNorway) (entry : ProxyEntry) : Prop :=
  ∀ name fields outbound,
    ClashWriter.entryToClashNamed yaml entry name = some (.map fields) →
    SingboxWriter.entryToOutboundNamed yaml entry name = some (.obj outbound) →
    describeClash fields = describeSingbox outbound

def transportOf : ClashWriter.Network → Text
  | .ws _ _ httpUpgrade => if httpUpgrade then "httpupgrade" else "ws"
  | .grpc .. => "grpc"
  | .h2 .. => "http"
  | .http .. => "http"
  | .other network => if network = "h2" then "http" else network

/-- The description that the options of a proxy amount to. -/
def clashOf (skip : Bool) : ClashWriter.Proxy → Description
  | .vless _ _ tls _ _ _ network =>
    ⟨tls.isSome, tls.bind id, skip, none, none, network.map transportOf⟩
  | .vmess _ alterId cipher tls _ _ network =>
    ⟨tls.isSome, tls.bind id, skip, some cipher, asNumber (ClashWriter.num alterId),
      network.map transportOf⟩
  | .trojan _ sni _ _ _ _ network => ⟨true, sni, skip, none, none, network.map transportOf⟩
  | .ss cipher _ _ => ⟨false, none, skip, some cipher, none, none⟩
  | .hysteria2 _ sni .. => ⟨true, sni, skip, none, none, none⟩
  | .socks5 _ _ tls => ⟨tls, none, skip, none, none, none⟩
  | .snell .. => ⟨false, none, skip, none, none, none⟩
  | .anyTls _ sni => ⟨false, sni, skip, none, none, none⟩

section ClashOptions

variable (p : ClashWriter.Proxy) (name host : Text) (port : UInt16) (skip udp : Bool)

def yamlFields : List (Yaml × Yaml) :=
  (p.fields name host port skip udp).map fun f => (.str f.1, f.2)

theorem mapGet_yamlFields (key : Text) :
    mapGet (yamlFields p name host port skip udp) key =
      pick (allSlots p name host port skip udp) key := by
  rw [yamlFields, fields_eq, mapGet_flat]

theorem text_slot (value : Option Text) :
    ((value.map Yaml.str).or none).bind Yaml.asStr = value := by
  cases value <;> rfl

theorem flag_slot (b : Bool) : ((flag b).or none).any isTrue = b := by
  cases b <;> rfl

theorem upgrade_flag (path host : Option Text) (httpUpgrade : Bool) :
    ((wsOpts (.ws path host httpUpgrade)).bind Yaml.asMapping).any
      (flagOf · "v2ray-http-upgrade") = httpUpgrade := by
  have hblock : ClashWriter.wsBlock path host httpUpgrade =
      flat ([("path", path.map .str),
        ("headers", host.map fun h => ClashWriter.mapping [("Host", .str h)]),
        ("v2ray-http-upgrade", flag httpUpgrade)] : List Slot) := by
    simp only [ClashWriter.wsBlock, ClashWriter.putText, ClashWriter.putFlag, put_eq, flat_cons,
      flat_nil, List.append_nil, List.append_assoc, flag]
  have hget : (mapGet ((ClashWriter.wsBlock path host httpUpgrade).map fun f => (.str f.1, f.2))
      "v2ray-http-upgrade").any isTrue = httpUpgrade := by
    rw [hblock, mapGet_flat]
    exact flag_slot httpUpgrade
  rw [wsOpts, block]
  by_cases hempty : ClashWriter.wsBlock path host httpUpgrade = []
  · rw [hempty] at hget
    rw [if_pos hempty]
    exact hget
  · rw [if_neg hempty]
    exact hget

theorem transport_of_slots {fields : List (Yaml × Yaml)} {network : Option ClashWriter.Network}
    (hword : mapGet fields "network" = (network.map fun n => Yaml.str (networkWord n)).or none)
    (hws : mapGet fields "ws-opts" = (network.bind wsOpts).or none) :
    (textOf fields "network").map (clashTransport fields) = network.map transportOf := by
  have htext : textOf fields "network" = network.map networkWord := by
    rw [textOf, hword]
    cases network <;> rfl
  rw [htext]
  cases network with
  | none => rfl
  | some n =>
    refine congrArg some ?_
    rw [clashTransport, hws, Option.or_none, Option.bind_some]
    cases n with
    | ws path host httpUpgrade =>
      rw [upgrade_flag]
      cases httpUpgrade <;> rfl
    | h2 hosts path => exact (if_neg (of_decide_eq_true rfl)).trans (if_pos rfl)
    | other network => exact if_neg fun h => Bool.noConfusion h.2
    | _ => exact (if_neg (of_decide_eq_true rfl)).trans (if_neg (of_decide_eq_true rfl))

theorem describe_of_slots {fields : List (Yaml × Yaml)} (kind : Text) (tls : Bool)
    (servername sni cipher : Option Text) (alterId : Option Yaml)
    (network : Option ClashWriter.Network) (skip : Bool)
    (hkind : mapGet fields "type" = some (.str kind))
    (htls : mapGet fields "tls" = (flag tls).or none)
    (hservername : mapGet fields "servername" = (servername.map Yaml.str).or none)
    (hsni : mapGet fields "sni" = (sni.map Yaml.str).or none)
    (hcipher : mapGet fields "cipher" = (cipher.map Yaml.str).or none)
    (halter : mapGet fields "alterId" = alterId)
    (hword : mapGet fields "network" = (network.map fun n => Yaml.str (networkWord n)).or none)
    (hws : mapGet fields "ws-opts" = (network.bind wsOpts).or none)
    (hskip : mapGet fields "skip-cert-verify" = (flag skip).or none) :
    describeClash fields =
      ⟨impliedTls.contains kind || tls, servername <|> sni, skip, cipher,
        alterId.bind asNumber, network.map transportOf⟩ := by
  have htype : textOf fields "type" = some kind := by
    rw [textOf, hkind]
    rfl
  have htext : ∀ {key : Text} {value : Option Text},
      mapGet fields key = (value.map Yaml.str).or none → textOf fields key = value := by
    intro key value h
    rw [textOf, h, text_slot]
  have hflag : ∀ {key : Text} {b : Bool},
      mapGet fields key = (flag b).or none → flagOf fields key = b := by
    intro key b h
    rw [flagOf, h, flag_slot]
  rw [describeClash, htype, hflag htls, hflag hskip, htext hservername, htext hsni, htext hcipher,
    halter, transport_of_slots hword hws]
  rfl

theorem describeClash_eq :
    describeClash (yamlFields p name host port skip udp) = clashOf skip p := by
  have hget := mapGet_yamlFields p name host port skip udp
  cases p with
  | vless uuid flow tls fingerprint reality alpn network =>
    refine (describe_of_slots "vless" tls.isSome (tls.bind id) none none none network skip
      (hget _) (hget _) (hget _) (hget _) (hget _) (hget _) (hget _) (hget _) (hget _)).trans ?_
    cases tls with
    | none => rfl
    | some name => cases name <;> rfl
  | vmess uuid alterId cipher tls fingerprint alpn network =>
    refine (describe_of_slots "vmess" tls.isSome (tls.bind id) none (some cipher)
      (some (ClashWriter.num alterId)) network skip
      (hget _) (hget _) (hget _) (hget _) (hget _) (hget _) (hget _) (hget _) (hget _)).trans ?_
    cases tls with
    | none => rfl
    | some name => cases name <;> rfl
  | trojan password sni flow fingerprint reality alpn network =>
    exact describe_of_slots "trojan" false none sni none none network skip
      (hget _) (hget _) (hget _) (hget _) (hget _) (hget _) (hget _) (hget _) (hget _)
  | ss cipher password plugin =>
    exact describe_of_slots "ss" false none none (some cipher) none none skip
      (hget _) (hget _) (hget _) (hget _) (hget _) (hget _) (hget _) (hget _) (hget _)
  | hysteria2 password sni obfs obfsPassword up down fingerprint ports alpn =>
    exact describe_of_slots "hysteria2" false none sni none none none skip
      (hget _) (hget _) (hget _) (hget _) (hget _) (hget _) (hget _) (hget _) (hget _)
  | socks5 username password tls =>
    exact describe_of_slots "socks5" tls none none none none none skip
      (hget _) (hget _) (hget _) (hget _) (hget _) (hget _) (hget _) (hget _) (hget _)
  | snell psk version reuse mode obfs =>
    exact describe_of_slots "snell" false none none none none none skip
      (hget _) (hget _) (hget _) (hget _) (hget _) (hget _) (hget _) (hget _) (hget _)
  | anyTls password sni =>
    exact describe_of_slots "anytls" false none sni none none none skip
      (hget _) (hget _) (hget _) (hget _) (hget _) (hget _) (hget _) (hget _) (hget _)

end ClashOptions

def singTransportOf : SingboxWriter.Transport → Text
  | .ws .. => "ws"
  | .httpUpgrade .. => "httpupgrade"
  | .grpc .. => "grpc"
  | .http .. => "http"

def tlsDescription (tls : Option SingboxWriter.TlsOptions) (cipher : Option Text)
    (alterId : Option ℕ) (transport : Option SingboxWriter.Transport) : Description :=
  ⟨tls.isSome, tls.bind (·.serverName), tls.any (·.insecure), cipher, alterId.map .posInt,
    transport.map singTransportOf⟩

/-- The description that the options of an outbound amount to. -/
def singboxOf : SingboxWriter.Outbound → Description
  | .vless _ _ tls transport => tlsDescription tls none none transport
  | .vmess _ cipher alterId tls transport =>
    tlsDescription tls (some cipher) (some alterId) transport
  | .trojan _ tls transport => tlsDescription (some tls) none none transport
  | .shadowsocks method .. => tlsDescription none (some method) none none
  | .hysteria2 _ tls .. => tlsDescription (some tls) none none none
  | .socks _ _ tls => tlsDescription tls none none none

section SingboxOptions

open SingboxReading SingboxWriter

variable {m : SingboxWriter.Object}

theorem describeSingbox_of (tls : Option TlsOptions) (security method : Option Text)
    (alterId : Option ℕ) (transport : Option Transport)
    (htls : objectGet m "tls" = (objMember (tls.map (·.fields))).or none)
    (hsecurity : objectGet m "security" = (security.map .str).or none)
    (hmethod : objectGet m "method" = (method.map .str).or none)
    (halter : objectGet m "alter_id" = (alterId.map fun n => .num (.posInt n)).or none)
    (htransport : objectGet m "transport" = (objMember (transport.map (·.fields))).or none) :
    describeSingbox m = tlsDescription tls (security <|> method) alterId transport := by
  rw [Option.or_none] at htls hsecurity hmethod halter htransport
  have hobj : SingboxParser.objField m "tls" = tls.map (·.fields) := by
    rw [SingboxParser.objField, htls]
    cases tls <;> rfl
  have htype : ((SingboxParser.objField m "transport").bind fun t =>
      (objectGet t "type").bind Json.asStr) = transport.map singTransportOf := by
    rw [SingboxParser.objField, htransport]
    cases transport with
    | none => rfl
    | some t => cases t <;> rfl
  have hnum : (alterId.map fun n => Json.num (.posInt n)).bind asJsonNumber =
      alterId.map .posInt := by
    cases alterId <;> rfl
  rw [describeSingbox, hobj, hsecurity, hmethod, halter, htype, bind_asStr, bind_asStr, hnum]
  cases tls with
  | none => rfl
  | some t =>
    have henabled : (SingboxParser.boolField t.fields "enabled" == some true) = true := by
      rw [SingboxParser.boolField, tls_enabled]
      rfl
    have hinsecure : (SingboxParser.boolField t.fields "insecure" == some true) = t.insecure := by
      rw [SingboxParser.boolField, tls_insecure]
      cases t.insecure <;> rfl
    simp only [Option.map_some, Option.any_some, Option.bind_some, henabled, hinsecure,
      tls_serverName, bind_asStr, tlsDescription, Option.isSome_some]

theorem describeSingbox_eq (o : Outbound) (tag host : Text) (port : UInt16) :
    describeSingbox (o.object tag host port) = singboxOf o := by
  have hget : ∀ key ∉ (["tag", "type", "server", "server_port"] : List Text),
      objectGet (o.object tag host port) key = pick (members o) key := by
    intro key hkey
    rw [object_ne tag host port hkey, options_get]
  have htls := hget "tls" (by decide)
  have hsecurity := hget "security" (by decide)
  have hmethod := hget "method" (by decide)
  have halter := hget "alter_id" (by decide)
  have htransport := hget "transport" (by decide)
  cases o with
  | vless uuid flow tls transport =>
    exact describeSingbox_of tls none none none transport htls hsecurity hmethod halter htransport
  | vmess uuid cipher alterId tls transport =>
    exact describeSingbox_of tls (some cipher) none (some alterId) transport htls hsecurity hmethod
      halter htransport
  | trojan password tls transport =>
    exact describeSingbox_of (some tls) none none none transport htls hsecurity hmethod halter
      htransport
  | shadowsocks method password plugin =>
    exact describeSingbox_of none none (some method) none none htls hsecurity hmethod halter
      htransport
  | hysteria2 password tls obfs upMbps downMbps =>
    exact describeSingbox_of (some tls) none none none none htls hsecurity hmethod halter htransport
  | socks username password tls =>
    exact describeSingbox_of tls none none none none htls hsecurity hmethod halter htransport

end SingboxOptions

theorem writersAgree_iff (yaml : SerdeNorway) (entry : ProxyEntry) :
    WritersAgree yaml entry ↔
      ∀ p o, ClashWriter.proxyOf yaml entry = some p →
        SingboxWriter.outboundOf yaml entry = some o →
        clashOf (isInsecure entry.params) p = singboxOf o := by
  constructor
  · intro h p o hp ho
    have hagree := h entry.name
      (yamlFields p entry.name entry.host entry.port (isInsecure entry.params)
        (paramTruthy entry "udp"))
      (o.object entry.name entry.host entry.port)
      (by rw [ClashWriter.entryToClashNamed, hp]; rfl)
      (by rw [SingboxWriter.entryToOutboundNamed, ho]; rfl)
    rw [describeClash_eq, describeSingbox_eq] at hagree
    exact hagree
  · intro h name fields outbound hfields houtbound
    obtain ⟨p, hp, hmap⟩ := Option.map_eq_some_iff.mp hfields
    obtain ⟨o, ho, hobj⟩ := Option.map_eq_some_iff.mp houtbound
    obtain rfl := Yaml.map.inj hmap
    obtain rfl := Json.obj.inj hobj
    have hclash := describeClash_eq p name entry.host entry.port (isInsecure entry.params)
      (paramTruthy entry "udp")
    rw [yamlFields] at hclash
    rw [hclash, describeSingbox_eq]
    exact h p o hp ho

end WriterAgreement
