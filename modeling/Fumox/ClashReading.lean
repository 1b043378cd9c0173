import Fumox.ClashWriter
import Fumox.OptionalFields

/-!
The entries of a written mihomo mapping as slots: a key with the value that the proxy has for it,
if it has one.
-/

namespace ClashReading

open RustText ProxyModels FormatParams JsonValue YamlValue OptionalFields
open ClashWriter hiding put

abbrev Slot := Text × Option Yaml

/-- `Mapping::get` on a mapping whose keys are plain strings. -/
theorem mapGet_fields (m : Fields) (key : Text) :
    mapGet (m.map fun f => (.str f.1, f.2)) key = m.lookup key := by
  induction m with
  | nil => rfl
  | cons f m ih =>
    by_cases h : f.1 = key
    · subst h
      rw [List.lookup_cons_self]
      simp [mapGet]
    · rw [List.lookup_cons, beq_false_of_ne (Ne.symm h), ← ih]
      simp [mapGet, h]

theorem mapGet_flat (slots : List Slot) (key : Text) :
    mapGet ((flat slots).map fun f => (.str f.1, f.2)) key = pick slots key := by
  rw [mapGet_fields, lookup_flat]

theorem put_eq (key : Text) (value : Option Yaml) :
    ClashWriter.put key value = OptionalFields.put key value := rfl

def flag (b : Bool) : Option Yaml :=
  if b then some (.bool true) else none

def list (items : Option (List Text)) : Option Yaml :=
  items.map fun l => .seq (l.map .str)

def block (fields : Fields) : Option Yaml :=
  if fields = [] then none else some (mapping fields)

theorem putBlock_eq (key : Text) (fields : Fields) :
    putBlock key fields = ClashWriter.put key (block fields) := by
  unfold putBlock block
  split <;> rfl

/-- The word under `network`. -/
def networkWord : Network → Text
  | .ws .. => "ws"
  | .grpc .. => "grpc"
  | .h2 .. => "h2"
  | .http .. => "http"
  | .other network => network

def wsOpts : Network → Option Yaml
  | .ws path host httpUpgrade => block (wsBlock path host httpUpgrade)
  | _ => none

def grpcOpts : Network → Option Yaml
  | .grpc serviceName => block (putText "grpc-service-name" serviceName)
  | _ => none

def h2Opts : Network → Option Yaml
  | .h2 hosts path => block (putList "host" hosts ++ putText "path" path)
  | _ => none

def httpOpts : Network → Option Yaml
  | .http path host => block (httpBlock path host)
  | _ => none

def networkSlots (network : Option Network) : List Slot :=
  [("network", network.map fun n => .str (networkWord n)), ("ws-opts", network.bind wsOpts),
    ("grpc-opts", network.bind grpcOpts), ("h2-opts", network.bind h2Opts),
    ("http-opts", network.bind httpOpts)]

theorem flat_networkSlots (network : Option Network) :
    flat (networkSlots network) = network.elim [] Network.fields := by
  cases network with
  | none => rfl
  | some n =>
    cases n <;>
      simp only [networkSlots, Network.fields, putBlock_eq, flat_cons, Option.elim_some,
        Option.bind_some, wsOpts, grpcOpts, h2Opts, httpOpts] <;>
      simp [ClashWriter.put, OptionalFields.put, flat, networkWord]

def tlsSlots (tls : Option (Option Text)) : List Slot :=
  [("tls", flag tls.isSome), ("servername", (tls.bind id).map .str)]

theorem flat_tlsSlots (tls : Option (Option Text)) : flat (tlsSlots tls) = tlsFields tls := by
  cases tls with
  | none => rfl
  | some name => cases name <;> rfl

def realityOpts (reality : Option (Option Text × Option Text)) : Option Yaml :=
  block (realityBlock reality)

def obfsOpts (obfs : Option (Text × Option Text)) : Option Yaml :=
  block (obfs.elim [] fun o => ("mode", .str o.1) :: putText "host" o.2)

def pluginSlots (plugin : Option (Text × Fields)) : List Slot :=
  [("plugin", plugin.map fun p => .str p.1), ("plugin-opts", plugin.bind fun p => block p.2)]

theorem flat_pluginSlots (plugin : Option (Text × Fields)) :
    flat (pluginSlots plugin) =
      (plugin.elim [] fun p => ("plugin", .str p.1) :: putBlock "plugin-opts" p.2 : Fields) := by
  cases plugin with
  | none => rfl
  | some p =>
    simp only [pluginSlots, flat_cons, flat_nil, put_some, Option.map_some, Option.bind_some,
      Option.elim_some, putBlock_eq, put_eq, List.cons_append, List.nil_append, List.append_nil]

/-- The type and the slots that make up the credential. -/
def headSlots : Proxy → List Slot
  | .vless uuid .. => [("type", some (.str "vless")), ("uuid", some (.str uuid))]
  | .vmess uuid .. => [("type", some (.str "vmess")), ("uuid", some (.str uuid))]
  | .trojan password .. => [("type", some (.str "trojan")), ("password", some (.str password))]
  | .ss cipher password .. =>
    [("type", some (.str "ss")), ("cipher", some (.str cipher)),
      ("password", some (.str password))]
  | .hysteria2 password .. =>
    [("type", some (.str "hysteria2")), ("password", some (.str password))]
  | .socks5 username password .. =>
    [("type", some (.str "socks5")), ("username", username.map .str),
      ("password", password.map .str)]
  | .snell psk .. => [("type", some (.str "snell")), ("psk", some (.str psk))]
  | .anyTls password .. => [("type", some (.str "anytls")), ("password", some (.str password))]

/-- The slots of the options, in the order of the fields. -/
def optionSlots : Proxy → List Slot
  | .vless _ flow tls fingerprint reality alpn network =>
    ("flow", flow.map .str) :: (tlsSlots tls ++ (("client-fingerprint", fingerprint.map .str) ::
      ("reality-opts", realityOpts reality) :: ("alpn", list alpn) :: networkSlots network :
        List Slot))
  | .vmess _ alterId cipher tls fingerprint alpn network =>
    ("alterId", some (num alterId)) :: ("cipher", some (.str cipher)) ::
      (tlsSlots tls ++ (("client-fingerprint", fingerprint.map .str) :: ("alpn", list alpn) ::
        networkSlots network : List Slot))
  | .trojan _ sni flow fingerprint reality alpn network =>
    ("sni", sni.map .str) :: ("flow", flow.map .str) ::
      ("client-fingerprint", fingerprint.map .str) :: ("reality-opts", realityOpts reality) ::
      ("alpn", list alpn) :: networkSlots network
  | .ss _ _ plugin => pluginSlots plugin
  | .hysteria2 _ sni obfs obfsPassword up down fingerprint ports alpn =>
    [("sni", sni.map .str), ("obfs", obfs.map .str), ("obfs-password", obfsPassword.map .str),
      ("up", up.map .str), ("down", down.map .str), ("fingerprint", fingerprint.map .str),
      ("ports", ports.map .str), ("alpn", list alpn)]
  | .socks5 _ _ tls => [("tls", flag tls)]
  | .snell _ version reuse mode obfs =>
    [("version", version.map .str), ("reuse", flag reuse), ("mode", mode.map .str),
      ("obfs-opts", obfsOpts obfs)]
  | .anyTls _ sni => [("sni", sni.map .str)]

def slots (p : Proxy) : List Slot :=
  headSlots p ++ optionSlots p

theorem options_eq (p : Proxy) : p.options = flat (slots p) := by
  cases p <;>
    simp only [Proxy.options, slots, headSlots, optionSlots, flat_append, flat_cons, flat_nil,
      flat_tlsSlots, flat_networkSlots, flat_pluginSlots, put_some, putText, putFlag, putList,
      putBlock_eq, put_eq, realityOpts, obfsOpts, list, flag, List.cons_append, List.nil_append,
      List.append_nil, List.append_assoc]

/-- The slots behind the credential. -/
def written (p : Proxy) (skipCertVerify udp : Bool) : List Slot :=
  optionSlots p ++ ([("skip-cert-verify", flag skipCertVerify), ("udp", flag udp)] : List Slot)

def allSlots (p : Proxy) (name host : Text) (port : UInt16) (skipCertVerify udp : Bool) :
    List Slot :=
  ("name", some (.str name)) :: ("server", some (.str host)) ::
    ("port", some (num port.toNat)) :: (headSlots p ++ written p skipCertVerify udp)

theorem fields_eq (p : Proxy) (name host : Text) (port : UInt16) (skipCertVerify udp : Bool) :
    p.fields name host port skipCertVerify udp =
      flat (allSlots p name host port skipCertVerify udp) := by
  simp only [Proxy.fields, allSlots, written, slots, flat_cons, put_some, flat_append, flat_nil,
    List.append_nil, options_eq, putFlag, put_eq, flag, List.append_assoc, List.cons_append,
    List.nil_append]

end ClashReading
