import Fumox.OptionalFields
import Fumox.SingboxWriter
import Fumox.StructuredEntries

/-!
What the sing-box parser makes of a written outbound: the slots of its parameters, scheme by
scheme.
-/

namespace SingboxReading

open RustText PercentText ProxyModels PayloadGuards UriGrammar FormatParams JsonValue YamlValue
open OptionalFields SingboxParser SingboxWriter

section Members

variable {m m' : SingboxWriter.Object} {k key : Text} {v : Json}

theorem objectGet_self : objectGet ((k, v) :: m) k = some v :=
  List.lookup_cons_self

theorem objectGet_ne (h : key ≠ k) : objectGet ((k, v) :: m) key = objectGet m key := by
  rw [objectGet, List.lookup_cons, beq_false_of_ne h]
  rfl

theorem objectGet_append : objectGet (m ++ m') key = (objectGet m key).or (objectGet m' key) :=
  List.lookup_append

theorem objectGet_flat (members : List (Text × Option Json)) (key : Text) :
    objectGet (flat members) key = pick members key :=
  lookup_flat members key

theorem field_eq (key : Text) (value : Option Json) : field key value = put key value := rfl

theorem field_self (value : Option Json) : objectGet (field k value) k = value := by
  cases value with
  | none => rfl
  | some v => exact objectGet_self

theorem field_ne (h : key ≠ k) (value : Option Json) : objectGet (field k value) key = none := by
  cases value with
  | none => rfl
  | some v => exact objectGet_ne h

end Members

/-- Nonempty text; the parser skips the others. -/
def kept (value : Option Text) : Option Text :=
  value.filter (· ≠ [])

def joinedItems (items : List Text) : Text :=
  [','].intercalate (items.filter (· ≠ []))

/-- Parameters by key; the parser skips the empty ones. -/
def spelled (slots : List (Text × Option Text)) : List Param :=
  slots.flatMap fun s => pushSome true s.1 s.2

@[simp] theorem spelled_nil : spelled [] = [] := rfl

theorem spelled_cons (k : Text) (v : Option Text) (l : List (Text × Option Text)) :
    spelled ((k, v) :: l) = pushSome true k v ++ spelled l := rfl

theorem pushSome_some (k v : Text) : pushSome true k (some v) = pushParam true k v := rfl

theorem spelled_append (l m : List (Text × Option Text)) :
    spelled (l ++ m) = spelled l ++ spelled m :=
  List.flatMap_append

def toggleSlot (spelling : TlsSpelling) (reality : Bool) : Text × Option Text :=
  match spelling with
  | .security => ("security", some (if reality then "reality" else "tls"))
  | .tls => ("tls", some "tls")

def tlsSlots (spelling : TlsSpelling) (tls : TlsOptions) : List (Text × Option Text) :=
  toggleSlot spelling tls.reality.isSome ::
  [("pbk", tls.reality.bind (·.1)), ("sid", tls.reality.bind (·.2)), ("sni", tls.serverName),
    ("insecure", if tls.insecure then some "true" else none),
    ("alpn", tls.alpn.map joinedItems), ("fp", tls.fingerprint)]

def transportSlots (networkKey : Text) : Transport → List (Text × Option Text)
  | .ws path host => [(networkKey, some "ws"), ("path", path), ("host", host)]
  | .httpUpgrade path host => [(networkKey, some "httpupgrade"), ("path", path), ("host", host)]
  | .grpc serviceName => [(networkKey, some "grpc"), ("serviceName", serviceName)]
  | .http hosts path =>
    [(networkKey, some "http"), ("host", hosts.map joinedItems), ("path", path)]

theorem pushSome_joined {out : Text} (items : Option (List Text)) :
    pushSome true out (stringOrJoinedArray (items.map fun l => .arr (l.map .str))) =
      pushSome true out (items.map joinedItems) := by
  cases items with
  | none => rfl
  | some l =>
    have hstrings : (l.map Json.str).filterMap Json.asStr = l := by
      rw [List.filterMap_map]
      exact List.filterMap_some
    simp only [Option.map_some, stringOrJoinedArray, hstrings, joinedItems]
    generalize [','].intercalate (l.filter (· ≠ [])) = joined
    by_cases h : joined = []
    · simp [h, pushSome, pushParam]
    · simp [h, pushSome]

abbrev Member := Text × Option Json

/-- The members of a `tls` object, in order. -/
def tlsMembers (tls : TlsOptions) : List Member :=
  [("enabled", some (.bool true)), ("server_name", tls.serverName.map .str),
    ("insecure", if tls.insecure then some (.bool true) else none),
    ("alpn", tls.alpn.map fun l => .arr (l.map .str)),
    ("utls", tls.fingerprint.map fun fp =>
      .obj [("enabled", .bool true), ("fingerprint", .str fp)]),
    ("reality", tls.reality.map fun r => .obj
      (("enabled", .bool true) :: (textField "public_key" r.1 ++ textField "short_id" r.2)))]

def transportMembers : Transport → List Member
  | .ws path host =>
    [("type", some (.str "ws")), ("path", path.map .str),
      ("headers", host.map fun h => .obj [("Host", .str h)])]
  | .httpUpgrade path host =>
    [("type", some (.str "httpupgrade")), ("path", path.map .str), ("host", host.map .str)]
  | .grpc serviceName =>
    [("type", some (.str "grpc")), ("service_name", serviceName.map .str)]
  | .http hosts path =>
    [("type", some (.str "http")), ("host", hosts.map fun l => .arr (l.map .str)),
      ("path", path.map .str)]

def objMember (value : Option SingboxWriter.Object) : Option Json :=
  value.map .obj

/-- The options of an outbound as members with optional values, so that a member which is not
written still has its place. -/
def members : Outbound → List Member
  | .vless uuid flow tls transport =>
    [("uuid", some (.str uuid)), ("flow", flow.map .str), ("tls", objMember (tls.map (·.fields))),
      ("transport", objMember (transport.map (·.fields)))]
  | .vmess uuid cipher alterId tls transport =>
    [("uuid", some (.str uuid)), ("security", some (.str cipher)),
      ("alter_id", some (.num (.posInt alterId))), ("tls", objMember (tls.map (·.fields))),
      ("transport", objMember (transport.map (·.fields)))]
  | .trojan password tls transport =>
    [("password", some (.str password)), ("tls", objMember (some tls.fields)),
      ("transport", objMember (transport.map (·.fields)))]
  | .shadowsocks method password plugin =>
    [("method", some (.str method)), ("password", some (.str password)),
      ("plugin", (plugin.map (·.1)).map .str), ("plugin_opts", (plugin.bind (·.2)).map .str)]
  | .hysteria2 password tls obfs upMbps downMbps =>
    [("password", some (.str password)), ("tls", objMember (some tls.fields)),
      ("obfs", objMember (obfs.map fun o => ("type", .str o.1) :: textField "password" o.2)),
      ("up_mbps", upMbps.map fun n => .num (.posInt n)),
      ("down_mbps", downMbps.map fun n => .num (.posInt n))]
  | .socks username password tls =>
    [("username", username.map .str), ("password", password.map .str),
      ("tls", objMember (tls.map (·.fields)))]

theorem tls_fields_eq (tls : TlsOptions) : tls.fields = flat (tlsMembers tls) := by
  simp only [TlsOptions.fields, tlsMembers, textField, flagField, listField, objectField, field_eq,
    flat_cons, flat_nil, put_some, List.cons_append, List.nil_append, List.append_nil,
    List.append_assoc, Option.map_map, Function.comp_def]

theorem transport_fields_eq (t : Transport) : t.fields = flat (transportMembers t) := by
  cases t <;>
    simp only [Transport.fields, transportMembers, textField, listField, objectField, field_eq,
      flat_cons, flat_nil, put_some, List.cons_append, List.nil_append, List.append_nil,
      Option.map_map, Function.comp_def]

theorem options_eq (o : Outbound) : o.options = flat (members o) := by
  cases o <;>
    simp only [Outbound.options, members, objMember, textField, numField, objectField, field_eq,
      flat_cons, flat_nil, put_some, List.cons_append, List.nil_append, List.append_nil,
      List.append_assoc]

theorem tls_get (tls : TlsOptions) (key : Text) :
    objectGet tls.fields key = pick (tlsMembers tls) key := by
  rw [tls_fields_eq, objectGet_flat]

theorem transport_get (t : Transport) (key : Text) :
    objectGet t.fields key = pick (transportMembers t) key := by
  rw [transport_fields_eq, objectGet_flat]

theorem options_get (o : Outbound) (key : Text) :
    objectGet o.options key = pick (members o) key := by
  rw [options_eq, objectGet_flat]

section TlsMembers

variable (tls : TlsOptions)

theorem tls_enabled : objectGet tls.fields "enabled" = some (.bool true) :=
  objectGet_self

theorem tls_serverName : objectGet tls.fields "server_name" = tls.serverName.map .str := by
  exact (tls_get _ _).trans Option.or_none

theorem tls_insecure :
    objectGet tls.fields "insecure" = if tls.insecure then some (.bool true) else none := by
  exact (tls_get _ _).trans Option.or_none

theorem tls_alpn :
    objectGet tls.fields "alpn" = tls.alpn.map fun l => .arr (l.map .str) := by
  exact (tls_get _ _).trans Option.or_none

theorem tls_utls : objectGet tls.fields "utls" = tls.fingerprint.map fun fp =>
    .obj [("enabled", .bool true), ("fingerprint", .str fp)] := by
  exact (tls_get _ _).trans Option.or_none

theorem tls_reality : objectGet tls.fields "reality" = tls.reality.map fun r =>
    .obj (("enabled", .bool true) :: (textField "public_key" r.1 ++ textField "short_id" r.2)) := by
  exact (tls_get _ _).trans Option.or_none

end TlsMembers

def realityFields (r : Option Text × Option Text) : SingboxWriter.Object :=
  ("enabled", .bool true) :: (textField "public_key" r.1 ++ textField "short_id" r.2)

theorem bind_asStr (value : Option Text) : (value.map Json.str).bind Json.asStr = value := by
  cases value <;> rfl

theorem strField_of_get {m : SingboxWriter.Object} {key : Text} {value : Option Text}
    (h : objectGet m key = value.map .str) : strField m key = kept value := by
  rw [strField, h, bind_asStr]
  rfl

theorem reality_publicKey (r : Option Text × Option Text) :
    objectGet (realityFields r) "public_key" = r.1.map .str := by
  simp (disch := decide) only [realityFields, textField, objectGet_ne, objectGet_append,
    field_self, field_ne, Option.or_none]

theorem reality_shortId (r : Option Text × Option Text) :
    objectGet (realityFields r) "short_id" = r.2.map .str := by
  simp (disch := decide) only [realityFields, textField, objectGet_ne, objectGet_append,
    field_self, field_ne, Option.none_or]

theorem strField_publicKey (r : Option Text × Option Text) :
    strField (realityFields r) "public_key" = kept r.1 :=
  strField_of_get (reality_publicKey r)

theorem strField_shortId (r : Option Text × Option Text) :
    strField (realityFields r) "short_id" = kept r.2 :=
  strField_of_get (reality_shortId r)

theorem pushSome_kept (out : Text) (value : Option Text) :
    pushSome true out (kept value) = pushSome true out value := by
  cases value with
  | none => rfl
  | some t =>
    by_cases h : t = []
    · simp [h, kept, pushSome, pushParam, Option.filter_some]
    · simp [h, kept, pushSome, pushParam, Option.filter_some]

theorem spelled_toggleSlot (spelling : TlsSpelling) (reality : Bool)
    (rest : List (Text × Option Text)) :
    spelled (toggleSlot spelling reality :: rest) = spellTls spelling reality ++ spelled rest := by
  cases spelling <;> cases reality <;> rfl

/-- The TLS parameters of a written `tls` object.  A disabled object is never written, so the
spelling of TLS-on is always the first of them. -/
theorem nativeTlsParams_fields (spelling : TlsSpelling) (tls : TlsOptions) :
    nativeTlsParams tls.fields spelling = spelled (tlsSlots spelling tls) := by
  have henabled : (boolField tls.fields "enabled").getD false = true := by
    rw [boolField, tls_enabled]
    rfl
  have hreality : objField tls.fields "reality" = tls.reality.map realityFields := by
    rw [objField, tls_reality]
    cases tls.reality <;> rfl
  have hinsecure : (boolField tls.fields "insecure" == some true) = tls.insecure := by
    rw [boolField, tls_insecure]
    cases tls.insecure <;> rfl
  have hutls : (objField tls.fields "utls").bind (strField · "fingerprint") =
      kept tls.fingerprint := by
    rw [objField, tls_utls]
    cases tls.fingerprint <;> rfl
  have hname : strField tls.fields "server_name" = kept tls.serverName :=
    strField_of_get (tls_serverName tls)
  have hflag : pushSome true "insecure" (if tls.insecure then some "true" else none) =
      if tls.insecure then pushParam true "insecure" "true" else [] := by
    cases tls.insecure <;> rfl
  rw [tlsSlots, spelled_toggleSlot]
  unfold nativeTlsParams
  rw [henabled, hreality, hinsecure, hutls, hname, tls_alpn, pushSome_joined, pushSome_kept,
    pushSome_kept]
  simp only [spelled_cons, spelled_nil, List.append_nil, hflag]
  cases tls.reality with
  | none =>
    simp only [Option.map_none, Option.bind_none, Option.any_none, Option.isSome_none, Bool.or_false,
      Bool.not_true, Bool.false_and, Bool.false_eq_true, if_false, List.append_assoc,
      List.append_nil, pushSome, Option.elim_none, List.nil_append]
  | some r =>
    have hon : (((some (realityFields r)).bind (strField · "public_key")).isSome ||
        (some (realityFields r)).any (fun r => boolField r "enabled" == some true)) = true := by
      rw [Bool.or_eq_true]
      exact .inr rfl
    simp only [Option.map_some, Option.bind_some, strField_publicKey, strField_shortId,
      pushSome_kept] at hon ⊢
    rw [hon]
    simp only [Bool.not_true, Bool.and_false, Bool.false_eq_true, if_false, if_true,
      Option.isSome_some, List.append_assoc]

theorem mem_field {k : Text} {value : Option Json} {f : Text × Json} (h : f ∈ field k value) :
    f.1 = k := by
  cases value with
  | none => exact absurd h List.not_mem_nil
  | some v => rw [List.mem_singleton.mp h]

/-- No member is left over when each is consumed by name. -/
theorem leftovers_nil {json : SerdeJson} {map : SingboxWriter.Object} {dropped : List Text}
    (h : ∀ f ∈ map, f.1 ∈ dropped) : leftovers json map dropped = [] := by
  have hnone : map.filter (fun f => !dropped.contains f.1 && !isNull f.2) = [] := by
    apply List.filter_eq_nil_iff.mpr
    intro f hf
    rw [List.contains_iff_mem.mpr (h f hf)]
    exact Bool.false_ne_true
  rw [leftovers, hnone]
  rfl

theorem transport_consumed (t : Transport) : ∀ f ∈ t.fields, f.1 ∈ transportConsumed := by
  intro f hf
  have hcases : f.1 = "type" ∨ f.1 = "path" ∨ f.1 = "host" ∨ f.1 = "headers" ∨
      f.1 = "service_name" := by
    cases t with
    | ws path host =>
      rcases List.mem_cons.mp hf with rfl | hf
      · exact .inl rfl
      · rcases List.mem_append.mp hf with hf | hf
        · exact .inr (.inl (mem_field hf))
        · exact .inr (.inr (.inr (.inl (mem_field hf))))
    | httpUpgrade path host =>
      rcases List.mem_cons.mp hf with rfl | hf
      · exact .inl rfl
      · rcases List.mem_append.mp hf with hf | hf
        · exact .inr (.inl (mem_field hf))
        · exact .inr (.inr (.inl (mem_field hf)))
    | grpc serviceName =>
      rcases List.mem_cons.mp hf with rfl | hf
      · exact .inl rfl
      · exact .inr (.inr (.inr (.inr (mem_field hf))))
    | http hosts path =>
      rcases List.mem_cons.mp hf with rfl | hf
      · exact .inl rfl
      · rcases List.mem_append.mp hf with hf | hf
        · exact .inr (.inr (.inl (mem_field hf)))
        · exact .inr (.inl (mem_field hf))
  rcases hcases with h | h | h | h | h <;> rw [h] <;> decide

section TransportMembers

variable (path host : Option Text) (hosts : Option (List Text))

theorem ws_path : objectGet (Transport.ws path host).fields "path" = path.map .str := by
  exact (transport_get _ _).trans Option.or_none

theorem ws_headers : objectGet (Transport.ws path host).fields "headers" =
    host.map fun h => .obj [("Host", .str h)] := by
  exact (transport_get _ _).trans Option.or_none

theorem httpUpgrade_path : objectGet (Transport.httpUpgrade path host).fields "path" =
    path.map .str := by
  exact (transport_get _ _).trans Option.or_none

theorem httpUpgrade_host : objectGet (Transport.httpUpgrade path host).fields "host" =
    host.map .str := by
  exact (transport_get _ _).trans Option.or_none

theorem grpc_serviceName : objectGet (Transport.grpc path).fields "service_name" =
    path.map .str := by
  exact (transport_get _ _).trans Option.or_none

theorem http_host : objectGet (Transport.http hosts path).fields "host" =
    hosts.map fun l => .arr (l.map .str) := by
  exact (transport_get _ _).trans Option.or_none

theorem http_path : objectGet (Transport.http hosts path).fields "path" = path.map .str := by
  exact (transport_get _ _).trans Option.or_none

end TransportMembers

theorem strField_head {k v : Text} (h : v ≠ []) (m : SingboxWriter.Object) :
    strField ((k, .str v) :: m) k = some v := by
  rw [strField, objectGet_self]
  exact Option.filter_eq_some_iff.mpr ⟨rfl, decide_eq_true h⟩

/-- The transport parameters of a written `transport` object; tcp has none. -/
theorem nativeTransportParams_fields (json : SerdeJson) (networkKey : Text) (t : Transport) :
    nativeTransportParams json t.fields networkKey = spelled (transportSlots networkKey t) := by
  unfold nativeTransportParams
  rw [leftovers_nil (transport_consumed t)]
  cases t with
  | ws path host =>
    have htype : strField (Transport.ws path host).fields "type" = some ("ws" : Text) :=
      strField_head (by decide) _
    have hhost : (objField (Transport.ws path host).fields "headers").bind (fun headers =>
        (objectGet headers "Host").bind Json.asStr) = host := by
      rw [objField, ws_headers]
      cases host <;> rfl
    rw [htype, Option.elim_some, List.append_nil, if_pos rfl,
      strField_of_get (ws_path path host), hhost, pushSome_kept, transportSlots,
      spelled_cons, spelled_cons, spelled_cons, spelled_nil, List.append_nil, pushSome_some]
  | httpUpgrade path host =>
    have htype : strField (Transport.httpUpgrade path host).fields "type" = some ("httpupgrade" : Text) :=
      strField_head (by decide) _
    rw [htype, Option.elim_some, List.append_nil, if_neg (by decide), if_pos rfl,
      strField_of_get (httpUpgrade_path path host), strField_of_get (httpUpgrade_host path host),
      pushSome_kept, pushSome_kept, transportSlots, spelled_cons, spelled_cons,
      spelled_cons, spelled_nil, List.append_nil, pushSome_some]
  | grpc serviceName =>
    have htype : strField (Transport.grpc serviceName).fields "type" = some ("grpc" : Text) :=
      strField_head (by decide) _
    rw [htype, Option.elim_some, List.append_nil, if_neg (by decide), if_neg (by decide), if_pos rfl,
      strField_of_get (grpc_serviceName serviceName), pushSome_kept, transportSlots, spelled_cons,
      spelled_cons, spelled_nil, List.append_nil, pushSome_some]
  | http hosts path =>
    have htype : strField (Transport.http hosts path).fields "type" = some ("http" : Text) :=
      strField_head (by decide) _
    rw [htype, Option.elim_some, List.append_nil, if_neg (by decide), if_neg (by decide),
      if_neg (by decide), if_pos (.inl rfl), http_host, strField_of_get (http_path path hosts),
      pushSome_joined, pushSome_kept, transportSlots, spelled_cons, spelled_cons, spelled_cons,
      spelled_nil, List.append_nil, pushSome_some]

/-- TLS stands before the transport, in the order in which the builders push. -/
def streamSlots (spelling : TlsSpelling) (networkKey : Text) (tls : Option TlsOptions)
    (transport : Option Transport) : List (Text × Option Text) :=
  tls.elim [] (tlsSlots spelling) ++ transport.elim [] (transportSlots networkKey)

def pluginText (plugin : Option (Text × Option Text)) : Option Text :=
  (kept (plugin.map (·.1))).map (pluginValue · ((kept (plugin.bind (·.2))).getD []))

def hysteria2Slots (obfs : Option (Text × Option Text)) (upMbps downMbps : Option ℕ) :
    List (Text × Option Text) :=
  [("obfs", obfs.map (·.1)), ("obfs-password", obfs.bind (·.2)),
    ("upMbps", upMbps.map decimal), ("downMbps", downMbps.map decimal)]

def socksSlots (tls : TlsOptions) : List (Text × Option Text) :=
  [("tls", some "true"), ("sni", tls.serverName),
    ("insecure", if tls.insecure then some "true" else none)]

namespace Outbound

/-- The parameters that the parser derives from an outbound. -/
def slots : SingboxWriter.Outbound → List (Text × Option Text)
  | .vless _ flow tls transport => ("flow", flow) :: streamSlots .security "type" tls transport
  | .vmess _ cipher alterId tls transport =>
    ("scy", some cipher) :: ("aid", some (decimal alterId)) ::
      streamSlots .tls "net" tls transport
  | .trojan _ tls transport => streamSlots .security "type" (some tls) transport
  | .shadowsocks _ _ plugin =>
    [("plugin", pluginText plugin)]
  | .hysteria2 _ tls obfs upMbps downMbps =>
    tlsSlots .security tls ++ hysteria2Slots obfs upMbps downMbps
  | .socks _ _ tls => tls.elim [] socksSlots

def scheme : SingboxWriter.Outbound → Scheme
  | .vless .. => .vless
  | .vmess .. => .vmess
  | .trojan .. => .trojan
  | .shadowsocks .. => .ss
  | .hysteria2 .. => .hysteria2
  | .socks .. => .socks5

def credential : SingboxWriter.Outbound → Text
  | .vless uuid .. => uuid
  | .vmess uuid .. => uuid
  | .trojan password .. => password
  | .shadowsocks method password _ => method ++ ':' :: password
  | .hysteria2 password .. => password
  | .socks username password _ => username.getD [] ++ ':' :: password.getD []

/-- The member that the parser requires of every type but `socks`. -/
def required : SingboxWriter.Outbound → Option Text
  | .vless uuid .. => some uuid
  | .vmess uuid .. => some uuid
  | .trojan password .. => some password
  | .shadowsocks method .. => some method
  | .hysteria2 password .. => some password
  | .socks .. => none

end Outbound

section Builders

variable {json : SerdeJson} {tag host : Text} {port : UInt16} {entry : ProxyEntry}
  {map : SingboxWriter.Object}

theorem mem_of_mem_field {k : Text} {value : Option Json} {f : Text × Json} {l : List Text}
    (h : f ∈ field k value) (hk : k ∈ l) : f.1 ∈ l :=
  mem_field h ▸ hk

theorem object_ne (tag host : Text) (port : UInt16) {o : SingboxWriter.Outbound} {key : Text}
    (h : key ∉ (["tag", "type", "server", "server_port"] : List Text)) :
    objectGet (o.object tag host port) key = objectGet o.options key := by
  simp only [List.mem_cons, List.not_mem_nil, or_false, not_or] at h
  rw [Outbound.object, objectGet_ne h.1, objectGet_ne h.2.1, objectGet_ne h.2.2.1,
    objectGet_ne h.2.2.2]

theorem object_server (o : SingboxWriter.Outbound) :
    objectGet (o.object tag host port) "server" = some (.str host) := by
  rw [Outbound.object, objectGet_ne (by decide), objectGet_ne (by decide), objectGet_self]

theorem object_port (o : SingboxWriter.Outbound) :
    objectGet (o.object tag host port) "server_port" = some (.num (.posInt port.toNat)) := by
  rw [Outbound.object, objectGet_ne (by decide), objectGet_ne (by decide),
    objectGet_ne (by decide), objectGet_self]

theorem requiredStr_eq_ok {key value v : Text} (h : objectGet map key = some (.str value)) :
    requiredStr map key = .ok v ↔ value ≠ [] ∧ v = value := by
  have hfield : strField map key = kept (some value) := strField_of_get (by rw [h]; rfl)
  rw [requiredStr, hfield]
  by_cases hv : value = []
  · simp [hv, kept, Option.filter_some]
  · simp [hv, kept, Option.filter_some, eq_comm]

theorem nativeEndpoint_eq_ok (o : SingboxWriter.Outbound) {endpoint : Text × UInt16} :
    nativeEndpoint (o.object tag host port) = .ok endpoint ↔
      host ≠ [] ∧ endpoint = (host, port) := by
  have hport : numericField (o.object tag host port) "server_port" = .ok port := by
    rw [numericField, object_port]
    have hlt : port.toNat < 65536 := port.toNat_lt
    simp only [Number.asU64, hlt, if_true, UInt16.ofNat_toNat]
  rw [nativeEndpoint, bind_eq_ok]
  constructor
  · rintro ⟨h, hserver, hrest⟩
    obtain ⟨hne, rfl⟩ := (requiredStr_eq_ok (object_server o)).mp hserver
    rw [hport] at hrest
    exact ⟨hne, (Except.ok.inj hrest).symm⟩
  · rintro ⟨hne, rfl⟩
    refine ⟨host, (requiredStr_eq_ok (object_server o)).mpr ⟨hne, rfl⟩, ?_⟩
    rw [hport]
    rfl

/-- The shape of every builder but that of `socks`. -/
theorem native_eq_ok (o : SingboxWriter.Outbound) {key value : Text} {scheme : Scheme}
    {credential : Text → Text} {params : List Param}
    (h : objectGet (o.object tag host port) key = some (.str value)) :
    (do
      let (host, port) ← nativeEndpoint (o.object tag host port)
      let v ← requiredStr (o.object tag host port) key
      finish scheme tag host port (credential v) params) = .ok entry ↔
      host ≠ [] ∧ value ≠ [] ∧ finish scheme tag host port (credential value) params = .ok entry := by
  rw [bind_eq_ok]
  constructor
  · rintro ⟨endpoint, hendpoint, hrest⟩
    obtain ⟨hhost, rfl⟩ := (nativeEndpoint_eq_ok o).mp hendpoint
    obtain ⟨v, hv, hfinish⟩ := bind_eq_ok.mp hrest
    obtain ⟨hvalue, rfl⟩ := (requiredStr_eq_ok h).mp hv
    exact ⟨hhost, hvalue, hfinish⟩
  · rintro ⟨hhost, hvalue, hfinish⟩
    exact ⟨(host, port), (nativeEndpoint_eq_ok o).mpr ⟨hhost, rfl⟩,
      bind_eq_ok.mpr ⟨value, (requiredStr_eq_ok h).mpr ⟨hvalue, rfl⟩, hfinish⟩⟩

theorem nativeStreamParams_of_get (json : SerdeJson) (spelling : TlsSpelling) (networkKey : Text)
    {tls : Option TlsOptions} {transport : Option Transport}
    (htls : objectGet map "tls" = (tls.map (·.fields)).map .obj)
    (htransport : objectGet map "transport" = (transport.map (·.fields)).map .obj) :
    nativeStreamParams json map spelling networkKey =
      spelled (streamSlots spelling networkKey tls transport) := by
  rw [nativeStreamParams, objField, objField, htls, htransport, streamSlots, spelled_append]
  congr 1
  · cases tls with
    | none => rfl
    | some tls => exact nativeTlsParams_fields spelling tls
  · cases transport with
    | none => rfl
    | some transport => exact nativeTransportParams_fields json networkKey transport

/-- Every member of the object is one that the builder consumes. -/
theorem passthrough_nil {o : SingboxWriter.Outbound} {consumed : List Text}
    (hcommon : ∀ k ∈ (["tag", "type", "server", "server_port"] : List Text), k ∈ consumed)
    (hoptions : ∀ f ∈ o.options, f.1 ∈ consumed) :
    passthrough json (o.object tag host port) consumed = [] := by
  apply leftovers_nil
  intro f hf
  apply List.mem_append_left
  simp only [Outbound.object, List.mem_cons] at hf
  rcases hf with rfl | rfl | rfl | rfl | hf
  · exact hcommon "tag" (by decide)
  · exact hcommon "type" (by decide)
  · exact hcommon "server" (by decide)
  · exact hcommon "server_port" (by decide)
  · exact hoptions f hf

section Vless

variable (uuid : Text) (flow : Option Text) (tls : Option TlsOptions) (transport : Option Transport)

theorem vless_flow : objectGet (Outbound.vless uuid flow tls transport).options "flow" =
    flow.map .str := by
  exact (options_get _ _).trans Option.or_none

theorem vless_tls : objectGet (Outbound.vless uuid flow tls transport).options "tls" =
    (tls.map (·.fields)).map .obj := by
  exact (options_get _ _).trans Option.or_none

theorem vless_transport : objectGet (Outbound.vless uuid flow tls transport).options "transport" =
    (transport.map (·.fields)).map .obj := by
  exact (options_get _ _).trans Option.or_none

/-- A written vless outbound is read with its flow in front of the stream parameters. -/
theorem nativeVless_eq_ok :
    nativeVless json ((Outbound.vless uuid flow tls transport).object tag host port) tag =
        .ok entry ↔
      host ≠ [] ∧ uuid ≠ [] ∧ finish .vless tag host port uuid
        (spelled (Outbound.slots (.vless uuid flow tls transport))) = .ok entry := by
  have hrest : passthrough json ((Outbound.vless uuid flow tls transport).object tag host port)
      ["tag", "type", "server", "server_port", "uuid", "flow", "tls", "transport"] = [] := by
    apply passthrough_nil (by decide)
    intro f hf
    simp only [Outbound.options, List.mem_cons, List.mem_append] at hf
    rcases hf with rfl | (hf | hf) | hf
    · exact List.mem_of_elem_eq_true rfl
    · exact mem_of_mem_field hf (by decide)
    · exact mem_of_mem_field hf (by decide)
    · exact mem_of_mem_field hf (by decide)
  have hflow := strField_of_get
    ((object_ne tag host port (by decide)).trans (vless_flow uuid flow tls transport))
  have hstream := nativeStreamParams_of_get json .security "type"
    ((object_ne tag host port (by decide)).trans (vless_tls uuid flow tls transport))
    ((object_ne tag host port (by decide)).trans (vless_transport uuid flow tls transport))
  rw [nativeVless, hflow, pushSome_kept, hstream, hrest, List.append_nil, Outbound.slots,
    spelled_cons]
  exact native_eq_ok (.vless uuid flow tls transport)
    ((object_ne tag host port (by decide)).trans objectGet_self)

end Vless

section Vmess

variable (uuid cipher : Text) (alterId : ℕ) (tls : Option TlsOptions)
  (transport : Option Transport)

theorem vmess_security : objectGet (Outbound.vmess uuid cipher alterId tls transport).options
    "security" = (some cipher).map .str := by
  rw [Outbound.options, objectGet_ne (by decide), objectGet_self, Option.map_some]

theorem vmess_alterId : objectGet (Outbound.vmess uuid cipher alterId tls transport).options
    "alter_id" = some (.num (.posInt alterId)) := by
  rw [Outbound.options, objectGet_ne (by decide), objectGet_ne (by decide), objectGet_self]

theorem vmess_tls : objectGet (Outbound.vmess uuid cipher alterId tls transport).options "tls" =
    (tls.map (·.fields)).map .obj := by
  exact (options_get _ _).trans Option.or_none

theorem vmess_transport : objectGet (Outbound.vmess uuid cipher alterId tls transport).options
    "transport" = (transport.map (·.fields)).map .obj := by
  exact (options_get _ _).trans Option.or_none

theorem nativeVmess_eq_ok :
    nativeVmess json ((Outbound.vmess uuid cipher alterId tls transport).object tag host port) tag =
        .ok entry ↔
      host ≠ [] ∧ uuid ≠ [] ∧ finish .vmess tag host port uuid
        (spelled (Outbound.slots (.vmess uuid cipher alterId tls transport))) = .ok entry := by
  have hrest : passthrough json
      ((Outbound.vmess uuid cipher alterId tls transport).object tag host port)
      ["tag", "type", "server", "server_port", "uuid", "security", "alter_id", "tls",
        "transport"] = [] := by
    apply passthrough_nil (by decide)
    intro f hf
    simp only [Outbound.options, List.mem_cons, List.mem_append] at hf
    rcases hf with rfl | rfl | rfl | hf | hf
    · exact List.mem_of_elem_eq_true rfl
    · exact List.mem_of_elem_eq_true rfl
    · exact List.mem_of_elem_eq_true rfl
    · exact mem_of_mem_field hf (by decide)
    · exact mem_of_mem_field hf (by decide)
  have hsecurity := strField_of_get
    ((object_ne tag host port (by decide)).trans (vmess_security uuid cipher alterId tls transport))
  have halter := (object_ne tag host port (by decide)).trans
    (vmess_alterId uuid cipher alterId tls transport)
  have hstream := nativeStreamParams_of_get json .tls "net"
    ((object_ne tag host port (by decide)).trans (vmess_tls uuid cipher alterId tls transport))
    ((object_ne tag host port (by decide)).trans
      (vmess_transport uuid cipher alterId tls transport))
  rw [nativeVmess, hsecurity, pushSome_kept, halter, hstream, hrest, List.append_nil,
    Outbound.slots, spelled_cons, spelled_cons, ← List.append_assoc]
  exact native_eq_ok (.vmess uuid cipher alterId tls transport)
    ((object_ne tag host port (by decide)).trans objectGet_self)

end Vmess

section Trojan

variable (password : Text) (tls : TlsOptions) (transport : Option Transport)

theorem trojan_tls : objectGet (Outbound.trojan password tls transport).options "tls" =
    ((some tls).map (·.fields)).map .obj := by
  exact (options_get _ _).trans rfl

theorem trojan_transport : objectGet (Outbound.trojan password tls transport).options "transport" =
    (transport.map (·.fields)).map .obj := by
  exact (options_get _ _).trans Option.or_none

theorem nativeTrojan_eq_ok :
    nativeTrojan json ((Outbound.trojan password tls transport).object tag host port) tag =
        .ok entry ↔
      host ≠ [] ∧ password ≠ [] ∧ finish .trojan tag host port password
        (spelled (Outbound.slots (.trojan password tls transport))) = .ok entry := by
  have hrest : passthrough json ((Outbound.trojan password tls transport).object tag host port)
      ["tag", "type", "server", "server_port", "password", "tls", "transport"] = [] := by
    apply passthrough_nil (by decide)
    intro f hf
    simp only [Outbound.options, List.mem_cons, List.mem_append] at hf
    rcases hf with rfl | hf | hf
    · exact List.mem_of_elem_eq_true rfl
    · exact mem_of_mem_field hf (by decide)
    · exact mem_of_mem_field hf (by decide)
  have hstream := nativeStreamParams_of_get json .security "type"
    ((object_ne tag host port (by decide)).trans (trojan_tls password tls transport))
    ((object_ne tag host port (by decide)).trans (trojan_transport password tls transport))
  rw [nativeTrojan, hstream, hrest, List.append_nil, Outbound.slots]
  exact native_eq_ok (.trojan password tls transport)
    ((object_ne tag host port (by decide)).trans objectGet_self)

end Trojan

section Shadowsocks

variable (method password : Text) (plugin : Option (Text × Option Text))

theorem shadowsocks_password : objectGet (Outbound.shadowsocks method password plugin).options
    "password" = (some password).map .str := by
  rw [Outbound.options, objectGet_ne (by decide), objectGet_self, Option.map_some]

theorem shadowsocks_plugin : objectGet (Outbound.shadowsocks method password plugin).options
    "plugin" = (plugin.map (·.1)).map .str := by
  exact (options_get _ _).trans Option.or_none

theorem shadowsocks_pluginOpts : objectGet (Outbound.shadowsocks method password plugin).options
    "plugin_opts" = (plugin.bind (·.2)).map .str := by
  exact (options_get _ _).trans Option.or_none

theorem getD_kept (value : Option Text) : (kept value).getD [] = value.getD [] := by
  cases value with
  | none => rfl
  | some t =>
    by_cases h : t = []
    · simp [h, kept, Option.filter_some]
    · simp [h, kept, Option.filter_some]

/-- Method and password return as one credential, and the plugin with its options as one text. -/
theorem nativeSs_eq_ok :
    nativeSs json ((Outbound.shadowsocks method password plugin).object tag host port) tag =
        .ok entry ↔
      host ≠ [] ∧ method ≠ [] ∧ finish .ss tag host port (method ++ ':' :: password)
        (spelled (Outbound.slots (.shadowsocks method password plugin))) = .ok entry := by
  have hrest : passthrough json
      ((Outbound.shadowsocks method password plugin).object tag host port)
      ["tag", "type", "server", "server_port", "method", "password", "plugin",
        "plugin_opts"] = [] := by
    apply passthrough_nil (by decide)
    intro f hf
    simp only [Outbound.options, List.mem_cons, List.mem_append] at hf
    rcases hf with rfl | rfl | hf | hf
    · exact List.mem_of_elem_eq_true rfl
    · exact List.mem_of_elem_eq_true rfl
    · exact mem_of_mem_field hf (by decide)
    · exact mem_of_mem_field hf (by decide)
  have hpassword : (strField ((Outbound.shadowsocks method password plugin).object tag host port)
      "password").getD [] = password := by
    rw [strField_of_get ((object_ne tag host port (by decide)).trans
      (shadowsocks_password method password plugin)), getD_kept, Option.getD_some]
  have hplugin := strField_of_get
    ((object_ne tag host port (by decide)).trans (shadowsocks_plugin method password plugin))
  have hopts := strField_of_get
    ((object_ne tag host port (by decide)).trans (shadowsocks_pluginOpts method password plugin))
  rw [nativeSs, hpassword, hplugin, hopts, hrest, Outbound.slots, spelled_cons, spelled_nil,
    pluginText]
  exact native_eq_ok (.shadowsocks method password plugin)
    ((object_ne tag host port (by decide)).trans objectGet_self)

end Shadowsocks

section Hysteria2

variable (password : Text) (tls : TlsOptions) (obfs : Option (Text × Option Text))
  (upMbps downMbps : Option ℕ)

def obfsFields (o : Text × Option Text) : SingboxWriter.Object :=
  ("type", .str o.1) :: textField "password" o.2

theorem hysteria2_tls : objectGet (Outbound.hysteria2 password tls obfs upMbps downMbps).options
    "tls" = some (.obj tls.fields) := by
  exact (options_get _ _).trans rfl

theorem hysteria2_obfs : objectGet (Outbound.hysteria2 password tls obfs upMbps downMbps).options
    "obfs" = (obfs.map obfsFields).map .obj := by
  exact (options_get _ _).trans Option.or_none

theorem hysteria2_up : objectGet (Outbound.hysteria2 password tls obfs upMbps downMbps).options
    "up_mbps" = upMbps.map fun n => .num (.posInt n) := by
  exact (options_get _ _).trans Option.or_none

theorem hysteria2_down : objectGet (Outbound.hysteria2 password tls obfs upMbps downMbps).options
    "down_mbps" = downMbps.map fun n => .num (.posInt n) := by
  exact (options_get _ _).trans Option.or_none

theorem rateParam_of_get {key : Text} (out : Text) {rate : Option ℕ}
    (h : objectGet map key = rate.map fun n => .num (.posInt n)) :
    rateParam map key out = pushSome true out (rate.map decimal) := by
  rw [rateParam, h]
  cases rate <;> rfl

theorem nativeHysteria2_eq_ok :
    nativeHysteria2 json ((Outbound.hysteria2 password tls obfs upMbps downMbps).object tag host port)
        tag = .ok entry ↔
      host ≠ [] ∧ password ≠ [] ∧ finish .hysteria2 tag host port password
        (spelled (Outbound.slots (.hysteria2 password tls obfs upMbps downMbps))) = .ok entry := by
  have hrest : passthrough json
      ((Outbound.hysteria2 password tls obfs upMbps downMbps).object tag host port)
      ["tag", "type", "server", "server_port", "password", "tls", "obfs", "up_mbps",
        "down_mbps"] = [] := by
    apply passthrough_nil (by decide)
    intro f hf
    simp only [Outbound.options, List.mem_cons, List.mem_append] at hf
    rcases hf with rfl | ((hf | hf) | hf) | hf
    · exact List.mem_of_elem_eq_true rfl
    · exact mem_of_mem_field hf (by decide)
    · exact mem_of_mem_field hf (by decide)
    · exact mem_of_mem_field hf (by decide)
    · exact mem_of_mem_field hf (by decide)
  have hobfs : objField
      ((Outbound.hysteria2 password tls obfs upMbps downMbps).object tag host port) "obfs" =
      obfs.map obfsFields := by
    rw [objField, object_ne tag host port (by decide), hysteria2_obfs]
    cases obfs <;> rfl
  have htls : objField
      ((Outbound.hysteria2 password tls obfs upMbps downMbps).object tag host port) "tls" =
      some tls.fields := by
    rw [objField, object_ne tag host port (by decide), hysteria2_tls]
    rfl
  have hkind : (obfs.map obfsFields).bind (strField · "type") = kept (obfs.map (·.1)) := by
    cases obfs with
    | none => rfl
    | some o => exact strField_of_get objectGet_self
  have hpassword : (obfs.map obfsFields).bind (strField · "password") = kept (obfs.bind (·.2)) := by
    cases obfs with
    | none => rfl
    | some o =>
      apply strField_of_get
      rw [obfsFields, objectGet_ne (by decide)]
      exact field_self _
  have hup := rateParam_of_get "upMbps" ((object_ne tag host port (by decide)).trans
    (hysteria2_up password tls obfs upMbps downMbps))
  have hdown := rateParam_of_get "downMbps" ((object_ne tag host port (by decide)).trans
    (hysteria2_down password tls obfs upMbps downMbps))
  rw [nativeHysteria2, htls, Option.elim_some, nativeTlsParams_fields, hobfs, hkind, hpassword,
    pushSome_kept, pushSome_kept, hup, hdown, hrest, List.append_nil, Outbound.slots,
    spelled_append, hysteria2Slots, spelled_cons, spelled_cons, spelled_cons, spelled_cons,
    spelled_nil, List.append_nil]
  simp only [List.append_assoc]
  exact native_eq_ok (.hysteria2 password tls obfs upMbps downMbps)
    ((object_ne tag host port (by decide)).trans objectGet_self)

end Hysteria2

section Socks

variable (username password : Option Text) (tls : Option TlsOptions)

theorem socks_username : objectGet (Outbound.socks username password tls).options "username" =
    username.map .str := by
  exact (options_get _ _).trans Option.or_none

theorem socks_password : objectGet (Outbound.socks username password tls).options "password" =
    password.map .str := by
  exact (options_get _ _).trans Option.or_none

theorem socks_tls : objectGet (Outbound.socks username password tls).options "tls" =
    (tls.map (·.fields)).map .obj := by
  exact (options_get _ _).trans Option.or_none

theorem socksTlsParams_fields (tls : TlsOptions) :
    socksTlsParams tls.fields = spelled (socksSlots tls) := by
  have henabled : (boolField tls.fields "enabled" == some true) = true := by
    rw [boolField, tls_enabled]
    rfl
  have hinsecure : (boolField tls.fields "insecure" == some true) = tls.insecure := by
    rw [boolField, tls_insecure]
    cases tls.insecure <;> rfl
  have hname : strField tls.fields "server_name" = kept tls.serverName :=
    strField_of_get (tls_serverName tls)
  have hflag : pushSome true "insecure" (if tls.insecure then some "true" else none) =
      if tls.insecure then pushParam true "insecure" "true" else [] := by
    cases tls.insecure <;> rfl
  rw [socksTlsParams, if_pos henabled, hinsecure, hname, pushSome_kept, socksSlots, spelled_cons,
    spelled_cons, spelled_cons, spelled_nil, List.append_nil, hflag, pushSome_some,
    List.append_assoc]

/-- Either part of the credential may be missing, and is then read as blank. -/
theorem nativeSocks_eq_ok :
    nativeSocks json ((Outbound.socks username password tls).object tag host port) tag =
        .ok entry ↔
      host ≠ [] ∧ finish .socks5 tag host port (username.getD [] ++ ':' :: password.getD [])
        (spelled (Outbound.slots (.socks username password tls))) = .ok entry := by
  have hrest : passthrough json ((Outbound.socks username password tls).object tag host port)
      ["tag", "type", "server", "server_port", "username", "password", "tls", "version"] = [] := by
    apply passthrough_nil (by decide)
    intro f hf
    simp only [Outbound.options, List.mem_append] at hf
    rcases hf with (hf | hf) | hf
    · exact mem_of_mem_field hf (by decide)
    · exact mem_of_mem_field hf (by decide)
    · exact mem_of_mem_field hf (by decide)
  have husername := strField_of_get
    ((object_ne tag host port (by decide)).trans (socks_username username password tls))
  have hpassword := strField_of_get
    ((object_ne tag host port (by decide)).trans (socks_password username password tls))
  have htls : (objField ((Outbound.socks username password tls).object tag host port) "tls").elim []
      socksTlsParams = spelled (Outbound.slots (.socks username password tls)) := by
    rw [objField, object_ne tag host port (by decide), socks_tls]
    cases tls with
    | none => rfl
    | some tls => exact socksTlsParams_fields tls
  rw [nativeSocks, husername, hpassword, getD_kept, getD_kept, htls, hrest, List.append_nil,
    bind_eq_ok]
  constructor
  · rintro ⟨endpoint, hendpoint, hfinish⟩
    obtain ⟨hhost, rfl⟩ := (nativeEndpoint_eq_ok _).mp hendpoint
    exact ⟨hhost, hfinish⟩
  · rintro ⟨hhost, hfinish⟩
    exact ⟨(host, port), (nativeEndpoint_eq_ok _).mpr ⟨hhost, rfl⟩, hfinish⟩

end Socks

end Builders

/-- A parameter comes from a slot with nonempty text. -/
theorem mem_spelled {slots : List (Text × Option Text)} {p : Param} :
    p ∈ spelled slots ↔ ∃ s ∈ slots, ∃ v, s.2 = some v ∧ v ≠ [] ∧ p = ⟨s.1, v, true⟩ := by
  unfold spelled
  rw [List.mem_flatMap]
  constructor
  · rintro ⟨⟨k, value⟩, hs, hp⟩
    cases value with
    | none => exact absurd hp List.not_mem_nil
    | some v =>
      by_cases hv : v = []
      · rw [pushSome_some, pushParam, if_pos hv] at hp
        exact absurd hp List.not_mem_nil
      · rw [pushSome_some, pushParam, if_neg hv, List.mem_singleton] at hp
        exact ⟨_, hs, v, rfl, hv, hp⟩
  · rintro ⟨⟨k, value⟩, hs, v, rfl, hv, rfl⟩
    refine ⟨_, hs, ?_⟩
    rw [pushSome_some, pushParam, if_neg hv]
    exact List.mem_singleton_self _

theorem length_spelled_le (slots : List (Text × Option Text)) :
    (spelled slots).length ≤ slots.length := by
  induction slots with
  | nil => exact le_rfl
  | cons s slots ih =>
    have hone : (pushSome true s.1 s.2).length ≤ 1 := by
      cases h : s.2 with
      | none => exact Nat.zero_le 1
      | some v =>
        rw [pushSome_some, pushParam]
        split <;> simp
    rw [spelled_cons, List.length_append, List.length_cons]
    omega

def Keyed (keys : List Text) (slots : List (Text × Option Text)) : Prop :=
  ∀ s ∈ slots, s.1 ∈ keys

section Keys

variable {keys : List Text} {slots slots' : List (Text × Option Text)}

theorem Keyed.nil : Keyed keys [] :=
  fun _ h => absurd h List.not_mem_nil

theorem Keyed.cons {k : Text} {v : Option Text} (hk : k ∈ keys) (h : Keyed keys slots) :
    Keyed keys ((k, v) :: slots) :=
  List.forall_mem_cons.mpr ⟨hk, h⟩

theorem Keyed.append (h : Keyed keys slots) (h' : Keyed keys slots') :
    Keyed keys (slots ++ slots') :=
  List.forall_mem_append.mpr ⟨h, h'⟩

theorem Keyed.mono {keys' : List Text} (h : Keyed keys slots) (hkeys : ∀ k ∈ keys, k ∈ keys') :
    Keyed keys' slots :=
  fun s hs => hkeys _ (h s hs)

theorem Keyed.of_all (h : (slots.map Prod.fst).all (keys.contains ·) = true) :
    Keyed keys slots :=
  fun s hs => List.contains_iff_mem.mp (List.all_eq_true.mp h s.1 (List.mem_map_of_mem hs))

/-- The keys of the TLS parameters. -/
def tlsKeys : List Text :=
  ["security", "tls", "pbk", "sid", "sni", "insecure", "alpn", "fp"]

def transportKeys : List Text := ["type", "net", "path", "host", "serviceName"]

theorem tlsSlots_keyed (spelling : TlsSpelling) (tls : TlsOptions) :
    Keyed tlsKeys (tlsSlots spelling tls) := by
  have hrest : Keyed tlsKeys (tlsSlots spelling tls).tail :=
    Keyed.of_all rfl
  refine List.forall_mem_cons.mpr ⟨?_, hrest⟩
  cases spelling <;> exact List.mem_of_elem_eq_true rfl

theorem tls_keyed (spelling : TlsSpelling) (tls : Option TlsOptions) :
    Keyed tlsKeys (tls.elim [] (tlsSlots spelling)) := by
  cases tls with
  | none => exact Keyed.nil
  | some tls => exact tlsSlots_keyed spelling tls

theorem transport_keyed {networkKey : Text} (h : networkKey ∈ transportKeys)
    (transport : Option Transport) :
    Keyed transportKeys (transport.elim [] (transportSlots networkKey)) := by
  cases transport with
  | none => exact Keyed.nil
  | some transport =>
    cases transport with
    | ws => exact Keyed.cons h (Keyed.of_all rfl)
    | httpUpgrade => exact Keyed.cons h (Keyed.of_all rfl)
    | grpc => exact Keyed.cons h (Keyed.of_all rfl)
    | http => exact Keyed.cons h (Keyed.of_all rfl)

theorem streamSlots_keyed {networkKey : Text} (h : networkKey ∈ transportKeys)
    (spelling : TlsSpelling) (tls : Option TlsOptions) (transport : Option Transport) :
    Keyed (tlsKeys ++ transportKeys) (streamSlots spelling networkKey tls transport) :=
  ((tls_keyed spelling tls).mono fun _ => List.mem_append_left _).append
    ((transport_keyed h transport).mono fun _ => List.mem_append_right _)

/-- The keys of the parameters that written outbounds are read with. -/
def slotKeys : List Text :=
  tlsKeys ++ transportKeys ++
    (["flow", "scy", "aid", "plugin", "obfs", "obfs-password", "upMbps", "downMbps"] : List Text)

theorem slots_keyed (o : SingboxWriter.Outbound) : Keyed slotKeys (Outbound.slots o) := by
  have hstream : ∀ k ∈ tlsKeys ++ transportKeys, k ∈ slotKeys :=
    fun k hk => List.mem_append_left _ hk
  cases o with
  | vless uuid flow tls transport =>
    exact Keyed.cons (by decide) ((streamSlots_keyed (by decide) _ _ _).mono hstream)
  | vmess uuid cipher alterId tls transport =>
    exact Keyed.cons (by decide)
      (Keyed.cons (by decide) ((streamSlots_keyed (by decide) _ _ _).mono hstream))
  | trojan password tls transport =>
    exact (streamSlots_keyed (by decide) .security (some tls) transport).mono hstream
  | shadowsocks => exact Keyed.of_all rfl
  | hysteria2 password tls obfs upMbps downMbps =>
    refine Keyed.append ((tlsSlots_keyed _ _).mono (by decide)) ?_
    exact Keyed.of_all rfl
  | socks username password tls =>
    cases tls with
    | none => exact Keyed.nil
    | some tls => exact Keyed.of_all rfl

theorem length_streamSlots_le (spelling : TlsSpelling) (networkKey : Text)
    (tls : Option TlsOptions) (transport : Option Transport) :
    (streamSlots spelling networkKey tls transport).length ≤ 10 := by
  have htls : (tls.elim [] (tlsSlots spelling)).length ≤ 7 := by
    cases tls with
    | none => exact Nat.zero_le 7
    | some tls => exact Nat.le_refl 7
  have htransport : (transport.elim [] (transportSlots networkKey)).length ≤ 3 := by
    cases transport with
    | none => exact Nat.zero_le 3
    | some transport => cases transport <;> exact of_decide_eq_true rfl
  rw [streamSlots, List.length_append]
  omega

/-- Far below the limit of the parser, so that no written outbound is refused for it. -/
theorem length_slots_le (o : SingboxWriter.Outbound) :
    (Outbound.slots o).length ≤ maxQueryParams := by
  have hmax : maxQueryParams = 256 := rfl
  cases o with
  | vless uuid flow tls transport =>
    have h := length_streamSlots_le .security "type" tls transport
    rw [Outbound.slots, List.length_cons]
    omega
  | vmess uuid cipher alterId tls transport =>
    have h := length_streamSlots_le .tls "net" tls transport
    rw [Outbound.slots, List.length_cons, List.length_cons]
    omega
  | trojan password tls transport =>
    have h := length_streamSlots_le .security "type" (some tls) transport
    rw [Outbound.slots]
    omega
  | shadowsocks => exact of_decide_eq_true rfl
  | hysteria2 => exact of_decide_eq_true rfl
  | socks username password tls => cases tls <;> exact of_decide_eq_true rfl

end Keys

end SingboxReading
