import Fumox.SingboxRereading

/-!
One trip of an entry through the sing-box writer and parser: which entries come back with their
identity and are written as the same outbound again.
-/

namespace SingboxRoundTrip

open RustText PercentText ProxyModels PayloadGuards UriGrammar FormatParams JsonValue YamlValue
open StructuredEntries SingboxParser SingboxWriter SingboxReading SingboxRereading

/-- Text that the parser admits as a parameter. -/
def Printable (v : Text) : Prop :=
  hasLineBreak v = false ∧ (bytes v).length ≤ maxParamBytes

section Parsed

variable {json : SerdeJson} {tag host : Text} {port : UInt16} {entry : ProxyEntry}

def nativeOf (json : SerdeJson) (o : SingboxWriter.Outbound) (map : SingboxWriter.Object)
    (name : Text) : Except SingboxError ProxyEntry :=
  match o with
  | .vless .. => nativeVless json map name
  | .vmess .. => nativeVmess json map name
  | .trojan .. => nativeTrojan json map name
  | .shadowsocks .. => nativeSs json map name
  | .hysteria2 .. => nativeHysteria2 json map name
  | .socks .. => nativeSocks json map name

theorem buildNative_eq (map : SingboxWriter.Object) (kind name : Text) :
    buildNative json map kind name =
      if kind = "vless" then some ((nativeVless json map name).map fun e => [e])
      else if kind = "vmess" then some ((nativeVmess json map name).map fun e => [e])
      else if kind = "trojan" then some ((nativeTrojan json map name).map fun e => [e])
      else if kind = "shadowsocks" then some ((nativeSs json map name).map fun e => [e])
      else if kind = "hysteria2" then some ((nativeHysteria2 json map name).map fun e => [e])
      else if kind = "socks" ∨ kind = "socks5" then
        some ((nativeSocks json map name).map fun e => [e])
      else none :=
  rfl

theorem buildNative_kind (o : SingboxWriter.Outbound) (map : SingboxWriter.Object) (name : Text) :
    buildNative json map o.kind name = some ((nativeOf json o map name).map fun e => [e]) := by
  rw [buildNative_eq]
  cases o with
  | vless => exact if_pos rfl
  | vmess => exact (if_neg (of_decide_eq_true rfl)).trans (if_pos rfl)
  | trojan =>
    refine (if_neg (of_decide_eq_true rfl)).trans ?_
    exact (if_neg (of_decide_eq_true rfl)).trans (if_pos rfl)
  | shadowsocks =>
    refine (if_neg (of_decide_eq_true rfl)).trans ((if_neg (of_decide_eq_true rfl)).trans ?_)
    exact (if_neg (of_decide_eq_true rfl)).trans (if_pos rfl)
  | hysteria2 =>
    refine (if_neg (of_decide_eq_true rfl)).trans ((if_neg (of_decide_eq_true rfl)).trans ?_)
    refine (if_neg (of_decide_eq_true rfl)).trans ((if_neg (of_decide_eq_true rfl)).trans ?_)
    exact if_pos rfl
  | socks =>
    refine (if_neg (of_decide_eq_true rfl)).trans ((if_neg (of_decide_eq_true rfl)).trans ?_)
    refine (if_neg (of_decide_eq_true rfl)).trans ((if_neg (of_decide_eq_true rfl)).trans ?_)
    exact (if_neg (of_decide_eq_true rfl)).trans (if_pos (.inl rfl))

theorem nativeOf_eq_ok (o : SingboxWriter.Outbound) :
    nativeOf json o (o.object tag host port) tag = .ok entry ↔
      host ≠ [] ∧ (∀ v ∈ Outbound.required o, v ≠ []) ∧
        finish (Outbound.scheme o) tag host port (Outbound.credential o)
          (spelled (Outbound.slots o)) = .ok entry := by
  cases o with
  | vless uuid flow tls transport =>
    simpa [nativeOf, Outbound.required, Outbound.scheme, Outbound.credential] using
      nativeVless_eq_ok uuid flow tls transport
  | vmess uuid cipher alterId tls transport =>
    simpa [nativeOf, Outbound.required, Outbound.scheme, Outbound.credential] using
      nativeVmess_eq_ok uuid cipher alterId tls transport
  | trojan password tls transport =>
    simpa [nativeOf, Outbound.required, Outbound.scheme, Outbound.credential] using
      nativeTrojan_eq_ok password tls transport
  | shadowsocks method password plugin =>
    simpa [nativeOf, Outbound.required, Outbound.scheme, Outbound.credential] using
      nativeSs_eq_ok method password plugin
  | hysteria2 password tls obfs upMbps downMbps =>
    simpa [nativeOf, Outbound.required, Outbound.scheme, Outbound.credential] using
      nativeHysteria2_eq_ok password tls obfs upMbps downMbps
  | socks username password tls =>
    simpa [nativeOf, Outbound.required, Outbound.scheme, Outbound.credential] using
      nativeSocks_eq_ok username password tls

theorem outboundKind_object (o : SingboxWriter.Outbound) :
    outboundKind (o.object tag host port) = some (true, o.kind) := by
  have htype : objectGet (o.object tag host port) "type" = some (.str o.kind) := by
    rw [Outbound.object, objectGet_ne (by decide), objectGet_self]
  rw [outboundKind, htype]
  rfl

theorem parseOutbound_object (o : SingboxWriter.Outbound) :
    (parseOutbound json {} (.obj (o.object tag host port))).entries = [entry] ↔
      nativeOf json o (o.object tag host port) tag = .ok entry := by
  have hproxy : o.kind ∉ nonProxyTypes := by
    cases o <;> exact of_decide_eq_true rfl
  have htag : ((objectGet (o.object tag host port) "tag").bind Json.asStr).getD [] = tag := by
    rw [Outbound.object, objectGet_self]
    rfl
  simp only [parseOutbound, outboundKind_object, if_neg hproxy, htag, buildOutbound, if_true,
    buildNative_kind]
  cases nativeOf json o (o.object tag host port) tag with
  | error e => simp [Except.map]
  | ok e => simp [Except.map]

end Parsed

theorem finish_eq_ok {scheme : Scheme} {name host : Text} {port : UInt16} {credential : Text}
    {params : List Param} {entry : ProxyEntry} :
    finish scheme name host port credential params = .ok entry ↔
      hasLineBreak host = false ∧ hasLineBreak credential = false ∧
        (∀ p ∈ params, hasLineBreak p.value = false) ∧ params.length ≤ maxQueryParams ∧
        (∀ p ∈ params, (bytes p.key).length ≤ maxParamBytes ∧
          (bytes p.value).length ≤ maxParamBytes) ∧
        entry = ⟨scheme, name, host, port, credential, params, [], []⟩ := by
  have hsize : ∀ p : Param, (checkParamSize p.key p.value).mapError
      (fun _ => SingboxError.oversizedField) = .ok () ↔
        (bytes p.key).length ≤ maxParamBytes ∧ (bytes p.value).length ≤ maxParamBytes := by
    intro p
    unfold checkParamSize
    split_ifs with h
    · simp only [Except.mapError, reduceCtorEq, false_iff]
      omega
    · simp only [Except.mapError, true_iff]
      omega
  unfold finish
  simp only [bind_eq_ok, rejectLineBreaks_eq_ok, ensure_eq_ok]
  constructor
  · rintro ⟨_, hhost, _, hcredential, _, hvalues, _, hcount, _, hsizes, hentry⟩
    refine ⟨hhost, hcredential, ?_, hcount, ?_, (Except.ok.inj hentry).symm⟩
    · exact fun p hp => rejectLineBreaks_eq_ok.mp (forM_eq_ok.mp hvalues p hp)
    · exact fun p hp => (hsize p).mp (forM_eq_ok.mp hsizes p hp)
  · rintro ⟨hhost, hcredential, hvalues, hcount, hsizes, rfl⟩
    exact ⟨(), hhost, (), hcredential, (),
      forM_eq_ok.mpr fun p hp => rejectLineBreaks_eq_ok.mpr (hvalues p hp), (), hcount, (),
      forM_eq_ok.mpr fun p hp => (hsize p).mpr (hsizes p hp), rfl⟩

/-- The parser admits the slots of an outbound value by value. -/
theorem finish_slots (o : SingboxWriter.Outbound) {tag host : Text} {port : UInt16}
    {entry : ProxyEntry} :
    finish (Outbound.scheme o) tag host port (Outbound.credential o)
        (spelled (Outbound.slots o)) = .ok entry ↔
      (hasLineBreak host = false ∧ hasLineBreak (Outbound.credential o) = false ∧
        ∀ s ∈ Outbound.slots o, ∀ v ∈ s.2, Printable v) ∧ entry = entryOf o tag host port := by
  have hkeys : ∀ k ∈ slotKeys, (bytes k).length ≤ maxParamBytes := by decide
  have hcount := (length_spelled_le _).trans (length_slots_le o)
  rw [finish_eq_ok]
  constructor
  · rintro ⟨hhost, hcredential, hvalues, -, hsizes, hentry⟩
    refine ⟨⟨hhost, hcredential, fun s hs v hv => ?_⟩, hentry⟩
    by_cases hempty : v = []
    · rw [hempty]
      exact ⟨rfl, Nat.zero_le _⟩
    · have hmem : (⟨s.1, v, true⟩ : Param) ∈ spelled (Outbound.slots o) :=
        mem_spelled.mpr ⟨s, hs, v, hv, hempty, rfl⟩
      exact ⟨hvalues _ hmem, (hsizes _ hmem).2⟩
  · rintro ⟨⟨hhost, hcredential, hvalues⟩, hentry⟩
    refine ⟨hhost, hcredential, ?_, hcount, ?_, hentry⟩
    · intro p hp
      obtain ⟨s, hs, v, hv, -, rfl⟩ := mem_spelled.mp hp
      exact (hvalues s hs v hv).1
    · intro p hp
      obtain ⟨s, hs, v, hv, -, rfl⟩ := mem_spelled.mp hp
      exact ⟨hkeys _ (slots_keyed o s hs), (hvalues s hs v hv).2⟩

theorem map_str_inj {a b : Option Text} (h : a.map Json.str = b.map .str) : a = b :=
  Option.map_injective (fun _ _ => Json.str.inj) h

theorem map_list_inj {a b : Option (List Text)}
    (h : (a.map fun l => Json.arr (l.map .str)) = b.map fun l => .arr (l.map .str)) : a = b := by
  refine Option.map_injective (fun l m hlm => ?_) h
  exact List.map_injective_iff.mpr (fun _ _ => Json.str.inj) (Json.arr.inj hlm)

theorem map_obj_inj {α : Type} {f : α → SingboxWriter.Object} {a b : Option α}
    (h : (a.map f).map Json.obj = (b.map f).map .obj) : a.map f = b.map f :=
  Option.map_injective (fun _ _ => Json.obj.inj) h

theorem tlsFields_injective : Function.Injective TlsOptions.fields := by
  intro a b h
  have hserver : a.serverName = b.serverName := by
    apply map_str_inj
    rw [← tls_serverName, ← tls_serverName, h]
  have hinsecure : a.insecure = b.insecure := by
    have hget := congrArg (objectGet · "insecure") h
    simp only [tls_insecure] at hget
    cases ha : a.insecure <;> cases hb : b.insecure <;> simp [ha, hb] at hget ⊢
  have halpn : a.alpn = b.alpn := by
    apply map_list_inj
    rw [← tls_alpn, ← tls_alpn, h]
  have hfp : a.fingerprint = b.fingerprint := by
    have hget := congrArg (objectGet · "utls") h
    simp only [tls_utls] at hget
    refine Option.map_injective (fun t u htu => ?_) hget
    have hmembers := Json.obj.inj htu
    simpa using hmembers
  have hreality : a.reality = b.reality := by
    have hget := congrArg (objectGet · "reality") h
    simp only [tls_reality] at hget
    refine Option.map_injective (fun r q hrq => ?_) hget
    have hmembers : realityFields r = realityFields q := Json.obj.inj hrq
    have hfirst : r.1 = q.1 := by
      apply map_str_inj
      rw [← reality_publicKey, ← reality_publicKey, hmembers]
    have hsecond : r.2 = q.2 := by
      apply map_str_inj
      rw [← reality_shortId, ← reality_shortId, hmembers]
    exact Prod.ext hfirst hsecond
  cases a
  cases b
  simp_all

theorem transportFields_reread {t : Transport} (h : (rereadTransport t).fields = t.fields) :
    rereadTransport t = t := by
  cases t with
  | ws path host =>
    have hpath := congrArg (objectGet · "path") h
    have hheaders := congrArg (objectGet · "headers") h
    simp only [rereadTransport, ws_path, ws_headers] at hpath hheaders
    have hhost : host.bind reread = host :=
      Option.map_injective (fun a b hab => by simpa using Json.obj.inj hab) hheaders
    rw [rereadTransport, map_str_inj hpath, hhost]
  | httpUpgrade path host =>
    have hpath := congrArg (objectGet · "path") h
    have hhost := congrArg (objectGet · "host") h
    simp only [rereadTransport, httpUpgrade_path, httpUpgrade_host] at hpath hhost
    rw [rereadTransport, map_str_inj hpath, map_str_inj hhost]
  | grpc serviceName =>
    have hservice := congrArg (objectGet · "service_name") h
    simp only [rereadTransport, grpc_serviceName] at hservice
    rw [rereadTransport, map_str_inj hservice]
  | http hosts path =>
    have hpath := congrArg (objectGet · "path") h
    have hhost := congrArg (objectGet · "host") h
    simp only [rereadTransport, http_path, http_host] at hpath hhost
    rw [rereadTransport, map_str_inj hpath, map_list_inj hhost]

theorem map_transport_reread {transport : Option Transport}
    (h : (transport.map rereadTransport).map (·.fields) = transport.map (·.fields)) :
    transport.map rereadTransport = transport := by
  cases transport with
  | none => rfl
  | some t => exact congrArg some (transportFields_reread (Option.some.inj h))

theorem plugin_ext {a b : Option (Text × Option Text)} (hname : a.map (·.1) = b.map (·.1))
    (hopts : a.bind (·.2) = b.bind (·.2)) : a = b := by
  cases a <;> cases b <;> simp_all [Prod.ext_iff]

theorem obfsFields_injective : Function.Injective obfsFields := by
  intro a b h
  have hkind : a.1 = b.1 := Json.str.inj (Prod.ext_iff.mp (List.cons.inj h).1).2
  have hpassword : a.2 = b.2 := by
    apply map_str_inj
    have hget := congrArg (objectGet · "password") (List.cons.inj h).2
    simpa only [textField, field_self] using hget
  exact Prod.ext hkind hpassword

theorem options_of_object {o o' : SingboxWriter.Outbound} {tag host : Text} {port : UInt16}
    (h : o.object tag host port = o'.object tag host port) : o.options = o'.options :=
  (List.cons.inj (List.cons.inj (List.cons.inj (List.cons.inj h).2).2).2).2

theorem object_reread {yaml : SerdeNorway} {o : SingboxWriter.Outbound} {tag host : Text}
    {port : UInt16} :
    (rereadOutbound yaml o).object tag host port = o.object tag host port ↔
      rereadOutbound yaml o = o := by
  refine ⟨fun h => ?_, fun h => by rw [h]⟩
  have hoptions := options_of_object h
  cases o with
  | vless uuid flow tls transport =>
    have hflow := congrArg (objectGet · "flow") hoptions
    have htls := congrArg (objectGet · "tls") hoptions
    have htransport := congrArg (objectGet · "transport") hoptions
    simp only [rereadOutbound, vless_flow, vless_tls, vless_transport] at hflow htls htransport
    rw [rereadOutbound, map_str_inj hflow,
      Option.map_injective tlsFields_injective (map_obj_inj htls),
      map_transport_reread (map_obj_inj htransport)]
  | vmess uuid cipher alterId tls transport =>
    have hcipher := congrArg (objectGet · "security") hoptions
    have htls := congrArg (objectGet · "tls") hoptions
    have htransport := congrArg (objectGet · "transport") hoptions
    simp only [rereadOutbound, vmess_security, vmess_tls, vmess_transport]
      at hcipher htls htransport
    rw [rereadOutbound, Option.some.inj (map_str_inj hcipher),
      Option.map_injective tlsFields_injective (map_obj_inj htls),
      map_transport_reread (map_obj_inj htransport)]
  | trojan password tls transport =>
    have htls := congrArg (objectGet · "tls") hoptions
    have htransport := congrArg (objectGet · "transport") hoptions
    simp only [rereadOutbound, trojan_tls, trojan_transport] at htls htransport
    rw [rereadOutbound, tlsFields_injective (Option.some.inj (map_obj_inj htls)),
      map_transport_reread (map_obj_inj htransport)]
  | shadowsocks method password plugin =>
    have hname := congrArg (objectGet · "plugin") hoptions
    have hopts := congrArg (objectGet · "plugin_opts") hoptions
    simp only [rereadOutbound, shadowsocks_plugin, shadowsocks_pluginOpts] at hname hopts
    rw [rereadOutbound, plugin_ext (map_str_inj hname) (map_str_inj hopts)]
  | hysteria2 password tls obfs upMbps downMbps =>
    have htls := congrArg (objectGet · "tls") hoptions
    have hobfs := congrArg (objectGet · "obfs") hoptions
    simp only [rereadOutbound, hysteria2_tls, hysteria2_obfs] at htls hobfs
    rw [rereadOutbound, tlsFields_injective (Json.obj.inj (Option.some.inj htls)),
      Option.map_injective obfsFields_injective (map_obj_inj hobfs)]
  | socks username password tls =>
    have husername := congrArg (objectGet · "username") hoptions
    have hpassword := congrArg (objectGet · "password") hoptions
    have htls := congrArg (objectGet · "tls") hoptions
    simp only [rereadOutbound, socks_username, socks_password, socks_tls]
      at husername hpassword htls
    rw [rereadOutbound, map_str_inj husername, map_str_inj hpassword,
      Option.map_injective tlsFields_injective (map_obj_inj htls)]

section Reading

variable {yaml : SerdeNorway} {entry : ProxyEntry} {key : Text}

theorem kept_eq_self {value : Option Text} (h : ∀ v ∈ value, v ≠ []) : kept value = value := by
  cases value with
  | none => rfl
  | some t => exact Option.filter_eq_some_iff.mpr ⟨rfl, decide_eq_true (h t rfl)⟩

theorem nonEmptyParam_ne_nil : ∀ v ∈ nonEmptyParam entry key, v ≠ [] :=
  fun _ hv => of_decide_eq_true (Option.filter_eq_some_iff.mp hv).2

theorem reread_ne_nil {raw v : Text} (h : reread raw = some v) : v ≠ [] := by
  unfold reread at h
  split_ifs at h with hraw
  exact Option.some.inj h ▸ percentDecode_ne_nil hraw

theorem paramValue_ne_nil : ∀ v ∈ paramValue entry key, v ≠ [] := by
  intro v hv
  obtain ⟨raw, -, hraw⟩ := Option.bind_eq_some_iff.mp hv
  exact reread_ne_nil hraw

theorem sniOf_ne_nil : ∀ v ∈ sniOf entry, v ≠ [] := by
  intro v hv
  rcases Option.or_eq_some_iff.mp (by simpa [sniOf] using hv) with h | ⟨-, h⟩
  · exact nonEmptyParam_ne_nil v h
  · exact paramValue_ne_nil v h

theorem splitPlugin_eq_some {raw : Text} {p : Text × Option Text} (h : splitPlugin raw = some p) :
    p.1 ≠ [] ∧ ∀ opts ∈ p.2, opts ≠ [] := by
  unfold splitPlugin at h
  dsimp only at h
  split_ifs at h with hname
  obtain rfl := Option.some.inj h
  exact ⟨hname, fun opts hopts => of_decide_eq_true (Option.filter_eq_some_iff.mp hopts).2⟩

theorem not_mem_method (credential : Text) : ':' ∉ (methodAndPassword credential).1 := by
  unfold methodAndPassword
  cases h : splitOnce ':' credential with
  | none => exact of_decide_eq_true rfl
  | some p => exact (splitOnce_eq_some h).2

theorem wellRead_outboundOf {o : SingboxWriter.Outbound} (h : outboundOf yaml entry = some o) :
    WellRead o ∧ Outbound.scheme o = entry.scheme := by
  have hrate : ∀ value : Option Text, ∀ n ∈ value.bind rateOf, n < 2 ^ 32 := by
    intro value n hn
    obtain ⟨v, -, hv⟩ := Option.bind_eq_some_iff.mp hn
    exact parseUnsigned_lt hv
  unfold outboundOf at h
  split at h
  next hscheme =>
    obtain rfl := Option.some.inj h
    exact ⟨trivial, hscheme.symm⟩
  next hscheme =>
    obtain rfl := Option.some.inj h
    refine ⟨⟨?_, ?_⟩, hscheme.symm⟩
    · cases hid : (alterIdText entry).bind parseU64 with
      | none => exact of_decide_eq_true rfl
      | some n =>
        obtain ⟨v, -, hv⟩ := Option.bind_eq_some_iff.mp hid
        exact parseUnsigned_lt hv
    · intro t ht
      split at ht
      · exact Option.some.inj ht ▸ rfl
      · exact absurd ht (by simp)
  next hscheme =>
    obtain rfl := Option.some.inj h
    exact ⟨trivial, hscheme.symm⟩
  next hscheme =>
    obtain rfl := Option.some.inj h
    exact ⟨not_mem_method _, hscheme.symm⟩
  next hscheme =>
    obtain rfl := Option.some.inj h
    exact ⟨⟨rfl, hrate _, hrate _⟩, hscheme.symm⟩
  next hscheme =>
    obtain rfl := Option.some.inj h
    refine ⟨fun u hu => ?_, hscheme.symm⟩
    obtain ⟨p, hp, hu⟩ := Option.bind_eq_some_iff.mp hu
    unfold nonEmpty at hu
    split_ifs at hu
    exact Option.some.inj hu ▸ (splitOnce_eq_some hp).2
  all_goals exact absurd h (by simp)

end Reading

/-- Text that one trip carries: printable, and read back as it is. -/
def Carried (v : Text) : Prop :=
  Printable v ∧ reread v = some v

/-- A list that survives being joined by commas. -/
def ListCarried (read : Text → Option (List Text)) (items : List Text) : Prop :=
  Printable (joinedItems items) ∧ read (joinedItems items) = some items

structure TlsCarried (yaml : SerdeNorway) (entry : ProxyEntry) (reality : Bool) : Prop where
  serverName : ∀ v ∈ sniOf entry, Printable v
  alpn : ∀ items ∈ paramList yaml entry "alpn", ListCarried (readList yaml) items
  fingerprint : ∀ v ∈ nonEmptyParam entry "fp", Printable v
  publicKey : reality = true → ∀ v ∈ realityPublicKey yaml entry, Carried v
  shortId : reality = true → ∀ v ∈ realityShortId yaml entry, Carried v

/-- The service name of a gRPC transport; vmess keeps it in the path. -/
def serviceOf (entry : ProxyEntry) : Option Text :=
  paramValue entry "serviceName" <|> if entry.scheme = .vmess then paramValue entry "path" else none

structure TransportCarried (entry : ProxyEntry) (uriKey : Text) : Prop where
  web : ∀ network ∈ networkOf entry uriKey, network ∈ (["ws", "httpupgrade"] : List Text) →
    (∀ v ∈ paramValue entry "path", Carried v) ∧ ∀ v ∈ paramValue entry "host", Carried v
  grpc : ∀ network ∈ networkOf entry uriKey, network = "grpc" → ∀ v ∈ serviceOf entry, Carried v
  http : ∀ network ∈ networkOf entry uriKey, network ∈ (["h2", "http"] : List Text) →
    (∀ v ∈ paramValue entry "path", Carried v) ∧ ∀ v ∈ paramValue entry "host",
      ListCarried (fun raw => (reread raw).map splitHosts) (splitHosts v)

section Conditions

variable {yaml : SerdeNorway} {entry : ProxyEntry}

theorem bind_eq_self_iff {α : Type} {f : α → Option α} {value : Option α} :
    value.bind f = value ↔ ∀ v ∈ value, f v = some v := by
  cases value <;> simp

def SlotsPrintable (slots : List (Text × Option Text)) : Prop :=
  ∀ s ∈ slots, ∀ v ∈ s.2, Printable v

theorem slotsPrintable_nil : SlotsPrintable [] :=
  fun _ hs => absurd hs List.not_mem_nil

theorem slotsPrintable_cons {k : Text} {v : Option Text} {slots : List (Text × Option Text)} :
    SlotsPrintable ((k, v) :: slots) ↔ (∀ t ∈ v, Printable t) ∧ SlotsPrintable slots :=
  List.forall_mem_cons

theorem slotsPrintable_append {l m : List (Text × Option Text)} :
    SlotsPrintable (l ++ m) ↔ SlotsPrintable l ∧ SlotsPrintable m :=
  List.forall_mem_append

theorem toggleSlot_printable (spelling : TlsSpelling) (reality : Bool) :
    ∀ v ∈ (toggleSlot spelling reality).2, Printable v := by
  intro v hv
  cases spelling <;> cases reality <;> obtain rfl := Option.some.inj hv <;>
    exact ⟨rfl, of_decide_eq_true rfl⟩

theorem flag_printable (flag : Bool) :
    ∀ v ∈ (if flag then some ("true" : Text) else none), Printable v := by
  intro v hv
  cases flag with
  | false => exact absurd hv (by simp)
  | true => exact Option.some.inj hv ▸ ⟨rfl, of_decide_eq_true rfl⟩

theorem tlsSlots_printable {spelling : TlsSpelling} {tls : TlsOptions} :
    SlotsPrintable (tlsSlots spelling tls) ↔
      (∀ v ∈ tls.reality.bind (·.1), Printable v) ∧ (∀ v ∈ tls.reality.bind (·.2), Printable v) ∧
        (∀ v ∈ tls.serverName, Printable v) ∧ (∀ v ∈ tls.alpn.map joinedItems, Printable v) ∧
        ∀ v ∈ tls.fingerprint, Printable v := by
  have htoggle := toggleSlot_printable spelling tls.reality.isSome
  have hflag := flag_printable tls.insecure
  have hcons : SlotsPrintable (tlsSlots spelling tls) ↔
      (∀ v ∈ (toggleSlot spelling tls.reality.isSome).2, Printable v) ∧
        SlotsPrintable (tlsSlots spelling tls).tail := List.forall_mem_cons
  rw [hcons, tlsSlots, List.tail_cons, slotsPrintable_cons, slotsPrintable_cons,
    slotsPrintable_cons, slotsPrintable_cons, slotsPrintable_cons, slotsPrintable_cons]
  constructor
  · rintro ⟨-, hpbk, hsid, hsni, -, halpn, hfp, -⟩
    exact ⟨hpbk, hsid, hsni, halpn, hfp⟩
  · rintro ⟨hpbk, hsid, hsni, halpn, hfp⟩
    exact ⟨htoggle, hpbk, hsid, hsni, hflag, halpn, hfp, slotsPrintable_nil⟩

theorem realityPair_fst (pbk sid : Option Text) : (realityPair pbk sid).bind (·.1) = pbk := by
  cases pbk <;> cases sid <;> rfl

theorem realityPair_snd (pbk sid : Option Text) : (realityPair pbk sid).bind (·.2) = sid := by
  cases pbk <;> cases sid <;> rfl

theorem realityPair_inj {a b c d : Option Text} :
    realityPair a b = realityPair c d ↔ a = c ∧ b = d := by
  refine ⟨fun h => ?_, fun ⟨hac, hbd⟩ => by rw [hac, hbd]⟩
  have hfst := congrArg (Option.bind · (·.1)) h
  have hsnd := congrArg (Option.bind · (·.2)) h
  simp only [realityPair_fst, realityPair_snd] at hfst hsnd
  exact ⟨hfst, hsnd⟩

theorem tlsCarried_iff (spelling : TlsSpelling) (reality : Bool) :
    SlotsPrintable (tlsSlots spelling (tlsObject yaml entry reality)) ∧
        rereadTls yaml (tlsObject yaml entry reality) = tlsObject yaml entry reality ↔
      TlsCarried yaml entry reality := by
  have hpair : (tlsObject yaml entry reality).reality =
      realityPair (if reality then realityPublicKey yaml entry else none)
        (if reality then realityShortId yaml entry else none) := by
    cases reality <;> rfl
  have hkey : ∀ value : Option Text, (∀ v ∈ (if reality then value else none), Printable v) ∧
      (if reality then value else none).bind reread = (if reality then value else none) ↔
        (reality = true → ∀ v ∈ value, Carried v) := by
    intro value
    rw [bind_eq_self_iff]
    cases reality with
    | false => simp
    | true => simp [Carried, forall_and]
  have hlist : (∀ v ∈ (paramList yaml entry "alpn").map joinedItems, Printable v) ∧
      ((paramList yaml entry "alpn").map joinedItems).bind (readList yaml) =
        paramList yaml entry "alpn" ↔
      ∀ items ∈ paramList yaml entry "alpn", ListCarried (readList yaml) items := by
    rw [Option.bind_map, bind_eq_self_iff]
    simp [ListCarried, forall_and]
  have hsni : kept (sniOf entry) = sniOf entry := kept_eq_self sniOf_ne_nil
  have hfp : kept (nonEmptyParam entry "fp") = nonEmptyParam entry "fp" :=
    kept_eq_self nonEmptyParam_ne_nil
  have hreality : (rereadTls yaml (tlsObject yaml entry reality)).reality =
      (tlsObject yaml entry reality).reality ↔
        (if reality then realityPublicKey yaml entry else none).bind reread =
            (if reality then realityPublicKey yaml entry else none) ∧
          (if reality then realityShortId yaml entry else none).bind reread =
            (if reality then realityShortId yaml entry else none) := by
    rw [rereadTls]
    dsimp only
    rw [hpair, realityPair_fst, realityPair_snd, realityPair_inj]
  rw [tlsSlots_printable, hpair, realityPair_fst, realityPair_snd]
  constructor
  · rintro ⟨⟨hpbk, hsid, hserver, halpn, hfingerprint⟩, hsame⟩
    obtain ⟨hpbk', hsid'⟩ := hreality.mp (congrArg TlsOptions.reality hsame)
    exact ⟨hserver, hlist.mp ⟨halpn, congrArg TlsOptions.alpn hsame⟩, hfingerprint,
      (hkey _).mp ⟨hpbk, hpbk'⟩, (hkey _).mp ⟨hsid, hsid'⟩⟩
  · rintro ⟨hserver, halpn, hfingerprint, hpbk, hsid⟩
    obtain ⟨halpn, halpn'⟩ := hlist.mpr halpn
    obtain ⟨hpbk, hpbk'⟩ := (hkey _).mpr hpbk
    obtain ⟨hsid, hsid'⟩ := (hkey _).mpr hsid
    exact ⟨⟨hpbk, hsid, hserver, halpn, hfingerprint⟩,
      (TlsOptions.mk.injEq ..).mpr ⟨hsni, rfl, halpn', hfp, hreality.mpr ⟨hpbk', hsid'⟩⟩⟩

theorem carried_iff {value : Option Text} :
    (∀ v ∈ value, Printable v) ∧ value.bind reread = value ↔ ∀ v ∈ value, Carried v := by
  rw [bind_eq_self_iff]
  simp [Carried, forall_and]

theorem network_printable {uriKey word : Text} {slots : List (Text × Option Text)}
    (hword : Printable word) :
    SlotsPrintable ((uriKey, some word) :: slots) ↔ SlotsPrintable slots := by
  rw [slotsPrintable_cons]
  exact and_iff_right fun v hv => Option.some.inj hv ▸ hword

theorem pair_printable {k k' : Text} {a b : Option Text} :
    SlotsPrintable [(k, a), (k', b)] ↔ (∀ v ∈ a, Printable v) ∧ ∀ v ∈ b, Printable v := by
  rw [slotsPrintable_cons, slotsPrintable_cons]
  exact and_congr_right fun _ => and_iff_left slotsPrintable_nil

section Transports

variable (uriKey : Text) (path host : Option Text)

theorem wsCarried_iff :
    SlotsPrintable (transportSlots uriKey (.ws path host)) ∧
        rereadTransport (.ws path host) = .ws path host ↔
      (∀ v ∈ path, Carried v) ∧ ∀ v ∈ host, Carried v := by
  rw [transportSlots, network_printable ⟨rfl, of_decide_eq_true rfl⟩, pair_printable,
    rereadTransport, Transport.ws.injEq, ← carried_iff, ← carried_iff]
  tauto

theorem httpUpgradeCarried_iff :
    SlotsPrintable (transportSlots uriKey (.httpUpgrade path host)) ∧
        rereadTransport (.httpUpgrade path host) = .httpUpgrade path host ↔
      (∀ v ∈ path, Carried v) ∧ ∀ v ∈ host, Carried v := by
  rw [transportSlots, network_printable ⟨rfl, of_decide_eq_true rfl⟩, pair_printable,
    rereadTransport, Transport.httpUpgrade.injEq, ← carried_iff, ← carried_iff]
  tauto

theorem grpcCarried_iff :
    SlotsPrintable (transportSlots uriKey (.grpc path)) ∧
        rereadTransport (.grpc path) = .grpc path ↔ ∀ v ∈ path, Carried v := by
  rw [transportSlots, network_printable ⟨rfl, of_decide_eq_true rfl⟩, slotsPrintable_cons,
    and_iff_left slotsPrintable_nil, rereadTransport, Transport.grpc.injEq, ← carried_iff]

theorem httpCarried_iff :
    SlotsPrintable (transportSlots uriKey (.http (host.map splitHosts) path)) ∧
        rereadTransport (.http (host.map splitHosts) path) = .http (host.map splitHosts) path ↔
      (∀ v ∈ path, Carried v) ∧ ∀ v ∈ host,
        ListCarried (fun raw => (reread raw).map splitHosts) (splitHosts v) := by
  have hhosts : (∀ v ∈ (host.map splitHosts).map joinedItems, Printable v) ∧
      (((host.map splitHosts).map joinedItems).bind reread).map splitHosts =
        host.map splitHosts ↔
      ∀ v ∈ host, ListCarried (fun raw => (reread raw).map splitHosts) (splitHosts v) := by
    cases host with
    | none => simp
    | some v => simp [ListCarried]
  rw [transportSlots, network_printable ⟨rfl, of_decide_eq_true rfl⟩, pair_printable,
    rereadTransport, Transport.http.injEq, ← carried_iff, ← hhosts]
  tauto

end Transports

theorem transportCarried_of {uriKey network : Text} (h : networkOf entry uriKey = some network) :
    TransportCarried entry uriKey ↔
      (network ∈ (["ws", "httpupgrade"] : List Text) →
        (∀ v ∈ paramValue entry "path", Carried v) ∧ ∀ v ∈ paramValue entry "host", Carried v) ∧
      (network = "grpc" → ∀ v ∈ serviceOf entry, Carried v) ∧
      (network ∈ (["h2", "http"] : List Text) →
        (∀ v ∈ paramValue entry "path", Carried v) ∧ ∀ v ∈ paramValue entry "host",
          ListCarried (fun raw => (reread raw).map splitHosts) (splitHosts v)) := by
  constructor
  · exact fun hcarried => ⟨hcarried.web _ h, hcarried.grpc _ h, hcarried.http _ h⟩
  · rintro ⟨hweb, hgrpc, hhttp⟩
    have hsame : ∀ n ∈ networkOf entry uriKey, n = network := by
      intro n hn
      rw [h] at hn
      exact (Option.some.inj hn).symm
    exact ⟨fun n hn => hsame n hn ▸ hweb, fun n hn => hsame n hn ▸ hgrpc,
      fun n hn => hsame n hn ▸ hhttp⟩

theorem transportCarried_iff (uriKey : Text) :
    SlotsPrintable ((transportObject entry uriKey).elim [] (transportSlots uriKey)) ∧
        (transportObject entry uriKey).map rereadTransport = transportObject entry uriKey ↔
      TransportCarried entry uriKey := by
  have hsome : ∀ t : Transport, transportObject entry uriKey = some t →
      (SlotsPrintable ((transportObject entry uriKey).elim [] (transportSlots uriKey)) ∧
        (transportObject entry uriKey).map rereadTransport = transportObject entry uriKey ↔
      SlotsPrintable (transportSlots uriKey t) ∧ rereadTransport t = t) := by
    intro t ht
    rw [ht, Option.elim_some, Option.map_some, Option.some.injEq]
  have hnone : transportObject entry uriKey = none →
      SlotsPrintable ((transportObject entry uriKey).elim [] (transportSlots uriKey)) ∧
        (transportObject entry uriKey).map rereadTransport = transportObject entry uriKey := by
    intro h
    rw [h]
    exact ⟨slotsPrintable_nil, rfl⟩
  cases hnetwork : networkOf entry uriKey with
  | none =>
    refine iff_of_true (hnone ?_) ?_
    · rw [transportObject, hnetwork, Option.bind_none]
    · constructor <;> simp [hnetwork]
  | some network =>
    have hobject : transportObject entry uriKey = _ :=
      congrArg (Option.bind · _) hnetwork
    rw [Option.bind_some] at hobject
    rw [transportCarried_of hnetwork]
    by_cases hws : network = "ws"
    · subst hws
      rw [hsome _ (hobject.trans (if_pos rfl)), wsCarried_iff]
      exact ⟨fun h => ⟨fun _ => h, fun hne => absurd hne (by decide),
        fun hmem => absurd hmem (by decide)⟩, fun h => h.1 (by decide)⟩
    rw [if_neg hws] at hobject
    by_cases hupgrade : network = "httpupgrade"
    · subst hupgrade
      rw [hsome _ (hobject.trans (if_pos rfl)), httpUpgradeCarried_iff]
      exact ⟨fun h => ⟨fun _ => h, fun hne => absurd hne (by decide),
        fun hmem => absurd hmem (by decide)⟩, fun h => h.1 (by decide)⟩
    rw [if_neg hupgrade] at hobject
    by_cases hgrpc : network = "grpc"
    · subst hgrpc
      rw [hsome _ (hobject.trans (if_pos rfl)), grpcCarried_iff]
      exact ⟨fun h => ⟨fun hmem => absurd hmem (by decide), fun _ => h,
        fun hmem => absurd hmem (by decide)⟩, fun h => h.2.1 rfl⟩
    rw [if_neg hgrpc] at hobject
    have hweb : network ∉ (["ws", "httpupgrade"] : List Text) := by
      simp only [List.mem_cons, List.not_mem_nil, or_false, not_or]
      exact ⟨hws, hupgrade⟩
    by_cases hhttp : network = "h2" ∨ network = "http"
    · have hmem : network ∈ (["h2", "http"] : List Text) := by simpa using hhttp
      rw [hsome _ (hobject.trans (if_pos hhttp)), httpCarried_iff]
      exact ⟨fun h => ⟨fun hmem => absurd hmem hweb, fun hne => absurd hne hgrpc, fun _ => h⟩,
        fun h => h.2.2 hmem⟩
    · exact iff_of_true (hnone (hobject.trans (if_neg hhttp))) ⟨fun hmem => absurd hmem hweb,
        fun hne => absurd hne hgrpc, fun hmem => absurd (by simpa using hmem) hhttp⟩

end Conditions

/-- Host and credential are printable, and the host is there. -/
structure EndpointCarried (entry : ProxyEntry) : Prop where
  host : entry.host ≠ []
  hostLine : hasLineBreak entry.host = false
  credentialLine : hasLineBreak entry.credential = false

/-- A plugin whose SIP003 string is split into the same name and options again. -/
def PluginCarried (p : Text × Option Text) : Prop :=
  Printable (pluginValue p.1 (p.2.getD [])) ∧
    (reread (pluginValue p.1 (p.2.getD []))).bind splitPlugin = some p

/-- The entries that come back from one trip through the format. -/
def EntryCarried (yaml : SerdeNorway) (entry : ProxyEntry) : Prop :=
  match entry.scheme with
  | .vless => EndpointCarried entry ∧ entry.credential ≠ [] ∧
      (∀ v ∈ nonEmptyParam entry "flow", Printable v) ∧
      ((wantsReality yaml entry || wantsTls entry) = true →
        TlsCarried yaml entry (wantsReality yaml entry)) ∧
      TransportCarried entry "type"
  | .vmess => EndpointCarried entry ∧ entry.credential ≠ [] ∧ Carried (cipherOf entry) ∧
      (vmessTls entry = true → TlsCarried yaml entry false) ∧ TransportCarried entry "net"
  | .trojan => EndpointCarried entry ∧ entry.credential ≠ [] ∧
      TlsCarried yaml entry (wantsReality yaml entry) ∧ TransportCarried entry "type"
  | .ss => EndpointCarried entry ∧
      (∃ method password, splitOnce ':' entry.credential = some (method, password) ∧ method ≠ []) ∧
      ∀ p ∈ (paramValue entry "plugin").bind splitPlugin, PluginCarried p
  | .hysteria2 => EndpointCarried entry ∧ entry.credential ≠ [] ∧ TlsCarried yaml entry false ∧
      ∀ v ∈ nonEmptyParam entry "obfs", Printable v ∧
        ∀ w ∈ nonEmptyParam entry "obfs-password", Printable w
  | .socks5 => EndpointCarried entry ∧ ':' ∈ entry.credential ∧
      (paramTruthy entry "tls" = true → ∀ v ∈ sniOf entry, Printable v)
  | .naive | .tuic | .mieru | .snell | .anyTls => True

/-- What the writer emits under a tag is parsed as one entry with the identity of `entry` and that
tag as its name, and writing that entry emits the same outbound. -/
def RoundTrips (yaml : SerdeNorway) (json : SerdeJson) (entry : ProxyEntry) (tag : Text) : Prop :=
  ∀ outbound, entryToOutboundNamed yaml entry tag = some outbound →
    ∃ parsed, (parseOutbound json {} outbound).entries = [parsed] ∧
      parsed.scheme = entry.scheme ∧ parsed.host = entry.host ∧ parsed.port = entry.port ∧
      parsed.credential = entry.credential ∧ parsed.name = tag ∧
      entryToOutboundNamed yaml parsed tag = some outbound

section FixedPoint

variable {yaml : SerdeNorway} {json : SerdeJson} {entry : ProxyEntry} {tag : Text}

/-- The trip in terms of the options that the writer reads. -/
theorem roundTrips_iff_options {o : SingboxWriter.Outbound} (ho : outboundOf yaml entry = some o) :
    RoundTrips yaml json entry tag ↔
      entry.host ≠ [] ∧ hasLineBreak entry.host = false ∧
        hasLineBreak entry.credential = false ∧ (∀ v ∈ Outbound.required o, v ≠ []) ∧
        SlotsPrintable (Outbound.slots o) ∧ Outbound.credential o = entry.credential ∧
        rereadOutbound yaml o = o := by
  obtain ⟨hread, hscheme⟩ := wellRead_outboundOf ho
  have hagain : ∀ v, entryToOutboundNamed yaml (entryOf o tag entry.host entry.port) tag =
      some v ↔ Json.obj ((rereadOutbound yaml o).object tag entry.host entry.port) = v := by
    intro v
    rw [entryToOutboundNamed, outboundOf_entryOf hread, Option.map_some, Option.some.injEq]
    rfl
  constructor
  · intro htrip
    obtain ⟨parsed, hparsed, -, -, -, hcredential, -, hsame⟩ :=
      htrip (.obj (o.object tag entry.host entry.port)) (by rw [entryToOutboundNamed, ho]; rfl)
    obtain ⟨hhost, hrequired, hfinish⟩ := (nativeOf_eq_ok o).mp ((parseOutbound_object o).mp hparsed)
    obtain ⟨⟨hhostLine, hcredentialLine, hslots⟩, rfl⟩ := (finish_slots o).mp hfinish
    have hsameCredential : Outbound.credential o = entry.credential := hcredential
    rw [hsameCredential] at hcredentialLine
    exact ⟨hhost, hhostLine, hcredentialLine, hrequired, hslots, hcredential,
      object_reread.mp (Json.obj.inj ((hagain _).mp hsame))⟩
  · rintro ⟨hhost, hhostLine, hcredentialLine, hrequired, hslots, hcredential, hsame⟩ v hv
    rw [entryToOutboundNamed, ho, Option.map_some, Option.some.injEq] at hv
    rw [← hcredential] at hcredentialLine
    have hfinish : finish (Outbound.scheme o) tag entry.host entry.port (Outbound.credential o)
        (spelled (Outbound.slots o)) = .ok (entryOf o tag entry.host entry.port) :=
      (finish_slots o).mpr ⟨⟨hhostLine, hcredentialLine, hslots⟩, rfl⟩
    refine ⟨entryOf o tag entry.host entry.port, ?_, hscheme, rfl, rfl, hcredential, rfl, ?_⟩
    · rw [← hv]
      exact (parseOutbound_object o).mpr ((nativeOf_eq_ok o).mpr ⟨hhost, hrequired, hfinish⟩)
    · rw [hagain, ← hv]
      exact congrArg Json.obj (object_reread.mpr hsame)

theorem tlsOption_iff (spelling : TlsSpelling) (on reality : Bool) :
    SlotsPrintable ((if on then some (tlsObject yaml entry reality) else none).elim []
        (tlsSlots spelling)) ∧
      (if on then some (tlsObject yaml entry reality) else none).map (rereadTls yaml) =
        (if on then some (tlsObject yaml entry reality) else none) ↔
      (on = true → TlsCarried yaml entry reality) := by
  cases on with
  | false => exact iff_of_true ⟨slotsPrintable_nil, rfl⟩ (fun h => Bool.noConfusion h)
  | true =>
    rw [if_pos rfl, Option.elim_some, Option.map_some, Option.some.injEq, tlsCarried_iff]
    exact ⟨fun h _ => h, fun h => h rfl⟩

theorem endpoint_iff : EndpointCarried entry ↔
    entry.host ≠ [] ∧ hasLineBreak entry.host = false ∧ hasLineBreak entry.credential = false :=
  ⟨fun h => ⟨h.host, h.hostLine, h.credentialLine⟩, fun ⟨h, h', h''⟩ => ⟨h, h', h''⟩⟩

theorem required_some {v : Text} : (∀ t ∈ some v, t ≠ []) ↔ v ≠ [] := by
  simp

theorem roundTrips_vless (h : entry.scheme = .vless) :
    RoundTrips yaml json entry tag ↔ EntryCarried yaml entry := by
  have ho : outboundOf yaml entry = some (.vless entry.credential (nonEmptyParam entry "flow")
      (if wantsReality yaml entry || wantsTls entry then
        some (tlsObject yaml entry (wantsReality yaml entry)) else none)
      (transportObject entry "type")) := by
    rw [outboundOf, h]
  have hflow : kept (nonEmptyParam entry "flow") = nonEmptyParam entry "flow" :=
    kept_eq_self nonEmptyParam_ne_nil
  rw [roundTrips_iff_options ho, EntryCarried, h]
  simp only [Outbound.credential, Outbound.required, Outbound.slots, required_some,
    slotsPrintable_cons, streamSlots, slotsPrintable_append, rereadOutbound,
    SingboxWriter.Outbound.vless.injEq, hflow, true_and, endpoint_iff,
    ← tlsOption_iff .security, ← transportCarried_iff]
  tauto

theorem bytes_length_le (t : Text) : (bytes t).length ≤ 4 * t.length := by
  induction t with
  | nil => exact Nat.le_refl 0
  | cons c t ih =>
    have hchar : (String.utf8EncodeChar c).length ≤ 4 := by
      rw [String.length_utf8EncodeChar]
      exact c.utf8Size_le_four
    rw [bytes_cons, List.length_append, List.length_cons]
    omega

theorem decimal_printable {n : ℕ} (h : n < 2 ^ 64) : Printable (decimal n) := by
  have hlength : (decimal n).length ≤ 20 :=
    (Nat.length_toDigits_le_iff (by decide) (by decide)).mpr (h.trans (by decide))
  constructor
  · rw [hasLineBreak, List.any_eq_false]
    intro c hc hbreak
    have hdigit := isDigit_of_mem_decimal hc
    rcases Bool.or_eq_true _ _ ▸ hbreak with hc | hc <;> rw [of_decide_eq_true hc] at hdigit <;>
      exact absurd hdigit (by decide)
  · have hbytes := bytes_length_le (decimal n)
    have hmax : maxParamBytes = 8192 := rfl
    omega

theorem cipher_reread {cipher : Text} :
    (reread cipher).getD "auto" = cipher ↔ reread cipher = some cipher := by
  cases h : reread cipher with
  | some v => simp
  | none =>
    refine iff_of_false ?_ (by simp)
    rintro rfl
    exact absurd h (by decide)

theorem roundTrips_vmess (h : entry.scheme = .vmess) :
    RoundTrips yaml json entry tag ↔ EntryCarried yaml entry := by
  have ho : outboundOf yaml entry = some (.vmess entry.credential (cipherOf entry)
      (((alterIdText entry).bind parseU64).getD 0)
      (if vmessTls entry then some (tlsObject yaml entry false) else none)
      (transportObject entry "net")) := by
    rw [outboundOf, h]
  have halter := decimal_printable (wellRead_outboundOf ho).1.1
  rw [roundTrips_iff_options ho, EntryCarried, h]
  simp only [Outbound.credential, Outbound.required, Outbound.slots, slotsPrintable_cons,
    streamSlots, slotsPrintable_append, rereadOutbound, SingboxWriter.Outbound.vmess.injEq,
    true_and, endpoint_iff, Option.mem_some_iff, forall_eq', halter, cipher_reread, Carried,
    ← tlsOption_iff .tls, ← transportCarried_iff]
  tauto

theorem roundTrips_trojan (h : entry.scheme = .trojan) :
    RoundTrips yaml json entry tag ↔ EntryCarried yaml entry := by
  have ho : outboundOf yaml entry = some (.trojan entry.credential
      (tlsObject yaml entry (wantsReality yaml entry)) (transportObject entry "type")) := by
    rw [outboundOf, h]
  rw [roundTrips_iff_options ho, EntryCarried, h]
  simp only [Outbound.credential, Outbound.required, Outbound.slots, required_some, streamSlots,
    slotsPrintable_append, rereadOutbound, SingboxWriter.Outbound.trojan.injEq, true_and,
    endpoint_iff, Option.elim_some, ← tlsCarried_iff .security, ← transportCarried_iff]
  tauto

theorem plugin_iff {plugin : Option (Text × Option Text)}
    (hplugin : ∀ p ∈ plugin, p.1 ≠ [] ∧ ∀ opts ∈ p.2, opts ≠ []) :
    SlotsPrintable [("plugin", pluginText plugin)] ∧
        ((pluginText plugin).bind reread).bind splitPlugin = plugin ↔
      ∀ p ∈ plugin, PluginCarried p := by
  rw [slotsPrintable_cons, and_iff_left slotsPrintable_nil]
  cases plugin with
  | none => exact iff_of_true ⟨fun v hv => absurd hv (by simp [pluginText, kept]), rfl⟩ (by simp)
  | some p =>
    obtain ⟨hname, hopts⟩ := hplugin p rfl
    have hkept : kept (some p.1) = some p.1 := kept_eq_self fun v hv => Option.some.inj hv ▸ hname
    have htext : pluginText (some p) = some (pluginValue p.1 (p.2.getD [])) := by
      rw [pluginText, Option.map_some, hkept, Option.bind_some, kept_eq_self hopts]
      rfl
    rw [htext]
    simp [PluginCarried]

theorem roundTrips_ss (h : entry.scheme = .ss) :
    RoundTrips yaml json entry tag ↔ EntryCarried yaml entry := by
  have ho : outboundOf yaml entry = some (.shadowsocks (methodAndPassword entry.credential).1
      (methodAndPassword entry.credential).2
      ((paramValue entry "plugin").bind splitPlugin)) := by
    rw [outboundOf, h]
  have hplugin : ∀ p ∈ (paramValue entry "plugin").bind splitPlugin,
      p.1 ≠ [] ∧ ∀ opts ∈ p.2, opts ≠ [] := by
    intro p hp
    obtain ⟨raw, -, hraw⟩ := Option.bind_eq_some_iff.mp hp
    exact splitPlugin_eq_some hraw
  have hcredential : (methodAndPassword entry.credential).1 ≠ [] ∧
      (methodAndPassword entry.credential).1 ++ ':' :: (methodAndPassword entry.credential).2 =
        entry.credential ↔
      ∃ method password, splitOnce ':' entry.credential = some (method, password) ∧
        method ≠ [] := by
    rw [methodAndPassword]
    cases hsplit : splitOnce ':' entry.credential with
    | none =>
      refine iff_of_false ?_ (by simp)
      rintro ⟨-, hsame⟩
      have hlength := congrArg List.length hsame
      simp only [Option.getD_none, List.length_append, List.length_cons] at hlength
      omega
    | some p =>
      have htext := (splitOnce_eq_some hsplit).1
      constructor
      · rintro ⟨hmethod, -⟩
        exact ⟨p.1, p.2, rfl, hmethod⟩
      · rintro ⟨method, password, hsame, hmethod⟩
        obtain rfl := Option.some.inj hsame
        exact ⟨hmethod, htext.symm⟩
  rw [roundTrips_iff_options ho, EntryCarried, h]
  simp only [Outbound.credential, Outbound.required, Outbound.slots, required_some,
    rereadOutbound, SingboxWriter.Outbound.shadowsocks.injEq, true_and, endpoint_iff,
    ← plugin_iff hplugin, ← hcredential]
  tauto

theorem roundTrips_hysteria2 (h : entry.scheme = .hysteria2) :
    RoundTrips yaml json entry tag ↔ EntryCarried yaml entry := by
  have ho : outboundOf yaml entry = some (.hysteria2 entry.credential (tlsObject yaml entry false)
      ((nonEmptyParam entry "obfs").map fun obfs => (obfs, nonEmptyParam entry "obfs-password"))
      ((paramValue entry "upMbps" <|> paramValue entry "up").bind rateOf)
      ((paramValue entry "downMbps" <|> paramValue entry "down").bind rateOf)) := by
    rw [outboundOf, h]
  have hrate : ∀ rate : Option ℕ, (∀ n ∈ rate, n < 2 ^ 32) →
      ∀ v ∈ rate.map decimal, Printable v := by
    intro rate hrate v hv
    obtain ⟨n, hn, rfl⟩ := Option.map_eq_some_iff.mp hv
    exact decimal_printable ((hrate n hn).trans (by decide))
  obtain ⟨-, hup, hdown⟩ := (wellRead_outboundOf ho).1
  have hobfs : (kept (((nonEmptyParam entry "obfs").map fun obfs =>
      (obfs, nonEmptyParam entry "obfs-password")).map (·.1))).map (fun kind => (kind,
        kept (((nonEmptyParam entry "obfs").map fun obfs =>
          (obfs, nonEmptyParam entry "obfs-password")).bind (·.2)))) =
      (nonEmptyParam entry "obfs").map fun obfs => (obfs, nonEmptyParam entry "obfs-password") := by
    cases hkind : nonEmptyParam entry "obfs" with
    | none => rfl
    | some kind =>
      have hkept : kept (some kind) = some kind :=
        kept_eq_self fun v hv => Option.some.inj hv ▸ nonEmptyParam_ne_nil kind hkind
      simp only [Option.map_some, hkept, Option.bind_some, kept_eq_self nonEmptyParam_ne_nil]
  have hslots : SlotsPrintable (hysteria2Slots ((nonEmptyParam entry "obfs").map fun obfs =>
      (obfs, nonEmptyParam entry "obfs-password"))
      ((paramValue entry "upMbps" <|> paramValue entry "up").bind rateOf)
      ((paramValue entry "downMbps" <|> paramValue entry "down").bind rateOf)) ↔
      ∀ v ∈ nonEmptyParam entry "obfs", Printable v ∧
        ∀ w ∈ nonEmptyParam entry "obfs-password", Printable w := by
    have hrates := And.intro (hrate _ hup) (hrate _ hdown)
    rw [hysteria2Slots, slotsPrintable_cons, slotsPrintable_cons, pair_printable]
    generalize nonEmptyParam entry "obfs-password" = password
    cases nonEmptyParam entry "obfs" with
    | none => exact iff_of_true ⟨by simp, by simp, hrates⟩ (by simp)
    | some kind =>
      simp only [Option.map_some, Option.bind_some, Option.mem_some_iff, forall_eq']
      exact ⟨fun h => ⟨h.1, h.2.1⟩, fun h => ⟨h.1, h.2, hrates⟩⟩
  rw [roundTrips_iff_options ho, EntryCarried, h]
  simp only [Outbound.credential, Outbound.required, Outbound.slots, required_some,
    slotsPrintable_append, rereadOutbound, SingboxWriter.Outbound.hysteria2.injEq, true_and,
    and_true, endpoint_iff, hobfs, hslots, ← tlsCarried_iff .security]
  tauto

theorem roundTrips_socks5 (h : entry.scheme = .socks5) :
    RoundTrips yaml json entry tag ↔ EntryCarried yaml entry := by
  have ho : outboundOf yaml entry = some (.socks
      ((splitOnce ':' entry.credential).bind fun p => nonEmpty p.1)
      ((splitOnce ':' entry.credential).bind fun p => nonEmpty p.2)
      (if paramTruthy entry "tls" then some (minimalTls entry) else none)) := by
    rw [outboundOf, h]
  have hkept : ∀ t : Text, kept (nonEmpty t) = nonEmpty t := by
    intro t
    rw [← Option.getD_some (a := t) (b := []), nonEmpty_getD, kept_kept]
  have hgetD : ∀ t : Text, (nonEmpty t).getD [] = t := by
    intro t
    unfold nonEmpty
    split_ifs with ht
    · exact ht.symm
    · rfl
  have hcredential : ((splitOnce ':' entry.credential).bind fun p => nonEmpty p.1).getD [] ++
      ':' :: ((splitOnce ':' entry.credential).bind fun p => nonEmpty p.2).getD [] =
        entry.credential ↔ ':' ∈ entry.credential := by
    cases hsplit : splitOnce ':' entry.credential with
    | none =>
      have hcolon := splitOnce_eq_none_iff.mp hsplit
      refine iff_of_false (fun hsame => hcolon ?_) hcolon
      rw [← hsame]
      exact List.mem_append_right _ List.mem_cons_self
    | some p =>
      have htext := (splitOnce_eq_some hsplit).1
      rw [Option.bind_some, Option.bind_some, hgetD, hgetD, ← htext]
      refine iff_of_true rfl ?_
      rw [htext]
      exact List.mem_append_right _ List.mem_cons_self
  have hparts : ∀ f : Text × Text → Text,
      kept ((splitOnce ':' entry.credential).bind fun p => nonEmpty (f p)) =
        (splitOnce ':' entry.credential).bind fun p => nonEmpty (f p) := by
    intro f
    cases splitOnce ':' entry.credential with
    | none => rfl
    | some p => exact hkept _
  have htls : SlotsPrintable ((if paramTruthy entry "tls" then some (minimalTls entry)
      else none).elim [] socksSlots) ↔
      (paramTruthy entry "tls" = true → ∀ v ∈ sniOf entry, Printable v) := by
    cases paramTruthy entry "tls" with
    | false => exact iff_of_true slotsPrintable_nil (fun h => Bool.noConfusion h)
    | true =>
      rw [if_pos rfl, Option.elim_some, socksSlots, slotsPrintable_cons, slotsPrintable_cons,
        slotsPrintable_cons]
      constructor
      · exact fun hslots _ => hslots.2.1
      · exact fun hsni => ⟨flag_printable true, hsni rfl, flag_printable _, slotsPrintable_nil⟩
  have hsame : (if paramTruthy entry "tls" then some (minimalTls entry) else none).map
      rereadSocksTls = if paramTruthy entry "tls" then some (minimalTls entry) else none := by
    cases paramTruthy entry "tls" with
    | false => rfl
    | true =>
      refine congrArg some ?_
      rw [rereadSocksTls, minimalTls, kept_eq_self sniOf_ne_nil]
  rw [roundTrips_iff_options ho, EntryCarried, h]
  simp only [Outbound.credential, Outbound.required, Outbound.slots, rereadOutbound,
    hparts (·.1), hparts (·.2), hsame, htls, hcredential, endpoint_iff, and_true]
  have hrequired : ∀ v ∈ (none : Option Text), v ≠ [] := fun v hv => absurd hv (by simp)
  tauto

/-- Exactly the carried entries come back from a trip through the format. -/
theorem round_trips_iff (yaml : SerdeNorway) (json : SerdeJson) (entry : ProxyEntry) (tag : Text) :
    RoundTrips yaml json entry tag ↔ EntryCarried yaml entry := by
  have hskipped : ∀ {s : Scheme}, entry.scheme = s → outboundOf yaml entry = none →
      RoundTrips yaml json entry tag := by
    intro s _ hnone v hv
    rw [entryToOutboundNamed, hnone] at hv
    exact absurd hv (by simp)
  cases hscheme : entry.scheme with
  | vless => exact roundTrips_vless hscheme
  | vmess => exact roundTrips_vmess hscheme
  | trojan => exact roundTrips_trojan hscheme
  | ss => exact roundTrips_ss hscheme
  | hysteria2 => exact roundTrips_hysteria2 hscheme
  | socks5 => exact roundTrips_socks5 hscheme
  | naive | tuic | mieru | snell | anyTls =>
    refine iff_of_true (hskipped hscheme ?_) ?_
    · rw [outboundOf, hscheme]
    · rw [EntryCarried, hscheme]
      trivial

end FixedPoint

/-- A SOCKS proxy without authentication, as its URI line stores it. -/
def anonymousSocks : ProxyEntry where
  scheme := .socks5
  name := "relay"
  host := "192.0.2.7"
  port := 1080
  credential := []
  params := []
  rawPath := []
  rawLine := "socks5://192.0.2.7:1080#relay"

/-- The empty credential comes back as a colon. -/
theorem anonymous_socks_changes_credential :
    ¬RoundTrips ⟨fun _ => none, fun _ => none⟩ ⟨fun _ => [], fun _ => none⟩ anonymousSocks
      "relay" := by
  intro h
  obtain ⟨parsed, hparsed, -, -, -, hcredential, -, -⟩ := h _ rfl
  have hread : (parseOutbound ⟨fun _ => [], fun _ => none⟩ {} (.obj
      ((SingboxWriter.Outbound.socks none none none).object "relay" "192.0.2.7" 1080))).entries.map
        (·.credential) = [[':']] := rfl
  have hcolon := congrArg (List.map (·.credential)) hparsed
  rw [List.map_singleton, hcredential] at hcolon
  have habsurd := hread.symm.trans hcolon
  exact absurd habsurd (by decide)

end SingboxRoundTrip
