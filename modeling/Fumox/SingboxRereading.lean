import Fumox.SingboxReading

/-!
The writer on the parameters of a parsed outbound: every option is read again from its slot, some
of them trimmed and decoded once more.
-/

namespace SingboxRereading

open RustText PercentText ProxyModels PayloadGuards UriGrammar FormatParams JsonValue YamlValue
open SingboxParser SingboxWriter SingboxReading

/-- A parameter text as the writers read it. -/
def reread (raw : Text) : Option Text :=
  if trim raw = [] then none else some (percentDecode (trim raw))

/-- A parameter text as the writers read a list. -/
def readList (yaml : SerdeNorway) (raw : Text) : Option (List Text) :=
  if trim raw = [] then none
  else
    match yamlValue yaml raw with
    | some (.seq items) => nonemptyList ((items.map (listItemText yaml)).filter (· ≠ []))
    | _ => nonemptyList ((((percentDecode raw).splitOn ',').map trim).filter (· ≠ []))

def slotBy (p : Text → Bool) (slots : List (Text × Option Text)) : Option Text :=
  ((spelled slots).find? fun q => p q.key).map (·.value)

section Lookup

variable {p : Text → Bool} {k : Text} {v : Option Text} {l m : List (Text × Option Text)}
  {entry : ProxyEntry}

@[simp] theorem slotBy_nil : slotBy p [] = none := rfl

theorem slotBy_append : slotBy p (l ++ m) = (slotBy p l).or (slotBy p m) := by
  rw [slotBy, spelled_append, List.find?_append, Option.map_or]
  rfl

theorem slotBy_single (h : p k = true) : slotBy p [(k, v)] = kept v := by
  cases v with
  | none => rfl
  | some t =>
    by_cases ht : t = []
    · simp [slotBy, spelled_cons, pushSome_some, pushParam, ht, kept, Option.filter_some]
    · simp [slotBy, spelled_cons, pushSome_some, pushParam, ht, kept, Option.filter_some, h]

theorem slotBy_none (h : ∀ s ∈ l, p s.1 = false) : slotBy p l = none := by
  rw [slotBy, Option.map_eq_none_iff, List.find?_eq_none]
  intro q hq
  obtain ⟨s, hs, v, -, -, rfl⟩ := mem_spelled.mp hq
  rw [h s hs]
  exact Bool.false_ne_true

theorem slotBy_cons_ne (h : p k = false) : slotBy p ((k, v) :: l) = slotBy p l := by
  have hhead : slotBy p [(k, v)] = none :=
    slotBy_none fun s hs => by rw [List.mem_singleton.mp hs]; exact h
  rw [← List.singleton_append, slotBy_append, hhead, Option.none_or]

theorem slotBy_cons (h : p k = true) : slotBy p ((k, v) :: l) = (kept v).or (slotBy p l) := by
  rw [← List.singleton_append, slotBy_append, slotBy_single h]

theorem slotBy_middle {r : List (Text × Option Text)} (hl : ∀ s ∈ l, p s.1 = false)
    (hr : ∀ s ∈ r, p s.1 = false) : slotBy p (l ++ (m ++ r)) = slotBy p m := by
  rw [slotBy_append, slotBy_append, slotBy_none hl, slotBy_none hr, Option.none_or, Option.or_none]

end Lookup

theorem orElse_none (value : Option Text) : (value <|> none) = value := by
  cases value <;> rfl

theorem eqIgnoreAsciiCase_self (t : Text) : eqIgnoreAsciiCase t t = true :=
  beq_self_eq_true _

theorem slot_self {k : Text} {v : Option Text} {l : List (Text × Option Text)} :
    slotBy (eqIgnoreAsciiCase · k) ((k, v) :: l) =
      (kept v).or (slotBy (eqIgnoreAsciiCase · k) l) :=
  slotBy_cons (p := (eqIgnoreAsciiCase · k)) (eqIgnoreAsciiCase_self k)

theorem slot_ne {k key : Text} {v : Option Text} {l : List (Text × Option Text)}
    (h : eqIgnoreAsciiCase k key = false) :
    slotBy (eqIgnoreAsciiCase · key) ((k, v) :: l) = slotBy (eqIgnoreAsciiCase · key) l :=
  slotBy_cons_ne (p := (eqIgnoreAsciiCase · key)) h

theorem exact_self {k : Text} {v : Option Text} {l : List (Text × Option Text)} :
    slotBy (· == k) ((k, v) :: l) = (kept v).or (slotBy (· == k) l) :=
  slotBy_cons (p := (· == k)) (beq_self_eq_true k)

theorem exact_ne {k key : Text} {v : Option Text} {l : List (Text × Option Text)} (h : k ≠ key) :
    slotBy (· == key) ((k, v) :: l) = slotBy (· == key) l :=
  slotBy_cons_ne (p := (· == key)) (beq_false_of_ne h)

/-- No slot answers to one of the keys. -/
def Foreign (keys : List Text) (slots : List (Text × Option Text)) : Prop :=
  ∀ s ∈ slots, ∀ k ∈ keys, eqIgnoreAsciiCase s.1 k = false

theorem foreign_of_keyed {keys ks : List Text} {slots : List (Text × Option Text)}
    (h : Keyed ks slots) (hkeys : ∀ a ∈ ks, ∀ k ∈ keys, eqIgnoreAsciiCase a k = false) :
    Foreign keys slots :=
  fun s hs => hkeys _ (h s hs)

section Readers

variable {keys : List Text} {l m r : List (Text × Option Text)} {entry : ProxyEntry} {key : Text}

theorem paramIgnoreCase_slot (hparams : entry.params = spelled (l ++ (m ++ r)))
    (hl : Foreign keys l) (hr : Foreign keys r) (hkey : key ∈ keys) :
    entry.paramIgnoreCase key = slotBy (eqIgnoreAsciiCase · key) m := by
  rw [ProxyEntry.paramIgnoreCase, hparams]
  exact slotBy_middle (p := (eqIgnoreAsciiCase · key)) (fun s hs => hl s hs key hkey)
    fun s hs => hr s hs key hkey

theorem Foreign.exact (h : Foreign keys l) (hkey : key ∈ keys) :
    ∀ s ∈ l, (s.1 == key) = false := by
  intro s hs
  apply beq_false_of_ne
  rintro rfl
  have hself := h s hs s.1 hkey
  rw [eqIgnoreAsciiCase_self] at hself
  exact Bool.noConfusion hself

theorem param_slot (hparams : entry.params = spelled (l ++ (m ++ r)))
    (hl : Foreign keys l) (hr : Foreign keys r) (hkey : key ∈ keys) :
    entry.param key = slotBy (· == key) m := by
  rw [ProxyEntry.param, hparams]
  exact slotBy_middle (p := (· == key)) (hl.exact hkey) (hr.exact hkey)

theorem kept_kept (value : Option Text) : kept (kept value) = kept value := by
  unfold kept
  cases value with
  | none => rfl
  | some t =>
    by_cases h : t = []
    · simp [h, Option.filter_some]
    · simp [h, Option.filter_some]

theorem nonEmptyParam_slot (hparams : entry.params = spelled (l ++ (m ++ r)))
    (hl : Foreign keys l) (hr : Foreign keys r) (hkey : key ∈ keys) :
    nonEmptyParam entry key = kept (slotBy (· == key) m) := by
  rw [nonEmptyParam, param_slot hparams hl hr hkey]
  rfl

theorem paramValue_slot (hparams : entry.params = spelled (l ++ (m ++ r)))
    (hl : Foreign keys l) (hr : Foreign keys r) (hkey : key ∈ keys) :
    paramValue entry key = (slotBy (eqIgnoreAsciiCase · key) m).bind reread := by
  rw [paramValue, paramIgnoreCase_slot hparams hl hr hkey]
  rfl

theorem paramList_slot (yaml : SerdeNorway) (hparams : entry.params = spelled (l ++ (m ++ r)))
    (hl : Foreign keys l) (hr : Foreign keys r) (hkey : key ∈ keys) :
    paramList yaml entry key = (slotBy (eqIgnoreAsciiCase · key) m).bind (readList yaml) := by
  rw [paramList, paramIgnoreCase_slot hparams hl hr hkey]
  rfl

theorem kept_bind_reread (value : Option Text) : (kept value).bind reread = value.bind reread := by
  cases value with
  | none => rfl
  | some t =>
    by_cases h : t = []
    · rw [h]
      rfl
    · simp [h, kept, Option.filter_some]

theorem kept_bind_readList (yaml : SerdeNorway) (value : Option Text) :
    (kept value).bind (readList yaml) = value.bind (readList yaml) := by
  cases value with
  | none => rfl
  | some t =>
    by_cases h : t = []
    · rw [h]
      rfl
    · simp [h, kept, Option.filter_some]

end Readers

/-- The keys under which the writer looks for TLS options. -/
def tlsReads : List Text :=
  ["sni", "servername", "alpn", "fp", "pbk", "sid", "reality-opts", "security", "tls", "insecure",
    "allowinsecure", "skip-cert-verify", "allow_insecure"]

/-- The REALITY keys, when there is one of them. -/
def realityPair (pbk sid : Option Text) : Option (Option Text × Option Text) :=
  if pbk.isSome || sid.isSome then some (pbk, sid) else none

/-- The TLS options after one trip. -/
def rereadTls (yaml : SerdeNorway) (tls : TlsOptions) : TlsOptions where
  serverName := kept tls.serverName
  insecure := tls.insecure
  alpn := (tls.alpn.map joinedItems).bind (readList yaml)
  fingerprint := kept tls.fingerprint
  reality :=
    realityPair ((tls.reality.bind (·.1)).bind reread) ((tls.reality.bind (·.2)).bind reread)

section Tls

variable {spelling : TlsSpelling} {tls : TlsOptions} {l r : List (Text × Option Text)}
  {entry : ProxyEntry}

theorem slotBy_toggle {p : Text → Bool} {m : List (Text × Option Text)} {reality : Bool}
    (hsecurity : p "security" = false) (htls : p "tls" = false) :
    slotBy p (toggleSlot spelling reality :: m) = slotBy p m := by
  cases spelling with
  | security => exact slotBy_cons_ne hsecurity
  | tls => exact slotBy_cons_ne htls

theorem tlsSlot_sni : slotBy (· == ("sni" : Text)) (tlsSlots spelling tls) =
    kept tls.serverName := by
  simp (disch := decide) only [tlsSlots, slotBy_toggle, slotBy_cons_ne, slotBy_cons, slotBy_nil,
    Option.or_none]

theorem tlsSlot_fp : slotBy (· == ("fp" : Text)) (tlsSlots spelling tls) =
    kept tls.fingerprint := by
  simp (disch := decide) only [tlsSlots, slotBy_toggle, slotBy_cons_ne, slotBy_cons, slotBy_nil,
    Option.or_none]

theorem tlsSlot_alpn : slotBy (eqIgnoreAsciiCase · "alpn") (tlsSlots spelling tls) =
    kept (tls.alpn.map joinedItems) := by
  simp (disch := decide) only [tlsSlots, slotBy_toggle, slotBy_cons_ne, slotBy_cons, slotBy_nil,
    Option.or_none]

theorem tlsSlot_pbk : slotBy (eqIgnoreAsciiCase · "pbk") (tlsSlots spelling tls) =
    kept (tls.reality.bind (·.1)) := by
  simp (disch := decide) only [tlsSlots, slotBy_toggle, slotBy_cons_ne, slotBy_cons, slotBy_nil,
    Option.or_none]

theorem tlsSlot_sid : slotBy (eqIgnoreAsciiCase · "sid") (tlsSlots spelling tls) =
    kept (tls.reality.bind (·.2)) := by
  simp (disch := decide) only [tlsSlots, slotBy_toggle, slotBy_cons_ne, slotBy_cons, slotBy_nil,
    Option.or_none]

theorem tlsSlot_absent {key : Text} (h : key ∈ (["servername", "reality-opts"] : List Text)) :
    slotBy (eqIgnoreAsciiCase · key) (tlsSlots spelling tls) = none := by
  have hkeys : ∀ a ∈ tlsKeys, ∀ k ∈ (["servername", "reality-opts"] : List Text),
      eqIgnoreAsciiCase a k = false := by decide
  exact slotBy_none fun s hs => hkeys _ (tlsSlots_keyed spelling tls s hs) key h

/-- The insecure flag, as the toggle vocabulary reads it. -/
theorem isInsecure_spelled (slots : List (Text × Option Text)) :
    isInsecure (spelled slots) = slots.any fun s =>
      insecureAliases.contains (toAsciiLowercase s.1) && s.2.any isTruthyToggle := by
  induction slots with
  | nil => rfl
  | cons s slots ih =>
    rw [spelled_cons, isInsecure, List.any_append, List.any_cons, ← ih]
    congr 1
    cases h : s.2 with
    | none => simp [pushSome]
    | some v =>
      by_cases hv : v = []
      · subst hv
        have hempty : isTruthyToggle [] = false := rfl
        simp [pushSome_some, pushParam, hempty]
      · simp [pushSome_some, pushParam, hv, isInsecureParam]

theorem any_insecure_foreign {m : List (Text × Option Text)} (h : Foreign tlsReads m) :
    (m.any fun s => insecureAliases.contains (toAsciiLowercase s.1) && s.2.any isTruthyToggle) =
      false := by
  have haliases : ∀ a ∈ insecureAliases, a ∈ tlsReads ∧ toAsciiLowercase a = a := by decide
  rw [List.any_eq_false]
  intro s hs
  have hkey : insecureAliases.contains (toAsciiLowercase s.1) = false := by
    rw [Bool.eq_false_iff]
    intro hcontains
    obtain ⟨hmem, hlower⟩ := haliases _ (List.contains_iff_mem.mp hcontains)
    have hforeign := h s hs _ hmem
    rw [eqIgnoreAsciiCase, hlower, beq_self_eq_true] at hforeign
    exact Bool.noConfusion hforeign
  rw [hkey, Bool.false_and]
  exact Bool.false_ne_true

theorem any_insecure_tlsSlots : ((tlsSlots spelling tls).any fun s =>
    insecureAliases.contains (toAsciiLowercase s.1) && s.2.any isTruthyToggle) = tls.insecure := by
  obtain ⟨serverName, insecure, alpn, fingerprint, reality⟩ := tls
  cases spelling <;> cases insecure <;> rfl

/-- The parameters of an entry around those of its TLS options. -/
structure TlsEntry (entry : ProxyEntry) (spelling : TlsSpelling) (tls : TlsOptions)
    (l r : List (Text × Option Text)) : Prop where
  params : entry.params = spelled (l ++ (tlsSlots spelling tls ++ r))
  left : Foreign tlsReads l
  right : Foreign tlsReads r

namespace TlsEntry

variable (h : TlsEntry entry spelling tls l r)
include h

theorem insecure : isInsecure entry.params = tls.insecure := by
  rw [h.params, isInsecure_spelled, List.any_append, List.any_append, any_insecure_foreign h.left,
    any_insecure_foreign h.right, any_insecure_tlsSlots, Bool.false_or, Bool.or_false]

theorem servername : paramValue entry "servername" = none := by
  rw [paramValue_slot h.params h.left h.right (by decide), tlsSlot_absent (by decide)]
  rfl

theorem sni : sniOf entry = kept tls.serverName := by
  rw [sniOf, h.servername, nonEmptyParam_slot h.params h.left h.right (by decide), tlsSlot_sni,
    kept_kept, orElse_none]

theorem fingerprint : nonEmptyParam entry "fp" = kept tls.fingerprint := by
  rw [nonEmptyParam_slot h.params h.left h.right (by decide), tlsSlot_fp, kept_kept]

theorem alpn (yaml : SerdeNorway) :
    paramList yaml entry "alpn" = (tls.alpn.map joinedItems).bind (readList yaml) := by
  rw [paramList_slot yaml h.params h.left h.right (by decide), tlsSlot_alpn, kept_bind_readList]

theorem realityOpts (yaml : SerdeNorway) (key : Text) :
    mapStr (paramMap yaml entry "reality-opts") key = none := by
  have hnone : entry.paramIgnoreCase "reality-opts" = none := by
    rw [paramIgnoreCase_slot h.params h.left h.right (by decide), tlsSlot_absent (by decide)]
  rw [paramMap, hnone]
  rfl

theorem publicKey (yaml : SerdeNorway) :
    realityPublicKey yaml entry = (tls.reality.bind (·.1)).bind reread := by
  rw [realityPublicKey, h.realityOpts, paramValue_slot h.params h.left h.right (by decide),
    tlsSlot_pbk, kept_bind_reread, orElse_none]

theorem shortId (yaml : SerdeNorway) :
    realityShortId yaml entry = (tls.reality.bind (·.2)).bind reread := by
  rw [realityShortId, h.realityOpts, paramValue_slot h.params h.left h.right (by decide),
    tlsSlot_sid, kept_bind_reread, orElse_none]

theorem tlsObject_eq (yaml : SerdeNorway) :
    tlsObject yaml entry tls.reality.isSome = rereadTls yaml tls := by
  have hreality : (if tls.reality.isSome then realityKeys yaml entry else none) =
      (rereadTls yaml tls).reality := by
    rw [realityKeys, h.publicKey, h.shortId, rereadTls]
    cases tls.reality <;> rfl
  rw [tlsObject, h.sni, h.insecure, h.alpn, h.fingerprint, hreality]
  rfl

end TlsEntry

namespace TlsEntry

/-- The word under which the parser stores an enabled TLS object. -/
def securityWord (tls : TlsOptions) : Text :=
  if tls.reality.isSome then "reality" else "tls"

theorem securityWord_slot {p : Text → Bool} (hp : p "security" = true) :
    slotBy p (tlsSlots .security tls) = some (securityWord tls) := by
  have hkept : kept (some (securityWord tls)) = some (securityWord tls) := by
    unfold securityWord
    cases tls.reality <;> rfl
  have hcons : slotBy p (tlsSlots .security tls) = (kept (some (securityWord tls))).or _ :=
    slotBy_cons hp
  rw [hcons, hkept]
  rfl

theorem securityIs_eq (h : TlsEntry entry .security tls l r) (want : Text) :
    securityIs entry want = eqIgnoreAsciiCase (securityWord tls) want := by
  have hreread : reread (securityWord tls) = some (securityWord tls) := by
    unfold securityWord
    cases tls.reality <;> rfl
  rw [securityIs, paramValue_slot h.params h.left h.right (by decide),
    securityWord_slot (p := (eqIgnoreAsciiCase · "security")) (eqIgnoreAsciiCase_self _),
    Option.bind_some, hreread]
  rfl

theorem wantsReality_eq (h : TlsEntry entry .security tls l r) (yaml : SerdeNorway) :
    wantsReality yaml entry = tls.reality.isSome := by
  rw [wantsReality, h.securityIs_eq, h.publicKey, securityWord]
  cases tls.reality with
  | none => rfl
  | some keys => exact Bool.true_or _

theorem wantsTls_eq (h : TlsEntry entry .security tls l r) :
    (tls.reality.isSome || wantsTls entry) = true := by
  cases hreality : tls.reality with
  | some keys => rfl
  | none =>
    have hkeyed : Keyed ["security", "pbk", "sid", "sni", "insecure", "alpn", "fp"]
        (tlsSlots .security tls) := Keyed.of_all rfl
    have hkeys : ∀ a ∈ (["security", "pbk", "sid", "sni", "insecure", "alpn", "fp"] : List Text),
        eqIgnoreAsciiCase a "tls" = false := by decide
    have habsent : slotBy (eqIgnoreAsciiCase · "tls") (tlsSlots .security tls) = none :=
      slotBy_none fun s hs => hkeys _ (hkeyed s hs)
    have hword : securityWord tls = "tls" := by
      rw [securityWord, hreality]
      rfl
    rw [wantsTls, paramValue_slot h.params h.left h.right (by decide), habsent,
      param_slot h.params h.left h.right (by decide), 
      securityWord_slot (p := (· == ("security" : Text))) (beq_self_eq_true _), hword]
    rfl

theorem vmessTls_eq (h : TlsEntry entry .tls tls l r) : vmessTls entry = true := by
  have hcons : slotBy (eqIgnoreAsciiCase · "tls") (tlsSlots .tls tls) =
      (kept (some ("tls" : Text))).or _ :=
    slotBy_cons (eqIgnoreAsciiCase_self _)
  have hvalue : paramValue entry "tls" = some ("tls" : Text) := by
    rw [paramValue_slot h.params h.left h.right (by decide), hcons]
    rfl
  rw [vmessTls, hvalue]
  rfl

end TlsEntry

end Tls

section Plain

variable {m : List (Text × Option Text)} {entry : ProxyEntry}

theorem nonEmptyParam_of (key : Text) (hparams : entry.params = spelled m) :
    nonEmptyParam entry key = kept (slotBy (· == key) m) := by
  rw [nonEmptyParam, ProxyEntry.param, hparams]
  rfl

theorem paramValue_of (key : Text) (hparams : entry.params = spelled m) :
    paramValue entry key = (slotBy (eqIgnoreAsciiCase · key) m).bind reread := by
  rw [paramValue, ProxyEntry.paramIgnoreCase, hparams]
  rfl

theorem paramIgnoreCase_foreign {keys : List Text} {key : Text} (hparams : entry.params = spelled m)
    (h : Foreign keys m) (hkey : key ∈ keys) : entry.paramIgnoreCase key = none := by
  rw [ProxyEntry.paramIgnoreCase, hparams]
  exact slotBy_none (p := (eqIgnoreAsciiCase · key)) fun s hs => h s hs key hkey

theorem paramValue_foreign {keys : List Text} {key : Text} (hparams : entry.params = spelled m)
    (h : Foreign keys m) (hkey : key ∈ keys) : paramValue entry key = none := by
  rw [paramValue, paramIgnoreCase_foreign hparams h hkey]
  rfl

theorem param_foreign {keys : List Text} {key : Text} (hparams : entry.params = spelled m)
    (h : Foreign keys m) (hkey : key ∈ keys) : entry.param key = none := by
  rw [ProxyEntry.param, hparams]
  exact slotBy_none (p := (· == key)) (h.exact hkey)

variable (hparams : entry.params = spelled m) (h : Foreign tlsReads m)
include hparams h

/-- Without TLS slots the writer finds no reason for TLS. -/
theorem wantsReality_foreign (yaml : SerdeNorway) : wantsReality yaml entry = false := by
  have hopts : paramMap yaml entry "reality-opts" = none := by
    rw [paramMap, paramIgnoreCase_foreign hparams h (by decide)]
    rfl
  rw [wantsReality, securityIs, realityPublicKey, hopts,
    paramValue_foreign hparams h (by decide), paramValue_foreign hparams h (by decide)]
  rfl

theorem wantsTls_foreign : wantsTls entry = false := by
  have hsecurity : entry.param "security" = none := param_foreign hparams h (by decide)
  have hsni : nonEmptyParam entry "sni" = none := by
    rw [nonEmptyParam, param_foreign hparams h (by decide)]
    rfl
  have hinsecure : isInsecure entry.params = false := by
    rw [hparams, isInsecure_spelled]
    exact any_insecure_foreign h
  rw [wantsTls, paramValue_foreign hparams h (by decide), hsecurity, sniOf, hsni,
    paramValue_foreign hparams h (by decide), hinsecure]
  rfl

theorem vmessTls_foreign : vmessTls entry = false := by
  rw [vmessTls, paramTruthy, securityIs, paramIgnoreCase_foreign hparams h (by decide),
    paramValue_foreign hparams h (by decide), paramValue_foreign hparams h (by decide)]
  rfl

end Plain

/-- The keys under which the writer looks for transport options, but for the network key. -/
def transportReads : List Text := ["network", "path", "host", "serviceName"]

/-- The transport after one trip. -/
def rereadTransport : Transport → Transport
  | .ws path host => .ws (path.bind reread) (host.bind reread)
  | .httpUpgrade path host => .httpUpgrade (path.bind reread) (host.bind reread)
  | .grpc serviceName => .grpc (serviceName.bind reread)
  | .http hosts path =>
    .http (((hosts.map joinedItems).bind reread).map splitHosts) (path.bind reread)

/-- The parameters of an entry in front of those of its transport. -/
structure TransportEntry (entry : ProxyEntry) (networkKey : Text) (t : Transport)
    (l : List (Text × Option Text)) : Prop where
  params : entry.params = spelled (l ++ (transportSlots networkKey t ++ []))
  left : Foreign (networkKey :: transportReads) l
  key : ∀ k ∈ transportReads, eqIgnoreAsciiCase networkKey k = false

namespace TransportEntry

variable {entry : ProxyEntry} {networkKey : Text} {t : Transport} {l : List (Text × Option Text)}
  (h : TransportEntry entry networkKey t l)
include h

theorem value {key : Text} (hkey : key ∈ networkKey :: transportReads) :
    paramValue entry key =
      (slotBy (eqIgnoreAsciiCase · key) (transportSlots networkKey t)).bind reread :=
  paramValue_slot h.params h.left (fun _ hs => absurd hs List.not_mem_nil) hkey

theorem network {word : Text} {rest : List (Text × Option Text)}
    (hslots : transportSlots networkKey t = (networkKey, some word) :: rest)
    (hword : reread word = some word) :
    networkOf entry networkKey = some (toAsciiLowercase word) := by
  have hne : word ≠ [] := by
    rintro rfl
    exact absurd hword (by decide)
  have hkept : kept (some word) = some word := by
    simp [kept, Option.filter_some, hne]
  rw [networkOf, h.value List.mem_cons_self, hslots, slot_self, hkept,
    Option.some_or, Option.bind_some, hword]
  rfl

theorem transportObject_eq : transportObject entry networkKey = some (rereadTransport t) := by
  have hpath : ("path" : Text) ∈ transportReads := by decide
  have hhost : ("host" : Text) ∈ transportReads := by decide
  have hservice : ("serviceName" : Text) ∈ transportReads := by decide
  cases t with
  | ws path host =>
    have hp : paramValue entry "path" = path.bind reread := by
      rw [h.value (List.mem_cons_of_mem _ hpath), transportSlots, slot_ne (h.key _ hpath),
        slot_self, slot_ne (by decide), slotBy_nil, Option.or_none, kept_bind_reread]
    have hh : paramValue entry "host" = host.bind reread := by
      rw [h.value (List.mem_cons_of_mem _ hhost), transportSlots, slot_ne (h.key _ hhost),
        slot_ne (by decide), slot_self, slotBy_nil, Option.or_none, kept_bind_reread]
    rw [transportObject, h.network rfl rfl, hp, hh, Option.bind_some]
    exact if_pos rfl
  | httpUpgrade path host =>
    have hp : paramValue entry "path" = path.bind reread := by
      rw [h.value (List.mem_cons_of_mem _ hpath), transportSlots, slot_ne (h.key _ hpath),
        slot_self, slot_ne (by decide), slotBy_nil, Option.or_none, kept_bind_reread]
    have hh : paramValue entry "host" = host.bind reread := by
      rw [h.value (List.mem_cons_of_mem _ hhost), transportSlots, slot_ne (h.key _ hhost),
        slot_ne (by decide), slot_self, slotBy_nil, Option.or_none, kept_bind_reread]
    rw [transportObject, h.network rfl rfl, hp, hh, Option.bind_some]
    exact (if_neg (of_decide_eq_true rfl)).trans (if_pos rfl)
  | grpc serviceName =>
    have hs : paramValue entry "serviceName" = serviceName.bind reread := by
      rw [h.value (List.mem_cons_of_mem _ hservice), transportSlots, slot_ne (h.key _ hservice),
        slot_self, slotBy_nil, Option.or_none, kept_bind_reread]
    have hp : paramValue entry "path" = none := by
      rw [h.value (List.mem_cons_of_mem _ hpath), transportSlots, slot_ne (h.key _ hpath),
        slot_ne (by decide), slotBy_nil, Option.bind_none]
    have hfallback : (serviceName.bind reread <|>
        if entry.scheme = .vmess then none else none) = serviceName.bind reread := by
      rw [ite_self]
      cases serviceName.bind reread <;> rfl
    rw [transportObject, h.network rfl rfl, hp, hs, Option.bind_some, hfallback]
    refine (if_neg (of_decide_eq_true rfl)).trans ((if_neg (of_decide_eq_true rfl)).trans ?_)
    exact if_pos rfl
  | http hosts path =>
    have hp : paramValue entry "path" = path.bind reread := by
      rw [h.value (List.mem_cons_of_mem _ hpath), transportSlots, slot_ne (h.key _ hpath),
        slot_ne (by decide), slot_self, slotBy_nil, Option.or_none, kept_bind_reread]
    have hh : paramValue entry "host" = (hosts.map joinedItems).bind reread := by
      rw [h.value (List.mem_cons_of_mem _ hhost), transportSlots, slot_ne (h.key _ hhost),
        slot_self, slot_ne (by decide), slotBy_nil, Option.or_none, kept_bind_reread]
    rw [transportObject, h.network rfl rfl, hp, hh, Option.bind_some]
    refine (if_neg (of_decide_eq_true rfl)).trans ((if_neg (of_decide_eq_true rfl)).trans ?_)
    exact (if_neg (of_decide_eq_true rfl)).trans (if_pos (.inr rfl))

end TransportEntry

theorem transportObject_foreign {entry : ProxyEntry} {networkKey : Text}
    {m : List (Text × Option Text)} (hparams : entry.params = spelled m)
    (h : Foreign (networkKey :: transportReads) m) : transportObject entry networkKey = none := by
  have hnetwork : ("network" : Text) ∈ networkKey :: transportReads :=
    List.mem_cons_of_mem _ (by decide)
  rw [transportObject, networkOf, paramValue_foreign hparams h List.mem_cons_self,
    paramValue_foreign hparams h hnetwork]
  rfl

/-- An entry whose parameters end with those of a TLS object and a transport. -/
structure StreamEntry (entry : ProxyEntry) (spelling : TlsSpelling) (networkKey : Text)
    (tls : Option TlsOptions) (transport : Option Transport) (pre : List (Text × Option Text)) :
    Prop where
  params : entry.params = spelled (pre ++ streamSlots spelling networkKey tls transport)
  tlsLeft : Foreign tlsReads pre
  transportLeft : Foreign (networkKey :: transportReads) pre
  network : networkKey = "type" ∨ networkKey = "net"

theorem Foreign.append {keys : List Text} {l m : List (Text × Option Text)} (hl : Foreign keys l)
    (hm : Foreign keys m) : Foreign keys (l ++ m) :=
  List.forall_mem_append.mpr ⟨hl, hm⟩

theorem transportKeys_not_tlsReads : ∀ a ∈ transportKeys, ∀ k ∈ tlsReads,
    eqIgnoreAsciiCase a k = false := by
  decide

theorem tlsKeys_not_transportReads : ∀ a ∈ tlsKeys,
    ∀ k ∈ ("type" : Text) :: ("net" : Text) :: transportReads, eqIgnoreAsciiCase a k = false := by
  decide

namespace StreamEntry

variable {entry : ProxyEntry} {spelling : TlsSpelling} {networkKey : Text}
  {tls : Option TlsOptions} {transport : Option Transport} {pre : List (Text × Option Text)}

theorem network_mem (h : StreamEntry entry spelling networkKey tls transport pre) :
    networkKey ∈ transportKeys := by
  rcases h.network with rfl | rfl <;> decide

theorem tlsRight (h : StreamEntry entry spelling networkKey tls transport pre) :
    Foreign tlsReads (transport.elim [] (transportSlots networkKey)) :=
  foreign_of_keyed (transport_keyed h.network_mem transport) transportKeys_not_tlsReads

theorem tlsEntry {t : TlsOptions} (h : StreamEntry entry spelling networkKey (some t) transport pre) :
    TlsEntry entry spelling t pre (transport.elim [] (transportSlots networkKey)) where
  params := h.params
  left := h.tlsLeft
  right := h.tlsRight

theorem noTls (h : StreamEntry entry spelling networkKey none transport pre) :
    entry.params = spelled (pre ++ transport.elim [] (transportSlots networkKey)) ∧
      Foreign tlsReads (pre ++ transport.elim [] (transportSlots networkKey)) :=
  ⟨h.params, h.tlsLeft.append h.tlsRight⟩

theorem transport_eq (h : StreamEntry entry spelling networkKey tls transport pre) :
    transportObject entry networkKey = transport.map rereadTransport := by
  have htls : Foreign (networkKey :: transportReads) (tls.elim [] (tlsSlots spelling)) := by
    apply foreign_of_keyed (tls_keyed spelling tls)
    intro a ha k hk
    apply tlsKeys_not_transportReads a ha
    rcases List.mem_cons.mp hk with rfl | hk
    · rcases h.network with rfl | rfl <;> decide
    · exact List.mem_cons_of_mem _ (List.mem_cons_of_mem _ hk)
  have hleft := h.transportLeft.append htls
  cases transport with
  | none =>
    refine transportObject_foreign ?_ hleft
    rw [h.params, streamSlots, Option.elim_none, List.append_nil]
  | some t =>
    have hentry : TransportEntry entry networkKey t (pre ++ tls.elim [] (tlsSlots spelling)) := {
      params := by
        rw [h.params, streamSlots, Option.elim_some, List.append_nil, List.append_assoc]
      left := hleft
      key := by rcases h.network with rfl | rfl <;> decide }
    exact hentry.transportObject_eq

theorem vless_tls (h : StreamEntry entry .security networkKey tls transport pre)
    (yaml : SerdeNorway) :
    (if wantsReality yaml entry || wantsTls entry then
      some (tlsObject yaml entry (wantsReality yaml entry)) else none) =
      tls.map (rereadTls yaml) := by
  cases tls with
  | none =>
    obtain ⟨hparams, hforeign⟩ := h.noTls
    rw [wantsReality_foreign hparams hforeign, wantsTls_foreign hparams hforeign]
    rfl
  | some t =>
    rw [h.tlsEntry.wantsReality_eq, if_pos h.tlsEntry.wantsTls_eq, h.tlsEntry.tlsObject_eq]
    rfl

theorem trojan_tls {t : TlsOptions}
    (h : StreamEntry entry .security networkKey (some t) transport pre) (yaml : SerdeNorway) :
    tlsObject yaml entry (wantsReality yaml entry) = rereadTls yaml t := by
  rw [h.tlsEntry.wantsReality_eq, h.tlsEntry.tlsObject_eq]

theorem vmess_tls (h : StreamEntry entry .tls networkKey tls transport pre)
    (hreality : ∀ t ∈ tls, t.reality = none) (yaml : SerdeNorway) :
    (if vmessTls entry then some (tlsObject yaml entry false) else none) =
      tls.map (rereadTls yaml) := by
  cases tls with
  | none =>
    obtain ⟨hparams, hforeign⟩ := h.noTls
    rw [vmessTls_foreign hparams hforeign]
    rfl
  | some t =>
    have hobject := h.tlsEntry.tlsObject_eq yaml
    rw [hreality t rfl] at hobject
    rw [if_pos h.tlsEntry.vmessTls_eq]
    exact congrArg some hobject

end StreamEntry

section Numbers

variable {n : ℕ}

theorem reread_decimal (n : ℕ) : reread (decimal n) = some (decimal n) := by
  have hplain : '%' ∉ decimal n := fun h => absurd (isDigit_of_mem_decimal h) (by decide)
  have hne : decimal n ≠ [] := Nat.toDigits_ne_nil
  rw [reread, trim_decimal, if_neg hne, percentDecode_plain hplain]

theorem rateOf_decimal (h : n < 2 ^ 32) : rateOf (decimal n) = some n := by
  have hkeep : (decimal n).rdropWhile (fun c => !c.isDigit) = decimal n := by
    rw [List.rdropWhile_eq_self_iff]
    intro hne
    simp [isDigit_of_mem_decimal (List.getLast_mem hne)]
  rw [rateOf, trim_decimal, hkeep]
  exact parseUnsigned_decimal h

end Numbers

/-- The entry that an outbound is read as, under its tag. -/
def entryOf (o : SingboxWriter.Outbound) (tag host : Text) (port : UInt16) : ProxyEntry where
  scheme := Outbound.scheme o
  name := tag
  host := host
  port := port
  credential := Outbound.credential o
  params := spelled (Outbound.slots o)
  rawPath := []
  rawLine := []

/-- The reduced TLS object of a socks outbound after one trip. -/
def rereadSocksTls (tls : TlsOptions) : TlsOptions where
  serverName := kept tls.serverName
  insecure := tls.insecure
  alpn := none
  fingerprint := none
  reality := none

/-- The options of an outbound after one trip. -/
def rereadOutbound (yaml : SerdeNorway) : SingboxWriter.Outbound → SingboxWriter.Outbound
  | .vless uuid flow tls transport =>
    .vless uuid (kept flow) (tls.map (rereadTls yaml)) (transport.map rereadTransport)
  | .vmess uuid cipher alterId tls transport =>
    .vmess uuid ((reread cipher).getD "auto") alterId (tls.map (rereadTls yaml))
      (transport.map rereadTransport)
  | .trojan password tls transport =>
    .trojan password (rereadTls yaml tls) (transport.map rereadTransport)
  | .shadowsocks method password plugin =>
    .shadowsocks method password (((pluginText plugin).bind reread).bind splitPlugin)
  | .hysteria2 password tls obfs upMbps downMbps =>
    .hysteria2 password (rereadTls yaml tls)
      ((kept (obfs.map (·.1))).map fun kind => (kind, kept (obfs.bind (·.2)))) upMbps downMbps
  | .socks username password tls =>
    .socks (kept username) (kept password) (tls.map rereadSocksTls)

/-- What the writer guarantees of the outbounds that it reads from entries. -/
def WellRead : SingboxWriter.Outbound → Prop
  | .vmess _ _ alterId tls _ => alterId < 2 ^ 64 ∧ ∀ t ∈ tls, t.reality = none
  | .shadowsocks method _ _ => ':' ∉ method
  | .hysteria2 _ tls _ upMbps downMbps =>
    tls.reality = none ∧ (∀ n ∈ upMbps, n < 2 ^ 32) ∧ ∀ n ∈ downMbps, n < 2 ^ 32
  | .socks username _ _ => ∀ u ∈ username, ':' ∉ u
  | _ => True

section Outbounds

variable {yaml : SerdeNorway} {tag host : Text} {port : UInt16}

theorem foreign_single {keys : List Text} {k : Text} {v : Option Text}
    (h : ∀ key ∈ keys, eqIgnoreAsciiCase k key = false) : Foreign keys [(k, v)] :=
  fun _ hs => List.mem_singleton.mp hs ▸ h

theorem outboundOf_vless (uuid : Text) (flow : Option Text) (tls : Option TlsOptions)
    (transport : Option Transport) :
    outboundOf yaml (entryOf (.vless uuid flow tls transport) tag host port) =
      some (rereadOutbound yaml (.vless uuid flow tls transport)) := by
  have h : StreamEntry (entryOf (.vless uuid flow tls transport) tag host port) .security "type"
      tls transport [("flow", flow)] := {
    params := rfl
    tlsLeft := foreign_single (by decide)
    transportLeft := foreign_single (by decide)
    network := .inl rfl }
  have hforeign : Foreign ["flow"] (streamSlots .security "type" tls transport) :=
    foreign_of_keyed (streamSlots_keyed (by decide) _ _ _) (by decide)
  have hflow : nonEmptyParam (entryOf (.vless uuid flow tls transport) tag host port) "flow" =
      kept flow := by
    rw [nonEmptyParam_of "flow" h.params, slotBy_append, exact_self, slotBy_nil, Option.or_none,
      slotBy_none (hforeign.exact List.mem_cons_self), Option.or_none, kept_kept]
  rw [rereadOutbound, ← hflow, ← h.vless_tls yaml, ← h.transport_eq]
  rfl

theorem outboundOf_vmess (uuid cipher : Text) (alterId : ℕ) (tls : Option TlsOptions)
    (transport : Option Transport) (hread : WellRead (.vmess uuid cipher alterId tls transport)) :
    outboundOf yaml (entryOf (.vmess uuid cipher alterId tls transport) tag host port) =
      some (rereadOutbound yaml (.vmess uuid cipher alterId tls transport)) := by
  have h : StreamEntry (entryOf (.vmess uuid cipher alterId tls transport) tag host port) .tls "net"
      tls transport [("scy", some cipher), ("aid", some (decimal alterId))] := {
    params := rfl
    tlsLeft := Foreign.append (foreign_single (by decide)) (foreign_single (by decide))
    transportLeft := Foreign.append (foreign_single (by decide)) (foreign_single (by decide))
    network := .inr rfl }
  have hforeign : Foreign ["scy", "cipher", "aid"] (streamSlots .tls "net" tls transport) :=
    foreign_of_keyed (streamSlots_keyed (by decide) _ _ _) (by decide)
  have hscy : paramValue (entryOf (.vmess uuid cipher alterId tls transport) tag host port) "scy" =
      reread cipher := by
    rw [paramValue_of "scy" h.params, slotBy_append, slot_self, slot_ne (by decide), slotBy_nil,
      slotBy_none fun s hs => hforeign s hs _ (by decide), Option.or_none, Option.or_none,
      kept_bind_reread, Option.bind_some]
  have hcipher : paramValue (entryOf (.vmess uuid cipher alterId tls transport) tag host port)
      "cipher" = none := by
    rw [paramValue_of "cipher" h.params, slotBy_append, slot_ne (by decide), slot_ne (by decide),
      slotBy_nil, slotBy_none fun s hs => hforeign s hs _ (by decide), Option.or_none,
      Option.bind_none]
  have haid : paramValue (entryOf (.vmess uuid cipher alterId tls transport) tag host port) "aid" =
      some (decimal alterId) := by
    rw [paramValue_of "aid" h.params, slotBy_append, slot_ne (by decide), slot_self, slotBy_nil,
      slotBy_none fun s hs => hforeign s hs _ (by decide), Option.or_none, Option.or_none,
      kept_bind_reread, Option.bind_some, reread_decimal]
  have hcipherOf : cipherOf (entryOf (.vmess uuid cipher alterId tls transport) tag host port) =
      (reread cipher).getD "auto" := by
    rw [cipherOf, hscy, hcipher]
    cases reread cipher <;> rfl
  have halter : ((alterIdText (entryOf (.vmess uuid cipher alterId tls transport) tag host
      port)).bind parseU64).getD 0 = alterId := by
    rw [alterIdText, haid]
    exact congrArg (Option.getD · 0) (parseUnsigned_decimal hread.1)
  rw [rereadOutbound, ← hcipherOf, ← h.vmess_tls hread.2 yaml, ← h.transport_eq]
  exact congrArg (fun n => some (SingboxWriter.Outbound.vmess uuid _ n _ _)) halter

theorem outboundOf_trojan (password : Text) (tls : TlsOptions) (transport : Option Transport) :
    outboundOf yaml (entryOf (.trojan password tls transport) tag host port) =
      some (rereadOutbound yaml (.trojan password tls transport)) := by
  have h : StreamEntry (entryOf (.trojan password tls transport) tag host port) .security "type"
      (some tls) transport [] := {
    params := rfl
    tlsLeft := fun _ hs => absurd hs List.not_mem_nil
    transportLeft := fun _ hs => absurd hs List.not_mem_nil
    network := .inl rfl }
  rw [rereadOutbound, ← h.trojan_tls yaml, ← h.transport_eq]
  rfl

theorem outboundOf_shadowsocks (method password : Text) (plugin : Option (Text × Option Text))
    (hread : WellRead (.shadowsocks method password plugin)) :
    outboundOf yaml (entryOf (.shadowsocks method password plugin) tag host port) =
      some (rereadOutbound yaml (.shadowsocks method password plugin)) := by
  have hplugin : paramValue (entryOf (.shadowsocks method password plugin) tag host port)
      "plugin" = (pluginText plugin).bind reread := by
    rw [paramValue_of (m := [("plugin", pluginText plugin)]) "plugin" rfl, slot_self, slotBy_nil,
      Option.or_none, kept_bind_reread]
  have hsplit : methodAndPassword
      (entryOf (.shadowsocks method password plugin) tag host port).credential =
      (method, password) := by
    rw [methodAndPassword]
    exact congrArg (Option.getD · _) (splitOnce_append hread)
  rw [rereadOutbound, ← hplugin]
  exact congrArg (fun c : Text × Text => some (SingboxWriter.Outbound.shadowsocks c.1 c.2 _)) hsplit

theorem bind_rateOf {rate : Option ℕ} (h : ∀ n ∈ rate, n < 2 ^ 32) :
    ((rate.map decimal).bind reread).bind rateOf = rate := by
  cases rate with
  | none => rfl
  | some n => rw [Option.map_some, Option.bind_some, reread_decimal, Option.bind_some,
      rateOf_decimal (h n rfl)]

theorem outboundOf_hysteria2 (password : Text) (tls : TlsOptions)
    (obfs : Option (Text × Option Text)) (upMbps downMbps : Option ℕ)
    (hread : WellRead (.hysteria2 password tls obfs upMbps downMbps)) :
    outboundOf yaml (entryOf (.hysteria2 password tls obfs upMbps downMbps) tag host port) =
      some (rereadOutbound yaml (.hysteria2 password tls obfs upMbps downMbps)) := by
  obtain ⟨hreality, hup, hdown⟩ := hread
  have hkeyed : Keyed ["obfs", "obfs-password", "upMbps", "downMbps"]
      (hysteria2Slots obfs upMbps downMbps) := Keyed.of_all rfl
  have h : TlsEntry (entryOf (.hysteria2 password tls obfs upMbps downMbps) tag host port) .security
      tls [] (hysteria2Slots obfs upMbps downMbps) := {
    params := rfl
    left := fun _ hs => absurd hs List.not_mem_nil
    right := foreign_of_keyed hkeyed (by decide) }
  have hparams : (entryOf (.hysteria2 password tls obfs upMbps downMbps) tag host port).params =
      spelled (tlsSlots .security tls ++ hysteria2Slots obfs upMbps downMbps) := rfl
  have hforeign : Foreign ["obfs", "obfs-password", "upMbps", "up", "downMbps", "down"]
      (tlsSlots .security tls) :=
    foreign_of_keyed (tlsSlots_keyed _ _) (by decide)
  have hobfs : nonEmptyParam (entryOf (.hysteria2 password tls obfs upMbps downMbps) tag host port)
      "obfs" = kept (obfs.map (·.1)) := by
    rw [nonEmptyParam_of "obfs" hparams, slotBy_append,
      slotBy_none (hforeign.exact (by decide)), Option.none_or, hysteria2Slots, exact_self,
      exact_ne (by decide), exact_ne (by decide), exact_ne (by decide), slotBy_nil, Option.or_none,
      kept_kept]
  have hpassword : nonEmptyParam
      (entryOf (.hysteria2 password tls obfs upMbps downMbps) tag host port) "obfs-password" =
      kept (obfs.bind (·.2)) := by
    rw [nonEmptyParam_of "obfs-password" hparams, slotBy_append,
      slotBy_none (hforeign.exact (by decide)), Option.none_or, hysteria2Slots,
      exact_ne (by decide), exact_self, exact_ne (by decide), exact_ne (by decide), slotBy_nil,
      Option.or_none, kept_kept]
  have hupMbps : paramValue (entryOf (.hysteria2 password tls obfs upMbps downMbps) tag host port)
      "upMbps" = (upMbps.map decimal).bind reread := by
    rw [paramValue_of "upMbps" hparams, slotBy_append,
      slotBy_none fun s hs => hforeign s hs _ (by decide), Option.none_or, hysteria2Slots,
      slot_ne (by decide), slot_ne (by decide), slot_self, slot_ne (by decide), slotBy_nil,
      Option.or_none, kept_bind_reread]
  have hdownMbps : paramValue
      (entryOf (.hysteria2 password tls obfs upMbps downMbps) tag host port) "downMbps" =
      (downMbps.map decimal).bind reread := by
    rw [paramValue_of "downMbps" hparams, slotBy_append,
      slotBy_none fun s hs => hforeign s hs _ (by decide), Option.none_or, hysteria2Slots,
      slot_ne (by decide), slot_ne (by decide), slot_ne (by decide), slot_self, slotBy_nil,
      Option.or_none, kept_bind_reread]
  have habsent : ∀ key ∈ (["up", "down"] : List Text), paramValue
      (entryOf (.hysteria2 password tls obfs upMbps downMbps) tag host port) key = none := by
    intro key hkey
    have hall : Foreign ["up", "down"]
        (tlsSlots .security tls ++ hysteria2Slots obfs upMbps downMbps) :=
      (foreign_of_keyed (tlsSlots_keyed _ _) (by decide)).append
        (foreign_of_keyed hkeyed (by decide))
    exact paramValue_foreign hparams hall hkey
  have htls : tlsObject yaml (entryOf (.hysteria2 password tls obfs upMbps downMbps) tag host port)
      false = rereadTls yaml tls := by
    have hobject := h.tlsObject_eq yaml
    rwa [hreality] at hobject
  have hupRate : (paramValue (entryOf (.hysteria2 password tls obfs upMbps downMbps) tag host port)
      "upMbps" <|> paramValue (entryOf (.hysteria2 password tls obfs upMbps downMbps) tag host port)
      "up").bind rateOf = upMbps := by
    rw [hupMbps, habsent _ (by decide), orElse_none]
    exact bind_rateOf hup
  have hdownRate : (paramValue
      (entryOf (.hysteria2 password tls obfs upMbps downMbps) tag host port) "downMbps" <|>
      paramValue (entryOf (.hysteria2 password tls obfs upMbps downMbps) tag host port)
      "down").bind rateOf = downMbps := by
    rw [hdownMbps, habsent _ (by decide), orElse_none]
    exact bind_rateOf hdown
  rw [rereadOutbound, ← htls, ← hobfs, ← hpassword]
  exact congrArg₂ (fun a b => some (SingboxWriter.Outbound.hysteria2 password _ _ a b)) hupRate
    hdownRate

theorem nonEmpty_getD (value : Option Text) : nonEmpty (value.getD []) = kept value := by
  cases value with
  | none => rfl
  | some t =>
    by_cases h : t = []
    · simp [h, nonEmpty, kept, Option.filter_some]
    · simp [h, nonEmpty, kept, Option.filter_some]

theorem outboundOf_socks (username password : Option Text) (tls : Option TlsOptions)
    (hread : WellRead (.socks username password tls)) :
    outboundOf yaml (entryOf (.socks username password tls) tag host port) =
      some (rereadOutbound yaml (.socks username password tls)) := by
  have hcolon : ':' ∉ username.getD [] := by
    cases username with
    | none => exact List.not_mem_nil
    | some u => exact hread u rfl
  have hsplit : splitOnce ':' (entryOf (.socks username password tls) tag host port).credential =
      some (username.getD [], password.getD []) := splitOnce_append hcolon
  have htls : (if paramTruthy (entryOf (.socks username password tls) tag host port) "tls" then
      some (minimalTls (entryOf (.socks username password tls) tag host port)) else none) =
      tls.map rereadSocksTls := by
    cases tls with
    | none => rfl
    | some t =>
      have hparams : (entryOf (.socks username password (some t)) tag host port).params =
          spelled (socksSlots t) := rfl
      have hkeyed : Keyed ["tls", "sni", "insecure"] (socksSlots t) := Keyed.of_all rfl
      have htruthy : paramTruthy (entryOf (.socks username password (some t)) tag host port) "tls" =
          true := rfl
      have hservername : paramValue (entryOf (.socks username password (some t)) tag host port)
          "servername" = none := by
        have hforeign : Foreign ["servername"] (socksSlots t) :=
          foreign_of_keyed hkeyed (by decide)
        exact paramValue_foreign hparams hforeign List.mem_cons_self
      have hsni : sniOf (entryOf (.socks username password (some t)) tag host port) =
          kept t.serverName := by
        rw [sniOf, hservername, nonEmptyParam_of "sni" hparams, socksSlots, exact_ne (by decide),
          exact_self, exact_ne (by decide), slotBy_nil, Option.or_none, kept_kept, orElse_none]
      have hinsecure : isInsecure (entryOf (.socks username password (some t)) tag host
          port).params = t.insecure := by
        rw [hparams, isInsecure_spelled, socksSlots]
        cases t.insecure <;> rfl
      rw [if_pos htruthy, minimalTls, hsni, hinsecure]
      rfl
  rw [rereadOutbound, ← htls, ← nonEmpty_getD, ← nonEmpty_getD]
  have hparts := congrArg (fun parts : Option (Text × Text) =>
    some (SingboxWriter.Outbound.socks (parts.bind fun p => nonEmpty p.1)
      (parts.bind fun p => nonEmpty p.2)
      (if paramTruthy (entryOf (.socks username password tls) tag host port) "tls" then
        some (minimalTls (entryOf (.socks username password tls) tag host port)) else none))) hsplit
  exact hparts

/-- What the writer reads from the parsed entry. -/
theorem outboundOf_entryOf {o : SingboxWriter.Outbound} (hread : WellRead o) :
    outboundOf yaml (entryOf o tag host port) = some (rereadOutbound yaml o) := by
  cases o with
  | vless uuid flow tls transport => exact outboundOf_vless uuid flow tls transport
  | vmess uuid cipher alterId tls transport =>
    exact outboundOf_vmess uuid cipher alterId tls transport hread
  | trojan password tls transport => exact outboundOf_trojan password tls transport
  | shadowsocks method password plugin => exact outboundOf_shadowsocks method password plugin hread
  | hysteria2 password tls obfs upMbps downMbps =>
    exact outboundOf_hysteria2 password tls obfs upMbps downMbps hread
  | socks username password tls => exact outboundOf_socks username password tls hread

end Outbounds

end SingboxRereading
