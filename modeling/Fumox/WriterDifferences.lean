import Fumox.WriterAgreement

/-!
When the mihomo and the sing-box writer decide alike, scheme by scheme.  Each writer reads TLS,
server name, alter id and transport by its own rules.
-/

namespace WriterDifferences

open RustText PercentText ProxyModels FormatParams JsonValue YamlValue SingboxWriter
open WriterAgreement

def known : List Text := ["ws", "httpupgrade", "grpc", "h2", "http"]

section Readers

variable (entry : ProxyEntry)

def toggle : Option Bool :=
  (paramValue entry "tls").bind tlsToggle

/-- What the sing-box writer takes for TLS when there is no toggle: `security` in lower case, a
server name, an insecure flag. -/
def Marked : Prop :=
  entry.param "security" = some ("tls" : Text) ∨ (sniOf entry).isSome = true ∨
    isInsecure entry.params = true

/-- REALITY and a truthy toggle are TLS to both writers.  Apart from these, `security=tls` is TLS
to the mihomo writer; to the sing-box writer a REALITY key is, the toggle `tls`, and a marked
entry without any toggle. -/
def VlessTlsAlike (yaml : SerdeNorway) : Prop :=
  securityIs entry "reality" = true ∨ paramTruthy entry "tls" = true ∨
    (securityIs entry "tls" = true ↔
      (realityPublicKey yaml entry).isSome = true ∨ toggle entry = some true ∨
        toggle entry = none ∧ Marked entry)

/-- The sing-box writer takes an `sni` under that very key as it stands; the mihomo writer decodes
it. `name` is what the mihomo writer sends. -/
def NameAlike (name : Option Text) : Prop :=
  match nonEmptyParam entry "sni" with
  | some raw => name = some raw
  | none => name = paramValue entry "servername"

def AlterIdAlike : Prop :=
  ∀ t, alterIdText entry = some t →
    (∀ n, parseI64 t = some n → 0 ≤ n) ∧ ∀ n, parseU64 t = some n → n < 2 ^ 63

/-- Both writers know the network.  Header obfuscation over TCP and any other network reach the
mihomo output only. -/
def TransportAlike (uriKey : Text) : Prop :=
  ∀ network, networkOf entry uriKey = some network →
    if network = [] ∨ network = "tcp" then ClashWriter.httpHeader entry = false
    else network ∈ known

def Alike (yaml : SerdeNorway) : Prop :=
  match entry.scheme with
  | .vless =>
    VlessTlsAlike entry yaml ∧
      (ClashWriter.vlessTls entry = true → NameAlike entry (ClashWriter.servername entry)) ∧
      (isInsecure entry.params = true → ClashWriter.vlessTls entry = true) ∧
      TransportAlike entry "type"
  | .vmess =>
    (vmessTls entry = true → NameAlike entry (ClashWriter.servername entry)) ∧
      (isInsecure entry.params = true → vmessTls entry = true) ∧
      AlterIdAlike entry ∧ TransportAlike entry "net"
  | .trojan => NameAlike entry (paramValue entry "sni") ∧ TransportAlike entry "type"
  | .ss => isInsecure entry.params = false
  | .hysteria2 => NameAlike entry (paramValue entry "sni")
  | .socks5 =>
    (paramTruthy entry "tls" = true → sniOf entry = none) ∧
      (isInsecure entry.params = true → paramTruthy entry "tls" = true)
  | .naive | .tuic | .mieru | .snell | .anyTls => True

end Readers

section Facts

variable {entry : ProxyEntry}

theorem toggle_of_truthy (h : paramTruthy entry "tls" = true) : toggle entry = some true := by
  obtain ⟨raw, hraw, htruthy⟩ := (Option.any_eq_true _ _).mp h
  have hword : toAsciiLowercase (trim raw) ∈ (["1", "true", "yes", "on"] : List Text) := by
    simpa [isTruthyToggle, or_assoc] using htruthy
  have hne : trim raw ≠ [] := by
    intro hnil
    rw [hnil] at hword
    exact absurd hword (by decide)
  have hplain : '%' ∉ trim raw := by
    intro hmem
    have hlower : '%' ∈ toAsciiLowercase (trim raw) := List.mem_map.mpr ⟨'%', hmem, rfl⟩
    have hwords : ∀ w ∈ (["1", "true", "yes", "on"] : List Text), '%' ∉ w := by decide
    exact hwords _ hword hlower
  have hon : toAsciiLowercase (trim raw) ∈ (["1", "true", "yes", "on", "tls"] : List Text) :=
    List.mem_append_left (["tls"] : List Text) hword
  rw [toggle, paramValue, hraw, Option.bind_some, if_neg hne, Option.bind_some,
    percentDecode_plain hplain, tlsToggle, trim_trim, if_pos hon]

theorem wantsTls_iff :
    wantsTls entry = true ↔ toggle entry = some true ∨ toggle entry = none ∧ Marked entry := by
  have hwants : wantsTls entry = (toggle entry).getD
      ((entry.param "security").getD [] == "tls" || (sniOf entry).isSome ||
        isInsecure entry.params) := by
    unfold wantsTls toggle
    cases (paramValue entry "tls").bind tlsToggle <;> rfl
  have hsecurity : ((entry.param "security").getD [] == ("tls" : Text)) = true ↔
      entry.param "security" = some ("tls" : Text) := by
    rw [beq_iff_eq]
    cases entry.param "security" with
    | none => exact ⟨fun h => absurd h (by decide), fun h => by cases h⟩
    | some v => exact Option.some_inj.symm
  rw [hwants]
  cases toggle entry with
  | some on => simp
  | none =>
    simp only [Option.getD_none, Bool.or_eq_true, hsecurity, or_assoc, reduceCtorEq, true_and,
      false_or, Marked]

theorem vlessTls_iff (yaml : SerdeNorway) :
    ClashWriter.vlessTls entry = (wantsReality yaml entry || wantsTls entry) ↔
      VlessTlsAlike entry yaml := by
  rw [Bool.eq_iff_iff, Bool.or_eq_true, wantsTls_iff, wantsReality, ClashWriter.vlessTls,
    VlessTlsAlike]
  have htruthy : paramTruthy entry "tls" = true → toggle entry = some true := toggle_of_truthy
  simp only [Bool.or_eq_true]
  grind

theorem name_iff (name : Option Text) : name = sniOf entry ↔ NameAlike entry name := by
  unfold NameAlike
  rw [sniOf]
  cases nonEmptyParam entry "sni" with
  | none => rfl
  | some raw => rfl

theorem parseUnsigned_lt {bound bound' : ℕ} (hle : bound ≤ bound') (t : Text) :
    parseUnsigned bound t = (parseUnsigned bound' t).filter (· < bound) := by
  unfold parseUnsigned
  dsimp only
  generalize (if t.head? = some '+' then t.tail else t) = digits
  by_cases hbad : digits = [] ∨ digits.any (fun c => !c.isDigit) = true
  · rw [if_pos hbad, if_pos hbad]
    rfl
  · rw [if_neg hbad, if_neg hbad]
    generalize Nat.ofDigitChars 10 digits 0 = n
    by_cases hlt : n < bound
    · rw [if_pos hlt, if_pos (lt_of_lt_of_le hlt hle), Option.filter_some, if_pos (decide_eq_true hlt)]
    · have hfilter : (some n).filter (· < bound) = none :=
        Option.filter_some_neg (decide_eq_false hlt)
      rw [if_neg hlt]
      by_cases hlt' : n < bound'
      · rw [if_pos hlt', hfilter]
      · rw [if_neg hlt']
        rfl

theorem parseI64_of_ne {t : Text} (h : t.head? ≠ some '-') :
    parseI64 t = ((parseU64 t).filter (· < 2 ^ 63)).map Int.ofNat := by
  rw [parseU64, ← parseUnsigned_lt (by omega)]
  unfold parseI64
  split
  · exact absurd rfl h
  · rfl

theorem parseU64_minus (digits : Text) : parseU64 ('-' :: digits) = none := rfl

theorem parseI64_minus {digits : Text} {n : ℤ}
    (h : parseI64 ('-' :: digits) = some n) : n ≤ 0 := by
  rw [parseI64] at h
  split at h
  · cases h
  · obtain ⟨m, -, rfl⟩ := Option.map_eq_some_iff.mp h
    exact Int.neg_nonpos_of_nonneg (Int.natCast_nonneg m)

theorem alterId_iff :
    asNumber (ClashWriter.num (((alterIdText entry).bind parseI64).getD 0)) =
        some (.posInt (((alterIdText entry).bind parseU64).getD 0)) ↔
      AlterIdAlike entry := by
  unfold AlterIdAlike
  cases alterIdText entry with
  | none => exact ⟨fun _ t h => (Option.some_ne_none t h.symm).elim, fun _ => rfl⟩
  | some t =>
    simp only [Option.bind_some, Option.some.injEq, forall_eq', ClashWriter.num, asNumber]
    by_cases hminus : t.head? = some '-'
    · obtain ⟨digits, rfl⟩ : ∃ digits, t = '-' :: digits := by
        cases t with
        | nil => cases hminus
        | cons c digits => exact ⟨digits, by rw [Option.some.inj hminus]⟩
      rw [parseU64_minus]
      cases hn0 : parseI64 ('-' :: digits) with
      | none => simp
      | some n =>
        by_cases hn : 0 ≤ n
        · have hneg := parseI64_minus hn0
          have hzero : n = 0 := by omega
          simp [hzero]
        · simp [hn]
    · rw [parseI64_of_ne hminus]
      cases parseU64 t with
      | none => simp
      | some n =>
        by_cases hn : n < 2 ^ 63
        · have hfits : (some n).filter (· < 2 ^ 63) = some n :=
            Option.filter_some_pos (decide_eq_true hn)
          rw [hfits]
          simp
          omega
        · have hbig : (some n).filter (· < 2 ^ 63) = none :=
            Option.filter_some_neg (decide_eq_false hn)
          rw [hbig]
          simp
          omega

def clashNetwork (httpHeader : Bool) (network : Text) : Option Text :=
  if network = [] ∨ network = "tcp" then (if httpHeader then some "http" else none)
  else if network = "ws" ∨ network = "httpupgrade" then
    some (if network == "httpupgrade" then "httpupgrade" else "ws")
  else if network = "grpc" then some "grpc"
  else if network = "h2" then some "http"
  else if network = "http" then some "http"
  else some network

def singNetwork (network : Text) : Option Text :=
  if network = "ws" then some "ws"
  else if network = "httpupgrade" then some "httpupgrade"
  else if network = "grpc" then some "grpc"
  else if network = "h2" ∨ network = "http" then some "http"
  else none

theorem clash_transport (yaml : SerdeNorway) (uriKey : Text) :
    (ClashWriter.transport yaml entry uriKey).map transportOf =
      (networkOf entry uriKey).bind (clashNetwork (ClashWriter.httpHeader entry)) := by
  unfold ClashWriter.transport clashNetwork
  cases networkOf entry uriKey with
  | none => rfl
  | some network =>
    rw [Option.bind_some, Option.bind_some]
    by_cases htcp : network = [] ∨ network = "tcp"
    · rw [if_pos htcp, if_pos htcp]
      split <;> rfl
    rw [if_neg htcp, if_neg htcp]
    by_cases hws : network = "ws" ∨ network = "httpupgrade"
    · rw [if_pos hws, if_pos hws]
      rfl
    rw [if_neg hws, if_neg hws]
    by_cases hgrpc : network = "grpc"
    · rw [if_pos hgrpc, if_pos hgrpc]
      rfl
    rw [if_neg hgrpc, if_neg hgrpc]
    by_cases hh2 : network = "h2"
    · rw [if_pos hh2, if_pos hh2]
      rfl
    rw [if_neg hh2, if_neg hh2]
    by_cases hhttp : network = "http"
    · rw [if_pos hhttp, if_pos hhttp]
      split <;> rfl
    rw [if_neg hhttp, if_neg hhttp]
    exact congrArg some (if_neg hh2)

theorem sing_transport (uriKey : Text) :
    (transportObject entry uriKey).map singTransportOf =
      (networkOf entry uriKey).bind singNetwork := by
  unfold transportObject singNetwork
  cases networkOf entry uriKey with
  | none => rfl
  | some network =>
    rw [Option.bind_some, Option.bind_some]
    split_ifs <;> rfl

theorem network_iff (httpHeader : Bool) (network : Text) :
    clashNetwork httpHeader network = singNetwork network ↔
      if network = [] ∨ network = "tcp" then httpHeader = false else network ∈ known := by
  by_cases htcp : network = [] ∨ network = "tcp"
  · rw [clashNetwork, if_pos htcp, if_pos htcp]
    have hsing : singNetwork network = none := by
      rcases htcp with rfl | rfl <;> rfl
    rw [hsing]
    cases httpHeader <;> decide
  · rw [if_neg htcp]
    by_cases hknown : network ∈ known
    · refine iff_of_true ?_ hknown
      simp only [known, List.mem_cons, List.not_mem_nil, or_false] at hknown
      rcases hknown with rfl | rfl | rfl | rfl | rfl <;> rfl
    · refine iff_of_false ?_ hknown
      simp only [known, List.mem_cons, List.not_mem_nil, or_false, not_or] at hknown
      obtain ⟨hws, hupgrade, hgrpc, hh2, hhttp⟩ := hknown
      rw [clashNetwork, if_neg htcp, if_neg (not_or.mpr ⟨hws, hupgrade⟩), if_neg hgrpc,
        if_neg hh2, if_neg hhttp, singNetwork, if_neg hws, if_neg hupgrade, if_neg hgrpc,
        if_neg (not_or.mpr ⟨hh2, hhttp⟩)]
      exact Option.some_ne_none network

theorem transport_iff (yaml : SerdeNorway) (uriKey : Text) :
    (ClashWriter.transport yaml entry uriKey).map transportOf =
        (transportObject entry uriKey).map singTransportOf ↔
      TransportAlike entry uriKey := by
  rw [clash_transport, sing_transport, TransportAlike]
  cases networkOf entry uriKey with
  | none => exact ⟨fun _ network h => (Option.some_ne_none network h.symm).elim, fun _ => rfl⟩
  | some network =>
    simp only [Option.bind_some, Option.some.injEq, forall_eq']
    exact network_iff _ network

end Facts

theorem stream_iff {entry : ProxyEntry} (yaml : SerdeNorway) (clashTls singTls reality : Bool)
    (name : Option Text) (cipher : Option Text) (alterId alterId' : Option Number)
    (transport transport' : Option Text) :
    (⟨(if clashTls then some name else none).isSome,
        (if clashTls then some name else none).bind id, isInsecure entry.params, cipher, alterId,
        transport⟩ : Description) =
      ⟨(if singTls then some (tlsObject yaml entry reality) else none).isSome,
        (if singTls then some (tlsObject yaml entry reality) else none).bind (·.serverName),
        (if singTls then some (tlsObject yaml entry reality) else none).any (·.insecure), cipher,
        alterId', transport'⟩ ↔
      clashTls = singTls ∧ (clashTls = true → NameAlike entry name) ∧
        (isInsecure entry.params = true → clashTls = true) ∧ alterId = alterId' ∧
        transport = transport' := by
  have hname : name = sniOf entry ↔ NameAlike entry name := name_iff name
  have hserver : (tlsObject yaml entry reality).serverName = sniOf entry := rfl
  have hinsecure : (tlsObject yaml entry reality).insecure = isInsecure entry.params := rfl
  rw [Description.mk.injEq]
  cases clashTls <;> cases singTls <;>
    simp [hserver, hinsecure, hname]

theorem both_some_iff {α β : Type} {R : α → β → Prop} {a : α} {b : β} :
    (∀ x y, some a = some x → some b = some y → R x y) ↔ R a b := by
  constructor
  · intro h
    exact h a b rfl rfl
  · rintro h _ _ ⟨⟩ ⟨⟩
    exact h

theorem writers_agree_iff (yaml : SerdeNorway) (entry : ProxyEntry) :
    WritersAgree yaml entry ↔ Alike entry yaml := by
  rw [writersAgree_iff, Alike, ClashWriter.proxyOf, outboundOf]
  cases entry.scheme with
  | vless =>
    refine both_some_iff.trans ((stream_iff yaml _ _ _ _ none none none _ _).trans ?_)
    rw [vlessTls_iff, transport_iff]
    tauto
  | vmess =>
    refine both_some_iff.trans ((stream_iff yaml _ _ _ _ (some _) _ (some _) _ _).trans ?_)
    rw [alterId_iff, transport_iff]
    tauto
  | trojan =>
    refine both_some_iff.trans ((stream_iff yaml true true _ _ none none none _ _).trans ?_)
    rw [transport_iff]
    tauto
  | ss =>
    rw [both_some_iff]
    simp only [clashOf, singboxOf, tlsDescription, Description.mk.injEq]
    simp
  | hysteria2 =>
    refine both_some_iff.trans ((stream_iff yaml true true false _ none none none none none).trans ?_)
    tauto
  | socks5 =>
    rw [both_some_iff]
    simp only [clashOf, singboxOf, tlsDescription, Description.mk.injEq]
    have hname : (none : Option Text) = sniOf entry ↔ sniOf entry = none :=
      eq_comm
    cases paramTruthy entry "tls" <;> simp [minimalTls, hname]
  | naive => simp
  | tuic => simp
  | mieru => simp
  | snell => simp
  | anyTls => simp

def shoutedTls : ProxyEntry where
  scheme := .vless
  name := "h.example.com"
  host := "h.example.com"
  port := 443
  credential := "uuid-1"
  params := [⟨"security", "TLS", true⟩]
  rawPath := []
  rawLine := "vless://uuid-1@h.example.com:443?security=TLS"

/-- The mihomo output has TLS, the sing-box output has none. -/
theorem shouted_tls_splits_writers : ¬WritersAgree ⟨fun _ => none, fun _ => none⟩ shoutedTls := by
  intro h
  have hagree := (writersAgree_iff _ _).mp h _ _ rfl rfl
  have htls := congrArg Description.tls hagree
  exact absurd htls (by decide)

end WriterDifferences
