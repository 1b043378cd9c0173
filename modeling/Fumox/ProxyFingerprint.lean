import Mathlib
import Fumox.DelimitedText
import Fumox.ProxyModels

/-!
The deduplication key of a proxy.  The pre-image is one concatenated text over fields a feed
controls; escaping makes it determine every field.  The digest is a parameter, and the results that
read a fingerprint backwards assume that it has no collisions.
-/

namespace ProxyFingerprint

open RustText ProxyModels DelimitedText

def securityParams : List Text :=
  ["security", "tls", "type", "net", "headertype", "mode", "path", "host", "authority", "alpn",
    "version", "pbk", "publickey", "sid", "shortid", "fp", "utls", "sni", "flow", "pinsha256",
    "encryption", "scy", "obfs", "obfs-host", "obfs-password", "congestion_control", "aid",
    "packetencoding", "insecure", "allowinsecure", "skip-cert-verify", "allow_insecure",
    "servicename", "ports", "udp_relay_mode", "disable_sni", "ws-headers", "ws-opts",
    "reality-opts"]

def canonicalKey (scheme : Scheme) (key : Text) : Text :=
  if key = "servername" then "sni"
  else if key = "network" then (if scheme = .vmess then "net" else "type")
  else if key = "ws-path" then "path"
  else if key = "client-fingerprint" then "fp"
  else if key = "grpc-service-name" then "servicename"
  else if key = "fingerprint" then "pinsha256"
  else if key = "cipher" ∧ scheme = .vmess then "scy"
  else if key = "alterid" ∧ scheme = .vmess then "aid"
  else key

def normalizeHost (host : Text) : Text :=
  trimEndMatches '.' (toAsciiLowercase host)

/-- One canonical flag for every spelling of the certificate toggle; a falsy one is absent. -/
def normalizeInsecureAlias (key value : Text) : Option (Text × Text) :=
  if insecureAliases.contains key then
    if isTruthyToggle value then some ("insecure", "1") else none
  else some (key, value)

def securityPair (scheme : Scheme) (param : Param) : Option (Text × Text) :=
  let key := canonicalKey scheme (toAsciiLowercase param.key)
  if securityParams.contains key then normalizeInsecureAlias key param.value else none

def securityPairs (entry : ProxyEntry) : List (Text × Text) :=
  entry.params.filterMap (securityPair entry.scheme)

def sortPairs (pairs : List (Text × Text)) : List (Text × Text) :=
  pairs.insertionSort fun a b => toLex a ≤ toLex b

def escapeByte (b : UInt8) : Text :=
  if b = 0x25 then "%25"
  else if b = 0x26 then "%26"
  else if b = 0x3D then "%3D"
  else if b = 0x7C then "%7C"
  else if 0x21 ≤ b ∧ b ≤ 0x7E then [Char.ofNat b.toNat]
  else '%' :: upperHex b

def escape (value : Text) : Text :=
  (bytes value).flatMap escapeByte

def renderPair (pair : Text × Text) : Text :=
  escape pair.1 ++ '=' :: escape pair.2

def canonicalSecurityParams (entry : ProxyEntry) : Text :=
  ['&'].intercalate ((sortPairs (securityPairs entry)).map renderPair)

def preImage (entry : ProxyEntry) : Text :=
  entry.scheme.asStr ++ '|' :: (escape (normalizeHost entry.host) ++
    '|' :: (decimal entry.port.toNat ++ '|' :: (escape entry.credential ++
      '|' :: canonicalSecurityParams entry)))

def toHex (digest : List UInt8) : Text :=
  digest.flatMap lowerHex

section Escaping

def readEscaped : Text → Option (UInt8 × Text)
  | '%' :: hi :: lo :: rest => (hexByte hi lo).map fun b => (b, rest)
  | c :: rest => some (UInt8.ofNat c.toNat, rest)
  | [] => none

theorem escapeByte_cases (b : UInt8) :
    (∃ c, c ≠ '%' ∧ UInt8.ofNat c.toNat = b ∧ escapeByte b = [c]) ∨
    (∃ hi lo, hexByte hi lo = some b ∧ escapeByte b = ['%', hi, lo]) := by
  have hplain : ∀ b : UInt8, 0x21 ≤ b → b ≤ 0x7E → b ≠ 0x25 →
      Char.ofNat b.toNat ≠ '%' ∧ UInt8.ofNat (Char.ofNat b.toNat).toNat = b :=
    forall_byte (by decide +kernel)
  unfold escapeByte
  split_ifs with h25 h26 h3d h7c hprint
  · exact .inr ⟨'2', '5', by subst h25; decide, rfl⟩
  · exact .inr ⟨'2', '6', by subst h26; decide, rfl⟩
  · exact .inr ⟨'3', 'D', by subst h3d; decide, rfl⟩
  · exact .inr ⟨'7', 'C', by subst h7c; decide, rfl⟩
  · obtain ⟨hne, heq⟩ := hplain b hprint.1 hprint.2 h25
    exact .inl ⟨_, hne, heq, rfl⟩
  · obtain ⟨hi, lo, hhex, hb⟩ := hexByte_upperHex b
    exact .inr ⟨hi, lo, hb, by rw [hhex]⟩

theorem reads_escapeByte : Reads escapeByte readEscaped := by
  intro b rest
  rcases escapeByte_cases b with ⟨c, hc, hb, hcode⟩ | ⟨hi, lo, hb, hcode⟩
  · rw [hcode, List.singleton_append, readEscaped, hb]
    rintro hi lo r h -
    exact hc h
  · simp [hcode, readEscaped, hb]

theorem escape_injective : Function.Injective escape :=
  (flatMap_injective reads_escapeByte rfl).comp bytes_injective

theorem separator_not_mem_escape {c : Char} (hc : c ∈ ['|', '&', '=']) (t : Text) :
    c ∉ escape t := by
  have hbyte : ∀ b : UInt8, ∀ c ∈ ['|', '&', '='], c ∉ escapeByte b :=
    forall_byte (by decide +kernel)
  simp only [escape, List.mem_flatMap, not_exists, not_and]
  exact fun b _ => hbyte b c hc

theorem renderPair_injective : Function.Injective renderPair := by
  rintro ⟨k, v⟩ ⟨k', v'⟩ h
  obtain ⟨hk, hv⟩ := field_injective (separator_not_mem_escape (by decide) k)
    (separator_not_mem_escape (by decide) k') h
  exact Prod.ext (escape_injective hk) (escape_injective hv)

theorem renderPair_joinable (pair : Text × Text) :
    '&' ∉ renderPair pair ∧ renderPair pair ≠ [] := by
  have hk := separator_not_mem_escape (c := '&') (by decide) pair.1
  have hv := separator_not_mem_escape (c := '&') (by decide) pair.2
  simp [renderPair, hk, hv]

/-- Takes one byte off the front of a hexadecimal text. -/
def readHex : Text → Option (UInt8 × Text)
  | hi :: lo :: rest => (hexByte hi lo).map fun b => (b, rest)
  | _ => none

theorem toHex_injective : Function.Injective toHex := by
  have hreads : Reads lowerHex readHex := by
    intro b rest
    obtain ⟨hi, lo, hhex, hb⟩ := hexByte_lowerHex b
    simp [hhex, hb, readHex]
  exact flatMap_injective hreads rfl

end Escaping

section Sorting

theorem sortPairs_perm (pairs : List (Text × Text)) : (sortPairs pairs).Perm pairs :=
  List.perm_insertionSort _ _

theorem sortPairs_eq_iff {p q : List (Text × Text)} : sortPairs p = sortPairs q ↔ p.Perm q := by
  constructor
  · intro h
    exact (sortPairs_perm p).symm.trans (h ▸ sortPairs_perm q)
  · intro h
    refine List.Perm.eq_of_pairwise ?_ (List.pairwise_insertionSort _ p)
      (List.pairwise_insertionSort _ q)
      (((sortPairs_perm p).trans h).trans (sortPairs_perm q).symm)
    intro a b _ _ hab hba
    exact toLex.injective (le_antisymm hab hba)

theorem canonicalSecurityParams_eq_iff {a b : ProxyEntry} :
    canonicalSecurityParams a = canonicalSecurityParams b ↔
      (securityPairs a).Perm (securityPairs b) := by
  constructor
  · intro h
    have hjoin : ∀ pairs : List (Text × Text), ∀ s ∈ pairs.map renderPair, '&' ∉ s ∧ s ≠ [] := by
      rintro pairs s hs
      obtain ⟨pair, -, rfl⟩ := List.mem_map.mp hs
      exact renderPair_joinable pair
    have hmap := intercalate_injective (hjoin _) (hjoin _) h
    exact sortPairs_eq_iff.mp (List.map_injective_iff.mpr renderPair_injective hmap)
  · intro h
    rw [canonicalSecurityParams, sortPairs_eq_iff.mpr h, canonicalSecurityParams]

end Sorting

/-- The fields that identify a proxy: everything that the fingerprint is meant to tell apart. -/
structure SameIdentity (a b : ProxyEntry) : Prop where
  scheme : a.scheme = b.scheme
  host : normalizeHost a.host = normalizeHost b.host
  port : a.port = b.port
  credential : a.credential = b.credential
  security : (securityPairs a).Perm (securityPairs b)

theorem preImage_eq_iff {a b : ProxyEntry} : preImage a = preImage b ↔ SameIdentity a b := by
  have hscheme : ∀ s : Scheme, '|' ∉ s.asStr := by
    rintro s h
    exact absurd (s.asStr_alphanumeric _ h) (by decide)
  have hport : ∀ n, '|' ∉ decimal n := fun n h => absurd (isDigit_of_mem_decimal h) (by decide)
  have hfield : ∀ t, '|' ∉ escape t := separator_not_mem_escape (by decide)
  constructor
  · intro h
    obtain ⟨hs, h⟩ := field_injective (hscheme _) (hscheme _) h
    obtain ⟨hh, h⟩ := field_injective (hfield _) (hfield _) h
    obtain ⟨hp, h⟩ := field_injective (hport _) (hport _) h
    obtain ⟨hc, h⟩ := field_injective (hfield _) (hfield _) h
    exact ⟨Scheme.asStr_injective hs, escape_injective hh,
      UInt16.toNat_inj.mp (decimal_injective hp), escape_injective hc,
      canonicalSecurityParams_eq_iff.mp h⟩
  · rintro ⟨hs, hh, hp, hc, hsec⟩
    rw [preImage, hs, hh, hp, hc, canonicalSecurityParams_eq_iff.mpr hsec, preImage]

variable (sha256 : List UInt8 → List UInt8)

def fingerprint (entry : ProxyEntry) : Text :=
  toHex (sha256 (bytes (preImage entry)))

variable {sha256}

theorem SameIdentity.fingerprint_eq {a b : ProxyEntry} (h : SameIdentity a b) :
    fingerprint sha256 a = fingerprint sha256 b := by
  rw [fingerprint, preImage_eq_iff.mpr h, fingerprint]

theorem SameIdentity.of_fingerprint (hsha : Function.Injective sha256) {a b : ProxyEntry}
    (h : fingerprint sha256 a = fingerprint sha256 b) : SameIdentity a b :=
  preImage_eq_iff.mp (bytes_injective (hsha (toHex_injective h)))

/-- Without collisions of the digest, two entries share a fingerprint exactly when they agree on
every identifying field. -/
theorem fingerprint_eq_iff (hsha : Function.Injective sha256) (a b : ProxyEntry) :
    fingerprint sha256 a = fingerprint sha256 b ↔
      a.scheme = b.scheme ∧ normalizeHost a.host = normalizeHost b.host ∧ a.port = b.port ∧
        a.credential = b.credential ∧ (securityPairs a).Perm (securityPairs b) := by
  constructor
  · intro h
    obtain ⟨hs, hh, hp, hc, hsec⟩ := SameIdentity.of_fingerprint hsha h
    exact ⟨hs, hh, hp, hc, hsec⟩
  · rintro ⟨hs, hh, hp, hc, hsec⟩
    exact SameIdentity.fingerprint_eq ⟨hs, hh, hp, hc, hsec⟩

section Witness

/-- A digest known on one message, and free of collisions elsewhere. -/
def tabulatedDigest (message digest : List UInt8) (m : List UInt8) : List UInt8 :=
  if m = message then digest else 0 :: m

theorem tabulatedDigest_injective {message digest : List UInt8} (h : digest.head? ≠ some 0) :
    Function.Injective (tabulatedDigest message digest) := by
  intro m n heq
  unfold tabulatedDigest at heq
  split_ifs at heq with hm hn hn
  · rw [hm, hn]
  · simp [heq] at h
  · simp [← heq] at h
  · exact (List.cons_eq_cons.mp heq).2

/-- A digest known on the messages of a table, and free of collisions elsewhere. -/
def tableDigest (table : List (List UInt8 × List UInt8)) (m : List UInt8) : List UInt8 :=
  (table.lookup m).getD (0 :: m)

theorem tableDigest_injective {table : List (List UInt8 × List UInt8)}
    (hdistinct : ∀ r ∈ table, ∀ s ∈ table, r.2 = s.2 → r.1 = s.1)
    (hhead : ∀ r ∈ table, r.2.head? ≠ some 0) : Function.Injective (tableDigest table) := by
  have hmem : ∀ {m d}, table.lookup m = some d → (m, d) ∈ table := by
    intro m d h
    obtain ⟨l, r, rfl, -⟩ := List.lookup_eq_some_iff.mp h
    simp
  intro m n heq
  unfold tableDigest at heq
  cases hm : table.lookup m with
  | none =>
    cases hn : table.lookup n with
    | none =>
      rw [hm, hn] at heq
      exact (List.cons.inj heq).2
    | some d =>
      rw [hm, hn] at heq
      have hd : d = 0 :: m := heq.symm
      refine absurd ?_ (hhead _ (hmem hn))
      rw [hd]
      rfl
  | some d =>
    cases hn : table.lookup n with
    | none =>
      rw [hm, hn] at heq
      have hd : d = 0 :: n := heq
      refine absurd ?_ (hhead _ (hmem hm))
      rw [hd]
      rfl
    | some e =>
      rw [hm, hn] at heq
      exact hdistinct _ (hmem hm) _ (hmem hn) heq

def sampleEntry (name host : Text) (params : List Param) : ProxyEntry where
  scheme := .vless
  name := name
  host := host
  port := 443
  credential := "u"
  params := params
  rawPath := []
  rawLine := []

/-- The SHA-256 digest of the message `vless|example.com|443|u|sni=a`. -/
def sampleDigest : List UInt8 → List UInt8 :=
  tabulatedDigest (bytes "vless|example.com|443|u|sni=a")
    [111, 174, 61, 208, 109, 57, 56, 41, 26, 171, 23, 39, 148, 193, 33, 231,
      198, 185, 105, 109, 113, 222, 103, 181, 213, 24, 249, 41, 45, 2, 155, 174]

theorem sampleDigest_injective : Function.Injective sampleDigest :=
  tabulatedDigest_injective (by decide)

/-- Two spellings of one server: the name differs, and so do the letter case and the trailing dot
of the host and the dialect of the parameter key. -/
theorem fingerprint_eq_iff_sample :
    let a := sampleEntry "first" "Example.COM." [⟨"servername", "a", true⟩]
    let b := sampleEntry "second" "example.com" [⟨"SNI", "a", false⟩]
    (fingerprint sampleDigest a = fingerprint sampleDigest b ↔
      a.scheme = b.scheme ∧ normalizeHost a.host = normalizeHost b.host ∧ a.port = b.port ∧
        a.credential = b.credential ∧ (securityPairs a).Perm (securityPairs b)) ∧
      preImage a = "vless|example.com|443|u|sni=a" :=
  ⟨fingerprint_eq_iff sampleDigest_injective _ _, by decide⟩

end Witness

end ProxyFingerprint
