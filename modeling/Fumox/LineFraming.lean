import Fumox.LineRoundTrip

/-!
Line framing of the URI list: no serialized entry carries a line break, whatever its fields hold,
so the joined list has one line for each entry.
-/

namespace LineFraming

open RustText PercentText DelimitedText ProxyModels UriGrammar PayloadGuards Base64Text LineParser
  UriRoundTrip UriLines

/-- Canonical lines, joined by newlines. -/
def uriLines (codecs : Codecs) (entries : List ProxyEntry) : Text :=
  ['\n'].intercalate (entries.map (serialize codecs))

def IsBreak (c : Char) : Prop :=
  c = '\n' ∨ c = '\r'

instance (c : Char) : Decidable (IsBreak c) :=
  inferInstanceAs (Decidable (_ ∨ _))

def Unbroken (t : Text) : Prop :=
  ∀ c ∈ t, ¬IsBreak c

theorem unbroken_nil : Unbroken [] := by
  intro c hc
  cases hc

theorem unbroken_cons {c : Char} {t : Text} : Unbroken (c :: t) ↔ ¬IsBreak c ∧ Unbroken t :=
  List.forall_mem_cons

theorem unbroken_append {s t : Text} : Unbroken (s ++ t) ↔ Unbroken s ∧ Unbroken t :=
  List.forall_mem_append

theorem unbroken_drop {t : Text} (h : Unbroken t) (n : ℕ) : Unbroken (t.drop n) :=
  fun c hc => h c (List.mem_of_mem_drop hc)

theorem unbroken_of_all {t : Text} (h : t.all (fun c => c != '\n' && c != '\r') = true) :
    Unbroken t := by
  intro c hc
  have := List.all_eq_true.mp h c hc
  simpa [IsBreak] using this

theorem unbroken_stripLineBreaks (t : Text) : Unbroken (stripLineBreaks t) := by
  intro c hc
  obtain ⟨d, -, rfl⟩ := List.mem_map.mp hc
  split
  next => decide
  next hd => exact hd

theorem unbroken_decimal (n : ℕ) : Unbroken (decimal n) := by
  intro c hc hbreak
  have hdigit := isDigit_of_mem_decimal hc
  rcases hbreak with rfl | rfl
  · exact absurd hdigit (by decide)
  · exact absurd hdigit (by decide)

theorem unbroken_base64 {codecs : Codecs}
    (halphabet : ∀ bs, ∀ c ∈ codecs.base64.encode bs, InAlphabet c) (bs : List UInt8) :
    Unbroken (codecs.base64.encode bs) := by
  intro c hc hbreak
  have hin := halphabet bs c hc
  rcases hbreak with rfl | rfl
  · exact absurd hin (by simp [InAlphabet])
  · exact absurd hin (by simp [InAlphabet])

theorem mustEncode_break {c : Char} (h : IsBreak c) (inKey : Bool) : mustEncode c inKey = true := by
  rcases h with rfl | rfl <;> cases inKey <;> decide

/-- Line breaks are control characters, which the query never carries. -/
theorem unbroken_encodeQueryChars (raw : Text) (inKey : Bool) :
    Unbroken (encodeQueryChars raw inKey) := by
  intro c hc hbreak
  exact not_mem_encodeQueryChars (mustEncode_break hbreak inKey) hc

theorem unbroken_serializePair (p : Param) : Unbroken (serializePair p) := by
  unfold serializePair
  split
  · exact unbroken_nil
  · apply unbroken_append.mpr
    refine ⟨unbroken_encodeQueryChars p.key true, unbroken_cons.mpr ⟨by decide, ?_⟩⟩
    exact unbroken_encodeQueryChars p.value false

theorem unbroken_serializeQuery (params : List Param) : Unbroken (serializeQuery params) := by
  intro c hc
  rcases mem_intercalate hc with hc | ⟨piece, hpiece, hc⟩
  · rw [List.mem_singleton.mp hc]
    decide
  · obtain ⟨p, -, rfl⟩ := List.mem_map.mp hpiece
    exact unbroken_serializePair p c hc

theorem unbroken_encodeFragment (name : Text) : Unbroken (encodeFragment name) := by
  intro c hc hbreak
  have hplain := (encodeFragment_ascii c hc).1
  rcases hbreak with rfl | rfl
  · exact absurd hplain (by decide)
  · exact absurd hplain (by decide)

section Fields

variable {entry : ProxyEntry}

/-- What the sanitizer leaves of an entry: the name is the only field that may hold a break. -/
structure CleanFields (entry : ProxyEntry) : Prop where
  host : Unbroken entry.host
  credential : Unbroken entry.credential
  rawPath : Unbroken entry.rawPath
  params : ∀ p ∈ entry.params, Unbroken p.key ∧ Unbroken p.value

theorem clean_sanitizeForOutput (entry : ProxyEntry) : CleanFields (sanitizeForOutput entry) where
  host := unbroken_stripLineBreaks entry.host
  credential := unbroken_stripLineBreaks entry.credential
  rawPath := unbroken_stripLineBreaks entry.rawPath
  params p hp := by
    obtain ⟨q, -, rfl⟩ := List.mem_map.mp hp
    exact ⟨unbroken_stripLineBreaks q.key, unbroken_stripLineBreaks q.value⟩

theorem unbroken_hostForUri {host : Text} (h : Unbroken host) : Unbroken (hostForUri host) := by
  intro c hc
  rcases mem_hostForUri hc with hc | rfl | rfl
  · exact h c hc
  · decide
  · decide

theorem unbroken_queryText (params : List Param) : Unbroken (queryText (exportedQuery params)) := by
  unfold exportedQuery
  split
  · exact unbroken_nil
  · exact unbroken_cons.mpr ⟨by decide, unbroken_serializeQuery params⟩

theorem unbroken_fragmentText (name : Text) :
    Unbroken (fragmentText (exportedFragment name)) := by
  unfold exportedFragment
  split
  · exact unbroken_nil
  · exact unbroken_cons.mpr ⟨by decide, unbroken_encodeFragment name⟩

theorem unbroken_serializeEndpoint (h : CleanFields entry) :
    Unbroken (serializeEndpoint entry) := by
  unfold serializeEndpoint
  simp only [unbroken_append, unbroken_cons]
  refine ⟨unbroken_hostForUri h.host, by decide, ⟨⟨?_, h.rawPath⟩, ?_⟩, ?_⟩
  · exact unbroken_decimal entry.port.toNat
  · exact unbroken_queryText entry.params
  · exact unbroken_fragmentText entry.name

theorem unbroken_serializeWithSpec {spec : UriSchemeSpec} (hstem : Unbroken spec.uriPrefix)
    (h : CleanFields entry) : Unbroken (serializeWithSpec spec entry) := by
  have huserinfo : Unbroken (if entry.credential = [] then [] else entry.credential ++ ['@']) := by
    split
    · exact unbroken_nil
    · exact unbroken_append.mpr ⟨h.credential, unbroken_cons.mpr ⟨by decide, unbroken_nil⟩⟩
  simp only [serializeWithSpec, unbroken_append]
  exact ⟨⟨hstem, huserinfo⟩, unbroken_serializeEndpoint h⟩

/-- The transport is a parameter value, so it was sanitized with the others. -/
theorem unbroken_transport (h : CleanFields entry) :
    Unbroken ((entry.param transportKey).getD "https") := by
  cases htransport : entry.param transportKey with
  | none => exact unbroken_of_all (by decide)
  | some transport =>
    obtain ⟨p, hp, rfl⟩ := Option.map_eq_some_iff.mp htransport
    exact (h.params p (List.mem_of_find?_eq_some hp)).2

theorem unbroken_uriPrefix {s : Scheme} {spec : UriSchemeSpec} (h : uriSpec s = some spec) :
    Unbroken spec.uriPrefix := by
  cases s <;> simp only [uriSpec, Option.some.injEq, reduceCtorEq] at h <;> subst h <;>
    exact unbroken_of_all (by decide)

theorem unbroken_naivePrefix : Unbroken naiveSpec.uriPrefix :=
  unbroken_of_all (by decide)

theorem unbroken_serializeNaive (h : CleanFields entry) : Unbroken (serializeNaive entry) := by
  have hstripped : CleanFields
      { entry with params := entry.params.filter fun p => p.key ≠ transportKey } :=
    { h with params := fun p hp => h.params p (List.mem_of_mem_filter hp) }
  have hscheme : Unbroken ("naive+" : Text) := unbroken_of_all (by decide)
  have hseparator : Unbroken ("://" : Text) := unbroken_of_all (by decide)
  have hgeneric := unbroken_serializeWithSpec unbroken_naivePrefix hstripped
  unfold serializeNaive
  apply unbroken_append.mpr
  refine ⟨?_, unbroken_drop hgeneric _⟩
  apply unbroken_append.mpr
  refine ⟨?_, hseparator⟩
  exact unbroken_append.mpr ⟨hscheme, unbroken_transport h⟩

end Fields

theorem serialize_cases (codecs : Codecs) (entry : ProxyEntry) :
    let clean := sanitizeForOutput (canonicalForm codecs.yaml entry)
    (∃ s spec, uriSpec s = some spec ∧ serialize codecs entry = serializeWithSpec spec clean) ∨
      serialize codecs entry = serializeNaive clean ∨
      serialize codecs entry = SsLine.serialize codecs.base64 clean ∨
      serialize codecs entry = VmessLine.serialize codecs.base64 codecs.json clean := by
  intro clean
  cases hscheme : clean.scheme with
  | naive => exact .inr (.inl (by simp only [serialize, clean, hscheme]))
  | ss => exact .inr (.inr (.inl (by simp only [serialize, clean, hscheme])))
  | vmess => exact .inr (.inr (.inr (by simp only [serialize, clean, hscheme])))
  | vless => exact .inl ⟨.vless, _, rfl, by simp only [serialize, clean, hscheme]⟩
  | trojan => exact .inl ⟨.trojan, _, rfl, by simp only [serialize, clean, hscheme]⟩
  | hysteria2 => exact .inl ⟨.hysteria2, _, rfl, by simp only [serialize, clean, hscheme]⟩
  | tuic => exact .inl ⟨.tuic, _, rfl, by simp only [serialize, clean, hscheme]⟩
  | mieru => exact .inl ⟨.mieru, _, rfl, by simp only [serialize, clean, hscheme]⟩
  | socks5 => exact .inl ⟨.socks5, _, rfl, by simp only [serialize, clean, hscheme]⟩
  | snell => exact .inl ⟨.snell, _, rfl, by simp only [serialize, clean, hscheme]⟩
  | anyTls => exact .inl ⟨.anyTls, _, rfl, by simp only [serialize, clean, hscheme]⟩

theorem serialize_ne_nil (codecs : Codecs) (entry : ProxyEntry) : serialize codecs entry ≠ [] := by
  have happend : ∀ {s t : Text}, s ≠ [] → s ++ t ≠ [] := fun h => List.append_ne_nil_of_left_ne_nil h _
  rcases serialize_cases codecs entry with ⟨s, spec, hspec, heq⟩ | heq | heq | heq
  · rw [heq, serializeWithSpec, (uriSpec_scheme hspec).2]
    simp
  · have hscheme : ("naive+" : Text) ≠ [] := by decide
    rw [heq]
    exact happend (happend (happend hscheme))
  · rw [heq]
    unfold SsLine.serialize
    simp
  · have hscheme : ("vmess://" : Text) ≠ [] := by decide
    rw [heq]
    exact happend hscheme

section Codec

variable {codecs : Codecs} (halphabet : ∀ bs, ∀ c ∈ codecs.base64.encode bs, InAlphabet c)

include halphabet

theorem unbroken_serializeSs {entry : ProxyEntry} (h : CleanFields entry) :
    Unbroken (SsLine.serialize codecs.base64 entry) := by
  have hstem : Unbroken ("ss://" : Text) := unbroken_of_all (by decide)
  have hcredential := unbroken_base64 halphabet (bytes (SsLine.exportedCredential entry.credential))
  have hendpoint := unbroken_serializeEndpoint h
  unfold SsLine.serialize
  apply unbroken_append.mpr
  exact ⟨unbroken_append.mpr ⟨hstem, hcredential⟩, unbroken_cons.mpr ⟨by decide, hendpoint⟩⟩

theorem unbroken_serializeVmess (entry : ProxyEntry) :
    Unbroken (VmessLine.serialize codecs.base64 codecs.json entry) := by
  have hstem : Unbroken ("vmess://" : Text) := unbroken_of_all (by decide)
  unfold VmessLine.serialize
  apply unbroken_append.mpr
  exact ⟨hstem, unbroken_base64 halphabet _⟩

theorem unbroken_serialize (entry : ProxyEntry) : Unbroken (serialize codecs entry) := by
  have hclean := clean_sanitizeForOutput (canonicalForm codecs.yaml entry)
  rcases serialize_cases codecs entry with ⟨s, spec, hspec, heq⟩ | heq | heq | heq
  · rw [heq]
    exact unbroken_serializeWithSpec (unbroken_uriPrefix hspec) hclean
  · rw [heq]
    exact unbroken_serializeNaive hclean
  · rw [heq]
    exact unbroken_serializeSs halphabet hclean
  · rw [heq]
    exact unbroken_serializeVmess halphabet _

end Codec

theorem stripCarriageReturn_eq_self {line : Text} (h : Unbroken line) :
    stripCarriageReturn line = line := by
  have hlast : line.getLast? ≠ some '\r' := by
    intro hlast
    exact h '\r' (List.mem_of_getLast? hlast) (.inr rfl)
  rw [stripCarriageReturn, if_neg hlast]

/-- Joining lines and splitting the text again are inverse. -/
theorem lines_intercalate {ls : List Text} (h : ∀ line ∈ ls, Unbroken line ∧ line ≠ []) :
    lines (['\n'].intercalate ls) = ls := by
  rcases eq_or_ne ls [] with rfl | hne
  · rfl
  have hsep : ∀ line ∈ ls, '\n' ∉ line := fun line hline hc => (h line hline).1 '\n' hc (.inl rfl)
  have hstrip : ls.dropLast.map stripCarriageReturn = ls.dropLast := by
    rw [List.map_congr_left fun line hline =>
      stripCarriageReturn_eq_self (h line (List.dropLast_subset _ hline)).1, List.map_id']
  obtain ⟨first, last, rfl⟩ := List.eq_nil_or_concat ls |>.resolve_left hne
  obtain ⟨c, rest, hlast⟩ := List.exists_cons_of_ne_nil (h last (by simp)).2
  rw [lines, List.splitOn_intercalate '\n' hsep hne]
  simp only [hstrip]
  simp [hlast]

/-- Every serialized entry is one nonempty line, so a list of entries reads back line by line. -/
theorem line_framing (codecs : Codecs)
    (halphabet : ∀ bs, ∀ c ∈ codecs.base64.encode bs, InAlphabet c) :
    (∀ entry, '\n' ∉ serialize codecs entry ∧ '\r' ∉ serialize codecs entry) ∧
      ∀ entries, lines (uriLines codecs entries) = entries.map (serialize codecs) ∧
        ∀ line ∈ lines (uriLines codecs entries), line ≠ [] := by
  have hframed : ∀ entries, ∀ line ∈ List.map (serialize codecs) entries,
      Unbroken line ∧ line ≠ [] := by
    intro entries line hline
    obtain ⟨entry, -, rfl⟩ := List.mem_map.mp hline
    exact ⟨unbroken_serialize halphabet entry, serialize_ne_nil codecs entry⟩
  refine ⟨fun entry => ⟨?_, ?_⟩, fun entries => ?_⟩
  · exact fun hc => unbroken_serialize halphabet entry '\n' hc (.inl rfl)
  · exact fun hc => unbroken_serialize halphabet entry '\r' hc (.inr rfl)
  · have hread := lines_intercalate (hframed entries)
    rw [← uriLines] at hread
    rw [hread]
    exact ⟨rfl, fun line hline => (hframed entries line hline).2⟩

/-- Every field of the entry holds a line break. -/
def brokenEntry : ProxyEntry where
  scheme := .naive
  name := "n\nm"
  host := "h\r\nvless"
  port := 443
  credential := "u\np"
  params := [⟨transportKey, "quic\n", true⟩, ⟨"a\rb", "\n", false⟩]
  rawPath := "/\n"
  rawLine := "\n"

theorem line_framing_sample :
    lines (uriLines LineRoundTrip.sampleCodecs [brokenEntry, brokenEntry]) =
      [brokenEntry, brokenEntry].map (serialize LineRoundTrip.sampleCodecs) :=
  ((line_framing LineRoundTrip.sampleCodecs encode_alphabet).2 [brokenEntry, brokenEntry]).1

end LineFraming
