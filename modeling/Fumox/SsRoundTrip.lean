import Fumox.LineRoundTrip

/-!
Round trip of shadowsocks lines.  Both input forms are read into one kind of server, and the SIP002
line that the writer prints for it splits again at the same points.
-/

namespace SsRoundTrip

open RustText PercentText DelimitedText ProxyModels PayloadGuards UriGrammar UriRoundTrip Base64Text
  LineParser UriLines LineRoundTrip
open SsLine hiding parse serialize

section Decoding

variable {base64 : Base64}

theorem utf8_length_of_inAlphabet {c : Char} (h : InAlphabet c) :
    (String.utf8EncodeChar c).length = 1 := by
  have hascii : c.val ≤ 127 := by
    rw [UInt32.le_iff_toNat_le]
    rcases h with h | rfl | rfl
    · simp only [Char.isAlphanum, Char.isAlpha, Char.isUpper, Char.isLower, Char.isDigit,
        Bool.or_eq_true, Bool.and_eq_true, decide_eq_true_eq, UInt32.le_iff_toNat_le,
        ge_iff_le] at h
      rcases h with (h | h) | h <;> exact h.2.trans (by decide)
    · decide
    · decide
  rw [String.length_utf8EncodeChar, Char.utf8Size]
  exact if_pos hascii

theorem inAlphabet_visible {c : Char} (h : InAlphabet c) : isWhitespace c = false := by
  have hrange : 43 ≤ c.toNat ∧ c.toNat ≤ 122 := by
    rcases h with h | rfl | rfl
    · simp only [Char.isAlphanum, Char.isAlpha, Char.isUpper, Char.isLower, Char.isDigit,
        Bool.or_eq_true, Bool.and_eq_true, decide_eq_true_eq, UInt32.le_iff_toNat_le,
        ge_iff_le] at h
      have hval : c.val.toNat = c.toNat := rfl
      rcases h with (h | h) | h
      · change 65 ≤ c.val.toNat ∧ c.val.toNat ≤ 90 at h
        omega
      · change 97 ≤ c.val.toNat ∧ c.val.toNat ≤ 122 at h
        omega
      · change 48 ≤ c.val.toNat ∧ c.val.toNat ≤ 57 at h
        omega
    · decide
    · decide
  simp only [isWhitespace]
  grind

theorem bytes_length_of_inAlphabet {t : Text} (h : ∀ c ∈ t, InAlphabet c) :
    (bytes t).length = t.length := by
  induction t with
  | nil => rfl
  | cons c t ih =>
    rw [bytes_cons, List.length_append, utf8_length_of_inAlphabet (h c List.mem_cons_self),
      ih fun d hd => h d (List.mem_cons_of_mem c hd), List.length_cons]
    omega

theorem normalizeAlphabet_eq_self {t : Text} (h : ∀ c ∈ t, InAlphabet c) :
    normalizeAlphabet t = t := by
  refine (List.map_congr_left fun c hc => ?_).trans (List.map_id' t)
  have hdash : c ≠ '-' := fun heq => absurd (h c hc) (by rw [heq]; simp [InAlphabet])
  have hscore : c ≠ '_' := fun heq => absurd (h c hc) (by rw [heq]; simp [InAlphabet])
  rw [if_neg hdash, if_neg hscore]

theorem decodeB64Lenient_encode (hbase64 : base64.RoundTrips) {bs : List UInt8} (hne : bs ≠ []) :
    decodeB64Lenient base64 (base64.encode bs) = some bs := by
  have halphabet := hbase64.alphabet bs
  unfold decodeB64Lenient
  rw [if_neg (hbase64.nonempty bs hne)]
  dsimp only
  rw [normalizeAlphabet_eq_self halphabet, bytes_length_of_inAlphabet halphabet,
    if_neg (hbase64.length bs), hbase64.decode bs]

theorem decodeText_encode (hbase64 : base64.RoundTrips) {t : Text} (hne : t ≠ []) :
    decodeText base64 (base64.encode (bytes t)) = .ok t := by
  have hbytes : bytes t ≠ [] := fun hempty => hne (bytes_injective hempty)
  rw [decodeText, decodeB64Lenient_encode hbase64 hbytes, bind_eq_ok]
  exact ⟨bytes t, rfl, by rw [fromUtf8_bytes, Option.elim_some]⟩

end Decoding

section Server

variable {base64 : Base64} {beforeQuery : Text} {server : SsServer}

structure AcceptedServer (server : SsServer) : Prop where
  method : ':' ∈ server.credential
  oneLine : hasLineBreak server.credential = false
  host : server.host ≠ []
  path : ∀ c t, server.rawPath = c :: t → c = '/'
  pathPlain : '#' ∉ server.rawPath ∧ '?' ∉ server.rawPath ∧ '@' ∉ server.rawPath

theorem parseSip002_eq_ok (hhash : '#' ∉ beforeQuery) (hmark : '?' ∉ beforeQuery)
    (h : parseSip002 base64 beforeQuery = .ok server) : AcceptedServer server := by
  unfold parseSip002 at h
  obtain ⟨⟨userinfo, hostportPath⟩, hsplit, h⟩ := bind_eq_ok.mp h
  obtain ⟨credential, -, h⟩ := bind_eq_ok.mp h
  obtain ⟨_, hmethod, h⟩ := bind_eq_ok.mp h
  obtain ⟨_, hclean, h⟩ := bind_eq_ok.mp h
  rcases hp : splitPath hostportPath with ⟨hostport, rawPath⟩
  simp only [hp] at h
  obtain ⟨⟨host, port⟩, hhost, h⟩ := bind_eq_ok.mp h
  obtain rfl := Except.ok.inj h
  obtain ⟨rfl, hnot⟩ := rsplitOnce_eq_some (elim_eq_ok.mp hsplit)
  obtain ⟨rfl, -, hpath⟩ := splitPath_spec hp
  simp only [List.mem_append, List.mem_cons, not_or] at hhash hmark hnot
  have hread := mapError_eq_ok.mp hhost
  exact ⟨ensure_eq_ok.mp hmethod, rejectLineBreaks_eq_ok.mp hclean, (parseHostport_eq_ok hread).1,
    hpath, hhash.2.2.2, hmark.2.2.2, hnot.2⟩

theorem parseLegacy_eq_ok (h : parseLegacy base64 beforeQuery = .ok server) : AcceptedServer server := by
  unfold parseLegacy at h
  obtain ⟨decoded, -, h⟩ := bind_eq_ok.mp h
  obtain ⟨⟨credential, hostport⟩, -, h⟩ := bind_eq_ok.mp h
  obtain ⟨_, hmethod, h⟩ := bind_eq_ok.mp h
  obtain ⟨_, hclean, h⟩ := bind_eq_ok.mp h
  obtain ⟨⟨host, port⟩, hhost, h⟩ := bind_eq_ok.mp h
  obtain ⟨_, -, h⟩ := bind_eq_ok.mp h
  obtain rfl := Except.ok.inj h
  have hread := mapError_eq_ok.mp hhost
  exact ⟨ensure_eq_ok.mp hmethod, rejectLineBreaks_eq_ok.mp hclean, (parseHostport_eq_ok hread).1,
    by simp, by simp⟩

theorem parseServer_eq_ok (hhash : '#' ∉ beforeQuery) (hmark : '?' ∉ beforeQuery)
    (h : parseServer base64 beforeQuery = .ok server) : AcceptedServer server := by
  unfold parseServer at h
  split_ifs at h
  · exact parseSip002_eq_ok hhash hmark h
  · exact parseLegacy_eq_ok h

theorem parseServer_printAuthority (hbase64 : base64.RoundTrips) {credential host rawPath : Text}
    (hmethod : ':' ∈ credential) (hclean : hasLineBreak credential = false)
    (hprint : Printable (some (base64.encode (bytes credential))) host rawPath) (port : UInt16) :
    parseServer base64
      (printAuthority (some (base64.encode (bytes credential))) host port rawPath) =
        .ok ⟨credential, host, port, rawPath⟩ := by
  set blob := base64.encode (bytes credential) with hblob
  have hat : '@' ∈ printAuthority (some blob) host port rawPath := by
    simp [printAuthority, userinfoText]
  have hsplit : rsplitOnce '@' (printAuthority (some blob) host port rawPath) =
      some (blob, hostForUri host ++ ':' :: decimal port.toNat ++ rawPath) := by
    rw [printAuthority, userinfoText, List.append_assoc, List.singleton_append]
    exact rsplitOnce_append
      (List.not_mem_append (hostport_delimits hprint (by simp [Delimits])) hprint.pathPlain.2.2)
  have htext : decodeText base64 blob = .ok credential :=
    decodeText_encode hbase64 (List.ne_nil_of_mem hmethod)
  unfold parseServer parseSip002
  rw [if_pos hat, hsplit]
  simp only [Option.elim_some, bind_eq_ok]
  refine ⟨_, rfl, credential, htext, (), ensure_eq_ok.mpr hmethod, (),
    rejectLineBreaks_eq_ok.mpr hclean, ?_⟩
  simp only [splitPath_printAuthority hprint.ends hprint.hostPlain,
    parseHostport_print hprint.safeHost]
  exact ⟨(host, port), rfl, rfl⟩

end Server

section RoundTrip

variable {codecs : Codecs} {line : Text} {entry : ProxyEntry}

theorem ss_parse_eq_ok {base64 : Base64} {rest rawLine : Text}
    (h : SsLine.parse base64 rest rawLine = .ok entry) :
    ∃ server name queryPairs, AcceptedServer server ∧ WithinCaps queryPairs ∧ entry =
      { scheme := .ss, name, host := server.host, port := server.port,
        credential := server.credential, params := markKnown queryPairs [],
        rawPath := server.rawPath, rawLine } := by
  unfold SsLine.parse at h
  rcases hf : splitFragment rest with ⟨beforeFrag, fragment⟩
  rcases hq : splitQuery beforeFrag with ⟨beforeQuery, query⟩
  simp only [hf, hq] at h
  obtain ⟨server, hserver, h⟩ := bind_eq_ok.mp h
  obtain ⟨queryPairs, hpairs, h⟩ := bind_eq_ok.mp h
  obtain rfl := Except.ok.inj h
  obtain ⟨hhash, -⟩ := splitOptional_spec hf
  obtain ⟨hmark, hsub⟩ := splitOptional_spec hq
  exact ⟨server, _, queryPairs, parseServer_eq_ok (fun hc => hhash (hsub _ hc)) hmark hserver,
    queryPairs_caps (mapError_eq_ok.mp hpairs), rfl⟩

/-- The parts of an accepted entry that its SIP002 line gives back.  Only a legacy blob or a
bracketed literal can hold a host that the printed line splits elsewhere. -/
structure Resplittable (entry : ProxyEntry) : Prop where
  unbracketed : entry.host.head? ≠ some '['
  bracketable : ':' ∈ entry.host → ']' ∉ entry.host
  plain : ∀ c ∈ entry.host, ¬Delimits c
  caps : ∀ p ∈ entry.params, (bytes (exportText p.key true)).length ≤ maxParamBytes ∧
    (bytes (exportText p.value false)).length ≤ maxParamBytes
  tail : entry.name = [] → KeepsTail entry.params

theorem printable_server {server : SsServer} (hserver : AcceptedServer server)
    (hhead : server.host.head? ≠ some '[') (hbracket : ':' ∈ server.host → ']' ∉ server.host)
    (hplain : ∀ c ∈ server.host, ¬Delimits c) {blob : Text} (hne : blob ≠ [])
    (hblob : ∀ c ∈ blob, InAlphabet c) :
    Printable (some blob) (stripLineBreaks server.host) (stripLineBreaks server.rawPath) := by
  have hforeign : ∀ c, ¬InAlphabet c → c ∉ blob := fun c hc hmem => hc (hblob c hmem)
  have hparts : Accepted ⟨some blob, server.host, server.port, server.rawPath, [], none⟩ := by
    refine ⟨fun u hu => ?_, hserver.host, hplain, hserver.path, hserver.pathPlain, withinCaps_nil⟩
    obtain rfl := Option.some.inj hu
    exact ⟨hforeign '#' (by simp [InAlphabet]), hforeign '?' (by simp [InAlphabet])⟩
  have hclean : hasLineBreak blob = false := by
    refine List.any_eq_false.mpr fun c hc hbreak => ?_
    rcases (by simpa using hbreak : c = '\n' ∨ c = '\r') with rfl | rfl
    · exact hforeign '\n' (by simp [InAlphabet]) hc
    · exact hforeign '\r' (by simp [InAlphabet]) hc
  have hprint := printable_sanitized hparts hhead hbracket
  rwa [Option.getD_some, stripLineBreaks_eq_self hclean, exportedUserinfo, if_neg hne] at hprint

/-- A shadowsocks line that was accepted, in either form, is accepted again from its serialization,
with its credential as it was. -/
theorem ss_round_trip (hbase64 : codecs.base64.RoundTrips)
    (hparse : parseLine codecs line = .parsed entry) (hss : entry.scheme = .ss)
    (h : Resplittable entry) (hlen : (bytes (serialize codecs entry)).length ≤ maxLineBytes) :
    ∃ entry', parseLine codecs (serialize codecs entry) = .parsed entry' ∧
      SameReading entry entry' ∧ entry'.credential = entry.credential := by
  obtain ⟨scheme, rest, hraw, hscheme⟩ := parseLine_eq_parsed hparse
  obtain ⟨server, name, queryPairs, hserver, hpairs, hentry⟩ :=
    ss_parse_eq_ok (parseScheme_eq_parsed_ss hscheme hss)
  set blob := codecs.base64.encode (bytes server.credential) with hblob
  set params := markKnown queryPairs [] with hparams
  have hcredential : stripLineBreaks server.credential = server.credential :=
    stripLineBreaks_eq_self hserver.oneLine
  have hline : serialize codecs entry = "ss" ++ ("://" ++ printUri (some blob)
      (stripLineBreaks server.host) server.port (stripLineBreaks server.rawPath)
        (exportedQuery (params.map sanitizeParam)) (exportedFragment name)) := by
    have hcanonical : canonicalForm codecs.yaml entry = entry :=
      canonicalForm_of_rawLine (by rw [hentry]; exact hraw)
    dsimp only [serialize]
    rw [hcanonical, hentry]
    unfold SsLine.serialize
    simp [sanitizeForOutput, SsLine.exportedCredential, hcredential, hserver.method,
      serializeEndpoint, printUri, userinfoText, ← hblob]
  have hprint : Printable (some blob) (stripLineBreaks server.host)
      (stripLineBreaks server.rawPath) := by
    have hne : bytes server.credential ≠ [] := fun hempty =>
      List.ne_nil_of_mem hserver.method (bytes_injective hempty)
    subst hentry
    exact printable_server hserver h.unbracketed h.bracketable h.plain (hbase64.nonempty _ hne)
      (hbase64.alphabet _)
  have hcaps : WithinCaps ((params.map sanitizeParam).map encodedParam) := by
    have hsize := h.caps
    rw [hentry] at hsize
    refine ⟨by simpa [hparams, markKnown] using hpairs.count, ?_, ?_⟩ <;>
      simp only [List.map_map, List.forall_mem_map]
    · exact fun p hp => (hsize p hp).1
    · exact fun p hp => (hsize p hp).2
  have htail : name = [] → KeepsTail (params.map sanitizeParam) := by
    intro hname
    subst hentry
    exact (h.tail hname).sanitize
  obtain ⟨path, hprint', htrim⟩ := exists_trimmed_printUri hprint server.port htail
  rw [hline] at hlen ⊢
  rw [parseLine_scheme (by decide) (by decide) (by decide) hlen, htrim]
  have hread := parseServer_printAuthority hbase64 hserver.method hserver.oneLine hprint' server.port
  rw [← hblob] at hread
  have hknown : markKnown ((params.map sanitizeParam).map encodedParam) [] =
      params.map exportedParam := markKnown_exported (by simp) queryPairs
  have hparsed : ∀ rawLine, SsLine.parse codecs.base64 (printUri (some blob)
      (stripLineBreaks server.host) server.port path (exportedQuery (params.map sanitizeParam))
        (exportedFragment name)) rawLine =
      .ok { scheme := .ss, name, host := stripLineBreaks server.host, port := server.port,
            credential := server.credential, params := params.map exportedParam, rawPath := path,
            rawLine } := by
    intro rawLine
    unfold SsLine.parse
    simp only [splitFragment_printUri hprint'.ends hprint'.hostPlain fun q => exportedQuery_hash,
      splitQuery_printAuthority hprint'.ends hprint'.hostPlain, hread,
      parseQuery_exportedQuery hcaps]
    rw [bind_eq_ok]
    refine ⟨_, rfl, ?_⟩
    simp only [Except.mapError, exportedFragment_read, ← hknown]
    rfl
  refine ⟨_, parsed_eq.mpr (hparsed _), ?_, ?_⟩
  · rw [hentry]
    exact ⟨rfl, rfl, rfl, hcredential.symm, rfl, rfl⟩
  · rw [hentry]

/-- A legacy line in the URL-safe alphabet, without padding. -/
def legacyLine : Text :=
  "ss://YTpwQD8-fsO_QFsyMDAxOmRiODo6MV06ODQ0Mw?a=&b=c#n%20m"

def legacyEntry : ProxyEntry where
  scheme := .ss
  name := "n m"
  host := "2001:db8::1"
  port := 8443
  credential := "a:p@?>~ÿ"
  params := [⟨"a", [], false⟩, ⟨"b", "c", false⟩]
  rawPath := []
  rawLine := legacyLine

theorem ss_round_trip_sample :
    ∃ entry', parseLine sampleCodecs (serialize sampleCodecs legacyEntry) = .parsed entry' ∧
      SameReading legacyEntry entry' ∧ entry'.credential = legacyEntry.credential :=
  ss_round_trip standard_roundTrips
    (show parseLine sampleCodecs legacyLine = .parsed legacyEntry by decide +kernel) rfl
    ⟨by decide, by decide, by simp [legacyEntry, Delimits], by decide +kernel,
      fun h => absurd h (by decide)⟩ (by decide +kernel)

/-- The foreign parameters of a line come back as a query spells them. -/
theorem foreign_parameter_is_encoded :
    ¬∀ codecs : Codecs, codecs.base64.RoundTrips → ∀ line entry,
      parseLine codecs line = .parsed entry → entry.scheme = .ss →
        (bytes (serialize codecs entry)).length ≤ maxLineBytes →
          ∃ entry', parseLine codecs (serialize codecs entry) = .parsed entry' ∧
            entry'.host = entry.host ∧ entry'.port = entry.port ∧
              entry'.credential = entry.credential ∧ entry'.name = entry.name ∧
                entry'.params = entry.params := by
  intro h
  have hread : ∀ entry', parseLine sampleCodecs "ss://YTpi@h:443?path=a%20b" = .parsed entry' →
      entry'.params = [⟨"path", "a%20b", false⟩] := by
    intro entry' hentry
    have hline : parseLine sampleCodecs "ss://YTpi@h:443?path=a%20b" = .parsed
        ⟨.ss, [], "h", 443, "a:b", [⟨"path", "a%20b", false⟩], [], "ss://YTpi@h:443?path=a%20b"⟩ := by
      decide +kernel
    obtain rfl := LineOutcome.parsed.inj (hentry.symm.trans hline)
    rfl
  obtain ⟨entry', hentry, -, -, -, -, hparams⟩ := h sampleCodecs standard_roundTrips
    "ss://YTpi@h:443?path=a b"
    ⟨.ss, [], "h", 443, "a:b", [⟨"path", "a b", false⟩], [], "ss://YTpi@h:443?path=a b"⟩
    (by decide +kernel) rfl (by decide +kernel)
  rw [hread entry' hentry] at hparams
  exact absurd hparams (by decide)

end RoundTrip

end SsRoundTrip
