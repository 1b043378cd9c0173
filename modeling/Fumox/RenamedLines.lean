import Fumox.PipelineSteps
import Fumox.StructuredExport
import Fumox.WellFormedEntries

/-!
Rename rules and the lines of what they rename: the guard of a rewritten host admits only hosts that
a printed line gives back, so a run of rules never changes how the rest of the line is split.
-/

namespace RenamedLines

open RustText PercentText DelimitedText ProxyModels PayloadGuards UriGrammar UriRoundTrip
  LineParser UriLines LineRoundTrip SsRoundTrip StructuredExport Base64Text JsonValue AddressText
  PipelineConfig PipelineSteps

structure PrintsHost (host : Text) : Prop extends PlainHost host where
  unbroken : hasLineBreak host = false

theorem PrintsHost.stripped {host : Text} (h : PrintsHost host) : stripLineBreaks host = host :=
  stripLineBreaks_eq_self h.unbroken

theorem isAddressChar_plain {c : Char} (h : isAddressChar c = true) :
    ¬Delimits c ∧ c ≠ '[' ∧ c ≠ ']' ∧ c ≠ '\n' ∧ c ≠ '\r' := by
  refine ⟨?_, ?_, ?_, ?_, ?_⟩
  · rintro (rfl | rfl | rfl | rfl) <;> exact absurd h (by decide)
  all_goals
    rintro rfl
    exact absurd h (by decide)

theorem unbroken_of_forall {t : Text} (h : ∀ c ∈ t, c ≠ '\n' ∧ c ≠ '\r') :
    hasLineBreak t = false := by
  refine List.any_eq_false.mpr fun c hc => ?_
  simpa using h c hc

theorem readIpv6_chars {host : Text} {segments : List ℕ} (h : readIpv6 host = some (segments, [])) :
    ∀ c ∈ host, isAddressChar c = true := by
  obtain ⟨used, heq, hused⟩ := readIpv6_consumes _ _ _ h
  rw [List.append_nil] at heq
  rwa [heq]

theorem readIpv6_ne_nil {host : Text} {segments : List ℕ} (h : readIpv6 host = some (segments, [])) :
    host ≠ [] := by
  rintro rfl
  have hnone : readIpv6 [] = none := by decide
  rw [hnone] at h
  cases h

theorem printsHost_of_valid {host : Text} (h : validRewrittenHost host = true) :
    PrintsHost host := by
  unfold validRewrittenHost at h
  split at h
  next segments hipv6 =>
    have hchar : ∀ c ∈ host, _ := fun c hc => isAddressChar_plain (readIpv6_chars hipv6 c hc)
    exact
      { safe :=
          { nonempty := readIpv6_ne_nil hipv6
            unbracketed := fun hhead => (hchar '[' (List.mem_of_head? hhead)).2.1 rfl
            bracketable := fun _ hmem => (hchar ']' hmem).2.2.1 rfl }
        plain := fun c hc => (hchar c hc).1
        unbroken := unbroken_of_forall fun c hc => (hchar c hc).2.2.2 }
  next =>
    simp only [Bool.and_eq_true, decide_eq_true_eq, Bool.not_eq_true', List.any_eq_false,
      Bool.or_eq_true, not_or] at h
    obtain ⟨hne, hall⟩ := h
    have hchar : ∀ c ∈ host, ∀ d, (['/', '?', '#', '@', '[', ']', ':', '%'].contains d ||
        isWhitespace d) = true → c ≠ d := by
      rintro c hc d hd rfl
      rcases Bool.or_eq_true _ _ ▸ hd with hd | hd
      · exact (hall c hc).1 hd
      · exact (hall c hc).2 hd
    exact
      { safe :=
          { nonempty := hne
            unbracketed := fun hhead => hchar _ (List.mem_of_head? hhead) '[' (by decide) rfl
            bracketable := fun _ hmem => hchar _ hmem ']' (by decide) rfl }
        plain := by
          rintro c hc (rfl | rfl | rfl | rfl) <;> exact hchar _ hc _ (by decide) rfl
        unbroken := unbroken_of_forall fun c hc =>
          ⟨hchar c hc '\n' (by decide), hchar c hc '\r' (by decide)⟩ }

section Line

variable {userinfo query fragment : Option Text} {host rawPath : Text} {port : UInt16}

theorem exists_trimmed (h : PlainEnds userinfo rawPath) (host : Text) (port : UInt16)
    (params : List Param) (name : Text) :
    ∃ path, PlainEnds userinfo path ∧
      trimEnd (printUri userinfo host port rawPath (exportedQuery params)
        (exportedFragment name)) =
        printUri userinfo host port path (tidyQuery params name) (exportedFragment name) := by
  refine ⟨_, ?_, trimEnd_printUri h.path fun f => exportedFragment_visible⟩
  split_ifs
  · exact h.trimPath
  · exact h

theorem plain_stripLineBreaks (h : ∀ c ∈ host, ¬Delimits c) :
    ∀ c ∈ stripLineBreaks host, ¬Delimits c := by
  intro c hc hdelim
  have hspace : c ≠ ' ' := by rcases hdelim with rfl | rfl | rfl | rfl <;> decide
  exact h c (mem_stripLineBreaks hspace hc) hdelim

theorem printsHost_of_read (hplain : ∀ c ∈ host, ¬Delimits c) {port' : UInt16}
    (h : parseHostport (hostForUri (stripLineBreaks host) ++ ':' :: decimal port.toNat) =
      .ok (host, port')) : PrintsHost host := by
  have hsafe := safeHost_of_parseHostport h stripLineBreaks_eq_nil.mp
    (mem_stripLineBreaks (by decide))
  have hsame : stripLineBreaks host = host := by
    have hread := (parseHostport_print hsafe port).symm.trans h
    exact congrArg Prod.fst (Except.ok.inj hread)
  rw [hsame] at hsafe
  refine ⟨⟨hsafe, hplain⟩, ?_⟩
  rw [← hsame]
  exact hasLineBreak_stripLineBreaks host

end Line

section Generic

variable {spec : UriSchemeSpec} {x entry : ProxyEntry} {rawLine : Text}

theorem printsHost_of_parse (h : PlainEnds (exportedUserinfo x.credential) x.rawPath)
    (hok : parseWithSpec spec (trimEnd (printEntry x)) rawLine = .ok entry)
    (hhost : x.host = stripLineBreaks entry.host) :
    PrintsHost entry.host ∧ (spec.credentialRequired = true → x.credential ≠ []) := by
  obtain ⟨path, hends, htrim⟩ := exists_trimmed h x.host x.port x.params x.name
  rw [printEntry, htrim] at hok
  obtain ⟨parts, hsplit, hrequired, rfl⟩ := parseWithSpec_eq_ok.mp hok
  have hplain : ∀ c ∈ parts.host, ¬Delimits c := (splitUri_eq_ok hsplit).hostPlain
  have hprinted : x.host = stripLineBreaks parts.host := hhost
  rw [hprinted] at hsplit
  rw [splitUri_printUri hends (plain_stripLineBreaks hplain) fun q => tidyQuery_hash] at hsplit
  obtain ⟨⟨host, port⟩, hread, hsplit⟩ := bind_eq_ok.mp hsplit
  obtain ⟨queryPairs, -, hsplit⟩ := bind_eq_ok.mp hsplit
  obtain rfl := Except.ok.inj hsplit
  refine ⟨printsHost_of_read hplain hread, fun hreq hempty => hrequired hreq ?_⟩
  exact if_pos hempty

theorem reread (h : PlainEnds (exportedUserinfo x.credential) x.rawPath) (hhost : PlainHost x.host)
    (hrequired : spec.credentialRequired = true → x.credential ≠ [])
    (hcaps : WithinCaps (x.params.map encodedParam)) (rawLine : Text) :
    ∃ entry, parseWithSpec spec (trimEnd (printEntry x)) rawLine = .ok entry ∧
      entry.scheme = spec.scheme ∧ entry.host = x.host ∧ entry.port = x.port ∧
        entry.name = x.name := by
  obtain ⟨path, hends, htrim⟩ := exists_trimmed h x.host x.port x.params x.name
  rw [printEntry, htrim]
  have huser : spec.credentialRequired = true → exportedUserinfo x.credential ≠ none := by
    intro hreq
    rw [exportedUserinfo, if_neg (hrequired hreq)]
    simp
  refine ⟨_, parseWithSpec_printUri (hends.printable hhost.safe hhost.plain)
    (fun q => tidyQuery_hash) huser rawLine
    (parseQuery_tidyQuery x.name hcaps), rfl, rfl, rfl, exportedFragment_read x.name⟩

end Generic

section Shadowsocks

variable {base64 : Base64} {blob credential host rawPath name beforeQuery rawLine : Text}
  {fragment : Option Text} {port : UInt16} {params : List Param} {entry : ProxyEntry}

theorem splitOptional_prefix {c : Char} {a : Text} (h : c ∉ a) (t : Text) :
    ∃ rest, (splitOptional c (a ++ t)).1 = a ++ rest := by
  unfold splitOptional
  split
  next before after hsplit =>
    obtain ⟨heq, hnot⟩ := splitOnce_eq_some hsplit
    rcases List.append_eq_append_iff.mp heq with ⟨x, hbefore, -⟩ | ⟨x, ha, hrest⟩
    · exact ⟨x, hbefore⟩
    · cases x with
      | nil => exact ⟨[], by rw [ha, List.append_nil, List.append_nil]⟩
      | cons d x =>
        obtain ⟨rfl, -⟩ := List.cons_eq_cons.mp hrest
        exact absurd (ha ▸ List.mem_append_right _ List.mem_cons_self) h
  next => exact ⟨t, rfl⟩

theorem sip002_plain {server : SsLine.SsServer} (hhash : '#' ∉ beforeQuery)
    (hmark : '?' ∉ beforeQuery) (h : SsLine.parseSip002 base64 beforeQuery = .ok server) :
    ∀ c ∈ server.host, ¬Delimits c := by
  unfold SsLine.parseSip002 at h
  obtain ⟨⟨userinfo, hostportPath⟩, hsplit, h⟩ := bind_eq_ok.mp h
  obtain ⟨credential, -, h⟩ := bind_eq_ok.mp h
  obtain ⟨_, -, h⟩ := bind_eq_ok.mp h
  obtain ⟨_, -, h⟩ := bind_eq_ok.mp h
  rcases hp : splitPath hostportPath with ⟨hostport, rawPath⟩
  simp only [hp] at h
  obtain ⟨⟨host, port⟩, hhost, h⟩ := bind_eq_ok.mp h
  obtain rfl := Except.ok.inj h
  obtain ⟨rfl, hnot⟩ := rsplitOnce_eq_some (elim_eq_ok.mp hsplit)
  obtain ⟨rfl, hslash, -⟩ := splitPath_spec hp
  simp only [List.mem_append, List.mem_cons, not_or] at hhash hmark hnot
  obtain ⟨-, portStr, hsplit', -⟩ := parseHostport_eq_ok (mapError_eq_ok.mp hhost)
  have hsub := (splitHostport_eq_ok hsplit').1
  rintro c hc (rfl | rfl | rfl | rfl)
  · exact hhash.2.2.1 (hsub _ hc)
  · exact hmark.2.2.1 (hsub _ hc)
  · exact hnot.1 (hsub _ hc)
  · exact hslash (hsub _ hc)

/-- An `@` in front of every query and fragment leaves only the SIP002 form. -/
theorem ss_plain (hblob : '#' ∉ blob ∧ '?' ∉ blob) {t : Text}
    (h : SsLine.parse base64 (blob ++ '@' :: t) rawLine = .ok entry) :
    ∀ c ∈ entry.host, ¬Delimits c := by
  have hassoc : blob ++ '@' :: t = (blob ++ ['@']) ++ t := by simp
  obtain ⟨r₁, hr₁⟩ := splitOptional_prefix (c := '#') (a := blob ++ ['@']) (by simp [hblob.1]) t
  obtain ⟨r₂, hr₂⟩ := splitOptional_prefix (c := '?') (a := blob ++ ['@']) (by simp [hblob.2]) r₁
  unfold SsLine.parse at h
  rcases hf : splitFragment (blob ++ '@' :: t) with ⟨beforeFrag, fragment⟩
  rcases hq : splitQuery beforeFrag with ⟨beforeQuery, query⟩
  simp only [hf, hq] at h
  obtain ⟨server, hserver, h⟩ := bind_eq_ok.mp h
  obtain ⟨queryPairs, -, h⟩ := bind_eq_ok.mp h
  obtain rfl := Except.ok.inj h
  obtain ⟨hhash, -⟩ := splitOptional_spec hf
  obtain ⟨hmark, hsub⟩ := splitOptional_spec hq
  have hfrag : beforeFrag = blob ++ ['@'] ++ r₁ := by
    rw [← hr₁, ← hassoc]
    exact (congrArg Prod.fst hf).symm
  have hquery : beforeQuery = blob ++ ['@'] ++ r₂ := by
    rw [← hr₂, ← hfrag]
    exact (congrArg Prod.fst hq).symm
  have hat : '@' ∈ beforeQuery := by simp [hquery]
  rw [SsLine.parseServer, if_pos hat] at hserver
  exact sip002_plain (fun hc => hhash (hsub _ hc)) hmark hserver

theorem ss_printsHost (h : PlainEnds (some blob) rawPath)
    (hok : SsLine.parse base64 (printUri (some blob) host port rawPath (tidyQuery params name)
      fragment) rawLine = .ok entry)
    (hhost : host = stripLineBreaks entry.host) : PrintsHost entry.host := by
  have hplain : ∀ c ∈ entry.host, ¬Delimits c := by
    have hat : printUri (some blob) host port rawPath (tidyQuery params name) fragment =
        blob ++ '@' :: (hostForUri host ++ ':' :: decimal port.toNat ++ rawPath ++
          queryText (tidyQuery params name) ++ fragmentText fragment) := by
      simp [printUri, userinfoText]
    exact ss_plain (h.userinfo blob rfl) (hat ▸ hok)
  have hstrip := plain_stripLineBreaks hplain
  rw [← hhost] at hstrip
  unfold SsLine.parse at hok
  simp only [splitFragment_printUri h hstrip fun q => tidyQuery_hash,
    splitQuery_printAuthority h hstrip] at hok
  obtain ⟨server, hserver, hok⟩ := bind_eq_ok.mp hok
  obtain ⟨queryPairs, -, hok⟩ := bind_eq_ok.mp hok
  obtain rfl := Except.ok.inj hok
  have hat : '@' ∈ printAuthority (some blob) host port rawPath := by
    simp [printAuthority, userinfoText]
  have hsplit : rsplitOnce '@' (printAuthority (some blob) host port rawPath) =
      some (blob, hostForUri host ++ ':' :: decimal port.toNat ++ rawPath) := by
    rw [printAuthority, userinfoText, List.append_assoc, List.singleton_append]
    exact rsplitOnce_append
      (List.not_mem_append (hostport_plain hstrip _ (by simp [Delimits])) h.pathPlain.2.2)
  rw [SsLine.parseServer, if_pos hat, SsLine.parseSip002, hsplit] at hserver
  obtain ⟨_, hsome, hserver⟩ := bind_eq_ok.mp hserver
  obtain rfl := Except.ok.inj hsome
  obtain ⟨credential, -, hserver⟩ := bind_eq_ok.mp hserver
  obtain ⟨_, -, hserver⟩ := bind_eq_ok.mp hserver
  obtain ⟨_, -, hserver⟩ := bind_eq_ok.mp hserver
  simp only [splitPath_printAuthority h hstrip] at hserver
  obtain ⟨⟨host', port'⟩, hread, hserver⟩ := bind_eq_ok.mp hserver
  obtain rfl := Except.ok.inj hserver
  have hprinted : host = stripLineBreaks host' := hhost
  rw [hprinted] at hread
  exact printsHost_of_read hplain (mapError_eq_ok.mp hread)

theorem ss_reread (hbase64 : base64.RoundTrips) (hmethod : ':' ∈ credential)
    (hclean : hasLineBreak credential = false)
    (h : PlainEnds (some (base64.encode (bytes credential))) rawPath) (hhost : PlainHost host)
    (hcaps : WithinCaps (params.map encodedParam)) (rawLine : Text) :
    ∃ entry, SsLine.parse base64 (printUri (some (base64.encode (bytes credential))) host port
        rawPath (tidyQuery params name) (exportedFragment name)) rawLine = .ok entry ∧
      entry.scheme = .ss ∧ entry.host = host ∧ entry.port = port ∧ entry.name = name := by
  have hserver := parseServer_printAuthority hbase64 hmethod hclean
    (h.printable hhost.safe hhost.plain) port
  unfold SsLine.parse
  simp only [splitFragment_printUri h hhost.plain fun q => tidyQuery_hash,
    splitQuery_printAuthority h hhost.plain, hserver, parseQuery_tidyQuery name hcaps]
  exact ⟨_, bind_eq_ok.mpr ⟨_, rfl, rfl⟩, rfl, rfl, rfl, exportedFragment_read name⟩

end Shadowsocks

section Lines

variable {codecs : Codecs} {entry : ProxyEntry} {spec : UriSchemeSpec}

/-- The entry that the serializers print. -/
def emitted (codecs : Codecs) (entry : ProxyEntry) : ProxyEntry :=
  sanitizeForOutput (canonicalForm codecs.yaml entry)

theorem emitted_eq (codecs : Codecs) (entry : ProxyEntry) :
    emitted codecs entry =
      { entry with
        host := stripLineBreaks entry.host
        credential := stripLineBreaks entry.credential
        params := (emitted codecs entry).params
        rawPath := stripLineBreaks entry.rawPath } := by
  unfold emitted canonicalForm
  split <;> rfl

def transportOf (codecs : Codecs) (entry : ProxyEntry) : Text :=
  ((emitted codecs entry).param transportKey).getD "https"

/-- What stands behind the scheme: the transport of a naive entry is part of its scheme. -/
def printed (codecs : Codecs) (entry : ProxyEntry) : ProxyEntry :=
  if entry.scheme = .naive then
    { emitted codecs entry with
      params := (emitted codecs entry).params.filter fun p => p.key ≠ transportKey }
  else emitted codecs entry

theorem printed_eq (codecs : Codecs) (entry : ProxyEntry) :
    printed codecs entry =
      { entry with
        host := stripLineBreaks entry.host
        credential := stripLineBreaks entry.credential
        params := (printed codecs entry).params
        rawPath := stripLineBreaks entry.rawPath } := by
  unfold printed
  split_ifs
  · rw [emitted_eq]
  · exact emitted_eq codecs entry

def spelledParams (codecs : Codecs) (entry : ProxyEntry) : List Param :=
  if entry.scheme = .vmess then rereadParams codecs.json (emitted codecs entry)
  else (printed codecs entry).params.map encodedParam

def SupportedTransport (codecs : Codecs) (entry : ProxyEntry) : Prop :=
  entry.scheme = .naive →
    toAsciiLowercase (transportOf codecs entry) = "https" ∨
      toAsciiLowercase (transportOf codecs entry) = "quic"

/-- What a client tells two proxies apart by on its list. -/
structure SameEndpoint (entry read : ProxyEntry) : Prop where
  scheme : read.scheme = entry.scheme
  host : read.host = entry.host
  port : read.port = entry.port
  name : read.name = entry.name

/-- The line of an entry is read, with the entry's own scheme, host, port and name. -/
def ReadsBack (codecs : Codecs) (entry : ProxyEntry) : Prop :=
  ∃ read, parseLine codecs (serialize codecs entry) = .parsed read ∧ SameEndpoint entry read

/-- No rule rewrites a credential or a path. -/
structure PlainParts (entry : ProxyEntry) : Prop where
  credential : entry.scheme ∉ [Scheme.ss, .vmess] → '#' ∉ entry.credential ∧ '?' ∉ entry.credential
  path : entry.scheme ≠ .vmess → PlainEnds none entry.rawPath

/-- The limits of the line parser, and the transports it knows. -/
structure WithinLimits (codecs : Codecs) (entry : ProxyEntry) : Prop where
  line : (bytes (serialize codecs entry)).length ≤ maxLineBytes
  params : WithinCaps (spelledParams codecs entry)
  transport : SupportedTransport codecs entry

theorem PlainEnds.stripped {userinfo : Option Text} {rawPath : Text}
    (huser : ∀ u, userinfo = some u → '#' ∉ u ∧ '?' ∉ u) (h : PlainEnds none rawPath) :
    PlainEnds userinfo (stripLineBreaks rawPath) where
  userinfo := huser
  path c t hct := by
    cases rawPath with
    | nil => simp [stripLineBreaks] at hct
    | cons d r =>
      obtain rfl := h.path d r rfl
      simp only [stripLineBreaks, List.map_cons, List.cons.injEq] at hct
      exact hct.1.symm
  pathPlain := ⟨not_mem_stripLineBreaks (by decide) h.pathPlain.1,
    not_mem_stripLineBreaks (by decide) h.pathPlain.2.1,
    not_mem_stripLineBreaks (by decide) h.pathPlain.2.2⟩

/-- The specification behind a scheme of the generic grammar. -/
def lineSpec (s : Scheme) : Option UriSchemeSpec :=
  if s = .naive then some naiveSpec else uriSpec s

theorem lineSpec_scheme {s : Scheme} (h : lineSpec s = some spec) :
    spec.scheme = s ∧ s ∉ [Scheme.ss, .vmess] := by
  unfold lineSpec at h
  split_ifs at h with hnaive
  · obtain rfl := Option.some.inj h
    exact ⟨hnaive.symm, by rw [hnaive]; decide⟩
  · refine ⟨(uriSpec_scheme h).1, fun hmem => ?_⟩
    revert h
    rcases (by simpa using hmem : s = .ss ∨ s = .vmess) with rfl | rfl <;> simp [uriSpec]

theorem exists_lineSpec {s : Scheme} (hss : s ≠ .ss) (hvmess : s ≠ .vmess) :
    ∃ spec, lineSpec s = some spec := by
  revert hss hvmess
  cases s <;> simp [lineSpec, uriSpec]

theorem transport_chars {transport : Text}
    (h : toAsciiLowercase transport = "https" ∨ toAsciiLowercase transport = "quic") :
    ∀ c ∈ transport, isWhitespace c = false ∧ c ≠ ':' := by
  intro c hc
  have hlower : c.toLower ∈ ("https" : Text) ∨ c.toLower ∈ ("quic" : Text) := by
    have hmem : c.toLower ∈ toAsciiLowercase transport := List.mem_map_of_mem hc
    rcases h with h | h <;> rw [h] at hmem
    · exact .inl hmem
    · exact .inr hmem
  unfold Char.toLower at hlower
  split at hlower
  next hupper =>
    have hrange : 65 ≤ c.toNat ∧ c.toNat ≤ 90 := by
      simp only [ge_iff_le, UInt32.le_iff_toNat_le] at hupper
      exact hupper
    refine ⟨?_, ?_⟩
    · simp only [isWhitespace]
      grind
    · rintro rfl
      exact absurd hrange (by decide)
  next =>
    have hall : ∀ d, d ∈ ("https" : Text) ∨ d ∈ ("quic" : Text) →
        isWhitespace d = false ∧ d ≠ ':' := by
      rintro d (hd | hd) <;> revert d <;> decide
    exact hall c hlower

theorem parseNaive_eq_parsed {transport rest line : Text} {read : ProxyEntry}
    (h : transport = "https" ∨ transport = "quic") :
    parseNaive transport rest line = .parsed read ↔
      ∃ inner, parseWithSpec naiveSpec rest line = .ok inner ∧ read = withTransport transport inner := by
  rw [parseNaive, if_pos h]
  cases parseWithSpec naiveSpec rest line with
  | error e => simp
  | ok inner => simp [eq_comm]

theorem serialize_spec_eq (h : uriSpec entry.scheme = some spec) :
    serialize codecs entry =
      entry.scheme.asStr ++ ("://" ++ printEntry (emitted codecs entry)) := by
  rw [serialize_spec h, serializeWithSpec_eq, (uriSpec_scheme h).2, List.append_assoc]
  rfl

theorem serialize_naive_eq (h : entry.scheme = .naive) :
    serialize codecs entry = ("naive+" ++ transportOf codecs entry) ++
      ("://" ++ printEntry (printed codecs entry)) := by
  have hdrop : (serializeWithSpec naiveSpec (printed codecs entry)).drop
      naiveSpec.uriPrefix.length = printEntry (printed codecs entry) := by
    rw [serializeWithSpec_eq, List.drop_left]
  rw [serialize_naive h, ← hdrop, printed, if_pos h, ← List.append_assoc]
  rfl

theorem parseLine_printed (hspec : lineSpec entry.scheme = some spec)
    (htransport : SupportedTransport codecs entry)
    (hlen : (bytes (serialize codecs entry)).length ≤ maxLineBytes) :
    ∃ (rawLine : Text) (wrap : ProxyEntry → ProxyEntry), (∀ inner, SameEndpoint inner (wrap inner)) ∧
      ∀ read, parseLine codecs (serialize codecs entry) = .parsed read ↔
        ∃ inner, parseWithSpec spec (trimEnd (printEntry (printed codecs entry))) rawLine =
          .ok inner ∧ read = wrap inner := by
  unfold lineSpec at hspec
  split_ifs at hspec with hnaive
  · obtain rfl := Option.some.inj hspec
    have hknown := htransport hnaive
    have hchars := transport_chars hknown
    have hwhite : ∀ c ∈ ("naive+" : Text) ++ transportOf codecs entry, isWhitespace c = false :=
      List.forall_mem_append.mpr ⟨by decide, fun c hc => (hchars c hc).1⟩
    have hcolon : ':' ∉ ("naive+" : Text) ++ transportOf codecs entry :=
      List.not_mem_append (by decide) fun hc => (hchars ':' hc).2 rfl
    have hlower : toAsciiLowercase (("naive+" : Text) ++ transportOf codecs entry) =
        "naive+" ++ toAsciiLowercase (transportOf codecs entry) := by
      rw [toAsciiLowercase_append]
      rfl
    rw [serialize_naive_eq hnaive] at hlen ⊢
    rw [parseLine_anycase hwhite hcolon hlen, hlower, parseScheme_naive hknown]
    exact ⟨_, withTransport _, fun inner => ⟨rfl, rfl, rfl, rfl⟩,
      fun read => parseNaive_eq_parsed hknown⟩
  · have hprinted : printed codecs entry = emitted codecs entry := if_neg hnaive
    rw [serialize_spec_eq hspec, ← hprinted] at hlen ⊢
    rw [parseLine_spec hspec hlen]
    have hid : ∀ {x : Except UriError ProxyEntry} {read : ProxyEntry},
        parsed x = .parsed read ↔ ∃ inner, x = .ok inner ∧ read = id inner := by
      intro x read
      rw [parsed_eq]
      simp
    exact ⟨_, id, fun inner => ⟨rfl, rfl, rfl, rfl⟩, fun read => hid⟩

theorem printed_ends (hspec : lineSpec entry.scheme = some spec) (h : PlainParts entry) :
    PlainEnds (exportedUserinfo (printed codecs entry).credential)
      (printed codecs entry).rawPath := by
  have hscheme := (lineSpec_scheme hspec).2
  have hvmess : entry.scheme ≠ .vmess := fun heq => hscheme (by simp [heq])
  rw [printed_eq]
  refine PlainEnds.stripped (fun u hu => ?_) (h.path hvmess)
  unfold exportedUserinfo at hu
  split_ifs at hu
  obtain rfl := Option.some.inj hu
  have hplain := h.credential hscheme
  exact ⟨not_mem_stripLineBreaks (by decide) hplain.1,
    not_mem_stripLineBreaks (by decide) hplain.2⟩

theorem generic_printsHost (hspec : lineSpec entry.scheme = some spec) (h : PlainParts entry)
    (htransport : SupportedTransport codecs entry)
    (hlen : (bytes (serialize codecs entry)).length ≤ maxLineBytes)
    (hread : ReadsBack codecs entry) :
    PrintsHost entry.host ∧ (spec.credentialRequired = true → entry.credential ≠ []) := by
  obtain ⟨read, hparse, hsame⟩ := hread
  obtain ⟨rawLine, wrap, hwrap, hiff⟩ := parseLine_printed hspec htransport hlen
  obtain ⟨inner, hok, rfl⟩ := (hiff read).mp hparse
  have hinner : inner.host = entry.host := (hwrap inner).host.symm.trans hsame.host
  have hhost : (printed codecs entry).host = stripLineBreaks inner.host := by
    rw [printed_eq, hinner]
  obtain ⟨hprints, hrequired⟩ := printsHost_of_parse (printed_ends hspec h) hok hhost
  rw [hinner] at hprints
  refine ⟨hprints, fun hreq hempty => hrequired hreq ?_⟩
  rw [printed_eq, hempty]
  rfl

theorem generic_readsBack (hspec : lineSpec entry.scheme = some spec) (h : PlainParts entry)
    (hlimits : WithinLimits codecs entry) (hhost : PrintsHost entry.host)
    (hrequired : spec.credentialRequired = true → entry.credential ≠ []) :
    ReadsBack codecs entry := by
  obtain ⟨rawLine, wrap, hwrap, hiff⟩ := parseLine_printed hspec hlimits.transport hlimits.line
  have hvmess : entry.scheme ≠ .vmess := fun heq => (lineSpec_scheme hspec).2 (by simp [heq])
  have hcaps := hlimits.params
  rw [spelledParams, if_neg hvmess] at hcaps
  have hprinted : (printed codecs entry).host = entry.host := by
    rw [printed_eq]
    exact hhost.stripped
  have hcredential : spec.credentialRequired = true → (printed codecs entry).credential ≠ [] := by
    intro hreq hempty
    rw [printed_eq] at hempty
    exact hrequired hreq (stripLineBreaks_eq_nil.mp hempty)
  have hplain : PlainHost (printed codecs entry).host := by
    rw [hprinted]
    exact hhost.toPlainHost
  obtain ⟨inner, hok, hscheme, hinner, hport, hname⟩ :=
    reread (printed_ends hspec h) hplain hcredential hcaps rawLine
  refine ⟨wrap inner, (hiff _).mpr ⟨inner, hok, rfl⟩, ?_⟩
  exact
    { scheme := (hwrap inner).scheme.trans (hscheme.trans (lineSpec_scheme hspec).1)
      host := (hwrap inner).host.trans (hinner.trans hprinted)
      port := (hwrap inner).port.trans (hport.trans (by rw [printed_eq]))
      name := (hwrap inner).name.trans (hname.trans (by rw [printed_eq])) }

def ssBlob (codecs : Codecs) (entry : ProxyEntry) : Text :=
  codecs.base64.encode (bytes (SsLine.exportedCredential (emitted codecs entry).credential))

theorem serialize_ss_eq (h : entry.scheme = .ss) :
    serialize codecs entry = "ss" ++ ("://" ++ printUri (some (ssBlob codecs entry))
      (stripLineBreaks entry.host) entry.port (stripLineBreaks entry.rawPath)
        (exportedQuery (emitted codecs entry).params) (exportedFragment entry.name)) := by
  have hscheme : (emitted codecs entry).scheme = .ss := by rw [emitted_eq, h]
  have hhost : (emitted codecs entry).host = stripLineBreaks entry.host := by rw [emitted_eq]
  have hpath : (emitted codecs entry).rawPath = stripLineBreaks entry.rawPath := by rw [emitted_eq]
  have hport : (emitted codecs entry).port = entry.port := by rw [emitted_eq]
  have hname : (emitted codecs entry).name = entry.name := by rw [emitted_eq]
  have hfold : sanitizeForOutput (canonicalForm codecs.yaml entry) = emitted codecs entry := rfl
  dsimp only [serialize]
  rw [hfold, hscheme, ← hport, ← hname, ← hhost, ← hpath]
  simp [SsLine.serialize, serializeEndpoint, printUri, userinfoText, ssBlob]

theorem ssBlob_ends (hbase64 : codecs.base64.RoundTrips) (h : PlainParts entry)
    (hss : entry.scheme = .ss) :
    PlainEnds (some (ssBlob codecs entry)) (stripLineBreaks entry.rawPath) := by
  have hforeign : ∀ c, ¬InAlphabet c → c ∉ ssBlob codecs entry :=
    fun c hc hmem => hc (hbase64.alphabet _ c hmem)
  refine PlainEnds.stripped (fun u hu => ?_) (h.path (by rw [hss]; decide))
  obtain rfl := Option.some.inj hu
  exact ⟨hforeign '#' (by simp [InAlphabet]), hforeign '?' (by simp [InAlphabet])⟩

theorem ss_line_printsHost (hbase64 : codecs.base64.RoundTrips) (hss : entry.scheme = .ss)
    (h : PlainParts entry) (hlen : (bytes (serialize codecs entry)).length ≤ maxLineBytes)
    (hread : ReadsBack codecs entry) : PrintsHost entry.host := by
  obtain ⟨read, hparse, hsame⟩ := hread
  obtain ⟨path, hends, htrim⟩ := exists_trimmed (ssBlob_ends hbase64 h hss)
    (stripLineBreaks entry.host) entry.port (emitted codecs entry).params entry.name
  rw [serialize_ss_eq hss] at hparse hlen
  rw [parseLine_scheme (by decide) (by decide) (by decide) hlen, htrim] at hparse
  have hok := parseScheme_eq_parsed_ss hparse (hsame.scheme.trans hss)
  rw [← hsame.host] at hok ⊢
  exact ss_printsHost hends hok rfl

theorem ss_readsBack (hbase64 : codecs.base64.RoundTrips) (hss : entry.scheme = .ss)
    (h : PlainParts entry) (hlimits : WithinLimits codecs entry) (hhost : PrintsHost entry.host) :
    ReadsBack codecs entry := by
  obtain ⟨path, hends, htrim⟩ := exists_trimmed (ssBlob_ends hbase64 h hss)
    entry.host entry.port (emitted codecs entry).params entry.name
  have hclean : hasLineBreak (emitted codecs entry).credential = false := by
    rw [emitted_eq]
    exact hasLineBreak_stripLineBreaks _
  obtain ⟨hmethod, hunbroken⟩ := exportedCredential_clean hclean
  have hlen := hlimits.line
  have hcaps := hlimits.params
  have hprinted : printed codecs entry = emitted codecs entry := if_neg (by rw [hss]; decide)
  rw [spelledParams, if_neg (by rw [hss]; decide), hprinted] at hcaps
  rw [serialize_ss_eq hss, hhost.stripped] at hlen
  obtain ⟨read, hok, hscheme, hread, hport, hname⟩ :=
    ss_reread hbase64 hmethod hunbroken hends hhost.toPlainHost hcaps
      ("ss" ++ ("://" ++ trimEnd (printUri (some (ssBlob codecs entry)) entry.host entry.port
        (stripLineBreaks entry.rawPath) (exportedQuery (emitted codecs entry).params)
          (exportedFragment entry.name))))
  refine ⟨read, ?_, hscheme.trans hss.symm, hread, hport, hname⟩
  rw [serialize_ss_eq hss, hhost.stripped,
    parseLine_scheme (by decide) (by decide) (by decide) hlen, htrim]
  rw [htrim] at hok
  exact parsed_eq.mpr hok

def vmessBlob (codecs : Codecs) (entry : ProxyEntry) : Text :=
  codecs.base64.encode
    (bytes (codecs.json.toStr (stringObject (VmessLine.exportedObject (emitted codecs entry)))))

theorem serialize_vmess_eq (h : entry.scheme = .vmess) :
    serialize codecs entry = "vmess" ++ ("://" ++ vmessBlob codecs entry) := by
  have hscheme : (emitted codecs entry).scheme = .vmess := by rw [emitted_eq, h]
  have hfold : sanitizeForOutput (canonicalForm codecs.yaml entry) = emitted codecs entry := rfl
  dsimp only [serialize]
  rw [hfold, hscheme]
  rfl

theorem vmess_host (hvmess : entry.scheme = .vmess) (hread : ReadsBack codecs entry) :
    entry.host ≠ [] ∧ hasLineBreak entry.host = false := by
  obtain ⟨read, hparse, hsame⟩ := hread
  obtain ⟨scheme, rest, -, hparse⟩ := parseLine_eq_parsed hparse
  have hok := parseScheme_eq_parsed_vmess hparse (hsame.scheme.trans hvmess)
  have hwell := WellFormedEntries.wellFormed_vmess hok
  rw [← hsame.host]
  exact ⟨hwell.host, hwell.hostUnbroken⟩

theorem vmess_readsBack (hbase64 : codecs.base64.RoundTrips) (hjson : codecs.json.RoundTripsStrings)
    (htext : PrintsText codecs.json) (hvmess : entry.scheme = .vmess)
    (hlimits : WithinLimits codecs entry)
    (hhost : entry.host ≠ [] ∧ hasLineBreak entry.host = false) : ReadsBack codecs entry := by
  have hlen := hlimits.line
  have hcaps := hlimits.params
  rw [spelledParams, if_pos hvmess] at hcaps
  rw [serialize_vmess_eq hvmess] at hlen
  have hemitted := emitted_eq codecs entry
  have hstrip : (emitted codecs entry).host = entry.host := by
    rw [hemitted]
    exact stripLineBreaks_eq_self hhost.2
  have hclean : ∀ p ∈ (emitted codecs entry).params, hasLineBreak p.value = false := by
    intro p hp
    obtain ⟨q, -, rfl⟩ := List.mem_map.mp hp
    exact hasLineBreak_stripLineBreaks q.value
  have hcredential : hasLineBreak (emitted codecs entry).credential = false := by
    rw [hemitted]
    exact hasLineBreak_stripLineBreaks _
  have htrim : trimEnd (vmessBlob codecs entry) = vmessBlob codecs entry := by
    refine trimEnd_eq_self fun c hc => ?_
    exact inAlphabet_visible (hbase64.alphabet _ c (List.mem_of_getLast? hc))
  have hok := vmess_parse (e := emitted codecs entry) hbase64 hjson htext
    (by rw [hstrip]; exact hhost.1) ⟨by rw [hstrip]; exact hhost.2, hcredential⟩ hclean hcaps
    ("vmess" ++ ("://" ++ vmessBlob codecs entry))
  have hline : ∀ read, VmessLine.parse codecs.base64 codecs.json (vmessBlob codecs entry)
      ("vmess" ++ ("://" ++ vmessBlob codecs entry)) = .ok read →
        parseLine codecs (serialize codecs entry) = .parsed read := by
    intro read hread
    rw [serialize_vmess_eq hvmess, parseLine_scheme (by decide) (by decide) (by decide) hlen, htrim]
    exact parsed_eq.mpr hread
  have hport : (emitted codecs entry).port = entry.port := by rw [hemitted]
  have hname : (emitted codecs entry).name = entry.name := by rw [hemitted]
  exact ⟨_, hline _ hok, hvmess.symm, hstrip, hport, hname⟩

end Lines

section Runs

variable {engines : Engines}

/-- What a run of rules leaves in place, and the guard of what it changes. -/
structure Renamed (entry entry' : ProxyEntry) : Prop where
  scheme : entry'.scheme = entry.scheme
  credential : entry'.credential = entry.credential
  path : entry'.rawPath = entry.rawPath
  host : entry'.host = entry.host ∨ validRewrittenHost entry'.host = true

theorem Renamed.refl (entry : ProxyEntry) : Renamed entry entry :=
  ⟨rfl, rfl, rfl, .inl rfl⟩

theorem Renamed.trans {a b c : ProxyEntry} (h : Renamed a b) (h' : Renamed b c) : Renamed a c where
  scheme := h'.scheme.trans h.scheme
  credential := h'.credential.trans h.credential
  path := h'.path.trans h.path
  host := by
    rcases h'.host with heq | hvalid
    · rw [heq]
      exact h.host
    · exact .inr hvalid

theorem renamed_rule (entry : ProxyEntry) (rule : CompiledRename engines.Regex) :
    Renamed entry (applyRenameRule engines entry rule) := by
  unfold applyRenameRule
  cases rule.target with
  | name => exact ⟨rfl, rfl, rfl, .inl rfl⟩
  | host =>
    dsimp only
    split_ifs with hvalid
    · exact ⟨rfl, rfl, rfl, .inr hvalid⟩
    · exact Renamed.refl entry
  | port =>
    dsimp only
    split
    · exact ⟨rfl, rfl, rfl, .inl rfl⟩
    · exact Renamed.refl entry
  | param key => exact ⟨rfl, rfl, rfl, .inl rfl⟩

theorem renamed_run (rules : List (CompiledRename engines.Regex)) (entry : ProxyEntry) :
    Renamed entry (rules.foldl (applyRenameRule engines) entry) := by
  induction rules generalizing entry with
  | nil => exact Renamed.refl entry
  | cons rule rules ih => exact (renamed_rule entry rule).trans (ih _)

theorem PlainParts.renamed {entry entry' : ProxyEntry} (h : PlainParts entry)
    (hrenamed : Renamed entry entry') : PlainParts entry' := by
  constructor
  · rw [hrenamed.scheme, hrenamed.credential]
    exact h.credential
  · rw [hrenamed.scheme, hrenamed.path]
    exact h.path

theorem PrintsHost.renamed {entry entry' : ProxyEntry} (h : PrintsHost entry.host)
    (hrenamed : Renamed entry entry') : PrintsHost entry'.host := by
  rcases hrenamed.host with heq | hvalid
  · rw [heq]
    exact h
  · exact printsHost_of_valid hvalid

theorem parseLine_length {codecs : Codecs} {line : Text} {read : ProxyEntry}
    (h : parseLine codecs line = .parsed read) : (bytes line).length ≤ maxLineBytes := by
  by_contra hlong
  rw [parseLine, if_pos (by omega)] at h
  cases h

/-- Rename rules keep a line readable: after any run of rules on an entry whose line reads back, the
line reads back as the rewritten entry, as long as it stays within the limits of the parser. -/
theorem renamed_line_parses (codecs : Codecs) (hbase64 : codecs.base64.RoundTrips)
    (hjson : codecs.json.RoundTripsStrings) (htext : PrintsText codecs.json) (engines : Engines)
    (rules : List (CompiledRename engines.Regex)) (entry : ProxyEntry)
    (hread : ReadsBack codecs entry) (hplain : PlainParts entry)
    (htransport : SupportedTransport codecs entry)
    (hlimits : WithinLimits codecs (rules.foldl (applyRenameRule engines) entry)) :
    (rules.foldl (applyRenameRule engines) entry).scheme = entry.scheme ∧
      ReadsBack codecs (rules.foldl (applyRenameRule engines) entry) := by
  have hrenamed := renamed_run rules entry
  set entry' := rules.foldl (applyRenameRule engines) entry
  refine ⟨hrenamed.scheme, ?_⟩
  have hlen : (bytes (serialize codecs entry)).length ≤ maxLineBytes := by
    obtain ⟨read, hparse, -⟩ := hread
    exact parseLine_length hparse
  have hplain' := hplain.renamed hrenamed
  by_cases hss : entry.scheme = .ss
  · have hhost := ss_line_printsHost hbase64 hss hplain hlen hread
    exact ss_readsBack hbase64 (hrenamed.scheme.trans hss) hplain' hlimits
      (hhost.renamed hrenamed)
  by_cases hvmess : entry.scheme = .vmess
  · have hhost := vmess_host hvmess hread
    refine vmess_readsBack hbase64 hjson htext (hrenamed.scheme.trans hvmess) hlimits ?_
    rcases hrenamed.host with heq | hvalid
    · rw [heq]
      exact hhost
    · have hprints := printsHost_of_valid hvalid
      exact ⟨hprints.safe.nonempty, hprints.unbroken⟩
  · obtain ⟨spec, hspec⟩ := exists_lineSpec hss hvmess
    obtain ⟨hhost, hrequired⟩ := generic_printsHost hspec hplain htransport hlen hread
    rw [← hrenamed.scheme] at hspec
    rw [← hrenamed.credential] at hrequired
    exact generic_readsBack hspec hplain' hlimits (hhost.renamed hrenamed) hrequired

end Runs

section Samples

def wholeEngines : Engines where
  Regex := Unit
  build := fun _ _ _ _ => .ok ()
  isMatch := fun _ _ => true
  replaceAll := fun _ _ new => new
  typeError := fun _ => []

def naiveEntry : ProxyEntry where
  scheme := .naive
  name := "n"
  host := "h"
  port := 443
  credential := "u:p"
  params := [⟨transportKey, "https", true⟩]
  rawPath := []
  rawLine := "naive+https://u:p@h:443#n"

def rewrites : List (CompiledRename wholeEngines.Regex) :=
  [⟨(), "2001:db8::1", .host⟩, ⟨(), "a#b", .host⟩, ⟨(), "8443", .port⟩, ⟨(), "x&y #", .name⟩,
    ⟨(), "QUIC", .param "NAIVE_transport"⟩]

theorem renamed_line_parses_sample :
    (rewrites.foldl (applyRenameRule wholeEngines) naiveEntry).scheme = .naive ∧
      ReadsBack sampleCodecs (rewrites.foldl (applyRenameRule wholeEngines) naiveEntry) :=
  renamed_line_parses sampleCodecs standard_roundTrips JsonText.stringCodec_roundTrips
    stringCodec_printsText wholeEngines rewrites naiveEntry
    ⟨naiveEntry, by decide +kernel, rfl, rfl, rfl, rfl⟩
    ⟨by decide, fun _ => ⟨by simp, by simp [naiveEntry], by decide⟩⟩
    (fun _ => .inl (by decide +kernel))
    ⟨by decide +kernel, ⟨by decide +kernel, by decide +kernel, by decide +kernel⟩,
      fun _ => .inr (by decide +kernel)⟩

/-- The credential of a structured item is any text. -/
def nestedEntry : ProxyEntry where
  scheme := .trojan
  name := []
  host := "h"
  port := 443
  credential := "x@h:443?"
  params := []
  rawPath := []
  rawLine := []

/-- No guard looks at the transport of a naive proxy, which becomes its scheme, and a credential
may hold the authority that the parser finds first. -/
theorem rewritten_line_is_lost :
    (¬∀ (codecs : Codecs) (engines : Engines) (rules : List (CompiledRename engines.Regex))
      (entry : ProxyEntry), codecs.base64.RoundTrips → codecs.json.RoundTripsStrings →
        PrintsText codecs.json →
        (∃ read, parseLine codecs (serialize codecs entry) = .parsed read) →
          ReadsBack codecs (rules.foldl (applyRenameRule engines) entry)) ∧
      ¬∀ (codecs : Codecs) (engines : Engines) (rules : List (CompiledRename engines.Regex))
        (entry : ProxyEntry), codecs.base64.RoundTrips → codecs.json.RoundTripsStrings →
          PrintsText codecs.json → ReadsBack codecs entry → SupportedTransport codecs entry →
            WithinLimits codecs (rules.foldl (applyRenameRule engines) entry) →
              ReadsBack codecs (rules.foldl (applyRenameRule engines) entry) := by
  constructor
  · intro h
    obtain ⟨read, hparse, -⟩ := h sampleCodecs wholeEngines [⟨(), "tcp", .param transportKey⟩]
      naiveEntry standard_roundTrips JsonText.stringCodec_roundTrips stringCodec_printsText
      ⟨naiveEntry, by decide +kernel⟩
    have hunknown : parseLine sampleCodecs (serialize sampleCodecs
        ([⟨(), "tcp", .param transportKey⟩].foldl (applyRenameRule wholeEngines) naiveEntry)) =
          .unrecognized := by decide +kernel
    rw [hunknown] at hparse
    cases hparse
  · intro h
    obtain ⟨read, hparse, hsame⟩ := h sampleCodecs wholeEngines [⟨(), "g", .host⟩] nestedEntry
      standard_roundTrips JsonText.stringCodec_roundTrips stringCodec_printsText
      ⟨⟨.trojan, [], "h", 443, "x", [⟨"@h:443", [], false⟩], [], "trojan://x@h:443?@h:443"⟩,
        by decide +kernel, rfl, rfl, rfl, rfl⟩ (fun hnaive => absurd hnaive (by decide))
      ⟨by decide +kernel, ⟨by decide +kernel, by decide +kernel, by decide +kernel⟩,
        fun hnaive => absurd hnaive (by decide)⟩
    have hread : parseLine sampleCodecs (serialize sampleCodecs
        ([⟨(), "g", .host⟩].foldl (applyRenameRule wholeEngines) nestedEntry)) = .parsed
          ⟨.trojan, [], "h", 443, "x", [⟨"@g:443", [], false⟩], [], "trojan://x@h:443?@g:443"⟩ := by
      decide +kernel
    obtain rfl := LineOutcome.parsed.inj (hparse.symm.trans hread)
    exact absurd hsame.host (by decide)

end Samples

end RenamedLines
