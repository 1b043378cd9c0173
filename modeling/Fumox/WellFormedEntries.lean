import Fumox.SubscriptionParser
import Fumox.LineRoundTrip

/-!
Which payloads yield only well-formed entries.  The builders of structured input check every cap
and every line break; a line keeps a carriage return of its authority, a Clash item may have an
empty server, and the transport of a naive line is a parameter past the cap.
-/

namespace WellFormedEntries

open RustText PercentText ProxyModels UriGrammar PayloadGuards Base64Text JsonValue YamlValue
  LineParser UriRoundTrip UriLines StructuredEntries SubscriptionParser

/-- What the store and the writers rely on. -/
structure WellFormed (entry : ProxyEntry) : Prop where
  host : entry.host ≠ []
  hostUnbroken : hasLineBreak entry.host = false
  credentialUnbroken : hasLineBreak entry.credential = false
  caps : WithinCaps entry.params

def beforeQuery (rest : Text) : Text :=
  (splitQuery (splitFragment rest).1).1

def queryOf (rest : Text) : Option Text :=
  (splitQuery (splitFragment rest).1).2

def userinfoOf (rest : Text) : Option Text :=
  (splitUserinfo (beforeQuery rest)).1

def hostportOf (rest : Text) : Text :=
  (splitPath (splitUserinfo (beforeQuery rest)).2).1

def pairCount (rest : Text) : ℕ :=
  (queryOf rest).elim 0 fun query => (query.splitOn '&').length

/-- No break stands where the scheme's parser reads host or credential verbatim, and the query of
a naive line leaves room for its transport. -/
def SafeRest (scheme rest : Text) : Prop :=
  if scheme = "vmess" then True
  else if scheme = "ss" then '@' ∈ beforeQuery rest → hasLineBreak (hostportOf rest) = false
  else
    hasLineBreak ((userinfoOf rest).getD []) = false ∧ hasLineBreak (hostportOf rest) = false ∧
      ((stripNaive scheme).isSome → pairCount rest < maxQueryParams)

def SafeLine (line : Text) : Prop :=
  ∀ schemeRaw rest, splitOnceStr "://" (trim line) = some (schemeRaw, rest) →
    SafeRest (toAsciiLowercase schemeRaw) rest

def clashItems (yaml : SerdeNorway) (text : Text) : List Yaml :=
  ((yaml.fromStr text).bind itemsOf).getD []

def serverOf (item : Yaml) : Option Text :=
  ((item.asMapping.bind (mapGet · "server")).bind Yaml.asStr)

/-- The lines and items that are accepted are safe. -/
def SafeText (codecs : Codecs) (text : Text) : InputFormat → Prop
  | .uriList => ∀ line ∈ lines text, (lineEntry codecs line).isSome → SafeLine (trim line)
  | .clashYaml => ∀ item ∈ clashItems codecs.yaml text,
      (∃ entry, ClashParser.parseItem codecs.yaml item = .ok (some entry)) →
        serverOf item ≠ some []
  | .singBoxJson => True

def SafePayload (codecs : Codecs) (payload : Text) (encoding : Encoding)
    (inputFormat : Option InputFormat) : Prop :=
  ∀ text, decodePayload codecs.base64 payload encoding = .ok text →
    SafeText codecs text (inputFormat.getD (detectFormat text))

section Hostport

variable {s t host port : Text}

@[simp] theorem hasLineBreak_append (s t : Text) :
    hasLineBreak (s ++ t) = (hasLineBreak s || hasLineBreak t) :=
  List.any_append

@[simp] theorem hasLineBreak_cons (c : Char) (t : Text) :
    hasLineBreak (c :: t) = (decide (c = '\n') || decide (c = '\r') || hasLineBreak t) :=
  List.any_cons

theorem exists_of_hasLineBreak (h : hasLineBreak t = true) : ∃ c ∈ t, c = '\n' ∨ c = '\r' := by
  simpa [hasLineBreak] using h

theorem splitHostport_text (h : splitHostport s = .ok (host, port)) :
    s = host ++ ':' :: port ∨ s = '[' :: (host ++ ']' :: ':' :: port) := by
  unfold splitHostport at h
  split at h
  · simp at h
  next stripped =>
    split at h
    · simp at h
    next host' port' hsplit =>
      obtain ⟨rfl, rfl⟩ := Prod.mk.inj (Except.ok.inj h)
      obtain ⟨rfl, -⟩ := splitOnce_eq_some hsplit
      exact .inr rfl
    · simp at h
  next =>
    split at h
    · simp at h
    next hostport hsplit =>
      obtain rfl := Except.ok.inj h
      obtain ⟨rfl, -⟩ := rsplitOnce_eq_some hsplit
      exact .inl rfl

theorem parseU16_digits {n : UInt16} (h : parseU16 t = some n) :
    ∀ c ∈ t, c = '+' ∨ c.isDigit = true := by
  have hall : ∀ c ∈ (if t.head? = some '+' then t.tail else t), c.isDigit = true := by
    by_contra hbad
    push Not at hbad
    obtain ⟨c, hc, hdigit⟩ := hbad
    have hany : (if t.head? = some '+' then t.tail else t).any (fun c => !c.isDigit) = true :=
      List.any_eq_true.mpr ⟨c, hc, by simp [hdigit]⟩
    simp only [parseU16, hany, or_true, if_true] at h
    cases h
  cases t with
  | nil => simp
  | cons d t =>
    by_cases hd : d = '+'
    · have hdigits : ∀ c ∈ t, c.isDigit = true := by simpa [hd] using hall
      intro c hc
      rcases List.mem_cons.mp hc with rfl | hc
      · exact .inl hd
      · exact .inr (hdigits c hc)
    · have hhead : (d :: t).head? ≠ some '+' := by simpa using hd
      rw [if_neg hhead] at hall
      exact fun c hc => .inr (hall c hc)

theorem parseU16_unbroken {n : UInt16} (h : parseU16 t = some n) : hasLineBreak t = false := by
  cases hbreak : hasLineBreak t with
  | false => rfl
  | true =>
    obtain ⟨c, hc, hnl⟩ := exists_of_hasLineBreak hbreak
    rcases hnl with rfl | rfl
    · exact absurd (parseU16_digits h _ hc) (by decide)
    · exact absurd (parseU16_digits h _ hc) (by decide)

/-- The port and the brackets carry no break, so the host does whenever its text does. -/
theorem hasLineBreak_hostport {n : UInt16} (h : parseHostport s = .ok (host, n)) :
    hasLineBreak s = hasLineBreak host := by
  obtain ⟨-, port, hsplit, hport⟩ := parseHostport_eq_ok h
  have hplain := parseU16_unbroken hport
  rcases splitHostport_text hsplit with rfl | rfl
  · simp [hplain]
  · simp [hplain]

end Hostport

section Lines

variable {codecs : Codecs} {rest line scheme : Text} {entry : ProxyEntry}

theorem splitUri_components {parts : UriParts} (h : splitUri rest = .ok parts) :
    parts.userinfo = userinfoOf rest ∧
      parseHostport (hostportOf rest) = .ok (parts.host, parts.port) ∧
        (queryOf rest).elim (.ok []) parseQuery = .ok parts.queryPairs := by
  obtain ⟨⟨host, port⟩, hhost, hrest⟩ := bind_eq_ok.mp h
  obtain ⟨queryPairs, hpairs, hparts⟩ := bind_eq_ok.mp hrest
  obtain rfl := Except.ok.inj hparts
  exact ⟨rfl, hhost, hpairs⟩

theorem queryPairs_count {pairs : List Param}
    (h : (queryOf rest).elim (.ok []) parseQuery = .ok pairs) : pairs.length = pairCount rest := by
  unfold pairCount
  cases hquery : queryOf rest with
  | none =>
    rw [hquery] at h
    obtain rfl := Except.ok.inj h
    rfl
  | some query =>
    rw [hquery] at h
    simp only [Option.elim_some, parseQuery] at h
    split at h
    · cases h
    · exact (mapM_eq_ok.mp h).length_eq.symm

theorem withinCaps_markKnown {pairs : List Param} (h : WithinCaps pairs) (keys : List Text) :
    WithinCaps (markKnown pairs keys) := by
  refine ⟨by simpa [markKnown] using h.count, ?_, ?_⟩
  · simpa [markKnown] using h.key
  · simpa [markKnown] using h.value

theorem wellFormed_entryOf {spec : UriSchemeSpec} {parts : UriParts}
    (h : splitUri rest = .ok parts) :
    WellFormed (entryOf spec parts line) ↔
      hasLineBreak ((userinfoOf rest).getD []) = false ∧ hasLineBreak (hostportOf rest) = false := by
  obtain ⟨huserinfo, hhost, hpairs⟩ := splitUri_components h
  have hne := (parseHostport_eq_ok hhost).1
  rw [hasLineBreak_hostport hhost, ← huserinfo]
  constructor
  · exact fun hwell => ⟨hwell.credentialUnbroken, hwell.hostUnbroken⟩
  · rintro ⟨hcredential, hhostbreak⟩
    exact ⟨hne, hhostbreak, hcredential, withinCaps_markKnown (queryPairs_caps hpairs) _⟩

theorem wellFormed_withTransport {parts : UriParts} {transport : Text}
    (htransport : transport = "https" ∨ transport = "quic") (h : splitUri rest = .ok parts) :
    WellFormed (withTransport transport (entryOf naiveSpec parts line)) ↔
      hasLineBreak ((userinfoOf rest).getD []) = false ∧ hasLineBreak (hostportOf rest) = false ∧
        pairCount rest < maxQueryParams := by
  have hcount : (entryOf naiveSpec parts line).params.length = pairCount rest := by
    rw [← queryPairs_count (splitUri_components h).2.2]
    simp [entryOf, markKnown]
  have hkey : (bytes transportKey).length ≤ maxParamBytes := by decide
  have hvalue : (bytes transport).length ≤ maxParamBytes := by
    rcases htransport with rfl | rfl <;> decide
  rw [← and_assoc, ← @wellFormed_entryOf rest line naiveSpec parts h]
  constructor
  · intro hwell
    have hlength := hwell.caps.count
    simp only [withTransport, List.length_cons] at hlength
    refine ⟨⟨hwell.host, hwell.hostUnbroken, hwell.credentialUnbroken, ?_⟩, by omega⟩
    refine ⟨by omega, fun p hp => hwell.caps.key p ?_, fun p hp => hwell.caps.value p ?_⟩
    · exact List.mem_cons_of_mem _ hp
    · exact List.mem_cons_of_mem _ hp
  · rintro ⟨hwell, hlt⟩
    refine ⟨hwell.host, hwell.hostUnbroken, hwell.credentialUnbroken, ?_, ?_, ?_⟩
    · simp only [withTransport, List.length_cons]
      omega
    · exact List.forall_mem_cons.mpr ⟨hkey, hwell.caps.key⟩
    · exact List.forall_mem_cons.mpr ⟨hvalue, hwell.caps.value⟩

/-- The credential is checked in both forms, the host in the legacy form only. -/
theorem parseServer_spec {base64 : Base64} {server : SsLine.SsServer}
    (h : SsLine.parseServer base64 (beforeQuery rest) = .ok server) :
    server.host ≠ [] ∧ hasLineBreak server.credential = false ∧
      (hasLineBreak server.host = false ↔
        ('@' ∈ beforeQuery rest → hasLineBreak (hostportOf rest) = false)) := by
  unfold SsLine.parseServer at h
  by_cases hat : '@' ∈ beforeQuery rest
  · rw [if_pos hat] at h
    obtain ⟨⟨userinfo, hostportPath⟩, hsplit, h⟩ := bind_eq_ok.mp h
    obtain ⟨credential, -, h⟩ := bind_eq_ok.mp h
    obtain ⟨_, -, h⟩ := bind_eq_ok.mp h
    obtain ⟨_, hcredential, h⟩ := bind_eq_ok.mp h
    obtain ⟨⟨host, port⟩, hhost, h⟩ := bind_eq_ok.mp h
    obtain rfl := Except.ok.inj h
    have huserinfo : splitUserinfo (beforeQuery rest) = (some userinfo, hostportPath) := by
      rw [splitUserinfo, elim_eq_ok.mp hsplit]
    have hhostport : parseHostport (hostportOf rest) = .ok (host, port) := by
      rw [hostportOf, huserinfo]
      exact mapError_eq_ok.mp hhost
    refine ⟨(parseHostport_eq_ok hhostport).1, rejectLineBreaks_eq_ok.mp hcredential, ?_⟩
    rw [hasLineBreak_hostport hhostport]
    exact ⟨fun hok _ => hok, fun hok => hok hat⟩
  · rw [if_neg hat] at h
    obtain ⟨decoded, -, h⟩ := bind_eq_ok.mp h
    obtain ⟨⟨credential, hostport⟩, -, h⟩ := bind_eq_ok.mp h
    obtain ⟨_, -, h⟩ := bind_eq_ok.mp h
    obtain ⟨_, hcredential, h⟩ := bind_eq_ok.mp h
    obtain ⟨⟨host, port⟩, hhost, h⟩ := bind_eq_ok.mp h
    obtain ⟨_, hbreak, h⟩ := bind_eq_ok.mp h
    obtain rfl := Except.ok.inj h
    have hhostport := mapError_eq_ok.mp hhost
    refine ⟨(parseHostport_eq_ok hhostport).1, rejectLineBreaks_eq_ok.mp hcredential, ?_⟩
    exact ⟨fun _ hmem => absurd hmem hat, fun _ => rejectLineBreaks_eq_ok.mp hbreak⟩

theorem wellFormed_ss (h : SsLine.parse codecs.base64 rest line = .ok entry) :
    WellFormed entry ↔ ('@' ∈ beforeQuery rest → hasLineBreak (hostportOf rest) = false) := by
  obtain ⟨server, hserver, h⟩ := bind_eq_ok.mp h
  obtain ⟨params, hparams, h⟩ := bind_eq_ok.mp h
  obtain rfl := Except.ok.inj h
  have hcaps := queryPairs_caps (mapError_eq_ok.mp hparams)
  obtain ⟨hhost, hcredential, hiff⟩ := parseServer_spec hserver
  rw [← hiff]
  constructor
  · exact fun hwell => hwell.hostUnbroken
  · exact fun hbreak => ⟨hhost, hbreak, hcredential, withinCaps_markKnown hcaps []⟩

theorem withinCaps_of_checks {ε : Type} {e : ε} {params : List Param} {u : Unit}
    (hcount : params.length ≤ maxQueryParams)
    (hsize : (params.forM fun p => (checkParamSize p.key p.value).mapError fun _ => e) = .ok u) :
    WithinCaps params := by
  have hall : ∀ p ∈ params, (bytes p.key).length ≤ maxParamBytes ∧
      (bytes p.value).length ≤ maxParamBytes := by
    intro p hp
    exact checkParamSize_eq_ok.mp (mapError_eq_ok.mp (forM_eq_ok.mp hsize p hp))
  exact ⟨hcount, fun p hp => (hall p hp).1, fun p hp => (hall p hp).2⟩

theorem wellFormed_vmess (h : VmessLine.parse codecs.base64 codecs.json rest line = .ok entry) :
    WellFormed entry := by
  unfold VmessLine.parse at h
  rcases splitFragment rest with ⟨b64, fragment⟩
  simp only at h
  iterate 7
    obtain ⟨_, -, h⟩ := bind_eq_ok.mp h
  obtain ⟨_, hhost, h⟩ := bind_eq_ok.mp h
  obtain ⟨_, hcount, h⟩ := bind_eq_ok.mp h
  obtain ⟨_, hbreak, h⟩ := bind_eq_ok.mp h
  obtain ⟨_, hcredential, h⟩ := bind_eq_ok.mp h
  obtain ⟨_, -, h⟩ := bind_eq_ok.mp h
  obtain ⟨_, hsize, h⟩ := bind_eq_ok.mp h
  obtain rfl := Except.ok.inj h
  exact ⟨ensure_eq_ok.mp hhost, rejectLineBreaks_eq_ok.mp hbreak,
    rejectLineBreaks_eq_ok.mp hcredential, withinCaps_of_checks (ensure_eq_ok.mp hcount) hsize⟩

theorem specNamed_other {spec : UriSchemeSpec} (h : specNamed scheme = some spec) :
    scheme ≠ "vmess" ∧ scheme ≠ "ss" ∧ stripNaive scheme = none := by
  unfold specNamed at h
  split_ifs at h
  · subst scheme
    decide
  · subst scheme
    decide
  · rename_i hy
    rcases hy with rfl | rfl <;> decide
  · subst scheme
    decide
  · subst scheme
    decide
  · subst scheme
    decide
  · subst scheme
    decide
  · subst scheme
    decide

theorem wellFormed_parseScheme (h : parseScheme codecs scheme rest line = .parsed entry) :
    WellFormed entry ↔ SafeRest scheme rest := by
  unfold SafeRest
  unfold parseScheme at h
  split at h
  next spec hnamed =>
    obtain ⟨parts, hparts, -, rfl⟩ := parseWithSpec_eq_ok.mp (parsed_eq.mp h)
    obtain ⟨hvmess, hss, hnaive⟩ := specNamed_other hnamed
    rw [if_neg hvmess, if_neg hss, wellFormed_entryOf hparts, hnaive]
    simp
  next =>
    by_cases hss : scheme = "ss"
    · have hvmess : scheme ≠ "vmess" := by
        rw [hss]
        decide
      rw [if_pos hss] at h
      rw [if_neg hvmess, if_pos hss]
      exact wellFormed_ss (parsed_eq.mp h)
    rw [if_neg hss] at h
    by_cases hvmess : scheme = "vmess"
    · rw [if_pos hvmess] at h
      rw [if_pos hvmess]
      exact iff_of_true (wellFormed_vmess (parsed_eq.mp h)) trivial
    rw [if_neg hvmess] at h
    rw [if_neg hvmess, if_neg hss]
    by_cases hhapp : scheme = "happ"
    · simp [hhapp] at h
    rw [if_neg hhapp] at h
    cases hstrip : stripNaive scheme with
    | none => simp [hstrip] at h
    | some transport =>
      rw [hstrip, Option.elim_some, parseNaive] at h
      split at h
      next htransport =>
        split at h
        next inner hinner =>
          obtain ⟨parts, hparts, -, rfl⟩ := parseWithSpec_eq_ok.mp hinner
          obtain rfl := LineOutcome.parsed.inj h
          rw [wellFormed_withTransport htransport hparts]
          simp
        next => cases h
      next => cases h

theorem wellFormed_parseLine (h : parseLine codecs line = .parsed entry) :
    WellFormed entry ↔ SafeLine line := by
  unfold parseLine at h
  split at h
  · cases h
  split at h
  · cases h
  next schemeRaw rest hsplit =>
    rw [wellFormed_parseScheme h]
    constructor
    · rintro hsafe schemeRaw' rest' hsplit'
      obtain ⟨rfl, rfl⟩ := Prod.mk.inj (Option.some.inj (hsplit.symm.trans hsplit'))
      exact hsafe
    · exact fun hsafe => hsafe schemeRaw rest hsplit

theorem wellFormed_uriList (codecs : Codecs) (text : Text) :
    (∀ entry ∈ (parseUriList codecs text).entries, WellFormed entry) ↔
      SafeText codecs text .uriList := by
  rw [entries_parseUriList]
  constructor
  · intro hwell line hline hsome
    obtain ⟨entry, hentry⟩ := Option.isSome_iff_exists.mp hsome
    rw [← wellFormed_parseLine (lineEntry_eq_some.mp hentry).2]
    exact hwell entry (List.mem_filterMap.mpr ⟨line, hline, hentry⟩)
  · intro hsafe entry hentry
    obtain ⟨line, hline, hparsed⟩ := List.mem_filterMap.mp hentry
    rw [wellFormed_parseLine (lineEntry_eq_some.mp hparsed).2]
    exact hsafe line hline (by simp [hparsed])

end Lines

section Clash

open ClashParser

variable {yaml : SerdeNorway} {entry : ProxyEntry}

theorem wellFormed_parseItem {item : Yaml} (h : parseItem yaml item = .ok (some entry)) :
    WellFormed entry ↔ serverOf item ≠ some [] := by
  obtain ⟨fields, hfields, h⟩ := bind_eq_ok.mp h
  obtain ⟨typeName, -, h⟩ := bind_eq_ok.mp h
  have hmapping := elim_eq_ok.mp hfields
  split at h
  next spec _ =>
    obtain ⟨built, hbuilt, heq⟩ := map_eq_ok.mp h
    obtain rfl := Option.some.inj heq
    obtain ⟨host, hserver, h⟩ := bind_eq_ok.mp hbuilt
    obtain ⟨port, -, h⟩ := bind_eq_ok.mp h
    obtain ⟨_, hbreak, h⟩ := bind_eq_ok.mp h
    obtain ⟨_, hcredential, h⟩ := bind_eq_ok.mp h
    obtain ⟨_, hcount, h⟩ := bind_eq_ok.mp h
    obtain ⟨_, hsize, h⟩ := bind_eq_ok.mp h
    obtain rfl := Except.ok.inj h
    have hhost : serverOf item = some host := by
      rw [serverOf, hmapping]
      exact elim_eq_ok.mp hserver
    rw [hhost]
    constructor
    · exact fun hwell hempty => hwell.host (Option.some.inj hempty)
    · intro hne
      exact ⟨fun hempty => hne (congrArg some hempty), rejectLineBreaks_eq_ok.mp hbreak,
        rejectLineBreaks_eq_ok.mp hcredential, withinCaps_of_checks (ensure_eq_ok.mp hcount) hsize⟩
  next => simp [pure, Except.pure] at h

theorem wellFormed_clash (codecs : Codecs) {text : Text} {result : ClashParseResult}
    (h : ClashParser.parsePayload codecs.yaml text = .ok result) :
    (∀ entry ∈ result.entries, WellFormed entry) ↔ SafeText codecs text .clashYaml := by
  obtain ⟨root, items, hroot, hitems, hentries⟩ := mem_clash_entries h
  have hlist : clashItems codecs.yaml text = items := by simp [clashItems, hroot, hitems]
  unfold SafeText
  rw [hlist]
  constructor
  · rintro hwell item hitem ⟨entry, hok⟩
    rw [← wellFormed_parseItem hok]
    exact hwell entry ((hentries entry).mpr ⟨item, hitem, hok⟩)
  · intro hsafe entry hmem
    obtain ⟨item, hitem, hok⟩ := (hentries entry).mp hmem
    rw [wellFormed_parseItem hok]
    exact hsafe item hitem ⟨entry, hok⟩

end Clash

theorem wellFormed_finished {entry : ProxyEntry} (h : Finished entry) : WellFormed entry := by
  obtain ⟨scheme, name, host, port, credential, params, -, hhost, h⟩ := h
  obtain ⟨_, hbreak, h⟩ := bind_eq_ok.mp h
  obtain ⟨_, hcredential, h⟩ := bind_eq_ok.mp h
  obtain ⟨_, -, h⟩ := bind_eq_ok.mp h
  obtain ⟨_, hcount, h⟩ := bind_eq_ok.mp h
  obtain ⟨_, hsize, h⟩ := bind_eq_ok.mp h
  obtain rfl := Except.ok.inj h
  exact ⟨hhost, rejectLineBreaks_eq_ok.mp hbreak, rejectLineBreaks_eq_ok.mp hcredential,
    withinCaps_of_checks (ensure_eq_ok.mp hcount) hsize⟩

/-- Every entry of an accepted payload is well formed exactly when the accepted lines and items
are safe. -/
theorem parsed_wellFormed (codecs : Codecs) (payload : Text) (encoding : Encoding)
    (inputFormat : Option InputFormat) (result : ParsedSubscription)
    (h : parseSubscription codecs payload encoding inputFormat = .ok result) :
    (∀ entry ∈ result.entries, WellFormed entry) ↔
      SafePayload codecs payload encoding inputFormat := by
  obtain ⟨text, htext, h⟩ := bind_eq_ok.mp h
  have hsafe : SafePayload codecs payload encoding inputFormat ↔
      SafeText codecs text (inputFormat.getD (detectFormat text)) := by
    constructor
    · exact fun hpayload => hpayload text htext
    · rintro hsafe text' htext'
      obtain rfl := Except.ok.inj (htext.symm.trans htext')
      exact hsafe
  rw [hsafe]
  cases hformat : inputFormat.getD (detectFormat text) with
  | uriList =>
    rw [hformat] at h
    obtain rfl := Except.ok.inj h
    exact wellFormed_uriList codecs text
  | clashYaml =>
    simp only [hformat, parseClashPayload] at h
    split at h
    next parsed hparsed =>
      obtain rfl := Except.ok.inj h
      exact wellFormed_clash codecs hparsed
    next => cases h
  | singBoxJson =>
    simp only [hformat, parseSingboxPayload] at h
    split at h
    next parsed hparsed =>
      obtain rfl := Except.ok.inj h
      refine iff_of_true (fun entry hmem => ?_) trivial
      exact wellFormed_finished (singbox_finished hparsed entry hmem)
    next => cases h

/-- A carriage return stands inside the credential. -/
def brokenPayload : Text := "trojan://p\rq@h:443\n"

def brokenEntry : ProxyEntry where
  scheme := .trojan
  name := []
  host := "h"
  port := 443
  credential := "p\rq"
  params := []
  rawPath := []
  rawLine := "trojan://p\rq@h:443"

theorem parse_brokenPayload :
    parseSubscription LineRoundTrip.sampleCodecs brokenPayload .auto none =
      .ok { entries := [brokenEntry], format := .uriList } :=
  toOption_eq_some.mp (by decide +kernel)

theorem parsed_wellFormed_sample :
    (∀ entry ∈ [brokenEntry], WellFormed entry) ↔
      SafePayload LineRoundTrip.sampleCodecs brokenPayload .auto none :=
  parsed_wellFormed LineRoundTrip.sampleCodecs brokenPayload .auto none _ parse_brokenPayload

/-- `str::lines` keeps a carriage return that no newline follows. -/
theorem lone_return_is_kept :
    ¬∀ (codecs : Codecs) (payload : Text) (encoding : Encoding) (inputFormat : Option InputFormat)
      (result : ParsedSubscription),
      parseSubscription codecs payload encoding inputFormat = .ok result →
        ∀ entry ∈ result.entries, WellFormed entry := by
  intro h
  have hwell := h _ _ _ _ _ parse_brokenPayload brokenEntry List.mem_cons_self
  exact absurd hwell.credentialUnbroken (by decide)

end WellFormedEntries
