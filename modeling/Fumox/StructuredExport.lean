import Fumox.SsRoundTrip
import Fumox.StructuredEntries

/-!
Export of structured-input entries: which entry a line reader gets back from the line that the
serializer prints for an entry that never had a line of its own.
-/

namespace StructuredExport

open RustText PercentText DelimitedText ProxyModels PayloadGuards UriGrammar UriRoundTrip
  LineParser UriLines LineRoundTrip SsRoundTrip StructuredEntries Base64Text JsonValue
open VmessLine hiding parse serialize

section Query

variable {codecs : Codecs} {entry : ProxyEntry}

def emittedParams (codecs : Codecs) (entry : ProxyEntry) : List Param :=
  (canonicalUriParams codecs.yaml entry).map sanitizeParam

/-- The parameters that a query of the emitted line spells. -/
def readBackParams (codecs : Codecs) (entry : ProxyEntry) : List Param :=
  let params := (emittedParams codecs entry).map encodedParam
  if entry.name = [] then trimLast params else params

theorem sanitize_structured (h : Structured entry) :
    sanitizeForOutput (canonicalForm codecs.yaml entry) =
      { entry with params := emittedParams codecs entry } := by
  have hpath : stripLineBreaks entry.rawPath = entry.rawPath := by
    rw [h.rawPath]
    rfl
  simp only [canonicalForm, h.rawLine, if_true, canonicalUriEntry, sanitizeForOutput,
    stripLineBreaks_eq_self h.host, stripLineBreaks_eq_self h.credential, hpath, emittedParams]

/-- The query at the end of a line, after the line was trimmed. -/
def tidyQuery (params : List Param) (name : Text) : Option Text :=
  if exportedFragment name = none then (exportedQuery params).map trimEnd else exportedQuery params

theorem tidyQuery_hash {params : List Param} {name q : Text} (h : tidyQuery params name = some q) :
    '#' ∉ q := by
  unfold tidyQuery at h
  split_ifs at h
  · obtain ⟨raw, hraw, rfl⟩ := Option.map_eq_some_iff.mp h
    exact fun hc => exportedQuery_hash hraw (trimEnd_sublist _ _ hc)
  · exact exportedQuery_hash h

theorem parseQuery_tidyQuery {params : List Param} (name : Text)
    (hcaps : WithinCaps (params.map encodedParam)) :
    (tidyQuery params name).elim (.ok []) parseQuery =
      .ok (if name = [] then trimLast (params.map encodedParam) else params.map encodedParam) := by
  unfold tidyQuery
  simp only [exportedFragment_eq_none]
  split_ifs
  · unfold exportedQuery
    by_cases hempty : params = []
    · simp [hempty, trimLast]
    · simp only [hempty, if_false, Option.map_some]
      exact parseQuery_trimEnd_serializeQuery hempty hcaps
  · exact parseQuery_exportedQuery hcaps

/-- A printed line without a path loses only white space of its query. -/
theorem trimEnd_printEndpoint (userinfo : Option Text) (host : Text) (port : UInt16)
    (params : List Param) (name : Text) :
    trimEnd (printUri userinfo host port [] (exportedQuery params) (exportedFragment name)) =
      printUri userinfo host port [] (tidyQuery params name) (exportedFragment name) := by
  rw [trimEnd_printUri (by simp) fun f => exportedFragment_visible]
  simp only [tidyQuery]
  congr 1
  split_ifs <;> rfl

end Query

section UriFamily

variable {codecs : Codecs} {entry : ProxyEntry} {spec : UriSchemeSpec}

/-- A host that no split point of a line can fall into. -/
structure PlainHost (host : Text) : Prop where
  safe : SafeHost host
  plain : ∀ c ∈ host, ¬Delimits c

theorem PlainHost.printable {host : Text} (h : PlainHost host) {userinfo : Option Text}
    (huser : ∀ u, userinfo = some u → '#' ∉ u ∧ '?' ∉ u) : Printable userinfo host [] :=
  ⟨huser, h.safe, h.plain, by simp, by simp⟩

theorem spec_export (hspec : uriSpec entry.scheme = some spec) (h : Structured entry)
    (hhost : PlainHost entry.host) (hcredential : '#' ∉ entry.credential ∧ '?' ∉ entry.credential)
    (hpresent : entry.credential ≠ [] ∨ entry.scheme = .socks5)
    (hcaps : WithinCaps ((emittedParams codecs entry).map encodedParam))
    (hlen : (bytes (serialize codecs entry)).length ≤ maxLineBytes) :
    ∃ rawLine, parseLine codecs (serialize codecs entry) =
      .parsed { entry with
        params := markKnown (readBackParams codecs entry) spec.knownKeys
        rawLine } := by
  have hline : serialize codecs entry = entry.scheme.asStr ++
      ("://" ++ printUri (exportedUserinfo entry.credential) entry.host entry.port []
        (exportedQuery (emittedParams codecs entry)) (exportedFragment entry.name)) := by
    rw [serialize_spec hspec, sanitize_structured h, serializeWithSpec_eq, (uriSpec_scheme hspec).2,
      List.append_assoc]
    simp only [printEntry, h.rawPath]
  have hprint : Printable (exportedUserinfo entry.credential) entry.host [] := by
    refine hhost.printable fun u hu => ?_
    unfold exportedUserinfo at hu
    split_ifs at hu
    obtain rfl := Option.some.inj hu
    exact hcredential
  have hrequired : spec.credentialRequired = true →
      exportedUserinfo entry.credential ≠ none := by
    intro hreq
    have hne := hpresent.resolve_right ((uriSpec_required hspec).mp hreq)
    simp [exportedUserinfo, hne]
  rw [hline] at hlen ⊢
  rw [parseLine_spec hspec hlen, trimEnd_printEndpoint]
  refine ⟨entry.scheme.asStr ++ ("://" ++ printUri (exportedUserinfo entry.credential) entry.host
    entry.port [] (tidyQuery (emittedParams codecs entry) entry.name)
      (exportedFragment entry.name)), parsed_eq.mpr ?_⟩
  rw [parseWithSpec_printUri hprint (fun q => tidyQuery_hash) hrequired _
    (parseQuery_tidyQuery entry.name hcaps)]
  simp only [entryOf, exportedFragment_read, exportedUserinfo_read, (uriSpec_scheme hspec).1,
    readBackParams, h.rawPath]

end UriFamily

section Shadowsocks

variable {codecs : Codecs} {entry : ProxyEntry}

theorem exportedCredential_clean {credential : Text} (h : hasLineBreak credential = false) :
    ':' ∈ SsLine.exportedCredential credential ∧
      hasLineBreak (SsLine.exportedCredential credential) = false := by
  unfold SsLine.exportedCredential
  split_ifs with hcolon
  · exact ⟨hcolon, h⟩
  · refine ⟨by simp, ?_⟩
    rw [hasLineBreak, List.any_append]
    exact Bool.or_eq_false_iff.mpr ⟨by decide, h⟩

theorem ss_export (hbase64 : codecs.base64.RoundTrips) (hscheme : entry.scheme = .ss)
    (h : Structured entry) (hhost : PlainHost entry.host)
    (hcaps : WithinCaps ((emittedParams codecs entry).map encodedParam))
    (hlen : (bytes (serialize codecs entry)).length ≤ maxLineBytes) :
    ∃ rawLine, parseLine codecs (serialize codecs entry) =
      .parsed { entry with
        credential := SsLine.exportedCredential entry.credential
        params := markKnown (readBackParams codecs entry) []
        rawLine } := by
  obtain ⟨hcolon, hclean⟩ := exportedCredential_clean h.credential
  set credential := SsLine.exportedCredential entry.credential with hcredential
  set blob := codecs.base64.encode (bytes credential) with hblob
  have halphabet : ∀ c ∈ blob, InAlphabet c := hbase64.alphabet _
  have hforeign : ∀ c, ¬InAlphabet c → c ∉ blob := fun c hc hmem => hc (halphabet c hmem)
  have hline : serialize codecs entry = "ss" ++ ("://" ++ printUri (some blob) entry.host entry.port
      [] (exportedQuery (emittedParams codecs entry)) (exportedFragment entry.name)) := by
    have hemitted : (sanitizeForOutput (canonicalForm codecs.yaml entry)).scheme = .ss := by
      rw [sanitize_structured h]
      exact hscheme
    dsimp only [serialize]
    rw [hemitted, sanitize_structured h]
    unfold SsLine.serialize
    simp [serializeEndpoint, printUri, userinfoText, h.rawPath, ← hcredential, ← hblob]
  have hprint : Printable (some blob) entry.host [] := by
    refine hhost.printable fun u hu => ?_
    obtain rfl := Option.some.inj hu
    exact ⟨hforeign '#' (by simp [InAlphabet]), hforeign '?' (by simp [InAlphabet])⟩
  rw [hline] at hlen ⊢
  rw [parseLine_scheme (by decide) (by decide) (by decide) hlen, trimEnd_printEndpoint]
  refine ⟨"ss" ++ ("://" ++ printUri (some blob) entry.host entry.port []
    (tidyQuery (emittedParams codecs entry) entry.name) (exportedFragment entry.name)),
    parsed_eq.mpr ?_⟩
  have hserver := parseServer_printAuthority hbase64 hcolon hclean hprint entry.port
  rw [← hblob] at hserver
  unfold SsLine.parse
  simp only [splitFragment_printUri hprint.ends hprint.hostPlain fun q => tidyQuery_hash,
    splitQuery_printAuthority hprint.ends hprint.hostPlain, hserver,
    parseQuery_tidyQuery entry.name hcaps]
  rw [bind_eq_ok]
  refine ⟨_, rfl, ?_⟩
  simp only [Except.mapError, exportedFragment_read, readBackParams, h.rawPath, hscheme]
  rfl

end Shadowsocks

section Vmess

variable {codecs : Codecs} {entry : ProxyEntry}

def emittedFields (codecs : Codecs) (entry : ProxyEntry) : List (Text × Text) :=
  exportedObject { entry with params := emittedParams codecs entry }

theorem isOwnKey_of_mem {key : Text} (h : key ∈ ("v" : Text) :: consumedFields) :
    isOwnKey key = true := by
  have hall : ∀ key ∈ ("v" : Text) :: consumedFields, isOwnKey key = true := by decide
  exact hall key h

theorem versionField_cases (entry : ProxyEntry) : versionField entry = [] ∨
    ∃ p ∈ entry.params, isOwnKey p.key = true ∧ versionField entry = [(['v'], p.value)] := by
  unfold versionField
  cases hv : entry.paramIgnoreCase "v" with
  | none => exact .inl rfl
  | some v =>
    obtain ⟨p, hp, rfl⟩ := Option.map_eq_some_iff.mp hv
    have hfound := List.find?_some hp
    exact .inr ⟨p, List.mem_of_find?_eq_some hp, by rw [isOwnKey, hfound, Bool.true_or], rfl⟩

theorem distinctKeys_ownFields (entry : ProxyEntry) :
    DistinctKeys (versionField entry ++ endpointFields entry) := by
  have hendpoint : (endpointFields entry).map Prod.fst = consumedFields := rfl
  rw [DistinctKeys, List.map_append, hendpoint]
  rcases versionField_cases entry with h | ⟨p, -, -, h⟩ <;> rw [h]
  · exact (by decide : consumedFields.Nodup)
  · exact (by decide : (['v'] :: consumedFields).Nodup)

theorem distinctKeys_foldl_copyParam (params : List Param) {object : List (Text × Text)}
    (h : DistinctKeys object) : DistinctKeys (params.foldl copyParam object) := by
  induction params generalizing object with
  | nil => exact h
  | cons p params ih =>
    refine ih ?_
    unfold copyParam
    split_ifs
    · exact h
    · exact h.insert

theorem mem_foldl_copyParam (params : List Param) {object : List (Text × Text)} {f : Text × Text}
    (hkey : f.1 ∈ ("v" : Text) :: consumedFields) (h : f ∈ object) :
    f ∈ params.foldl copyParam object := by
  induction params generalizing object with
  | nil => exact h
  | cons p params ih =>
    refine ih ?_
    unfold copyParam
    split_ifs with hskip
    · exact h
    · exact mem_insert_of_ne h fun heq => hskip (heq ▸ isOwnKey_of_mem hkey)

theorem foldl_copyParam_cases (params : List Param) {object : List (Text × Text)} {f : Text × Text}
    (h : f ∈ params.foldl copyParam object) :
    f ∈ object ∨ ∃ p ∈ params, f = (p.key, p.value) := by
  induction params generalizing object with
  | nil => exact .inl h
  | cons p params ih =>
    rcases ih h with hmem | ⟨q, hq, rfl⟩
    · unfold copyParam at hmem
      split_ifs at hmem
      · exact .inl hmem
      · rcases mem_of_mem_insert hmem with hmem | rfl
        · exact .inl hmem
        · exact .inr ⟨p, List.mem_cons_self, rfl⟩
    · exact .inr ⟨q, List.mem_cons_of_mem p hq, rfl⟩

theorem countP_foldl_copyParam (params : List Param) (keep : Text → Bool)
    {object : List (Text × Text)} :
    (params.foldl copyParam object).countP (fun f => keep f.1) ≤
      object.countP (fun f => keep f.1) + params.countP (fun p => !isOwnKey p.key) := by
  induction params generalizing object with
  | nil => simp
  | cons p params ih =>
    refine ih.trans ?_
    unfold copyParam
    split_ifs with hskip
    · simp [hskip]
    · have hinsert := countP_insert_le (m := object) (k := p.key) (v := p.value) keep
      rw [List.countP_cons_of_pos (by simp [hskip])]
      omega

theorem hasLineBreak_stripLineBreaks (t : Text) : hasLineBreak (stripLineBreaks t) = false := by
  refine List.any_eq_false.mpr fun c hc => ?_
  obtain ⟨d, -, rfl⟩ := List.mem_map.mp hc
  split_ifs with hbreak
  · decide
  · simpa using hbreak

theorem mem_exportedObject {f : Text × Text} (h : f ∈ endpointFields entry) :
    f ∈ exportedObject entry := by
  refine mem_foldl_copyParam _ (List.mem_cons_of_mem _ ?_) (List.mem_append_right _ h)
  exact (List.mem_map_of_mem h : f.1 ∈ (endpointFields entry).map Prod.fst)

theorem distinctKeys_exportedObject (entry : ProxyEntry) : DistinctKeys (exportedObject entry) :=
  distinctKeys_foldl_copyParam _ (distinctKeys_ownFields entry)

theorem objectGet_stringObject {fields : List (Text × Text)} {key value : Text}
    (h : DistinctKeys fields) (hmem : (key, value) ∈ fields) :
    objectGet (fields.map fun f => (f.1, Json.str f.2)) key = some (.str value) := by
  refine lookup_of_mem ?_ (List.mem_map.mpr ⟨_, hmem, rfl⟩)
  have hkeys : (fields.map fun f => (f.1, Json.str f.2)).map Prod.fst = fields.map Prod.fst := by
    simp
  rw [DistinctKeys, hkeys]
  exact h

theorem exportedObject_cases {f : Text × Text} (h : f ∈ exportedObject entry)
    (hconsumed : consumedFields.contains f.1 = false) :
    ∃ p ∈ entry.params, f.2 = p.value ∧ (f.1 = ['v'] ∨ f.1 = p.key) := by
  rcases foldl_copyParam_cases _ h with hown | ⟨p, hp, rfl⟩
  · rcases List.mem_append.mp hown with hversion | hendpoint
    · rcases versionField_cases entry with hnone | ⟨p, hp, -, hsome⟩
      · simp [hnone] at hversion
      · rw [hsome, List.mem_singleton] at hversion
        subst hversion
        exact ⟨p, hp, rfl, .inl rfl⟩
    · have hmem : f.1 ∈ consumedFields :=
        (List.mem_map_of_mem hendpoint : f.1 ∈ (endpointFields entry).map Prod.fst)
      simp [List.contains_eq_mem, hmem] at hconsumed
  · exact ⟨p, hp, rfl, .inr rfl⟩

/-- The parameters that the emitted object is read back with. -/
def rereadParams (json : SerdeJson) (entry : ProxyEntry) : List Param :=
  objectParams json ((exportedObject entry).map fun f => (f.1, Json.str f.2))

theorem mem_rereadParams {json : SerdeJson} {p : Param} (h : p ∈ rereadParams json entry) :
    ∃ f ∈ exportedObject entry, consumedFields.contains f.1 = false ∧ p.key = f.1 ∧ p.value = f.2 := by
  have hmem : p ∈ (((exportedObject entry).map fun f => (f.1, Json.str f.2)).filter
      fun f => !consumedFields.contains f.1).map (fieldParam json) := by
    rcases List.mem_append.mp h with h | h <;> exact (List.mem_filter.mp h).1
  obtain ⟨g, hg, rfl⟩ := List.mem_map.mp hmem
  obtain ⟨hg, hkeep⟩ := List.mem_filter.mp hg
  obtain ⟨f, hf, rfl⟩ := List.mem_map.mp hg
  exact ⟨f, hf, by simpa using hkeep, rfl, rfl⟩

theorem length_rereadParams_le (json : SerdeJson) (entry : ProxyEntry) :
    (rereadParams json entry).length ≤ entry.params.length := by
  have hcount : (rereadParams json entry).length =
      (exportedObject entry).countP fun f => !consumedFields.contains f.1 := by
    have hfirst : ∀ params : List Param, (versionFirst params).length = params.length := by
      intro params
      rw [versionFirst, List.length_append]
      exact (List.length_eq_length_filter_add fun p : Param => p.key == ['v']).symm
    rw [rereadParams, objectParams, hfirst, List.length_map, ← List.countP_eq_length_filter,
      List.countP_map]
    rfl
  have hfold := @countP_foldl_copyParam entry.params (fun key => !consumedFields.contains key)
    (versionField entry ++ endpointFields entry)
  have hsplit := List.length_eq_countP_add_countP (fun p : Param => !isOwnKey p.key)
    (l := entry.params)
  have hendpoint : (endpointFields entry).countP (fun f => !consumedFields.contains f.1) = 0 := by
    rfl
  rw [List.countP_append, hendpoint] at hfold
  rw [hcount]
  refine hfold.trans ?_
  rcases versionField_cases entry with hnone | ⟨p, hp, hkey, hsome⟩
  · rw [hnone, List.countP_nil]
    omega
  · have hone := List.countP_le_length (p := fun f : Text × Text => !consumedFields.contains f.1)
      (l := versionField entry)
    have hpos : 0 < entry.params.countP fun p => decide ¬(!isOwnKey p.key) = true :=
      List.countP_pos_iff.mpr ⟨p, hp, by simp [hkey]⟩
    rw [hsome] at hone ⊢
    simp only [List.length_singleton] at hone
    omega

theorem rereadParams_caps (json : SerdeJson) (h : WithinCaps entry.params) :
    WithinCaps (rereadParams json entry) := by
  refine ⟨(length_rereadParams_le json entry).trans h.count, ?_, ?_⟩ <;> intro p hp
  · obtain ⟨f, hf, hkeep, hkey, -⟩ := mem_rereadParams hp
    obtain ⟨q, hq, -, hversion | hcopied⟩ := exportedObject_cases hf hkeep
    · rw [hkey, hversion]
      decide
    · rw [hkey, hcopied]
      exact h.key q hq
  · obtain ⟨f, hf, hkeep, -, hvalue⟩ := mem_rereadParams hp
    obtain ⟨q, hq, hcopied, -⟩ := exportedObject_cases hf hkeep
    rw [hvalue, hcopied]
    exact h.value q hq

theorem emittedParams_clean (codecs : Codecs) (entry : ProxyEntry) :
    ∀ p ∈ emittedParams codecs entry, hasLineBreak p.value = false := by
  intro p hp
  obtain ⟨q, -, rfl⟩ := List.mem_map.mp hp
  exact hasLineBreak_stripLineBreaks q.value

theorem rereadParams_clean (json : SerdeJson)
    (h : ∀ p ∈ entry.params, hasLineBreak p.value = false) :
    ∀ p ∈ rereadParams json entry, hasLineBreak p.value = false := by
  intro p hp
  obtain ⟨f, hf, hkeep, -, hvalue⟩ := mem_rereadParams hp
  obtain ⟨q, hq, hcopied, -⟩ := exportedObject_cases hf hkeep
  rw [hvalue, hcopied]
  exact h q hq

/-- The text of the emitted object is never empty. -/
def PrintsText (json : SerdeJson) : Prop :=
  ∀ m, json.toStr (stringObject m) ≠ []

theorem vmess_parse {e : ProxyEntry} (hbase64 : codecs.base64.RoundTrips)
    (hjson : codecs.json.RoundTripsStrings) (htext : PrintsText codecs.json) (hhost : e.host ≠ [])
    (hbreaks : hasLineBreak e.host = false ∧ hasLineBreak e.credential = false)
    (hclean : ∀ p ∈ e.params, hasLineBreak p.value = false)
    (hfields : WithinCaps (rereadParams codecs.json e)) (rawLine : Text) :
    VmessLine.parse codecs.base64 codecs.json
        (codecs.base64.encode (bytes (codecs.json.toStr (stringObject (exportedObject e))))) rawLine =
      .ok { e with
        scheme := .vmess
        params := rereadParams codecs.json e
        rawPath := []
        rawLine } := by
  set payload := codecs.json.toStr (stringObject (exportedObject e)) with hpayload
  set blob := codecs.base64.encode (bytes payload) with hblob
  have hne : bytes payload ≠ [] := by
    intro hempty
    exact htext _ (bytes_injective (hempty : bytes payload = bytes []))
  have hhash : '#' ∉ blob := fun hmem =>
    absurd (hbase64.alphabet _ '#' hmem) (by simp [InAlphabet])
  have hsplit : splitFragment blob = (blob, none) := splitOptional_plain hhash
  have hread : fromSlice codecs.json (bytes payload) = some (stringObject (exportedObject e)) := by
    rw [fromSlice, fromUtf8_bytes, Option.bind_some]
    exact hjson _ (distinctKeys_exportedObject e)
  have hget : ∀ key value, (key, value) ∈ endpointFields e →
      objectGet ((exportedObject e).map fun f => (f.1, Json.str f.2)) key = some (.str value) :=
    fun key value hmem =>
      objectGet_stringObject (distinctKeys_exportedObject e) (mem_exportedObject hmem)
  have hadd : stringField ((exportedObject e).map fun f => (f.1, Json.str f.2)) "add" =
      .ok e.host := by
    rw [stringField, hget "add" e.host (by simp [endpointFields])]
  have hid : stringField ((exportedObject e).map fun f => (f.1, Json.str f.2)) "id" =
      .ok e.credential := by
    rw [stringField, hget "id" e.credential (by simp [endpointFields])]
  have hport : numericField ((exportedObject e).map fun f => (f.1, Json.str f.2)) "port" =
      .ok e.port := by
    rw [numericField, hget "port" (decimal e.port.toNat) (by simp [endpointFields])]
    simp only [trim_decimal, parseU16_decimal]
  have hps := hget "ps" e.name (by simp [endpointFields])
  unfold VmessLine.parse
  rw [hsplit]
  simp only [bind_eq_ok]
  refine ⟨(), ensure_eq_ok.mpr (hbase64.nonempty _ hne), bytes payload, ?_,
    stringObject (exportedObject e), ?_, _, rfl, e.host, hadd, e.port, hport, e.credential, hid,
    (), ensure_eq_ok.mpr hhost, (), ensure_eq_ok.mpr hfields.count, (),
    rejectLineBreaks_eq_ok.mpr hbreaks.1, (), rejectLineBreaks_eq_ok.mpr hbreaks.2, (), ?_, (), ?_, ?_⟩
  · rw [decodeB64Lenient_encode hbase64 hne, Option.elim_some]
  · rw [hread, Option.elim_some]
  · exact forM_eq_ok.mpr fun p hp =>
      rejectLineBreaks_eq_ok.mpr (rereadParams_clean codecs.json hclean p hp)
  · refine forM_eq_ok.mpr fun p hp => ?_
    rw [checkParamSize_eq_ok.mpr ⟨hfields.key p hp, hfields.value p hp⟩]
    rfl
  · rw [hps]
    rfl

theorem vmess_export (hbase64 : codecs.base64.RoundTrips) (hjson : codecs.json.RoundTripsStrings)
    (htext : PrintsText codecs.json) (hscheme : entry.scheme = .vmess) (h : Structured entry)
    (hhost : entry.host ≠ []) (hcaps : WithinCaps (emittedParams codecs entry))
    (hlen : (bytes (serialize codecs entry)).length ≤ maxLineBytes) :
    ∃ rawLine, parseLine codecs (serialize codecs entry) =
      .parsed { entry with
        params := rereadParams codecs.json { entry with params := emittedParams codecs entry }
        rawLine } := by
  set e : ProxyEntry := { entry with params := emittedParams codecs entry } with he
  set blob := codecs.base64.encode (bytes (codecs.json.toStr (stringObject (exportedObject e))))
    with hblob
  have hline : serialize codecs entry = "vmess" ++ ("://" ++ blob) := by
    have hemitted : (sanitizeForOutput (canonicalForm codecs.yaml entry)).scheme = .vmess := by
      rw [sanitize_structured h]
      exact hscheme
    dsimp only [serialize]
    rw [hemitted, sanitize_structured h]
    rfl
  have htrim : trimEnd blob = blob := by
    refine trimEnd_eq_self fun c hc => ?_
    exact inAlphabet_visible (hbase64.alphabet _ c (List.mem_of_getLast? hc))
  rw [hline] at hlen ⊢
  rw [parseLine_scheme (by decide) (by decide) (by decide) hlen, htrim]
  refine ⟨"vmess" ++ ("://" ++ blob), parsed_eq.mpr ?_⟩
  have hread := vmess_parse (e := e) hbase64 hjson htext hhost ⟨h.host, h.credential⟩
    (emittedParams_clean codecs entry) (rereadParams_caps codecs.json hcaps)
    ("vmess" ++ ("://" ++ blob))
  rw [← hblob] at hread
  rw [hread]
  simp only [he, h.rawPath, hscheme]

end Vmess

section Export

variable {codecs : Codecs} {entry : ProxyEntry}

/-- The entries whose line splits where it was joined and stays within the caps of the reader. -/
structure Exportable (codecs : Codecs) (entry : ProxyEntry) : Prop where
  line : (bytes (serialize codecs entry)).length ≤ maxLineBytes
  hostNonempty : entry.host ≠ []
  host : entry.scheme ≠ .vmess → PlainHost entry.host
  credential : entry.scheme ∉ [Scheme.ss, .vmess] →
    ('#' ∉ entry.credential ∧ '?' ∉ entry.credential) ∧
      (entry.credential ≠ [] ∨ entry.scheme = .socks5)
  caps : WithinCaps (if entry.scheme = .vmess then emittedParams codecs entry
    else (emittedParams codecs entry).map encodedParam)

/-- A shadowsocks credential without a method comes back with the default one. -/
def restoredCredential (entry : ProxyEntry) : Text :=
  if entry.scheme = .ss then SsLine.exportedCredential entry.credential else entry.credential

theorem uriSpec_of_structured (h : Structured entry) (hss : entry.scheme ≠ .ss)
    (hvmess : entry.scheme ≠ .vmess) : ∃ spec, uriSpec entry.scheme = some spec := by
  have hscheme := h.scheme
  revert hscheme hss hvmess
  cases entry.scheme <;> simp [uriSpec]

/-- An entry of a Clash, sing-box or Xray payload is read again from its exported line. -/
theorem structured_entry_survives (hbase64 : codecs.base64.RoundTrips)
    (hjson : codecs.json.RoundTripsStrings) (htext : PrintsText codecs.json)
    (h : FromPayload codecs entry) (hexport : Exportable codecs entry) :
    ∃ entry', parseLine codecs (serialize codecs entry) = .parsed entry' ∧
      entry'.scheme = entry.scheme ∧ entry'.host = entry.host ∧ entry'.port = entry.port ∧
        entry'.name = entry.name ∧ entry'.credential = restoredCredential entry := by
  have hstructured := h.structured
  have hcaps := hexport.caps
  by_cases hss : entry.scheme = .ss
  · rw [if_neg (by simp [hss])] at hcaps
    obtain ⟨rawLine, hread⟩ := ss_export hbase64 hss hstructured
      (hexport.host (by simp [hss])) hcaps hexport.line
    exact ⟨_, hread, rfl, rfl, rfl, rfl, by rw [restoredCredential, if_pos hss]⟩
  by_cases hvmess : entry.scheme = .vmess
  · rw [if_pos hvmess] at hcaps
    obtain ⟨rawLine, hread⟩ := vmess_export hbase64 hjson htext hvmess hstructured
      hexport.hostNonempty hcaps hexport.line
    exact ⟨_, hread, rfl, rfl, rfl, rfl, by rw [restoredCredential, if_neg hss]⟩
  · rw [if_neg hvmess] at hcaps
    obtain ⟨spec, hspec⟩ := uriSpec_of_structured hstructured hss hvmess
    obtain ⟨hplain, hpresent⟩ := hexport.credential (by simp [hss, hvmess])
    obtain ⟨rawLine, hread⟩ := spec_export hspec hstructured (hexport.host hvmess) hplain hpresent
      hcaps hexport.line
    exact ⟨_, hread, rfl, rfl, rfl, rfl, by rw [restoredCredential, if_neg hss]⟩

end Export

section Samples

open YamlValue

def tabulatedYaml (t : Text) (value : Yaml) : SerdeNorway where
  toStr := fun _ => none
  fromStr := fun s => if s = t then some value else none

def yamlCodecs (t : Text) (value : Yaml) : Codecs :=
  { sampleCodecs with yaml := tabulatedYaml t value }

def clashItem (fields : List (Text × Yaml)) : Yaml :=
  .map [(.str "proxies", .seq [.map (fields.map fun f => (.str f.1, f.2))])]

theorem mem_of_parsePayload {t : Text} {value : Yaml} {entry : ProxyEntry}
    (h : ((ClashParser.parsePayload (tabulatedYaml t value) t).toOption.any
      (·.entries.contains entry)) = true) : FromPayload (yamlCodecs t value) entry := by
  obtain ⟨result, hresult, hmem⟩ := (Option.any_eq_true _ _).mp h
  exact .inl ⟨t, result, toOption_eq_some.mp hresult, List.contains_iff_mem.mp hmem⟩

theorem stringCodec_printsText : PrintsText JsonText.stringCodec := by
  intro m
  simp only [JsonText.stringCodec, JsonText.stringFields_stringObject, Option.map_some,
    Option.getD_some]
  cases m <;> simp [JsonText.printObject]

def endpointItem (type : Text) (fields : List (Text × Yaml)) : Yaml :=
  clashItem (("type", .str type) :: ("server", .str "h") :: ("port", .num (.posInt 443)) :: fields)

def trojanItem : Yaml :=
  endpointItem "trojan" [("name", .str "n%20/m"), ("password", .str "p@ss:/%23"),
    ("sni", .str "a b")]

def trojanEntry : ProxyEntry where
  scheme := .trojan
  name := "n%20/m"
  host := "h"
  port := 443
  credential := "p@ss:/%23"
  params := [⟨"sni", "a b", true⟩]
  rawPath := []
  rawLine := []

theorem structured_entry_survives_sample :
    ∃ entry', parseLine (yamlCodecs "p" trojanItem) (serialize (yamlCodecs "p" trojanItem)
        trojanEntry) = .parsed entry' ∧ entry'.scheme = .trojan ∧ entry'.host = "h" ∧
      entry'.port = 443 ∧ entry'.name = "n%20/m" ∧
        entry'.credential = restoredCredential trojanEntry :=
  structured_entry_survives standard_roundTrips JsonText.stringCodec_roundTrips
    stringCodec_printsText (mem_of_parsePayload (by decide +kernel))
    ⟨by decide +kernel, by decide, fun _ => ⟨⟨by decide, by decide, by decide⟩, by simp [trojanEntry, Delimits]⟩,
      fun _ => ⟨by decide, by decide⟩, ⟨by decide +kernel, by decide +kernel, by decide +kernel⟩⟩

def ssItem : Yaml :=
  endpointItem "ss" [("name", .str "n"), ("password", .str "pw")]

def ssEntry : ProxyEntry where
  scheme := .ss
  name := "n"
  host := "h"
  port := 443
  credential := "pw"
  params := []
  rawPath := []
  rawLine := []

/-- A shadowsocks item without a cipher is exported with the default method. -/
theorem missing_cipher_is_defaulted :
    ¬∀ codecs entry, codecs.base64.RoundTrips → codecs.json.RoundTripsStrings →
      PrintsText codecs.json → FromPayload codecs entry →
        ∃ entry', parseLine codecs (serialize codecs entry) = .parsed entry' ∧
          entry'.scheme = entry.scheme ∧ entry'.host = entry.host ∧ entry'.port = entry.port ∧
            entry'.credential = entry.credential ∧ entry'.name = entry.name := by
  intro h
  have hread : (parseLine (yamlCodecs "p" ssItem) (serialize (yamlCodecs "p" ssItem) ssEntry) =
      .parsed { ssEntry with
        credential := "chacha20-ietf-poly1305:pw"
        rawLine := "ss://Y2hhY2hhMjAtaWV0Zi1wb2x5MTMwNTpwdw@h:443#n" }) := by
    decide +kernel
  obtain ⟨entry', hentry, -, -, -, hcredential, -⟩ := h (yamlCodecs "p" ssItem) ssEntry
    standard_roundTrips JsonText.stringCodec_roundTrips stringCodec_printsText
    (mem_of_parsePayload (by decide +kernel))
  obtain rfl := LineOutcome.parsed.inj (hentry.symm.trans hread)
  exact absurd hcredential (by decide)

end Samples

end StructuredExport
