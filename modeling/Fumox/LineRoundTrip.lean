import Fumox.JsonText
import Fumox.UriLines

/-!
Round trip of the URI family: a line that was read once is read again from its serialization, with
the writer's own normalisation applied to line breaks and to the characters no query may carry.
-/

namespace LineRoundTrip

open RustText PercentText DelimitedText ProxyModels PayloadGuards UriGrammar UriRoundTrip LineParser
  UriLines

section Normalisation

def exportText (t : Text) (inKey : Bool) : Text :=
  encodeQueryChars (stripLineBreaks t) inKey

def exportedParam (p : Param) : Param where
  key := exportText p.key true
  value := exportText p.value false
  known := p.known

theorem mem_stripLineBreaks {c : Char} {t : Text} (h : c ≠ ' ') :
    c ∈ stripLineBreaks t → c ∈ t := by
  intro hc
  obtain ⟨d, hd, heq⟩ := List.mem_map.mp hc
  by_cases hbreak : d = '\n' ∨ d = '\r'
  · rw [if_pos hbreak] at heq
    exact absurd heq.symm h
  · rw [if_neg hbreak] at heq
    exact heq ▸ hd

theorem not_mem_stripLineBreaks {c : Char} {t : Text} (h : c ≠ ' ') (hc : c ∉ t) :
    c ∉ stripLineBreaks t :=
  fun hmem => hc (mem_stripLineBreaks h hmem)

theorem stripLineBreaks_eq_nil {t : Text} : stripLineBreaks t = [] ↔ t = [] :=
  List.map_eq_nil_iff

theorem stripLineBreaks_head {c : Char} {t : Text} (h : c ≠ ' ')
    (hhead : (stripLineBreaks t).head? = some c) : t.head? = some c := by
  cases t with
  | nil => simp [stripLineBreaks] at hhead
  | cons d t =>
    have hd : (if d = '\n' ∨ d = '\r' then ' ' else d) = c := by simpa [stripLineBreaks] using hhead
    by_cases hbreak : d = '\n' ∨ d = '\r'
    · rw [if_pos hbreak] at hd
      exact absurd hd.symm h
    · rw [if_neg hbreak] at hd
      simp [hd]

theorem stripLineBreaks_eq_self {t : Text} (h : hasLineBreak t = false) : stripLineBreaks t = t := by
  refine (List.map_congr_left fun c hc => ?_).trans (List.map_id' t)
  rw [if_neg]
  have hplain := List.any_eq_false.mp h c hc
  simpa using hplain

/-- Text that the writer leaves alone. -/
def Verbatim (t : Text) (inKey : Bool) : Prop :=
  ∀ c ∈ t, mustEncode c inKey = false

instance (t : Text) (inKey : Bool) : Decidable (Verbatim t inKey) :=
  inferInstanceAs (Decidable (∀ c ∈ t, _))

theorem exportText_eq_self {t : Text} {inKey : Bool} (h : Verbatim t inKey) :
    exportText t inKey = t := by
  have hchar : ∀ c ∈ t, (if c = '\n' ∨ c = '\r' then ' ' else c) = c := by
    intro c hc
    rw [if_neg]
    rintro (rfl | rfl) <;> exact absurd (h _ hc) (by cases inKey <;> decide)
  have hstrip : stripLineBreaks t = t := (List.map_congr_left hchar).trans (List.map_id' t)
  rw [exportText, hstrip, encodeQueryChars_eq_self h]

theorem percent_mem_exportText {t : Text} {inKey : Bool} (h : ¬Verbatim t inKey) :
    '%' ∈ exportText t inKey := by
  simp only [Verbatim, not_forall, Bool.not_eq_false] at h
  obtain ⟨c, hc, hmust⟩ := h
  have hemitted : ∃ d ∈ stripLineBreaks t, mustEncode d inKey = true := by
    refine ⟨_, List.mem_map_of_mem hc, ?_⟩
    split_ifs
    · cases inKey <;> decide
    · exact hmust
  obtain ⟨d, hd, hmust⟩ := hemitted
  refine List.mem_flatMap.mpr ⟨d, hd, ?_⟩
  obtain ⟨b, bs, hcode⟩ := List.exists_cons_of_ne_nil (utf8EncodeChar_ne_nil d)
  simp [encodeQueryChar, hmust, hcode, percentByte]

def isKeyChar (c : Char) : Bool :=
  c.isAlphanum || c = '-' || c = '_'

theorem isKeyChar_of_mustEncode {c : Char} (h : mustEncode c true = true) :
    isKeyChar c.toLower = false := by
  have hrange : c.toNat = 38 ∨ c.toNat = 35 ∨ c.toNat = 61 ∨ c.toNat ≤ 32 ∨
      127 ≤ c.toNat ∧ c.toNat ≤ 159 := by
    simp only [mustEncode, isControl, Bool.or_eq_true, Bool.and_eq_true, decide_eq_true_eq,
      Bool.true_and] at h
    rcases h with ((((rfl | rfl) | rfl) | rfl) | h) | rfl
    · exact .inl rfl
    · exact .inr (.inl rfl)
    · decide
    · decide
    · omega
    · decide
  have hlower : c.toLower = c := by
    rw [Char.toLower, dif_neg]
    simp only [ge_iff_le, UInt32.le_iff_toNat_le]
    have hval : c.val.toNat = c.toNat := rfl
    have hA : 'A'.val.toNat = 65 := rfl
    have hZ : 'Z'.val.toNat = 90 := rfl
    omega
  rw [hlower, Bool.eq_false_iff]
  intro hkey
  simp only [isKeyChar, Char.isAlphanum, Char.isAlpha, Char.isUpper, Char.isLower, Char.isDigit,
    Bool.or_eq_true, Bool.and_eq_true, decide_eq_true_eq, UInt32.le_iff_toNat_le, ge_iff_le] at hkey
  have hval : c.val.toNat = c.toNat := rfl
  have hA : 'A'.val.toNat = 65 := rfl
  have hZ : 'Z'.val.toNat = 90 := rfl
  rcases hkey with (((hkey | hkey) | hkey) | rfl) | rfl
  · change 65 ≤ c.val.toNat ∧ c.val.toNat ≤ 90 at hkey
    omega
  · change 97 ≤ c.val.toNat ∧ c.val.toNat ≤ 122 at hkey
    omega
  · change 48 ≤ c.val.toNat ∧ c.val.toNat ≤ 57 at hkey
    omega
  · exact absurd hrange (by decide)
  · exact absurd hrange (by decide)

theorem contains_exportText {keys : List Text} (hkeys : ∀ k ∈ keys, ∀ c ∈ k, isKeyChar c = true)
    (key : Text) : keys.contains (toAsciiLowercase (exportText key true)) =
      keys.contains (toAsciiLowercase key) := by
  by_cases hverbatim : Verbatim key true
  · rw [exportText_eq_self hverbatim]
  · have hforeign : ∀ t : Text, (∃ c ∈ t, isKeyChar c = false) → keys.contains t = false := by
      rintro t ⟨c, hc, hnot⟩
      rw [List.contains_eq_mem, decide_eq_false_iff_not]
      intro hmem
      rw [hkeys t hmem c hc] at hnot
      contradiction
    have hbefore : keys.contains (toAsciiLowercase key) = false := by
      simp only [Verbatim, not_forall, Bool.not_eq_false] at hverbatim
      obtain ⟨c, hc, hmust⟩ := hverbatim
      exact hforeign _ ⟨_, List.mem_map_of_mem hc, isKeyChar_of_mustEncode hmust⟩
    have hafter : keys.contains (toAsciiLowercase (exportText key true)) = false :=
      hforeign _ ⟨_, List.mem_map_of_mem (percent_mem_exportText hverbatim), by decide⟩
    rw [hbefore, hafter]

end Normalisation

section Trimming

variable {userinfo query fragment : Option Text} {host rawPath : Text} {port : UInt16}

theorem trimEnd_decimal (a : Text) (n : ℕ) : trimEnd (a ++ ':' :: decimal n) = a ++ ':' :: decimal n := by
  rw [trimEnd_append_cons (by decide), trimEnd_eq_self]
  intro c hc
  have hdigit := isDigit_of_mem_decimal (List.mem_of_getLast? hc)
  have hrange : 48 ≤ c.toNat ∧ c.toNat ≤ 57 := by
    simpa [Char.isDigit, Char.le_def, UInt32.le_iff_toNat_le] using hdigit
  simp only [isWhitespace]
  grind

/-- Trimming a printed line reaches the query only without a fragment, and the path only without
both. -/
theorem trimEnd_printUri (hpath : ∀ c t, rawPath = c :: t → c = '/')
    (hfragment : ∀ f, fragment = some f → ∀ c ∈ f, isWhitespace c = false) :
    trimEnd (printUri userinfo host port rawPath query fragment) =
      printUri userinfo host port
        (if query = none ∧ fragment = none then trimEnd rawPath else rawPath)
        (if fragment = none then query.map trimEnd else query) fragment := by
  cases fragment with
  | some f =>
    have hf : trimEnd f = f :=
      trimEnd_eq_self fun c hc => hfragment f rfl c (List.mem_of_getLast? hc)
    simp only [printUri, fragmentText, reduceCtorEq, and_false, if_false]
    rw [trimEnd_append_cons (by decide), hf]
  | none =>
    cases query with
    | some q =>
      simp only [printUri, fragmentText, queryText, reduceCtorEq, false_and, if_false, if_true,
        List.append_nil, Option.map_some]
      exact trimEnd_append_cons (c := '?') (by decide) _ _
    | none =>
      simp only [printUri, fragmentText, queryText, and_self, if_true, List.append_nil,
        Option.map_none]
      cases rawPath with
      | nil =>
        rw [List.append_nil, ← List.append_assoc, trimEnd_decimal]
        simp [trimEnd]
      | cons c t =>
        obtain rfl := hpath c t rfl
        have hkeep : trimEnd ('/' :: t) = '/' :: trimEnd t :=
          trimEnd_append_cons (by decide) [] t
        have hassoc : ∀ r, userinfoText userinfo ++
            (hostForUri host ++ ':' :: decimal port.toNat ++ '/' :: r) =
              (userinfoText userinfo ++ (hostForUri host ++ ':' :: decimal port.toNat)) ++
                '/' :: r := by
          intro r
          simp
        rw [hkeep, hassoc, hassoc]
        exact trimEnd_append_cons (by decide) _ _

/-- The last value of a query ends in nothing that trimming would take. -/
def KeepsTail (params : List Param) : Prop :=
  ∀ p ∈ params.getLast?, ∀ c ∈ p.value.getLast?, isWhitespace c = true → mustEncode c false = true

theorem trimEnd_append_visible (a : Text) {b : Text} (hb : b ≠ [])
    (h : ∀ c ∈ b, isWhitespace c = false) : trimEnd (a ++ b) = a ++ b := by
  refine trimEnd_eq_self fun c hc => ?_
  rw [List.getLast?_append_of_ne_nil _ hb] at hc
  exact h c (List.mem_of_getLast? hc)

theorem trimEnd_encodeQueryChars {t : Text}
    (h : ∀ c ∈ t.getLast?, isWhitespace c = true → mustEncode c false = true) :
    trimEnd (encodeQueryChars t false) = encodeQueryChars t false := by
  have hhex : ∀ b, (percentByte b).all (fun c => !isWhitespace c) = true :=
    forall_byte (by decide +kernel)
  rcases List.eq_nil_or_concat t with rfl | ⟨s, c, rfl⟩
  · rfl
  · rw [List.concat_eq_append] at h ⊢
    have happend : encodeQueryChars (s ++ [c]) false =
        encodeQueryChars s false ++ encodeQueryChar false c := by simp [encodeQueryChars]
    rw [happend]
    by_cases hmust : mustEncode c false = true
    · obtain ⟨b, bs, hcode⟩ := List.exists_cons_of_ne_nil (utf8EncodeChar_ne_nil c)
      refine trimEnd_append_visible _ (by simp [encodeQueryChar, hmust, hcode, percentByte]) ?_
      intro d hd
      rw [encodeQueryChar, if_pos hmust] at hd
      obtain ⟨b, -, hb⟩ := List.mem_flatMap.mp hd
      simpa using List.all_eq_true.mp (hhex b) d hb
    · have hvisible : isWhitespace c = false := by
        by_contra hwhite
        exact hmust (h c (by simp) (by simpa using hwhite))
      rw [encodeQueryChar, if_neg hmust]
      exact trimEnd_append_visible _ (by simp) (by simpa using hvisible)

theorem trimEnd_serializePair {p : Param}
    (h : ∀ c ∈ p.value.getLast?, isWhitespace c = true → mustEncode c false = true) :
    trimEnd (serializePair p) = serializePair p := by
  unfold serializePair
  split
  · rfl
  · rw [trimEnd_append_cons (by decide), trimEnd_encodeQueryChars h]

theorem serializeQuery_concat {params : List Param} (hne : params ≠ []) (p : Param) :
    serializeQuery (params ++ [p]) = serializeQuery params ++ '&' :: serializePair p := by
  rw [serializeQuery, List.map_append]
  exact intercalate_concat (by simpa using hne) _

theorem trimEnd_serializeQuery {params : List Param} (h : KeepsTail params) :
    trimEnd (serializeQuery params) = serializeQuery params := by
  rcases List.eq_nil_or_concat params with rfl | ⟨init, p, rfl⟩
  · rfl
  · rw [List.concat_eq_append] at h ⊢
    have hp := trimEnd_serializePair (h p (by simp))
    cases init with
    | nil => simpa [serializeQuery] using hp
    | cons q init =>
      rw [serializeQuery_concat (List.cons_ne_nil q init), trimEnd_append_cons (by decide), hp]

end Trimming

section Reparse

variable {codecs : Codecs} {spec : UriSchemeSpec} {entry : ProxyEntry}

def exportedUserinfo (credential : Text) : Option Text :=
  if credential = [] then none else some credential

def printEntry (entry : ProxyEntry) : Text :=
  printUri (exportedUserinfo entry.credential) entry.host entry.port entry.rawPath
    (exportedQuery entry.params) (exportedFragment entry.name)

theorem serializeWithSpec_eq (spec : UriSchemeSpec) (entry : ProxyEntry) :
    serializeWithSpec spec entry = spec.uriPrefix ++ printEntry entry := by
  simp only [serializeWithSpec, serializeEndpoint, printEntry, printUri, exportedUserinfo]
  split_ifs <;> simp [userinfoText]

theorem parseWithSpec_printUri {userinfo query fragment : Option Text} {host rawPath : Text}
    {port : UInt16} (h : Printable userinfo host rawPath)
    (hquery : ∀ q, query = some q → '#' ∉ q)
    (hrequired : spec.credentialRequired = true → userinfo ≠ none) (rawLine : Text)
    {queryPairs : List Param} (hpairs : query.elim (.ok []) parseQuery = .ok queryPairs) :
    parseWithSpec spec (printUri userinfo host port rawPath query fragment) rawLine =
      .ok (entryOf spec { userinfo, host, port, rawPath, queryPairs, fragment } rawLine) := by
  refine parseWithSpec_eq_ok.mpr ⟨_, ?_, hrequired, rfl⟩
  rw [splitUri_print h hquery, hpairs]
  rfl

/-- The parts of an accepted entry that its line gives back. -/
structure Restorable (entry : ProxyEntry) : Prop where
  credential : entry.credential ≠ [] ∨ entry.scheme = .socks5
  unbracketed : entry.host.head? ≠ some '['
  bracketable : ':' ∈ entry.host → ']' ∉ entry.host
  caps : ∀ p ∈ entry.params, (bytes (exportText p.key true)).length ≤ maxParamBytes ∧
    (bytes (exportText p.value false)).length ≤ maxParamBytes
  tail : entry.name = [] → KeepsTail entry.params

theorem KeepsTail.sanitize {params : List Param} (h : KeepsTail params) :
    KeepsTail (params.map sanitizeParam) := by
  intro q hq c hc hwhite
  rw [List.getLast?_map] at hq
  obtain ⟨p, hp, rfl⟩ := Option.map_eq_some_iff.mp hq
  simp only [sanitizeParam, stripLineBreaks, List.getLast?_map, Option.mem_def] at hc
  obtain ⟨d, hd, rfl⟩ := Option.map_eq_some_iff.mp hc
  by_cases hbreak : d = '\n' ∨ d = '\r'
  · rw [if_pos hbreak]
    decide
  · rw [if_neg hbreak] at hwhite ⊢
    exact h p hp d hd hwhite

theorem parseQuery_exportedQuery {params : List Param}
    (h : WithinCaps (params.map encodedParam)) :
    (exportedQuery params).elim (.ok []) parseQuery = .ok (params.map encodedParam) := by
  unfold exportedQuery
  by_cases hempty : params = []
  · simp [hempty]
  · rw [if_neg hempty]
    exact (parseQuery_serializeQuery hempty).mpr ⟨rfl, h⟩

theorem exportedFragment_read (name : Text) :
    ((exportedFragment name).map percentDecode).getD [] = name := by
  unfold exportedFragment
  by_cases hempty : name = []
  · simp [hempty]
  · simp [hempty, percentDecode_encodeFragment]

theorem exportedFragment_visible {name f : Text} (h : exportedFragment name = some f) :
    ∀ c ∈ f, isWhitespace c = false := by
  unfold exportedFragment at h
  split_ifs at h
  obtain rfl := Option.some.inj h
  exact fun c hc => (encodeFragment_ascii c hc).1

theorem exportedFragment_eq_none {name : Text} : exportedFragment name = none ↔ name = [] := by
  unfold exportedFragment
  split <;> simp [*]

theorem exportedQuery_hash {params : List Param} {q : Text} (h : exportedQuery params = some q) :
    '#' ∉ q := by
  unfold exportedQuery at h
  split_ifs at h
  obtain rfl := Option.some.inj h
  exact hash_not_mem_serializeQuery params

theorem exportedUserinfo_read (credential : Text) :
    (exportedUserinfo credential).getD [] = credential := by
  unfold exportedUserinfo
  by_cases hempty : credential = []
  · simp [hempty]
  · simp [hempty]

theorem printable_sanitized {parts : UriParts} (hparts : Accepted parts)
    (hhead : parts.host.head? ≠ some '[') (hbracket : ':' ∈ parts.host → ']' ∉ parts.host) :
    Printable (exportedUserinfo (stripLineBreaks (parts.userinfo.getD [])))
      (stripLineBreaks parts.host) (stripLineBreaks parts.rawPath) where
  userinfo u hu := by
    unfold exportedUserinfo at hu
    split_ifs at hu with hempty
    obtain rfl := Option.some.inj hu
    cases huser : parts.userinfo with
    | none => simp [stripLineBreaks]
    | some v =>
      have hplain := hparts.userinfo v huser
      exact ⟨not_mem_stripLineBreaks (by decide) hplain.1,
        not_mem_stripLineBreaks (by decide) hplain.2⟩
  safeHost :=
    { nonempty := fun h => hparts.hostNonempty (stripLineBreaks_eq_nil.mp h)
      unbracketed := fun h => hhead (stripLineBreaks_head (by decide) h)
      bracketable := fun h => not_mem_stripLineBreaks (by decide)
        (hbracket (mem_stripLineBreaks (by decide) h)) }
  hostPlain c hc hdelim := by
    have hspace : c ≠ ' ' := by rcases hdelim with rfl | rfl | rfl | rfl <;> decide
    exact hparts.hostPlain c (mem_stripLineBreaks hspace hc) hdelim
  path c t hct := by
    cases hpath : parts.rawPath with
    | nil => simp [hpath, stripLineBreaks] at hct
    | cons d r =>
      obtain rfl := hparts.path d r hpath
      simp only [hpath, stripLineBreaks, List.map_cons, List.cons.injEq] at hct
      exact hct.1.symm
  pathPlain := ⟨not_mem_stripLineBreaks (by decide) hparts.pathPlain.1,
    not_mem_stripLineBreaks (by decide) hparts.pathPlain.2.1,
    not_mem_stripLineBreaks (by decide) hparts.pathPlain.2.2⟩

theorem markKnown_exported {keys : List Text} (hkeys : ∀ k ∈ keys, ∀ c ∈ k, isKeyChar c = true)
    (queryPairs : List Param) :
    markKnown (((markKnown queryPairs keys).map sanitizeParam).map encodedParam) keys =
      (markKnown queryPairs keys).map exportedParam := by
  simp only [markKnown, List.map_map, List.map_inj_left, Function.comp_apply, exportedParam,
    Param.mk.injEq]
  intro p _
  exact ⟨rfl, rfl, contains_exportText hkeys p.key⟩

/-- Trimming a printed line whose query keeps its tail reaches at most the path. -/
theorem exists_trimmed_printUri {userinfo : Option Text} {host rawPath name : Text}
    {params : List Param} (h : Printable userinfo host rawPath) (port : UInt16)
    (htail : name = [] → KeepsTail params) :
    ∃ path, Printable userinfo host path ∧
      trimEnd (printUri userinfo host port rawPath (exportedQuery params) (exportedFragment name)) =
        printUri userinfo host port path (exportedQuery params) (exportedFragment name) := by
  have hquery : (if exportedFragment name = none then (exportedQuery params).map trimEnd
      else exportedQuery params) = exportedQuery params := by
    by_cases hname : name = []
    · rw [if_pos (exportedFragment_eq_none.mpr hname)]
      unfold exportedQuery
      split_ifs
      · rfl
      · exact congrArg some (trimEnd_serializeQuery (htail hname))
    · exact if_neg fun hnone => hname (exportedFragment_eq_none.mp hnone)
  refine ⟨_, ?_, (trimEnd_printUri h.path fun f => exportedFragment_visible).trans
    (congrArg (printUri userinfo host port _ · (exportedFragment name)) hquery)⟩
  split_ifs
  · exact h.trimPath
  · exact h

theorem reparse (hkeys : ∀ k ∈ spec.knownKeys, ∀ c ∈ k, isKeyChar c = true)
    (hsocks : spec.credentialRequired = true → spec.scheme ≠ .socks5) {rest line : Text}
    (hparse : parseWithSpec spec rest line = .ok entry) (h : Restorable entry) (rawLine : Text) :
    ∃ rawPath, parseWithSpec spec (trimEnd (printEntry (sanitizeForOutput entry))) rawLine =
      .ok { entry with
        host := stripLineBreaks entry.host
        credential := stripLineBreaks entry.credential
        params := entry.params.map exportedParam
        rawPath, rawLine } := by
  obtain ⟨parts, hsplit, -, rfl⟩ := parseWithSpec_eq_ok.mp hparse
  have hparts := splitUri_eq_ok hsplit
  have hprint := printable_sanitized hparts h.unbracketed h.bracketable
  set params := markKnown parts.queryPairs spec.knownKeys with hparams
  set name := (parts.fragment.map percentDecode).getD [] with hname
  set credential := stripLineBreaks (parts.userinfo.getD []) with hcredential
  have hcaps : WithinCaps ((params.map sanitizeParam).map encodedParam) := by
    have hsize := h.caps
    refine ⟨by simpa [hparams, markKnown] using hparts.caps.count, ?_, ?_⟩ <;>
      simp only [List.map_map, List.forall_mem_map]
    · exact fun p hp => (hsize p hp).1
    · exact fun p hp => (hsize p hp).2
  have hrequired : spec.credentialRequired = true → exportedUserinfo credential ≠ none := by
    intro hreq
    have hne : parts.userinfo.getD [] ≠ [] :=
      h.credential.resolve_right fun hscheme => hsocks hreq hscheme
    unfold exportedUserinfo
    rw [if_neg fun hempty => hne (stripLineBreaks_eq_nil.mp hempty)]
    simp
  obtain ⟨rawPath, hprint', htrim⟩ := exists_trimmed_printUri hprint parts.port fun hname =>
    (h.tail hname).sanitize
  have hbody : trimEnd (printEntry (sanitizeForOutput (entryOf spec parts line))) =
      printUri (exportedUserinfo credential) (stripLineBreaks parts.host) parts.port rawPath
        (exportedQuery (params.map sanitizeParam)) (exportedFragment name) := htrim
  refine ⟨rawPath, ?_⟩
  rw [hbody, parseWithSpec_printUri hprint' (fun q => exportedQuery_hash) hrequired rawLine
    (parseQuery_exportedQuery hcaps)]
  simp only [entryOf, exportedFragment_read, exportedUserinfo_read, hparams,
    markKnown_exported hkeys]
  rfl

end Reparse

section RoundTrip

variable {codecs : Codecs} {line : Text} {entry : ProxyEntry}

/-- A naive entry carries no second transport parameter. -/
def SingleTransport (entry : ProxyEntry) : Prop :=
  entry.scheme = .naive → ∀ p ∈ entry.params.tail, p.key ≠ transportKey

/-- The parts that two readings of one proxy agree on, up to the writer's normalisation: line
breaks become spaces, and a query percent-encodes what it may not carry. -/
structure SameReading (entry entry' : ProxyEntry) : Prop where
  scheme : entry'.scheme = entry.scheme
  host : entry'.host = stripLineBreaks entry.host
  port : entry'.port = entry.port
  credential : entry'.credential = stripLineBreaks entry.credential
  name : entry'.name = entry.name
  params : entry'.params = entry.params.map exportedParam

theorem canonicalForm_of_rawLine (h : entry.rawLine ≠ []) :
    canonicalForm codecs.yaml entry = entry := by
  rw [canonicalForm, if_neg h]

theorem uriSpec_keys {s : Scheme} {spec : UriSchemeSpec} (h : uriSpec s = some spec) :
    ∀ k ∈ spec.knownKeys, ∀ c ∈ k, isKeyChar c = true := by
  cases s <;> simp only [uriSpec, Option.some.injEq, reduceCtorEq] at h <;> subst h <;> decide

theorem spec_round_trip {spec : UriSchemeSpec} {rest : Text} {rawLine : Text}
    (hspec : uriSpec entry.scheme = some spec) (hparse : parseWithSpec spec rest rawLine = .ok entry)
    (hraw : rawLine ≠ []) (h : Restorable entry)
    (hlen : (bytes (serialize codecs entry)).length ≤ maxLineBytes) :
    ∃ entry', parseLine codecs (serialize codecs entry) = .parsed entry' ∧
      SameReading entry entry' := by
  have hentry : entry.rawLine = rawLine := by
    obtain ⟨parts, -, -, rfl⟩ := parseWithSpec_eq_ok.mp hparse
    rfl
  have hline : serialize codecs entry =
      entry.scheme.asStr ++ ("://" ++ printEntry (sanitizeForOutput entry)) := by
    rw [serialize_spec hspec, canonicalForm_of_rawLine (hentry ▸ hraw), serializeWithSpec_eq,
      (uriSpec_scheme hspec).2, List.append_assoc]
  have hsocks : spec.credentialRequired = true → spec.scheme ≠ .socks5 := by
    rw [(uriSpec_scheme hspec).1]
    exact (uriSpec_required hspec).mp
  rw [hline] at hlen ⊢
  rw [parseLine_spec hspec hlen]
  obtain ⟨rawPath, hread⟩ := reparse (uriSpec_keys hspec) hsocks hparse h
    (entry.scheme.asStr ++ ("://" ++ trimEnd (printEntry (sanitizeForOutput entry))))
  exact ⟨_, parsed_eq.mpr hread, ⟨rfl, rfl, rfl, rfl, rfl, rfl⟩⟩

theorem serializeNaive_eq {inner : ProxyEntry} {transport : Text}
    (hsingle : ∀ p ∈ inner.params, p.key ≠ transportKey) :
    serializeNaive (withTransport transport inner) =
      "naive+" ++ transport ++ ("://" ++ printEntry inner) := by
  have hfind : (withTransport transport inner).param transportKey = some transport := by
    simp [ProxyEntry.param, withTransport]
  have hfilter : (withTransport transport inner).params.filter (fun p => p.key ≠ transportKey) =
      inner.params := by
    rw [withTransport, List.filter_cons_of_neg (by simp), List.filter_eq_self]
    exact fun p hp => by simpa using hsingle p hp
  have hstripped : { withTransport transport inner with params := inner.params } = inner := rfl
  dsimp only [serializeNaive]
  rw [hfind, hfilter, hstripped, serializeWithSpec_eq, List.drop_left, List.append_assoc]
  rfl

theorem strip_eq_of_plain {t u : Text} (h : stripLineBreaks t = u) (hspace : ' ' ∉ u) : t = u := by
  rw [← h, eq_comm]
  refine (List.map_congr_left fun c hc => ?_).trans (List.map_id' t)
  rw [if_neg]
  intro hbreak
  refine hspace (h ▸ List.mem_map.mpr ⟨c, hc, ?_⟩)
  rw [if_pos hbreak]

theorem naive_round_trip {inner : ProxyEntry} {rest rawLine transport : Text}
    (htransport : transport = "https" ∨ transport = "quic")
    (hparse : parseWithSpec naiveSpec rest rawLine = .ok inner) (hraw : rawLine ≠ [])
    (hentry : entry = withTransport transport inner)
    (h : Restorable entry) (hsingle : SingleTransport entry)
    (hlen : (bytes (serialize codecs entry)).length ≤ maxLineBytes) :
    ∃ entry', parseLine codecs (serialize codecs entry) = .parsed entry' ∧
      SameReading entry entry' := by
  subst hentry
  obtain ⟨hscheme, hline⟩ : inner.scheme = .naive ∧ inner.rawLine = rawLine := by
    obtain ⟨parts, -, -, rfl⟩ := parseWithSpec_eq_ok.mp hparse
    exact ⟨rfl, rfl⟩
  have hinner : Restorable inner := by
    refine ⟨h.credential, h.unbracketed, h.bracketable,
      fun p hp => h.caps p (List.mem_cons_of_mem _ hp), fun hname p hp => h.tail hname p ?_⟩
    cases hparams : inner.params with
    | nil => simp [hparams] at hp
    | cons q params => simpa [withTransport, hparams, List.getLast?_cons_cons] using hp
  have hsynthetic : sanitizeParam ⟨transportKey, transport, true⟩ = ⟨transportKey, transport, true⟩ ∧
      exportedParam ⟨transportKey, transport, true⟩ = ⟨transportKey, transport, true⟩ := by
    rcases htransport with rfl | rfl <;> decide +kernel
  have hplain : ∀ p ∈ (sanitizeForOutput inner).params, p.key ≠ transportKey := by
    intro p hp
    obtain ⟨q, hq, rfl⟩ := List.mem_map.mp hp
    exact fun hkey => hsingle hscheme q hq (strip_eq_of_plain hkey (by decide))
  have hsanitized : sanitizeForOutput (withTransport transport inner) =
      withTransport transport (sanitizeForOutput inner) := by
    simp only [sanitizeForOutput, withTransport, List.map_cons, hsynthetic.1]
  have hprinted : serialize codecs (withTransport transport inner) =
      "naive+" ++ transport ++ ("://" ++ printEntry (sanitizeForOutput inner)) := by
    have hraw' : (withTransport transport inner).rawLine ≠ [] := hline ▸ hraw
    rw [@serialize_naive codecs (withTransport transport inner) hscheme,
      canonicalForm_of_rawLine hraw', hsanitized, serializeNaive_eq hplain]
  rw [hprinted] at hlen ⊢
  rw [parseLine_naive htransport hlen, parseNaive, if_pos htransport]
  obtain ⟨rawPath, hread⟩ := reparse (by decide) (by decide) hparse hinner
    ("naive+" ++ transport ++ ("://" ++ trimEnd (printEntry (sanitizeForOutput inner))))
  rw [hread]
  refine ⟨_, rfl, ⟨rfl, rfl, rfl, rfl, rfl, ?_⟩⟩
  rw [withTransport, withTransport, List.map_cons, hsynthetic.2]

/-- A line of the URI family that was accepted is accepted again from its serialization. -/
theorem uri_family_round_trip (hparse : parseLine codecs line = .parsed entry)
    (hss : entry.scheme ≠ .ss) (hvmess : entry.scheme ≠ .vmess) (h : Restorable entry)
    (hsingle : SingleTransport entry)
    (hlen : (bytes (serialize codecs entry)).length ≤ maxLineBytes) :
    ∃ entry', parseLine codecs (serialize codecs entry) = .parsed entry' ∧
      SameReading entry entry' := by
  obtain ⟨scheme, rest, hraw, hscheme⟩ := parseLine_eq_parsed hparse
  rcases parseScheme_eq_parsed hscheme hss hvmess with
    ⟨spec, hspec, hok⟩ | ⟨transport, inner, htransport, hok, hentry⟩
  · exact spec_round_trip hspec hok hraw h hlen
  · exact naive_round_trip htransport hok hraw hentry h hsingle hlen

/-- Codecs for concrete lines of the URI family, which use none of them. -/
def sampleCodecs : Codecs :=
  ⟨Base64Text.standard, JsonText.stringCodec, ⟨fun _ => none, fun _ => none⟩⟩

def sampleLine : Text := "hy2://p%40ss@[2001:db8::1]:443/?obfs=&&insecure=1#n%20m"

def sampleParsed : ProxyEntry where
  scheme := .hysteria2
  name := "n m"
  host := "2001:db8::1"
  port := 443
  credential := "p%40ss"
  params := [⟨"obfs", [], true⟩, ⟨[], [], false⟩, ⟨"insecure", "1", true⟩]
  rawPath := "/"
  rawLine := sampleLine

theorem uri_family_round_trip_sample :
    ∃ entry', parseLine sampleCodecs (serialize sampleCodecs sampleParsed) = .parsed entry' ∧
      SameReading sampleParsed entry' :=
  uri_family_round_trip (show parseLine sampleCodecs sampleLine = .parsed sampleParsed by
      decide +kernel) (by decide) (by decide)
    ⟨by decide, by decide, by decide, by decide +kernel, fun h => absurd h (by decide)⟩
    (fun h => absurd h (by decide)) (by decide +kernel)

/-- A space in a parameter value comes back percent-encoded. -/
theorem parameter_space_is_encoded :
    ¬∀ codecs line entry, parseLine codecs line = .parsed entry → entry.scheme ≠ .ss →
      entry.scheme ≠ .vmess → (bytes (serialize codecs entry)).length ≤ maxLineBytes →
        ∃ entry', parseLine codecs (serialize codecs entry) = .parsed entry' ∧
          entry'.scheme = entry.scheme ∧ entry'.host = entry.host ∧ entry'.port = entry.port ∧
            entry'.credential = entry.credential ∧ entry'.name = entry.name ∧
              entry'.params = entry.params := by
  intro h
  have hread : ∀ entry', parseLine sampleCodecs "vless://u@h:443?path=a%20b" = .parsed entry' →
      entry'.params = [⟨"path", "a%20b", true⟩] := by
    intro entry' hentry
    have hline : parseLine sampleCodecs "vless://u@h:443?path=a%20b" = .parsed
        ⟨.vless, [], "h", 443, "u", [⟨"path", "a%20b", true⟩], [], "vless://u@h:443?path=a%20b"⟩ := by
      decide +kernel
    obtain rfl := LineOutcome.parsed.inj (hentry.symm.trans hline)
    rfl
  obtain ⟨entry', hentry, -, -, -, -, -, hparams⟩ := h sampleCodecs "vless://u@h:443?path=a b"
    ⟨.vless, [], "h", 443, "u", [⟨"path", "a b", true⟩], [], "vless://u@h:443?path=a b"⟩
    (by decide +kernel) (by decide) (by decide) (by decide +kernel)
  rw [hread entry' hentry] at hparams
  exact absurd hparams (by decide)

end RoundTrip

end LineRoundTrip
