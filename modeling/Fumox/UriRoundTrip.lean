import Fumox.DelimitedText
import Fumox.UriGrammar

/-!
Printing and splitting are inverse on the URI grammar.  What a split accepts satisfies the side
conditions under which printing is undone by splitting.
-/

namespace UriRoundTrip

open RustText PercentText DelimitedText ProxyModels UriGrammar

section Encoding

theorem mustEncode_percentByte (inKey : Bool) :
    ∀ b, ∀ c ∈ percentByte b, mustEncode c inKey = false := by
  have h : ∀ b, (percentByte b).all (fun c => !mustEncode c true && !mustEncode c false) = true :=
    forall_byte (by decide +kernel)
  intro b c hc
  have hboth := List.all_eq_true.mp (h b) c hc
  cases inKey <;> simp_all

theorem mustEncode_encodeQueryChars {raw : Text} {inKey : Bool} {c : Char}
    (hc : c ∈ encodeQueryChars raw inKey) : mustEncode c inKey = false := by
  obtain ⟨ch, -, hch⟩ := List.mem_flatMap.mp hc
  unfold encodeQueryChar at hch
  split at hch
  · obtain ⟨b, -, hb⟩ := List.mem_flatMap.mp hch
    exact mustEncode_percentByte inKey b c hb
  next hplain =>
    rw [List.mem_singleton] at hch
    subst hch
    simpa using hplain

theorem not_mem_encodeQueryChars {raw : Text} {inKey : Bool} {c : Char}
    (hc : mustEncode c inKey = true) : c ∉ encodeQueryChars raw inKey := by
  intro hmem
  rw [mustEncode_encodeQueryChars hmem] at hc
  contradiction

theorem encodeQueryChars_eq_self {raw : Text} {inKey : Bool}
    (h : ∀ c ∈ raw, mustEncode c inKey = false) : encodeQueryChars raw inKey = raw := by
  induction raw with
  | nil => rfl
  | cons c raw ih =>
    have hc : encodeQueryChar inKey c = [c] := by simp [encodeQueryChar, h c List.mem_cons_self]
    have hrest := ih fun d hd => h d (List.mem_cons_of_mem c hd)
    rw [encodeQueryChars, List.flatMap_cons, hc]
    exact congrArg (c :: ·) hrest

theorem percentBytes_encodeFragmentByte (b : UInt8) (rest : Text) :
    percentBytes (encodeFragmentByte b ++ rest) = b :: percentBytes rest := by
  have hplain : ∀ b, isUnreserved b = true → Char.ofNat b.toNat ≠ '%' ∧
      String.utf8EncodeChar (Char.ofNat b.toNat) = [b] := forall_byte (by decide +kernel)
  unfold encodeFragmentByte
  split
  next hb =>
    obtain ⟨hne, hcode⟩ := hplain b hb
    rw [List.singleton_append, percentBytes_cons hne, hcode]
    rfl
  next => exact percentBytes_percentByte b rest

theorem percentDecode_encodeFragment (name : Text) : percentDecode (encodeFragment name) = name := by
  have hbytes : ∀ bs : List UInt8, percentBytes (bs.flatMap encodeFragmentByte) = bs := by
    intro bs
    induction bs with
    | nil => rfl
    | cons b bs ih => rw [List.flatMap_cons, percentBytes_encodeFragmentByte, ih]
  rw [percentDecode, encodeFragment, hbytes, fromUtf8Lossy_bytes]

theorem encodeFragment_ascii {name : Text} :
    ∀ c ∈ encodeFragment name, isWhitespace c = false ∧ c ≠ '#' := by
  have hbyte : ∀ b, (encodeFragmentByte b).all (fun c => !isWhitespace c && c != '#') = true :=
    forall_byte (by decide +kernel)
  intro c hc
  obtain ⟨b, -, hb⟩ := List.mem_flatMap.mp hc
  simpa using List.all_eq_true.mp (hbyte b) c hb

end Encoding

section Query

/-- A parameter as it reads after one trip through a query. -/
def encodedParam (p : Param) : Param :=
  ⟨encodeQueryChars p.key true, encodeQueryChars p.value false, false⟩

structure WithinCaps (params : List Param) : Prop where
  count : params.length ≤ maxQueryParams
  key : ∀ p ∈ params, (bytes p.key).length ≤ maxParamBytes
  value : ∀ p ∈ params, (bytes p.value).length ≤ maxParamBytes

theorem checkParamSize_eq_ok {key value : Text} : checkParamSize key value = .ok () ↔
    (bytes key).length ≤ maxParamBytes ∧ (bytes value).length ≤ maxParamBytes := by
  unfold checkParamSize
  split <;> simp <;> omega

/-- The parameter that one piece of a query spells. -/
def readPair (pair : Text) : Param :=
  ⟨((splitOnce '=' pair).getD (pair, [])).1, ((splitOnce '=' pair).getD (pair, [])).2, false⟩

theorem parsePair_eq_ok {pair : Text} {p : Param} : parsePair pair = .ok p ↔
    p = readPair pair ∧
      (bytes p.key).length ≤ maxParamBytes ∧ (bytes p.value).length ≤ maxParamBytes := by
  simp only [parsePair]
  constructor
  · intro h
    obtain ⟨_, hsize, heq⟩ := bind_eq_ok.mp h
    obtain rfl := Except.ok.inj heq
    exact ⟨rfl, checkParamSize_eq_ok.mp hsize⟩
  · rintro ⟨rfl, hsize⟩
    rw [bind_eq_ok]
    exact ⟨(), checkParamSize_eq_ok.mpr hsize, rfl⟩

theorem readPair_append {key value : Text} (h : '=' ∉ key) :
    readPair (key ++ '=' :: value) = ⟨key, value, false⟩ := by
  rw [readPair, splitOnce_append h]
  rfl

theorem readPair_serializePair (p : Param) : readPair (serializePair p) = encodedParam p := by
  unfold serializePair
  split
  next h => simp [readPair, encodedParam, h.1, h.2, splitOnce, encodeQueryChars]
  next => exact readPair_append (not_mem_encodeQueryChars (by decide))

theorem serializePair_separator (p : Param) : '&' ∉ serializePair p ∧ '#' ∉ serializePair p := by
  have hand : ∀ raw inKey, '&' ∉ encodeQueryChars raw inKey :=
    fun raw inKey => not_mem_encodeQueryChars rfl
  have hhash : ∀ raw inKey, '#' ∉ encodeQueryChars raw inKey :=
    fun raw inKey => not_mem_encodeQueryChars rfl
  unfold serializePair
  split
  · simp
  · simp [hand, hhash]

theorem hash_not_mem_serializeQuery (params : List Param) : '#' ∉ serializeQuery params := by
  intro h
  rcases mem_intercalate h with h | ⟨piece, hpiece, hmem⟩
  · simp at h
  · obtain ⟨p, -, rfl⟩ := List.mem_map.mp hpiece
    exact (serializePair_separator p).2 hmem

/-- Reading joined pieces gives what they spell, as long as it is within the caps. -/
theorem parseQuery_intercalate {pieces : List Text} {ps : List Param} (hne : pieces ≠ [])
    (hsep : ∀ piece ∈ pieces, '&' ∉ piece) :
    parseQuery (['&'].intercalate pieces) = .ok ps ↔
      ps = pieces.map readPair ∧ WithinCaps (pieces.map readPair) := by
  rw [parseQuery, List.splitOn_intercalate '&' hsep hne]
  split
  next hcount =>
    refine ⟨fun h => by simp at h, fun ⟨_, hcaps⟩ => ?_⟩
    have hlength := hcaps.count
    simp only [List.length_map] at hlength
    omega
  next hcount =>
    rw [mapM_eq_ok]
    simp only [parsePair_eq_ok]
    constructor
    · intro hall
      have heq : ps = pieces.map readPair := by
        clear hne hsep hcount
        induction hall with
        | nil => rfl
        | cons hp _ ih => rw [List.map_cons, ← hp.1, ← ih]
      subst heq
      rw [List.forall₂_map_right_iff, List.forall₂_same] at hall
      refine ⟨rfl, by simpa using hcount, ?_, ?_⟩ <;> rw [List.forall_mem_map]
      · exact fun piece hpiece => (hall piece hpiece).2.1
      · exact fun piece hpiece => (hall piece hpiece).2.2
    · rintro ⟨rfl, hcaps⟩
      rw [List.forall₂_map_right_iff, List.forall₂_same]
      intro piece hpiece
      have hmem := List.mem_map_of_mem (f := readPair) hpiece
      exact ⟨rfl, hcaps.key _ hmem, hcaps.value _ hmem⟩

/-- Reading an emitted query gives the encoded parameters, as long as they are within the caps. -/
theorem parseQuery_serializeQuery {params ps : List Param} (h : params ≠ []) :
    parseQuery (serializeQuery params) = .ok ps ↔
      ps = params.map encodedParam ∧ WithinCaps (params.map encodedParam) := by
  have hpieces : (params.map serializePair).map readPair = params.map encodedParam := by
    simp [readPair_serializePair]
  rw [← hpieces]
  refine parseQuery_intercalate (by simpa using h) ?_
  intro piece hpiece
  obtain ⟨p, -, rfl⟩ := List.mem_map.mp hpiece
  exact (serializePair_separator p).1

/-- The last value of a list loses the white space at its end. -/
def trimLast (params : List Param) : List Param :=
  params.dropLast ++ (params.getLast?.map fun p => { p with value := trimEnd p.value }).toList

theorem trimLast_concat (params : List Param) (p : Param) :
    trimLast (params ++ [p]) = params ++ [{ p with value := trimEnd p.value }] := by
  simp [trimLast]

theorem readPair_trimEnd_serializePair (p : Param) : readPair (trimEnd (serializePair p)) =
    { encodedParam p with value := trimEnd (encodedParam p).value } := by
  unfold serializePair
  split
  next h => simp [readPair, encodedParam, h.1, h.2, splitOnce, encodeQueryChars, trimEnd]
  next =>
    rw [trimEnd_append_cons (by decide), readPair_append (not_mem_encodeQueryChars (by decide))]
    rfl

theorem WithinCaps.trimLast {params : List Param} (h : WithinCaps params) :
    WithinCaps (trimLast params) := by
  rcases List.eq_nil_or_concat params with rfl | ⟨init, p, rfl⟩
  · exact h
  · rw [List.concat_eq_append] at h ⊢
    rw [trimLast_concat]
    have htrim : (bytes (trimEnd p.value)).length ≤ (bytes p.value).length :=
      bytes_trimEnd_le p.value
    have hmem : p ∈ init ++ [p] := by simp
    refine ⟨by simpa using h.count, ?_, ?_⟩ <;> intro q hq <;>
      rcases List.mem_append.mp hq with hq | hq
    · exact h.key q (List.mem_append_left _ hq)
    · obtain rfl := List.mem_singleton.mp hq
      exact h.key p hmem
    · exact h.value q (List.mem_append_left _ hq)
    · obtain rfl := List.mem_singleton.mp hq
      exact htrim.trans (h.value p hmem)

theorem parseQuery_trimEnd_serializeQuery {params : List Param} (h : params ≠ [])
    (hcaps : WithinCaps (params.map encodedParam)) :
    parseQuery (trimEnd (serializeQuery params)) = .ok (trimLast (params.map encodedParam)) := by
  rcases List.eq_nil_or_concat params with rfl | ⟨init, p, rfl⟩
  · exact absurd rfl h
  rw [List.concat_eq_append] at hcaps ⊢
  set pieces := init.map serializePair ++ [trimEnd (serializePair p)] with hpieces
  have htext : trimEnd (serializeQuery (init ++ [p])) = ['&'].intercalate pieces := by
    cases init with
    | nil => simp [serializeQuery, hpieces]
    | cons q init =>
      have hne : (q :: init).map serializePair ≠ [] := by simp
      rw [serializeQuery, List.map_append, List.map_singleton, intercalate_concat hne, hpieces,
        intercalate_concat hne, trimEnd_append_cons (by decide)]
  have hread : pieces.map readPair = trimLast ((init ++ [p]).map encodedParam) := by
    have happend : (init ++ [p]).map encodedParam = init.map encodedParam ++ [encodedParam p] := by
      simp
    rw [happend, trimLast_concat]
    simp [hpieces, readPair_serializePair, readPair_trimEnd_serializePair]
  have hsep : ∀ piece ∈ pieces, '&' ∉ piece := by
    intro piece hpiece
    rcases List.mem_append.mp hpiece with hpiece | hpiece
    · obtain ⟨q, -, rfl⟩ := List.mem_map.mp hpiece
      exact (serializePair_separator q).1
    · obtain rfl := List.mem_singleton.mp hpiece
      exact fun hc => (serializePair_separator p).1 (trimEnd_sublist _ _ hc)
  rw [htext, parseQuery_intercalate (by simp [hpieces]) hsep, hread]
  exact ⟨rfl, hcaps.trimLast⟩

theorem parseQuery_within {query : Text} {ps : List Param} (h : parseQuery query = .ok ps) :
    WithinCaps ps := by
  dsimp only [parseQuery] at h
  split at h
  · simp at h
  next hcount =>
    have hsize : ∀ p ∈ ps, (bytes p.key).length ≤ maxParamBytes ∧
        (bytes p.value).length ≤ maxParamBytes := by
      intro p hp
      obtain ⟨pair, -, hpair⟩ := exists_of_mem_mapM h hp
      exact (parsePair_eq_ok.mp hpair).2
    refine ⟨?_, fun p hp => (hsize p hp).1, fun p hp => (hsize p hp).2⟩
    rw [← (mapM_eq_ok.mp h).length_eq]
    omega

theorem withinCaps_nil : WithinCaps [] :=
  ⟨Nat.zero_le _, by simp, by simp⟩

theorem queryPairs_caps {query : Option Text} {pairs : List Param}
    (h : query.elim (.ok []) parseQuery = .ok pairs) : WithinCaps pairs := by
  cases query with
  | none =>
    obtain rfl := Except.ok.inj h
    exact withinCaps_nil
  | some query => exact parseQuery_within h

end Query

section Authority

variable {host rawPath rest : Text} {port : UInt16}

structure SafeHost (host : Text) : Prop where
  nonempty : host ≠ []
  unbracketed : host.head? ≠ some '['
  bracketable : ':' ∈ host → ']' ∉ host

theorem not_mem_decimal {c : Char} (hc : c.isDigit = false) (n : ℕ) : c ∉ decimal n := by
  intro h
  rw [isDigit_of_mem_decimal h] at hc
  contradiction

theorem splitHostport_print (h : SafeHost host) (n : ℕ) :
    splitHostport (hostForUri host ++ ':' :: decimal n) = .ok (host, decimal n) := by
  obtain ⟨c, t, rfl⟩ := List.exists_cons_of_ne_nil h.nonempty
  have hc : c ≠ '[' := fun hc => h.unbracketed (by simp [hc])
  unfold hostForUri
  by_cases hcolon : ':' ∈ c :: t
  · rw [if_pos ⟨hcolon, h.unbracketed⟩]
    have hsplit : splitOnce ']' ((c :: t) ++ ']' :: ':' :: decimal n) =
        some (c :: t, ':' :: decimal n) := splitOnce_append (h.bracketable hcolon)
    have htext : '[' :: (c :: t ++ [']']) ++ ':' :: decimal n =
        '[' :: ((c :: t) ++ ']' :: ':' :: decimal n) := by simp
    rw [htext]
    simp only [splitHostport, hsplit]
  · rw [if_neg fun hboth => hcolon hboth.1]
    have hsplit : rsplitOnce ':' ((c :: t) ++ ':' :: decimal n) = some (c :: t, decimal n) :=
      rsplitOnce_append (not_mem_decimal (by decide) n)
    rw [List.cons_append] at hsplit ⊢
    unfold splitHostport
    split
    · contradiction
    next hbracket =>
      exact absurd (List.cons_eq_cons.mp hbracket).1 hc
    · rw [hsplit]

theorem parseHostport_print (h : SafeHost host) (port : UInt16) :
    parseHostport (hostForUri host ++ ':' :: decimal port.toNat) = .ok (host, port) := by
  unfold parseHostport
  rw [splitHostport_print h, bind_eq_ok]
  refine ⟨_, rfl, ?_⟩
  simp only [h.nonempty, if_false, parseU16_decimal]
  rfl

theorem splitHostport_eq_ok {s host port : Text} (h : splitHostport s = .ok (host, port)) :
    (∀ c ∈ host, c ∈ s) ∧ ∀ t, s = '[' :: t → ']' ∉ host ∧ ']' ∈ s := by
  unfold splitHostport at h
  split at h
  · simp at h
  next stripped =>
    split at h
    · simp at h
    next host' port' hsplit =>
      obtain ⟨rfl, rfl⟩ := Prod.mk.inj (Except.ok.inj h)
      obtain ⟨rfl, hnot⟩ := splitOnce_eq_some hsplit
      exact ⟨fun c hc => by simp [hc], fun _ _ => ⟨hnot, by simp⟩⟩
    · simp at h
  next hbracket =>
    split at h
    · simp at h
    next hostport hsplit =>
      obtain rfl := Except.ok.inj h
      obtain ⟨rfl, -⟩ := rsplitOnce_eq_some hsplit
      exact ⟨fun c hc => by simp [hc], fun t ht => absurd ht (hbracket t)⟩

theorem parseHostport_eq_ok {s : Text} (h : parseHostport s = .ok (host, port)) :
    host ≠ [] ∧ ∃ portStr, splitHostport s = .ok (host, portStr) ∧ parseU16 portStr = some port := by
  obtain ⟨⟨host', portStr⟩, hsplit, hrest⟩ := bind_eq_ok.mp h
  by_cases hempty : host' = []
  · simp only [hempty, if_true] at hrest
    cases hrest
  · simp only [hempty, if_false] at hrest
    cases hport : parseU16 portStr with
    | none =>
      simp only [hport] at hrest
      cases hrest
    | some p =>
      simp only [hport] at hrest
      obtain ⟨rfl, rfl⟩ := Prod.mk.inj (Except.ok.inj hrest)
      exact ⟨hempty, portStr, hsplit, hport⟩

/-- Printed next to a port, an unsafe host is never read back with the bracket it had. -/
theorem safeHost_of_parseHostport {n : ℕ} {read : Text}
    (h : parseHostport (hostForUri host ++ ':' :: decimal n) = .ok (read, port))
    (hnil : host = [] → read = []) (hkept : ']' ∈ host → ']' ∈ read) : SafeHost host := by
  obtain ⟨hempty, portStr, hsplit, -⟩ := parseHostport_eq_ok h
  have hbracket := (splitHostport_eq_ok hsplit).2
  refine ⟨fun hhost => hempty (hnil hhost), ?_, ?_⟩
  · intro hhead
    obtain ⟨t, rfl⟩ : ∃ t, host = '[' :: t := List.head?_eq_some_iff.mp hhead
    rw [hostForUri, if_neg fun hboth => hboth.2 hhead] at hbracket
    obtain ⟨hnot, hmem⟩ := hbracket (t ++ ':' :: decimal n) rfl
    have hdigits := not_mem_decimal (c := ']') (by decide) n
    have hclosed : ']' ∈ '[' :: t := by
      simp only [List.cons_append, List.mem_cons, List.mem_append, hdigits, Char.reduceEq,
        false_or, or_false] at hmem ⊢
      exact hmem
    exact hnot (hkept hclosed)
  · intro hcolon hclosed
    by_cases hhead : host.head? = some '['
    · obtain ⟨t, rfl⟩ : ∃ t, host = '[' :: t := List.head?_eq_some_iff.mp hhead
      rw [hostForUri, if_neg fun hboth => hboth.2 hhead] at hbracket
      exact (hbracket _ rfl).1 (hkept hclosed)
    · rw [hostForUri, if_pos ⟨hcolon, hhead⟩] at hbracket
      exact (hbracket _ rfl).1 (hkept hclosed)

end Authority

section Uri

variable {userinfo query fragment : Option Text} {host rawPath : Text} {port : UInt16}

def userinfoText : Option Text → Text
  | none => []
  | some userinfo => userinfo ++ ['@']

/-- The characters that end the parts of a line in front of the query. -/
def Delimits (c : Char) : Prop :=
  c = '#' ∨ c = '?' ∨ c = '@' ∨ c = '/'

/-- Components that a printed line gives back. -/
structure Printable (userinfo : Option Text) (host rawPath : Text) : Prop where
  userinfo : ∀ u, userinfo = some u → '#' ∉ u ∧ '?' ∉ u
  safeHost : SafeHost host
  hostPlain : ∀ c ∈ host, ¬Delimits c
  path : ∀ c t, rawPath = c :: t → c = '/'
  pathPlain : '#' ∉ rawPath ∧ '?' ∉ rawPath ∧ '@' ∉ rawPath

/-- The parts on both sides of a host, without a delimiter out of place. -/
structure PlainEnds (userinfo : Option Text) (rawPath : Text) : Prop where
  userinfo : ∀ u, userinfo = some u → '#' ∉ u ∧ '?' ∉ u
  path : ∀ c t, rawPath = c :: t → c = '/'
  pathPlain : '#' ∉ rawPath ∧ '?' ∉ rawPath ∧ '@' ∉ rawPath

theorem Printable.ends {userinfo : Option Text} {host rawPath : Text}
    (h : Printable userinfo host rawPath) : PlainEnds userinfo rawPath :=
  ⟨h.userinfo, h.path, h.pathPlain⟩

theorem PlainEnds.trimPath {userinfo : Option Text} {rawPath : Text}
    (h : PlainEnds userinfo rawPath) : PlainEnds userinfo (trimEnd rawPath) where
  userinfo := h.userinfo
  path c t hct := by
    cases rawPath with
    | nil => simp [trimEnd] at hct
    | cons d r =>
      obtain rfl := h.path d r rfl
      have hkeep : trimEnd ('/' :: r) = '/' :: trimEnd r :=
        trimEnd_append_cons (by decide) [] r
      rw [hkeep] at hct
      exact (List.cons_eq_cons.mp hct).1.symm
  pathPlain := ⟨fun hc => h.pathPlain.1 (trimEnd_sublist _ _ hc),
    fun hc => h.pathPlain.2.1 (trimEnd_sublist _ _ hc),
    fun hc => h.pathPlain.2.2 (trimEnd_sublist _ _ hc)⟩

theorem PlainEnds.printable {userinfo : Option Text} {host rawPath : Text}
    (h : PlainEnds userinfo rawPath) (hsafe : SafeHost host) (hplain : ∀ c ∈ host, ¬Delimits c) :
    Printable userinfo host rawPath :=
  ⟨h.userinfo, hsafe, hplain, h.path, h.pathPlain⟩

theorem Printable.trimPath {userinfo : Option Text} {host rawPath : Text}
    (h : Printable userinfo host rawPath) : Printable userinfo host (trimEnd rawPath) :=
  h.ends.trimPath.printable h.safeHost h.hostPlain

theorem splitOptional_append {c : Char} {a b : Text} (h : c ∉ a) :
    splitOptional c (a ++ c :: b) = (a, some b) := by
  rw [splitOptional, splitOnce_append h]

theorem splitOptional_plain {c : Char} {a : Text} (h : c ∉ a) : splitOptional c a = (a, none) := by
  rw [splitOptional, splitOnce_eq_none h]

theorem splitFragment_print {a : Text} (h : '#' ∉ a) :
    splitFragment (a ++ fragmentText fragment) = (a, fragment) := by
  cases fragment with
  | none =>
    rw [fragmentText, List.append_nil]
    exact splitOptional_plain h
  | some f => exact splitOptional_append h

theorem splitQuery_print {a : Text} (h : '?' ∉ a) :
    splitQuery (a ++ queryText query) = (a, query) := by
  cases query with
  | none =>
    rw [queryText, List.append_nil]
    exact splitOptional_plain h
  | some q => exact splitOptional_append h

theorem splitUserinfo_print {rest : Text} (h : '@' ∉ rest) :
    splitUserinfo (userinfoText userinfo ++ rest) = (userinfo, rest) := by
  unfold splitUserinfo
  cases userinfo with
  | none => simp [userinfoText, rsplitOnce_eq_none h]
  | some u => simp [userinfoText, rsplitOnce_append h]

theorem splitPath_print {a : Text} (h : '/' ∉ a) (hpath : ∀ c t, rawPath = c :: t → c = '/') :
    splitPath (a ++ rawPath) = (a, rawPath) := by
  unfold splitPath
  cases rawPath with
  | nil => simp [splitOnce_eq_none h]
  | cons c t =>
    obtain rfl := hpath c t rfl
    rw [splitOnce_append h]

theorem mem_hostForUri {c : Char} (h : c ∈ hostForUri host) : c ∈ host ∨ c = '[' ∨ c = ']' := by
  unfold hostForUri at h
  split at h
  · simp at h
    tauto
  · exact .inl h

theorem hostport_plain (h : ∀ c ∈ host, ¬Delimits c) (n : ℕ) {c : Char} (hc : Delimits c) :
    c ∉ hostForUri host ++ ':' :: decimal n := by
  intro hmem
  have hdigit : c.isDigit = false := by rcases hc with rfl | rfl | rfl | rfl <;> decide
  rcases List.mem_append.mp hmem with hmem | hmem
  · rcases mem_hostForUri hmem with hmem | rfl | rfl
    · exact h c hmem hc
    · simp [Delimits] at hc
    · simp [Delimits] at hc
  · rcases List.mem_cons.mp hmem with rfl | hmem
    · simp [Delimits] at hc
    · exact not_mem_decimal hdigit n hmem

/-- The printed image of an endpoint with any query and fragment. -/
def printUri (userinfo : Option Text) (host : Text) (port : UInt16) (rawPath : Text)
    (query fragment : Option Text) : Text :=
  userinfoText userinfo ++ (hostForUri host ++ ':' :: decimal port.toNat ++ rawPath) ++
    queryText query ++ fragmentText fragment

/-- The printed image up to the query. -/
def printAuthority (userinfo : Option Text) (host : Text) (port : UInt16) (rawPath : Text) : Text :=
  userinfoText userinfo ++ (hostForUri host ++ ':' :: decimal port.toNat ++ rawPath)

theorem hostport_delimits (h : Printable userinfo host rawPath) {c : Char} (hc : Delimits c) :
    c ∉ hostForUri host ++ ':' :: decimal port.toNat :=
  hostport_plain h.hostPlain port.toNat hc

section Ends

variable (h : PlainEnds userinfo rawPath) (hplain : ∀ c ∈ host, ¬Delimits c)

include h hplain

theorem not_mem_printAuthority {c : Char} (hc : c = '#' ∨ c = '?') :
    c ∉ printAuthority userinfo host port rawPath := by
  have huser : c ∉ userinfoText userinfo := by
    cases hu : userinfo with
    | none => simp [userinfoText]
    | some u =>
      have hplain := h.userinfo u hu
      rcases hc with rfl | rfl <;> simp [userinfoText, hplain]
  have hpath : c ∉ rawPath := by
    rcases hc with rfl | rfl
    · exact h.pathPlain.1
    · exact h.pathPlain.2.1
  have hdelim : Delimits c := by rcases hc with rfl | rfl <;> simp [Delimits]
  rw [printAuthority, List.mem_append, List.mem_append]
  exact not_or.mpr ⟨huser, not_or.mpr ⟨hostport_plain hplain port.toNat hdelim, hpath⟩⟩

theorem splitFragment_printUri (hquery : ∀ q, query = some q → '#' ∉ q) :
    splitFragment (printUri userinfo host port rawPath query fragment) =
      (printAuthority userinfo host port rawPath ++ queryText query, fragment) := by
  refine splitFragment_print (List.not_mem_append (not_mem_printAuthority h hplain (.inl rfl)) ?_)
  cases hquery' : query with
  | none => simp [queryText]
  | some q => simp [queryText, hquery q hquery']

theorem splitQuery_printAuthority :
    splitQuery (printAuthority userinfo host port rawPath ++ queryText query) =
      (printAuthority userinfo host port rawPath, query) :=
  splitQuery_print (not_mem_printAuthority h hplain (.inr rfl))

theorem splitUserinfo_printAuthority :
    splitUserinfo (printAuthority userinfo host port rawPath) =
      (userinfo, hostForUri host ++ ':' :: decimal port.toNat ++ rawPath) :=
  splitUserinfo_print
    (List.not_mem_append (hostport_plain hplain _ (by simp [Delimits])) h.pathPlain.2.2)

theorem splitPath_printAuthority :
    splitPath (hostForUri host ++ ':' :: decimal port.toNat ++ rawPath) =
      (hostForUri host ++ ':' :: decimal port.toNat, rawPath) :=
  splitPath_print (hostport_plain hplain _ (by simp [Delimits])) h.path

/-- A printed line is split where it was joined; only its host and port can still be refused. -/
theorem splitUri_printUri (hquery : ∀ q, query = some q → '#' ∉ q) :
    splitUri (printUri userinfo host port rawPath query fragment) = do
      let read ← parseHostport (hostForUri host ++ ':' :: decimal port.toNat)
      let queryPairs ← query.elim (.ok []) parseQuery
      return { userinfo, host := read.1, port := read.2, rawPath, queryPairs, fragment } := by
  unfold splitUri
  simp only [splitFragment_printUri h hplain hquery, splitQuery_printAuthority h hplain,
    splitUserinfo_printAuthority h hplain, splitPath_printAuthority h hplain]

end Ends

/-- Splitting a printed line gives its components, whatever its query holds. -/
theorem splitUri_print (h : Printable userinfo host rawPath)
    (hquery : ∀ q, query = some q → '#' ∉ q) :
    splitUri (printUri userinfo host port rawPath query fragment) =
      (query.elim (.ok []) parseQuery).map fun queryPairs =>
        { userinfo, host, port, rawPath, queryPairs, fragment } := by
  rw [splitUri_printUri h.ends h.hostPlain hquery, parseHostport_print h.safeHost port]
  cases query.elim (.ok []) parseQuery <;> rfl

theorem splitOptional_spec {c : Char} {t a : Text} {b : Option Text}
    (h : splitOptional c t = (a, b)) : c ∉ a ∧ ∀ d ∈ a, d ∈ t := by
  unfold splitOptional at h
  split at h
  next before after hsplit =>
    obtain ⟨rfl, -⟩ := Prod.mk.inj h
    obtain ⟨rfl, hnot⟩ := splitOnce_eq_some hsplit
    exact ⟨hnot, fun d hd => List.mem_append_left _ hd⟩
  next hsplit =>
    obtain ⟨rfl, -⟩ := Prod.mk.inj h
    exact ⟨splitOnce_eq_none_iff.mp hsplit, fun d hd => hd⟩

theorem splitUserinfo_spec {t a : Text} {u : Option Text} (h : splitUserinfo t = (u, a)) :
    t = userinfoText u ++ a ∧ '@' ∉ a := by
  unfold splitUserinfo at h
  split at h
  next before after hsplit =>
    obtain ⟨rfl, rfl⟩ := Prod.mk.inj h
    obtain ⟨rfl, hnot⟩ := rsplitOnce_eq_some hsplit
    exact ⟨by simp [userinfoText], hnot⟩
  next hsplit =>
    obtain ⟨rfl, rfl⟩ := Prod.mk.inj h
    have hnot := splitOnce_eq_none_iff.mp (Option.map_eq_none_iff.mp hsplit)
    exact ⟨rfl, by simpa using hnot⟩

theorem splitPath_spec {t a p : Text} (h : splitPath t = (a, p)) :
    t = a ++ p ∧ '/' ∉ a ∧ ∀ c r, p = c :: r → c = '/' := by
  unfold splitPath at h
  split at h
  next before after hsplit =>
    obtain ⟨rfl, rfl⟩ := Prod.mk.inj h
    obtain ⟨rfl, hnot⟩ := splitOnce_eq_some hsplit
    exact ⟨rfl, hnot, fun c r hcr => (List.cons_eq_cons.mp hcr).1.symm⟩
  next hsplit =>
    obtain ⟨rfl, rfl⟩ := Prod.mk.inj h
    exact ⟨by simp, splitOnce_eq_none_iff.mp hsplit, by simp⟩

structure Accepted (parts : UriParts) : Prop where
  userinfo : ∀ u, parts.userinfo = some u → '#' ∉ u ∧ '?' ∉ u
  hostNonempty : parts.host ≠ []
  hostPlain : ∀ c ∈ parts.host, ¬Delimits c
  path : ∀ c t, parts.rawPath = c :: t → c = '/'
  pathPlain : '#' ∉ parts.rawPath ∧ '?' ∉ parts.rawPath ∧ '@' ∉ parts.rawPath
  caps : WithinCaps parts.queryPairs

theorem splitUri_eq_ok {rest : Text} {parts : UriParts} (h : splitUri rest = .ok parts) :
    Accepted parts := by
  unfold splitUri at h
  rcases hf : splitFragment rest with ⟨beforeFrag, fragment⟩
  rcases hq : splitQuery beforeFrag with ⟨beforeQuery, query⟩
  rcases hu : splitUserinfo beforeQuery with ⟨userinfo, hostportPath⟩
  rcases hp : splitPath hostportPath with ⟨hostport, rawPath⟩
  simp only [hf, hq, hu, hp] at h
  obtain ⟨⟨host, port⟩, hhost, hrest⟩ := bind_eq_ok.mp h
  obtain ⟨queryPairs, hpairs, hparts⟩ := bind_eq_ok.mp hrest
  obtain rfl := Except.ok.inj hparts
  obtain ⟨hhash, -⟩ := splitOptional_spec hf
  obtain ⟨hmark, hsub⟩ := splitOptional_spec hq
  obtain ⟨rfl, hat⟩ := splitUserinfo_spec hu
  obtain ⟨rfl, hslash, hpath⟩ := splitPath_spec hp
  obtain ⟨hempty, portStr, hsplit, -⟩ := parseHostport_eq_ok hhost
  have hhostport := (splitHostport_eq_ok hsplit).1
  have hhash' : '#' ∉ userinfoText userinfo ++ (hostport ++ rawPath) := fun hc => hhash (hsub _ hc)
  simp only [List.mem_append, not_or] at hhash' hmark hat
  constructor
  · rintro u rfl
    simp only [userinfoText, List.mem_append, not_or] at hhash' hmark
    exact ⟨hhash'.1.1, hmark.1.1⟩
  · exact hempty
  · rintro c hc (rfl | rfl | rfl | rfl)
    · exact hhash'.2.1 (hhostport _ hc)
    · exact hmark.2.1 (hhostport _ hc)
    · exact hat.1 (hhostport _ hc)
    · exact hslash (hhostport _ hc)
  · exact hpath
  · exact ⟨hhash'.2.2, hmark.2.2, hat.2⟩
  · cases query with
    | none =>
      obtain rfl := Except.ok.inj hpairs
      exact ⟨by simp, by simp, by simp⟩
    | some q => exact parseQuery_within hpairs

def entryOf (spec : UriSchemeSpec) (parts : UriParts) (rawLine : Text) : ProxyEntry where
  scheme := spec.scheme
  name := (parts.fragment.map percentDecode).getD []
  host := parts.host
  port := parts.port
  credential := parts.userinfo.getD []
  params := markKnown parts.queryPairs spec.knownKeys
  rawPath := parts.rawPath
  rawLine := rawLine

theorem parseWithSpec_eq_ok {spec : UriSchemeSpec} {rest rawLine : Text} {entry : ProxyEntry} :
    parseWithSpec spec rest rawLine = .ok entry ↔
      ∃ parts, splitUri rest = .ok parts ∧
        (spec.credentialRequired = true → parts.userinfo ≠ none) ∧
          entry = entryOf spec parts rawLine := by
  unfold parseWithSpec
  rw [bind_eq_ok]
  refine exists_congr fun parts => and_congr_right fun _ => ?_
  cases hu : parts.userinfo with
  | some u =>
    have hentry : entryOf spec parts rawLine =
        { entryOf spec parts rawLine with credential := u } := by simp [entryOf, hu]
    rw [hentry]
    constructor
    · intro h
      exact ⟨by simp, (Except.ok.inj h).symm⟩
    · rintro ⟨-, rfl⟩
      rfl
  | none =>
    have hentry : entryOf spec parts rawLine =
        { entryOf spec parts rawLine with credential := [] } := by simp [entryOf, hu]
    rw [hentry]
    by_cases hrequired : spec.credentialRequired = true
    · simp only [hrequired, if_true]
      constructor
      · intro h
        cases h
      · rintro ⟨h, -⟩
        exact absurd rfl (h trivial)
    · simp only [hrequired]
      constructor
      · intro h
        exact ⟨by simp, (Except.ok.inj h).symm⟩
      · rintro ⟨-, rfl⟩
        rfl

end Uri

end UriRoundTrip
