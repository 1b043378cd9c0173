import Mathlib
import Fumox.StructuredExport
import Fumox.WellFormedEntries

/-!
Round trip of vmess lines.  The regenerated fields of the entry and its parameters share one JSON
object; which parameters come back is computed exactly.
-/

namespace VmessRoundTrip

open RustText PercentText DelimitedText ProxyModels PayloadGuards UriGrammar UriRoundTrip Base64Text
  JsonValue LineParser UriLines LineRoundTrip SsRoundTrip StructuredExport WellFormedEntries
open SsLine hiding parse serialize
open VmessLine hiding parse serialize

def pair (p : Param) : Text × Text :=
  (p.key, p.value)

section Object

variable {json : SerdeJson} {object : List (Text × Text)} {entry : ProxyEntry}

theorem foldl_copyParam (params : List Param) (object : List (Text × Text)) :
    params.foldl copyParam object =
      insertAll object ((params.filter fun p => !isOwnKey p.key).map pair) := by
  induction params generalizing object with
  | nil => rfl
  | cons p params ih =>
    rw [List.foldl_cons, ih]
    unfold copyParam
    by_cases hown : isOwnKey p.key = true
    · rw [if_pos hown, List.filter_cons_of_neg (by simp [hown])]
    · rw [if_neg hown, List.filter_cons_of_pos (by simp [hown])]
      rfl

theorem isOwnKey_version : isOwnKey ['v'] = true := by decide

theorem isOwnKey_ownFields {f : Text × Text} (h : f ∈ versionField entry ++ endpointFields entry) :
    isOwnKey f.1 = true := by
  rcases List.mem_append.mp h with hversion | hendpoint
  · rcases versionField_cases entry with hnone | ⟨p, -, -, hsome⟩
    · simp [hnone] at hversion
    · rw [hsome, List.mem_singleton] at hversion
      subst hversion
      exact isOwnKey_version
  · exact isOwnKey_of_mem (List.mem_cons_of_mem _
      (List.mem_map_of_mem hendpoint : f.1 ∈ (endpointFields entry).map Prod.fst))

theorem exportedObject_eq (h : (entry.params.map Param.key).Nodup) :
    exportedObject entry = versionField entry ++ endpointFields entry ++
      (entry.params.filter fun p => !isOwnKey p.key).map pair := by
  rw [exportedObject, foldl_copyParam]
  apply insertAll_eq_append
  have hkeys : ((entry.params.filter fun p => !isOwnKey p.key).map pair).map Prod.fst =
      (entry.params.filter fun p => !isOwnKey p.key).map Param.key := by
    rw [List.map_map]
    rfl
  rw [DistinctKeys, List.map_append, List.nodup_append]
  refine ⟨distinctKeys_ownFields entry, ?_, ?_⟩
  · rw [hkeys]
    exact (List.filter_sublist.map Param.key).nodup h
  · rintro key hown key' hcopied rfl
    obtain ⟨f, hf, rfl⟩ := List.mem_map.mp hown
    rw [hkeys] at hcopied
    obtain ⟨p, hp, heq⟩ := List.mem_map.mp hcopied
    have hforeign := (List.mem_filter.mp hp).2
    rw [heq, isOwnKey_ownFields hf] at hforeign
    contradiction

theorem versionFirst_eq_self {own rest : List Param} (hown : ∀ p ∈ own, p.key = ['v'])
    (hrest : ∀ p ∈ rest, p.key ≠ ['v']) : versionFirst (own ++ rest) = own ++ rest := by
  have hin : (own ++ rest).filter (fun p => p.key == ['v']) = own := by
    rw [List.filter_append, List.filter_eq_self.mpr fun p hp => by simpa using hown p hp,
      List.filter_eq_nil_iff.mpr fun p hp => by simpa using hrest p hp, List.append_nil]
  have hout : (own ++ rest).filter (fun p => p.key != ['v']) = rest := by
    rw [List.filter_append, List.filter_eq_nil_iff.mpr fun p hp => by simpa using hown p hp,
      List.filter_eq_self.mpr fun p hp => by simpa using hrest p hp, List.nil_append]
  rw [versionFirst, hin, hout]

/-- The reread parameters are the version, under its own name, and the parameters that are not
spelled like a field of the entry. -/
theorem rereadParams_eq (h : (entry.params.map Param.key).Nodup) :
    (rereadParams json entry).map pair =
      versionField entry ++ (entry.params.filter fun p => !isOwnKey p.key).map pair := by
  set copied := (entry.params.filter fun p => !isOwnKey p.key).map pair with hcopied
  have hforeign : ∀ f ∈ copied, isOwnKey f.1 = false := by
    intro f hf
    obtain ⟨p, hp, rfl⟩ := List.mem_map.mp hf
    exact (Bool.not_eq_true' _).mp (List.mem_filter.mp hp).2
  have hversion : ∀ f ∈ versionField entry, f.1 = ['v'] := by
    intro f hf
    rcases versionField_cases entry with hnone | ⟨p, -, -, hsome⟩
    · simp [hnone] at hf
    · rw [hsome, List.mem_singleton] at hf
      rw [hf]
  have hfilter : (exportedObject entry).filter (fun f => !consumedFields.contains f.1) =
      versionField entry ++ copied := by
    have hkeep : (versionField entry).filter (fun f => !consumedFields.contains f.1) =
        versionField entry := by
      refine List.filter_eq_self.mpr fun f hf => ?_
      rw [hversion f hf]
      decide
    have hdrop : (endpointFields entry).filter (fun f => !consumedFields.contains f.1) = [] := rfl
    have hrest : copied.filter (fun f => !consumedFields.contains f.1) = copied := by
      refine List.filter_eq_self.mpr fun f hf => ?_
      by_contra hconsumed
      have hmem : f.1 ∈ consumedFields := by simpa using hconsumed
      have hown := isOwnKey_of_mem (List.mem_cons_of_mem _ hmem)
      rw [hforeign f hf] at hown
      contradiction
    rw [exportedObject_eq h, List.filter_append, List.filter_append, hkeep, hdrop, hrest,
      List.append_nil]
  set read : Text × Text → Param := fun f => fieldParam json (f.1, Json.str f.2) with hread
  have hparams : rereadParams json entry =
      versionFirst ((versionField entry).map read ++ copied.map read) := by
    rw [rereadParams, objectParams, List.filter_map, List.map_map, ← List.map_append, ← hfilter]
    rfl
  have hpair : ∀ fields : List (Text × Text), (fields.map read).map pair = fields := by
    intro fields
    rw [List.map_map]
    exact List.map_id' fields
  rw [hparams, versionFirst_eq_self, List.map_append, hpair, hpair]
  · intro p hp
    obtain ⟨f, hf, rfl⟩ := List.mem_map.mp hp
    exact hversion f hf
  · intro p hp
    obtain ⟨f, hf, rfl⟩ := List.mem_map.mp hp
    intro (heq : f.1 = ['v'])
    have hown := hforeign f hf
    rw [heq, isOwnKey_version] at hown
    contradiction

end Object

section RoundTrip

variable {codecs : Codecs} {line : Text} {entry : ProxyEntry}

theorem keys_objectParams_nodup {json : SerdeJson} {object : List (Text × Json)}
    (h : DistinctKeys object) : ((objectParams json object).map Param.key).Nodup := by
  have hfields : (((object.filter fun f => !consumedFields.contains f.1).map
      (fieldParam json)).map Param.key).Nodup := by
    rw [List.map_map]
    exact (List.filter_sublist.map Prod.fst).nodup h
  exact ((List.filter_append_perm (fun p : Param => p.key == ['v']) _).map Param.key).nodup_iff.mpr
    hfields

structure AcceptedVmess (entry : ProxyEntry) (rawLine : Text) : Prop where
  wellFormed : WellFormed entry
  distinct : (entry.params.map Param.key).Nodup
  clean : ∀ p ∈ entry.params, hasLineBreak p.value = false
  scheme : entry.scheme = .vmess
  rawPath : entry.rawPath = []
  rawLine : entry.rawLine = rawLine

theorem vmess_parse_eq_ok (hdistinct : codecs.json.DistinctObjects) {rest rawLine : Text}
    (h : VmessLine.parse codecs.base64 codecs.json rest rawLine = .ok entry) :
    AcceptedVmess entry rawLine := by
  have hwell := wellFormed_vmess h
  unfold VmessLine.parse at h
  rcases splitFragment rest with ⟨b64, fragment⟩
  simp only at h
  obtain ⟨_, -, h⟩ := bind_eq_ok.mp h
  obtain ⟨payload, -, h⟩ := bind_eq_ok.mp h
  obtain ⟨value, hvalue, h⟩ := bind_eq_ok.mp h
  obtain ⟨object, hobject, h⟩ := bind_eq_ok.mp h
  iterate 7
    obtain ⟨_, -, h⟩ := bind_eq_ok.mp h
  obtain ⟨_, hclean, h⟩ := bind_eq_ok.mp h
  obtain ⟨_, -, h⟩ := bind_eq_ok.mp h
  obtain rfl := Except.ok.inj h
  have hkeys : DistinctKeys object := by
    obtain ⟨t, -, hread⟩ := Option.bind_eq_some_iff.mp (elim_eq_ok.mp hvalue)
    cases value with
    | obj fields =>
      obtain rfl := Option.some.inj (elim_eq_ok.mp hobject)
      exact hdistinct t fields hread
    | _ => cases elim_eq_ok.mp hobject
  refine ⟨hwell, keys_objectParams_nodup hkeys, ?_, rfl, rfl, rfl⟩
  exact fun p hp => rejectLineBreaks_eq_ok.mp (forM_eq_ok.mp hclean p hp)

/-- The parameters of a vmess entry that its line gives back: the version under its own name, then
the parameters that are not spelled like a field of the entry. -/
def keptFields (entry : ProxyEntry) : List (Text × Text) :=
  versionField entry ++
    (entry.params.filter fun p => !isOwnKey p.key).map fun p => (stripLineBreaks p.key, p.value)

theorem bytes_length_stripLineBreaks (t : Text) :
    (bytes (stripLineBreaks t)).length = (bytes t).length := by
  induction t with
  | nil => rfl
  | cons c t ih =>
    have hcons : stripLineBreaks (c :: t) =
        (if c = '\n' ∨ c = '\r' then ' ' else c) :: stripLineBreaks t := rfl
    have hchar : (String.utf8EncodeChar (if c = '\n' ∨ c = '\r' then ' ' else c)).length =
        (String.utf8EncodeChar c).length := by
      split_ifs with hbreak
      · rcases hbreak with rfl | rfl <;> rfl
      · rfl
    rw [hcons, bytes_cons, bytes_cons, List.length_append, List.length_append, ih, hchar]

theorem eqIgnoreAsciiCase_stripLineBreaks {word : Text}
    (hword : ∀ c ∈ toAsciiLowercase word, c ≠ ' ' ∧ c ≠ '\n' ∧ c ≠ '\r') (key : Text) :
    eqIgnoreAsciiCase (stripLineBreaks key) word = eqIgnoreAsciiCase key word := by
  cases hbreak : hasLineBreak key with
  | false => rw [stripLineBreaks_eq_self hbreak]
  | true =>
    obtain ⟨c, hc, hline⟩ := List.any_eq_true.mp hbreak
    have hcases : c = '\n' ∨ c = '\r' := by simpa using hline
    have hspace : ' ' ∈ stripLineBreaks key := List.mem_map.mpr ⟨c, hc, if_pos hcases⟩
    have hkept : ∀ d t, d ∈ t → d.toLower = d → d ∈ toAsciiLowercase t := fun d t hd hlower =>
      List.mem_map.mpr ⟨d, hd, hlower⟩
    have hbefore : eqIgnoreAsciiCase key word = false := by
      refine beq_false_of_ne fun heq => ?_
      have hmem := hkept c key hc (by rcases hcases with rfl | rfl <;> decide)
      rw [heq] at hmem
      rcases hcases with rfl | rfl
      · exact (hword _ hmem).2.1 rfl
      · exact (hword _ hmem).2.2 rfl
    have hafter : eqIgnoreAsciiCase (stripLineBreaks key) word = false := by
      refine beq_false_of_ne fun heq => ?_
      have hmem := hkept ' ' _ hspace (by decide)
      rw [heq] at hmem
      exact (hword _ hmem).1 rfl
    rw [hbefore, hafter]

theorem isOwnKey_stripLineBreaks (key : Text) : isOwnKey (stripLineBreaks key) = isOwnKey key := by
  simp (disch := decide) only [isOwnKey, consumedFields, List.any_cons, List.any_nil,
    eqIgnoreAsciiCase_stripLineBreaks]

theorem versionField_sanitize (hclean : ∀ p ∈ entry.params, hasLineBreak p.value = false) :
    versionField (sanitizeForOutput entry) = versionField entry := by
  have hfind : (sanitizeForOutput entry).paramIgnoreCase "v" = entry.paramIgnoreCase "v" := by
    unfold ProxyEntry.paramIgnoreCase
    have hkeys : (fun p => eqIgnoreAsciiCase p.key "v") ∘ sanitizeParam =
        fun p : Param => eqIgnoreAsciiCase p.key "v" := by
      funext p
      exact eqIgnoreAsciiCase_stripLineBreaks (by decide) p.key
    rw [sanitizeForOutput, List.find?_map, hkeys, Option.map_map]
    cases hp : entry.params.find? fun p => eqIgnoreAsciiCase p.key "v" with
    | none => rfl
    | some p =>
      exact congrArg some (stripLineBreaks_eq_self (hclean p (List.mem_of_find?_eq_some hp)))
  rw [versionField, versionField, hfind]

theorem keptFields_sanitize (hclean : ∀ p ∈ entry.params, hasLineBreak p.value = false) :
    versionField (sanitizeForOutput entry) ++
        ((sanitizeForOutput entry).params.filter fun p => !isOwnKey p.key).map pair =
      keptFields entry := by
  have hkeys : (fun p : Param => !isOwnKey p.key) ∘ sanitizeParam = fun p => !isOwnKey p.key := by
    funext p
    exact congrArg (!·) (isOwnKey_stripLineBreaks p.key)
  rw [versionField_sanitize hclean, keptFields, sanitizeForOutput, List.filter_map, hkeys,
    List.map_map]
  congr 1
  refine List.map_congr_left fun p hp => ?_
  have hvalue := hclean p (List.mem_of_mem_filter hp)
  simp [pair, sanitizeParam, stripLineBreaks_eq_self hvalue]

/-- A vmess line that was accepted is accepted again from its serialization, with the fields of the
entry as they were and the parameters that the emitted object has room for. -/
theorem vmess_round_trip (hbase64 : codecs.base64.RoundTrips)
    (hjson : codecs.json.RoundTripsStrings) (hdistinct : codecs.json.DistinctObjects)
    (htext : PrintsText codecs.json) (hparse : parseLine codecs line = .parsed entry)
    (hvmess : entry.scheme = .vmess)
    (hkeys : ∀ p ∈ entry.params, ∀ q ∈ entry.params,
      stripLineBreaks p.key = stripLineBreaks q.key → p.key = q.key)
    (hlen : (bytes (serialize codecs entry)).length ≤ maxLineBytes) :
    ∃ entry', parseLine codecs (serialize codecs entry) = .parsed entry' ∧
      entry'.scheme = entry.scheme ∧ entry'.host = entry.host ∧ entry'.port = entry.port ∧
        entry'.credential = entry.credential ∧ entry'.name = entry.name ∧
          entry'.params.map (fun p => (p.key, p.value)) = keptFields entry := by
  obtain ⟨scheme, rest, hraw, hscheme⟩ := parseLine_eq_parsed hparse
  have h := vmess_parse_eq_ok hdistinct (parseScheme_eq_parsed_vmess hscheme hvmess)
  set e := sanitizeForOutput entry with he
  have hhost : e.host = entry.host := stripLineBreaks_eq_self h.wellFormed.hostUnbroken
  have hcredential : e.credential = entry.credential :=
    stripLineBreaks_eq_self h.wellFormed.credentialUnbroken
  set blob := codecs.base64.encode (bytes (codecs.json.toStr (stringObject (exportedObject e))))
    with hblob
  have hline : serialize codecs entry = "vmess" ++ ("://" ++ blob) := by
    dsimp only [serialize]
    rw [canonicalForm_of_rawLine (h.rawLine ▸ hraw), ← he, show e.scheme = .vmess from hvmess]
    rfl
  have hclean : ∀ p ∈ e.params, hasLineBreak p.value = false := by
    intro p hp
    obtain ⟨q, -, rfl⟩ := List.mem_map.mp hp
    exact hasLineBreak_stripLineBreaks q.value
  have hcaps : WithinCaps e.params := by
    have hcaps := h.wellFormed.caps
    refine ⟨by simpa [he, sanitizeForOutput] using hcaps.count, ?_, ?_⟩ <;> intro p hp <;>
      obtain ⟨q, hq, rfl⟩ := List.mem_map.mp hp
    · exact (bytes_length_stripLineBreaks q.key).le.trans (hcaps.key q hq)
    · exact (bytes_length_stripLineBreaks q.value).le.trans (hcaps.value q hq)
  have hnodup : (e.params.map Param.key).Nodup := by
    have hmap : e.params.map Param.key = (entry.params.map Param.key).map stripLineBreaks := by
      rw [List.map_map, he, sanitizeForOutput, List.map_map]
      rfl
    rw [hmap]
    refine List.Nodup.map_on ?_ h.distinct
    intro key hkey key' hkey' heq
    obtain ⟨p, hp, rfl⟩ := List.mem_map.mp hkey
    obtain ⟨q, hq, rfl⟩ := List.mem_map.mp hkey'
    exact hkeys p hp q hq heq
  have htrim : trimEnd blob = blob := by
    refine trimEnd_eq_self fun c hc => ?_
    exact inAlphabet_visible (hbase64.alphabet _ c (List.mem_of_getLast? hc))
  rw [hline] at hlen ⊢
  rw [parseLine_scheme (by decide) (by decide) (by decide) hlen, htrim]
  have hread := vmess_parse hbase64 hjson htext (hhost ▸ h.wellFormed.host)
    ⟨hhost ▸ h.wellFormed.hostUnbroken, hcredential ▸ h.wellFormed.credentialUnbroken⟩ hclean
    (rereadParams_caps codecs.json hcaps) ("vmess" ++ ("://" ++ blob))
  rw [← hblob] at hread
  refine ⟨_, parsed_eq.mpr hread, hvmess.symm, hhost, rfl, hcredential, rfl, ?_⟩
  rw [← keptFields_sanitize h.clean]
  exact rereadParams_eq hnodup

theorem mem_keptFields_iff (hdistinct : (entry.params.map Param.key).Nodup)
    (hown : ∀ p ∈ entry.params, isOwnKey p.key = true → p.key = ['v'])
    (hclean : ∀ p ∈ entry.params, hasLineBreak p.key = false) (f : Text × Text) :
    f ∈ keptFields entry ↔ f ∈ entry.params.map pair := by
  unfold keptFields
  rw [List.mem_append, List.mem_map, List.mem_map]
  constructor
  · rintro (hversion | ⟨p, hp, rfl⟩)
    · rcases versionField_cases entry with hnone | ⟨p, hp, hkey, hsome⟩
      · simp [hnone] at hversion
      · rw [hsome, List.mem_singleton] at hversion
        exact ⟨p, hp, by rw [hversion, pair, hown p hp hkey]⟩
    · have hp := List.mem_of_mem_filter hp
      exact ⟨p, hp, by rw [pair, stripLineBreaks_eq_self (hclean p hp)]⟩
  · rintro ⟨p, hp, rfl⟩
    by_cases hkey : isOwnKey p.key = true
    · left
      have hv := hown p hp hkey
      have hspelled : eqIgnoreAsciiCase p.key "v" = true := by
        rw [hv]
        decide
      unfold versionField ProxyEntry.paramIgnoreCase
      cases hfind : entry.params.find? fun p => eqIgnoreAsciiCase p.key "v" with
      | none => exact absurd hspelled (List.find?_eq_none.mp hfind p hp)
      | some q =>
        have hq := List.mem_of_find?_eq_some hfind
        have hqv : q.key = ['v'] := hown q hq (by
          rw [isOwnKey, List.find?_some hfind, Bool.true_or])
        have hsame : q = p := List.inj_on_of_nodup_map hdistinct hq hp (hqv.trans hv.symm)
        simp [pair, hsame, hv]
    · right
      exact ⟨p, List.mem_filter.mpr ⟨hp, by simpa using hkey⟩, by
        rw [pair, stripLineBreaks_eq_self (hclean p hp)]⟩

/-- The codec on objects of strings, where the last value of a key stays as in a map. -/
def mapCodec : SerdeJson where
  toStr := JsonText.stringCodec.toStr
  fromStr t := (JsonText.readObject t).map fun fields => stringObject (insertAll [] fields)

theorem mapCodec_roundTrips : mapCodec.RoundTripsStrings := by
  intro m hm
  have hall : insertAll [] m = m := insertAll_eq_append (m := []) hm
  simp [mapCodec, JsonText.stringCodec, JsonText.stringFields_stringObject,
    JsonText.readObject_print, hall]

theorem mapCodec_distinct : mapCodec.DistinctObjects := by
  intro t fields h
  obtain ⟨m, -, hm⟩ := Option.map_eq_some_iff.mp h
  obtain rfl := Json.obj.inj hm
  have hkeys : ((insertAll [] m).map fun f => (f.1, Json.str f.2)).map Prod.fst =
      (insertAll [] m).map Prod.fst := by simp
  rw [DistinctKeys, hkeys]
  exact distinctKeys_insertAll m DistinctKeys.nil

def mapCodecs : Codecs :=
  { sampleCodecs with json := mapCodec }

def vmessLine : Text :=
  "vmess://eyJQUyI6IngiLCJWIjoiMiIsImFkZCI6ImgiLCJwb3J0IjoiNDQzIiwiaWQiOiJ1IiwicHMiOiJuIG0iLCJOZXQiOiJ3cyIsInBhdGgiOiIvYSBiIn0="

def vmessEntry : ProxyEntry where
  scheme := .vmess
  name := "n m"
  host := "h"
  port := 443
  credential := "u"
  params := [⟨"PS", "x", true⟩, ⟨"V", "2", true⟩, ⟨"Net", "ws", true⟩, ⟨"path", "/a b", true⟩]
  rawPath := []
  rawLine := vmessLine

theorem vmess_round_trip_sample :
    ∃ entry', parseLine mapCodecs (serialize mapCodecs vmessEntry) = .parsed entry' ∧
      entry'.scheme = vmessEntry.scheme ∧ entry'.host = vmessEntry.host ∧
        entry'.port = vmessEntry.port ∧ entry'.credential = vmessEntry.credential ∧
          entry'.name = vmessEntry.name ∧
            entry'.params.map (fun p => (p.key, p.value)) = keptFields vmessEntry :=
  vmess_round_trip standard_roundTrips mapCodec_roundTrips mapCodec_distinct stringCodec_printsText
    (show parseLine mapCodecs vmessLine = .parsed vmessEntry by decide +kernel) rfl (by decide)
    (by decide +kernel)

/-- A field spelled like the name does not come back. -/
theorem other_spelling_is_dropped :
    ¬∀ codecs : Codecs, codecs.base64.RoundTrips → codecs.json.RoundTripsStrings →
      codecs.json.DistinctObjects → PrintsText codecs.json → ∀ line entry,
        parseLine codecs line = .parsed entry → entry.scheme = .vmess →
          (bytes (serialize codecs entry)).length ≤ maxLineBytes →
            ∃ entry', parseLine codecs (serialize codecs entry) = .parsed entry' ∧
              entry'.host = entry.host ∧ entry'.port = entry.port ∧
                entry'.credential = entry.credential ∧ entry'.name = entry.name ∧
                  ∀ f, f ∈ entry'.params.map (fun p => (p.key, p.value)) ↔
                    f ∈ entry.params.map fun p => (p.key, p.value) := by
  intro h
  have hread : ∀ entry', parseLine mapCodecs
      "vmess://eyJwcyI6Im4iLCJhZGQiOiJoIiwicG9ydCI6IjQ0MyIsImlkIjoidSJ9" = .parsed entry' →
        entry'.params = [] := by
    intro entry' hentry
    have hline : parseLine mapCodecs
        "vmess://eyJwcyI6Im4iLCJhZGQiOiJoIiwicG9ydCI6IjQ0MyIsImlkIjoidSJ9" = .parsed
          ⟨.vmess, "n", "h", 443, "u", [], [],
            "vmess://eyJwcyI6Im4iLCJhZGQiOiJoIiwicG9ydCI6IjQ0MyIsImlkIjoidSJ9"⟩ := by
      decide +kernel
    obtain rfl := LineOutcome.parsed.inj (hentry.symm.trans hline)
    rfl
  obtain ⟨entry', hentry, -, -, -, -, hparams⟩ := h mapCodecs standard_roundTrips
    mapCodec_roundTrips mapCodec_distinct stringCodec_printsText
    "vmess://eyJhZGQiOiJoIiwicG9ydCI6IjQ0MyIsImlkIjoidSIsInBzIjoibiIsIlBTIjoieCJ9"
    ⟨.vmess, "n", "h", 443, "u", [⟨"PS", "x", true⟩], [],
      "vmess://eyJhZGQiOiJoIiwicG9ydCI6IjQ0MyIsImlkIjoidSIsInBzIjoibiIsIlBTIjoieCJ9"⟩
    (by decide +kernel) rfl (by decide +kernel)
  have hline : serialize mapCodecs ⟨.vmess, "n", "h", 443, "u", [⟨"PS", "x", true⟩], [],
      "vmess://eyJhZGQiOiJoIiwicG9ydCI6IjQ0MyIsImlkIjoidSIsInBzIjoibiIsIlBTIjoieCJ9"⟩ =
        "vmess://eyJwcyI6Im4iLCJhZGQiOiJoIiwicG9ydCI6IjQ0MyIsImlkIjoidSJ9" := by
    decide +kernel
  have hmem := (hparams ("PS", "x")).mpr (by decide)
  rw [hline] at hentry
  rw [hread entry' hentry] at hmem
  simp at hmem

end RoundTrip

end VmessRoundTrip
