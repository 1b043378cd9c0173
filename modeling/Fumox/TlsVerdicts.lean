import Fumox.PinnedConfig
import Fumox.ProbeCycle
import Fumox.ProxyIdentity

/-!
TLS as the connect test and as the tunnel test see it.  The first reads the recognized parameters
of a row as they were written; the second reads every parameter of the entry rebuilt from the row,
with percent escapes resolved, and asks for other words.
-/

namespace TlsVerdicts

open RustText PercentText ProxyModels FormatParams JsonValue YamlValue ProxyStore ProxyFingerprint
  ProbeLifecycle ProbeCycle LifecycleSteps LifecycleInvariants TransitionRuns LaneCoverage
  ProxyIdentity

section Spellings

/-- The value of the first parameter under a key, among those with the given flag. -/
def flaggedValue (params : List Param) (known : Bool) (key : Text) : Option Text :=
  (params.find? fun p => p.known == known && eqIgnoreAsciiCase p.key key).map (·.value)

def toggles : List Text := ["1", "true", "yes", "on"]

/-- The values of `security` that make a scheme a TLS endpoint of the tunnel. -/
def securityWords : Scheme → List Text
  | .vmess => ["tls"]
  | _ => ["tls", "reality"]

def tlsWords : Scheme → List Text
  | .vmess => ["tls"]
  | _ => []

def spells (words : List Text) (value : Text) : Bool :=
  words.contains (toAsciiLowercase (trim value))

def resolvesTo (words : List Text) (value : Text) : Bool :=
  words.contains (toAsciiLowercase (percentDecode (trim value)))

def connectReads (security tls : Option Text) : Bool :=
  security.any (spells ["tls", "reality"]) || tls.any (spells ("tls" :: toggles))

def tunnelReads (scheme : Scheme) (security tls : Option Text) : Bool :=
  security.any (resolvesTo (securityWords scheme)) ||
    tls.any fun v => resolvesTo (tlsWords scheme) v || spells toggles v

variable (scheme : Scheme) (params : List Param)

/-- A recognized parameter enables TLS in a spelling that both tests read. -/
def ReadByBoth : Prop :=
  (flaggedValue params true "security").any (spells (securityWords scheme)) = true ∨
    (flaggedValue params true "tls").any (spells (tlsWords scheme ++ toggles)) = true

/-- `security=reality` of vmess, and `tls=tls` of every other scheme. -/
def ReadByConnect : Prop :=
  if scheme = .vmess then (flaggedValue params true "security").any (spells ["reality"]) = true
  else (flaggedValue params true "tls").any (spells ["tls"]) = true

def escaped (words : List Text) (value : Text) : Bool :=
  value.contains '%' && resolvesTo words value

/-- A word behind an escape, or a parameter that only the unrecognized ones have. -/
def ReadByTunnel : Prop :=
  (flaggedValue params true "security").any (escaped (securityWords scheme)) = true ∨
    (flaggedValue params true "tls").any (escaped (tlsWords scheme)) = true ∨
    (flaggedValue params true "security" = none ∧
      (flaggedValue params false "security").any (resolvesTo (securityWords scheme)) = true) ∨
    (flaggedValue params true "tls" = none ∧ (flaggedValue params false "tls").any
      (fun v => resolvesTo (tlsWords scheme) v || spells toggles v) = true)

/-- Both tests find a spelling, or neither does. -/
def ReadAlike : Prop :=
  ReadByBoth scheme params ∨ (ReadByConnect scheme params ↔ ReadByTunnel scheme params)

instance : Decidable (ReadByBoth scheme params) := inferInstanceAs (Decidable (_ ∨ _))
instance : Decidable (ReadByConnect scheme params) := inferInstanceAs (Decidable (ite _ _ _))
instance : Decidable (ReadByTunnel scheme params) :=
  inferInstanceAs (Decidable (_ ∨ _ ∨ (_ ∧ _) ∨ (_ ∧ _)))
instance : Decidable (ReadAlike scheme params) := inferInstanceAs (Decidable (_ ∨ (_ ↔ _)))

end Spellings

section Words

variable {words words' : List Text} {value : Text} {scheme : Scheme}

theorem spells_append :
    spells (words ++ words') value = (spells words value || spells words' value) :=
  List.contains_append

theorem trim_subset {c : Char} (h : c ∈ trim value) : c ∈ value := by
  have hstart : c ∈ trimStart value := trimEnd_sublist _ c h
  exact (List.dropWhile_sublist _).subset hstart

theorem percent_mem_of_lower (h : '%' ∈ value) : '%' ∈ toAsciiLowercase value :=
  List.mem_map.mpr ⟨_, h, rfl⟩

theorem resolvesTo_eq (hplain : ∀ w ∈ words, '%' ∉ w) :
    resolvesTo words value = (spells words value || escaped words value) := by
  by_cases hpercent : '%' ∈ value
  · have hcontains : value.contains '%' = true := List.contains_iff_mem.mpr hpercent
    rw [escaped, hcontains, Bool.true_and]
    cases hspells : spells words value with
    | false => rfl
    | true =>
      have hword := List.contains_iff_mem.mp hspells
      have hnot : '%' ∉ trim value := fun h => hplain _ hword (percent_mem_of_lower h)
      rw [resolvesTo, percentDecode_plain hnot]
      exact hspells
  · have hcontains : value.contains '%' = false := by simpa using hpercent
    have hnot : '%' ∉ trim value := fun h => hpercent (trim_subset h)
    rw [escaped, hcontains, Bool.false_and, Bool.or_false, resolvesTo, percentDecode_plain hnot]
    rfl

theorem securityWords_plain : ∀ w ∈ securityWords scheme, '%' ∉ w := by
  cases scheme <;> decide

theorem tlsWords_plain : ∀ w ∈ tlsWords scheme, '%' ∉ w := by
  cases scheme <;> decide

theorem contains_lower {v w : Text} (hw : toAsciiLowercase w = w) :
    ([w] : List Text).contains (toAsciiLowercase v) = eqIgnoreAsciiCase v w := by
  rw [eqIgnoreAsciiCase, hw, List.contains_cons, List.contains_nil, Bool.or_false]

theorem contains_lower_pair {v w w' : Text} (hw : toAsciiLowercase w = w)
    (hw' : toAsciiLowercase w' = w') : ([w, w'] : List Text).contains (toAsciiLowercase v) =
      (eqIgnoreAsciiCase v w || eqIgnoreAsciiCase v w') := by
  rw [← contains_lower hw, ← contains_lower hw', ← List.contains_append]
  rfl

theorem any_or (v : Option Text) (p q : Text → Bool) :
    v.any (fun t => p t || q t) = (v.any p || v.any q) := by
  cases v <;> rfl

end Words

section Verdicts

variable {scheme : Scheme} {params : List Param}

theorem connectReads_iff (hscheme : scheme = .vless ∨ scheme = .vmess) :
    connectReads (flaggedValue params true "security") (flaggedValue params true "tls") = true ↔
      ReadByBoth scheme params ∨ ReadByConnect scheme params := by
  have hsecurity : ∀ v : Option Text,
      v.any (spells ["tls", "reality"]) =
        (v.any (spells ["tls"]) || v.any (spells ["reality"])) := by
    intro v
    rw [← any_or]
    congr 1
    funext t
    exact (spells_append : spells (["tls"] ++ ["reality"]) t = _)
  have htls : ∀ v : Option Text,
      v.any (spells ("tls" :: toggles)) = (v.any (spells ["tls"]) || v.any (spells toggles)) := by
    intro v
    rw [← any_or]
    congr 1
    funext t
    exact (spells_append : spells ((["tls"] : List Text) ++ toggles) t = _)
  rcases hscheme with rfl | rfl
  · simp only [connectReads, ReadByBoth, ReadByConnect, securityWords, tlsWords, htls,
      List.nil_append, Bool.or_eq_true, reduceCtorEq, if_false]
    tauto
  · simp only [connectReads, ReadByBoth, ReadByConnect, securityWords, tlsWords, hsecurity,
      List.cons_append, List.nil_append, Bool.or_eq_true, if_true]
    tauto

theorem tunnelReads_iff :
    tunnelReads scheme
        ((flaggedValue params true "security").or (flaggedValue params false "security"))
        ((flaggedValue params true "tls").or (flaggedValue params false "tls")) = true ↔
      ReadByBoth scheme params ∨ ReadByTunnel scheme params := by
  have hsecurity : resolvesTo (securityWords scheme) =
      fun t => spells (securityWords scheme) t || escaped (securityWords scheme) t := by
    funext t
    exact resolvesTo_eq securityWords_plain
  have htls : (fun t => resolvesTo (tlsWords scheme) t || spells toggles t) =
      fun t => spells (tlsWords scheme ++ toggles) t || escaped (tlsWords scheme) t := by
    funext t
    rw [resolvesTo_eq tlsWords_plain, spells_append, Bool.or_right_comm]
  unfold tunnelReads ReadByBoth ReadByTunnel
  cases hfirst : flaggedValue params true "security" with
  | none =>
    cases hsecond : flaggedValue params true "tls" with
    | none => simp
    | some v =>
      simp only [Option.none_or, Option.some_or, Option.any_none, htls, Option.any_some,
        Bool.or_eq_true, Bool.false_eq_true, reduceCtorEq, false_and, true_and, false_or, or_false]
      tauto
  | some u =>
    cases hsecond : flaggedValue params true "tls" with
    | none =>
      simp only [Option.none_or, Option.some_or, Option.any_none, hsecurity, Option.any_some,
        Bool.or_eq_true, Bool.false_eq_true, reduceCtorEq, false_and, true_and, false_or, or_false]
      tauto
    | some v =>
      simp only [Option.some_or, htls, hsecurity, Option.any_some, Bool.or_eq_true, reduceCtorEq,
        false_and, or_false]
      tauto

end Verdicts

section Views

variable {params : List Param} {known : Bool} {key : Text}

theorem find?_firsts {ν : Type*} {p : Text → Bool} {taken : List Text} {l : List (Text × ν)}
    (htaken : ∀ k ∈ taken, p k = false) :
    (firsts taken l).find? (fun f => p f.1) = l.find? fun f => p f.1 := by
  induction l generalizing taken with
  | nil => rfl
  | cons f l ih =>
    unfold firsts
    cases hp : p f.1 with
    | true =>
      have hnot : f.1 ∉ taken := by
        intro hmem
        rw [htaken _ hmem] at hp
        cases hp
      rw [if_neg hnot]
      simp only [List.find?_cons, hp]
    | false =>
      split_ifs with hmem
      · simp only [List.find?_cons, hp]
        exact ih htaken
      · simp only [List.find?_cons, hp]
        apply ih
        intro k hk
        rcases List.mem_append.mp hk with hk | hk
        · exact htaken k hk
        · obtain rfl := List.mem_singleton.mp hk
          exact hp

/-- A column holds the first value of a key, whatever the letter case it is asked in. -/
theorem splitParamsJson_find? (hkey : key ≠ []) :
    ((splitParamsJson params known).find? fun f => eqIgnoreAsciiCase f.1 key).map (·.2) =
      flaggedValue params known key := by
  have hfirst :
      (firsts [] (columnFields params known)).find? (fun f => eqIgnoreAsciiCase f.1 key) =
        (columnFields params known).find? fun f => eqIgnoreAsciiCase f.1 key :=
    find?_firsts (p := fun k => eqIgnoreAsciiCase k key) fun _ h => absurd h List.not_mem_nil
  have hkept : ∀ p : Param, decide ((p.known == known && !p.key.isEmpty) = true ∧
      eqIgnoreAsciiCase p.key key = true) = (p.known == known && eqIgnoreAsciiCase p.key key) := by
    intro p
    cases hempty : p.key.isEmpty with
    | false => rw [Bool.not_false, Bool.and_true, Bool.decide_and, Bool.decide_eq_true,
        Bool.decide_eq_true]
    | true =>
      have hne : eqIgnoreAsciiCase p.key key = false := by
        rw [List.isEmpty_iff.mp hempty]
        exact beq_false_of_ne fun h => hkey (toAsciiLowercase_eq_nil.mp h.symm)
      simp [hne]
  rw [splitParamsJson_eq, hfirst, columnFields, flaggedValue, List.find?_map, List.find?_filter,
    Option.map_map]
  simp only [Function.comp_apply, hkept]
  rfl

variable {lib : Libraries} {entry rebuilt : ProxyEntry} {row : ProxyRow}

theorem paramIgnoreCase_rebuilt (hkey : key ≠ [])
    (hparams : rebuilt.params = rebuiltParams params) :
    rebuilt.paramIgnoreCase key =
      (flaggedValue params true key).or (flaggedValue params false key) := by
  have hmap : ∀ known,
      (((splitParamsJson params known).map fun f => (⟨f.1, f.2, known⟩ : Param)).find?
        fun p => eqIgnoreAsciiCase p.key key).map (·.value) = flaggedValue params known key := by
    intro known
    rw [List.find?_map, Option.map_map]
    exact splitParamsJson_find? hkey
  rw [ProxyEntry.paramIgnoreCase, hparams, rebuiltParams, List.find?_append, Option.map_or, hmap,
    hmap]

theorem any_filter_trim (v : Option Text) {p : Text → Bool} (hp : p [] = false) :
    ((v.map trim).filter (· ≠ [])).any p = v.any fun t => p (trim t) := by
  cases v with
  | none => rfl
  | some t =>
    rw [Option.map_some, Option.filter_some]
    by_cases hblank : trim t = []
    · rw [if_neg (by simp [hblank]), Option.any_some, hblank, hp, Option.any_none]
    · rw [if_pos (by simp [hblank]), Option.any_some, Option.any_some]

theorem any_paramValue {p : Text → Bool} (hp : p [] = false) :
    (paramValue rebuilt key).any p =
      (rebuilt.paramIgnoreCase key).any fun t => p (percentDecode (trim t)) := by
  rw [paramValue]
  cases rebuilt.paramIgnoreCase key with
  | none => rfl
  | some t =>
    rw [Option.bind_some, Option.any_some]
    by_cases hblank : trim t = []
    · rw [if_pos hblank, hblank, percentDecode_plain List.not_mem_nil, hp, Option.any_none]
    · rw [if_neg hblank, Option.any_some]

theorem checkKind_stored (hjson : lib.json.RoundTripsStrings) (hstored : StoredFrom lib entry row)
    (hscheme : row.scheme = .vless ∨ row.scheme = .vmess) :
    checkKind lib.json row = .tls ↔ connectReads (flaggedValue entry.params true "security")
      (flaggedValue entry.params true "tls") = true := by
  set fields := splitParamsJson entry.params true with hfields
  have hdistinct : DistinctKeys fields := by
    have h := distinctKeys_foldl_orInsert [] (columnFields entry.params true) .nil
    rwa [columnFields, List.foldl_map] at h
  have hread : row.params.bind lib.json.fromStr = some (stringObject fields) := by
    rw [hstored.params]
    exact hjson _ hdistinct
  have htext : ∀ key : Text, key ≠ [] →
      paramText lib.json (fields.map fun f => (f.1, .str f.2)) key =
        ((flaggedValue entry.params true key).map trim).filter (· ≠ []) := by
    intro key hkey
    rw [paramText, List.find?_map, Option.map_map, ← splitParamsJson_find? hkey, Option.map_map]
    rfl
  have henable : paramsEnableTls lib.json row.params =
      connectReads (flaggedValue entry.params true "security")
        (flaggedValue entry.params true "tls") := by
    rw [paramsEnableTls, hread]
    simp only [stringObject]
    rw [htext "security" (by decide), htext "tls" (by decide), any_filter_trim _ (by decide),
      any_filter_trim _ (by decide), connectReads]
    congr 2
    funext t
    exact (contains_lower_pair (by decide) (by decide)).symm
  rcases hscheme with h | h
  · simp [checkKind, h, henable]
  · simp [checkKind, h, henable]

theorem isTruthyToggle_eq (v : Text) : isTruthyToggle v = spells toggles v := by
  simp only [isTruthyToggle, spells, toggles, List.contains_cons, List.contains_nil, Bool.or_false,
    Bool.or_assoc, beq_eq_decide]

theorem any_securityIs (word : Text) (hword : toAsciiLowercase word = word) (hne : word ≠ []) :
    (paramValue rebuilt key).any (fun v => eqIgnoreAsciiCase v word) =
      (rebuilt.paramIgnoreCase key).any (resolvesTo [word]) := by
  have hblank : ([word] : List Text).contains (toAsciiLowercase []) = false := by
    rw [List.contains_cons, List.contains_nil, Bool.or_false]
    exact beq_false_of_ne hne.symm
  have hsame : (fun v => eqIgnoreAsciiCase v word) =
      fun v => ([word] : List Text).contains (toAsciiLowercase v) := by
    funext v
    exact (contains_lower hword).symm
  rw [hsame]
  exact any_paramValue hblank

theorem vlessTls_eq (h : rebuilt.scheme = .vless) : ClashWriter.vlessTls rebuilt =
    tunnelReads rebuilt.scheme (rebuilt.paramIgnoreCase "security")
      (rebuilt.paramIgnoreCase "tls") := by
  have hpair : resolvesTo (securityWords .vless) = fun v => resolvesTo ["tls"] v ||
      resolvesTo ["reality"] v := by
    funext v
    exact (List.contains_append : (["tls"] ++ ["reality"] : List Text).contains
      (toAsciiLowercase (percentDecode (trim v))) = _)
  have htruthy :
      (fun v => resolvesTo (tlsWords .vless) v || spells toggles v) = isTruthyToggle := by
    funext v
    exact (isTruthyToggle_eq v).symm
  rw [ClashWriter.vlessTls, SingboxWriter.securityIs, SingboxWriter.securityIs,
    any_securityIs "tls" (by decide) (by decide), any_securityIs "reality" (by decide) (by decide),
    ← any_or, ← hpair, h, tunnelReads, htruthy]
  rfl

theorem vmessTls_eq (h : rebuilt.scheme = .vmess) : SingboxWriter.vmessTls rebuilt =
    tunnelReads rebuilt.scheme (rebuilt.paramIgnoreCase "security")
      (rebuilt.paramIgnoreCase "tls") := by
  have htruthy : isTruthyToggle = spells toggles := by
    funext v
    exact isTruthyToggle_eq v
  rw [SingboxWriter.vmessTls, SingboxWriter.securityIs, paramTruthy, htruthy,
    any_securityIs "tls" (by decide) (by decide), any_securityIs "tls" (by decide) (by decide),
    ← any_or, h, tunnelReads, Bool.or_comm]
  rfl

theorem clash_of_proxyOf {yaml : SerdeNorway} {p : ClashWriter.Proxy}
    (h : ClashWriter.proxyOf yaml rebuilt = some p) :
    ClashWriter.entryToClash yaml rebuilt = some (ClashWriter.mapping
      (p.fields rebuilt.name rebuilt.host rebuilt.port (isInsecure rebuilt.params)
        (paramTruthy rebuilt "udp"))) := by
  rw [ClashWriter.entryToClash, ClashWriter.entryToClashNamed, h]
  rfl

theorem definition_tls (yaml : SerdeNorway)
    (hscheme : rebuilt.scheme = .vless ∨ rebuilt.scheme = .vmess) :
    ∃ definition, ClashWriter.entryToClash yaml rebuilt = some definition ∧
      (PinnedConfig.fieldOf definition "tls" = some (.bool true) ↔
        tunnelReads rebuilt.scheme (rebuilt.paramIgnoreCase "security")
          (rebuilt.paramIgnoreCase "tls") = true) := by
  have hflag : ∀ b : Bool, ((if b then some (Yaml.bool true) else none) = some (.bool true)) ↔
      b = true := by
    intro b
    cases b <;> simp
  rcases hscheme with h | h
  · rw [← vlessTls_eq h]
    refine ⟨_, clash_of_proxyOf (by rw [ClashWriter.proxyOf, h]), ?_⟩
    rw [PinnedConfig.fieldOf_tls, hflag]
    cases htls : ClashWriter.vlessTls rebuilt <;> simp [PinnedConfig.tlsFlag]
  · rw [← vmessTls_eq h]
    refine ⟨_, clash_of_proxyOf (by rw [ClashWriter.proxyOf, h]), ?_⟩
    rw [PinnedConfig.fieldOf_tls, hflag]
    cases htls : SingboxWriter.vmessTls rebuilt <;> simp [PinnedConfig.tlsFlag]

end Views

section Rows

variable {lib : Libraries} {cfg : ProbeConfig} {entry : ProxyEntry} {row : ProxyRow} {w : World}

def Holds (lib : Libraries) (row : ProxyRow) : Prop :=
  ∃ entry, StoredFrom lib entry row

theorem Holds.of_content {row' : ProxyRow} (h : Holds lib row)
    (hcontent : content row = content row') : Holds lib row' := by
  obtain ⟨entry, hstored⟩ := h
  have h' : StoredFrom lib entry (content row) := ⟨hstored.params, hstored.unknownParams⟩
  rw [hcontent] at h'
  exact ⟨entry, h'.params, h'.unknownParams⟩

theorem reachable_holds (h : Reachable (lifecycle lib cfg) Any w) :
    ∀ r ∈ w.store.proxies, Holds lib r := by
  refine h.invariant (fun w => ∀ r ∈ w.store.proxies, Holds lib r) ?_ ?_
  · rintro w rfl
    simp
  · rintro w e hholds - -
    by_cases he : ∃ sourceId entries geo now linger,
        e = .reconcileSource sourceId entries geo now linger
    · obtain ⟨sourceId, entries, geo, now, linger, rfl⟩ := he
      intro r' hr'
      simp only [lifecycle, nextStore] at hr'
      split at hr'
      next hreconciled =>
        obtain ⟨r, hr, hcontent⟩ := (frames_reconcileSource hreconciled).mem hr'
        refine Holds.of_content ?_ hcontent
        have hparams := upsertEntries_params entries geo hr
        unfold ParamsFrom at hparams
        split at hparams
        next entry hstored => exact ⟨entry, hparams⟩
        next =>
          obtain ⟨r₀, hr₀, hcontent₀⟩ := hparams
          exact (hholds r₀ hr₀).of_content hcontent₀
      next => exact hholds r' hr'
    · push Not at he
      intro r' hr'
      obtain ⟨r, hr, hcontent⟩ := (frames_nextStore w.store he).mem hr'
      exact (hholds r hr).of_content hcontent

/-- On the row of an entry the two verdicts agree exactly when both tests find a spelling of TLS
among the parameters, or neither does. -/
theorem verdicts_agree_iff (hjson : lib.json.RoundTripsStrings) (hid : Identified lib row)
    (hstored : StoredFrom lib entry row) (hscheme : row.scheme = .vless ∨ row.scheme = .vmess)
    (yaml : SerdeNorway) :
    ∃ rebuilt definition, toEntry lib.json row = .ok rebuilt ∧
      ClashWriter.entryToClash yaml rebuilt = some definition ∧
      ((checkKind lib.json row = .tls ↔
        PinnedConfig.fieldOf definition "tls" = some (.bool true)) ↔
          ReadAlike row.scheme entry.params) := by
  obtain ⟨rebuilt, hok, hsame, -, -, -, -, hparams⟩ := toEntry_stored hjson hid hstored
  have hkind : rebuilt.scheme = .vless ∨ rebuilt.scheme = .vmess := by rwa [hsame]
  obtain ⟨definition, hdefinition, htls⟩ := definition_tls yaml hkind
  refine ⟨rebuilt, definition, hok, hdefinition, ?_⟩
  rw [checkKind_stored hjson hstored hscheme, connectReads_iff hscheme, htls, hsame,
    paramIgnoreCase_rebuilt (by decide) hparams, paramIgnoreCase_rebuilt (by decide) hparams,
    tunnelReads_iff, ReadAlike]
  by_cases hboth : ReadByBoth row.scheme entry.params
  · simp only [hboth, true_or]
  · simp only [hboth, false_or]

/-- Every vless or vmess row of a reachable store was written from an entry, and its two verdicts
agree exactly when the parameters of that entry are read alike. -/
theorem tls_verdicts_agree_iff (hjson : lib.json.RoundTripsStrings)
    (hw : Reachable (lifecycle lib cfg) Any w) {row : ProxyRow} (hrow : row ∈ w.store.proxies)
    (hscheme : row.scheme = .vless ∨ row.scheme = .vmess) (yaml : SerdeNorway) :
    (∃ entry, StoredFrom lib entry row) ∧ ∀ entry, StoredFrom lib entry row →
      ∃ rebuilt definition, toEntry lib.json row = .ok rebuilt ∧
        ClashWriter.entryToClash yaml rebuilt = some definition ∧
        ((checkKind lib.json row = .tls ↔
          PinnedConfig.fieldOf definition "tls" = some (.bool true)) ↔
            ReadAlike row.scheme entry.params) :=
  ⟨reachable_holds hw row hrow, fun _ hstored =>
    verdicts_agree_iff hjson ((reachable_identity hw).identified row hrow) hstored hscheme yaml⟩

theorem tls_verdicts_agree_iff_sample :
    ∃ w : World, ∃ row ∈ w.store.proxies, ∃ rebuilt definition,
      toEntry JsonText.stringCodec row = .ok rebuilt ∧
      ClashWriter.entryToClash ⟨fun _ => none, fun _ => none⟩ rebuilt = some definition ∧
        (checkKind JsonText.stringCodec row = .tls ↔
          PinnedConfig.fieldOf definition "tls" = some (.bool true)) := by
  set entry := sampleEntry "node" "example.com" [⟨"security", "TLS", true⟩] with hentry
  set e : Event := .reconcileSource "feed" [entry] [] 1000 true with he
  have hrun : Reachable (lifecycle sampleLibraries defaultConfig) Any
      ((lifecycle sampleLibraries defaultConfig).next {} e) :=
    .step (.init rfl) (by decide +kernel) trivial
  let column := fun known =>
    JsonText.stringCodec.toStr (stringObject (splitParamsJson entry.params known))
  have hrow : ((lifecycle sampleLibraries defaultConfig).next {} e).store.proxies.any (fun r =>
      r.scheme == .vless && decide (r.params = some (column true) ∧
        r.unknownParams = some (column false))) = true := by
    decide +kernel
  obtain ⟨row, hmem, hrow⟩ := List.any_eq_true.mp hrow
  obtain ⟨hscheme, hstored⟩ := Bool.and_eq_true_iff.mp hrow
  obtain ⟨hparams, hunknown⟩ := of_decide_eq_true hstored
  have hvless := beq_iff_eq.mp hscheme
  obtain ⟨rebuilt, definition, hok, hdefinition, hiff⟩ :=
    (tls_verdicts_agree_iff JsonText.stringCodec_roundTrips hrun hmem (.inl hvless)
      ⟨fun _ => none, fun _ => none⟩).2 entry ⟨hparams, hunknown⟩
  refine ⟨_, row, hmem, rebuilt, definition, hok, hdefinition, hiff.mpr ?_⟩
  rw [hvless]
  decide +kernel

def toggleLine : Text := "vless://u@example.com:443?tls=1"

theorem toggle_read_by_one :
    ¬∀ lib codecs cfg w line entry yaml, lib.json.RoundTripsStrings →
      LineParser.parseLine codecs line = .parsed entry →
        (entry.scheme = .vless ∨ entry.scheme = .vmess) →
          Reachable (lifecycle lib cfg) Any w → ∀ sourceId geo now linger s' stats,
            reconcileSource lib w.store sourceId [entry] geo now linger = .ok (s', stats) →
              ∀ r ∈ s'.proxies, r.fingerprint = fingerprint lib.sha256 entry →
                ∀ rebuilt definition, toEntry lib.json r = .ok rebuilt →
                  ClashWriter.entryToClash yaml rebuilt = some definition →
                    (checkKind lib.json r = .tls ↔
                      PinnedConfig.fieldOf definition "tls" = some (.bool true)) := by
  intro h
  set entry : ProxyEntry := ⟨.vless, [], "example.com", 443, "u", [⟨"tls", "1", false⟩], [],
    toggleLine⟩ with hentry
  have hrun : ((reconcileSource sampleLibraries {} "feed" [entry] [] 1000 true).toOption.any
      fun p => p.1.proxies.any fun r => r.fingerprint == fingerprint sampleDigest entry &&
        checkKind JsonText.stringCodec r != .tls &&
          (toEntry JsonText.stringCodec r).toOption.any fun rebuilt =>
            (ClashWriter.entryToClash ⟨fun _ => none, fun _ => none⟩ rebuilt).any fun definition =>
              (PinnedConfig.fieldOf definition "tls").any fun
                | .bool b => b
                | _ => false) = true := by
    decide +kernel
  obtain ⟨⟨s', stats⟩, hok, hrow⟩ := (Option.any_eq_true _ _).mp hrun
  obtain ⟨r, hr, hrow⟩ := List.any_eq_true.mp hrow
  simp only [Bool.and_eq_true] at hrow
  obtain ⟨⟨hfp, hconnect⟩, hread⟩ := hrow
  obtain ⟨rebuilt, hread, hdefined⟩ := (Option.any_eq_true _ _).mp hread
  obtain ⟨definition, hdefined, htls⟩ := (Option.any_eq_true _ _).mp hdefined
  have hiff := h sampleLibraries LineRoundTrip.sampleCodecs defaultConfig {} toggleLine entry
    ⟨fun _ => none, fun _ => none⟩ JsonText.stringCodec_roundTrips (by decide +kernel) (.inl rfl)
    (.init rfl) "feed" [] 1000 true s' stats (toOption_eq_some.mp hok) r hr (beq_iff_eq.mp hfp)
    rebuilt definition (toOption_eq_some.mp hread) hdefined
  refine bne_iff_ne.mp hconnect (hiff.mpr ?_)
  obtain ⟨v, hfield, hv⟩ := (Option.any_eq_true _ _).mp htls
  cases v with
  | bool b =>
    obtain rfl : b = true := hv
    exact hfield
  | _ => cases hv

end Rows

end TlsVerdicts
