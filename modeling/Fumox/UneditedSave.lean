import Fumox.SettingsSave

/-!
The settings page rendered from the file under the environment and posted back unedited: the
rendered fields, what the helpers make of them, and when the file loads as before.
-/

namespace UneditedSave

open RustText PayloadGuards SocketText TomlDocument ConfigLoader SettingsForm SettingsSave

def joinLines (l : List Text) : Text := ['\n'].intercalate l

def windowUnit (window : ℕ) : Text :=
  if 1 ≤ window ∧ window ≤ 59 then "sec"
  else if 60 ≤ window ∧ window ≤ 3599 then "min"
  else if 3600 ≤ window ∧ window ≤ 86399 then "hour"
  else "day"

def boolToRaw (b : Bool) : Text := if b then "on" else []

/-- The live token never reaches the page. -/
def renderSetting (s : Setting) (v : Value) : Form :=
  match s.editor, v with
  | .bind, .address a => [(s.key.dotted, printSocketAddr a)]
  | .cidrList, .texts l => [(s.key.dotted, joinLines l)]
  | .stringList, .texts l => [(s.key.dotted, joinLines l)]
  | .rateLimit, .rate r =>
    [(limitField s.key, decimal r.limit), (unitField s.key, windowUnit r.window)]
  | .string, .text t => [(s.key.dotted, t)]
  | .token, _ => [(s.key.dotted, [])]
  | .u64, .number n => [(s.key.dotted, decimal n)]
  | .u32, .number n => [(s.key.dotted, decimal n)]
  | .usize, .number n => [(s.key.dotted, decimal n)]
  | .bool, .flag b => [(s.key.dotted, boolToRaw b)]
  | .enum _, .choice name => [(s.key.dotted, name)]
  | .i64List _ _ _, .delays l => [(s.key.dotted, joinLines (l.map decimalInt))]
  | _, _ => []

def renderAt (config : AppConfig) (s : Setting) : Form :=
  match config.get s.key with
  | some v => renderSetting s v
  | none => []

def rawFromConfig (config : AppConfig) : Form :=
  settings.flatMap (renderAt config)

/-- `settings_edit` shows the file under the environment, or the live view when that fails to
load. -/
def renderedConfig (variantIndex : Item → Option ℕ) (env : Document) (live : AppConfig)
    (doc : Document) : AppConfig :=
  (load variantIndex env doc).getD live

def inputNames (s : Setting) : List Text :=
  if s.editor = .rateLimit then [limitField s.key, unitField s.key] else [s.key.dotted]

theorem nodup_inputNames : (settings.flatMap inputNames).Nodup := by decide +kernel

section Rendered

variable {config : AppConfig} {s : Setting} {v : Value} {type : FieldType}

theorem map_fst_renderSetting (hfits : Fits s type) (hv : HasType type v) :
    (renderSetting s v).map Prod.fst = inputNames s := by
  cases type with
  | address =>
    have heditor : s.editor = .bind := hfits
    cases v <;> simp_all [HasType, renderSetting, inputNames]
  | text =>
    rcases hfits with heditor | heditor <;>
      cases v <;> simp_all [HasType, renderSetting, inputNames]
  | rate =>
    have heditor : s.editor = .rateLimit := hfits
    cases v <;> simp_all [HasType, renderSetting, inputNames]
  | unsigned bound =>
    rcases hfits.1 with heditor | heditor | heditor <;>
      cases v <;> simp_all [HasType, renderSetting, inputNames]
  | flag =>
    have heditor : s.editor = .bool := hfits
    cases v <;> simp_all [HasType, renderSetting, inputNames]
  | choice names =>
    have heditor : s.editor = .enum names := hfits
    cases v <;> simp_all [HasType, renderSetting, inputNames]
  | strings =>
    rcases hfits.1 with heditor | heditor <;>
      cases v <;> simp_all [HasType, renderSetting, inputNames]
  | urls =>
    have heditor : s.editor = .stringList := hfits.1
    cases v <;> simp_all [HasType, renderSetting, inputNames]
  | delays =>
    have heditor : s.editor = ladder := hfits
    cases v <;> simp_all [HasType, renderSetting, inputNames, ladder]
  | ignored => exact hfits.elim

theorem exists_value (config : AppConfig) (hs : s ∈ settings) :
    ∃ f ∈ schema, f.key = s.key ∧ Fits s f.type ∧
      ∃ v, config.get s.key = some v ∧ HasType f.type v := by
  obtain ⟨f, hf, hkey, hfits⟩ := settings_fit s hs
  obtain ⟨v, hv, htype⟩ := config.hasType_get hf
  exact ⟨f, hf, hkey, hfits, v, hkey ▸ hv, htype⟩

theorem map_fst_rawFromConfig (config : AppConfig) :
    (rawFromConfig config).map Prod.fst = settings.flatMap inputNames := by
  rw [rawFromConfig, List.map_flatMap]
  apply List.flatMap_congr
  intro s hs
  obtain ⟨f, -, -, hfits, v, hv, htype⟩ := exists_value config hs
  rw [renderAt, hv]
  exact map_fst_renderSetting hfits htype

theorem rawGet_rendered (hs : s ∈ settings) (hv : config.get s.key = some v) {name t : Text}
    (h : (name, t) ∈ renderSetting s v) : rawGet (rawFromConfig config) name = some t := by
  have hmem : (name, t) ∈ rawFromConfig config := by
    apply List.mem_flatMap.mpr
    exact ⟨s, hs, by rw [renderAt, hv]; exact h⟩
  apply JsonValue.lookup_of_mem
  · rw [JsonValue.DistinctKeys, List.map_reverse, List.nodup_reverse, map_fst_rawFromConfig]
    exact nodup_inputNames
  · exact List.mem_reverse.mpr hmem

end Rendered

theorem trim_append_white {t : Text} {c : Char} (hc : isWhitespace c = true) :
    trim (t ++ [c]) = trim t := by
  unfold trim trimStart trimEnd
  rw [List.dropWhile_append]
  by_cases hnil : (t.dropWhile isWhitespace).isEmpty = true
  · rw [if_pos hnil, List.isEmpty_iff.mp hnil]
    simp [hc]
  · rw [if_neg hnil]
    exact List.rdropWhile_concat_pos _ _ _ hc

theorem trim_stripCarriageReturn (line : Text) : trim (stripCarriageReturn line) = trim line := by
  unfold stripCarriageReturn
  split_ifs with hlast
  · obtain ⟨front, rfl⟩ := List.getLast?_eq_some_iff.mp hlast
    rw [List.dropLast_concat]
    exact (trim_append_white (by decide)).symm
  · rfl

theorem cleanLines_eq (v : Text) :
    cleanLines v = ((v.splitOn '\n').map trim).filter (· ≠ []) := by
  obtain ⟨front, last, hpieces⟩ :=
    (List.eq_nil_or_concat (v.splitOn '\n')).resolve_left (List.splitOn_ne_nil _ _)
  have hfront : (front.map stripCarriageReturn).map trim = front.map trim := by
    rw [List.map_map]
    exact List.map_congr_left fun line _ => trim_stripCarriageReturn line
  unfold cleanLines lines
  rw [hpieces]
  cases last with
  | nil => simp [hfront, trim, trimStart, trimEnd]
  | cons c rest => simp [hfront]

theorem cleanLines_joinLines {l : List Text} (h : ∀ t ∈ l, trim t = t ∧ t ≠ [] ∧ '\n' ∉ t) :
    cleanLines (joinLines l) = l := by
  rw [cleanLines_eq, joinLines]
  rcases eq_or_ne l [] with rfl | hne
  · rfl
  rw [List.splitOn_intercalate '\n' (fun t ht => (h t ht).2.2) hne,
    List.map_congr_left fun t ht => (h t ht).1, List.map_id']
  exact List.filter_eq_self.mpr fun t ht => decide_eq_true (h t ht).2.1

/-- The value that a rendered setting is read as. -/
def resaved (s : Setting) : Value → Value
  | .text t => .text (trim t)
  | .texts l =>
    .texts (if s.key = urlKey then (cleanLines (joinLines l)).flatMap splitUrls
      else cleanLines (joinLines l))
  | v => v

/-- Values that the helper of the setting turns down. -/
def Refuses (validCidr : Text → Bool) (s : Setting) (v : Value) : Prop :=
  match s.editor, v with
  | .cidrList, .texts l => ∃ entry ∈ cleanLines (joinLines l), validCidr entry = false
  | .string, .text t => trim t = []
  | .rateLimit, .rate r => ¬ InRange (limitField s.key) r.limit
  | .u64, .number n => ¬ InRange s.key.dotted n ∨ i64Max < n
  | .u32, .number n => ¬ InRange s.key.dotted n
  | .usize, .number n => ¬ InRange s.key.dotted n
  | .i64List _ _ _, .delays l => l = []
  | _, _ => False

/-- A setting of the rendered form is read as its value, and written unless it is refused. -/
structure Rerendered (validCidr : Text → Bool) (form : Form) (s : Setting) (v : Value) : Prop where
  posted : postedValue form s = some (resaved s v)
  applied : match s.editor.apply validCidr form s.key with
    | .skip => False
    | .error _ _ => Refuses validCidr s v
    | .write _ => ¬ Refuses validCidr s v

section Settings

variable {validCidr : Text → Bool} {form : Form} {s : Setting}

theorem trimmed_decimal {front : Text} {n : ℕ} (hne : front ≠ [])
    (h : ∀ c, front.head? = some c → isWhitespace c = false) : trim (front ++ decimal n) =
      front ++ decimal n := by
  have hdigits : decimal n ≠ [] := Nat.toDigits_ne_nil
  apply trim_eq_self
  constructor
  · intro c hc
    rw [List.head?_append_of_ne_nil _ hne] at hc
    exact h c hc
  · intro c hc
    rw [List.getLast?_append_of_ne_nil _ hdigits] at hc
    exact isDigit_not_white (isDigit_of_mem_decimal (List.mem_of_getLast? hc))

theorem trim_printSocketAddr (address : SocketAddr) :
    trim (printSocketAddr address) = printSocketAddr address := by
  cases address with
  | v4 a b c d port =>
    have hshape : printSocketAddr (.v4 a b c d port) =
        (printIpv4 a b c d ++ [':']) ++ decimal port := by simp [printSocketAddr]
    rw [hshape]
    apply trimmed_decimal (by simp)
    intro x hx
    have hne : decimal a ≠ [] := Nat.toDigits_ne_nil
    have hhead : (printIpv4 a b c d ++ [':']).head? = (decimal a).head? := by
      simp [printIpv4, List.head?_append_of_ne_nil _ hne]
    rw [hhead] at hx
    exact isDigit_not_white (isDigit_of_mem_decimal (List.mem_of_mem_head? hx))
  | v6 segments scope port =>
    rw [printSocketAddr, ← List.cons_append]
    apply trimmed_decimal (by simp)
    intro x hx
    obtain rfl := Option.some.inj hx
    decide

theorem bind_rerendered {address : SocketAddr} (h : s.editor = .bind) (hvalid : address.Valid)
    (hraw : rawGet form s.key.dotted = some (printSocketAddr address)) :
    Rerendered validCidr form s (.address address) := by
  have hparse : parseSocketAddr (trim (printSocketAddr address)) = some address := by
    rw [trim_printSocketAddr, parse_print hvalid]
  constructor
  · simp [postedValue, h, hraw, hparse, resaved]
  · simp [h, Editor.apply, SettingsForm.bind, hraw, hparse, Refuses]

theorem string_rerendered {t : Text} (h : s.editor = .string)
    (hraw : rawGet form s.key.dotted = some t) : Rerendered validCidr form s (.text t) := by
  constructor
  · simp [postedValue, h, hraw, resaved]
  · by_cases hblank : trim t = [] <;>
      simp [h, Editor.apply, stringField, hraw, hblank, Refuses]

theorem rate_rerendered {r : RateLimit} (h : s.editor = .rateLimit) (hlimit : r.limit < 2 ^ 32)
    (hwindow : r.window ∈ [1, 60, 3600, 86400])
    (hrawLimit : rawGet form (limitField s.key) = some (decimal r.limit))
    (hrawUnit : rawGet form (unitField s.key) = some (windowUnit r.window)) :
    Rerendered validCidr form s (.rate r) := by
  have hunit : formUnit (windowUnit r.window) = some r.window := by
    have hall : ∀ w ∈ [1, 60, 3600, 86400], formUnit (windowUnit w) = some w := by decide
    exact hall r.window hwindow
  have hparse : parseU32 (trim (decimal r.limit)) = some r.limit := by
    rw [trim_decimal]
    exact parseUnsigned_decimal hlimit
  constructor
  · simp [postedValue, h, hrawLimit, hrawUnit, hparse, hunit, resaved]
  · by_cases hrange : InRange (limitField s.key) r.limit <;>
      simp [h, Editor.apply, rateLimit, hrawLimit, hrawUnit, hparse, hunit, hrange, Refuses]

theorem number_rerendered {n : ℕ}
    (h : s.editor = .u64 ∨ s.editor = .u32 ∨ s.editor = .usize) (hn : n < parseBound s.editor)
    (hraw : rawGet form s.key.dotted = some (decimal n)) :
    Rerendered validCidr form s (.number n) := by
  have hparse : parseUnsigned (parseBound s.editor) (trim (decimal n)) = some n := by
    rw [trim_decimal]
    exact parseUnsigned_decimal hn
  constructor
  · rcases h with h | h | h <;> rw [h] at hparse <;> simp [postedValue, h, hraw, hparse, resaved]
  · rcases h with h | h | h <;> rw [h] at hparse ⊢
    · have hfield : u64Field form s.key = numberField (parseBound .u64) (some i64Max) form s.key := rfl
      rw [Editor.apply, hfield, numberField, hraw]
      by_cases hrange : InRange s.key.dotted n
      · by_cases hmax : i64Max < n <;> simp [hparse, hrange, hmax, h, Refuses]
      · simp [hparse, hrange, h, Refuses]
    · have hfield : u32Field form s.key = numberField (parseBound .u32) none form s.key := rfl
      rw [Editor.apply, hfield, numberField, hraw]
      by_cases hrange : InRange s.key.dotted n <;> simp [hparse, hrange, h, Refuses]
    · have hfield : usizeField form s.key = numberField (parseBound .usize) none form s.key := rfl
      rw [Editor.apply, hfield, numberField, hraw]
      by_cases hrange : InRange s.key.dotted n <;> simp [hparse, hrange, h, Refuses]

theorem bool_rerendered {b : Bool} (h : s.editor = .bool)
    (hraw : rawGet form s.key.dotted = some (boolToRaw b)) :
    Rerendered validCidr form s (.flag b) := by
  have hparse : parseBoolLiteral (boolToRaw b) = some b := by cases b <;> decide
  constructor
  · simp [postedValue, h, hraw, hparse, resaved]
  · simp [h, Editor.apply, boolField, hraw, hparse, Refuses]

theorem enum_rerendered {names : List Text} {name : Text} (h : s.editor = .enum names)
    (hname : name ∈ names) (hraw : rawGet form s.key.dotted = some name) :
    Rerendered validCidr form s (.choice name) := by
  constructor
  · simp [postedValue, h, hraw, resaved]
  · simp [h, Editor.apply, enumField, hraw, hname, Refuses]

theorem list_rerendered {l : List Text} (h : s.editor = .stringList ∨ s.editor = .cidrList)
    (hraw : rawGet form s.key.dotted = some (joinLines l)) :
    Rerendered validCidr form s (.texts l) := by
  constructor
  · rcases h with h | h <;> simp [postedValue, h, hraw, resaved]
  · rcases h with h | h
    · simp [h, Editor.apply, stringList, hraw, Refuses]
    · cases hfind : (cleanLines (joinLines l)).find? fun entry => !validCidr entry with
      | none =>
        have hvalid := List.find?_eq_none.mp hfind
        simpa [h, Editor.apply, cidrList, hraw, hfind, Refuses] using hvalid
      | some entry =>
        have hinvalid : validCidr entry = false := by simpa using List.find?_some hfind
        have hmem := List.mem_of_find?_eq_some hfind
        simpa [h, Editor.apply, cidrList, hraw, hfind, Refuses] using ⟨entry, hmem, hinvalid⟩

theorem ladder_rerendered {l : List ℤ} (h : s.editor = ladder) (hlen : l.length ≤ recheckMaxSteps)
    (hrange : ∀ d ∈ l, 1 ≤ d ∧ d ≤ recheckMaxDelaySecs)
    (hraw : rawGet form s.key.dotted = some (joinLines (l.map decimalInt))) :
    Rerendered validCidr form s (.delays l) := by
  have hdecimal : ∀ d ∈ l, decimalInt d = decimal d.natAbs := by
    intro d hd
    have hpos := (hrange d hd).1
    exact if_neg (by omega)
  have hclean : cleanLines (joinLines (l.map decimalInt)) = l.map decimalInt := by
    apply cleanLines_joinLines
    intro t ht
    obtain ⟨d, hd, rfl⟩ := List.mem_map.mp ht
    rw [hdecimal d hd]
    refine ⟨trim_decimal _, Nat.toDigits_ne_nil, fun hbreak => ?_⟩
    exact absurd (isDigit_of_mem_decimal hbreak) (by decide)
  have hparse : ∀ d ∈ l, parseI64 (decimalInt d) = some d := by
    intro d hd
    obtain ⟨hpos, hmax⟩ := hrange d hd
    unfold recheckMaxDelaySecs at hmax
    exact parseI64_decimalInt (by omega)
  have hposted : (l.map decimalInt).mapM parseI64 = some l := by
    rw [mapM_eq_some, List.forall₂_map_left_iff]
    exact List.forall₂_same.mpr hparse
  have hdelays : (l.map decimalInt).mapM parseDelay = .ok l := by
    rw [mapM_eq_ok, List.forall₂_map_left_iff]
    refine List.forall₂_same.mpr fun d hd => ?_
    rw [parseDelay, hparse d hd]
  constructor
  · simp [postedValue, h, ladder, hraw, hclean, hposted, resaved]
  · have hlong : ¬ recheckMaxSteps < l.length := by omega
    have hbad : ¬ ∃ n ∈ l, n < 1 ∨ recheckMaxDelaySecs < n := by
      rintro ⟨n, hn, hout⟩
      have hn := hrange n hn
      omega
    by_cases hnil : l = []
    · subst hnil
      simp only [h, ladder, Editor.apply, i64ListField, hraw, hclean, hdelays, if_true, Refuses]
    · simp only [h, ladder, Editor.apply, i64ListField, hraw, hclean, hdelays, hnil, if_neg hlong,
        if_neg hbad, if_false, Refuses]
      exact id

end Settings

section Page

variable {validCidr : Text → Bool} {variantIndex : Item → Option ℕ} {config fileConfig : AppConfig}
  {doc : Document} {s : Setting} {v : Value} {type : FieldType}

theorem rerendered (hs : s ∈ settings) (hfits : Fits s type) (hv : config.get s.key = some v)
    (htype : HasType type v) (htoken : s.editor ≠ .token) :
    Rerendered validCidr (rawFromConfig config) s v := by
  have hraw : ∀ {name t : Text}, (name, t) ∈ renderSetting s v →
      rawGet (rawFromConfig config) name = some t := rawGet_rendered hs hv
  cases type with
  | address =>
    have h : s.editor = .bind := hfits
    cases v with
    | address a => exact bind_rerendered h htype (hraw (by simp [renderSetting, h]))
    | _ => exact htype.elim
  | text =>
    have h : s.editor = .string := hfits.resolve_right htoken
    cases v with
    | text t => exact string_rerendered h (hraw (by simp [renderSetting, h]))
    | _ => exact htype.elim
  | rate =>
    have h : s.editor = .rateLimit := hfits
    cases v with
    | rate r =>
      exact rate_rerendered h htype.1 htype.2 (hraw (by simp [renderSetting, h]))
        (hraw (by simp [renderSetting, h]))
    | _ => exact htype.elim
  | unsigned bound =>
    obtain ⟨h, hbound, -⟩ := hfits
    cases v with
    | number n =>
      refine number_rerendered h (lt_of_lt_of_le htype hbound) (hraw ?_)
      rcases h with h | h | h <;> simp [renderSetting, h]
    | _ => exact htype.elim
  | flag =>
    have h : s.editor = .bool := hfits
    cases v with
    | flag b => exact bool_rerendered h (hraw (by simp [renderSetting, h]))
    | _ => exact htype.elim
  | choice names =>
    have h : s.editor = .enum names := hfits
    cases v with
    | choice name => exact enum_rerendered h htype (hraw (by simp [renderSetting, h]))
    | _ => exact htype.elim
  | strings =>
    obtain ⟨h, -⟩ := hfits
    cases v with
    | texts l =>
      refine list_rerendered h (hraw ?_)
      rcases h with h | h <;> simp [renderSetting, h]
    | _ => exact htype.elim
  | urls =>
    obtain ⟨h, -⟩ := hfits
    cases v with
    | texts l => exact list_rerendered (.inl h) (hraw (by simp [renderSetting, h]))
    | _ => exact htype.elim
  | delays =>
    have h : s.editor = ladder := hfits
    cases v with
    | delays l =>
      exact ladder_rerendered h htype.1 htype.2 (hraw (by simp [renderSetting, h, ladder]))
    | _ => exact htype.elim
  | ignored => exact hfits.elim

theorem token_skipped (hs : s ∈ settings) (h : s.editor = .token) :
    s.editor.apply validCidr (rawFromConfig config) s.key = .skip ∧
      postedValue (rawFromConfig config) s = none := by
  obtain ⟨f, -, -, -, v, hv, -⟩ := exists_value config hs
  have hraw : rawGet (rawFromConfig config) s.key.dotted = some [] :=
    rawGet_rendered hs hv (by cases v <;> simp [renderSetting, h])
  constructor
  · simp [h, Editor.apply, tokenField, hraw, trim, trimStart, trimEnd]
  · simp [postedValue, h, hraw, trim, trimStart, trimEnd]

/-- A value of the page that its helper turns down, or a section of the file that cannot be
written. -/
def PageRefused (validCidr : Text → Bool) (config : AppConfig) (doc : Document) : Prop :=
  ∃ s ∈ settings, s.editor ≠ .token ∧
    ((∃ v, config.get s.key = some v ∧ Refuses validCidr s v) ∨ ¬ Writable doc s.key.section_)

/-- Each value of the page, read back, is the value of the file. -/
def PageAgrees (config fileConfig : AppConfig) : Prop :=
  ∀ s ∈ settings, s.editor ≠ .token →
    (config.get s.key).map (resaved s) = fileConfig.get s.key

theorem accepted_rendered (hs : s ∈ settings) :
    Accepted validCidr (rawFromConfig config) doc s ↔
      (s.editor ≠ .token → (∀ v, config.get s.key = some v → ¬ Refuses validCidr s v) ∧
        Writable doc s.key.section_) := by
  by_cases htoken : s.editor = .token
  · rw [Accepted, (token_skipped hs htoken).1]
    exact iff_of_true trivial fun h => absurd htoken h
  · obtain ⟨f, -, -, hfits, v, hv, htype⟩ := exists_value config hs
    have happlied := (rerendered hs hfits hv htype htoken : Rerendered validCidr _ s v).applied
    have hall : (∀ v, config.get s.key = some v → ¬ Refuses validCidr s v) ↔
        ¬ Refuses validCidr s v := by
      simp [hv]
    rw [hall, Accepted]
    cases happly : s.editor.apply validCidr (rawFromConfig config) s.key with
    | skip =>
      rw [happly] at happlied
      exact happlied.elim
    | error field message =>
      rw [happly] at happlied
      exact iff_of_false id fun h => (h htoken).1 happlied
    | write item =>
      rw [happly] at happlied
      exact ⟨fun h _ => ⟨happlied, h⟩, fun h => (h htoken).2⟩

theorem backoff_rendered {f : Field} (hf : f ∈ schema) (htype : f.type = u64)
    (hs : ⟨f.key, .u64⟩ ∈ settings) : ∃ n, config.get f.key = some (.number n) ∧
      (rawGet (rawFromConfig config) f.key.dotted).bind parseU64 = some n := by
  obtain ⟨v, hv, hvalue⟩ := config.hasType_get hf
  rw [htype] at hvalue
  obtain ⟨n, rfl⟩ := number_of_hasType hvalue
  have hraw : rawGet (rawFromConfig config) f.key.dotted = some (decimal n) :=
    @rawGet_rendered config ⟨f.key, .u64⟩ (.number n) hs hv _ _ List.mem_cons_self
  refine ⟨n, hv, ?_⟩
  rw [hraw]
  exact parseUnsigned_decimal hvalue

theorem ordered_get {lo hi : ℕ} (hlo : config.get backoffInitial.key = some (.number lo))
    (hhi : config.get backoffMax.key = some (.number hi)) : lo ≤ hi := by
  have hordered := config.ordered
  rwa [BackoffOrdered, numberAt_eq hlo, numberAt_eq hhi] at hordered

theorem backoffErrors_rendered : backoffErrors (rawFromConfig config) = [] := by
  obtain ⟨lo, hlo, hrawLo⟩ := @backoff_rendered config _ backoffInitial_mem rfl (by decide +kernel)
  obtain ⟨hi, hhi, hrawHi⟩ := @backoff_rendered config _ backoffMax_mem rfl (by decide +kernel)
  have hle := ordered_get hlo hhi
  have hnot : ¬ hi < lo := by omega
  simp [backoffErrors, hrawLo, hrawHi, hnot]

theorem applyAll_errors_rendered :
    (applyAll validCidr (rawFromConfig config) doc).errors = [] ↔
      ¬ PageRefused validCidr config doc := by
  rw [applyAll_errors]
  constructor
  · rintro ⟨haccepted, -⟩ ⟨s, hs, htoken, hrefused⟩
    obtain ⟨hvalue, hwritable⟩ := (accepted_rendered hs).mp (haccepted s hs) htoken
    rcases hrefused with ⟨v, hv, hrefuses⟩ | hlocked
    · exact hvalue v hv hrefuses
    · exact hlocked hwritable
  · intro h
    refine ⟨fun s hs => (accepted_rendered hs).mpr fun htoken => ⟨?_, ?_⟩, backoffErrors_rendered⟩
    · exact fun v hv hrefuses => h ⟨s, hs, htoken, .inl ⟨v, hv, hrefuses⟩⟩
    · by_contra hlocked
      exact h ⟨s, hs, htoken, .inr hlocked⟩

theorem urlsPosted_of_load {form : Form}
    (herrors : (applyAll validCidr form doc).errors = [])
    (hsaved : load variantIndex [] (applyAll validCidr form doc).doc = some config) :
    UrlsPosted [] form := by
  obtain ⟨haccepted, -⟩ := applyAll_errors.mp herrors
  refine .inr fun s hs hkey hempty => ?_
  have hurl : ∀ s ∈ settings, s.key = urlKey → s.editor = .stringList := by decide +kernel
  have heditor := hurl s hs hkey
  obtain ⟨f, hf, hfkey, htype⟩ : ∃ f ∈ schema, f.key = urlKey ∧ f.type = .urls := by decide +kernel
  obtain ⟨raw, hraw, hlines⟩ : ∃ raw, rawGet form s.key.dotted = some raw ∧
      (cleanLines raw).flatMap splitUrls = [] := by
    cases hraw : rawGet form s.key.dotted with
    | none => simp [postedValue, heditor, hraw] at hempty
    | some raw =>
      refine ⟨raw, rfl, ?_⟩
      rw [postedValue] at hempty
      simp only [heditor, hraw, Option.map_some, if_pos hkey] at hempty
      injection hempty with hempty
      injection hempty
  have hitem : writtenItem validCidr form s = some (stringArray (cleanLines raw)) := by
    simp [writtenItem, heditor, Editor.apply, stringList, hraw]
  obtain ⟨hknown, hread⟩ := load_eq_some_iff.mp hsaved
  have hfield := hread f hf
  rw [readField_merge hknown hf, get_applyAll haccepted, hfkey, ← hkey, find_setting hs,
    Option.bind_some, hitem, htype] at hfield
  obtain ⟨w, hw, -⟩ := config.hasType_get hf
  rw [hfkey, ← hkey] at hw
  have hread' : readValue variantIndex .urls (stringArray (cleanLines raw)) = none := by
    simp only [readValue, readTestUrls, stringArray, mapM_scalarString, Option.bind_eq_bind,
      Option.bind_some, hlines, finishUrls, if_true, Option.map_none]
  rw [hw] at hfield
  exact absurd (hread'.symm.trans hfield) (by simp)

theorem savedValue_rendered (hs : s ∈ settings) :
    savedValue [] (rawFromConfig config) fileConfig s =
      if s.editor = .token then fileConfig.get s.key
      else (config.get s.key).map (resaved s) := by
  have henv : TomlDocument.get [] s.key = none := rfl
  rw [savedValue, henv, if_neg (by simp)]
  by_cases htoken : s.editor = .token
  · rw [if_pos htoken, (@token_skipped (fun _ => true) config s hs htoken).2, Option.none_or]
  · obtain ⟨f, -, -, hfits, v, hv, htype⟩ := exists_value config hs
    have hposted := (rerendered hs hfits hv htype htoken : Rerendered (fun _ => true) _ s v).posted
    rw [if_neg htoken, hposted, hv]
    rfl

theorem load_saved_iff (hload : load variantIndex [] doc = some fileConfig)
    (herrors : (applyAll validCidr (rawFromConfig config) doc).errors = []) :
    load variantIndex [] (applyAll validCidr (rawFromConfig config) doc).doc = some fileConfig ↔
      PageAgrees config fileConfig := by
  constructor
  · intro hsaved s hs htoken
    obtain ⟨haccepted, -⟩ := applyAll_errors.mp herrors
    obtain ⟨f, hf, hkey, hfits⟩ := settings_fit s hs
    have hread := readField_saved hload haccepted (urlsPosted_of_load herrors hsaved) hs hf
      hkey hfits
    rw [(load_eq_some_iff.mp hsaved).2 f hf, savedValue_rendered hs, if_neg htoken, hkey] at hread
    exact hread.symm
  · intro hagrees
    have hvalue : ∀ s ∈ settings,
        savedValue [] (rawFromConfig config) fileConfig s = fileConfig.get s.key := by
      intro s hs
      rw [savedValue_rendered hs]
      split_ifs with htoken
      · rfl
      · exact hagrees s hs htoken
    have hurls : UrlsPosted [] (rawFromConfig config) := by
      refine .inr fun s hs hkey hempty => ?_
      obtain ⟨f, hf, hfkey, htype⟩ : ∃ f ∈ schema, f.key = urlKey ∧ f.type = .urls := by
        decide +kernel
      obtain ⟨w, hw, hwtype⟩ := fileConfig.hasType_get hf
      have hsame := hvalue s hs
      have henv : TomlDocument.get [] s.key = none := rfl
      rw [savedValue, henv, hempty, if_neg (by simp), Option.some_or, hkey, ← hfkey, hw] at hsame
      obtain rfl := Option.some.inj hsame
      rw [htype] at hwtype
      exact hwtype.1 rfl
    have hbackoff : BackoffKept [] (rawFromConfig config) fileConfig := by
      intro lo hi hlo hhi
      rw [hvalue initialSetting (by decide +kernel)] at hlo
      rw [hvalue maxSetting (by decide +kernel)] at hhi
      exact ordered_get hlo hhi
    obtain ⟨config', hload', hsettings, hrest⟩ := exists_load_saved hload herrors hurls hbackoff
    rw [hload']
    congr 1
    apply AppConfig.ext_get
    intro f hf
    by_cases hin : ∃ s ∈ settings, s.key = f.key
    · obtain ⟨s, hs, hkey⟩ := hin
      rw [← hkey, hsettings s hs, hvalue s hs]
    · push Not at hin
      exact hrest f hf hin

/-- Posting the page back unedited is refused, or leaves a file that loads as before without the
environment, exactly when a value of the page is refused or all of them are those of the file. -/
theorem unedited_save_iff (env : Document) (live : AppConfig)
    (hload : load variantIndex [] doc = some fileConfig) :
    let page := renderedConfig variantIndex env live doc
    let saved := settingsUpdate validCidr (rawFromConfig page) doc
    ((applyAll validCidr (rawFromConfig page) doc).errors ≠ [] ∧ saved = doc ∨
        load variantIndex [] saved = some fileConfig) ↔
      PageRefused validCidr page doc ∨ PageAgrees page fileConfig := by
  intro page saved
  by_cases hrefused : PageRefused validCidr page doc
  · have herrors : (applyAll validCidr (rawFromConfig page) doc).errors ≠ [] := fun herrors =>
      applyAll_errors_rendered.mp herrors hrefused
    exact iff_of_true (.inl ⟨herrors, if_neg herrors⟩) (.inl hrefused)
  · have herrors := applyAll_errors_rendered.mpr hrefused
    have hsaved : saved = (applyAll validCidr (rawFromConfig page) doc).doc := if_pos herrors
    rw [hsaved, load_saved_iff hload herrors]
    constructor
    · rintro (⟨hsome, -⟩ | hagrees)
      · exact absurd herrors hsome
      · exact .inr hagrees
    · rintro (hpage | hagrees)
      · exact absurd hpage hrefused
      · exact .inr hagrees

end Page

section Samples

def databaseFile : Document := [("database", .table false [("path", stringItem "fumox.db")])]

def databaseEnv : Document := [("database", .table false [("path", stringItem "/tmp/env.db")])]

theorem exists_load_databaseFile : ∃ fileConfig,
    load (fun _ => none) [] databaseFile = some fileConfig ∧
      fileConfig.get ⟨"database", "path"⟩ = some (.text "fumox.db") := by
  have hfile : (load (fun _ => none) [] databaseFile).map
      (fun c => c.get ⟨"database", "path"⟩) = some (some (.text "fumox.db")) := by
    decide +kernel
  exact Option.map_eq_some_iff.mp hfile

theorem unedited_save_iff_sample : ∃ fileConfig,
    load (fun _ => none) [] databaseFile = some fileConfig ∧
      (((applyAll (fun _ => true) (rawFromConfig
            (renderedConfig (fun _ => none) [] fileConfig databaseFile)) databaseFile).errors ≠ [] ∧
          settingsUpdate (fun _ => true) (rawFromConfig
            (renderedConfig (fun _ => none) [] fileConfig databaseFile)) databaseFile =
              databaseFile ∨
        load (fun _ => none) [] (settingsUpdate (fun _ => true) (rawFromConfig
            (renderedConfig (fun _ => none) [] fileConfig databaseFile)) databaseFile) =
          some fileConfig) ↔
        PageRefused (fun _ => true) (renderedConfig (fun _ => none) [] fileConfig databaseFile)
            databaseFile ∨
          PageAgrees (renderedConfig (fun _ => none) [] fileConfig databaseFile) fileConfig) := by
  obtain ⟨fileConfig, hload, -⟩ := exists_load_databaseFile
  exact ⟨fileConfig, hload, unedited_save_iff [] fileConfig hload⟩

/-- The path of the environment is written into the file. -/
theorem environment_enters_file :
    ∃ fileConfig page config', load (fun _ => none) [] databaseFile = some fileConfig ∧
      load (fun _ => none) databaseEnv databaseFile = some page ∧
      (applyAll (fun _ => true) (rawFromConfig page) databaseFile).errors = [] ∧
      load (fun _ => none) [] (settingsUpdate (fun _ => true) (rawFromConfig page) databaseFile) =
        some config' ∧
      fileConfig.get ⟨"database", "path"⟩ = some (.text "fumox.db") ∧
      config'.get ⟨"database", "path"⟩ = some (.text "/tmp/env.db") := by
  have hpage : (load (fun _ => none) databaseEnv databaseFile).map
      (fun page => ((applyAll (fun _ => true) (rawFromConfig page) databaseFile).errors,
        (load (fun _ => none) []
          (settingsUpdate (fun _ => true) (rawFromConfig page) databaseFile)).map
            (fun c => c.get ⟨"database", "path"⟩))) =
      some ([], some (some (.text "/tmp/env.db"))) := by
    decide +kernel
  obtain ⟨fileConfig, hload, hpath⟩ := exists_load_databaseFile
  obtain ⟨page, hload', hboth⟩ := Option.map_eq_some_iff.mp hpage
  obtain ⟨herrors, hsaved⟩ := Prod.mk.inj hboth
  obtain ⟨config', hload'', hpath'⟩ := Option.map_eq_some_iff.mp hsaved
  exact ⟨fileConfig, page, config', hload, hload', herrors, hload'', hpath, hpath'⟩

end Samples

end UneditedSave
