import Fumox.ItemList
import Fumox.PayloadGuards
import Fumox.SocketText
import Fumox.TomlDocument

/-!
`config::load`: the file merged with the environment, read field by field at the types of the
configuration, with the deserialisers of the source and its one check across fields.
-/

namespace ConfigLoader

open RustText PayloadGuards SocketText TomlDocument

/-- A number of requests in a window of seconds. -/
structure RateLimit where
  limit : ℕ
  window : ℕ
  deriving DecidableEq, Repr

inductive Value where
  | address (a : SocketAddr)
  | text (t : Text)
  | rate (r : RateLimit)
  | number (n : ℕ)
  | flag (b : Bool)
  | choice (name : Text)
  | texts (l : List Text)
  | delays (l : List ℤ)
  | unit
  deriving DecidableEq, Repr

inductive FieldType where
  | address
  | text
  | rate
  | unsigned (bound : ℕ)
  | flag
  | choice (names : List Text)
  | strings
  /-- `de_test_urls` -/
  | urls
  /-- `de_recheck_delays` -/
  | delays
  /-- `de_ignore_legacy` -/
  | ignored
  deriving DecidableEq, Repr

structure Field where
  key : Key
  type : FieldType
  default : Value
  deriving DecidableEq, Repr

def rateUnit (unit : Text) : Option ℕ :=
  if unit = ("s" : Text) ∨ unit = ("sec" : Text) ∨ unit = ("second" : Text) then some 1
  else if unit = ("m" : Text) ∨ unit = ("min" : Text) ∨ unit = ("minute" : Text) then some 60
  else if unit = ("h" : Text) ∨ unit = ("hour" : Text) then some 3600
  else if unit = ("d" : Text) ∨ unit = ("day" : Text) then some 86400
  else none

def RateLimit.fromStr (t : Text) : Option RateLimit := do
  let (num, unit) ← splitOnce '/' (trim t)
  let limit ← parseU32 (trim num)
  let secs ← rateUnit (toAsciiLowercase (trim unit))
  return ⟨limit, secs⟩

/-- A bare integer counts requests per minute. -/
def readRate : Item → Option RateLimit
  | .scalar (.string t) => RateLimit.fromStr t
  | .scalar (.integer n) => if 0 ≤ n ∧ n < 2 ^ 32 then some ⟨n.toNat, 60⟩ else none
  | _ => none

def readUnsigned (bound : ℕ) : Item → Option ℕ
  | .scalar (.integer n) => if 0 ≤ n ∧ n < bound then some n.toNat else none
  | _ => none

def scalarString : Scalar → Option Text
  | .string t => some t
  | _ => none

def readStrings : Item → Option (List Text)
  | .array items => items.mapM scalarString
  | _ => none

def splitUrls (value : Text) : List Text :=
  ((value.splitOn ',').map trim).filter (· ≠ [])

def finishUrls (urls : List Text) : Option (List Text) :=
  if urls = [] then none else some urls

def readTestUrls : Item → Option (List Text)
  | .scalar (.string t) => finishUrls (splitUrls t)
  | .array items => do
    let texts ← items.mapM scalarString
    finishUrls (texts.flatMap splitUrls)
  | _ => none

def recheckMaxSteps : ℕ := 16

def recheckMaxDelaySecs : ℤ := 30 * 24 * 60 * 60

def scalarI64 : Scalar → Option ℤ
  | .integer n => if -2 ^ 63 ≤ n ∧ n < 2 ^ 63 then some n else none
  | _ => none

def readRecheckDelays : Item → Option (List ℤ)
  | .array items => do
    let delays ← items.mapM scalarI64
    if delays.length ≤ recheckMaxSteps ∧ ∀ d ∈ delays, 1 ≤ d ∧ d ≤ recheckMaxDelaySecs then
      some delays
    else none
  | _ => none

section Reading

-- the variant the configuration library sees in an item that is not a string
variable (variantIndex : Item → Option ℕ)

def readChoice (names : List Text) : Item → Option Text
  | .scalar (.string t) => if t ∈ names then some t else none
  | item => (variantIndex item).bind fun i => names[i]?

def readValue : FieldType → Item → Option Value
  | .address, .scalar (.string t) => (parseSocketAddr t).map .address
  | .text, .scalar (.string t) => some (.text t)
  | .rate, item => (readRate item).map .rate
  | .unsigned bound, item => (readUnsigned bound item).map .number
  | .flag, .scalar (.boolean b) => some (.flag b)
  | .choice names, item => (readChoice variantIndex names item).map .choice
  | .strings, item => (readStrings item).map .texts
  | .urls, item => (readTestUrls item).map .texts
  | .delays, item => (readRecheckDelays item).map .delays
  | .ignored, _ => some .unit
  | _, _ => none

end Reading

def u32 : FieldType := .unsigned (2 ^ 32)

def u64 : FieldType := .unsigned (2 ^ 64)

/-- `usize` of a 64-bit target. -/
def usize : FieldType := .unsigned (2 ^ 64)

def perMinute (limit : ℕ) : Value := .rate ⟨limit, 60⟩

def ipFamilies : List Text := ["any", "ipv4", "ipv6"]

def logLevels : List Text := ["error", "warn", "info", "debug", "trace"]

def defaultTestUrls : List Text :=
  ["http://www.gstatic.com/generate_204",
   "http://connectivitycheck.gstatic.com/generate_204",
   "http://www.google.com/generate_204",
   "http://www.googleapis.com/generate_204",
   "http://play.googleapis.com/generate_204",
   "http://connectivitycheck.android.com/generate_204",
   "http://clients3.google.com/generate_204"]

def serverConfig : List Field :=
  [⟨⟨"server", "bind"⟩, .address, .address (.v4 0 0 0 0 8080)⟩,
   ⟨⟨"server", "rate_limit"⟩, .rate, perMinute 300⟩,
   ⟨⟨"server", "auth_fail_rate_limit"⟩, .rate, perMinute 30⟩,
   ⟨⟨"server", "trust_proxy_ips"⟩, .strings, .texts []⟩,
   ⟨⟨"server", "allowed_hosts"⟩, .strings, .texts []⟩,
   ⟨⟨"server", "export_max_rows"⟩, u32, .number 50000⟩]

def databaseConfig : List Field :=
  [⟨⟨"database", "path"⟩, .text, .text "fumox.db"⟩,
   ⟨⟨"database", "busy_timeout_ms"⟩, u32, .number 5000⟩,
   ⟨⟨"database", "max_connections"⟩, u32, .number 8⟩]

def fetchConfig : List Field :=
  [⟨⟨"fetch", "connect_timeout_secs"⟩, u64, .number 10⟩,
   ⟨⟨"fetch", "read_timeout_secs"⟩, u64, .number 30⟩,
   ⟨⟨"fetch", "max_response_bytes"⟩, u64, .number (10 * 1024 * 1024)⟩,
   ⟨⟨"fetch", "max_concurrency"⟩, usize, .number 4⟩,
   ⟨⟨"fetch", "max_retries"⟩, u32, .number 2⟩,
   ⟨⟨"fetch", "retry_base_backoff_ms"⟩, u64, .number 500⟩,
   ⟨⟨"fetch", "user_agent"⟩, .text, .text "fumox/0.1.0"⟩,
   ⟨⟨"fetch", "ip_family"⟩, .choice ipFamilies, .choice "any"⟩]

def ingestConfig : List Field :=
  [⟨⟨"ingest", "refresh_check_limit"⟩, u32, .number 50⟩,
   ⟨⟨"ingest", "drop_gate"⟩, .flag, .flag false⟩,
   ⟨⟨"ingest", "removed_as_unknown"⟩, .flag, .flag false⟩]

def geoConfig : List Field :=
  [⟨⟨"geo", "enabled"⟩, .flag, .flag true⟩,
   ⟨⟨"geo", "db"⟩, .ignored, .unit⟩,
   ⟨⟨"geo", "db_dir"⟩, .text, .text "config"⟩,
   ⟨⟨"geo", "cache_max_entries"⟩, u64, .number 16384⟩,
   ⟨⟨"geo", "dns_timeout_secs"⟩, u64, .number 5⟩,
   ⟨⟨"geo", "startup_download_budget_secs"⟩, u64, .number 60⟩]

def adminConfig : List Field :=
  [⟨⟨"admin", "enabled"⟩, .flag, .flag true⟩,
   ⟨⟨"admin", "token"⟩, .text, .text "change-me"⟩,
   ⟨⟨"admin", "bind"⟩, .address, .address (.v4 127 0 0 1 8081)⟩,
   ⟨⟨"admin", "session_ttl_hours"⟩, u32, .number 168⟩,
   ⟨⟨"admin", "allow_private_urls"⟩, .flag, .flag false⟩,
   ⟨⟨"admin", "rate_limit"⟩, .rate, perMinute 120⟩,
   ⟨⟨"admin", "login_rate_limit"⟩, .rate, perMinute 5⟩,
   ⟨⟨"admin", "secure_cookies"⟩, .flag, .flag false⟩,
   ⟨⟨"admin", "locales_dir"⟩, .text, .text "locales"⟩,
   ⟨⟨"admin", "trust_proxy_ips"⟩, .strings, .texts []⟩,
   ⟨⟨"admin", "allowed_hosts"⟩, .strings, .texts []⟩]

def probeConfig : List Field :=
  [⟨⟨"probe", "cycle_interval_secs"⟩, u64, .number 60⟩,
   ⟨⟨"probe", "sample_size"⟩, u32, .number 50⟩,
   ⟨⟨"probe", "fail_limit"⟩, u32, .number 3⟩,
   ⟨⟨"probe", "allow_private_targets"⟩, .flag, .flag false⟩,
   ⟨⟨"probe", "connect_timeout_secs"⟩, u64, .number 10⟩,
   ⟨⟨"probe", "tls_timeout_secs"⟩, u64, .number 10⟩,
   ⟨⟨"probe", "concurrency"⟩, usize, .number 8⟩,
   ⟨⟨"probe", "heartbeat_interval_secs"⟩, u64, .number 30⟩,
   ⟨⟨"probe", "second_chance_min_hours"⟩, u64, .number 12⟩,
   ⟨⟨"probe", "second_chance_spread_hours"⟩, u64, .number 4⟩,
   ⟨⟨"probe", "recheck_delays_secs"⟩, .delays, .delays [15 * 60, 30 * 60, 60 * 60]⟩,
   ⟨⟨"probe", "queue_stale_days"⟩, u64, .number 7⟩,
   ⟨⟨"probe", "retention_interval_secs"⟩, u64, .number 86400⟩,
   ⟨⟨"probe", "backlog_target_drain_minutes"⟩, u64, .number 60⟩]

def backoffInitial : Field := ⟨⟨"meow", "backoff_initial_secs"⟩, u64, .number 60⟩

def backoffMax : Field := ⟨⟨"meow", "backoff_max_secs"⟩, u64, .number (15 * 60)⟩

def meowConfig : List Field :=
  [⟨⟨"meow", "api_addr"⟩, .text, .text "127.0.0.1:9090"⟩,
   ⟨⟨"meow", "config_path"⟩, .text, .text "config/meow.yaml"⟩,
   ⟨⟨"meow", "test_url"⟩, .urls, .texts defaultTestUrls⟩,
   ⟨⟨"meow", "timeout_secs"⟩, u64, .number 10⟩,
   backoffInitial,
   backoffMax,
   ⟨⟨"meow", "ipv6"⟩, .flag, .flag false⟩]

def retentionConfig : List Field :=
  [⟨⟨"retention", "probe_results_days"⟩, u32, .number 14⟩,
   ⟨⟨"retention", "fetch_log_days"⟩, u32, .number 30⟩]

def logConfig : List Field :=
  [⟨⟨"log", "server"⟩, .choice logLevels, .choice "info"⟩,
   ⟨⟨"log", "probe"⟩, .choice logLevels, .choice "info"⟩]

def schema : List Field :=
  serverConfig ++ databaseConfig ++ fetchConfig ++ ingestConfig ++ geoConfig ++ adminConfig ++
    probeConfig ++ meowConfig ++ retentionConfig ++ logConfig

def sectionNames : List Text :=
  ["server", "database", "fetch", "ingest", "geo", "admin", "probe", "meow", "retention", "log"]

theorem nodup_schema : (schema.map Field.key).Nodup := by decide +kernel

theorem section_of_schema : ∀ f ∈ schema, f.key.section_ ∈ sectionNames := by decide +kernel

/-- What the deserialiser of a type promises of its values. -/
def HasType : FieldType → Value → Prop
  | .address, .address a => a.Valid
  | .text, .text _ => True
  | .rate, .rate r => r.limit < 2 ^ 32 ∧ r.window ∈ [1, 60, 3600, 86400]
  | .unsigned bound, .number n => n < bound
  | .flag, .flag _ => True
  | .choice names, .choice name => name ∈ names
  | .strings, .texts _ => True
  | .urls, .texts l => l ≠ [] ∧ ∀ url ∈ l, trim url = url ∧ url ≠ [] ∧ ',' ∉ url
  | .delays, .delays l =>
    l.length ≤ recheckMaxSteps ∧ ∀ d ∈ l, 1 ≤ d ∧ d ≤ recheckMaxDelaySecs
  | .ignored, .unit => True
  | _, _ => False

instance (type : FieldType) (v : Value) : Decidable (HasType type v) := by
  unfold HasType
  cases type <;> cases v <;> infer_instance

theorem number_of_hasType {bound : ℕ} {v : Value} (h : HasType (.unsigned bound) v) :
    ∃ n, v = .number n := by
  cases v with
  | number n => exact ⟨n, rfl⟩
  | _ => exact h.elim

/-- Every default passes the check of its own field. -/
theorem hasType_default : ∀ f ∈ schema, HasType f.type f.default := by decide +kernel

theorem rateUnit_mem {unit : Text} {secs : ℕ} (h : rateUnit unit = some secs) :
    secs ∈ [1, 60, 3600, 86400] := by
  unfold rateUnit at h
  split_ifs at h <;> cases h <;> decide

theorem readRate_valid {item : Item} {r : RateLimit} (h : readRate item = some r) :
    r.limit < 2 ^ 32 ∧ r.window ∈ [1, 60, 3600, 86400] := by
  unfold readRate at h
  split at h
  · obtain ⟨⟨num, unit⟩, -, h⟩ := Option.bind_eq_some_iff.mp h
    obtain ⟨limit, hlimit, h⟩ := Option.bind_eq_some_iff.mp h
    obtain ⟨secs, hsecs, h⟩ := Option.bind_eq_some_iff.mp h
    cases h
    exact ⟨parseUnsigned_lt hlimit, rateUnit_mem hsecs⟩
  · split_ifs at h with hn
    cases h
    exact ⟨by simp only; omega, by simp⟩
  · cases h

theorem mem_splitUrls {value url : Text} (h : url ∈ splitUrls value) :
    trim url = url ∧ url ≠ [] ∧ ',' ∉ url := by
  have hitem := ItemList.isItem_of_mem h
  exact ⟨hitem.trimmed, hitem.visible, hitem.plain⟩

theorem readTestUrls_valid {item : Item} {l : List Text} (h : readTestUrls item = some l) :
    l ≠ [] ∧ ∀ url ∈ l, trim url = url ∧ url ≠ [] ∧ ',' ∉ url := by
  have hfinish : ∀ {urls : List Text}, finishUrls urls = some l → urls ≠ [] ∧ l = urls := by
    intro urls hfin
    unfold finishUrls at hfin
    split_ifs at hfin with hne
    exact ⟨hne, (Option.some.inj hfin).symm⟩
  unfold readTestUrls at h
  split at h
  · obtain ⟨hne, rfl⟩ := hfinish h
    exact ⟨hne, fun url hurl => mem_splitUrls hurl⟩
  · obtain ⟨texts, -, h⟩ := Option.bind_eq_some_iff.mp h
    obtain ⟨hne, rfl⟩ := hfinish h
    refine ⟨hne, fun url hurl => ?_⟩
    obtain ⟨t, -, hurl⟩ := List.mem_flatMap.mp hurl
    exact mem_splitUrls hurl
  · cases h

theorem readValue_hasType {variantIndex : Item → Option ℕ} {type : FieldType} {item : Item} {v : Value}
    (h : readValue variantIndex type item = some v) : HasType type v := by
  unfold readValue at h
  split at h
  · obtain ⟨a, ha, rfl⟩ := Option.map_eq_some_iff.mp h
    exact valid_of_parse ha
  · cases h
    trivial
  · obtain ⟨r, hr, rfl⟩ := Option.map_eq_some_iff.mp h
    exact readRate_valid hr
  · obtain ⟨n, hn, rfl⟩ := Option.map_eq_some_iff.mp h
    unfold readUnsigned at hn
    split at hn
    · split_ifs at hn with hbound
      cases hn
      show _ < _
      omega
    · cases hn
  · cases h
    trivial
  · obtain ⟨name, hname, rfl⟩ := Option.map_eq_some_iff.mp h
    unfold readChoice at hname
    split at hname
    · split_ifs at hname with hmem
      cases hname
      exact hmem
    · obtain ⟨i, -, hname⟩ := Option.bind_eq_some_iff.mp hname
      exact List.mem_of_getElem? hname
  · obtain ⟨l, -, rfl⟩ := Option.map_eq_some_iff.mp h
    trivial
  · obtain ⟨l, hl, rfl⟩ := Option.map_eq_some_iff.mp h
    exact readTestUrls_valid hl
  · obtain ⟨l, hl, rfl⟩ := Option.map_eq_some_iff.mp h
    unfold readRecheckDelays at hl
    split at hl
    · obtain ⟨delays, -, hl⟩ := Option.bind_eq_some_iff.mp hl
      split_ifs at hl with hdelays
      cases hl
      exact hdelays
    · cases hl
  · cases h
    trivial
  · cases h

/-- `deny_unknown_fields` of one section. -/
def SectionKnown (doc : Document) (name : Text) : Prop :=
  match doc.lookup name with
  | none => True
  | some (.table _ entries) =>
    ∀ leaf ∈ entries.map Prod.fst, (⟨name, leaf⟩ : Key) ∈ schema.map Field.key
  | some (.value _) => False

instance (doc : Document) (name : Text) : Decidable (SectionKnown doc name) := by
  unfold SectionKnown
  exact match doc.lookup name with
    | none => inferInstanceAs (Decidable True)
    | some (.table _ entries) => inferInstanceAs (Decidable (∀ leaf ∈ entries.map Prod.fst, _ ∈ _))
    | some (.value _) => inferInstanceAs (Decidable False)

def Known (doc : Document) : Prop :=
  (∀ name ∈ doc.map Prod.fst, name ∈ sectionNames) ∧ ∀ name ∈ sectionNames, SectionKnown doc name

instance (doc : Document) : Decidable (Known doc) := inferInstanceAs (Decidable (_ ∧ _))

def lookupValue (values : List Value) (key : Key) : Option Value :=
  ((schema.map Field.key).zip values).lookup key

def numberAt (values : List Value) (key : Key) : ℕ :=
  match lookupValue values key with
  | some (.number n) => n
  | _ => 0

/-- `AppConfig::validate` -/
def BackoffOrdered (values : List Value) : Prop :=
  numberAt values backoffInitial.key ≤ numberAt values backoffMax.key

instance (values : List Value) : Decidable (BackoffOrdered values) :=
  inferInstanceAs (Decidable (_ ≤ _))

/-- A loaded configuration: a value of every field, in the order of the fields. -/
structure AppConfig where
  values : List Value
  typed : List.Forall₂ (fun f v => HasType f.type v) schema values
  ordered : BackoffOrdered values

def AppConfig.get (config : AppConfig) (key : Key) : Option Value :=
  lookupValue config.values key

section Loading

variable (variantIndex : Item → Option ℕ)

def readField (doc : Document) (f : Field) : Option Value :=
  match TomlDocument.get doc f.key with
  | some item => readValue variantIndex f.type item
  | none => some f.default

theorem readField_hasType {doc : Document} {f : Field} {v : Value} (hf : f ∈ schema)
    (h : readField variantIndex doc f = some v) : HasType f.type v := by
  unfold readField at h
  split at h
  · exact readValue_hasType h
  · cases h
    exact hasType_default f hf

theorem mapM_eq_some {α β : Type*} {f : α → Option β} {l : List α} {m : List β} :
    l.mapM f = some m ↔ List.Forall₂ (fun a b => f a = some b) l m := by
  induction l generalizing m with
  | nil => cases m <;> simp
  | cons a l ih =>
    rw [List.mapM_cons, Option.bind_eq_bind, Option.bind_eq_some_iff]
    constructor
    · rintro ⟨b, hb, hrest⟩
      obtain ⟨bs, hbs, heq⟩ := Option.bind_eq_some_iff.mp hrest
      obtain rfl := Option.some.inj heq
      exact .cons hb (ih.mp hbs)
    · rintro (_ | ⟨hb, hbs⟩)
      exact ⟨_, hb, Option.bind_eq_some_iff.mpr ⟨_, ih.mpr hbs, rfl⟩⟩

theorem typed_of_mapM {doc : Document} {values : List Value}
    (h : schema.mapM (readField variantIndex doc) = some values) :
    List.Forall₂ (fun f v => HasType f.type v) schema values := by
  have hall := mapM_eq_some.mp h
  rw [List.forall₂_iff_get] at hall ⊢
  refine ⟨hall.1, fun i hi hv => ?_⟩
  exact readField_hasType variantIndex (List.get_mem schema ⟨i, hi⟩) (hall.2 i hi hv)

/-- `config::load` of a file under the environment. -/
def load (env doc : Document) : Option AppConfig :=
  if Known (merge doc env) then
    match h : schema.mapM (readField variantIndex (merge doc env)) with
    | some values =>
      if ho : BackoffOrdered values then some ⟨values, typed_of_mapM variantIndex h, ho⟩ else none
    | none => none
  else none

end Loading

section Columns

variable {α β κ : Type*} [BEq κ] [LawfulBEq κ] [DecidableEq κ] {key : α → κ} {R : α → β → Prop}
  {l : List α} {m m' : List β}

theorem lookup_zip_cons {a : α} {b : β} (k : κ) :
    (((a :: l).map key).zip (b :: m)).lookup k =
      if k = key a then some b else ((l.map key).zip m).lookup k := by
  rw [List.map_cons, List.zip_cons_cons, lookup_pair]

theorem lookup_zip_of_forall₂ (h : List.Forall₂ R l m) (hnodup : (l.map key).Nodup) {a : α}
    (ha : a ∈ l) : ∃ b, ((l.map key).zip m).lookup (key a) = some b ∧ R a b := by
  induction h with
  | nil => cases ha
  | @cons c b l m hR hrest ih =>
    rw [List.map_cons, List.nodup_cons] at hnodup
    rw [lookup_zip_cons]
    rcases List.mem_cons.mp ha with rfl | ha
    · rw [if_pos rfl]
      exact ⟨b, rfl, hR⟩
    · have hne : key a ≠ key c := fun heq => hnodup.1 (heq ▸ List.mem_map_of_mem ha)
      rw [if_neg hne]
      exact ih hnodup.2 ha

theorem lookup_zip_get (hm : l.length = m.length) (hnodup : (l.map key).Nodup) {i : ℕ}
    (hi : i < l.length) (hi' : i < m.length) :
    ((l.map key).zip m).lookup (key (l.get ⟨i, hi⟩)) = some (m.get ⟨i, hi'⟩) := by
  induction l generalizing m i with
  | nil => cases hi
  | cons c l ih =>
    cases m with
    | nil => cases hi'
    | cons b m =>
      rw [List.map_cons, List.nodup_cons] at hnodup
      rw [lookup_zip_cons]
      cases i with
      | zero => exact if_pos rfl
      | succ i =>
        have hmem : l.get ⟨i, Nat.lt_of_succ_lt_succ hi⟩ ∈ l := List.get_mem l _
        have hne : key (l.get ⟨i, Nat.lt_of_succ_lt_succ hi⟩) ≠ key c :=
          fun heq => hnodup.1 (heq ▸ List.mem_map_of_mem hmem)
        exact (if_neg hne).trans (ih (by simpa using hm) hnodup.2 _ (Nat.lt_of_succ_lt_succ hi'))

theorem eq_of_lookup_zip (hm : l.length = m.length) (hm' : l.length = m'.length)
    (hnodup : (l.map key).Nodup)
    (h : ∀ a ∈ l, ((l.map key).zip m).lookup (key a) = ((l.map key).zip m').lookup (key a)) :
    m = m' := by
  induction l generalizing m m' with
  | nil =>
    rw [List.length_eq_zero_iff.mp hm.symm, List.length_eq_zero_iff.mp hm'.symm]
  | cons c l ih =>
    obtain ⟨b, m, rfl⟩ := List.exists_cons_of_length_eq_add_one hm.symm
    obtain ⟨b', m', rfl⟩ := List.exists_cons_of_length_eq_add_one hm'.symm
    rw [List.map_cons, List.nodup_cons] at hnodup
    have hhead := h c List.mem_cons_self
    rw [lookup_zip_cons, lookup_zip_cons, if_pos rfl, if_pos rfl] at hhead
    have htail : m = m' := by
      apply ih (by simpa using hm) (by simpa using hm') hnodup.2
      intro a ha
      have hne : key a ≠ key c := fun heq => hnodup.1 (heq ▸ List.mem_map_of_mem ha)
      have heq := h a (List.mem_cons_of_mem c ha)
      rwa [lookup_zip_cons, lookup_zip_cons, if_neg hne, if_neg hne] at heq
    rw [Option.some.inj hhead, htail]

end Columns

theorem AppConfig.hasType_get (config : AppConfig) {f : Field} (hf : f ∈ schema) :
    ∃ v, config.get f.key = some v ∧ HasType f.type v :=
  lookup_zip_of_forall₂ config.typed nodup_schema hf

theorem AppConfig.ext_get {config config' : AppConfig}
    (h : ∀ f ∈ schema, config.get f.key = config'.get f.key) : config = config' := by
  have hvalues : config.values = config'.values :=
    eq_of_lookup_zip config.typed.length_eq config'.typed.length_eq nodup_schema h
  cases config
  cases config'
  cases hvalues
  rfl

theorem numberAt_eq {values : List Value} {key : Key} {n : ℕ}
    (h : lookupValue values key = some (.number n)) : numberAt values key = n := by
  rw [numberAt, h]

section Spec

variable {variantIndex : Item → Option ℕ} {env doc : Document} {config : AppConfig}

theorem load_eq_some_iff : load variantIndex env doc = some config ↔
    Known (merge doc env) ∧
      ∀ f ∈ schema, readField variantIndex (merge doc env) f = config.get f.key := by
  constructor
  · intro h
    unfold load at h
    split_ifs at h with hknown
    split at h
    next values hvalues =>
      split_ifs at h with hordered
      obtain rfl := Option.some.inj h
      refine ⟨hknown, fun f hf => ?_⟩
      obtain ⟨v, hv, hread⟩ := lookup_zip_of_forall₂ (mapM_eq_some.mp hvalues) nodup_schema hf
      exact hread.trans hv.symm
    next => cases h
  · rintro ⟨hknown, hread⟩
    have hvalues : schema.mapM (readField variantIndex (merge doc env)) = some config.values := by
      rw [mapM_eq_some]
      have htyped := config.typed
      rw [List.forall₂_iff_get] at htyped ⊢
      refine ⟨htyped.1, fun i hi hv => ?_⟩
      rw [hread _ (List.get_mem schema ⟨i, hi⟩)]
      exact lookup_zip_get config.typed.length_eq nodup_schema hi hv
    unfold load
    rw [if_pos hknown]
    split
    next values heq =>
      have hsame : values = config.values := Option.some.inj (heq.symm.trans hvalues)
      subst hsame
      rw [dif_pos config.ordered]
    next heq =>
      rw [hvalues] at heq
      cases heq

theorem exists_mapM {α β : Type*} {f : α → Option β} {l : List α}
    (h : ∀ a ∈ l, ∃ b, f a = some b) : ∃ m, l.mapM f = some m := by
  induction l with
  | nil => exact ⟨[], rfl⟩
  | cons a l ih =>
    obtain ⟨b, hb⟩ := h a List.mem_cons_self
    obtain ⟨m, hm⟩ := ih fun c hc => h c (List.mem_cons_of_mem a hc)
    exact ⟨b :: m, mapM_eq_some.mpr (.cons hb (mapM_eq_some.mp hm))⟩

theorem backoffInitial_mem : backoffInitial ∈ schema := by decide +kernel

theorem backoffMax_mem : backoffMax ∈ schema := by decide +kernel

/-- Known sections, readable fields and ordered backoff bounds make a configuration. -/
theorem exists_load (hknown : Known (merge doc env))
    (hread : ∀ f ∈ schema, ∃ v, readField variantIndex (merge doc env) f = some v)
    (hordered : ∀ lo hi,
      readField variantIndex (merge doc env) backoffInitial = some (.number lo) →
        readField variantIndex (merge doc env) backoffMax = some (.number hi) → lo ≤ hi) :
    ∃ config, load variantIndex env doc = some config := by
  obtain ⟨values, hvalues⟩ := exists_mapM hread
  have hall := mapM_eq_some.mp hvalues
  have htyped := typed_of_mapM variantIndex hvalues
  have hbackoff : BackoffOrdered values := by
    obtain ⟨lo, hlo, hreadLo⟩ := lookup_zip_of_forall₂ hall nodup_schema backoffInitial_mem
    obtain ⟨hi, hhi, hreadHi⟩ := lookup_zip_of_forall₂ hall nodup_schema backoffMax_mem
    have hloType := readField_hasType variantIndex backoffInitial_mem hreadLo
    have hhiType := readField_hasType variantIndex backoffMax_mem hreadHi
    obtain ⟨lo, rfl⟩ := number_of_hasType hloType
    obtain ⟨hi, rfl⟩ := number_of_hasType hhiType
    unfold BackoffOrdered
    rw [numberAt_eq hlo, numberAt_eq hhi]
    exact hordered lo hi hreadLo hreadHi
  refine ⟨⟨values, htyped, hbackoff⟩, load_eq_some_iff.mpr ⟨hknown, fun f hf => ?_⟩⟩
  obtain ⟨v, hv, hreadV⟩ := lookup_zip_of_forall₂ hall nodup_schema hf
  exact hreadV.trans hv.symm

end Spec

end ConfigLoader
