import Fumox.ConfigLoader

/-!
The settings form of the admin panel: the registry of editable settings, the helper that parses and
writes one kind of field, and the save that applies them all or writes nothing.
-/

namespace SettingsForm

open RustText PayloadGuards SocketText TomlDocument ConfigLoader

structure Range where
  min : ℕ
  max : Option ℕ
  deriving DecidableEq, Repr

def Range.contains (range : Range) (value : ℕ) : Prop :=
  range.min ≤ value ∧ match range.max with
    | some max => value ≤ max
    | none => True

instance (range : Range) (value : ℕ) : Decidable (range.contains value) := by
  unfold Range.contains
  split <;> infer_instance

def Range.new (min max : ℕ) : Range := ⟨min, some max⟩

/-- A range with a floor and no ceiling. -/
def Range.atLeast (min : ℕ) : Range := ⟨min, none⟩

def rangeTable : List (String × Range) :=
  [("database.busy_timeout_ms", Range.new 100 60000),
   ("database.max_connections", Range.new 1 1024),
   ("fetch.connect_timeout_secs", Range.new 1 600),
   ("fetch.read_timeout_secs", Range.new 1 3600),
   ("fetch.max_response_bytes", Range.atLeast 1024),
   ("fetch.max_concurrency", Range.new 1 1024),
   ("fetch.max_retries", Range.new 0 16),
   ("fetch.retry_base_backoff_ms", Range.new 0 60000),
   ("ingest.refresh_check_limit", Range.new 0 10000),
   ("geo.cache_max_entries", Range.new 0 10000000),
   ("geo.dns_timeout_secs", Range.new 1 60),
   ("admin.session_ttl_hours", Range.new 1 (24 * 365)),
   ("admin.rate_limit.limit", Range.new 1 1000000),
   ("admin.login_rate_limit.limit", Range.new 1 1000000),
   ("probe.fail_limit", Range.new 1 32),
   ("probe.second_chance_min_hours", Range.new 0 (24 * 365)),
   ("probe.second_chance_spread_hours", Range.new 0 (24 * 365)),
   ("probe.queue_stale_days", Range.new 0 365),
   ("probe.retention_interval_secs", Range.new 60 (7 * 24 * 3600)),
   ("probe.cycle_interval_secs", Range.new 1 (24 * 3600)),
   ("probe.sample_size", Range.new 0 100000),
   ("probe.connect_timeout_secs", Range.new 1 600),
   ("probe.tls_timeout_secs", Range.new 1 600),
   ("probe.concurrency", Range.new 1 1024),
   ("probe.heartbeat_interval_secs", Range.new 1 (24 * 3600)),
   ("probe.backlog_target_drain_minutes", Range.new 5 (24 * 60)),
   ("meow.timeout_secs", Range.new 1 600),
   ("meow.backoff_initial_secs", Range.new 1 (24 * 3600)),
   ("meow.backoff_max_secs", Range.new 1 (24 * 3600)),
   ("retention.probe_results_days", Range.new 1 3650),
   ("retention.fetch_log_days", Range.new 1 3650),
   ("server.rate_limit.limit", Range.new 1 1000000),
   ("server.auth_fail_rate_limit.limit", Range.new 1 1000000)]

def ranges : List (Text × Range) :=
  rangeTable.map fun row => (row.1.toList, row.2)

def rangeOf (dotted : Text) : Option Range :=
  ranges.lookup dotted

/-- Whether a number is admitted; a field without a range admits none. -/
def InRange (dotted : Text) (value : ℕ) : Prop :=
  match rangeOf dotted with
  | some range => range.contains value
  | none => False

instance (dotted : Text) (value : ℕ) : Decidable (InRange dotted value) := by
  unfold InRange
  split <;> infer_instance

/-- Catalog keys with their arguments, and the sentences written out in the source. -/
inductive Message where
  | invalidBind
  | required
  | mustBeU64
  | inRange (lo hi : Text)
  | atLeast (min value : Text)
  | noRange (field : Text)
  | atMost (max : ℕ)
  | badLiteral (value : Text)
  | mustBeEnum (choices : Text)
  | invalidCidr (entry : Text)
  | mustBeI64List (value : Text)
  | emptyList
  | tooManyEntries (max : ℕ)
  | unknownSection (key : Text)
  deriving DecidableEq, Repr

abbrev Form := List (Text × Text)

/-- The form is collected into a map, where the last value of a name stays. -/
def rawGet (form : Form) (field : Text) : Option Text :=
  form.reverse.lookup field

/-- What a helper makes of its field: nothing, an error, or an item to write. -/
inductive Parsed where
  | skip
  | error (field : Text) (message : Message)
  | write (item : Item)
  deriving DecidableEq, Repr

def stringItem (t : Text) : Item := .scalar (.string t)

def stringArray (l : List Text) : Item := .array (l.map .string)

def integerItem (n : ℕ) : Item :=
  .scalar (.integer (if n < 2 ^ 63 then n else (n : ℤ) - 2 ^ 64))

def bind (form : Form) (field : Key) : Parsed :=
  match rawGet form field.dotted with
  | none => .skip
  | some v =>
    match parseSocketAddr (trim v) with
    | some address => .write (stringItem (printSocketAddr address))
    | none => .error field.dotted .invalidBind

def stringField (form : Form) (field : Key) : Parsed :=
  match rawGet form field.dotted with
  | none => .skip
  | some v =>
    if trim v = [] then .error field.dotted .required else .write (stringItem (trim v))

def tokenField (form : Form) (field : Key) : Parsed :=
  match rawGet form field.dotted with
  | none => .skip
  | some v => if trim v = [] then .skip else .write (stringItem (trim v))

def outOfRange (field : Text) (value : ℕ) : Message :=
  match rangeOf field with
  | none => .noRange field
  | some range =>
    match range.max with
    | some max => .inRange (decimal range.min) (decimal max)
    | none => .atLeast (decimal range.min) (decimal value)

def i64Max : ℕ := 2 ^ 63 - 1

/-- The unsigned helpers: the type that is parsed, and the limit of the cast where it is checked. -/
def numberField (bound : ℕ) (limit : Option ℕ) (form : Form) (field : Key) : Parsed :=
  match rawGet form field.dotted with
  | none => .skip
  | some v =>
    match parseUnsigned bound (trim v) with
    | none => .error field.dotted .mustBeU64
    | some parsed =>
      if ¬ InRange field.dotted parsed then .error field.dotted (outOfRange field.dotted parsed)
      else match limit with
        | none => .write (integerItem parsed)
        | some max =>
          if max < parsed then .error field.dotted (.atMost max) else .write (integerItem parsed)

def u64Field : Form → Key → Parsed := numberField (2 ^ 64) (some i64Max)

def u32Field : Form → Key → Parsed := numberField (2 ^ 32) none

def usizeField : Form → Key → Parsed := numberField (2 ^ 64) none

def parseBoolLiteral (v : Text) : Option Bool :=
  if v = [] ∨ v = ("off" : Text) ∨ v = ("false" : Text) ∨ v = ("0" : Text) then some false
  else if v = ("on" : Text) ∨ v = ("true" : Text) ∨ v = ("1" : Text) then some true
  else none

def boolField (form : Form) (field : Key) : Parsed :=
  let v := (rawGet form field.dotted).getD []
  match parseBoolLiteral v with
  | some b => .write (.scalar (.boolean b))
  | none => .error field.dotted (.badLiteral v)

def enumField (choices : List Text) (form : Form) (field : Key) : Parsed :=
  match rawGet form field.dotted with
  | none => .skip
  | some v =>
    if v ∈ choices then .write (stringItem v)
    else .error field.dotted (.mustBeEnum ((", " : Text).intercalate choices))

/-- The lines of a text area, trimmed, without the blank ones. -/
def cleanLines (v : Text) : List Text :=
  ((lines v).map trim).filter (· ≠ [])

def stringList (form : Form) (field : Key) : Parsed :=
  match rawGet form field.dotted with
  | none => .skip
  | some v => .write (stringArray (cleanLines v))

def parseDelay (line : Text) : Except Text ℤ :=
  match parseI64 line with
  | some n => .ok n
  | none => .error line

/-- The ladder of delays: at most `maxItems` numbers of a range, and at least one. -/
def i64ListField (maxItems : ℕ) (min max : ℤ) (form : Form) (field : Key) : Parsed :=
  match rawGet form field.dotted with
  | none => .skip
  | some v =>
    match (cleanLines v).mapM parseDelay with
    | .error line => .error field.dotted (.mustBeI64List line)
    | .ok parsed =>
      if parsed = [] then .error field.dotted .emptyList
      else if maxItems < parsed.length then .error field.dotted (.tooManyEntries maxItems)
      else if ∃ n ∈ parsed, n < min ∨ max < n then
        .error field.dotted (.inRange (decimalInt min) (decimalInt max))
      else .write (.array (parsed.map .integer))

def formUnit (unit : Text) : Option ℕ :=
  if unit = ("sec" : Text) then some 1
  else if unit = ("min" : Text) then some 60
  else if unit = ("hour" : Text) then some 3600
  else if unit = ("day" : Text) then some 86400
  else none

def unitForSecs (secs : ℕ) : Text :=
  if secs = 1 then "s"
  else if secs = 60 then "min"
  else if secs = 3600 then "h"
  else if secs = 86400 then "day"
  else if secs < 60 then "s"
  else if secs < 3600 then "min"
  else if secs < 86400 then "h"
  else "day"

def limitField (field : Key) : Text := field.dotted ++ ".limit"

def unitField (field : Key) : Text := field.dotted ++ ".unit"

def rateItem (limit secs : ℕ) : Item :=
  stringItem (decimal limit ++ '/' :: unitForSecs secs)

def rateLimit (form : Form) (field : Key) : Parsed :=
  match rawGet form (limitField field), rawGet form (unitField field) with
  | some limitStr, some unitStr =>
    match parseU32 (trim limitStr) with
    | none => .error (limitField field) .mustBeU64
    | some limit =>
      if ¬ InRange (limitField field) limit then
        .error (limitField field) (outOfRange (limitField field) limit)
      else match formUnit unitStr with
        | none => .error (unitField field) (.mustBeEnum "sec, min, hour, day")
        | some secs => .write (rateItem limit secs)
  | _, _ => .skip

section Cidr

-- what the trusted-proxy parser of the startup makes of one entry
variable (validCidr : Text → Bool)

def cidrList (form : Form) (field : Key) : Parsed :=
  match rawGet form field.dotted with
  | none => .skip
  | some v =>
    match (cleanLines v).find? fun entry => !validCidr entry with
    | some entry => .error field.dotted (.invalidCidr entry)
    | none => .write (stringArray (cleanLines v))

inductive Editor where
  | bind
  | cidrList
  | stringList
  | rateLimit
  | string
  | token
  | u64
  | u32
  | usize
  | bool
  | enum (choices : List Text)
  | i64List (maxItems : ℕ) (min max : ℤ)
  deriving DecidableEq, Repr

def Editor.apply : Editor → Form → Key → Parsed
  | .bind => SettingsForm.bind
  | .cidrList => SettingsForm.cidrList validCidr
  | .stringList => SettingsForm.stringList
  | .rateLimit => SettingsForm.rateLimit
  | .string => stringField
  | .token => tokenField
  | .u64 => u64Field
  | .u32 => u32Field
  | .usize => usizeField
  | .bool => boolField
  | .enum choices => enumField choices
  | .i64List maxItems min max => i64ListField maxItems min max

end Cidr

structure Setting where
  key : Key
  editor : Editor
  deriving DecidableEq, Repr

def ladder : Editor := .i64List recheckMaxSteps 1 recheckMaxDelaySecs

def settings : List Setting :=
  [⟨⟨"server", "bind"⟩, .bind⟩,
   ⟨⟨"server", "trust_proxy_ips"⟩, .cidrList⟩,
   ⟨⟨"server", "allowed_hosts"⟩, .stringList⟩,
   ⟨⟨"server", "rate_limit"⟩, .rateLimit⟩,
   ⟨⟨"server", "auth_fail_rate_limit"⟩, .rateLimit⟩,
   ⟨⟨"database", "path"⟩, .string⟩,
   ⟨⟨"database", "busy_timeout_ms"⟩, .u64⟩,
   ⟨⟨"database", "max_connections"⟩, .u32⟩,
   ⟨⟨"fetch", "connect_timeout_secs"⟩, .u64⟩,
   ⟨⟨"fetch", "read_timeout_secs"⟩, .u64⟩,
   ⟨⟨"fetch", "max_response_bytes"⟩, .u64⟩,
   ⟨⟨"fetch", "max_concurrency"⟩, .usize⟩,
   ⟨⟨"fetch", "max_retries"⟩, .u32⟩,
   ⟨⟨"fetch", "retry_base_backoff_ms"⟩, .u64⟩,
   ⟨⟨"fetch", "user_agent"⟩, .string⟩,
   ⟨⟨"fetch", "ip_family"⟩, .enum ipFamilies⟩,
   ⟨⟨"ingest", "refresh_check_limit"⟩, .u32⟩,
   ⟨⟨"ingest", "drop_gate"⟩, .bool⟩,
   ⟨⟨"ingest", "removed_as_unknown"⟩, .bool⟩,
   ⟨⟨"geo", "enabled"⟩, .bool⟩,
   ⟨⟨"geo", "db_dir"⟩, .string⟩,
   ⟨⟨"geo", "cache_max_entries"⟩, .u64⟩,
   ⟨⟨"geo", "dns_timeout_secs"⟩, .u64⟩,
   ⟨⟨"admin", "enabled"⟩, .bool⟩,
   ⟨⟨"admin", "bind"⟩, .bind⟩,
   ⟨⟨"admin", "token"⟩, .token⟩,
   ⟨⟨"admin", "session_ttl_hours"⟩, .u32⟩,
   ⟨⟨"admin", "allow_private_urls"⟩, .bool⟩,
   ⟨⟨"admin", "rate_limit"⟩, .rateLimit⟩,
   ⟨⟨"admin", "login_rate_limit"⟩, .rateLimit⟩,
   ⟨⟨"admin", "secure_cookies"⟩, .bool⟩,
   ⟨⟨"admin", "locales_dir"⟩, .string⟩,
   ⟨⟨"admin", "trust_proxy_ips"⟩, .cidrList⟩,
   ⟨⟨"admin", "allowed_hosts"⟩, .stringList⟩,
   ⟨⟨"probe", "fail_limit"⟩, .u32⟩,
   ⟨⟨"probe", "second_chance_min_hours"⟩, .u64⟩,
   ⟨⟨"probe", "second_chance_spread_hours"⟩, .u64⟩,
   ⟨⟨"probe", "recheck_delays_secs"⟩, ladder⟩,
   ⟨⟨"probe", "queue_stale_days"⟩, .u64⟩,
   ⟨⟨"probe", "retention_interval_secs"⟩, .u64⟩,
   ⟨⟨"probe", "cycle_interval_secs"⟩, .u64⟩,
   ⟨⟨"probe", "sample_size"⟩, .u32⟩,
   ⟨⟨"probe", "allow_private_targets"⟩, .bool⟩,
   ⟨⟨"probe", "connect_timeout_secs"⟩, .u64⟩,
   ⟨⟨"probe", "tls_timeout_secs"⟩, .u64⟩,
   ⟨⟨"probe", "concurrency"⟩, .usize⟩,
   ⟨⟨"probe", "heartbeat_interval_secs"⟩, .u64⟩,
   ⟨⟨"probe", "backlog_target_drain_minutes"⟩, .u64⟩,
   ⟨⟨"meow", "api_addr"⟩, .string⟩,
   ⟨⟨"meow", "config_path"⟩, .string⟩,
   ⟨⟨"meow", "test_url"⟩, .stringList⟩,
   ⟨⟨"meow", "timeout_secs"⟩, .u64⟩,
   ⟨⟨"meow", "backoff_initial_secs"⟩, .u64⟩,
   ⟨⟨"meow", "backoff_max_secs"⟩, .u64⟩,
   ⟨⟨"meow", "ipv6"⟩, .bool⟩,
   ⟨⟨"retention", "probe_results_days"⟩, .u32⟩,
   ⟨⟨"retention", "fetch_log_days"⟩, .u32⟩,
   ⟨⟨"log", "server"⟩, .enum logLevels⟩,
   ⟨⟨"log", "probe"⟩, .enum logLevels⟩]

structure Draft where
  doc : Document
  errors : List (Text × Message)
  deriving DecidableEq, Repr

/-- The name a rejected write is reported under. -/
def Setting.errorField (setting : Setting) : Text :=
  if setting.editor = .rateLimit then limitField setting.key else setting.key.dotted

def backoffErrors (form : Form) : List (Text × Message) :=
  let max := (rawGet form backoffMax.key.dotted).bind parseU64
  let min := (rawGet form backoffInitial.key.dotted).bind parseU64
  match min, max with
  | some min, some max =>
    if max < min then
      [(backoffMax.key.dotted, .inRange ("≥ " ++ decimal min) (decimal min))]
    else []
  | _, _ => []

section Save

variable (validCidr : Text → Bool)

def applySetting (form : Form) (draft : Draft) (setting : Setting) : Draft :=
  match setting.editor.apply validCidr form setting.key with
  | .skip => draft
  | .error field message => { draft with errors := draft.errors ++ [(field, message)] }
  | .write item =>
    match TomlDocument.set draft.doc setting.key item with
    | some doc => { draft with doc := doc }
    | none =>
      { draft with errors :=
          draft.errors ++ [(setting.errorField, .unknownSection setting.key.dotted)] }

def applyAll (form : Form) (doc : Document) : Draft :=
  let draft := settings.foldl (applySetting validCidr form) ⟨doc, []⟩
  { draft with errors := draft.errors ++ backoffErrors form }

/-- `settings_update` on a file that can be read and written: the file afterwards. -/
def settingsUpdate (form : Form) (file : Document) : Document :=
  let draft := applyAll validCidr form file
  if draft.errors = [] then draft.doc else file

end Save

end SettingsForm
