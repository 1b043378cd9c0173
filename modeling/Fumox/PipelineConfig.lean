import Fumox.ProxyModels
import Fumox.SerdeValue

/-!
The processing pipeline as configured: the typed sections of the JSON document, how they are read,
and their compilation into a ready-to-run pipeline with every validation issue.
-/

namespace PipelineConfig

open RustText JsonValue SerdeValue ProxyModels

def defaultGeoTemplate : Text := "\x7bflag\x7d \x7bcountry\x7d · \x7bname\x7d"

def defaultExcludeStatuses : List Text := ["quarantine", "removed"]

structure FilterConfig where
  protocols : Option (List Text)
  excludeProtocols : Option (List Text)
  asns : Option (List Text)
  excludeAsns : Option (List Text)
  forbidInsecure : Bool
  deriving DecidableEq, Repr

structure RenameRule where
  matchPattern : Text
  replace : Text
  flags : Text
  target : Option Text
  deriving DecidableEq, Repr

structure DropRule where
  matchPattern : Text
  flags : Text
  target : Option Text
  asns : Option (List Text)
  deriving DecidableEq, Repr

structure GeoStepConfig where
  enabled : Bool
  template : Text
  deriving DecidableEq, Repr

structure HealthConfig where
  excludeStatuses : List Text
  deriving DecidableEq, Repr

structure DedupConfig where
  dedupBy : Text
  deriving DecidableEq, Repr

inductive SortBy where
  | source | name | country | latency
  deriving DecidableEq, Repr

def SortBy.asStr : SortBy → Text
  | source => "source"
  | name => "name"
  | country => "country"
  | latency => "latency"

structure SortConfig where
  sortBy : SortBy
  desc : Bool
  deriving DecidableEq, Repr

structure LimitConfig where
  count : Option ℤ
  deriving DecidableEq, Repr

structure Config where
  version : ℤ
  filter : Option FilterConfig
  rename : Option (List RenameRule)
  drop : Option (List DropRule)
  geo : Option GeoStepConfig
  health : Option HealthConfig
  dedup : Option DedupConfig
  sort : Option SortConfig
  limit : Option LimitConfig
  deriving DecidableEq, Repr

section Reading

def readFilter (j : Json) : Option FilterConfig :=
  match structFields [["protocols"], ["exclude_protocols"], ["asns"], ["exclude_asns"],
      ["forbid_insecure", "normalize_params"]] j with
  | some [protocols, excludeProtocols, asns, excludeAsns, forbidInsecure] => do
    let protocols ← optional (readVec readString) protocols
    let excludeProtocols ← optional (readVec readString) excludeProtocols
    let asns ← optional (readVec readString) asns
    let excludeAsns ← optional (readVec readString) excludeAsns
    let forbidInsecure ← orDefault true readBool forbidInsecure
    return ⟨protocols, excludeProtocols, asns, excludeAsns, forbidInsecure⟩
  | _ => none

def readRenameRule (j : Json) : Option RenameRule :=
  match structFields [["match"], ["replace"], ["flags"], ["target"]] j with
  | some [matchPattern, replace, flags, target] => do
    let matchPattern ← required readString matchPattern
    let replace ← required readString replace
    let flags ← orDefault [] readString flags
    let target ← optional readString target
    return ⟨matchPattern, replace, flags, target⟩
  | _ => none

def readDropRule (j : Json) : Option DropRule :=
  match structFields [["match"], ["flags"], ["target"], ["asns"]] j with
  | some [matchPattern, flags, target, asns] => do
    let matchPattern ← orDefault [] readString matchPattern
    let flags ← orDefault [] readString flags
    let target ← optional readString target
    let asns ← optional (readVec readString) asns
    return ⟨matchPattern, flags, target, asns⟩
  | _ => none

def readGeo (j : Json) : Option GeoStepConfig :=
  match structFields [["enabled"], ["template"]] j with
  | some [enabled, template] => do
    let enabled ← orDefault true readBool enabled
    let template ← orDefault defaultGeoTemplate readString template
    return ⟨enabled, template⟩
  | _ => none

def readHealth (j : Json) : Option HealthConfig :=
  match structFields [["exclude_statuses"]] j with
  | some [excludeStatuses] => do
    let excludeStatuses ← orDefault defaultExcludeStatuses (readVec readString) excludeStatuses
    return ⟨excludeStatuses⟩
  | _ => none

def readDedup (j : Json) : Option DedupConfig :=
  match structFields [["by"]] j with
  | some [dedupBy] => (required readString dedupBy).map DedupConfig.mk
  | _ => none

def readSortBy (j : Json) : Option SortBy := do
  let name ← unitVariant j
  if name = "source" then return .source
  else if name = "name" then return .name
  else if name = "country" then return .country
  else if name = "latency" then return .latency
  else none

def readSort (j : Json) : Option SortConfig :=
  match structFields [["by"], ["desc"]] j with
  | some [sortBy, desc] => do
    let sortBy ← orDefault .source readSortBy sortBy
    let desc ← orDefault false readBool desc
    return ⟨sortBy, desc⟩
  | _ => none

def readLimit (j : Json) : Option LimitConfig :=
  match structFields [["count"]] j with
  | some [count] => (optional readI64 count).map LimitConfig.mk
  | _ => none

/-- The fields of the document, in order. -/
def configNames : List (List Text) :=
  [["version"], ["filter"], ["rename"], ["drop"], ["geo"], ["health"], ["dedup"], ["sort"],
    ["limit"]]

def readSections (slots : List (Option Json)) : Option Config :=
  match slots with
  | [version, filter, rename, drop, geo, health, dedup, sort, limit] => do
    let version ← required readU8 version
    let filter ← optional readFilter filter
    let rename ← optional (readVec readRenameRule) rename
    let drop ← optional (readVec readDropRule) drop
    let geo ← optional readGeo geo
    let health ← optional readHealth health
    let dedup ← optional readDedup dedup
    let sort ← optional readSort sort
    let limit ← optional readLimit limit
    return ⟨version, filter, rename, drop, geo, health, dedup, sort, limit⟩
  | _ => none

def readConfig (j : Json) : Option Config :=
  (structFields configNames j).bind readSections

end Reading

/-- The regular expressions that rules are compiled to, and the diagnostics of the two libraries. -/
structure Engines where
  Regex : Type
  build : Text → (caseInsensitive multiLine dotMatchesNewLine : Bool) → Except Text Regex
  isMatch : Regex → Text → Bool
  replaceAll : Regex → Text → Text → Text
  typeError : Json → Text

/-- One validation problem: a catalog key and its arguments. -/
structure PipelineIssue where
  key : Text
  args : List Text
  deriving DecidableEq, Repr

/-- What a rename rule rewrites and a drop rule looks at. -/
inductive RenameTarget where
  | name
  | host
  | port
  | param (key : Text)
  deriving DecidableEq, Repr

structure CompiledRename (ρ : Type) where
  regex : ρ
  replace : Text
  target : RenameTarget

inductive CompiledDrop (ρ : Type) where
  | regex (regex : ρ) (target : RenameTarget)
  | asn (asns : List ℕ)

structure CompiledPipeline (ρ : Type) where
  filterProtocols : Option (List Scheme) := none
  excludeProtocols : Option (List Scheme) := none
  filterAsns : Option (List ℕ) := none
  excludeAsns : Option (List ℕ) := none
  forbidInsecure : Bool := true
  rename : List (CompiledRename ρ) := []
  drop : List (CompiledDrop ρ) := []
  geoEnabled : Bool := true
  geoTemplate : Text := defaultGeoTemplate
  excludeStatuses : List ProxyStatus := [.quarantine, .removed]
  sortBy : SortBy := .source
  sortDesc : Bool := false
  limitCount : Option ℕ := none
  sortExplicit : Bool := false

def statusFromStr (s : Text) : Option ProxyStatus :=
  if s = "unknown" then some .unknown
  else if s = "alive" then some .alive
  else if s = "ready" then some .ready
  else if s = "quarantine" then some .quarantine
  else if s = "removed" then some .removed
  else none

def stripPrefix (pattern t : Text) : Option Text :=
  if pattern.isPrefixOf t then some (t.drop pattern.length) else none

/-- `24940`, `AS24940` or `as24940`. -/
def asnNumber (raw : Text) : Option ℕ :=
  parseU32 (((stripPrefix "AS" (trim raw)).or (stripPrefix "as" (trim raw))).getD (trim raw))

def ruleField (section_ : Text) (idx : ℕ) : Text :=
  section_ ++ '[' :: (decimal idx ++ [']'])

/-- Reads every element of a list; the ones that cannot be read are issues. -/
def parseAll {α : Type} (read : Text → Option α) (issue : Text → PipelineIssue)
    (raw : List Text) : List α × List PipelineIssue :=
  (raw.filterMap read, (raw.filter fun value => (read value).isNone).map issue)

def parseList {α : Type} (read : Text → Option α) (key field : Text) :
    Option (List Text) → Option (List α) × List PipelineIssue
  | none => (none, [])
  | some raw =>
    let parsed := parseAll read (fun value => ⟨key, [field, value]⟩) raw
    (some parsed.1, parsed.2)

def parseSchemeList (raw : Option (List Text)) (field : Text) :
    Option (List Scheme) × List PipelineIssue :=
  parseList Scheme.fromStr "pipeline.unknown_protocol" field raw

def parseAsnList (raw : Option (List Text)) (field : Text) :
    Option (List ℕ) × List PipelineIssue :=
  parseList asnNumber "pipeline.unknown_asn" field raw

def parseRenameTarget (raw : Option Text) (field : Text) :
    Option RenameTarget × List PipelineIssue :=
  match raw with
  | none => (some .name, [])
  | some raw =>
    let selector := trim raw
    if selector = "name" then (some .name, [])
    else if selector = "host" then (some .host, [])
    else if selector = "port" then (some .port, [])
    else
      match stripPrefix "param:" selector with
      | some key =>
        if trim key = [] then (none, [⟨"pipeline.unknown_target", [field, selector]⟩])
        else (some (.param (trim key)), [])
      | none => (none, [⟨"pipeline.unknown_target", [field, selector]⟩])

section Compile

variable (engines : Engines)

def compileRuleRegex (pattern flags field : Text) : Option engines.Regex × List PipelineIssue :=
  let unknown := flags.filter fun flag => !(flag == 'i' || flag == 'm' || flag == 's')
  let issues := unknown.map fun flag => PipelineIssue.mk "pipeline.unknown_flag" [field, [flag]]
  match engines.build pattern (flags.contains 'i') (flags.contains 'm') (flags.contains 's') with
  | .ok regex => (some regex, issues)
  | .error diagnostic => (none, issues ++ [⟨"pipeline.bad_regex", [field, diagnostic]⟩])

def compileRename (idx : ℕ) (rule : RenameRule) :
    List (CompiledRename engines.Regex) × List PipelineIssue :=
  let field := ruleField "rename" idx
  let target := parseRenameTarget rule.target field
  let regex := compileRuleRegex engines rule.matchPattern rule.flags field
  (match regex.1, target.1 with
    | some regex, some target => [⟨regex, rule.replace, target⟩]
    | _, _ => [],
    target.2 ++ regex.2)

def compileAsnDrop (field : Text) (rule : DropRule) :
    List (CompiledDrop engines.Regex) × List PipelineIssue :=
  let rejected := if rule.matchPattern ≠ [] ∨ rule.flags ≠ [] then
    [PipelineIssue.mk "pipeline.asn_target_rejects_match" [field]] else []
  match rule.asns with
  | some (raw :: rest) =>
    let parsed := parseAll asnNumber (fun value => ⟨"pipeline.unknown_asn", [field, value]⟩)
      (raw :: rest)
    (if parsed.1.length = (raw :: rest).length then [.asn parsed.1] else [], rejected ++ parsed.2)
  | _ => ([], rejected ++ [⟨"pipeline.asn_target_requires_asns", [field]⟩])

def compileRegexDrop (field : Text) (rule : DropRule) :
    List (CompiledDrop engines.Regex) × List PipelineIssue :=
  let rejected := if rule.asns.isSome then
    [PipelineIssue.mk "pipeline.non_asn_target_rejects_asns" [field]] else []
  let target := parseRenameTarget rule.target field
  let regex := compileRuleRegex engines rule.matchPattern rule.flags field
  (match regex.1, target.1 with
    | some regex, some target => [.regex regex target]
    | _, _ => [],
    rejected ++ target.2 ++ regex.2)

def compileDrop (idx : ℕ) (rule : DropRule) :
    List (CompiledDrop engines.Regex) × List PipelineIssue :=
  let field := ruleField "drop" idx
  if rule.target = some "asn".toList then compileAsnDrop engines field rule
  else compileRegexDrop engines field rule

/-- The rules of a section one after the other, with their places. -/
def compileRules {α β : Type} (compileOne : ℕ → α → List β × List PipelineIssue) :
    ℕ → List α → List β × List PipelineIssue
  | _, [] => ([], [])
  | idx, rule :: rest =>
    let one := compileOne idx rule
    let others := compileRules compileOne (idx + 1) rest
    (one.1 ++ others.1, one.2 ++ others.2)

def compileVersion (version : ℤ) : List PipelineIssue :=
  if version ≠ 1 then [⟨"pipeline.version", [decimalInt version]⟩] else []

def compileGeo : Option GeoStepConfig → GeoStepConfig × List PipelineIssue
  | none => (⟨true, defaultGeoTemplate⟩, [])
  | some geo =>
    if trim geo.template = [] then
      (⟨geo.enabled, defaultGeoTemplate⟩, [⟨"pipeline.empty_template", []⟩])
    else (geo, [])

def compileHealth : Option HealthConfig → List ProxyStatus × List PipelineIssue
  | none => ([.quarantine, .removed], [])
  | some health =>
    parseAll statusFromStr (fun raw => ⟨"pipeline.unknown_status", [raw]⟩) health.excludeStatuses

def compileDedup : Option DedupConfig → List PipelineIssue
  | none => []
  | some dedup =>
    if dedup.dedupBy ≠ "fingerprint".toList then [⟨"pipeline.dedup_by", [dedup.dedupBy]⟩] else []

/-- A missing count keeps the cap unset. -/
def compileLimit (limit : Option LimitConfig) : Option ℕ × List PipelineIssue :=
  match limit.bind (·.count) with
  | none => (none, [])
  | some count =>
    if 1 ≤ count then (some count.toNat, [])
    else (none, [⟨"pipeline.invalid_limit", [decimalInt count]⟩])

/-- The pipeline of a configuration together with every issue. -/
def compile (config : Config) : CompiledPipeline engines.Regex × List PipelineIssue :=
  let filter := config.filter.getD ⟨none, none, none, none, true⟩
  let protocols := parseSchemeList filter.protocols "filter.protocols"
  let excludeProtocols := parseSchemeList filter.excludeProtocols "filter.exclude_protocols"
  let asns := parseAsnList filter.asns "filter.asns"
  let excludeAsns := parseAsnList filter.excludeAsns "filter.exclude_asns"
  let rename := compileRules (compileRename engines) 0 (config.rename.getD [])
  let drop := compileRules (compileDrop engines) 0 (config.drop.getD [])
  let geo := compileGeo config.geo
  let health := compileHealth config.health
  let sort := config.sort.getD ⟨.source, false⟩
  let limit := compileLimit config.limit
  ({ filterProtocols := protocols.1
     excludeProtocols := excludeProtocols.1
     filterAsns := asns.1
     excludeAsns := excludeAsns.1
     forbidInsecure := filter.forbidInsecure
     rename := rename.1
     drop := drop.1
     geoEnabled := geo.1.enabled
     geoTemplate := geo.1.template
     excludeStatuses := health.1
     sortBy := sort.sortBy
     sortDesc := sort.desc
     limitCount := limit.1
     sortExplicit := config.sort.isSome },
    compileVersion config.version ++ protocols.2 ++ excludeProtocols.2 ++ asns.2 ++
      excludeAsns.2 ++ rename.2 ++ drop.2 ++ geo.2 ++ health.2 ++ compileDedup config.dedup ++
      limit.2)

/-- `CompiledPipeline::from_json`: nothing, `null` and the empty object are the defaults. -/
def fromJson : Option Json → Except (List PipelineIssue) (CompiledPipeline engines.Regex)
  | none => .ok {}
  | some .null => .ok {}
  | some (.obj []) => .ok {}
  | some value =>
    match readConfig value with
    | none => .error [⟨"pipeline.invalid", [engines.typeError value]⟩]
    | some config =>
      if (compile engines config).2 = [] then .ok (compile engines config).1
      else .error (compile engines config).2

end Compile

/-- The top-level sections of the profile replace those of the source; a profile that is no object
wins as it is. -/
def mergeConfigs : Option Json → Option Json → Option Json
  | none, none => none
  | some s, none => some s
  | none, some p => some p
  | some (.obj s), some (.obj p) => some (.obj (insertAll s p))
  | some _, some p => some p

end PipelineConfig
