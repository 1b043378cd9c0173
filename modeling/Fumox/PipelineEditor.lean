import Fumox.ItemList
import Fumox.PipelineConfig

/-!
The pipeline builder of the admin panel: the state behind its form fields, the document that a
state emits, and the state that a stored document is opened with.
-/

namespace PipelineEditor

open RustText JsonValue SerdeValue ItemList PipelineConfig

abbrev Form := List (Text × Text)

structure RenameRow where
  matchPattern : Text := []
  replace : Text := []
  flags : Text := []
  target : Text := []
  paramKey : Text := []
  deriving DecidableEq, Repr

structure DropRow where
  matchPattern : Text := []
  flags : Text := []
  target : Text := []
  paramKey : Text := []
  asns : Text := []
  deriving DecidableEq, Repr

structure FilterFields where
  filterSet : Bool := false
  filterDefaults : Bool := false
  protocols : List Text := []
  excludeProtocols : List Text := []
  asns : Text := []
  excludeAsns : Text := []
  forbidInsecure : Bool := true
  deriving DecidableEq, Repr

structure RenameFields where
  rename : List RenameRow := []
  renameSkip : Bool := false
  renameDefaults : Bool := false
  deriving DecidableEq, Repr

structure DropFields where
  drop : List DropRow := []
  dropSkip : Bool := false
  dropDefaults : Bool := false
  deriving DecidableEq, Repr

structure GeoFields where
  geoSet : Bool := false
  geoDefaults : Bool := false
  geoEnabled : Bool := true
  geoTemplate : Text := []
  deriving DecidableEq, Repr

structure HealthFields where
  healthSet : Bool := false
  healthDefaults : Bool := false
  excludeStatuses : List Text := defaultExcludeStatuses
  deriving DecidableEq, Repr

structure SortFields where
  sortSet : Bool := false
  sortDefaults : Bool := false
  sortBy : Text := []
  sortDesc : Bool := false
  deriving DecidableEq, Repr

structure LimitFields where
  limitSet : Bool := false
  limitDefaults : Bool := false
  limitCount : Text := []
  deriving DecidableEq, Repr

/-- The fields of the widget. A field left out has the value of a fresh state. -/
structure BuilderState extends FilterFields, RenameFields, DropFields, GeoFields, HealthFields,
    SortFields, LimitFields where
  deriving DecidableEq, Repr

def BuilderState.new : BuilderState := {}

/-- The last value of a name, trimmed. -/
def get (form : Form) (key : Text) : Text :=
  trim ((form.reverse.lookup key).getD [])

/-- Every value of a name that is not blank. -/
def getAll (form : Form) (key : Text) : List Text :=
  ((form.filter fun f => f.1 == key).map fun f => trim f.2).filter (· ≠ [])

/-- What a mode control submits: whether the section is set, and whether it is reset. -/
def modeFlags (value : Text) : Bool × Bool :=
  (decide (value = "1" ∨ value = "set"), decide (value = "defaults"))

section Rows

variable {ρ : Type}

/-- `entry(index).or_default()` of a map ordered by its keys. -/
def updateRow (default : ρ) (update : ρ → ρ) (index : ℕ) : List (ℕ × ρ) → List (ℕ × ρ)
  | [] => [(index, update default)]
  | (i, row) :: rest =>
    if index < i then (index, update default) :: (i, row) :: rest
    else if index = i then (i, update row) :: rest
    else (i, row) :: updateRow default update index rest

end Rows

def setRenameField (field value : Text) (row : RenameRow) : RenameRow :=
  if field = "match" then { row with matchPattern := value }
  else if field = "replace" then { row with replace := value }
  else if field = "flags" then { row with flags := value }
  else if field = "target" then { row with target := value }
  else if field = "key" then { row with paramKey := value }
  else row

def setDropField (field value : Text) (row : DropRow) : DropRow :=
  if field = "match" then { row with matchPattern := value }
  else if field = "flags" then { row with flags := value }
  else if field = "target" then { row with target := value }
  else if field = "key" then { row with paramKey := value }
  else if field = "asns" then { row with asns := value }
  else row

def rowField (suffix : Text) : Option (ℕ × Text) :=
  (rsplitOnce '_' suffix).bind fun p => (parseU64 p.1).map fun index => (index, p.2)

/-- The rows of both sections, ordered by their indices. -/
structure Rows where
  rename : List (ℕ × RenameRow) := []
  drop : List (ℕ × DropRow) := []

def collectRow (rows : Rows) (f : Text × Text) : Rows :=
  match stripPrefix "ped_rename_" f.1 with
  | some suffix => (rowField suffix).elim rows fun p =>
      { rows with rename := updateRow {} (setRenameField p.2 (trim f.2)) p.1 rows.rename }
  | none =>
    match stripPrefix "ped_drop_" f.1 with
    | some suffix => (rowField suffix).elim rows fun p =>
        { rows with drop := updateRow {} (setDropField p.2 (trim f.2)) p.1 rows.drop }
    | none => rows

def fromForm (form : Form) : BuilderState :=
  let rows := form.foldl collectRow {}
  let filter := modeFlags (get form "ped_filter")
  let geo := modeFlags (get form "ped_geo")
  let health := modeFlags (get form "ped_health")
  let sort := modeFlags (get form "ped_sort")
  let limit := modeFlags (get form "ped_limit")
  { filterSet := filter.1
    filterDefaults := filter.2
    protocols := getAll form "ped_filter_protocols"
    excludeProtocols := getAll form "ped_filter_exclude"
    asns := get form "ped_filter_asns"
    excludeAsns := get form "ped_filter_exclude_asns"
    forbidInsecure := decide (get form "ped_forbid_insecure" = "1")
    rename := rows.rename.map Prod.snd
    renameSkip := decide (get form "ped_rename" = "skip")
    renameDefaults := decide (get form "ped_rename" = "defaults")
    drop := rows.drop.map Prod.snd
    dropSkip := decide (get form "ped_drop" = "skip")
    dropDefaults := decide (get form "ped_drop" = "defaults")
    geoSet := geo.1
    geoDefaults := geo.2
    geoEnabled := decide (get form "ped_geo_enabled" = "1")
    geoTemplate := get form "ped_geo_template"
    healthSet := health.1
    healthDefaults := health.2
    excludeStatuses := getAll form "ped_health_exclude"
    sortSet := sort.1
    sortDefaults := sort.2
    sortBy := get form "ped_sort_by"
    sortDesc := decide (get form "ped_sort_desc" = "1")
    limitSet := limit.1
    limitDefaults := limit.2
    limitCount := get form "ped_limit_count" }

/-- The select and the key field of a row as one selector; the default stays implicit. -/
def emitTarget (target paramKey : Text) : Option Text :=
  if trim target = [] ∨ trim target = "name" then none
  else if trim target = "param" then some ("param:" ++ trim paramKey)
  else some (trim target)

def emitRenameTarget (row : RenameRow) : Option Text :=
  emitTarget row.target row.paramKey

def DropRow.targetValue (row : DropRow) : Option Text :=
  emitTarget row.target row.paramKey

def splitAsnField (raw : Text) : Option (List Text) :=
  if trim raw = [] then none else some (splitItems ',' (trim raw))

/-- An empty list is not written. -/
def nonempty (l : List Text) : Option (List Text) :=
  if l = [] then none else some l

def emitFilter (s : FilterFields) : Option FilterConfig :=
  if s.filterDefaults then some ⟨none, none, none, none, true⟩
  else if s.filterSet then
    let asns := splitAsnField s.asns
    let excludeAsns := splitAsnField s.excludeAsns
    if s.protocols ≠ [] ∨ s.excludeProtocols ≠ [] ∨ asns.isSome ∨ excludeAsns.isSome ∨
        s.forbidInsecure = false then
      some ⟨nonempty s.protocols, nonempty s.excludeProtocols, asns, excludeAsns, s.forbidInsecure⟩
    else none
  else none

/-- A section of rules: reset, not set, or its rules when there are any. -/
def emitRules {ρ : Type} (defaults skip : Bool) (rules : List ρ) : Option (List ρ) :=
  if defaults then some []
  else if skip then none
  else if rules.isEmpty then none else some rules

def renameRule (row : RenameRow) : RenameRule :=
  ⟨row.matchPattern, row.replace, row.flags, emitRenameTarget row⟩

/-- Rows without a pattern never reach the document. -/
def renameRules (rows : List RenameRow) : List RenameRule :=
  (rows.filter fun row => row.matchPattern ≠ []).map renameRule

def emitRename (s : RenameFields) : Option (List RenameRule) :=
  emitRules s.renameDefaults s.renameSkip (renameRules s.rename)

def DropRow.isAsn (row : DropRow) : Bool :=
  trim row.target == "asn".toList

/-- A row with something in its own field: the list of an ASN row, the pattern of any other. -/
def DropRow.isFilled (row : DropRow) : Bool :=
  if row.isAsn then trim row.asns ≠ [] else row.matchPattern ≠ []

def dropRule (row : DropRow) : DropRule :=
  if row.isAsn then ⟨[], [], some "asn".toList, some (splitItems ',' row.asns)⟩
  else ⟨row.matchPattern, row.flags, row.targetValue, none⟩

def dropRules (rows : List DropRow) : List DropRule :=
  (rows.filter DropRow.isFilled).map dropRule

def emitDrop (s : DropFields) : Option (List DropRule) :=
  emitRules s.dropDefaults s.dropSkip (dropRules s.drop)

def OwnTemplate (template : Text) : Prop :=
  template ≠ [] ∧ template ≠ defaultGeoTemplate

instance (template : Text) : Decidable (OwnTemplate template) :=
  inferInstanceAs (Decidable (_ ∧ _))

def emitGeo (s : GeoFields) : Option GeoStepConfig :=
  if s.geoDefaults then some ⟨true, defaultGeoTemplate⟩
  else if s.geoSet then
    let template := trim s.geoTemplate
    if s.geoEnabled = false ∨ OwnTemplate template then
      some ⟨s.geoEnabled, if OwnTemplate template then template else defaultGeoTemplate⟩
    else none
  else none

def emitHealth (s : HealthFields) : Option HealthConfig :=
  if s.healthDefaults then some ⟨defaultExcludeStatuses⟩
  else if s.healthSet ∧ s.excludeStatuses ≠ defaultExcludeStatuses then some ⟨s.excludeStatuses⟩
  else none

def SortBy.all : List SortBy := [.source, .name, .country, .latency]

def emitSort (s : SortFields) : Option SortConfig :=
  if s.sortDefaults then some ⟨.source, false⟩
  else if s.sortSet then
    let sortBy := (SortBy.all.find? fun sort => sort.asStr == s.sortBy).getD .source
    if sortBy ≠ .source ∨ s.sortDesc then some ⟨sortBy, s.sortDesc⟩ else none
  else none

def emitLimit (s : LimitFields) : Option LimitConfig × Option Text :=
  if s.limitDefaults then (some ⟨none⟩, none)
  else if s.limitSet then
    let raw := trim s.limitCount
    if raw = [] then (none, none)
    else
      match parseI64 raw with
      | some count => (some ⟨some count⟩, none)
      | none => (none, some raw)
  else (none, none)

def emitConfig (s : BuilderState) : Config where
  version := 1
  filter := emitFilter s.toFilterFields
  rename := emitRename s.toRenameFields
  drop := emitDrop s.toDropFields
  geo := emitGeo s.toGeoFields
  health := emitHealth s.toHealthFields
  dedup := none
  sort := emitSort s.toSortFields
  limit := (emitLimit s.toLimitFields).1

section Writing

def unlessDefault {α : Type} [DecidableEq α] (default : α) (write : α → Json) (a : α) :
    Option Json :=
  if a = default then none else some (write a)

def filterNames : List (List Text) :=
  [["protocols"], ["exclude_protocols"], ["asns"], ["exclude_asns"],
    ["forbid_insecure", "normalize_params"]]

def filterValue (filter : FilterConfig) : Json :=
  .obj (writtenFields filterNames
    [filter.protocols.map textsValue, filter.excludeProtocols.map textsValue,
      filter.asns.map textsValue, filter.excludeAsns.map textsValue,
      unlessDefault true .bool filter.forbidInsecure])

def renameNames : List (List Text) := [["match"], ["replace"], ["flags"], ["target"]]

def renameValue (rule : RenameRule) : Json :=
  .obj (writtenFields renameNames
    [some (.str rule.matchPattern), some (.str rule.replace), unlessDefault [] .str rule.flags,
      rule.target.map .str])

def dropNames : List (List Text) := [["match"], ["flags"], ["target"], ["asns"]]

def dropValue (rule : DropRule) : Json :=
  .obj (writtenFields dropNames
    [unlessDefault [] .str rule.matchPattern, unlessDefault [] .str rule.flags,
      rule.target.map .str, rule.asns.map textsValue])

def geoNames : List (List Text) := [["enabled"], ["template"]]

def geoValue (geo : GeoStepConfig) : Json :=
  .obj (writtenFields geoNames
    [unlessDefault true .bool geo.enabled, unlessDefault defaultGeoTemplate .str geo.template])

def healthValue (health : HealthConfig) : Json :=
  .obj (writtenFields [["exclude_statuses"]]
    [unlessDefault defaultExcludeStatuses textsValue health.excludeStatuses])

def dedupValue (dedup : DedupConfig) : Json :=
  .obj (writtenFields [["by"]] [some (.str dedup.dedupBy)])

def sortNames : List (List Text) := [["by"], ["desc"]]

def sortValue (sort : SortConfig) : Json :=
  .obj (writtenFields sortNames
    [unlessDefault .source (fun sortBy => .str (SortBy.asStr sortBy)) sort.sortBy,
      unlessDefault false .bool sort.desc])

/-- The count is written even when there is none. -/
def limitValue (limit : LimitConfig) : Json :=
  .obj (writtenFields [["count"]] [some (limit.count.elim .null intValue)])

def configFields (config : Config) : List (Text × Json) :=
  writtenFields configNames
    [some (intValue config.version), config.filter.map filterValue,
      config.rename.map fun rules => .arr (rules.map renameValue),
      config.drop.map fun rules => .arr (rules.map dropValue), config.geo.map geoValue,
      config.health.map healthValue, config.dedup.map dedupValue, config.sort.map sortValue,
      config.limit.map limitValue]

end Writing

/-- A document with nothing but its version is no document; a mistyped cap rides along as text. -/
def emit (s : BuilderState) : Option Json :=
  let fields := match (emitLimit s.toLimitFields).2 with
    | some raw => JsonValue.insert (configFields (emitConfig s)) "limit"
        (.obj [("count", .str raw)])
    | none => configFields (emitConfig s)
  if fields.length = 1 then none else some (.obj fields)

inductive Ingest where
  | builder (state : BuilderState)
  | raw
  deriving DecidableEq, Repr

/-- Documents that mean something the widget cannot show: an empty list that keeps nothing, and an
empty pattern that matches everything. -/
def inexpressible (config : Config) : Bool :=
  config.filter.any (fun filter => filter.protocols.any List.isEmpty) ||
    config.filter.any (fun filter => filter.asns.any List.isEmpty) ||
    config.rename.any (fun rules => rules.any fun rule => rule.matchPattern.isEmpty) ||
    config.drop.any fun rules => rules.any fun rule =>
      rule.target != some "asn".toList && rule.matchPattern.isEmpty

def ingestFilter : Option FilterConfig → FilterFields
  | none => {}
  | some filter =>
    if filter.protocols.any (· ≠ []) ∨ filter.excludeProtocols.any (· ≠ []) ∨
        filter.asns.any (· ≠ []) ∨ filter.excludeAsns.any (· ≠ []) ∨
          filter.forbidInsecure = false then
      { filterSet := true
        protocols := filter.protocols.getD []
        excludeProtocols := filter.excludeProtocols.getD []
        asns := joinItems ',' [' '] (filter.asns.getD [])
        excludeAsns := joinItems ',' [' '] (filter.excludeAsns.getD [])
        forbidInsecure := filter.forbidInsecure }
    else { filterDefaults := true }

def splitTarget : Option Text → Text × Text
  | none => ([], [])
  | some raw =>
    if raw = "name" then ([], [])
    else match stripPrefix "param:" raw with
      | some key => ("param", key)
      | none => (raw, [])

def renameRow (rule : RenameRule) : RenameRow :=
  let target := splitTarget rule.target
  ⟨rule.matchPattern, rule.replace, rule.flags, target.1, target.2⟩

def ingestRename : Option (List RenameRule) → RenameFields
  | none => {}
  | some [] => { renameDefaults := true }
  | some rules => { rename := rules.map renameRow }

def dropRow (rule : DropRule) : DropRow :=
  let target := if rule.target = some "asn".toList then ("asn".toList, [])
    else splitTarget rule.target
  ⟨rule.matchPattern, rule.flags, target.1, target.2,
    (rule.asns.map (joinItems ',' [' '])).getD []⟩

def ingestDrop : Option (List DropRule) → DropFields
  | none => {}
  | some [] => { dropDefaults := true }
  | some rules => { drop := rules.map dropRow }

def ingestGeo : Option GeoStepConfig → GeoFields
  | none => {}
  | some geo =>
    let template := trim geo.template
    if geo.enabled = false ∨ OwnTemplate template then
      { geoSet := true
        geoEnabled := geo.enabled
        geoTemplate := if template ≠ defaultGeoTemplate then geo.template else [] }
    else { geoDefaults := true }

def ingestHealth : Option HealthConfig → HealthFields
  | none => {}
  | some health =>
    if health.excludeStatuses ≠ defaultExcludeStatuses then
      { healthSet := true, excludeStatuses := health.excludeStatuses }
    else { healthDefaults := true }

def ingestSort : Option SortConfig → SortFields
  | none => {}
  | some sort =>
    if sort.sortBy ≠ .source ∨ sort.desc then
      { sortSet := true, sortBy := sort.sortBy.asStr, sortDesc := sort.desc }
    else { sortDefaults := true }

def ingestLimit : Option LimitConfig → LimitFields
  | none => {}
  | some limit =>
    match limit.count with
    | none => { limitDefaults := true }
    | some count => { limitSet := true, limitCount := decimalInt count }

/-- The state of a typed document. Its dedup section has no field. -/
def ingestConfig (config : Config) : BuilderState where
  toFilterFields := ingestFilter config.filter
  toRenameFields := ingestRename config.rename
  toDropFields := ingestDrop config.drop
  toGeoFields := ingestGeo config.geo
  toHealthFields := ingestHealth config.health
  toSortFields := ingestSort config.sort
  toLimitFields := ingestLimit config.limit

def ingest : Option Json → Ingest
  | none => .builder .new
  | some .null => .builder .new
  | some (.obj []) => .builder .new
  | some value =>
    match readConfig value with
    | none => .raw
    | some config =>
      if config.version ≠ 1 ∨ inexpressible config then .raw else .builder (ingestConfig config)

end PipelineEditor
