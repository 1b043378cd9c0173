import Fumox.ConfigImport
import Fumox.PipelineEditor

/-!
The form of a subscription source: the values that the edit page shows, the source that a posted
form is read as, and the header secrets that are put back for their masks.
-/

namespace SourceForm

open RustText JsonValue ProxyModels SubscriptionParser ConfigModels PipelineConfig ConfigImport
  ItemList PipelineEditor PayloadGuards

abbrev HeaderMap := List (Text × Text)

/-- The first three characters and a fixed tail; short values are hidden. -/
def maskSecret (value : Text) : Text :=
  if value = [] then []
  else if value.length ≤ 3 then "••••"
  else value.take 3 ++ "…••••"

/-- The secrets that stand behind one mask each, and the masks of several secrets. -/
structure Masks where
  secrets : List (Text × Text) := []
  ambiguous : List Text := []

def addMask (masks : Masks) (original : Text) : Masks :=
  let mask := maskSecret original
  if mask ∈ masks.ambiguous then masks
  else
    match masks.secrets.lookup mask with
    | some previous =>
      if previous ≠ original then
        ⟨masks.secrets.filter fun m => m.1 ≠ mask, mask :: masks.ambiguous⟩
      else masks
    | none => { masks with secrets := (mask, original) :: masks.secrets }

def storedMasks (stored : HeaderMap) : Masks :=
  (stored.map Prod.snd).foldl addMask {}

/-- The value of one header: its own secret for its own mask, else the one secret of a mask. -/
def restoreValue (stored : HeaderMap) (key value : Text) : Text :=
  let masked := ((storedMasks stored).secrets.lookup value).getD value
  match stored.lookup key with
  | some original => if value = maskSecret original then original else masked
  | none => masked

def restoreMaskedHeaders (headers stored : HeaderMap) : HeaderMap :=
  if headers = [] ∨ stored = [] then headers
  else headers.map fun h => (h.1, restoreValue stored h.1 h.2)

structure SourceFormValues where
  name : Text
  slug : Text
  url : Text
  enabled : Bool
  encoding : Text
  inputFormat : Text
  ipFamily : Text
  protocols : List Text
  cacheTtlSeconds : Text
  tags : Text
  headers : Text

def headerLine (h : Text × Text) : Text :=
  h.1 ++ ": " ++ maskSecret h.2

def sourceEditForm (source : Source) : SourceFormValues where
  name := source.name
  slug := source.slug.getD []
  url := source.url
  enabled := source.enabled
  encoding := source.encoding.asStr
  inputFormat := (source.inputFormat.map InputFormat.asStr).getD []
  ipFamily := (source.ipFamily.map IpFamily.asStr).getD []
  protocols := (source.protocols.map (List.map Scheme.asStr)).getD []
  cacheTtlSeconds := decimalInt source.cacheTtlSeconds
  tags := (source.tags.map (joinItems ',' [' '])).getD []
  headers := (source.headers.map fun m => joinItems '\n' [] (m.map headerLine)).getD []

def allProtocolsWithSelection (selected : List Text) : List (Text × Bool) :=
  Scheme.all.map fun scheme => (scheme.asStr, decide (scheme.asStr ∈ selected))

/-- The fields that the page submits, top to bottom; a box that is not ticked submits nothing. -/
def SourceFormValues.fields (values : SourceFormValues) : Form :=
  let top : Form := [("name", values.name), ("slug", values.slug), ("url", values.url)]
  let enabled : Form := if values.enabled then [("enabled", "1")] else []
  let selects : Form :=
    [("encoding", values.encoding), ("input_format", values.inputFormat),
      ("ip_family", values.ipFamily)]
  let boxes : Form := ((allProtocolsWithSelection values.protocols).filter Prod.snd).map
    fun p => ("protocols".toList, p.1)
  let bottom : Form :=
    [("cache_ttl_seconds", values.cacheTtlSeconds), ("tags", values.tags),
      ("headers", values.headers)]
  top ++ enabled ++ selects ++ boxes ++ bottom

/-- What the panel reads JSON text with, beside what it vets with. -/
structure Panel extends Vetting where
  parseJson : Text → Except Text Json

structure FieldIssue where
  field : Text
  issue : PipelineIssue
  deriving DecidableEq, Repr

def fieldIssue (field key : Text) (args : List Text) : FieldIssue := ⟨field, ⟨key, args⟩⟩

def sourceById (rows : List Source) (id : Text) : Option Source :=
  rows.find? fun s => s.id = id

def sourceBySlug (rows : List Source) (slug : Text) : Option Source :=
  rows.find? fun s => s.slug = some slug

section Fields

variable (panel : Panel) (rows : List Source)

def readName (form : Form) : Text × List FieldIssue :=
  let name := get form "name"
  (name,
    if name = [] then [fieldIssue "name" "val.required" []]
    else if name.length > 200 then [fieldIssue "name" "val.name_too_long" []]
    else [])

def validateSlug (slugRaw : Text) (existingId : Option Text) : Option Text × List FieldIssue :=
  if slugRaw = [] then (none, [])
  else if slugFormat slugRaw = false then
    (some slugRaw, [fieldIssue "slug" "val.slug_format" []])
  else
    (some slugRaw,
      if (sourceBySlug rows slugRaw).any fun other => other.id ≠ existingId.getD [] then
        [fieldIssue "slug" "val.slug_taken" []]
      else [])

/-- A value out of a menu; a blank field is the default. -/
def readChoice {α : Type} (fromStr : Text → Option α) (default : α) (field raw : Text) :
    α × List FieldIssue :=
  if raw = [] then (default, [])
  else
    match fromStr raw with
    | some a => (a, [])
    | none => (default, [fieldIssue field "val.unknown_value" []])

def readIpFamily (form : Form) : Option IpFamily × List FieldIssue :=
  readChoice (fun raw => (IpFamily.fromStr raw).map some) none "ip_family" (get form "ip_family")

def readEncoding (form : Form) : Encoding × List FieldIssue :=
  readChoice Encoding.fromStr .auto "encoding" (get form "encoding")

def readInputFormat (form : Form) : Option InputFormat × List FieldIssue :=
  readChoice (fun raw => (InputFormat.fromStr raw).map some) none "input_format"
    (get form "input_format")

def readUrl (form : Form) (ipFamily : Option IpFamily) : Text × List FieldIssue :=
  let url := get form "url"
  (url,
    if url = [] then [fieldIssue "url" "val.required" []]
    else if byteLength url > Caps.url then
      [fieldIssue "url" "val.field_too_long" [decimal Caps.url]]
    else
      match vetUrl panel.toVetting url panel.allowPrivateUrls
          (ipFamily.getD panel.defaultFamily) with
      | some issue => [⟨"url", issue⟩]
      | none => [])

def readProtocols (form : Form) : Option (List Scheme) × List FieldIssue :=
  let names := getAll form "protocols"
  if names = [] then (none, [])
  else
    (some (names.filterMap Scheme.fromStr),
      (names.filter fun raw => (Scheme.fromStr raw).isNone).map fun raw =>
        fieldIssue "protocols" "val.unknown_protocol" [raw])

def readTtl (form : Form) : ℤ × List FieldIssue :=
  let outside := (3600, [fieldIssue "cache_ttl_seconds" "val.ttl_range" []])
  match parseI64 (get form "cache_ttl_seconds") with
  | some ttl => if 60 ≤ ttl ∧ ttl ≤ 86400 then (ttl, []) else outside
  | none => outside

def readTags (form : Form) : Option (List Text) × List FieldIssue :=
  let raw := get form "tags"
  if raw = [] then (none, [])
  else
    let list := splitItems ',' raw
    (some list,
      (if list.length > Caps.tags then
        [fieldIssue "tags" "val.too_many_tags" [decimal Caps.tags]] else []) ++
      if list.any fun t => byteLength t > Caps.tagBytes then
        [fieldIssue "tags" "val.field_too_long" [decimal Caps.tagBytes]] else [])

def readHeaderLine (line : Text) : Except FieldIssue (Text × Text) :=
  match splitOnce ':' line with
  | none => .error (fieldIssue "headers" "val.header_line" [line])
  | some (key, value) =>
    if trim key = [] then .error (fieldIssue "headers" "val.header_empty_key" [])
    else if panel.headerName (trim key) && panel.headerValue (trim value) then
      .ok (trim key, trim value)
    else .error (fieldIssue "headers" "val.header_invalid" [line])

def addHeaderLine (read : HeaderMap × List FieldIssue) (line : Text) :
    HeaderMap × List FieldIssue :=
  match readHeaderLine panel line with
  | .ok h => (JsonValue.insert read.1 h.1 h.2, read.2)
  | .error issue => (read.1, read.2 ++ [issue])

def headerLines (raw : Text) : List Text :=
  ((lines raw).map trim).filter (· ≠ [])

def readHeaders (form : Form) : HeaderMap × List FieldIssue :=
  let shown := headerLines (get form "headers")
  let capped :=
    (if shown.length > Caps.headerLines then
      [fieldIssue "headers" "val.too_many_headers" [decimal Caps.headerLines]] else []) ++
    if (shown.map byteLength).sum > Caps.headerBytes then
      [fieldIssue "headers" "val.headers_too_long" [decimal Caps.headerBytes]] else []
  shown.foldl (addHeaderLine panel) ([], capped)

def pipelineFromForm (form : Form) : Option Json × List FieldIssue :=
  if get form "pipeline_mode" = "builder" then
    match emit (fromForm form) with
    | none => (none, [])
    | some value =>
      match fromJson panel.engines (some value) with
      | .ok _ =>
        if byteLength (panel.print value) > Caps.pipelineBytes then
          (none, [fieldIssue "pipeline" "val.field_too_long" [decimal Caps.pipelineBytes]])
        else (some value, [])
      | .error issues => (none, issues.map fun issue => ⟨"pipeline", issue⟩)
  else
    let raw := get form "pipeline"
    if raw = [] then (none, [])
    else if byteLength raw > Caps.pipelineBytes then
      (none, [fieldIssue "pipeline" "val.field_too_long" [decimal Caps.pipelineBytes]])
    else
      match panel.parseJson raw with
      | .ok value =>
        match fromJson panel.engines (some value) with
        | .ok _ => (some value, [])
        | .error issues => (none, issues.map fun issue => ⟨"pipeline", issue⟩)
      | .error e => (none, [fieldIssue "pipeline" "val.invalid_json" [e]])

def formIssues (form : Form) (existingId : Option Text) : List FieldIssue :=
  (readName form).2 ++ (validateSlug rows (get form "slug") existingId).2 ++
    (readIpFamily form).2 ++ (readUrl panel form (readIpFamily form).1).2 ++
    (readEncoding form).2 ++ (readInputFormat form).2 ++ (readProtocols form).2 ++
    (readTtl form).2 ++ (readTags form).2 ++ (readHeaders panel form).2 ++
    (pipelineFromForm panel form).2

/-- The headers of a form, with the stored secrets back in the place of their masks. -/
def savedHeaders (form : Form) (existing : Option Source) : HeaderMap :=
  let typed := (readHeaders panel form).1
  match existing.bind (·.headers) with
  | some stored => restoreMaskedHeaders typed stored
  | none => typed

def assembleSource (newId : Text) (now : ℤ) (form : Form) (existingId : Option Text) : Source :=
  let existing := existingId.bind (sourceById rows)
  let headers := savedHeaders panel form existing
  { id := existingId.getD newId
    slug := (validateSlug rows (get form "slug") existingId).1
    name := (readName form).1
    url := (readUrl panel form (readIpFamily form).1).1
    enabled := form.any fun f => f.1 == "enabled".toList
    encoding := (readEncoding form).1
    inputFormat := (readInputFormat form).1
    protocols := (readProtocols form).1
    cacheTtlSeconds := (readTtl form).1
    tags := (readTags form).1
    pipeline := (pipelineFromForm panel form).1
    headers := if headers = [] then none else some headers
    ipFamily := (readIpFamily form).1
    createdAt := (existing.map (·.createdAt)).getD now
    updatedAt := now
    lastFetchedAt := existing.bind (·.lastFetchedAt)
    lastError := existing.bind (·.lastError)
    errorClass := existing.bind (·.errorClass) }

def buildSourceFromForm (newId : Text) (now : ℤ) (form : Form) (existingId : Option Text) :
    Except (List FieldIssue) Source :=
  if formIssues panel rows form existingId ≠ [] then
    .error (formIssues panel rows form existingId)
  else .ok (assembleSource panel rows newId now form existingId)

end Fields

end SourceForm
