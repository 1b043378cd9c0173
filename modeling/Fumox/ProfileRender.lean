import Fumox.ConfigModels
import Fumox.IngestInvalidation
import Fumox.PipelineSteps

/-!
The proxies that a profile serves: the pipelines of its member sources under the sections of the
profile, the merged list, and the cap of the profile as a prefix of what it serves without one.
-/

namespace ProfileRender

open RustText JsonValue SerdeValue ProxyModels ProxyStore ConfigModels PipelineConfig PipelineSteps
  RankedPrefix
open IngestInvalidation (listWithSource)

structure ErrorReply where
  status : ℕ
  message : Text
  dropCached : Bool
  deriving DecidableEq, Repr

/-- The stored configuration behind one profile: its sources in merge order, the table of sources,
the HTTP status of the last fetch of a source, and the proxies. -/
structure ServerState where
  links : List Text
  sources : List Source
  lastHttpStatus : Text → Option ℕ
  store : Store

section Render

variable (env : Environment) (json : SerdeJson)

def corruptedPipeline : ErrorReply := ⟨500, "internal server error", false⟩

/-- A status code outside `100..=999` is no status code. -/
def upstreamUnavailable (st : ServerState) (source : Source) : ErrorReply :=
  let upstream := (st.lastHttpStatus source.id).getD 502
  { status := if 100 ≤ upstream ∧ upstream ≤ 999 then upstream else 502
    message := "source \"".toList ++ source.name ++ "\" unavailable: ".toList ++
      source.lastError.getD "HTTP client error"
    dropCached := true }

def memberSources (st : ServerState) : List Source :=
  st.links.filterMap fun sourceId =>
    (st.sources.find? fun source => source.id == sourceId).filter (·.enabled)

def compiled (pipeline : Option Json) : Except ErrorReply (Pipeline env) :=
  match fromJson env.engines pipeline with
  | .ok compiled => .ok compiled
  | .error _ => .error corruptedPipeline

/-- Rows that are no entries are skipped. -/
def rowsToCandidates (rows : List ProxyRow) (sourcePosition : ℕ) : List Candidate :=
  rows.filterMap fun row =>
    match toEntry json row with
    | .ok entry =>
      some ⟨entry, sourcePosition, row.status, row.latencyMs, row.geoCountry, row.geoAsn⟩
    | .error _ => none

def allowedCountries (profile : Profile) : Option (List Text) :=
  if profile.countries = [] then none
  else some ((profile.countries.map fun code => toAsciiUppercase (trim code)).filter (· ≠ []))

def candidates (st : ServerState) (profile : Profile) (members : List Source) (position : ℕ)
    (source : Source) : List Candidate :=
  let taken := (members.take position).any fun earlier => earlier.id == source.id
  let rows := if taken then []
    else ((listWithSource st.store (members.map (·.id))).filter fun r => r.1 == source.id).map (·.2)
  (rowsToCandidates json rows position).filter fun c =>
    (allowedCountries profile).all fun allowed =>
      c.geoCountry.any fun code => allowed.contains (toAsciiUppercase code)

def memberPipelines (st : ServerState) (profile : Profile) :
    Except ErrorReply (List (Pipeline env)) :=
  (memberSources st).mapM fun source =>
    compiled env (mergeConfigs source.pipeline profile.pipeline)

def contributions (st : ServerState) (profile : Profile) (pipelines : List (Pipeline env)) :
    List (List Candidate) :=
  ((memberSources st).zip pipelines).zipIdx.map fun member =>
    apply env member.1.2
      (candidates json st profile (memberSources st) member.2 member.1.1)

def sortSection : Option Json → Option Json
  | some (.obj fields) => objectGet fields "sort"
  | _ => none

def sourceSort (members : List Source) (pipelines : List (Pipeline env))
    (profilePipeline : Pipeline env) : Option Json :=
  if profilePipeline.sortExplicit then none
  else
    ((members.zip pipelines).find? fun member => member.2.sortExplicit).bind fun member =>
      sortSection member.1.pipeline

def finalizeConfig (profilePipeline : Option Json) (sort : Option Json) : Option Json :=
  let config := match profilePipeline with
    | none => Json.obj [("version", .num (.posInt 1))]
    | some .null => Json.obj [("version", .num (.posInt 1))]
    | some value => value
  match sort, config with
  | some sort, .obj fields => some (.obj (insert fields "sort" sort))
  | _, config => some config

def mergeInputs (st : ServerState) (profile : Profile) :
    Except ErrorReply (List (List Candidate) × Pipeline env) := do
  let pipelines ← memberPipelines env st profile
  match (memberSources st).find? fun source => source.errorClass == some .httpClient with
  | some source => .error (upstreamUnavailable st source)
  | none =>
    let profilePipeline ← compiled env profile.pipeline
    let sort := sourceSort env (memberSources st) pipelines profilePipeline
    let finalizer ← compiled env (finalizeConfig profile.pipeline sort)
    return (contributions env json st profile pipelines, finalizer)

def renderSub (st : ServerState) (profile : Profile) : Except ErrorReply (List Candidate) :=
  (mergeInputs env json st profile).map fun inputs => finalize env inputs.2 inputs.1.flatten

end Render

end ProfileRender
