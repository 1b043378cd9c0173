import Mathlib
import Fumox.ConfigModels

/-!
The source rows: what an edit of the admin form writes, what a fetch records, and which settings a
freshness stamp belongs to.
-/

namespace SourceStore

open RustText JsonValue ProxyModels SubscriptionParser ConfigModels

inductive JsonToken where
  | null
  | bool (b : Bool)
  | num (n : Number)
  | str (t : Text)
  | key (k : Text)
  | arr | obj | close
  deriving DecidableEq, Repr

def unsignedZero : Number → Number
  | .float image => if image = ("-0.0" : Text) then .float "0.0" else .float image
  | n => n

mutual

/-- Two values are equal when their tokens are: the members of an object count in any order. -/
def tokens : Json → List JsonToken
  | .null => [.null]
  | .bool b => [.bool b]
  | .num n => [.num (unsignedZero n)]
  | .str t => [.str t]
  | .arr items => .arr :: itemTokens items ++ [.close]
  | .obj fields =>
    let members := (fieldTokens fields).insertionSort fun f g => f.1 ≤ g.1
    .obj :: members.flatMap (fun f => .key f.1 :: f.2) ++ [.close]

def itemTokens : List Json → List JsonToken
  | [] => []
  | j :: js => tokens j ++ itemTokens js

def fieldTokens : List (Text × Json) → List (Text × List JsonToken)
  | [] => []
  | (k, j) :: fs => (k, tokens j) :: fieldTokens fs

end

/-- What a payload is fetched and parsed under. -/
structure FetchSettings where
  url : Text
  headers : Option (List (Text × Text))
  encoding : Encoding
  inputFormat : Option InputFormat
  protocols : Option (List Scheme)
  pipeline : Option (List JsonToken)
  ipFamily : Option IpFamily
  deriving DecidableEq, Repr

def fetchSettings (source : Source) : FetchSettings where
  url := source.url
  headers := source.headers
  encoding := source.encoding
  inputFormat := source.inputFormat
  protocols := source.protocols
  pipeline := source.pipeline.map tokens
  ipFamily := source.ipFamily

def fetchStampStale (old new : Source) : Bool :=
  old.url ≠ new.url
    || old.enabled ≠ new.enabled
    || old.encoding ≠ new.encoding
    || old.inputFormat ≠ new.inputFormat
    || old.protocols ≠ new.protocols
    || old.cacheTtlSeconds ≠ new.cacheTtlSeconds
    || old.pipeline.map tokens ≠ new.pipeline.map tokens
    || old.headers ≠ new.headers
    || old.ipFamily ≠ new.ipFamily

/-- The stamp that `update` writes, from the row that it reads. -/
def stampOf (existing : Option Source) (source : Source) : Option ℤ :=
  match existing with
  | some existing => if fetchStampStale existing source then none else source.lastFetchedAt
  | none => source.lastFetchedAt

def updateRow (row source : Source) (lastFetchedAt : Option ℤ) : Source :=
  { source with id := row.id, createdAt := row.createdAt, lastFetchedAt := lastFetchedAt }

/-- `build_source_from_form` on validated fields: what the last fetch left comes from the stored
row, when the read of that row succeeds. -/
def buildSourceFromForm (fields : Source) (existingId : Text) (existing : Option Source)
    (now : ℤ) : Source :=
  { fields with
    id := existingId
    createdAt := (existing.map (·.createdAt)).getD now
    updatedAt := now
    lastFetchedAt := existing.bind (·.lastFetchedAt)
    lastError := existing.bind (·.lastError)
    errorClass := existing.bind (·.errorClass) }

inductive FetchOutcome where
  | success (at' : ℤ)
  | failure (error : Text) (errorClass : ErrorClass)

def recordFetchOutcome (row : Source) : FetchOutcome → Source
  | .success at' =>
    { row with lastFetchedAt := some at', lastError := none, errorClass := none, updatedAt := at' }
  | .failure error errorClass =>
    { row with lastError := some error, errorClass := some errorClass }

def saturatingSub (a b : ℤ) : ℤ :=
  max (-2 ^ 63) (min (2 ^ 63 - 1) (a - b))

def isFresh (source : Source) (now : ℤ) : Bool :=
  source.lastFetchedAt.any fun fetchedAt => saturatingSub now fetchedAt < source.cacheTtlSeconds

def recorded (row : Source) : Option ℤ × Option Text × Option ErrorClass :=
  (row.lastFetchedAt, row.lastError, row.errorClass)

variable {row source old new : Source} {outcome : FetchOutcome} {stamp : Option ℤ}

@[simp] theorem fetchSettings_recordFetchOutcome :
    fetchSettings (recordFetchOutcome row outcome) = fetchSettings row := by
  cases outcome <;> rfl

@[simp] theorem fetchSettings_updateRow :
    fetchSettings (updateRow row source stamp) = fetchSettings source := rfl

theorem fetchSettings_eq (h : fetchStampStale old new = false) :
    fetchSettings old = fetchSettings new := by
  simp only [fetchStampStale, Bool.or_eq_false_iff, decide_eq_false_iff_not, not_not] at h
  obtain ⟨⟨⟨⟨⟨⟨⟨⟨hurl, -⟩, hencoding⟩, hinput⟩, hprotocols⟩, -⟩, hpipeline⟩, hheaders⟩, hfamily⟩ := h
  simp only [fetchSettings, hurl, hencoding, hinput, hprotocols, hpipeline, hheaders, hfamily]

end SourceStore
