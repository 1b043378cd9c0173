import Mathlib
import Fumox.RustText
import Fumox.TransitionRuns

/-!
The processed cache of the server and the tasks around it: cold renders and their followers,
background revalidations, and the invalidation that announces a source commit.  Each event is one
access to a lock-protected map or to the database, so tasks interleave between any two of them.
-/

namespace RenderCache

open RustText TransitionRuns

abbrev Key := Text

abbrev SourceId := Text

/-- A rendering, reduced to what the cache layer looks at.  `readAt` counts for each source the
commits that the rows of this rendering already hold. -/
structure Rendered where
  sourceIds : List SourceId
  freshUntil : ℤ
  readAt : SourceId → ℕ

def Rendered.isFresh (r : Rendered) (now : ℤ) : Bool :=
  now < r.freshUntil

/-- Drawn from rows of `source` read before its commit number `version`. -/
def Rendered.Predates (r : Rendered) (source : SourceId) (version : ℕ) : Prop :=
  source ∈ r.sourceIds ∧ r.readAt source < version

structure Caches where
  processed : AList fun _ : Key => Rendered
  generations : AList fun _ : Key => ℕ
  revalidating : List Key
  inlineRendering : AList fun _ : Key => List SourceId

namespace Caches

def empty : Caches := ⟨∅, ∅, [], ∅⟩

/-- Current invalidation generation of a key; 0 when it was never invalidated. -/
def generation (c : Caches) (key : Key) : ℕ :=
  (c.generations.lookup key).getD 0

def bumpGeneration (c : Caches) (key : Key) : Caches :=
  { c with generations := c.generations.insert key (c.generation key + 1) }

def processedGet (c : Caches) (key : Key) : Option Rendered :=
  c.processed.lookup key

def processedPut (c : Caches) (key : Key) (r : Rendered) : Caches :=
  { c with processed := c.processed.insert key r }

def processedRemove (c : Caches) (key : Key) : Caches :=
  { c with processed := c.processed.erase key }

def inlineSources (c : Caches) (key : Key) : Option (List SourceId) :=
  c.inlineRendering.lookup key

def dependentEntries (c : Caches) (source : SourceId) : List Key :=
  (c.processed.entries.filter fun e => e.2.sourceIds.contains source).map Sigma.fst

def dependentClaims (c : Caches) (source : SourceId) : List Key :=
  (c.inlineRendering.entries.filter fun e => e.2.contains source).map Sigma.fst

end Caches

inductive Kind where
  | inline (sources : List SourceId)
  | background

structure Job where
  kind : Kind
  key : Key
  generation : ℕ

/-- Where a task stands.  A follower waits; a render goes from its claim to the release of it; an
invalidation goes from the commit through two sweeps to the last key. -/
inductive Task where
  | idle
  | looking (key : Key)
  | stale (key : Key)
  | cold (key : Key)
  | claiming (key : Key) (sources : List SourceId)
  | waiting (key : Key) (sources : List SourceId)
  | claimed (kind : Kind) (key : Key)
  | rendering (job : Job)
  | fetching (job : Job) (sourceIds : List SourceId)
  | rendered (job : Job) (r : Rendered)
  | checked (job : Job) (r : Rendered)
  | inserted (job : Job) (r : Rendered)
  | superseded (kind : Kind) (key : Key)
  | bumped (kind : Kind) (key : Key)
  | releasing (kind : Kind) (key : Key)
  | committed (source : SourceId) (version : ℕ)
  | sweptEntries (source : SourceId) (version : ℕ) (affected : List Key)
  | invalidating (source : SourceId) (version : ℕ) (todo : List Key)
  | removing (source : SourceId) (version : ℕ) (key : Key) (todo : List Key)

namespace Task

def claim : Task → Option (Kind × Key)
  | claimed kind key | superseded kind key | bumped kind key | releasing kind key =>
    some (kind, key)
  | rendering job | fetching job _ | rendered job _ | checked job _ | inserted job _ =>
    some (job.kind, job.key)
  | _ => none

def job : Task → Option Job
  | rendering job | fetching job _ | rendered job _ | checked job _ | inserted job _ => some job
  | _ => none

def pending : Task → Option (Job × Rendered)
  | rendered job r | checked job r => some (job, r)
  | _ => none

end Task

/-- `rows` counts the commits of each source and `announced` is the last one whose invalidation
has completed. -/
structure World where
  rows : SourceId → ℕ
  announced : SourceId → ℕ
  caches : Caches
  tasks : ℕ → Task

inductive Event where
  | request (t : ℕ) (key : Key)
  | serveFresh (t : ℕ) (key : Key) (now : ℤ)
  | findStale (t : ℕ) (key : Key) (now : ℤ)
  | miss (t : ℕ) (key : Key)
  | startRevalidate (t : ℕ) (key : Key)
  | skipRevalidate (t : ℕ) (key : Key)
  | resolveSources (t : ℕ) (key : Key) (sources : List SourceId)
  | beginInline (t : ℕ) (key : Key) (sources : List SourceId)
  | wait (t : ℕ) (key : Key) (sources : List SourceId)
  | retry (t : ℕ) (key : Key) (sources : List SourceId)
  | answerWaiter (t : ℕ) (key : Key) (sources : List SourceId)
  | readGeneration (t : ℕ) (kind : Kind) (key : Key)
  | readMembers (t : ℕ) (job : Job) (sourceIds : List SourceId)
  | readRows (t : ℕ) (job : Job) (sourceIds : List SourceId) (freshUntil : ℤ)
  | dropSnapshot (t : ℕ) (job : Job)
  | abandon (t : ℕ) (kind : Kind) (key : Key)
  | checkGeneration (t : ℕ) (job : Job) (r : Rendered)
  | refuse (t : ℕ) (job : Job) (r : Rendered)
  | insert (t : ℕ) (job : Job) (r : Rendered)
  | confirm (t : ℕ) (job : Job) (r : Rendered)
  | supersede (t : ℕ) (job : Job) (r : Rendered)
  | bump (t : ℕ) (kind : Kind) (key : Key)
  | remove (t : ℕ) (kind : Kind) (key : Key)
  | release (t : ℕ) (kind : Kind) (key : Key)
  | commit (t : ℕ) (source : SourceId)
  | sweepEntries (t : ℕ) (source : SourceId) (version : ℕ)
  | sweepClaims (t : ℕ) (source : SourceId) (version : ℕ) (affected : List Key)
  | bumpNext (t : ℕ) (source : SourceId) (version : ℕ) (key : Key) (todo : List Key)
  | removeNext (t : ℕ) (source : SourceId) (version : ℕ) (key : Key) (todo : List Key)
  | announce (t : ℕ) (source : SourceId) (version : ℕ)
  | bumpProfile (key : Key)
  | evict (key : Key)
  | evictGeneration (key : Key)

/-- What the database answers is not constrained: a profile may be edited and a lookup may fail
between any two reads. -/
def Enabled (w : World) : Event → Prop
  | .request t _ => w.tasks t = .idle
  | .serveFresh t key now =>
    w.tasks t = .looking key ∧ ∃ r, w.caches.processedGet key = some r ∧ r.isFresh now = true
  | .findStale t key now =>
    w.tasks t = .looking key ∧ ∃ r, w.caches.processedGet key = some r ∧ r.isFresh now = false
  | .miss t key => w.tasks t = .looking key ∧ w.caches.processedGet key = none
  | .startRevalidate t key => w.tasks t = .stale key ∧ key ∉ w.caches.revalidating
  | .skipRevalidate t key => w.tasks t = .stale key ∧ key ∈ w.caches.revalidating
  | .resolveSources t key _ => w.tasks t = .cold key
  | .beginInline t key sources =>
    w.tasks t = .claiming key sources ∧ w.caches.inlineSources key = none
  | .wait t key sources => w.tasks t = .claiming key sources ∧ w.caches.inlineSources key ≠ none
  -- a wake-up carries no rows, so nothing depends on when it comes
  | .retry t key sources | .answerWaiter t key sources => w.tasks t = .waiting key sources
  | .readGeneration t kind key => w.tasks t = .claimed kind key
  | .readMembers t job _ => w.tasks t = .rendering job
  | .readRows t job sourceIds _ => w.tasks t = .fetching job sourceIds
  | .dropSnapshot t job =>
    job.kind = .background ∧ (w.tasks t = .rendering job ∨ ∃ ids, w.tasks t = .fetching job ids)
  -- a failed render, a timeout, a panic or a dropped request
  | .abandon t kind key => (w.tasks t).claim = some (kind, key)
  | .checkGeneration t job r =>
    w.tasks t = .rendered job r ∧ w.caches.generation job.key = job.generation
  | .refuse t job r => w.tasks t = .rendered job r ∧ w.caches.generation job.key ≠ job.generation
  | .insert t job r => w.tasks t = .checked job r
  | .confirm t job r => w.tasks t = .inserted job r ∧ w.caches.generation job.key = job.generation
  | .supersede t job r =>
    w.tasks t = .inserted job r ∧ w.caches.generation job.key ≠ job.generation
  | .bump t kind key => w.tasks t = .superseded kind key
  | .remove t kind key => w.tasks t = .bumped kind key
  | .release t kind key => w.tasks t = .releasing kind key
  | .commit t _ => w.tasks t = .idle
  | .sweepEntries t source version => w.tasks t = .committed source version
  | .sweepClaims t source version affected => w.tasks t = .sweptEntries source version affected
  | .bumpNext t source version key todo =>
    w.tasks t = .invalidating source version (key :: todo)
  | .removeNext t source version key todo => w.tasks t = .removing source version key todo
  | .announce t source version => w.tasks t = .invalidating source version []
  -- `invalidate_profile` bumps and then removes as an eviction does
  | .bumpProfile _ | .evict _ | .evictGeneration _ => True

namespace World

def goto (w : World) (t : ℕ) (task : Task) : World :=
  { w with tasks := Function.update w.tasks t task }

def releaseClaim (w : World) (key : Key) : Kind → World
  | .inline _ =>
    { w with caches := { w.caches with inlineRendering := w.caches.inlineRendering.erase key } }
  | .background =>
    { w with caches := { w.caches with revalidating := w.caches.revalidating.erase key } }

end World

def next (w : World) : Event → World
  | .request t key => w.goto t (.looking key)
  | .serveFresh t _ _ | .skipRevalidate t _ | .answerWaiter t _ _ => w.goto t .idle
  | .findStale t key _ => w.goto t (.stale key)
  | .miss t key => w.goto t (.cold key)
  | .startRevalidate t key =>
    { w with caches.revalidating := key :: w.caches.revalidating }.goto t (.claimed .background key)
  | .resolveSources t key sources | .retry t key sources => w.goto t (.claiming key sources)
  | .beginInline t key sources =>
    { w with caches.inlineRendering := w.caches.inlineRendering.insert key sources }.goto t
      (.claimed (.inline sources) key)
  | .wait t key sources => w.goto t (.waiting key sources)
  | .readGeneration t kind key => w.goto t (.rendering ⟨kind, key, w.caches.generation key⟩)
  | .readMembers t job sourceIds => w.goto t (.fetching job sourceIds)
  | .readRows t job sourceIds freshUntil => w.goto t (.rendered job ⟨sourceIds, freshUntil, w.rows⟩)
  | .dropSnapshot t job => w.goto t (.superseded job.kind job.key)
  | .abandon t kind key => w.goto t (.releasing kind key)
  | .checkGeneration t job r => w.goto t (.checked job r)
  | .refuse t job _ | .confirm t job _ => w.goto t (.releasing job.kind job.key)
  | .insert t job r =>
    { w with caches := w.caches.processedPut job.key r }.goto t (.inserted job r)
  | .supersede t job _ => w.goto t (.superseded job.kind job.key)
  | .bump t kind key => { w with caches := w.caches.bumpGeneration key }.goto t (.bumped kind key)
  | .remove t kind key =>
    { w with caches := w.caches.processedRemove key }.goto t (.releasing kind key)
  | .release t kind key => (w.releaseClaim key kind).goto t .idle
  | .commit t source =>
    { w with rows := Function.update w.rows source (w.rows source + 1) }.goto t
      (.committed source (w.rows source + 1))
  | .sweepEntries t source version =>
    w.goto t (.sweptEntries source version (w.caches.dependentEntries source))
  | .sweepClaims t source version affected =>
    w.goto t (.invalidating source version (affected ++ w.caches.dependentClaims source))
  | .bumpNext t source version key todo =>
    { w with caches := w.caches.bumpGeneration key }.goto t (.removing source version key todo)
  | .removeNext t source version key todo =>
    { w with caches := w.caches.processedRemove key }.goto t (.invalidating source version todo)
  | .announce t source version =>
    let latest := max (w.announced source) version
    { w with announced := Function.update w.announced source latest }.goto t .idle
  | .bumpProfile key => { w with caches := w.caches.bumpGeneration key }
  | .evict key => { w with caches := w.caches.processedRemove key }
  | .evictGeneration key =>
    { w with caches.generations := w.caches.generations.erase key }

def init : World := ⟨fun _ => 0, fun _ => 0, .empty, fun _ => .idle⟩

def renderCache : System World Event := ⟨(· = init), Enabled, next⟩

end RenderCache
