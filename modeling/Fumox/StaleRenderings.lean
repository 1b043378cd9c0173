import Fumox.RenderCacheSteps

/-!
The processed cache holds no rendering of rows older than an announced commit, in every run that
keeps to the order which the sweeps of an invalidation rely on.
-/

namespace StaleRenderings

open RustText RenderCache TransitionRuns

variable {w : World} {e : Event} {source : SourceId} {version : ℕ}

def Visible (w : World) (source : SourceId) (key : Key) : Prop :=
  ∃ sources, w.caches.inlineSources key = some sources ∧ source ∈ sources

/-- Renderings older than a commit survive only under the keys that `stored` and `waiting` still
allow: the ones in the cache, and the ones that could still be put there. -/
structure Settled (w : World) (source : SourceId) (version : ℕ) (stored : Key → Prop)
    (waiting : Job → Prop) : Prop where
  stored : ∀ key r, w.caches.processedGet key = some r → r.Predates source version → stored key
  waiting : ∀ t job r, (w.tasks t).pending = some (job, r) →
    w.caches.generation job.key = job.generation → r.Predates source version → waiting job

structure Invariant (w : World) : Prop where
  generation : ∀ t job, (w.tasks t).job = some job → job.generation ≤ w.caches.generation job.key
  claim : ∀ t key sources, (w.tasks t).claim = some (.inline sources, key) →
    w.caches.inlineSources key = some sources
  leader : ∀ t t' key sources sources', (w.tasks t).claim = some (.inline sources, key) →
    (w.tasks t').claim = some (.inline sources', key) → t = t'
  reads : ∀ t job r sources, (w.tasks t).pending = some (job, r) → job.kind = .inline sources →
    r.sourceIds ⊆ sources
  version : ∀ t source version, (w.tasks t).invalidation = some (source, version) →
    version ≤ w.rows source
  announcedVersion : ∀ source, w.announced source ≤ w.rows source
  -- between the sweeps, an outdated entry is listed or belongs to an inline leader
  swept : ∀ t source version affected, w.tasks t = .sweptEntries source version affected →
    Settled w source version (fun key => key ∈ affected ∨ Visible w source key)
      (fun job => job.key ∈ affected ∨ job.kind ≠ .background)
  invalidating : ∀ t source version todo, w.tasks t = .invalidating source version todo →
    Settled w source version (· ∈ todo) (·.key ∈ todo)
  removing : ∀ t source version key todo, w.tasks t = .removing source version key todo →
    Settled w source version (· ∈ key :: todo) (·.key ∈ todo)
  announced : ∀ source, Settled w source (w.announced source) (fun _ => False) (fun _ => False)

theorem pending_job {task : Task} {job : Job} {r : Rendered} (h : task.pending = some (job, r)) :
    task.job = some job := by
  cases task <;> simp_all [Task.pending, Task.job]

theorem job_claim {task : Task} {job : Job} (h : task.job = some job) :
    task.claim = some (job.kind, job.key) := by
  cases task <;> simp_all [Task.job, Task.claim]

theorem Invariant.visible (h : Invariant w) {t : ℕ} {job : Job} {r : Rendered}
    (hpending : (w.tasks t).pending = some (job, r)) (hkind : job.kind ≠ .background)
    (hsource : source ∈ r.sourceIds) : Visible w source job.key := by
  obtain ⟨sources, hsources⟩ : ∃ sources, job.kind = .inline sources := by
    cases hjob : job.kind with
    | inline sources => exact ⟨sources, rfl⟩
    | background => exact absurd hjob hkind
  have hclaim := job_claim (pending_job hpending)
  rw [hsources] at hclaim
  exact ⟨sources, h.claim _ _ _ hclaim, h.reads _ _ _ _ hpending hsources hsource⟩

theorem init_invariant : Invariant init := by
  constructor <;> simp [init, Task.job, Task.claim, Task.pending, Task.invalidation]
  intro source
  constructor <;> simp [Task.pending, Caches.empty, Caches.processedGet]

section Step

variable (h : Invariant w) (henabled : Enabled w e) (hok : Orderly w e)
include h henabled hok

theorem generation_step (t : ℕ) (job : Job) (hjob : ((next w e).tasks t).job = some job) :
    job.generation ≤ (next w e).caches.generation job.key := by
  have heffect := effect_next henabled hok
  rcases heffect.job t job hjob with hold | hnew
  · exact (h.generation t job hold).trans (heffect.generation t job hold)
  · exact hnew

/-- No step makes an outdated rendering out of rows it reads now, or puts one in the cache whose
key the invalidation has passed. -/
theorem settled_step {stored : Key → Prop} {waiting : Job → Prop}
    (hversion : version ≤ w.rows source) (hsettled : Settled w source version stored waiting)
    (hmoves : ∀ t job r, (w.tasks t).pending = some (job, r) → r.Predates source version →
      waiting job → stored job.key) :
    Settled (next w e) source version stored waiting := by
  have heffect := effect_next henabled hok
  constructor
  · intro key r hget hold
    rcases heffect.stored key r hget with hkept | ⟨t, job, hpending, rfl, hcurrent⟩
    · exact hsettled.stored key r hkept hold
    · have hgeneration := hcurrent ⟨source, hold.1, hold.2.trans_le hversion⟩
      exact hmoves t job r hpending hold (hsettled.waiting t job r hpending hgeneration hold)
  · intro t job r hpending hgeneration hold
    rcases heffect.pending t job r hpending with hkept | ⟨hread, -⟩
    · refine hsettled.waiting t job r hkept ?_ hold
      have hjob := pending_job hkept
      have hle := h.generation t job hjob
      have hmono := heffect.generation t job hjob
      omega
    · have hnew := hold.2
      rw [hread] at hnew
      omega

theorem claim_step (t : ℕ) (key : Key) (sources : List SourceId)
    (hclaim : ((next w e).tasks t).claim = some (.inline sources, key)) :
    (next w e).caches.inlineSources key = some sources := by
  rcases claim_next henabled hclaim with hold | rfl
  · rcases inlineSources_next henabled (h.claim t key sources hold) with hkept | ⟨t', sources', rfl⟩
    · exact hkept
    · -- the leader that releases the claim is the one that holds it
      have hfrom : w.tasks t' = .releasing (.inline sources') key := henabled
      obtain rfl := h.leader t t' key sources sources' hold (by rw [hfrom]; rfl)
      simp [next, World.goto_tasks, Task.claim] at hclaim
  · exact AList.lookup_insert _

theorem leader_step (t t' : ℕ) (key : Key) (sources sources' : List SourceId)
    (hclaim : ((next w e).tasks t).claim = some (.inline sources, key))
    (hclaim' : ((next w e).tasks t').claim = some (.inline sources', key)) : t = t' := by
  rcases claim_next henabled hclaim with hold | rfl
  · rcases claim_next henabled hclaim' with hold' | rfl
    · exact h.leader t t' key sources sources' hold hold'
    · have hfree := henabled.2
      rw [h.claim t key sources hold] at hfree
      cases hfree
  · rcases claim_next henabled hclaim' with hold' | heq
    · have hfree := henabled.2
      rw [h.claim t' key sources' hold'] at hfree
      cases hfree
    · injection heq

theorem reads_step (t : ℕ) (job : Job) (r : Rendered) (sources : List SourceId)
    (hpending : ((next w e).tasks t).pending = some (job, r)) (hkind : job.kind = .inline sources) :
    r.sourceIds ⊆ sources := by
  rcases (effect_next henabled hok).pending t job r hpending with hold | ⟨-, hnew⟩
  · exact h.reads t job r sources hold hkind
  · exact hnew sources hkind

theorem version_step (t : ℕ) (source : SourceId) (version : ℕ)
    (hinv : ((next w e).tasks t).invalidation = some (source, version)) :
    version ≤ (next w e).rows source := by
  have heffect := effect_next henabled hok
  rcases heffect.invalidation t source version hinv with hold | hnew
  · exact (h.version t source version hold).trans (heffect.rows source)
  · exact hnew.le

theorem announcedVersion_step (source : SourceId) :
    (next w e).announced source ≤ (next w e).rows source := by
  have hrows := (effect_next henabled hok).rows source
  have hold := h.announcedVersion source
  rcases announced_next (w := w) (e := e) source with hkept | ⟨t, version, rfl, hnew⟩
  · omega
  · have hfrom : w.tasks t = .invalidating source version [] := henabled
    have hversion := h.version t source version (by rw [hfrom]; rfl)
    omega

theorem swept_step (t : ℕ) (source : SourceId) (version : ℕ) (affected : List Key)
    (hfrom : w.tasks t = .sweptEntries source version affected) :
    Settled (next w e) source version
      (fun key => key ∈ affected ∨ Visible (next w e) source key)
      (fun job => job.key ∈ affected ∨ job.kind ≠ .background) := by
  have hsettled := settled_step h henabled hok (h.version t source version (by rw [hfrom]; rfl))
    (h.swept t source version affected hfrom) fun t' job r hpending hold hwaiting =>
      hwaiting.imp_right fun hkind => h.visible hpending hkind hold.1
  refine ⟨fun key r hget hold => ?_, hsettled.waiting⟩
  rcases hsettled.stored key r hget hold with hmem | ⟨sources, hsources, hsource⟩
  · exact .inl hmem
  · rcases inlineSources_next henabled hsources with hkept | ⟨t', sources', rfl⟩
    · exact .inr ⟨sources, hkept, hsource⟩
    · exact .inl (hok t source version affected r (by simp) hfrom hget hold)

omit h in
theorem sweep_settles (t : ℕ) (source : SourceId) (version : ℕ)
    (heq : e = .sweepEntries t source version) :
    Settled (next w e) source version
      (fun key => key ∈ w.caches.dependentEntries source ∨ Visible (next w e) source key)
      (fun job => job.key ∈ w.caches.dependentEntries source ∨ job.kind ≠ .background) := by
  subst heq
  constructor
  · intro key r hget hold
    exact .inl (Caches.mem_dependentEntries.mpr ⟨r, hget, hold.1⟩)
  · intro t' job r hpending hgeneration hold
    have hkept : (w.tasks t').pending = some (job, r) := by
      simp only [next, World.goto_tasks] at hpending
      split_ifs at hpending
      · simp [Task.pending] at hpending
      · exact hpending
    by_cases hkind : job.kind = .background
    · exact .inl (hok t' job r hkept hkind hgeneration hold)
    · exact .inr hkind

theorem claims_settle (t : ℕ) (source : SourceId) (version : ℕ) (affected : List Key)
    (heq : e = .sweepClaims t source version affected) :
    Settled (next w e) source version (· ∈ affected ++ w.caches.dependentClaims source)
      (·.key ∈ affected ++ w.caches.dependentClaims source) := by
  have hfrom : w.tasks t = .sweptEntries source version affected := by
    rw [heq] at henabled
    exact henabled
  have hlisted : ∀ key, key ∈ affected ∨ Visible w source key →
      key ∈ affected ++ w.caches.dependentClaims source := by
    rintro key (hmem | hvisible)
    · exact List.mem_append_left _ hmem
    · exact List.mem_append_right _ (Caches.mem_dependentClaims.mpr hvisible)
  have hswept := h.swept t source version affected hfrom
  have hmoved : Settled w source version (· ∈ affected ++ w.caches.dependentClaims source)
      (·.key ∈ affected ++ w.caches.dependentClaims source) := by
    constructor
    · exact fun key r hget hold => hlisted key (hswept.stored key r hget hold)
    · intro t' job r hpending hgeneration hold
      refine hlisted job.key ?_
      exact (hswept.waiting t' job r hpending hgeneration hold).imp_right fun hkind =>
        h.visible hpending hkind hold.1
  exact settled_step h henabled hok (h.version t source version (by rw [hfrom]; rfl)) hmoved
    fun _ _ _ _ _ hwaiting => hwaiting

theorem bump_settles (t : ℕ) (source : SourceId) (version : ℕ) (key : Key) (todo : List Key)
    (heq : e = .bumpNext t source version key todo) :
    Settled (next w e) source version (· ∈ key :: todo) (·.key ∈ todo) := by
  have hfrom : w.tasks t = .invalidating source version (key :: todo) := by
    rw [heq] at henabled
    exact henabled
  have hsettled := settled_step h henabled hok (h.version t source version (by rw [hfrom]; rfl))
    (h.invalidating t source version (key :: todo) hfrom) fun _ _ _ _ _ hwaiting => hwaiting
  refine ⟨hsettled.stored, fun t' job r hpending hgeneration hold => ?_⟩
  rcases List.mem_cons.mp (hsettled.waiting t' job r hpending hgeneration hold) with hkey | hmem
  · have hkept : (w.tasks t').pending = some (job, r) := by
      rw [heq] at hpending
      simp only [next, World.goto_tasks] at hpending
      split_ifs at hpending
      · simp [Task.pending] at hpending
      · exact hpending
    have hle := h.generation t' job (pending_job hkept)
    have hbump : (next w e).caches.generation job.key = w.caches.generation job.key + 1 := by
      rw [heq]
      change (w.caches.bumpGeneration key).generation job.key = _
      rw [Caches.generation_bumpGeneration, if_pos hkey]
    omega
  · exact hmem

theorem remove_settles (t : ℕ) (source : SourceId) (version : ℕ) (key : Key) (todo : List Key)
    (heq : e = .removeNext t source version key todo) :
    Settled (next w e) source version (· ∈ todo) (·.key ∈ todo) := by
  have hfrom : w.tasks t = .removing source version key todo := by
    rw [heq] at henabled
    exact henabled
  have hsettled := settled_step h henabled hok (h.version t source version (by rw [hfrom]; rfl))
    (h.removing t source version key todo hfrom) fun _ _ _ _ _ hwaiting =>
      List.mem_cons_of_mem key hwaiting
  refine ⟨fun key' r hget hold => ?_, hsettled.waiting⟩
  rcases List.mem_cons.mp (hsettled.stored key' r hget hold) with hkey | hmem
  · rw [heq] at hget
    change (w.caches.processedRemove key).processedGet key' = some r at hget
    rw [Caches.processedGet_remove, if_pos hkey] at hget
    cases hget
  · exact hmem

theorem announced_step (source : SourceId) :
    Settled (next w e) source ((next w e).announced source) (fun _ => False)
      (fun _ => False) := by
  have hkept := settled_step h henabled hok (h.announcedVersion source) (h.announced source)
    fun _ _ _ _ _ hwaiting => hwaiting
  rcases announced_next (w := w) (e := e) source with heq | ⟨t, version, rfl, heq⟩
  · rw [heq]
    exact hkept
  · have hfrom : w.tasks t = .invalidating source version [] := henabled
    have hdone := settled_step h henabled hok (h.version t source version (by rw [hfrom]; rfl))
      (h.invalidating t source version [] hfrom) fun _ _ _ _ _ hwaiting => hwaiting
    rw [heq]
    rcases Nat.le_total version (w.announced source) with hle | hle
    · rw [Nat.max_eq_left hle]
      exact hkept
    · rw [Nat.max_eq_right hle]
      exact ⟨fun key r hget hold => absurd (hdone.stored key r hget hold) List.not_mem_nil,
        fun t' job r hpending hgeneration hold =>
          absurd (hdone.waiting t' job r hpending hgeneration hold) List.not_mem_nil⟩

theorem step_invariant : Invariant (next w e) where
  generation := generation_step h henabled hok
  claim := claim_step h henabled hok
  leader := leader_step h henabled hok
  reads := reads_step h henabled hok
  version := version_step h henabled hok
  announcedVersion := announcedVersion_step h henabled hok
  swept t source version affected hto := by
    rcases sweptEntries_next hto with hfrom | ⟨heq, rfl⟩
    · exact swept_step h henabled hok t source version affected hfrom
    · exact sweep_settles henabled hok t source version heq
  invalidating t source version todo hto := by
    rcases invalidating_next hto with hfrom | ⟨affected, heq, rfl⟩ | ⟨key, heq⟩
    · exact settled_step h henabled hok (h.version t source version (by rw [hfrom]; rfl))
        (h.invalidating t source version todo hfrom) fun _ _ _ _ _ hwaiting => hwaiting
    · exact claims_settle h henabled hok t source version affected heq
    · exact remove_settles h henabled hok t source version key todo heq
  removing t source version key todo hto := by
    rcases removing_next hto with hfrom | heq
    · exact settled_step h henabled hok (h.version t source version (by rw [hfrom]; rfl))
        (h.removing t source version key todo hfrom) fun _ _ _ _ _ hwaiting =>
          List.mem_cons_of_mem key hwaiting
    · exact bump_settles h henabled hok t source version key todo heq
  announced := announced_step h henabled hok

end Step

theorem reachable_invariant (h : Reachable renderCache Orderly w) : Invariant w :=
  h.invariant Invariant (by rintro _ rfl; exact init_invariant) fun _ _ => step_invariant

def KeepsNoStale (w : World) : Prop :=
  ∀ key r source, w.caches.processedGet key = some r → source ∈ r.sourceIds →
    w.announced source ≤ r.readAt source

/-- In every orderly run the cache keeps no rendering of rows older than an announced commit. -/
theorem orderly_keeps_no_stale (h : Reachable renderCache Orderly w) : KeepsNoStale w := by
  intro key r source hget hsource
  by_contra hlt
  exact ((reachable_invariant h).announced source).stored key r hget ⟨hsource, not_le.mp hlt⟩

def storedBeforeCommit : List Event :=
  let key : Key := "src:s"
  let kind : Kind := .inline ["s"]
  let job : Job := ⟨kind, key, 0⟩
  let r : Rendered := ⟨["s"], 60, fun _ => 0⟩
  [.request 0 key, .miss 0 key, .resolveSources 0 key ["s"], .beginInline 0 key ["s"],
    .readGeneration 0 kind key, .readMembers 0 job ["s"], .readRows 0 job ["s"] 60,
    .checkGeneration 0 job r, .insert 0 job r, .confirm 0 job r, .release 0 kind key,
    .commit 0 "s", .sweepEntries 0 "s" 1, .sweepClaims 0 "s" 1 [key], .bumpNext 0 "s" 1 key [],
    .removeNext 0 "s" 1 key [], .announce 0 "s" 1]

theorem orderly_keeps_no_stale_sample :
    KeepsNoStale (storedBeforeCommit.foldl renderCache.next init) := by
  refine orderly_keeps_no_stale (.execute (.init rfl) ?_)
  simp only [storedBeforeCommit, Executes, renderCache, Enabled]
  repeat' apply And.intro
  all_goals try trivial
  · simp [Orderly]
  · exact fun _ => rfl
  · intro t source version affected r _ ht
    by_cases h0 : t = 0 <;> simp [next, World.goto, h0, init] at ht
  · intro t job r ht
    by_cases h0 : t = 0 <;> simp [next, World.goto, World.releaseClaim, h0, init, Task.pending] at ht

/-- A cold render reads its rows, a commit follows, and the claim is released while the
invalidation of that commit is between its sweeps. -/
def releasedBetweenSweeps : List Event :=
  let key : Key := "src:s"
  let kind : Kind := .inline ["s"]
  let job : Job := ⟨kind, key, 0⟩
  let r : Rendered := ⟨["s"], 60, fun _ => 0⟩
  [.request 0 key, .miss 0 key, .resolveSources 0 key ["s"], .beginInline 0 key ["s"],
    .readGeneration 0 kind key, .readMembers 0 job ["s"], .readRows 0 job ["s"] 60,
    .commit 1 "s", .sweepEntries 1 "s" 1, .checkGeneration 0 job r, .insert 0 job r,
    .confirm 0 job r, .release 0 kind key, .sweepClaims 1 "s" 1 [], .announce 1 "s" 1]

/-- The entry outlives the announced commit. -/
theorem released_claim_keeps_stale : ¬∀ w, Reachable renderCache Any w → KeepsNoStale w := by
  intro h
  have hrun : Executes renderCache Any init releasedBetweenSweeps := by
    simp only [releasedBetweenSweeps, Executes, renderCache, Enabled, Any]
    repeat' apply And.intro
    all_goals trivial
  have hstale := h _ (.execute (.init rfl) hrun) "src:s" ⟨["s"], 60, fun _ => 0⟩ "s" rfl (by simp)
  exact absurd hstale (by decide)

end StaleRenderings
