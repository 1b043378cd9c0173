import Fumox.RenderCache

/-!
What one step of the render cache can do to entries, generations, claims and tasks.
-/

namespace RenderCache

open RustText TransitionRuns

namespace Caches

variable {c : Caches} {key key' : Key} {r r' : Rendered} {source : SourceId}

theorem generation_bumpGeneration :
    (c.bumpGeneration key).generation key' = c.generation key' + if key' = key then 1 else 0 := by
  unfold generation bumpGeneration
  by_cases h : key' = key
  · subst h
    rw [AList.lookup_insert, if_pos rfl]
    rfl
  · rw [AList.lookup_insert_ne h, if_neg h]
    rfl

theorem generation_le_bump : c.generation key' ≤ (c.bumpGeneration key).generation key' := by
  rw [generation_bumpGeneration]
  omega

theorem processedGet_put :
    (c.processedPut key r).processedGet key' = if key' = key then some r else c.processedGet key' := by
  unfold processedGet processedPut
  split_ifs with h
  · subst h
    exact AList.lookup_insert _
  · exact AList.lookup_insert_ne h

theorem processedGet_remove : (c.processedRemove key).processedGet key' =
    if key' = key then none else c.processedGet key' := by
  unfold processedGet processedRemove
  split_ifs with h
  · subst h
    exact AList.lookup_erase _ _
  · exact AList.lookup_erase_ne h

theorem mem_dependentEntries :
    key ∈ c.dependentEntries source ↔ ∃ r, c.processedGet key = some r ∧ source ∈ r.sourceIds := by
  simp only [dependentEntries, List.mem_map, List.mem_filter, List.contains_iff_mem, processedGet]
  constructor
  · rintro ⟨⟨key', r⟩, ⟨hmem, hsource⟩, rfl⟩
    exact ⟨r, AList.mem_lookup_iff.mpr hmem, hsource⟩
  · rintro ⟨r, hr, hsource⟩
    exact ⟨⟨key, r⟩, ⟨AList.mem_lookup_iff.mp hr, hsource⟩, rfl⟩

theorem mem_dependentClaims : key ∈ c.dependentClaims source ↔
    ∃ sources, c.inlineSources key = some sources ∧ source ∈ sources := by
  simp only [dependentClaims, List.mem_map, List.mem_filter, List.contains_iff_mem, inlineSources]
  constructor
  · rintro ⟨⟨key', sources⟩, ⟨hmem, hsource⟩, rfl⟩
    exact ⟨sources, AList.mem_lookup_iff.mpr hmem, hsource⟩
  · rintro ⟨sources, hr, hsource⟩
    exact ⟨⟨key, sources⟩, ⟨AList.mem_lookup_iff.mp hr, hsource⟩, rfl⟩

end Caches

/-- The invalidation that a task carries out. -/
def Task.invalidation : Task → Option (SourceId × ℕ)
  | committed source version | sweptEntries source version _ | invalidating source version _
  | removing source version _ _ => some (source, version)
  | _ => none

/-- The steps that keep the cache from storing what an announced commit has superseded. -/
def Orderly (w : World) : Event → Prop
  -- an inline claim names every source that its render reads
  | .readRows _ job sourceIds _ => ∀ sources, job.kind = .inline sources → sourceIds ⊆ sources
  -- no invalidation falls between the check and the insert of an outdated rendering
  | .insert _ job r => (∃ source, r.Predates source (w.rows source)) →
      w.caches.generation job.key = job.generation
  -- no outdated entry loses its inline claim between the two sweeps
  | .release _ kind key => ∀ t source version affected r, kind ≠ .background →
      w.tasks t = .sweptEntries source version affected → w.caches.processedGet key = some r →
        r.Predates source version → key ∈ affected
  -- an outdated revalidation has an entry for the first sweep to find
  | .sweepEntries _ source version => ∀ t job r, (w.tasks t).pending = some (job, r) →
      job.kind = .background → w.caches.generation job.key = job.generation →
        r.Predates source version → job.key ∈ w.caches.dependentEntries source
  -- no generation is forgotten under a render
  | .evictGeneration key => ∀ t job, (w.tasks t).job = some job → job.key ≠ key
  | _ => True

/-- What a step may do. -/
structure Effect (w w' : World) : Prop where
  rows : ∀ source, w.rows source ≤ w'.rows source
  generation : ∀ t job, (w.tasks t).job = some job →
    w.caches.generation job.key ≤ w'.caches.generation job.key
  stored : ∀ key r, w'.caches.processedGet key = some r → w.caches.processedGet key = some r ∨
    ∃ t job, (w.tasks t).pending = some (job, r) ∧ job.key = key ∧
      ((∃ source, r.Predates source (w.rows source)) →
        w.caches.generation job.key = job.generation)
  job : ∀ t job, (w'.tasks t).job = some job →
    (w.tasks t).job = some job ∨ job.generation ≤ w'.caches.generation job.key
  pending : ∀ t job r, (w'.tasks t).pending = some (job, r) →
    (w.tasks t).pending = some (job, r) ∨
      (r.readAt = w.rows ∧ ∀ sources, job.kind = .inline sources → r.sourceIds ⊆ sources)
  invalidation : ∀ t source version, (w'.tasks t).invalidation = some (source, version) →
    (w.tasks t).invalidation = some (source, version) ∨ version = w'.rows source

/-- What a step may do to the task that takes it. -/
structure Goes (w w' : World) (t : ℕ) (task : Task) : Prop where
  job : ∀ job, task.job = some job →
    (w.tasks t).job = some job ∨ job.generation ≤ w'.caches.generation job.key
  pending : ∀ job r, task.pending = some (job, r) → (w.tasks t).pending = some (job, r) ∨
    (r.readAt = w.rows ∧ ∀ sources, job.kind = .inline sources → r.sourceIds ⊆ sources)
  invalidation : ∀ source version, task.invalidation = some (source, version) →
    (w.tasks t).invalidation = some (source, version) ∨ version = w'.rows source

variable {w w' : World} {t : ℕ} {task : Task} {e : Event}

theorem World.goto_tasks (t' : ℕ) :
    (w.goto t task).tasks t' = if t' = t then task else w.tasks t' :=
  Function.update_apply _ _ _ _

theorem Effect.of_shared (htasks : w'.tasks = w.tasks)
    (hrows : ∀ source, w.rows source ≤ w'.rows source)
    (hgeneration : ∀ t job, (w.tasks t).job = some job →
      w.caches.generation job.key ≤ w'.caches.generation job.key)
    (hstored : ∀ key r, w'.caches.processedGet key = some r →
      w.caches.processedGet key = some r) : Effect w w' where
  rows := hrows
  generation := hgeneration
  stored key r h := .inl (hstored key r h)
  job t job h := .inl (by rwa [htasks] at h)
  pending t job r h := .inl (by rwa [htasks] at h)
  invalidation t source version h := .inl (by rwa [htasks] at h)

theorem Effect.goto (h : Effect w w') (htask : Goes w w' t task) : Effect w (w'.goto t task) where
  rows := h.rows
  generation := h.generation
  stored := h.stored
  job t' job hjob := by
    rw [World.goto_tasks] at hjob
    split_ifs at hjob with heq
    · exact heq ▸ htask.job job hjob
    · exact h.job t' job hjob
  pending t' job r hpending := by
    rw [World.goto_tasks] at hpending
    split_ifs at hpending with heq
    · exact heq ▸ htask.pending job r hpending
    · exact h.pending t' job r hpending
  invalidation t' source version hinv := by
    rw [World.goto_tasks] at hinv
    split_ifs at hinv with heq
    · exact heq ▸ htask.invalidation source version hinv
    · exact h.invalidation t' source version hinv

theorem Effect.refl (w : World) : Effect w w :=
  .of_shared rfl (fun _ => le_rfl) (fun _ _ _ => le_rfl) fun _ _ h => h

theorem Effect.bumped (w : World) (key : Key) :
    Effect w { w with caches := w.caches.bumpGeneration key } :=
  .of_shared rfl (fun _ => le_rfl) (fun _ _ _ => Caches.generation_le_bump) fun _ _ h => h

theorem Effect.removed (w : World) (key : Key) :
    Effect w { w with caches := w.caches.processedRemove key } := by
  refine .of_shared rfl (fun _ => le_rfl) (fun _ _ _ => le_rfl) fun key' r h => ?_
  rw [Caches.processedGet_remove] at h
  split_ifs at h
  exact h

theorem Effect.shared {c : Caches} (hgenerations : c.generations = w.caches.generations)
    (hprocessed : c.processed = w.caches.processed) : Effect w { w with caches := c } := by
  refine .of_shared rfl (fun _ => le_rfl) (fun t job _ => ?_) fun key r h => ?_
  · rw [Caches.generation, ← hgenerations]
    rfl
  · rwa [Caches.processedGet, ← hprocessed]

theorem effect_next (henabled : Enabled w e) (hok : Orderly w e) : Effect w (next w e) := by
  cases e with
  | request t key | serveFresh t key now | findStale t key now | miss t key
  | skipRevalidate t key | resolveSources t key sources | wait t key sources
  | retry t key sources | answerWaiter t key sources =>
    refine (Effect.refl w).goto ?_
    constructor <;> simp [Task.job, Task.pending, Task.invalidation]
  | startRevalidate t key =>
    have hclaimed : Effect w { w with caches.revalidating := key :: w.caches.revalidating } :=
      .shared rfl rfl
    refine hclaimed.goto ?_
    constructor <;> simp [Task.job, Task.pending, Task.invalidation]
  | beginInline t key sources =>
    have hclaimed : Effect w
        { w with caches.inlineRendering := w.caches.inlineRendering.insert key sources } :=
      .shared rfl rfl
    refine hclaimed.goto ?_
    constructor <;> simp [Task.job, Task.pending, Task.invalidation]
  | readGeneration t kind key =>
    have hfrom : w.tasks t = .claimed kind key := henabled
    refine (Effect.refl w).goto ?_
    constructor <;> simp +contextual [Task.job, Task.pending, Task.invalidation, hfrom]
  | readMembers t job sourceIds =>
    have hfrom : w.tasks t = .rendering job := henabled
    refine (Effect.refl w).goto ?_
    constructor <;> simp +contextual [Task.job, Task.pending, Task.invalidation, hfrom]
  | readRows t job sourceIds freshUntil =>
    have hfrom : w.tasks t = .fetching job sourceIds := henabled
    refine (Effect.refl w).goto ?_
    constructor <;> simp +contextual [Task.job, Task.pending, Task.invalidation, hfrom]
    exact hok
  | dropSnapshot t job =>
    refine (Effect.refl w).goto ?_
    obtain ⟨-, h | ⟨ids, h⟩⟩ := henabled <;>
      constructor <;>
        simp +contextual [Task.job, Task.pending, Task.invalidation, h]
  | abandon t kind key =>
    refine (Effect.refl w).goto ?_
    constructor <;> simp [Task.job, Task.pending, Task.invalidation]
  | checkGeneration t job r | refuse t job r | confirm t job r | supersede t job r =>
    have hfrom := henabled.1
    refine (Effect.refl w).goto ?_
    constructor <;> simp +contextual [Task.job, Task.pending, Task.invalidation, hfrom]
  | insert t job r =>
    have hfrom : w.tasks t = .checked job r := henabled
    have hstored : Effect w { w with caches := w.caches.processedPut job.key r } := by
      refine { Effect.refl w with stored := fun key r' h => ?_ }
      rw [Caches.processedGet_put] at h
      split_ifs at h with heq
      · obtain rfl := Option.some.inj h
        exact .inr ⟨t, job, by rw [hfrom]; rfl, heq.symm, hok⟩
      · exact .inl h
    refine hstored.goto ?_
    constructor <;> simp +contextual [Task.job, Task.pending, Task.invalidation, hfrom]
  | bump t kind key =>
    have hfrom : w.tasks t = .superseded kind key := henabled
    refine (Effect.bumped w key).goto ?_
    constructor <;> simp +contextual [Task.job, Task.pending, Task.invalidation, hfrom]
  | remove t kind key =>
    have hfrom : w.tasks t = .bumped kind key := henabled
    refine (Effect.removed w key).goto ?_
    constructor <;> simp +contextual [Task.job, Task.pending, Task.invalidation, hfrom]
  | release t kind key =>
    have hreleased : Effect w (w.releaseClaim key kind) := by
      cases kind <;> exact Effect.shared rfl rfl
    refine hreleased.goto ?_
    constructor <;> simp [Task.job, Task.pending, Task.invalidation]
  | commit t source =>
    have hrows : Effect w
        { w with rows := Function.update w.rows source (w.rows source + 1) } := by
      refine .of_shared rfl (fun source' => ?_) (fun _ _ _ => le_rfl) fun _ _ h => h
      by_cases heq : source' = source
      · subst heq
        simp
      · simp [heq]
    refine hrows.goto ?_
    constructor <;> simp [Task.job, Task.pending, Task.invalidation]
  | sweepEntries t source version =>
    have hfrom : w.tasks t = .committed source version := henabled
    refine (Effect.refl w).goto ?_
    constructor <;> simp +contextual [Task.job, Task.pending, Task.invalidation, hfrom]
  | sweepClaims t source version affected =>
    have hfrom : w.tasks t = .sweptEntries source version affected := henabled
    refine (Effect.refl w).goto ?_
    constructor <;> simp +contextual [Task.job, Task.pending, Task.invalidation, hfrom]
  | bumpNext t source version key todo =>
    have hfrom : w.tasks t = .invalidating source version (key :: todo) := henabled
    refine (Effect.bumped w key).goto ?_
    constructor <;> simp +contextual [Task.job, Task.pending, Task.invalidation, hfrom]
  | removeNext t source version key todo =>
    have hfrom : w.tasks t = .removing source version key todo := henabled
    refine (Effect.removed w key).goto ?_
    constructor <;> simp +contextual [Task.job, Task.pending, Task.invalidation, hfrom]
  | announce t source version =>
    have hannounced : Effect w { w with
        announced := Function.update w.announced source (max (w.announced source) version) } :=
      .of_shared rfl (fun _ => le_rfl) (fun _ _ _ => le_rfl) fun _ _ h => h
    refine hannounced.goto ?_
    constructor <;> simp [Task.job, Task.pending, Task.invalidation]
  | bumpProfile key => exact Effect.bumped w key
  | evict key => exact Effect.removed w key
  | evictGeneration key =>
    refine .of_shared rfl (fun _ => le_rfl) (fun t job hjob => ?_) fun _ _ h => h
    simp only [Caches.generation, next]
    rw [AList.lookup_erase_ne (hok t job hjob)]

@[simp] theorem World.releaseClaim_tasks (key : Key) (kind : Kind) :
    (w.releaseClaim key kind).tasks = w.tasks := by
  cases kind <;> rfl

theorem claim_next (henabled : Enabled w e) {key : Key} {sources : List SourceId}
    (h : ((next w e).tasks t).claim = some (.inline sources, key)) :
    (w.tasks t).claim = some (.inline sources, key) ∨ e = .beginInline t key sources := by
  cases e with
  | bumpProfile | evict | evictGeneration => exact .inl h
  | dropSnapshot t' job =>
    simp only [next, World.goto_tasks] at h
    split_ifs at h with heq
    · simp [Task.claim, henabled.1] at h
    · exact .inl h
  | _ =>
    simp only [next, World.goto_tasks, World.releaseClaim_tasks] at h
    split_ifs at h <;> grind [Task.claim, Enabled]

theorem sweptEntries_next {source : SourceId} {version : ℕ} {affected : List Key}
    (h : (next w e).tasks t = .sweptEntries source version affected) :
    w.tasks t = .sweptEntries source version affected ∨
      (e = .sweepEntries t source version ∧ affected = w.caches.dependentEntries source) := by
  cases e with
  | bumpProfile | evict | evictGeneration => exact .inl h
  | _ =>
    simp only [next, World.goto_tasks, World.releaseClaim_tasks] at h
    split_ifs at h <;> grind

theorem invalidating_next {source : SourceId} {version : ℕ} {todo : List Key}
    (h : (next w e).tasks t = .invalidating source version todo) :
    w.tasks t = .invalidating source version todo ∨
      (∃ affected, e = .sweepClaims t source version affected ∧
        todo = affected ++ w.caches.dependentClaims source) ∨
      ∃ key, e = .removeNext t source version key todo := by
  cases e with
  | bumpProfile | evict | evictGeneration => exact .inl h
  | sweepClaims t' source' version' affected =>
    simp only [next, World.goto_tasks] at h
    split_ifs at h with heq
    · obtain ⟨rfl, rfl, rfl⟩ := Task.invalidating.inj h
      exact .inr (.inl ⟨affected, by rw [heq], rfl⟩)
    · exact .inl h
  | removeNext t' source' version' key todo' =>
    simp only [next, World.goto_tasks] at h
    split_ifs at h with heq
    · obtain ⟨rfl, rfl, rfl⟩ := Task.invalidating.inj h
      exact .inr (.inr ⟨key, by rw [heq]⟩)
    · exact .inl h
  | _ =>
    simp only [next, World.goto_tasks, World.releaseClaim_tasks] at h
    split_ifs at h
    exact .inl h

theorem removing_next {source : SourceId} {version : ℕ} {key : Key} {todo : List Key}
    (h : (next w e).tasks t = .removing source version key todo) :
    w.tasks t = .removing source version key todo ∨
      e = .bumpNext t source version key todo := by
  cases e with
  | bumpProfile | evict | evictGeneration => exact .inl h
  | _ =>
    simp only [next, World.goto_tasks, World.releaseClaim_tasks] at h
    split_ifs at h <;> grind

theorem announced_next (source : SourceId) :
    (next w e).announced source = w.announced source ∨
      ∃ t version, e = .announce t source version ∧
        (next w e).announced source = max (w.announced source) version := by
  cases e with
  | announce t source' version =>
    by_cases h : source = source'
    · subst h
      exact .inr ⟨t, version, rfl, Function.update_self _ _ _⟩
    · exact .inl (Function.update_of_ne h _ _)
  | release t kind key => cases kind <;> exact .inl rfl
  | _ => exact .inl rfl

/-- An inline claim stays in the map until its release. -/
theorem inlineSources_next (henabled : Enabled w e) {key : Key} {sources : List SourceId}
    (h : w.caches.inlineSources key = some sources) :
    (next w e).caches.inlineSources key = some sources ∨
      ∃ t sources', e = .release t (.inline sources') key := by
  cases e with
  | beginInline t key' sources' =>
    have hne : key ≠ key' := by
      rintro rfl
      rw [henabled.2] at h
      cases h
    exact .inl ((AList.lookup_insert_ne hne).trans h)
  | release t kind key' =>
    cases kind with
    | background => exact .inl h
    | inline sources' =>
      by_cases hkey : key = key'
      · exact .inr ⟨t, sources', by rw [hkey]⟩
      · exact .inl ((AList.lookup_erase_ne hkey).trans h)
  | _ => exact .inl h

end RenderCache
