import Fumox.JsonText
import Fumox.LifecycleInvariants

/-!
Selection lanes cover the active rows.  The one way out of every lane is a late tunnel failure on a
row that was moved back to `unknown` meanwhile; runs without such a step strand no row.
-/

namespace LaneCoverage

open RustText ProxyModels ProxyFingerprint JsonText ProxyStore ProbeLifecycle LifecycleSteps
  LifecycleInvariants TransitionRuns

def Probeable (scheme : Scheme) : Prop :=
  scheme ∉ t1ExcludedSchemes ∨ scheme ∈ t2Schemes

/-- The row is a T1 candidate, a T2 candidate, or scheduled on the quarantine ladder. -/
def InSomeLane (s : Store) (r : ProxyRow) : Prop :=
  t1Lane s r = true ∨ t2Lane s r = true ∨ (r.status = .quarantine ∧ r.ladderAt ≠ none)

instance (scheme : Scheme) : Decidable (Probeable scheme) :=
  inferInstanceAs (Decidable (_ ∨ _))

instance (s : Store) (r : ProxyRow) : Decidable (InSomeLane s r) :=
  inferInstanceAs (Decidable (_ ∨ _ ∨ _))

def NoStrandedRow (s : Store) : Prop :=
  ∀ r ∈ s.proxies, s.hasLink r.id = true → r.status ≠ .removed → Probeable r.scheme →
    InSomeLane s r

instance (s : Store) : Decidable (NoStrandedRow s) :=
  inferInstanceAs (Decidable (∀ r ∈ s.proxies, _))

/-- The event is not a tunnel failure that leaves the row in `unknown`, unless T2 offers rows of
its scheme from there. -/
def SparesRow (cfg : ProbeConfig) (r : ProxyRow) : Event → Prop
  | .verdict c (.failed _) _ =>
    c.lane = .t2 → r.id = c.id → r.status = .unknown → r.failCount + 1 < cfg.failLimit →
      r.scheme = .hysteria2
  | .verdict c .engineUnavailable _ =>
    r.id = c.id → r.status = .unknown → r.scheme = .hysteria2
  | _ => True

def SparesUnknownRows (cfg : ProbeConfig) (w : World) (e : Event) : Prop :=
  ∀ r ∈ w.store.proxies, SparesRow cfg r e

instance (cfg : ProbeConfig) (r : ProxyRow) (e : Event) : Decidable (SparesRow cfg r e) := by
  unfold SparesRow
  split <;> infer_instance

instance (cfg : ProbeConfig) (w : World) (e : Event) : Decidable (SparesUnknownRows cfg w e) :=
  inferInstanceAs (Decidable (∀ r ∈ w.store.proxies, _))

/-- A row that waits for its first verdict with a T2 failure on record is a T2 candidate. -/
def Waiting (scheme : Scheme) (l : Lifecycle) : Prop :=
  l.status = .unknown → l.lastT2FailedAt ≠ none → scheme = .hysteria2

variable {lib : Libraries} {cfg : ProbeConfig} {e : Event} {w : World} {r : ProxyRow}
  {l : Lifecycle}

theorem Waiting.move (h : Waiting r.scheme r.toLifecycle)
    (hspares : SparesRow cfg r e) (hmove : Move cfg e r l) : Waiting r.scheme l := by
  intro hstatus hset
  cases hmove with
  | kept => exact h hstatus hset
  | pristine | released => simp at hset
  | retired | cleaned => simp at hstatus
  | succeeded =>
    simp only [succeededSet] at hstatus
    split_ifs at hstatus
  | @failed c jitter now _ mark hid hstate hmark hlimit =>
    rcases demote_regular hstate with ⟨-, hunknown⟩ | hd
    · cases mark with
      | true => exact hspares (hmark rfl) hid hunknown hlimit
      | false => exact h hunknown (by simpa [failedSet] using hset)
    · simp [failedSet, hd] at hstatus
  | quarantined => simp [quarantineSet] at hstatus
  | @engineUnavailable c now _ hid hstate hlane =>
    rcases demote_regular hstate with ⟨-, hunknown⟩ | hd
    · exact hspares hid hunknown
    · simp [engineUnavailableSet, hd] at hstatus
  | ladderRemoved => simp [ladderRemovedSet] at hstatus
  | ladderAdvanced _ hquarantine => simp [ladderAdvancedSet, hquarantine] at hstatus

structure CoverageInvariant (w : World) : Prop where
  base : Invariant w
  waiting : ∀ r ∈ w.store.proxies, Waiting r.scheme r.toLifecycle

theorem step_preserves_coverage (h : CoverageInvariant w) (henabled : Enabled cfg w e)
    (hspares : SparesUnknownRows cfg w e) :
    CoverageInvariant ((lifecycle lib cfg).next w e) := by
  have hbase := step_preserves lib h.base henabled
  refine ⟨hbase, ?_⟩
  intro r' hr'
  obtain ⟨r, hr, hstep⟩ := (steps_nextStore lib cfg h.base.keyed e).rows r' hr'
  rw [hstep.scheme]
  rcases hr with hr | hr
  · exact (h.waiting r hr).move (hspares r hr) hstep.move
  · -- a new row has a fresh id, so no running check is about it
    have hverdict : ∀ c o now, e = .verdict c o now → r.id ≠ c.id := by
      rintro c o now rfl hid
      have hissued := h.base.issued c henabled.1
      have hfresh := hr.fresh
      omega
    have hwaiting : Waiting r.scheme r.toLifecycle := by simp [hr.pristine, Waiting]
    refine hwaiting.move ?_ hstep.move
    unfold SparesRow
    split
    · exact fun _ hid => absurd hid (hverdict _ _ _ rfl)
    · exact fun hid => absurd hid (hverdict _ _ _ rfl)
    · trivial

theorem CoverageInvariant.noStrandedRow (h : CoverageInvariant w) : NoStrandedRow w.store := by
  intro r hr hlink hactive hprobeable
  obtain ⟨htunnelled, hready, hladdered, -⟩ := h.base.rows r hr
  have hwaiting := h.waiting r hr
  have ht2 : r.scheme ∈ t2Schemes → r.status = .alive ∨ r.status = .ready → t2Lane w.store r := by
    intro hscheme hstatus
    rcases hstatus with hstatus | hstatus <;> simp [t2Lane, hstatus, hscheme, hlink]
  have hhysteria : r.scheme = .hysteria2 → r.status = .unknown → t2Lane w.store r := by
    intro hscheme hstatus
    simp [t2Lane, hstatus, hscheme, hlink, t2Schemes]
  have ht1 : r.scheme ∉ t1ExcludedSchemes → r.lastT2FailedAt = none →
      r.status = .unknown ∨ r.status = .alive → t1Lane w.store r := by
    intro hscheme hnone hstatus
    rcases hstatus with hstatus | hstatus <;> simp [t1Lane, hstatus, hscheme, hnone, hlink]
  -- a scheme that T1 excludes and some tier checks is a T2 scheme
  have hscheme : r.scheme ∈ t1ExcludedSchemes → r.scheme = .hysteria2 := by
    intro hexcluded
    rcases hprobeable with hnot | ht2scheme
    · exact absurd hexcluded hnot
    · revert hexcluded ht2scheme
      cases r.scheme <;> decide
  cases hstatus : r.status with
  | removed => exact absurd hstatus hactive
  | quarantine => exact .inr (.inr ⟨hstatus, hladdered hstatus⟩)
  | ready => exact .inr (.inl (ht2 (hready hstatus) (.inr hstatus)))
  | alive =>
    by_cases hset : r.lastT2FailedAt = none
    · by_cases hexcluded : r.scheme ∈ t1ExcludedSchemes
      · refine .inr (.inl (ht2 ?_ (.inl hstatus)))
        rw [hscheme hexcluded]
        decide
      · exact .inl (ht1 hexcluded hset (.inr hstatus))
    · exact .inr (.inl (ht2 (htunnelled hset) (.inl hstatus)))
  | unknown =>
    by_cases hset : r.lastT2FailedAt = none
    · by_cases hexcluded : r.scheme ∈ t1ExcludedSchemes
      · exact .inr (.inl (hhysteria (hscheme hexcluded) hstatus))
      · exact .inl (ht1 hexcluded hset (.inl hstatus))
    · exact .inr (.inl (hhysteria (hwaiting hstatus hset) hstatus))

theorem reachable_coverage (h : Reachable (lifecycle lib cfg) (SparesUnknownRows cfg) w) :
    CoverageInvariant w := by
  refine h.invariant CoverageInvariant ?_ fun w e hw henabled hok =>
    step_preserves_coverage hw henabled hok
  rintro w rfl
  have hinit : Reachable (lifecycle lib cfg) Any ({} : World) := .init rfl
  exact ⟨reachable_invariant hinit, by simp⟩

/-- Runs without a late tunnel failure on an `unknown` row keep every active, linked row of a
probeable scheme in some lane. -/
theorem no_stranded_row_of_spared (h : Reachable (lifecycle lib cfg) (SparesUnknownRows cfg) w) :
    NoStrandedRow w.store :=
  (reachable_coverage h).noStrandedRow

/-- The condition is exact for a linked row: a step that breaks it strands the row at once. -/
theorem unspared_step_strands (h : Invariant w) (henabled : Enabled cfg w e)
    (hr : r ∈ w.store.proxies) (hlink : w.store.hasLink r.id = true)
    (hbreaks : ¬SparesRow cfg r e) : ¬NoStrandedRow ((lifecycle lib cfg).next w e).store := by
  -- what the two kinds of tunnel failure leave behind
  have hstrand : ∀ (c : Check) (r' : ProxyRow) (s' : Store), c ∈ w.inFlight → c.lane.Tunnel →
      r.id = c.id → r.scheme ≠ .hysteria2 → r' ∈ s'.proxies → s'.links = w.store.links →
      r'.id = r.id → r'.scheme = r.scheme → r'.status = .unknown → r'.lastT2FailedAt ≠ none →
      ¬NoStrandedRow s' := by
    intro c r' s' hc hlane hid hscheme hr' hlinks hid' hscheme' hstatus hset hnone
    have htunnel := h.tunnels c hc hlane r hr hid
    have hlink' : s'.hasLink r'.id = true := by
      unfold Store.hasLink
      rw [hlinks, hid']
      exact hlink
    have hlanes := hnone r' hr' hlink' (by simp [hstatus]) (.inr (hscheme' ▸ htunnel))
    rcases hlanes with ht1 | ht2 | ⟨hquarantine, -⟩
    · simp [t1Lane, hset] at ht1
    · simp [t2Lane, hstatus, hscheme', hscheme] at ht2
    · simp [hstatus] at hquarantine
  have hupdated : ∀ (guard : ProxyRow → Bool) (set : ProxyRow → ProxyRow), guard r = true →
      set r ∈ (w.store.updateProxies guard set).proxies := by
    intro guard set hguard
    exact RowTable.mem_updateWhere.mpr ⟨r, hr, by simp [hguard]⟩
  have hnext : ((lifecycle lib cfg).next w e).store = nextStore lib cfg w.store e := rfl
  unfold SparesRow at hbreaks
  split at hbreaks
  next c jitter now =>
    push Not at hbreaks
    obtain ⟨hlane, hid, hunknown, hlimit, hscheme⟩ := hbreaks
    have hregular : regularState r = true := by simp [regularState, hunknown]
    have hstore : nextStore lib cfg w.store (.verdict c (.failed jitter) now) =
        w.store.updateProxies (fun x => x.id == r.id && regularState x)
          (failedSet now (r.failCount + 1) true) := by
      simp [nextStore, applyVerdict, hlane, checkFailed, ← hid, h.keyed.find_eq hr hregular,
        not_le.mpr hlimit]
    rw [hnext, hstore]
    refine hstrand c (failedSet now (r.failCount + 1) true r) _ henabled.1 (.inl hlane) hid hscheme
      (hupdated _ _ ?_) rfl rfl rfl ?_ ?_
    · simp [hregular]
    · simp [failedSet, demote, hunknown]
    · simp [failedSet]
  next c now =>
    push Not at hbreaks
    obtain ⟨hid, hunknown, hscheme⟩ := hbreaks
    have hregular : regularState r = true := by simp [regularState, hunknown]
    have hstore : nextStore lib cfg w.store (.verdict c .engineUnavailable now) =
        w.store.updateProxies (fun x => x.id == r.id && regularState x)
          (engineUnavailableSet now) := by
      rcases henabled.2 with hlane | hlane <;>
        simp [nextStore, applyVerdict, hlane, checkEngineUnavailable, ← hid]
    rw [hnext, hstore]
    refine hstrand c (engineUnavailableSet now r) _ henabled.1 henabled.2 hid hscheme
      (hupdated _ _ ?_) rfl rfl rfl ?_ ?_
    · simp [hregular]
    · simp [engineUnavailableSet, demote, hunknown]
    · simp [engineUnavailableSet]
  next => exact absurd trivial hbreaks

section Counterexample

def sampleLibraries : Libraries := ⟨sampleDigest, stringCodec⟩

def defaultConfig : ProbeConfig := ⟨2, 86400, 86400, [900, 1800, 3600]⟩

def ingestedAndDrawn : List Event :=
  [.reconcileSource "feed" [sampleEntry "node" "example.com" [⟨"sni", "a", true⟩]] [] 1000 true,
    .selectT1 [1],
    .verdict ⟨1, .t1, 0⟩ (.succeeded (some 20) true) 1001,
    .selectT2 [1]]

def timelyFailure : List Event :=
  ingestedAndDrawn ++ [.verdict ⟨1, .t2, 0⟩ (.failed 0) 1003]

theorem no_stranded_row_sample :
    NoStrandedRow (timelyFailure.foldl (lifecycle sampleLibraries defaultConfig).next {}).store :=
  no_stranded_row_of_spared (.execute (.init rfl) (by decide +kernel))

def lateFailure : List Event :=
  ingestedAndDrawn ++ [.resetStatus 1 1002, .verdict ⟨1, .t2, 0⟩ (.failed 0) 1003]

theorem stranded_row_reachable :
    ¬∀ (lib : Libraries) (cfg : ProbeConfig) (w : World),
      Reachable (lifecycle lib cfg) Any w → NoStrandedRow w.store := by
  intro h
  have hrun : Executes (lifecycle sampleLibraries defaultConfig) Any {} lateFailure := by
    decide +kernel
  have hstranded : ¬NoStrandedRow
      (lateFailure.foldl (lifecycle sampleLibraries defaultConfig).next {}).store := by
    decide +kernel
  exact hstranded (h _ _ _ (Reachable.execute (.init rfl) hrun))

end Counterexample

end LaneCoverage
