import Fumox.CycleCharges

/-!
Two consecutive cycles and the rows that the first one selects for a tunnel check.  The random
sample of each cycle takes rows out of that selection, and in a small pool it may take the same
ones twice; the selection is served exactly when the sample of one cycle leaves some row of it.
-/

namespace TunnelStarvation

open RustText ProxyModels RowTable ProxyStore ProbeLifecycle ProbeCycle CycleCharges

def visited (cfg : CycleConfig) (s : Store) (steps : List CycleStep) : List Store :=
  steps.scanl (applyStep cfg) s

/-- A tunnel check of the row was journaled between two stores. -/
def Journaled (s s' : Store) (id : ℕ) : Prop :=
  ∃ x ∈ s'.results.drop s.results.length, x.proxyId = id ∧ x.probeKind = t2Kind

instance (s s' : Store) (id : ℕ) : Decidable (Journaled s s' id) :=
  inferInstanceAs (Decidable (∃ x ∈ _, _))

structure CyclePair where
  first : Cycle
  second : Cycle

namespace CyclePair

variable (json : JsonValue.SerdeJson) (cfg : CycleConfig) (s : Store) (p : CyclePair)

def between : Store := p.first.afterTunnels cfg s

def final : Store := p.second.afterTunnels cfg (p.between cfg s)

def steps : List CycleStep :=
  p.first.steps cfg s ++ p.second.steps cfg (p.between cfg s)

/-- Both cycles are executions in which the tunnel engine is not in backoff. -/
structure Follows : Prop where
  first : p.first.Follows json cfg s
  second : p.second.Follows json cfg (p.between cfg s)
  firstEngine : p.first.tunnelBackoff = false
  secondEngine : p.second.tunnelBackoff = false

/-- The rows selected by the first cycle keep their status all along. -/
def KeepsStatus : Prop :=
  ∀ b ∈ p.first.tunnelSelection cfg s, ∀ t ∈ visited cfg s (p.steps cfg s),
    (rowAt b.id t).map (·.status) = some b.status

instance : Decidable (p.KeepsStatus cfg s) :=
  inferInstanceAs (Decidable (∀ b ∈ _, _))

/-- Some selected row gets a tunnel check in one of the two cycles. -/
def Served : Prop :=
  ∃ b ∈ p.first.tunnelSelection cfg s, Journaled s (p.final cfg s) b.id

instance : Decidable (p.Served cfg s) :=
  inferInstanceAs (Decidable (∃ b ∈ _, _))

/-- In one of the cycles, the sample leaves out a selected row that the cycle's own selection
offers. -/
def Spared : Prop :=
  ∃ b ∈ p.first.tunnelSelection cfg s,
    b.id ∉ (p.first.sampledRows cfg s).map (·.id) ∨
      b.id ∈ (p.second.tunnelSelection cfg (p.between cfg s)).map (·.id) ∧
        b.id ∉ (p.second.sampledRows cfg (p.between cfg s)).map (·.id)

end CyclePair

section Journal

variable {cfg : CycleConfig} {s : Store} {id : ℕ} {j : Judgement}

def resultOf (j : Judgement) : ProbeResult :=
  ⟨j.check.id, j.now, j.finding.isUp, j.kind⟩

theorem results_judge (hrow : ∃ r ∈ s.proxies, r.id = j.check.id) :
    (judge cfg s j).results = s.results ++ [resultOf j] := by
  obtain ⟨guard, set, heq, -⟩ := @applyVerdict_update cfg (journaled s j) j.check
    (outcome (journaled s j) j) j.now
  have hany : s.proxies.any (fun r => r.id == j.check.id) = true := by simpa using hrow
  have hjournaled : (journaled s j).results = s.results ++ [resultOf j] := by
    unfold journaled insertResult
    rw [if_pos hany]
    rfl
  rw [judge_eq, heq]
  exact hjournaled

theorem ids_judge : (judge cfg s j).proxies.map (·.id) = s.proxies.map (·.id) := by
  obtain ⟨guard, set, heq, hset⟩ := @applyVerdict_update cfg (journaled s j) j.check
    (outcome (journaled s j) j) j.now
  rw [judge_eq, heq, Store.proxies_updateProxies, map_updateWhere fun r => (hset r).1,
    proxies_journaled]

theorem ids_applyStep (step : CycleStep) :
    (applyStep cfg s step).proxies.map (·.id) = s.proxies.map (·.id) := by
  cases step with
  | judge j => exact ids_judge
  | claim ids => rfl

def judgements (steps : List CycleStep) : List Judgement :=
  steps.filterMap fun
    | .judge j => some j
    | .claim _ => none

theorem judgements_append (a b : List CycleStep) :
    judgements (a ++ b) = judgements a ++ judgements b :=
  List.filterMap_append

theorem judgements_map (log : List Judgement) : judgements (log.map .judge) = log := by
  simp [judgements, List.filterMap_map]

theorem results_runSteps (steps : List CycleStep)
    (hstored : ∀ j ∈ judgements steps, j.check.id ∈ s.proxies.map (·.id)) :
    (runSteps cfg s steps).results = s.results ++ (judgements steps).map resultOf := by
  induction steps generalizing s with
  | nil => simp [runSteps, judgements]
  | cons step steps ih =>
    have hrest := @ih (applyStep cfg s step) fun j hj => by
      rw [ids_applyStep]
      refine hstored j ?_
      cases step with
      | judge i => exact List.mem_cons_of_mem i hj
      | claim ids => exact hj
    have hrun : runSteps cfg s (step :: steps) = runSteps cfg (applyStep cfg s step) steps := rfl
    rw [hrun, hrest]
    cases step with
    | judge i =>
      have hrow : ∃ r ∈ s.proxies, r.id = i.check.id :=
        List.mem_map.mp (hstored i List.mem_cons_self)
      have hcons : judgements (.judge i :: steps) = i :: judgements steps := rfl
      rw [applyStep, results_judge hrow, hcons]
      simp
    | claim ids => rfl

end Journal

section OneCycle

variable {json : JsonValue.SerdeJson} {cfg : CycleConfig} {s : Store} {c : Cycle} {id : ℕ}

theorem ids_runSteps (steps : List CycleStep) :
    (runSteps cfg s steps).proxies.map (·.id) = s.proxies.map (·.id) := by
  induction steps generalizing s with
  | nil => rfl
  | cons step steps ih => exact (@ih (applyStep cfg s step)).trans (ids_applyStep step)

theorem judgements_steps : judgements (c.steps cfg s) =
    c.revivals ++ (c.rechecks ++ (c.queued ++ (c.sampled ++ c.tunnels))) := by
  have hclaim : ∀ ids rest, judgements (.claim ids :: rest) = judgements rest := fun _ _ => rfl
  simp only [Cycle.steps, judgements_append, judgements_map, hclaim]

theorem stored_of_offers {eligible : ProxyRow → Prop} {rows : List ProxyRow} {lane : Lane}
    {kind : ProxyRow → Text} {log : List Judgement} {s' : Store}
    (hids : s'.proxies.map (·.id) = s.proxies.map (·.id)) (ho : Offers s' eligible rows)
    (h : Judges cfg lane kind rows log) {j : Judgement} (hj : j ∈ log) :
    j.check.id ∈ s.proxies.map (·.id) := by
  obtain ⟨r, hr, hcheck, -⟩ := exists_row h hj
  rw [hcheck, ← hids]
  exact List.mem_map_of_mem (ho.stored r hr)

theorem results_afterTunnels (hkeys : Keys s) (h : c.Follows json cfg s) :
    (c.afterTunnels cfg s).results =
      s.results ++ (judgements (c.steps cfg s)).map resultOf := by
  have ho := cycleOffers hkeys h
  have hrevivals : (c.afterRevivals cfg s).proxies.map (·.id) = s.proxies.map (·.id) :=
    ids_runSteps _
  have hclaim : (c.afterClaim cfg s).proxies.map (·.id) = s.proxies.map (·.id) :=
    (ids_runSteps (c.rechecks.map .judge)).trans hrevivals
  have hqueued : (c.afterQueued cfg s).proxies.map (·.id) = s.proxies.map (·.id) :=
    (ids_runSteps (c.queued.map .judge)).trans hclaim
  have hsample : (c.afterSample cfg s).proxies.map (·.id) = s.proxies.map (·.id) :=
    (ids_runSteps (c.sampled.map .judge)).trans hqueued
  rw [← c.runSteps_steps cfg s]
  apply results_runSteps
  intro j hj
  simp only [judgements_steps, List.mem_append] at hj
  rcases hj with hj | hj | hj | hj | hj
  · exact stored_of_offers rfl ho.revivals h.revivals hj
  · exact stored_of_offers hrevivals ho.rechecks h.rechecks hj
  · exact stored_of_offers hclaim ho.queued h.queued hj
  · exact stored_of_offers hqueued ho.sampled h.sampled hj
  · exact stored_of_offers hsample ho.tunnels h.tunnels hj

theorem asStr_ne_t2Kind (kind : CheckKind) : kind.asStr ≠ t2Kind := by
  cases kind <;> decide

theorem not_tunnel_kind {rows : List ProxyRow} {lane : Lane} {log : List Judgement}
    (h : Judges cfg lane (fun r => (checkKind json r).asStr) rows log) {j : Judgement}
    (hj : j ∈ log) : j.kind ≠ t2Kind := by
  obtain ⟨r, -, -, hkind⟩ := exists_row h hj
  rw [hkind]
  exact asStr_ne_t2Kind _

/-- For a row that is not in quarantine, the tunnel lane is the only one that journals a tunnel
check. -/
theorem tunnel_check_iff (hkeys : Keys s) (h : c.Follows json cfg s) {r : ProxyRow}
    (hrow : rowAt id s = some r) (hstatus : r.status ≠ .quarantine) :
    (∃ j ∈ judgements (c.steps cfg s), j.check.id = id ∧ j.kind = t2Kind) ↔
      ∃ x ∈ tunnelRows cfg s c, x.id = id := by
  constructor
  · rintro ⟨j, hj, rfl, hkind⟩
    simp only [judgements_steps, List.mem_append] at hj
    rcases hj with hj | hj | hj | hj | hj
    · -- the revival lane selects quarantined rows
      obtain ⟨x, hx, hcheck, -⟩ := exists_row h.revivals hj
      have ho := (cycleOffers hkeys h).revivals
      have hx' := (rowAt_eq_some hkeys.proxies).mpr ⟨ho.stored x hx, rfl⟩
      rw [hcheck] at hrow
      have hsame : x = r := Option.some.inj (hx'.symm.trans hrow)
      have hdue := ho.eligible x hx
      simp only [dueQuarantineT2Lane, ladderDue, Bool.and_eq_true, beq_iff_eq] at hdue
      exact absurd (hsame ▸ hdue.1.1) hstatus
    · exact absurd hkind (not_tunnel_kind h.rechecks hj)
    · exact absurd hkind (not_tunnel_kind h.queued hj)
    · exact absurd hkind (not_tunnel_kind h.sampled hj)
    · obtain ⟨x, hx, hcheck, -⟩ := exists_row h.tunnels hj
      exact ⟨x, hx, by rw [hcheck]⟩
  · rintro ⟨x, hx, rfl⟩
    obtain ⟨j, hj, hcheck, hkind⟩ := exists_judgement h.tunnels hx
    refine ⟨j, ?_, by rw [hcheck], hkind⟩
    simp only [judgements_steps, List.mem_append]
    exact .inr (.inr (.inr (.inr hj)))

theorem tunnelRows_iff (hengine : c.tunnelBackoff = false) :
    (∃ x ∈ tunnelRows cfg s c, x.id = id) ↔
      id ∈ (c.tunnelSelection cfg s).map (·.id) ∧ id ∉ (c.sampledRows cfg s).map (·.id) := by
  constructor
  · rintro ⟨x, hx, rfl⟩
    obtain ⟨-, hselected, hspared, -⟩ := mem_tunnelRows.mp hx
    exact ⟨List.mem_map_of_mem hselected, hspared⟩
  · rintro ⟨hselected, hspared⟩
    obtain ⟨x, hx, rfl⟩ := List.mem_map.mp hselected
    have hlane := (mem_selectT2Candidates hx).2
    simp only [t2Lane, Bool.and_eq_true] at hlane
    exact ⟨x, mem_tunnelRows.mpr ⟨hengine, hx, hspared, hlane.1.2⟩, rfl⟩

end OneCycle

section TwoCycles

variable {json : JsonValue.SerdeJson} {cfg : CycleConfig} {s : Store} {p : CyclePair}

theorem keys_runSteps (hkeys : Keys s) (steps : List CycleStep) : Keys (runSteps cfg s steps) := by
  induction steps generalizing s with
  | nil => exact hkeys
  | cons step steps ih =>
    cases step with
    | judge j => exact ih (keys_judge hkeys j)
    | claim ids => exact ih (keys_claimChecks hkeys ids)

theorem mem_visited_append (a b : List CycleStep) : runSteps cfg s a ∈ visited cfg s (a ++ b) := by
  induction a generalizing s with
  | nil => cases b <;> simp [runSteps, visited]
  | cons step a ih =>
    rw [visited, List.cons_append, List.scanl_cons]
    exact List.mem_cons_of_mem s (@ih (applyStep cfg s step))

theorem journaled_final_iff (hkeys : Keys s) (h : p.Follows json cfg s) (id : ℕ) :
    Journaled s (p.final cfg s) id ↔
      (∃ j ∈ judgements (p.first.steps cfg s), j.check.id = id ∧ j.kind = t2Kind) ∨
        ∃ j ∈ judgements (p.second.steps cfg (p.between cfg s)),
          j.check.id = id ∧ j.kind = t2Kind := by
  have hbetween : Keys (p.between cfg s) := by
    rw [CyclePair.between, ← p.first.runSteps_steps cfg s]
    exact keys_runSteps hkeys _
  have hresults : (p.final cfg s).results = s.results ++
      (judgements (p.first.steps cfg s) ++
        judgements (p.second.steps cfg (p.between cfg s))).map resultOf := by
    rw [CyclePair.final, results_afterTunnels hbetween h.second, CyclePair.between,
      results_afterTunnels hkeys h.first, List.map_append, List.append_assoc]
  simp [Journaled, hresults, resultOf, or_and_right, exists_or]

theorem selected_status {c : Cycle} {b : ProxyRow} (hb : b ∈ c.tunnelSelection cfg s) :
    b.status ≠ .quarantine := by
  have hlane := (mem_selectT2Candidates hb).2
  intro hquarantine
  simp [t2Lane, hquarantine] at hlane

/-- A pair of cycles checks a row of the first tunnel selection exactly when one of the two samples
leaves such a row to its own cycle's tunnel lane. -/
theorem served_iff_spared (json : JsonValue.SerdeJson) (cfg : CycleConfig) (s : Store)
    (p : CyclePair) (hkeys : Keys s) (h : p.Follows json cfg s) (hkeeps : p.KeepsStatus cfg s) :
    p.Served cfg s ↔ p.Spared cfg s := by
  have hbetween : runSteps cfg s (p.first.steps cfg s) = p.between cfg s :=
    p.first.runSteps_steps cfg s
  have hkeys' : Keys (p.between cfg s) := hbetween ▸ keys_runSteps hkeys _
  apply exists_congr
  intro b
  apply and_congr_right
  intro hb
  have hstatus := selected_status hb
  have hrow : ∀ t ∈ visited cfg s (p.steps cfg s),
      ∃ r, rowAt b.id t = some r ∧ r.status ≠ .quarantine := by
    intro t ht
    obtain ⟨r, hr, hsame⟩ := Option.map_eq_some_iff.mp (hkeeps b hb t ht)
    exact ⟨r, hr, hsame ▸ hstatus⟩
  obtain ⟨r, hr, hrstatus⟩ := hrow s (mem_visited_append [] _)
  obtain ⟨r', hr', hrstatus'⟩ := hrow (p.between cfg s) (hbetween ▸ mem_visited_append _ _)
  rw [journaled_final_iff hkeys h, tunnel_check_iff hkeys h.first hr hrstatus,
    tunnel_check_iff hkeys' h.second hr' hrstatus', tunnelRows_iff h.firstEngine,
    tunnelRows_iff h.secondEngine]
  have hselected : b.id ∈ (p.first.tunnelSelection cfg s).map (·.id) := List.mem_map_of_mem hb
  simp [hselected]

end TwoCycles

section Counterexample

open LaneCoverage JsonText TransitionRuns

def soloPair : CyclePair where
  first := sampleCycle soloStore (.up 20) 2000
  second := sampleCycle ((sampleCycle soloStore (.up 20) 2000).afterTunnels sampleConfig soloStore)
    (.up 20) 2060

theorem soloPair_first : soloPair.first.Follows stringCodec sampleConfig soloStore := by
  decide +kernel

theorem soloPair_second :
    soloPair.second.Follows stringCodec sampleConfig (soloPair.between sampleConfig soloStore) := by
  decide +kernel

theorem soloPair_follows : soloPair.Follows stringCodec sampleConfig soloStore where
  first := soloPair_first
  second := soloPair_second
  firstEngine := rfl
  secondEngine := rfl

theorem soloPair_keepsStatus : soloPair.KeepsStatus sampleConfig soloStore := by
  decide +kernel

theorem served_iff_spared_sample :
    soloPair.Served sampleConfig soloStore ↔ soloPair.Spared sampleConfig soloStore :=
  served_iff_spared stringCodec sampleConfig soloStore soloPair soloStore_keys soloPair_follows
    soloPair_keepsStatus

/-- The only `alive` row of a pool is sampled by both cycles, and neither checks its tunnel. -/
theorem sampled_row_starves :
    ¬∀ (lib : Libraries) (cfg : CycleConfig) (w : World) (p : CyclePair),
      Reachable (lifecycle lib cfg.toProbeConfig) Any w → 1 ≤ cfg.sampleSize →
        p.Follows lib.json cfg w.store → p.first.tunnelSelection cfg w.store ≠ [] →
          p.KeepsStatus cfg w.store → p.Served cfg w.store := by
  intro h
  have hrun : Executes (lifecycle sampleLibraries defaultConfig) Any {} ingestedAndDrawn := by
    decide +kernel
  have hselected : soloPair.first.tunnelSelection sampleConfig soloStore ≠ [] := by
    decide +kernel
  have hstarved : ¬soloPair.Served sampleConfig soloStore := by
    decide +kernel
  exact hstarved (h sampleLibraries sampleConfig _ soloPair (Reachable.execute (.init rfl) hrun)
    le_rfl soloPair_follows hselected soloPair_keepsStatus)

end Counterexample

end TunnelStarvation
