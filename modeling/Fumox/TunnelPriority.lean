import Fumox.CycleCharges

/-!
Strict tunnel priority.  A T1 success asks the journal for the last failed kind before it writes, so
other verdicts and the rotation of the journal may come in between.  The watched daemon records the
answers, and for each row the tunnel failures since its fail counter was last cleared by something
that outweighs them.
-/

namespace TunnelPriority

open RustText ProxyModels RowTable ProxyStore ProbeLifecycle LifecycleSteps LifecycleInvariants
  TransitionRuns ProbeCycle CycleCharges

/-- A T1 check that has connected asks for the last failed kind; the query may fail.  Everything
else is an event of the lifecycle. -/
inductive Step where
  | lookUp (check : Check) (answered : Bool)
  | event (e : Event)
  deriving DecidableEq

structure Daemon where
  world : World := {}
  lookups : List (Check × Bool) := []
  tunnelFailures : ℕ → ℕ := fun _ => 0

variable (lib : Libraries) (cfg : ProbeConfig)

/-- Whether a success that looked the last failure up now will reset the counter. -/
def resets (s : Store) (id : ℕ) (answered : Bool) : Bool :=
  answered && lastFailedKind s id != some t2Kind

/-- A T2 failure that is written to the row. -/
def TunnelFails (s : Store) (id : ℕ) : Event → Prop
  | .verdict c (.failed _) _ => c.id = id ∧ c.lane = .t2 ∧ (rowAt id s).any regularState = true
  | _ => False

def TunnelSucceeds (id : ℕ) : Event → Prop
  | .verdict c (.succeeded ..) _ => c.id = id ∧ c.lane.Tunnel
  | _ => False

def inQuarantine (s : Store) (id : ℕ) : Bool :=
  (rowAt id s).any (·.status == .quarantine)

/-- A T2 success, a row that leaves quarantine, or a reset or revival that writes the row. -/
def Clears (s : Store) (id : ℕ) (e : Event) : Prop :=
  TunnelSucceeds id e ∨
    (inQuarantine s id = true ∧ inQuarantine (nextStore lib cfg s e) id = false) ∨
    e.Revives ∧ rowAt id (nextStore lib cfg s e) ≠ rowAt id s

instance (s : Store) (id : ℕ) (e : Event) : Decidable (TunnelFails s id e) := by
  unfold TunnelFails
  casesm* Event, Outcome <;> infer_instance

instance (id : ℕ) (e : Event) : Decidable (TunnelSucceeds id e) := by
  unfold TunnelSucceeds
  split <;> infer_instance

instance (e : Event) : Decidable e.Revives := by
  unfold Event.Revives
  casesm Event <;> infer_instance

instance (s : Store) (id : ℕ) (e : Event) : Decidable (Clears lib cfg s id e) :=
  inferInstanceAs (Decidable (_ ∨ _))

def recount (d : Daemon) (e : Event) (id : ℕ) : ℕ :=
  if Clears lib cfg d.world.store id e then 0
  else if TunnelFails d.world.store id e then d.tunnelFailures id + 1
  else d.tunnelFailures id

def Answered (d : Daemon) : Event → Prop
  | .verdict c (.succeeded _ reset) _ => c.lane = .t1 → (c, reset) ∈ d.lookups
  | _ => True

def Enabled (d : Daemon) : Step → Prop
  | .lookUp c _ => c ∈ d.world.inFlight ∧ c.lane = .t1
  | .event e => ProbeLifecycle.Enabled cfg d.world e ∧ Answered d e

def nextLookups (lookups : List (Check × Bool)) : Event → List (Check × Bool)
  | .verdict c (.succeeded _ reset) _ => lookups.erase (c, reset)
  | _ => lookups

def next (d : Daemon) : Step → Daemon
  | .lookUp c answered =>
    { d with lookups := (c, resets d.world.store c.id answered) :: d.lookups }
  | .event e =>
    { world := (lifecycle lib cfg).next d.world e
      lookups := nextLookups d.lookups e
      tunnelFailures := recount lib cfg d e }

def watched : System Daemon Step where
  Initial := fun d => d = {}
  Enabled := Enabled cfg
  next := next lib cfg

/-- A counter with a tunnel failure in it falls, or the mark of the last one goes. -/
def Weakened (d : Daemon) (r r' : ProxyRow) : Prop :=
  (d.tunnelFailures r.id ≠ 0 ∧ r'.failCount < r.failCount) ∨
    (r.lastT2FailedAt ≠ none ∧ r'.lastT2FailedAt = none)

def Step.Clears (d : Daemon) (id : ℕ) : Step → Prop
  | .lookUp .. => False
  | .event e => TunnelPriority.Clears lib cfg d.world.store id e

def Outweighed (d : Daemon) (step : Step) : Prop :=
  ∀ r ∈ d.world.store.proxies, ∀ r' ∈ (next lib cfg d step).world.store.proxies, r'.id = r.id →
    Weakened d r r' → step.Clears lib cfg d r.id

def Limited (d : Daemon) : Step → Prop
  | .lookUp .. => True
  | .event e =>
    ∀ r ∈ d.world.store.proxies, TunnelFails d.world.store r.id e →
      cfg.failLimit ≤ d.tunnelFailures r.id + 1 →
        inQuarantine (nextStore lib cfg d.world.store e) r.id = true

/-- The newest journaled failure of a row whose counter has a tunnel failure in it is a tunnel
failure whenever a T1 success looks it up; no tunnel failure lands on a row between such a lookup
with another answer and the success; and no success of a quarantine recheck lands on a row with a
tunnel failure in its counter after the row has left quarantine. -/
def Orderly (d : Daemon) : Step → Prop
  | .lookUp c answered =>
    answered = true → d.tunnelFailures c.id ≠ 0 →
      lastFailedKind d.world.store c.id = some t2Kind
  | .event (.verdict c (.failed jitter) now) =>
    TunnelFails d.world.store c.id (.verdict c (.failed jitter) now) →
      ∀ c' ∈ d.world.inFlight, c'.id = c.id → (c', true) ∉ d.lookups
  | .event (.verdict c (.succeeded ..) _) =>
    c.lane = .quarantine → (rowAt c.id d.world.store).any regularState = true →
      d.tunnelFailures c.id = 0
  | .event _ => True

instance (d : Daemon) (e : Event) : Decidable (Answered d e) := by
  unfold Answered
  split <;> infer_instance

instance (d : Daemon) (step : Step) : Decidable ((watched lib cfg).Enabled d step) := by
  change Decidable (Enabled cfg d step)
  unfold Enabled
  split <;> infer_instance

instance (d : Daemon) (step : Step) : Decidable (Orderly d step) := by
  unfold Orderly
  split <;> infer_instance

instance (d : Daemon) (step : Step) : Decidable (Any d step) :=
  inferInstanceAs (Decidable True)

instance (d : Daemon) (id : ℕ) (step : Step) : Decidable (step.Clears lib cfg d id) := by
  unfold Step.Clears
  split <;> infer_instance

instance (d : Daemon) (step : Step) : Decidable (Outweighed lib cfg d step) := by
  unfold Outweighed Weakened
  infer_instance

/-- No tunnel failure lands on a row while a connect check of it is running: the lanes of one
daemon take turns. -/
def TakesTurns (d : Daemon) : Step → Prop
  | .event (.verdict c (.failed jitter) now) =>
    TunnelFails d.world.store c.id (.verdict c (.failed jitter) now) →
      ∀ c' ∈ d.world.inFlight, c'.id = c.id → c'.lane.Tunnel
  | _ => True

section Fates

variable {lib : Libraries} {cfg : ProbeConfig} {d : Daemon} {e : Event} {c : Check} {o : Outcome}
  {now : ℤ} {s : Store} {id : ℕ} {r r' : ProxyRow}

inductive Fate (lib : Libraries) (cfg : ProbeConfig) (d : Daemon) (e : Event) (r r' : ProxyRow) :
    Prop
  | kept (hfails : ¬TunnelFails d.world.store r.id e) (hcount : r.failCount ≤ r'.failCount)
      (hstamp : r.lastT2FailedAt ≠ none → r'.lastT2FailedAt ≠ none)
      (hserving : regularState r' = true → regularState r = true)
  | charged (hfails : TunnelFails d.world.store r.id e) (hcount : r'.failCount = r.failCount + 1)
      (hstamp : r'.lastT2FailedAt ≠ none)
      (hlimit : r'.status = .quarantine ∨ r.failCount + 1 < cfg.failLimit)
  | cleared (hclears : Clears lib cfg d.world.store r.id e)
      (hcount : 0 ≤ r.failCount → 0 ≤ r'.failCount)
  | forgiven (hnone : d.tunnelFailures r.id = 0)
      (hfails : ¬TunnelFails d.world.store r.id e)
      (hcount : r'.failCount = 0)
      (hstamp : r.lastT2FailedAt ≠ none → r'.lastT2FailedAt ≠ none)

theorem tunnelFails_iff {jitter : ℤ} :
    TunnelFails s id (.verdict c (.failed jitter) now) ↔
      c.id = id ∧ c.lane = .t2 ∧ (rowAt id s).any regularState = true :=
  Iff.rfl

theorem not_tunnelFails_succeeded {latencyMs : Option ℤ} {reset : Bool} :
    ¬TunnelFails s id (.verdict c (.succeeded latencyMs reset) now) := by
  intro h
  exact h

theorem not_tunnelFails_engine : ¬TunnelFails s id (.verdict c .engineUnavailable now) := by
  intro h
  exact h

theorem not_tunnelFails (hne : ∀ c o now, e ≠ .verdict c o now) : ¬TunnelFails s id e := by
  intro h
  cases e with
  | verdict c o now => exact hne c o now rfl
  | _ => exact h

theorem regularState_afterSuccess {latencyMs : Option ℤ} {reset : Bool} {tier : ProxyStatus}
    (hr : r.status ≠ .removed) :
    regularState (afterSuccess now latencyMs reset tier r) = true := by
  unfold afterSuccess
  rw [if_neg hr, regularState_iff]
  simp only [succeededSet]
  by_cases htier : tier = .ready
  · simp [htier]
  · by_cases hready : r.status = .ready <;> simp [htier, hready]

theorem regular_or_quarantine (hr : r.status ≠ .removed) :
    regularState r = true ∨ r.status = .quarantine := by
  rw [regularState_iff]
  cases hstatus : r.status <;> simp_all

theorem Fate.unchanged (hfails : ¬TunnelFails d.world.store r.id e) : Fate lib cfg d e r r :=
  .kept hfails le_rfl id id

/-- A success, given that it resets the counter of a row in service only where no tunnel failure is
in it. -/
theorem fate_succeeded {latencyMs : Option ℤ} {told reset : Bool} {tier : ProxyStatus}
    (he : e = .verdict c (.succeeded latencyMs told) now) (hid : c.id = r.id)
    (htier : c.lane.Tunnel ∨ tier = .alive)
    (hreset : ¬c.lane.Tunnel → reset = true → regularState r = true →
      d.tunnelFailures r.id = 0)
    (hrow : rowAt r.id d.world.store = some r)
    (hrow' : rowAt r.id (nextStore lib cfg d.world.store e) =
      some (afterSuccess now latencyMs reset tier r)) :
    Fate lib cfg d e r (afterSuccess now latencyMs reset tier r) := by
  have hfails : ¬TunnelFails d.world.store r.id e := by
    rw [he]
    exact not_tunnelFails_succeeded
  by_cases hremoved : r.status = .removed
  · have hsame : afterSuccess now latencyMs reset tier r = r := if_pos hremoved
    rw [hsame]
    exact .unchanged hfails
  have hafter : afterSuccess now latencyMs reset tier r =
      succeededSet now latencyMs reset tier r := if_neg hremoved
  have hcount : 0 ≤ r.failCount → 0 ≤ (afterSuccess now latencyMs reset tier r).failCount := by
    intro hnonneg
    rw [hafter]
    cases reset with
    | true => exact le_rfl
    | false => exact hnonneg
  by_cases hlane : c.lane.Tunnel
  · apply Fate.cleared (.inl _) hcount
    rw [he]
    exact ⟨hid, hlane⟩
  obtain rfl := htier.resolve_left hlane
  have hserves : regularState (afterSuccess now latencyMs reset .alive r) = true :=
    regularState_afterSuccess hremoved
  rcases regular_or_quarantine hremoved with hregular | hheld
  · have hstamp : r.lastT2FailedAt ≠ none →
        (afterSuccess now latencyMs reset .alive r).lastT2FailedAt ≠ none := by
      intro hset
      rw [hafter]
      exact hset
    cases reset with
    | true => exact .forgiven (hreset hlane rfl hregular) hfails (by rw [hafter]; rfl) hstamp
    | false => exact .kept hfails (by rw [hafter]; exact le_rfl) hstamp fun _ => hregular
  · refine .cleared (.inr (.inl ⟨?_, ?_⟩)) hcount
    · simp [inQuarantine, hrow, hheld]
    · rw [inQuarantine, hrow']
      rcases regularState_iff.mp hserves with h | h | h <;> simp [h]

theorem fate_failed {jitter : ℤ} {mark : Bool}
    (he : e = .verdict c (.failed jitter) now) (hid : c.id = r.id)
    (hlane : mark = true ↔ c.lane = .t2) (hrow : rowAt r.id d.world.store = some r) :
    Fate lib cfg d e r (afterFailure cfg now jitter mark r) := by
  have hfails : TunnelFails d.world.store r.id e ↔ mark = true ∧ regularState r = true := by
    rw [he, tunnelFails_iff, hlane, hrow]
    simp [hid]
  unfold afterFailure
  by_cases hregular : regularState r = true
  · rw [if_pos hregular]
    by_cases hlimit : (cfg.failLimit : ℤ) ≤ r.failCount + 1
    · rw [if_pos hlimit]
      cases mark with
      | true =>
        exact .charged (hfails.mpr ⟨rfl, hregular⟩) rfl (by simp [quarantineSet]) (.inl rfl)
      | false =>
        refine .kept (by simp [hfails]) ?_ (fun hset => hset) fun _ => hregular
        simp only [quarantineSet]
        omega
    · rw [if_neg hlimit]
      cases mark with
      | true =>
        exact .charged (hfails.mpr ⟨rfl, hregular⟩) rfl (by simp [failedSet])
          (.inr (not_le.mp hlimit))
      | false =>
        refine .kept (by simp [hfails]) ?_ (fun hset => hset) fun _ => hregular
        simp only [failedSet]
        omega
  · rw [if_neg hregular]
    exact .unchanged (by simp [hfails, hregular])

theorem fate_recheck {jitter step : ℤ} {delays : List ℤ}
    (he : e = .verdict c (.failed jitter) now) (hlane : c.lane ≠ .t2) :
    Fate lib cfg d e r (afterRecheck delays now step r) := by
  have hfails : ¬TunnelFails d.world.store r.id e := by
    rw [he, tunnelFails_iff]
    exact fun h => hlane h.2.1
  unfold afterRecheck
  by_cases hheld : r.status = .quarantine
  · rw [if_pos hheld]
    split
    · refine .kept hfails le_rfl (fun hset => hset) fun hserves => ?_
      simp [regularState, ladderRemovedSet] at hserves
    · refine .kept hfails le_rfl (fun hset => hset) fun hserves => ?_
      simp [regularState, ladderAdvancedSet, hheld] at hserves
  · rw [if_neg hheld]
    exact .unchanged hfails

theorem fate_outage (he : e = .verdict c .engineUnavailable now) :
    Fate lib cfg d e r (afterOutage now r) := by
  have hfails : ¬TunnelFails d.world.store r.id e := by
    rw [he]
    exact not_tunnelFails_engine
  unfold afterOutage
  by_cases hregular : regularState r = true
  · rw [if_pos hregular]
    exact .kept hfails le_rfl (fun _ => by simp [engineUnavailableSet]) fun _ => hregular
  · rw [if_neg hregular]
    exact .unchanged hfails

/-- Answers that would reset a counter are pending only where no tunnel failure is in it. -/
def Pending (d : Daemon) : Prop :=
  ∀ c ∈ d.world.inFlight, (c, true) ∈ d.lookups → d.tunnelFailures c.id = 0

theorem fate_verdict (hids : (d.world.store.proxies.map (·.id)).Nodup) (hpending : Pending d)
    (henabled : Enabled cfg d (.event (.verdict c o now)))
    (horderly : Orderly d (.event (.verdict c o now)))
    (hrow : rowAt r.id d.world.store = some r)
    (hrow' : rowAt r.id (nextStore lib cfg d.world.store (.verdict c o now)) = some r') :
    Fate lib cfg d (.verdict c o now) r r' := by
  obtain ⟨⟨hrunning, hoffers⟩, hanswered⟩ := henabled
  have hjudged := @rowAt_applyVerdict ⟨cfg, 0⟩ d.world.store r.id hids c o now
  rw [hrow] at hjudged
  have hstep := hrow'.symm.trans hjudged
  by_cases hid : c.id = r.id
  swap
  · rw [if_neg hid] at hstep
    obtain rfl := Option.some.inj hstep
    apply Fate.unchanged
    intro hfails
    cases o with
    | failed jitter => exact hid (tunnelFails_iff.mp hfails).1
    | succeeded latencyMs reset => exact not_tunnelFails_succeeded hfails
    | engineUnavailable => exact not_tunnelFails_engine hfails
  rw [if_pos hid] at hstep
  obtain rfl := Option.some.inj hstep
  have hregular : regularState r = true → (rowAt c.id d.world.store).any regularState = true := by
    intro h
    rw [hid, hrow]
    exact h
  unfold judgedRow at hrow' ⊢
  cases hlane : c.lane with
  | t1 =>
    cases o with
    | succeeded latencyMs reset =>
      refine fate_succeeded rfl hid (.inr rfl) (fun _ htrue _ => ?_) hrow (by simpa [hlane] using hrow')
      subst htrue
      rw [← hid]
      exact hpending c hrunning (hanswered hlane)
    | failed jitter => exact fate_failed rfl hid (by simp [hlane]) hrow
    | engineUnavailable => exact absurd hoffers (by simp [OutcomeOf, Lane.Tunnel, hlane])
  | t2 =>
    cases o with
    | succeeded latencyMs reset =>
      have htunnel : c.lane.Tunnel := .inl hlane
      exact fate_succeeded rfl hid (.inl htunnel) (fun h => absurd htunnel h) hrow
        (by simpa [hlane] using hrow')
    | failed jitter => exact fate_failed rfl hid (by simp [hlane]) hrow
    | engineUnavailable => exact fate_outage rfl
  | quarantine =>
    cases o with
    | succeeded latencyMs reset =>
      refine fate_succeeded rfl hid (.inr rfl) (fun _ _ hserves => ?_) hrow
        (by simpa [hlane] using hrow')
      rw [← hid]
      exact horderly hlane (hregular hserves)
    | failed jitter => exact fate_recheck rfl (by simp [hlane])
    | engineUnavailable => exact absurd hoffers (by simp [OutcomeOf, Lane.Tunnel, hlane])
  | quarantineT2 =>
    cases o with
    | succeeded latencyMs reset =>
      have htunnel : c.lane.Tunnel := .inr hlane
      exact fate_succeeded rfl hid (.inl htunnel) (fun h => absurd htunnel h) hrow
        (by simpa [hlane] using hrow')
    | failed jitter => exact fate_recheck rfl (by simp [hlane])
    | engineUnavailable => exact fate_outage rfl

theorem move_other {l : Lifecycle} (hne : ∀ c o now, e ≠ .verdict c o now)
    (hmove : Move cfg e r l) :
    (l.failCount = r.failCount ∧ l.lastT2FailedAt = r.lastT2FailedAt ∧
        (l.status = r.status ∨ l.status = .removed)) ∨
      e.Revives ∧ l.failCount = 0 := by
  cases hmove with
  | kept => exact .inl ⟨rfl, rfl, .inl rfl⟩
  | pristine he => exact .inr ⟨he, rfl⟩
  | released he => exact .inr ⟨he, rfl⟩
  | retired | cleaned => exact .inl ⟨rfl, rfl, .inr rfl⟩
  | succeeded | failed | quarantined | engineUnavailable | ladderRemoved | ladderAdvanced =>
    exact absurd rfl (hne _ _ _)

theorem fate_other (hne : ∀ c o now, e ≠ .verdict c o now) (hmove : Move cfg e r r'.toLifecycle)
    (hrow : rowAt r.id d.world.store = some r)
    (hrow' : rowAt r.id (nextStore lib cfg d.world.store e) = some r') :
    Fate lib cfg d e r r' := by
  rcases move_other hne hmove with ⟨hcount, hstamp, hstatus⟩ | ⟨hrevives, hcount⟩
  · refine .kept (not_tunnelFails hne) hcount.ge (by rw [hstamp]; exact id) fun hserves => ?_
    rcases hstatus with hstatus | hstatus
    · rwa [regularState, hstatus] at hserves
    · simp [regularState, hstatus] at hserves
  · by_cases hsame : r' = r
    · rw [hsame]
      exact .unchanged (not_tunnelFails hne)
    · refine .cleared (.inr (.inr ⟨hrevives, ?_⟩)) fun _ => hcount.ge
      rw [hrow, hrow']
      exact fun h => hsame (Option.some.inj h)

end Fates

section Invariant

variable {lib : Libraries} {cfg : ProbeConfig} {d : Daemon} {step : Step} {e : Event}
  {r r' : ProxyRow} {n m : ℕ}

structure Carries (cfg : ProbeConfig) (n : ℕ) (r : ProxyRow) : Prop where
  counted : n ≤ r.failCount
  serving : regularState r = true → n < max cfg.failLimit 1
  stamped : n ≠ 0 → r.lastT2FailedAt ≠ none

structure Sound (cfg : ProbeConfig) (d : Daemon) : Prop where
  keyed : WellKeyed d.world.store
  unborn : ∀ id, d.world.store.nextId ≤ id → d.tunnelFailures id = 0
  rows : ∀ r ∈ d.world.store.proxies, Carries cfg (d.tunnelFailures r.id) r
  asked : ∀ l ∈ d.lookups, l.1.lane = .t1
  pending : Pending d

theorem Carries.mono (h : Carries cfg n r) (hle : m ≤ n) : Carries cfg m r where
  counted := le_trans (by exact_mod_cast hle) h.counted
  serving := fun hserves => lt_of_le_of_lt hle (h.serving hserves)
  stamped := fun hne => h.stamped (by omega)

theorem Carries.none (h : 0 ≤ r.failCount) : Carries cfg 0 r where
  counted := h
  serving := fun _ => by omega
  stamped := fun hne => absurd rfl hne

theorem Carries.nonneg (h : Carries cfg n r) : 0 ≤ r.failCount :=
  le_trans (Int.natCast_nonneg n) h.counted

theorem recount_le {id : ℕ} (h : ¬TunnelFails d.world.store id e) :
    recount lib cfg d e id ≤ d.tunnelFailures id := by
  unfold recount
  split_ifs
  · exact Nat.zero_le _
  · exact le_rfl

theorem recount_le_succ {id : ℕ} : recount lib cfg d e id ≤ d.tunnelFailures id + 1 := by
  unfold recount
  split_ifs <;> omega

theorem recount_cleared {id : ℕ} (h : Clears lib cfg d.world.store id e) :
    recount lib cfg d e id = 0 :=
  if_pos h

theorem Carries.fate (h : Carries cfg (d.tunnelFailures r.id) r) (hfate : Fate lib cfg d e r r') :
    Carries cfg (recount lib cfg d e r.id) r' := by
  cases hfate with
  | kept hfails hcount hstamp hserving =>
    have hkept : Carries cfg (d.tunnelFailures r.id) r' :=
      ⟨h.counted.trans hcount, fun hserves => h.serving (hserving hserves),
        fun hne => hstamp (h.stamped hne)⟩
    exact hkept.mono (recount_le hfails)
  | charged hfails hcount hstamp hlimit =>
    have hcharged : Carries cfg (d.tunnelFailures r.id + 1) r' := by
      have hcounted := h.counted
      refine ⟨by push_cast; omega, fun hserves => ?_, fun _ => hstamp⟩
      rcases hlimit with hheld | hbelow
      · simp [regularState, hheld] at hserves
      · omega
    exact hcharged.mono recount_le_succ
  | cleared hclears hcount =>
    rw [recount_cleared hclears]
    exact .none (hcount h.nonneg)
  | forgiven hnone hfails hcount hstamp =>
    have hzero : recount lib cfg d e r.id = 0 := by
      have hle := @recount_le lib cfg d e _ hfails
      omega
    rw [hzero]
    exact .none hcount.ge

theorem rowAt_stored {s : Store} (h : WellKeyed s) (hr : r ∈ s.proxies) :
    rowAt r.id s = some r :=
  (rowAt_eq_some h.nodup).mpr ⟨hr, rfl⟩

theorem Sound.fate (h : Sound cfg d) (henabled : Enabled cfg d (.event e))
    (horderly : Orderly d (.event e)) (hr : r ∈ d.world.store.proxies)
    (hr' : r' ∈ (nextStore lib cfg d.world.store e).proxies) (hid : r'.id = r.id) :
    Fate lib cfg d e r r' := by
  have hsteps := steps_nextStore lib cfg h.keyed e
  have hrow := rowAt_stored h.keyed hr
  have hrow' : rowAt r.id (nextStore lib cfg d.world.store e) = some r' := by
    rw [← hid]
    exact rowAt_stored hsteps.keyed hr'
  by_cases hverdict : ∃ c o now, e = .verdict c o now
  · obtain ⟨c, o, now, rfl⟩ := hverdict
    exact fate_verdict h.keyed.nodup h.pending henabled horderly hrow hrow'
  · push Not at hverdict
    obtain ⟨r₀, hr₀, hstep⟩ := hsteps.rows r' hr'
    have hsame : r₀.id = r.id := hstep.id.symm.trans hid
    rcases hr₀ with hr₀ | hinserted
    · obtain rfl := h.keyed.unique hr₀ hr hsame
      exact fate_other hverdict hstep.move hrow hrow'
    · have hold := h.keyed.fresh r hr
      have hnew := hinserted.fresh
      omega

theorem Sound.inserted (h : Sound cfg d) (hr' : r' ∈ (nextStore lib cfg d.world.store e).proxies)
    (hnew : ∀ r ∈ d.world.store.proxies, r.id ≠ r'.id) :
    r'.failCount = 0 ∧ d.world.store.nextId ≤ r'.id := by
  have hsteps := steps_nextStore lib cfg h.keyed e
  by_cases hverdict : ∃ c o now, e = .verdict c o now
  · -- a verdict writes stored rows only
    obtain ⟨c, o, now, rfl⟩ := hverdict
    have hjudged := @rowAt_applyVerdict ⟨cfg, 0⟩ d.world.store r'.id h.keyed.nodup c o now
    have hfound := (rowAt_stored hsteps.keyed hr').symm.trans hjudged
    cases hrow : rowAt r'.id d.world.store with
    | none => simp [hrow] at hfound
    | some r =>
      obtain ⟨hr, hid⟩ := (rowAt_eq_some h.keyed.nodup).mp hrow
      exact absurd hid (hnew r hr)
  · push Not at hverdict
    obtain ⟨r₀, hr₀, hstep⟩ := hsteps.rows r' hr'
    have hinserted := hr₀.resolve_left fun hr₀ => hnew r₀ hr₀ hstep.id.symm
    have hpristine : r₀.failCount = 0 := congrArg Lifecycle.failCount hinserted.pristine
    refine ⟨?_, hstep.id ▸ hinserted.fresh⟩
    rcases move_other hverdict hstep.move with ⟨hcount, -, -⟩ | ⟨-, hcount⟩
    · exact hcount.trans hpristine
    · exact hcount

theorem Orderly.answers (horderly : Orderly d (.event e)) {id : ℕ}
    (hfails : TunnelFails d.world.store id e) {c : Check} (hc : c ∈ d.world.inFlight)
    (hid : c.id = id) : (c, true) ∉ d.lookups := by
  cases e with
  | verdict c₀ o now =>
    cases o with
    | failed jitter =>
      have hc₀ := (tunnelFails_iff.mp hfails).1
      subst hc₀
      exact horderly hfails c hc hid
    | succeeded latencyMs reset => exact absurd hfails not_tunnelFails_succeeded
    | engineUnavailable => exact absurd hfails not_tunnelFails_engine
  | _ => exact absurd hfails (not_tunnelFails (by simp))

theorem TunnelFails.stored {s : Store} {id : ℕ} (h : TunnelFails s id e) :
    ∃ r ∈ s.proxies, r.id = id ∧ regularState r = true := by
  have hany : (rowAt id s).any regularState = true := by
    cases e with
    | verdict c o now =>
      cases o with
      | failed jitter => exact (tunnelFails_iff.mp h).2.2
      | succeeded latencyMs reset => exact absurd h not_tunnelFails_succeeded
      | engineUnavailable => exact absurd h not_tunnelFails_engine
    | _ => exact absurd h (not_tunnelFails (by simp))
  obtain ⟨r, hrow, hregular⟩ := (Option.any_eq_true ..).mp hany
  exact ⟨r, List.mem_of_find?_eq_some hrow, id_of_rowAt hrow, hregular⟩

theorem TunnelFails.running {w : World} {s : Store} {id : ℕ} {c : Check} (h : TunnelFails s id e)
    (hc : c ∈ nextInFlight w e) : c ∈ w.inFlight := by
  by_cases hverdict : ∃ c o now, e = .verdict c o now
  · obtain ⟨c₀, o, now, rfl⟩ := hverdict
    exact List.mem_of_mem_erase hc
  · push Not at hverdict
    exact absurd h (not_tunnelFails hverdict)

/-- A check that runs after an event either ran before it, or was selected by it: for the T1 lane a
row without the mark of a tunnel failure, for the recheck lane a row in quarantine. -/
theorem mem_nextInFlight_cases {w : World} {c : Check} (h : c ∈ nextInFlight w e) :
    c ∈ w.inFlight ∨ (nextStore lib cfg w.store e = w.store ∧ ∃ r ∈ w.store.proxies, r.id = c.id ∧
      (c.lane = .t1 → r.lastT2FailedAt = none) ∧ (c.lane = .quarantine → r.status = .quarantine)) := by
  have hstart : ∀ {lane offered ids}, c ∈ (start w lane offered ids).inFlight →
      (∀ r, offered r = true → (lane = .t1 → r.lastT2FailedAt = none) ∧
        (lane = .quarantine → r.status = .quarantine)) →
      c ∈ w.inFlight ∨ ∃ r ∈ w.store.proxies, r.id = c.id ∧
        (c.lane = .t1 → r.lastT2FailedAt = none) ∧
          (c.lane = .quarantine → r.status = .quarantine) := by
    intro lane offered ids hc hmark
    rcases mem_start hc with hc | ⟨r, hr, hoffered, hid, rfl⟩
    · exact .inl hc
    · exact .inr ⟨r, hr, hid.symm, hmark r hoffered⟩
  cases e with
  | selectT1 =>
    refine (hstart h fun r hoffered => ⟨fun _ => ?_, by simp⟩).imp_right fun h => ⟨rfl, h⟩
    simp only [t1Lane, Bool.and_eq_true, Option.isNone_iff_eq_none] at hoffered
    exact hoffered.1.2
  | selectQueued =>
    refine (hstart h fun r hoffered => ⟨fun _ => ?_, by simp⟩).imp_right fun h => ⟨rfl, h⟩
    simp only [queuedLane, Bool.and_eq_true, Option.isNone_iff_eq_none] at hoffered
    exact hoffered.1.2
  | selectDueQuarantine =>
    refine (hstart h fun r hoffered => ⟨by simp, fun _ => ?_⟩).imp_right fun h => ⟨rfl, h⟩
    simp only [dueQuarantineLane, ladderDue, Bool.and_eq_true, beq_iff_eq] at hoffered
    exact hoffered.1.1
  | selectT2 | selectDueQuarantineT2 =>
    exact (hstart h fun r _ => ⟨by simp, by simp⟩).imp_right fun h => ⟨rfl, h⟩
  | verdict | abandon => exact .inl (List.mem_of_mem_erase h)
  | _ => exact .inl h

theorem mem_nextLookups {lookups : List (Check × Bool)} {l : Check × Bool}
    (h : l ∈ nextLookups lookups e) : l ∈ lookups := by
  unfold nextLookups at h
  split at h
  · exact List.mem_of_mem_erase h
  · exact h

theorem Sound.next (h : Sound cfg d) (henabled : Enabled cfg d step) (horderly : Orderly d step) :
    Sound cfg (TunnelPriority.next lib cfg d step) := by
  cases step with
  | lookUp c answered =>
    refine ⟨h.keyed, h.unborn, h.rows, ?_, ?_⟩
    · intro l hl
      rcases List.mem_cons.mp hl with rfl | hl
      · exact henabled.2
      · exact h.asked l hl
    · intro c' hc' hl
      rcases List.mem_cons.mp hl with heq | hl
      · obtain ⟨rfl, hreset⟩ := Prod.mk.inj heq
        simp only [resets, Bool.true_eq, Bool.and_eq_true, bne_iff_ne] at hreset
        by_contra hcarries
        exact hreset.2 (horderly hreset.1 hcarries)
      · exact h.pending c' hc' hl
  | event e =>
    have hsteps := steps_nextStore lib cfg h.keyed e
    refine ⟨hsteps.keyed, ?_, ?_, fun l hl => h.asked l (mem_nextLookups hl), ?_⟩
    · intro id hid
      have hold : ¬TunnelFails d.world.store id e := by
        intro hfails
        obtain ⟨r, hr, hrid, -⟩ := hfails.stored
        have hfresh := h.keyed.fresh r hr
        have hnext : d.world.store.nextId ≤ id := hsteps.nextId.trans hid
        omega
      have hle := @recount_le lib cfg d e _ hold
      have hzero := h.unborn id (hsteps.nextId.trans hid)
      change recount lib cfg d e id = 0
      omega
    · intro r' hr'
      change Carries cfg (recount lib cfg d e r'.id) r'
      by_cases hold : ∃ r ∈ d.world.store.proxies, r.id = r'.id
      · obtain ⟨r, hr, hid⟩ := hold
        have hfate := h.fate henabled horderly hr hr' hid.symm
        rw [← hid]
        exact (h.rows r hr).fate hfate
      · push Not at hold
        obtain ⟨hcount, hfresh⟩ := h.inserted hr' hold
        have hfails : ¬TunnelFails d.world.store r'.id e := by
          intro hfails
          obtain ⟨r, hr, hrid, -⟩ := hfails.stored
          exact hold r hr hrid
        have hle := @recount_le lib cfg d e _ hfails
        rw [h.unborn r'.id hfresh] at hle
        exact (Carries.none hcount.ge).mono hle
    · intro c hc hl
      have hasked := mem_nextLookups hl
      change recount lib cfg d e c.id = 0
      by_cases hfails : TunnelFails d.world.store c.id e
      · exact absurd hasked (horderly.answers hfails (hfails.running hc) rfl)
      · have hle := @recount_le lib cfg d e _ hfails
        have hzero : d.tunnelFailures c.id = 0 := by
          rcases @mem_nextInFlight_cases lib cfg e _ _ hc with
            hc | ⟨-, r, hr, hid, hmark, -⟩
          · exact h.pending c hc hasked
          · by_contra hcarries
            rw [← hid] at hcarries
            exact (h.rows r hr).stamped hcarries (hmark (h.asked _ hasked))
        omega

theorem sound_initial : Sound cfg {} where
  keyed := ⟨List.nodup_nil, by simp⟩
  unborn := fun _ _ => rfl
  rows := by simp
  asked := by simp
  pending := by simp [Pending]

theorem reachable_sound (h : Reachable (watched lib cfg) Orderly d) : Sound cfg d := by
  refine h.invariant (Sound cfg) ?_ ?_
  · intro d hd
    rw [hd]
    exact sound_initial
  · intro d step hsound henabled horderly
    exact hsound.next henabled horderly

theorem Sound.outweighed (h : Sound cfg d) (henabled : Enabled cfg d step)
    (horderly : Orderly d step) : Outweighed lib cfg d step := by
  intro r hr r' hr' hid hweak
  cases step with
  | lookUp c answered =>
    -- a lookup writes no row
    obtain rfl := h.keyed.unique hr' hr hid
    rcases hweak with ⟨-, hlower⟩ | ⟨hset, hgone⟩
    · exact absurd hlower (lt_irrefl _)
    · exact absurd hgone hset
  | event e =>
    have hfate : Fate lib cfg d e r r' := h.fate henabled horderly hr hr' hid
    cases hfate with
    | kept hfails hcount hstamp hserving =>
      rcases hweak with ⟨-, hlower⟩ | ⟨hset, hgone⟩
      · omega
      · exact absurd hgone (hstamp hset)
    | charged hfails hcount hstamp hlimit =>
      rcases hweak with ⟨-, hlower⟩ | ⟨-, hgone⟩
      · omega
      · exact absurd hgone hstamp
    | cleared hclears hcount => exact hclears
    | forgiven hnone hfails hcount hstamp =>
      rcases hweak with ⟨hsome, -⟩ | ⟨hset, hgone⟩
      · exact absurd hnone hsome
      · exact absurd hgone (hstamp hset)

/-- Each tunnel failure is in the counter, so the counter is full at the latest when they are as
many as the limit. -/
theorem Sound.limited (h : Sound cfg d) : Limited lib cfg d step := by
  cases step with
  | lookUp c answered => trivial
  | event e =>
    intro r hr hfails hlimit
    have hcounted := (h.rows r hr).counted
    have hrow := rowAt_stored h.keyed hr
    cases e with
    | verdict c o now =>
      cases o with
      | failed jitter =>
        obtain ⟨hid, hlane, hany⟩ := tunnelFails_iff.mp hfails
        have hregular : regularState r = true := by simpa [hrow] using hany
        have hfull : (cfg.failLimit : ℤ) ≤ r.failCount + 1 := by omega
        have hjudged := @rowAt_applyVerdict ⟨cfg, 0⟩ d.world.store r.id h.keyed.nodup c
          (.failed jitter) now
        rw [if_pos hid, hrow] at hjudged
        change inQuarantine (applyVerdict cfg d.world.store c (.failed jitter) now) r.id = true
        rw [inQuarantine, hjudged]
        simp [judgedRow, hlane, afterFailure, hregular, hfull, quarantineSet]
      | succeeded latencyMs reset => exact absurd hfails not_tunnelFails_succeeded
      | engineUnavailable => exact absurd hfails not_tunnelFails_engine
    | _ => exact absurd hfails (not_tunnelFails (by simp))

variable (lib cfg) in
/-- In orderly runs a row in service has had fewer tunnel failures than the limit since its counter
was last cleared, no step weakens a row but the ones that outweigh its tunnel failures, and the
tunnel failure that fills the limit puts the row into quarantine. -/
theorem tunnel_failures_outweigh (h : Reachable (watched lib cfg) Orderly d) :
    (∀ r ∈ d.world.store.proxies, regularState r = true →
        d.tunnelFailures r.id < max cfg.failLimit 1) ∧
      ∀ step, (watched lib cfg).Enabled d step → Orderly d step →
        Outweighed lib cfg d step ∧ Limited lib cfg d step := by
  have hsound := reachable_sound h
  refine ⟨fun r hr => (hsound.rows r hr).serving, ?_⟩
  intro step henabled horderly
  exact ⟨hsound.outweighed henabled horderly, hsound.limited⟩

/-- The connect checks of a daemon whose lanes take turns are about rows whose counter has no tunnel
failure in it, or which have been in quarantine ever since they were selected. -/
structure Calm (d : Daemon) : Prop where
  connects : ∀ c ∈ d.world.inFlight, c.lane = .t1 → d.tunnelFailures c.id = 0
  rechecks : ∀ c ∈ d.world.inFlight, c.lane = .quarantine → ∀ r ∈ d.world.store.proxies,
    r.id = c.id → regularState r = true → d.tunnelFailures c.id = 0

theorem TakesTurns.tunnel (h : TakesTurns d (.event e)) {c : Check} (hc : c ∈ d.world.inFlight)
    (hfails : TunnelFails d.world.store c.id e) : c.lane.Tunnel := by
  cases e with
  | verdict c₀ o now =>
    cases o with
    | failed jitter =>
      have hid := (tunnelFails_iff.mp hfails).1
      exact h (by rw [hid]; exact hfails) c hc hid.symm
    | succeeded latencyMs reset => exact absurd hfails not_tunnelFails_succeeded
    | engineUnavailable => exact absurd hfails not_tunnelFails_engine
  | _ => exact absurd hfails (not_tunnelFails (by simp))

theorem Calm.orderly (hcalm : Calm d) (hsound : Sound cfg d) (henabled : Enabled cfg d step)
    (hturns : TakesTurns d step) : Orderly d step := by
  cases step with
  | lookUp c answered =>
    intro _ hcarries
    exact absurd (hcalm.connects c henabled.1 henabled.2) hcarries
  | event e =>
    cases e with
    | verdict c o now =>
      cases o with
      | failed jitter =>
        intro hfails c' hc' hid hasked
        have htunnel := hturns hfails c' hc' hid
        have hconnect : c'.lane = .t1 := hsound.asked _ hasked
        simp [Lane.Tunnel, hconnect] at htunnel
      | succeeded latencyMs reset =>
        intro hlane hregular
        obtain ⟨r, hrow, hserves⟩ := (Option.any_eq_true ..).mp hregular
        exact hcalm.rechecks c henabled.1.1 hlane r (List.mem_of_find?_eq_some hrow)
          (id_of_rowAt hrow) hserves
      | engineUnavailable => trivial
    | _ => trivial

theorem Calm.next (hcalm : Calm d) (hsound : Sound cfg d) (henabled : Enabled cfg d step)
    (hturns : TakesTurns d step) : Calm (TunnelPriority.next lib cfg d step) := by
  have horderly := hcalm.orderly hsound henabled hturns
  cases step with
  | lookUp c answered => exact ⟨hcalm.connects, hcalm.rechecks⟩
  | event e =>
    -- a running connect check sees no tunnel failure land
    have hspared : ∀ c ∈ nextInFlight d.world e, ¬c.lane.Tunnel →
        recount lib cfg d e c.id ≤ d.tunnelFailures c.id := by
      intro c hc hlane
      apply recount_le
      intro hfails
      exact hlane (hturns.tunnel (hfails.running hc) hfails)
    refine ⟨?_, ?_⟩
    · intro c hc hlane
      have hle := hspared c hc (by simp [Lane.Tunnel, hlane])
      have hzero : d.tunnelFailures c.id = 0 := by
        rcases @mem_nextInFlight_cases lib cfg e _ _ hc with
          hc | ⟨-, r, hr, hid, hmark, -⟩
        · exact hcalm.connects c hc hlane
        · by_contra hcarries
          rw [← hid] at hcarries
          exact (hsound.rows r hr).stamped hcarries (hmark hlane)
      change recount lib cfg d e c.id = 0
      omega
    · intro c hc hlane r' hr' hid hserves
      have hle := hspared c hc (by simp [Lane.Tunnel, hlane])
      change recount lib cfg d e c.id = 0
      rcases @mem_nextInFlight_cases lib cfg e _ _ hc with
        hc | ⟨hstore, r, hr, hrid, -, hheld⟩
      · by_cases hold : ∃ r ∈ d.world.store.proxies, r.id = r'.id
        · obtain ⟨r, hr, hrid⟩ := hold
          have hfate : Fate lib cfg d e r r' := hsound.fate henabled horderly hr hr' hrid.symm
          have hcid : r.id = c.id := hrid.trans hid
          cases hfate with
          | kept hfails hcount hstamp hserving =>
            have hzero := hcalm.rechecks c hc hlane r hr hcid (hserving hserves)
            omega
          | charged hfails hcount hstamp hlimit =>
            rw [hcid] at hfails
            have htunnel := hturns.tunnel hc hfails
            simp [Lane.Tunnel, hlane] at htunnel
          | cleared hclears hcount =>
            rw [hcid] at hclears
            exact recount_cleared hclears
          | forgiven hnone hfails hcount hstamp =>
            rw [hcid] at hnone
            omega
        · push Not at hold
          have hzero := hsound.unborn r'.id (hsound.inserted hr' hold).2
          rw [hid] at hzero
          omega
      · -- the selection leaves the row in quarantine
        have hr'' : r' ∈ d.world.store.proxies := by
          rw [← hstore]
          exact hr'
        obtain rfl := hsound.keyed.unique hr'' hr (hid.trans hrid.symm)
        simp [regularState, hheld hlane] at hserves

/-- A daemon whose lanes take turns is orderly. -/
theorem orderly_of_turns (h : Reachable (watched lib cfg) TakesTurns d) :
    Reachable (watched lib cfg) Orderly d ∧ Calm d := by
  induction h with
  | init hd =>
    subst hd
    exact ⟨.init rfl, by simp, by simp⟩
  | step _ henabled hturns ih =>
    obtain ⟨hreach, hcalm⟩ := ih
    have hsound := reachable_sound hreach
    exact ⟨.step hreach henabled (hcalm.orderly hsound henabled hturns),
      hcalm.next hsound henabled hturns⟩

end Invariant

section Samples

open LaneCoverage ProxyFingerprint

def patientConfig : ProbeConfig := ⟨3, 86400, 86400, [900, 1800, 3600]⟩

def ingestedAndChecked : List Step :=
  [.event (.reconcileSource "feed" [sampleEntry "node" "example.com" [⟨"sni", "a", true⟩]] [] 1000
      true),
    .event (.selectT1 [1]),
    .lookUp ⟨1, .t1, 0⟩ true,
    .event (.verdict ⟨1, .t1, 0⟩ (.succeeded (some 20) true) 1001),
    .event (.selectT1 [1]),
    .event (.selectT1 [1]),
    .event (.selectT2 [1])]

def tunnelFailed : List Step :=
  ingestedAndChecked ++
    [.event (.journal ⟨1, 1002, false, t2Kind⟩),
      .event (.verdict ⟨1, .t2, 0⟩ (.failed 0) 1002)]

def connectAnswered : List Step :=
  tunnelFailed ++
    [.event (.journal ⟨1, 1003, false, "tcp"⟩),
      .event (.verdict ⟨1, .t1, 0⟩ (.failed 0) 1003),
      .lookUp ⟨1, .t1, 0⟩ true]

def afterSteps (steps : List Step) : Daemon :=
  steps.foldl (next sampleLibraries patientConfig) {}

/-- A T1 success that has looked the tunnel failure up leaves the counter alone. -/
theorem tunnel_failures_outweigh_sample :
    Outweighed sampleLibraries patientConfig
        (afterSteps (tunnelFailed ++ [.lookUp ⟨1, .t1, 0⟩ true]))
        (.event (.verdict ⟨1, .t1, 0⟩ (.succeeded (some 20) false) 1003)) ∧
      Limited sampleLibraries patientConfig
        (afterSteps (tunnelFailed ++ [.lookUp ⟨1, .t1, 0⟩ true]))
        (.event (.verdict ⟨1, .t1, 0⟩ (.succeeded (some 20) false) 1003)) := by
  have hrun : Reachable (watched sampleLibraries patientConfig) Orderly
      (afterSteps (tunnelFailed ++ [.lookUp ⟨1, .t1, 0⟩ true])) :=
    .execute (.init rfl) (by decide +kernel)
  exact (tunnel_failures_outweigh sampleLibraries patientConfig hrun).2 _ (by decide +kernel)
    (by decide +kernel)

/-- The second T1 check looks the last failure up, finds that of the first one, and clears a counter
with a tunnel failure in it. -/
theorem connect_success_clears_tunnel_failure :
    ¬∀ (lib : Libraries) (cfg : ProbeConfig) (d : Daemon) (step : Step),
      Reachable (watched lib cfg) Any d → (watched lib cfg).Enabled d step →
        Outweighed lib cfg d step := by
  intro h
  have hrun : Executes (watched sampleLibraries patientConfig) Any {} connectAnswered := by
    decide +kernel
  have hreach := Reachable.execute (.init rfl) hrun
  have hweak := h sampleLibraries patientConfig _
    (.event (.verdict ⟨1, .t1, 0⟩ (.succeeded (some 20) true) 1004)) hreach (by decide +kernel)
  exact absurd hweak (by decide +kernel)

end Samples

end TunnelPriority
