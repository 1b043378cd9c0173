import Fumox.LifecycleSteps

/-!
Invariants of every run of the lifecycle: which columns can be set in which status, and that a
running tunnel check belongs to a row whose scheme the tunnel engine supports.
-/

namespace LifecycleInvariants

open RustText ProxyModels RowTable ProxyStore ProbeLifecycle LifecycleSteps TransitionRuns

/-- What holds of the lifecycle columns of a row, whatever happened to it. -/
structure RowInvariant (scheme : Scheme) (l : Lifecycle) : Prop where
  tunnelled : l.lastT2FailedAt ≠ none → scheme ∈ t2Schemes
  ready : l.status = .ready → scheme ∈ t2Schemes
  laddered : l.status = .quarantine → l.ladderAt ≠ none
  active : l.status ≠ .removed → l.removedAt = none

structure Invariant (w : World) : Prop where
  keyed : WellKeyed w.store
  issued : ∀ c ∈ w.inFlight, c.id < w.store.nextId
  tunnels : ∀ c ∈ w.inFlight, c.lane.Tunnel →
    ∀ r ∈ w.store.proxies, r.id = c.id → r.scheme ∈ t2Schemes
  rows : ∀ r ∈ w.store.proxies, RowInvariant r.scheme r.toLifecycle

variable {lib : Libraries} {cfg : ProbeConfig} {e : Event} {w : World} {r : ProxyRow}
  {l : Lifecycle}

theorem regularState_iff :
    regularState r = true ↔ r.status = .unknown ∨ r.status = .alive ∨ r.status = .ready := by
  simp [regularState, or_assoc]

theorem demote_ne_ready (status : ProxyStatus) : demote status ≠ .ready := by
  unfold demote
  split_ifs with h
  · simp
  · exact h

theorem demote_regular (h : regularState r = true) :
    demote r.status = .unknown ∧ r.status = .unknown ∨ demote r.status = .alive := by
  rcases regularState_iff.mp h with h | h | h <;> simp [demote, h]

theorem RowInvariant.pristine (scheme : Scheme) : RowInvariant scheme {} :=
  ⟨by simp, by simp, by simp, by simp⟩

/-- A move keeps the row invariant, given that a tunnel verdict is about a tunnelled scheme. -/
theorem RowInvariant.move (h : RowInvariant r.scheme r.toLifecycle)
    (htunnel : ∀ c o now, e = .verdict c o now → c.lane.Tunnel → r.id = c.id →
      r.scheme ∈ t2Schemes)
    (hmove : Move cfg e r l) : RowInvariant r.scheme l := by
  obtain ⟨htunnelled, hready, hladdered, hactive⟩ := h
  cases hmove with
  | kept => exact ⟨htunnelled, hready, hladdered, hactive⟩
  | pristine => exact .pristine _
  | released _ hr =>
    refine ⟨by simp, by simp, by simp, fun _ => hactive ?_⟩
    rcases hr with hr | hr <;> simp [hr]
  | retired | cleaned => exact ⟨htunnelled, by simp, by simp, by simp⟩
  | @succeeded c o now _ reset tier hid hr htier =>
    refine ⟨?_, ?_, ?_, fun _ => hactive hr⟩
    · intro hset
      rcases eq_or_ne tier .ready with rfl | hne
      · simp [succeededSet] at hset
      · simp only [succeededSet, hne, if_false] at hset
        exact htunnelled hset
    · intro hstatus
      rcases eq_or_ne tier .ready with rfl | hne
      · exact htunnel c o now rfl (htier rfl) hid
      · simp only [succeededSet, hne, if_false] at hstatus
        split_ifs at hstatus with hwas
        exact hready hwas
    · intro hstatus
      simp only [succeededSet] at hstatus
      split_ifs at hstatus
  | @failed c jitter now _ mark hid hr hmark =>
    refine ⟨?_, fun hstatus => absurd hstatus (demote_ne_ready _), ?_, ?_⟩
    · intro hset
      cases mark with
      | true => exact htunnel c _ now rfl (.inl (hmark rfl)) hid
      | false => exact htunnelled (by simpa [failedSet] using hset)
    · intro hstatus
      rcases demote_regular hr with ⟨hd, -⟩ | hd <;> simp [failedSet, hd] at hstatus
    · intro _
      refine hactive fun hremoved => ?_
      simp [regularState, hremoved] at hr
  | @quarantined c jitter now _ mark _ hid hr hmark =>
    refine ⟨?_, by simp [quarantineSet], by simp [quarantineSet], ?_⟩
    · intro hset
      cases mark with
      | true => exact htunnel c _ now rfl (.inl (hmark rfl)) hid
      | false => exact htunnelled (by simpa [quarantineSet] using hset)
    · intro _
      refine hactive fun hremoved => ?_
      simp [regularState, hremoved] at hr
  | @engineUnavailable c now _ hid hr hlane =>
    refine ⟨fun _ => htunnel c _ now rfl hlane hid,
      fun hstatus => absurd hstatus (demote_ne_ready _), ?_, ?_⟩
    · intro hstatus
      rcases demote_regular hr with ⟨hd, -⟩ | hd <;> simp [engineUnavailableSet, hd] at hstatus
    · intro _
      refine hactive fun hremoved => ?_
      simp [regularState, hremoved] at hr
  | ladderRemoved => exact ⟨htunnelled, by simp [ladderRemovedSet], by simp [ladderRemovedSet],
      by simp [ladderRemovedSet]⟩
  | ladderAdvanced hid hr =>
    exact ⟨htunnelled, hready, by simp [ladderAdvancedSet], hactive⟩

theorem mem_start {lane : Lane} {offered : ProxyRow → Bool} {ids : List ℕ} {c : Check}
    (h : c ∈ (start w lane offered ids).inFlight) :
    c ∈ w.inFlight ∨ ∃ r ∈ w.store.proxies, offered r = true ∧ c.id = r.id ∧ c.lane = lane := by
  simp only [start, List.mem_append, List.mem_map, List.mem_filter, Bool.and_eq_true] at h
  rcases h with h | ⟨r, ⟨hr, hoffered, -⟩, rfl⟩
  · exact .inl h
  · exact .inr ⟨r, hr, hoffered, rfl, rfl⟩

theorem t2Lane_scheme {s : Store} (h : t2Lane s r = true) : r.scheme ∈ t2Schemes := by
  simp only [t2Lane, Bool.and_eq_true, List.contains_iff_mem] at h
  exact h.1.2

theorem dueQuarantineT2Lane_scheme {now : ℤ} (h : dueQuarantineT2Lane now r = true) :
    r.scheme ∈ t2Schemes := by
  simp only [dueQuarantineT2Lane, Bool.and_eq_true, List.contains_iff_mem, t2RevivalSchemes,
    List.mem_singleton] at h
  rw [h.2]
  decide

/-- Every check after an event was running before it or is about a row of its lane. -/
theorem mem_nextInFlight {c : Check} (h : c ∈ nextInFlight w e) :
    c ∈ w.inFlight ∨ ∃ r ∈ w.store.proxies, c.id = r.id ∧
      (c.lane.Tunnel → r.scheme ∈ t2Schemes) := by
  have hstart : ∀ {lane offered ids}, c ∈ (start w lane offered ids).inFlight →
      (∀ r, offered r = true → lane.Tunnel → r.scheme ∈ t2Schemes) →
      c ∈ w.inFlight ∨ ∃ r ∈ w.store.proxies, c.id = r.id ∧
        (c.lane.Tunnel → r.scheme ∈ t2Schemes) := by
    intro lane offered ids hc hscheme
    rcases mem_start hc with hc | ⟨r, hr, hoffered, hid, rfl⟩
    · exact .inl hc
    · exact .inr ⟨r, hr, hid, hscheme r hoffered⟩
  cases e with
  | selectT1 => exact hstart h (by simp [Lane.Tunnel])
  | selectQueued => exact hstart h (by simp [Lane.Tunnel])
  | selectT2 => exact hstart h fun r hr _ => t2Lane_scheme hr
  | selectDueQuarantine => exact hstart h (by simp [Lane.Tunnel])
  | selectDueQuarantineT2 => exact hstart h fun r hr _ => dueQuarantineT2Lane_scheme hr
  | verdict | abandon => exact .inl (List.mem_of_mem_erase h)
  | _ => exact .inl h

variable (lib) in
theorem step_preserves (h : Invariant w) (henabled : Enabled cfg w e) :
    Invariant ((lifecycle lib cfg).next w e) := by
  have hsteps := steps_nextStore lib cfg h.keyed e
  -- a row after the step shares its id and scheme with a row before it, unless it is new
  have horigin : ∀ r' ∈ (nextStore lib cfg w.store e).proxies, r'.id < w.store.nextId →
      ∃ r ∈ w.store.proxies, r.id = r'.id ∧ r.scheme = r'.scheme := by
    intro r' hr' hid
    obtain ⟨r, hr | hr, hstep⟩ := hsteps.rows r' hr'
    · exact ⟨r, hr, hstep.id.symm, hstep.scheme.symm⟩
    · have := hr.fresh
      have := hstep.id
      omega
  refine ⟨hsteps.keyed, ?_, ?_, ?_⟩
  · intro c hc
    rcases mem_nextInFlight hc with hc | ⟨r, hr, hid, -⟩
    · exact (h.issued c hc).trans_le hsteps.nextId
    · rw [hid]
      exact (h.keyed.fresh r hr).trans_le hsteps.nextId
  · intro c hc hlane r' hr' hid
    rcases mem_nextInFlight hc with hc | ⟨r, hr, hid', hscheme⟩
    · obtain ⟨r, hr, hrid, hrscheme⟩ := horigin r' hr' (hid ▸ h.issued c hc)
      rw [← hrscheme]
      exact h.tunnels c hc hlane r hr (hrid.trans hid)
    · obtain ⟨r₀, hr₀, hrid, hrscheme⟩ :=
        horigin r' hr' (hid.trans hid' ▸ h.keyed.fresh r hr)
      obtain rfl := h.keyed.unique hr₀ hr (hrid.trans (hid.trans hid'))
      rw [← hrscheme]
      exact hscheme hlane
  · intro r' hr'
    obtain ⟨r, hr, hstep⟩ := hsteps.rows r' hr'
    rw [hstep.scheme]
    rcases hr with hr | hr
    · refine (h.rows r hr).move ?_ hstep.move
      rintro c o now rfl hlane hid
      exact h.tunnels c henabled.1 hlane r hr hid
    · refine RowInvariant.move (hr.pristine ▸ .pristine _) ?_ hstep.move
      rintro c o now rfl hlane hid
      have hissued := h.issued c henabled.1
      have hfresh := hr.fresh
      omega

theorem reachable_invariant {Ok : World → Event → Prop}
    (h : Reachable (lifecycle lib cfg) Ok w) : Invariant w := by
  refine h.invariant Invariant ?_ fun w e hw henabled _ => step_preserves lib hw henabled
  rintro w rfl
  exact ⟨⟨by simp, by simp⟩, by simp, by simp, by simp⟩

end LifecycleInvariants
