import Fumox.RowHistory

/-!
The geo backfill beside everything else the program does: a pass walks the rows that miss a fact in
id order, batch by batch, while ingest, the admin actions and the probe go on.
-/

namespace GeoBackfill

open RustText ProxyModels ProxyFingerprint RowTable ProxyStore ProbeLifecycle LifecycleSteps
  LifecycleInvariants LaneCoverage ProxyIdentity ReconcilePass RowHistory TransitionRuns

structure GeoFactMask where
  country : Bool
  asn : Bool
  deriving DecidableEq, Repr

def missingGeoCriterion : GeoFactMask → Option (ProxyRow → Bool)
  | ⟨true, true⟩ => some fun r => r.geoCountry.isNone || r.geoAsn.isNone
  | ⟨true, false⟩ => some fun r => r.geoCountry.isNone
  | ⟨false, true⟩ => some fun r => r.geoAsn.isNone
  | ⟨false, false⟩ => none

/-- `WHERE id > ? AND criterion ORDER BY id LIMIT ?`. -/
def listMissingGeo (s : Store) (afterId limit : ℕ) (mask : GeoFactMask) : List ℕ :=
  match missingGeoCriterion mask with
  | none => []
  | some criterion =>
    (((s.proxies.filter fun r => decide (afterId < r.id) && criterion r).map
      (·.id)).insertionSort (· ≤ ·)).take limit

def countMissingGeo (s : Store) (mask : GeoFactMask) : ℕ :=
  match missingGeoCriterion mask with
  | none => 0
  | some criterion => s.proxies.countP criterion

def batch : ℕ := 500

def stampIsEmpty (stamp : GeoStamp) : Bool :=
  stamp.country.isNone && stamp.city.isNone && stamp.asn.isNone

/-- A row that the pass came by: what the resolver answered, and whether the database takes a
write of it. -/
structure Visit where
  id : ℕ
  stamp : Option GeoStamp
  succeeds : Bool
  deriving DecidableEq, Repr

def Visit.written (v : Visit) : Bool :=
  v.succeeds && v.stamp.any fun stamp => !stampIsEmpty stamp

/-- Where `run_backfill` stands.  It ends `exhausted` when the listing is empty or shorter than a
batch, `stopped` when the budget has elapsed or the listing fails. -/
inductive Phase where
  | listing
  | looking (ids : List ℕ)
  | writing (full : Bool) (rest : List (ℕ × Option GeoStamp))
  | exhausted
  | stopped
  deriving DecidableEq, Repr

/-- `horizon` is the id sequence at the start and `visits` the log of the pass; the code keeps
neither. -/
structure Pass where
  horizon : ℕ
  cursor : ℕ := 0
  updated : ℕ := 0
  phase : Phase := .listing
  visits : List Visit := []
  deriving DecidableEq, Repr

structure Backfill where
  world : World
  pass : Pass

/-- The pass takes its steps between the events of the rest of the system.  A lookup past the
budget answers nothing. -/
inductive BackfillEvent where
  | other (e : Event)
  | list (expired readable : Bool)
  | lookups (stamps : List (Option GeoStamp))
  | write (succeeds : Bool)

variable (lib : Libraries) (cfg : ProbeConfig) (mask : GeoFactMask)

def settled (full : Bool) (rest : List (ℕ × Option GeoStamp)) : Phase :=
  if rest = [] then if full then .listing else .exhausted else .writing full rest

def listStep (s : Store) (p : Pass) (expired readable : Bool) : Pass :=
  if expired || !readable then { p with phase := .stopped }
  else
    match listMissingGeo s p.cursor batch mask with
    | [] => { p with phase := .exhausted }
    | ids => { p with phase := .looking ids }

def writeStep (s : Store) (p : Pass) (full : Bool) (id : ℕ) (stamp : Option GeoStamp)
    (rest : List (ℕ × Option GeoStamp)) (succeeds : Bool) : Store × Pass :=
  let p := { p with
    cursor := max id p.cursor
    phase := settled full rest
    visits := p.visits ++ [⟨id, stamp, succeeds⟩] }
  match stamp with
  | none => (s, p)
  | some stamp =>
    if stampIsEmpty stamp then (s, p)
    else if succeeds then (updateGeo s id stamp, { p with updated := p.updated + 1 })
    else (s, p)

def backfillNext (b : Backfill) : BackfillEvent → Backfill
  | .other e => { b with world := (lifecycle lib cfg).next b.world e }
  | .list expired readable =>
    { b with pass := listStep mask b.world.store b.pass expired readable }
  | .lookups stamps =>
    match b.pass.phase with
    | .looking ids =>
      { b with pass := { b.pass with
          phase := settled (decide (batch ≤ ids.length)) (ids.zip stamps) } }
    | _ => b
  | .write succeeds =>
    match b.pass.phase with
    | .writing full ((id, stamp) :: rest) =>
      let (s, p) := writeStep b.world.store b.pass full id stamp rest succeeds
      ⟨{ b.world with store := s }, p⟩
    | _ => b

def BackfillEnabled (b : Backfill) : BackfillEvent → Prop
  | .other e => Enabled cfg b.world e
  | .list _ _ => b.pass.phase = .listing
  | .lookups stamps => ∃ ids, b.pass.phase = .looking ids ∧ stamps.length = ids.length
  | .write _ => ∃ full next rest, b.pass.phase = .writing full (next :: rest)

def backfill : System Backfill BackfillEvent where
  Initial := fun b => Reachable (lifecycle lib cfg) Any b.world ∧
    b.pass = { horizon := b.world.store.nextId }
  Enabled := BackfillEnabled cfg
  next := backfillNext lib cfg mask

def Misses (mask : GeoFactMask) (r : ProxyRow) : Prop :=
  mask.country = true ∧ r.geoCountry = none ∨ mask.asn = true ∧ r.geoAsn = none

section Listing

variable {mask : GeoFactMask} {s s' : Store} {r r' : ProxyRow} {cursor : ℕ}

theorem misses_iff {criterion : ProxyRow → Bool} (h : missingGeoCriterion mask = some criterion) :
    criterion r = true ↔ Misses mask r := by
  obtain ⟨country, asn⟩ := mask
  cases country <;> cases asn <;> simp only [missingGeoCriterion, Option.some.injEq,
    reduceCtorEq] at h <;> subst h <;> simp [Misses, Option.isNone_iff_eq_none]

theorem criterion_of_misses (h : Misses mask r) :
    ∃ criterion, missingGeoCriterion mask = some criterion := by
  obtain ⟨country, asn⟩ := mask
  cases country <;> cases asn <;> simp [Misses, missingGeoCriterion] at h ⊢

theorem Misses.of_later (h : SameProxy r r') (hr' : Misses mask r') : Misses mask r := by
  refine hr'.imp (And.imp_right fun hnone => ?_) (And.imp_right fun hnone => ?_)
  · by_contra hr
    exact h.country hr hnone
  · by_contra hr
    exact h.asn hr hnone

theorem pairwise_listMissingGeo (hkeyed : WellKeyed s) :
    (listMissingGeo s cursor batch mask).Pairwise (· < ·) := by
  unfold listMissingGeo
  split
  · exact .nil
  next criterion _ =>
    set ids := (s.proxies.filter fun r => decide (cursor < r.id) && criterion r).map (·.id)
    have hnodup : (ids.insertionSort (· ≤ ·)).Nodup :=
      (List.perm_insertionSort (· ≤ ·) ids).nodup_iff.mpr
        (hkeyed.nodup.sublist (List.filter_sublist.map _))
    have hsorted := List.pairwise_insertionSort (· ≤ ·) ids
    have hstrict : (ids.insertionSort (· ≤ ·)).Pairwise (· < ·) :=
      (hsorted.and hnodup).imp fun h => lt_of_le_of_ne h.1 h.2
    exact hstrict.sublist (List.take_sublist _ _)

theorem mem_listMissingGeo {id : ℕ} (h : id ∈ listMissingGeo s cursor batch mask) :
    cursor < id ∧ ∃ r ∈ s.proxies, r.id = id := by
  unfold listMissingGeo at h
  split at h
  · cases h
  · have hid := (List.perm_insertionSort _ _).mem_iff.mp (List.mem_of_mem_take h)
    obtain ⟨r, hr, rfl⟩ := List.mem_map.mp hid
    obtain ⟨hr, hguard⟩ := List.mem_filter.mp hr
    simp only [Bool.and_eq_true, decide_eq_true_eq] at hguard
    exact ⟨hguard.1, r, hr, rfl⟩

theorem listed_or_before (hkeyed : WellKeyed s) (hr : r ∈ s.proxies) (hmiss : Misses mask r)
    (hcursor : cursor < r.id) :
    r.id ∈ listMissingGeo s cursor batch mask ∨
      (listMissingGeo s cursor batch mask).length = batch ∧
        ∀ id ∈ listMissingGeo s cursor batch mask, id < r.id := by
  obtain ⟨criterion, hcriterion⟩ := criterion_of_misses hmiss
  have hlist : listMissingGeo s cursor batch mask =
      (((s.proxies.filter fun r => decide (cursor < r.id) && criterion r).map
        (·.id)).insertionSort (· ≤ ·)).take batch := by
    rw [listMissingGeo, hcriterion]
  set ids := (s.proxies.filter fun r => decide (cursor < r.id) && criterion r).map (·.id)
  have hmem : r.id ∈ ids.insertionSort (· ≤ ·) := by
    refine (List.perm_insertionSort (· ≤ ·) ids).mem_iff.mpr
      (List.mem_map_of_mem (List.mem_filter.mpr ⟨hr, ?_⟩))
    simp [hcursor, (misses_iff hcriterion).mpr hmiss]
  have hsorted := List.pairwise_insertionSort (· ≤ ·) ids
  have hnodup : (ids.insertionSort (· ≤ ·)).Nodup :=
    (List.perm_insertionSort (· ≤ ·) ids).nodup_iff.mpr
      (hkeyed.nodup.sublist (List.filter_sublist.map _))
  rw [hlist]
  rw [← List.take_append_drop batch (ids.insertionSort (· ≤ ·))] at hmem hsorted hnodup
  rcases List.mem_append.mp hmem with hmem | hmem
  · exact .inl hmem
  · refine .inr ⟨?_, fun id hid => ?_⟩
    · have hlong : batch < (ids.insertionSort (· ≤ ·)).length := by
        by_contra hshort
        rw [List.drop_eq_nil_of_le (not_lt.mp hshort)] at hmem
        cases hmem
      rw [List.length_take, min_eq_left hlong.le]
    · have hle := (List.pairwise_append.mp hsorted).2.2 id hid r.id hmem
      have hne : id ≠ r.id := fun heq =>
        (List.nodup_append.mp hnodup).2.2 id hid r.id hmem heq
      exact lt_of_le_of_ne hle hne

end Listing

/-- The rows of the batch that the pass has still to come by. -/
def Phase.ahead : Phase → List ℕ
  | .looking ids => ids
  | .writing _ rest => rest.map Prod.fst
  | _ => []

def Beyond (p : Pass) (id : ℕ) : Prop :=
  match p.phase with
  | .listing => p.cursor < id
  | .looking ids => batch ≤ ids.length ∧ p.cursor < id ∧ ∀ i ∈ ids, i < id
  | .writing full rest => full = true ∧ p.cursor < id ∧ ∀ i ∈ rest.map Prod.fst, i < id
  | .exhausted => False
  | .stopped => True

structure InOrder (s : Store) (p : Pass) : Prop where
  horizon : p.horizon ≤ s.nextId
  visited : (p.visits.map (·.id)).Pairwise (· < ·)
  behind : ∀ v ∈ p.visits, v.id ≤ p.cursor
  issued : ∀ v ∈ p.visits, v.id < s.nextId
  ahead : p.phase.ahead.Pairwise (· < ·)
  beyond : ∀ id ∈ p.phase.ahead, p.cursor < id
  listed : ∀ id ∈ p.phase.ahead, id < s.nextId
  updated : p.updated = p.visits.countP Visit.written

/-- Every row that was there at the start and still misses a fact has been met or will be. -/
def Covers (mask : GeoFactMask) (s : Store) (p : Pass) : Prop :=
  ∀ r ∈ s.proxies, r.id < p.horizon → Misses mask r →
    (∃ v ∈ p.visits, v.id = r.id) ∨ r.id ∈ p.phase.ahead ∨ Beyond p r.id

/-- A fact of an answer that was stored is still there. -/
def Answered (s : Store) (p : Pass) : Prop :=
  ∀ v ∈ p.visits, v.succeeds = true → ∀ stamp, v.stamp = some stamp →
    ∀ r ∈ s.proxies, r.id = v.id → (stamp.country ≠ none → r.geoCountry ≠ none) ∧
      (stamp.asn ≠ none → r.geoAsn ≠ none)

section Pass

variable {lib cfg mask} {s s' : Store} {p : Pass} {b : Backfill} {e : BackfillEvent}

theorem InOrder.traces (h : InOrder s p) (htraces : Traces s s') : InOrder s' p :=
  { h with
    horizon := h.horizon.trans htraces.nextId
    issued := fun v hv => (h.issued v hv).trans_le htraces.nextId
    listed := fun id hid => (h.listed id hid).trans_le htraces.nextId }

theorem Covers.traces (h : Covers mask s p) (hhorizon : p.horizon ≤ s.nextId)
    (htraces : Traces s s') : Covers mask s' p := by
  intro r' hr' hid hmiss
  rcases htraces.rows r' hr' with ⟨r, hr, hsame⟩ | hnew
  · rw [hsame.id] at hid ⊢
    exact h r hr hid (hmiss.of_later hsame)
  · omega

theorem Answered.traces (h : Answered s p) (hissued : ∀ v ∈ p.visits, v.id < s.nextId)
    (htraces : Traces s s') : Answered s' p := by
  intro v hv hsucceeds stamp hstamp r' hr' hid
  rcases htraces.rows r' hr' with ⟨r, hr, hsame⟩ | hnew
  · obtain ⟨hcountry, hasn⟩ := h v hv hsucceeds stamp hstamp r hr (hsame.id.symm.trans hid)
    exact ⟨fun hc => hsame.country (hcountry hc), fun ha => hsame.asn (hasn ha)⟩
  · have := hissued v hv
    omega

theorem ahead_settled (full : Bool) (rest : List (ℕ × Option GeoStamp)) :
    (settled full rest).ahead = rest.map Prod.fst := by
  unfold settled
  split_ifs with hrest hfull
  · rw [hrest]
    rfl
  · rw [hrest]
    rfl
  · rfl

theorem beyond_settled {full : Bool} {rest : List (ℕ × Option GeoStamp)} {id : ℕ}
    (hphase : p.phase = settled full rest) (hfull : full = true) (hcursor : p.cursor < id)
    (hrest : ∀ i ∈ rest.map Prod.fst, i < id) : Beyond p id := by
  by_cases hempty : rest = []
  · simpa [Beyond, hphase, settled, hempty, hfull] using hcursor
  · simp only [Beyond, hphase, settled, if_neg hempty]
    exact ⟨hfull, hcursor, hrest⟩

theorem visits_listStep (s : Store) (p : Pass) (expired readable : Bool) :
    (listStep mask s p expired readable).visits = p.visits := by
  unfold listStep
  split_ifs
  · rfl
  · split <;> rfl

theorem inOrder_listStep (h : InOrder s p) (hkeyed : WellKeyed s) (expired readable : Bool) :
    InOrder s (listStep mask s p expired readable) := by
  have hclear : ∀ phase : Phase, phase.ahead = [] → InOrder s { p with phase } := fun phase hnil =>
    { h with
      ahead := by rw [hnil]; exact .nil
      beyond := by rw [hnil]; simp
      listed := by rw [hnil]; simp }
  unfold listStep
  split_ifs
  · exact hclear .stopped rfl
  · split
    · exact hclear .exhausted rfl
    next ids hids _ =>
      refine { h with
        ahead := pairwise_listMissingGeo hkeyed
        beyond := fun id hid => (mem_listMissingGeo hid).1
        listed := fun id hid => ?_ }
      obtain ⟨-, r, hr, rfl⟩ := mem_listMissingGeo hid
      exact hkeyed.fresh r hr

theorem covers_listStep (h : Covers mask s p) (hphase : p.phase = .listing)
    (hkeyed : WellKeyed s) (expired readable : Bool) :
    Covers mask s (listStep mask s p expired readable) := by
  have hreach : ∀ r ∈ s.proxies, r.id < p.horizon → Misses mask r →
      (∃ v ∈ p.visits, v.id = r.id) ∨ p.cursor < r.id := by
    intro r hr hid hmiss
    simpa [hphase, Phase.ahead, Beyond] using h r hr hid hmiss
  unfold listStep
  split_ifs
  · exact fun r hr hid hmiss => .inr (.inr trivial)
  · split
    next hnil =>
      intro r hr hid hmiss
      refine (hreach r hr hid hmiss).imp_right fun hcursor => ?_
      rcases listed_or_before hkeyed hr hmiss hcursor with hlisted | ⟨hlength, -⟩
      · rw [hnil] at hlisted
        cases hlisted
      · rw [hnil] at hlength
        cases hlength
    next =>
      intro r hr hid hmiss
      refine (hreach r hr hid hmiss).imp_right fun hcursor => ?_
      refine (listed_or_before hkeyed hr hmiss hcursor).imp_right fun hbefore => ?_
      exact ⟨hbefore.1.ge, hcursor, hbefore.2⟩

theorem inOrder_lookups (h : InOrder s p) {ids : List ℕ} (hphase : p.phase = .looking ids)
    {stamps : List (Option GeoStamp)} (hlength : stamps.length = ids.length) (full : Bool) :
    InOrder s { p with phase := settled full (ids.zip stamps) } := by
  have hahead : (settled full (ids.zip stamps)).ahead = p.phase.ahead := by
    rw [ahead_settled, List.map_fst_zip hlength.ge, hphase]
    rfl
  exact { h with
    ahead := by rw [hahead]; exact h.ahead
    beyond := by rw [hahead]; exact h.beyond
    listed := by rw [hahead]; exact h.listed }

theorem covers_lookups (h : Covers mask s p) {ids : List ℕ} (hphase : p.phase = .looking ids)
    {stamps : List (Option GeoStamp)} (hlength : stamps.length = ids.length) :
    Covers mask s
      { p with phase := settled (decide (batch ≤ ids.length)) (ids.zip stamps) } := by
  intro r hr hid hmiss
  have hids : (ids.zip stamps).map Prod.fst = ids := List.map_fst_zip hlength.ge
  refine (h r hr hid hmiss).imp_right (Or.imp (fun hahead => ?_) fun hbeyond => ?_)
  · rw [ahead_settled, hids]
    simpa [hphase, Phase.ahead] using hahead
  · simp only [Beyond, hphase] at hbeyond
    obtain ⟨hfull, hcursor, hbefore⟩ := hbeyond
    exact beyond_settled rfl (by simpa using hfull) hcursor (by rw [hids]; exact hbefore)

theorem writeStep_pass (s : Store) (p : Pass) (full : Bool) (id : ℕ) (stamp : Option GeoStamp)
    (rest : List (ℕ × Option GeoStamp)) (succeeds : Bool) :
    (writeStep s p full id stamp rest succeeds).2 =
      { p with
        cursor := max id p.cursor
        phase := settled full rest
        visits := p.visits ++ [⟨id, stamp, succeeds⟩]
        updated := p.updated + (Visit.written ⟨id, stamp, succeeds⟩).toNat } := by
  cases stamp with
  | none => cases succeeds <;> rfl
  | some facts =>
    unfold Visit.written writeStep
    cases hempty : stampIsEmpty facts <;> cases succeeds <;> simp [hempty]

theorem writeStep_store (s : Store) (p : Pass) (full : Bool) (id : ℕ) (stamp : Option GeoStamp)
    (rest : List (ℕ × Option GeoStamp)) (succeeds : Bool) :
    (∃ facts, stamp = some facts ∧ stampIsEmpty facts = false ∧ succeeds = true ∧
        (writeStep s p full id stamp rest succeeds).1 = updateGeo s id facts) ∨
      (writeStep s p full id stamp rest succeeds).1 = s ∧
        (succeeds = true → ∀ facts, stamp = some facts → stampIsEmpty facts = true) := by
  cases stamp with
  | none => exact .inr ⟨rfl, fun _ facts hfacts => nomatch hfacts⟩
  | some facts =>
    simp only [writeStep]
    split_ifs with hempty hsucceeds
    · exact .inr ⟨rfl, fun _ other hother => by rwa [← Option.some.inj hother]⟩
    · exact .inl ⟨facts, rfl, by simpa using hempty, hsucceeds, rfl⟩
    · exact .inr ⟨rfl, fun htaken => absurd htaken hsucceeds⟩

section Write

variable {full : Bool} {id : ℕ} {stamp : Option GeoStamp} {rest : List (ℕ × Option GeoStamp)}
  {succeeds : Bool}

theorem traces_writeStep : Traces s (writeStep s p full id stamp rest succeeds).1 := by
  rcases writeStep_store s p full id stamp rest succeeds with ⟨facts, -, -, -, hstore⟩ | ⟨hstore, -⟩
  · rw [hstore]
    exact traces_updateGeo s id facts
  · rw [hstore]
    exact .refl s

theorem inOrder_writeStep (h : InOrder s p) (hphase : p.phase = .writing full ((id, stamp) :: rest)) :
    InOrder s (writeStep s p full id stamp rest succeeds).2 := by
  have hpass := writeStep_pass s p full id stamp rest succeeds
  have hahead : p.phase.ahead = id :: rest.map Prod.fst := by rw [hphase]; rfl
  have hcursor : p.cursor < id := h.beyond id (by rw [hahead]; exact List.mem_cons_self)
  have hmax : max id p.cursor = id := max_eq_left hcursor.le
  have hpairwise := h.ahead
  have hlisted := h.listed
  rw [hahead] at hpairwise hlisted
  obtain ⟨hfirst, hrest⟩ := List.pairwise_cons.mp hpairwise
  rw [hpass, hmax]
  refine ⟨h.horizon, ?_, ?_, ?_, ?_, ?_, ?_, ?_⟩
  · rw [List.map_append, List.pairwise_append]
    refine ⟨h.visited, List.pairwise_singleton _ _, ?_⟩
    rintro a ha b hb
    obtain ⟨v, hv, rfl⟩ := List.mem_map.mp ha
    obtain rfl : b = id := by simpa using hb
    exact (h.behind v hv).trans_lt hcursor
  · intro v hv
    rcases List.mem_append.mp hv with hv | hv
    · exact (h.behind v hv).trans hcursor.le
    · obtain rfl := List.mem_singleton.mp hv
      exact le_rfl
  · intro v hv
    rcases List.mem_append.mp hv with hv | hv
    · exact h.issued v hv
    · obtain rfl := List.mem_singleton.mp hv
      exact hlisted id List.mem_cons_self
  · rw [ahead_settled]
    exact hrest
  · rw [ahead_settled]
    exact hfirst
  · rw [ahead_settled]
    exact fun i hi => hlisted i (List.mem_cons_of_mem _ hi)
  · rw [List.countP_append, h.updated, List.countP_singleton]
    cases Visit.written ⟨id, stamp, succeeds⟩ <;> rfl

theorem covers_writeStep (h : Covers mask s p) (horder : InOrder s p)
    (hphase : p.phase = .writing full ((id, stamp) :: rest)) :
    Covers mask s (writeStep s p full id stamp rest succeeds).2 := by
  have hpass := writeStep_pass s p full id stamp rest succeeds
  intro r hr hid hmiss
  rw [hpass] at hid ⊢
  have hcursor : p.cursor < id := horder.beyond id (by rw [hphase]; exact List.mem_cons_self)
  have hmax : max id p.cursor = id := max_eq_left hcursor.le
  rcases h r hr hid hmiss with ⟨v, hv, hvid⟩ | hahead | hbeyond
  · exact .inl ⟨v, List.mem_append_left _ hv, hvid⟩
  · rw [hphase] at hahead
    rcases List.mem_cons.mp hahead with hfirst | hrest
    · exact .inl ⟨_, List.mem_append_right _ (List.mem_singleton_self _), hfirst.symm⟩
    · refine .inr (.inl ?_)
      rw [ahead_settled]
      exact hrest
  · simp only [Beyond, hphase, List.map_cons, List.forall_mem_cons] at hbeyond
    obtain ⟨hfull, -, hfirst, hrest⟩ := hbeyond
    exact .inr (.inr (beyond_settled rfl hfull (by simpa [hmax] using hfirst) hrest))

theorem answered_writeStep (h : Answered s p) (hissued : ∀ v ∈ p.visits, v.id < s.nextId) :
    Answered (writeStep s p full id stamp rest succeeds).1
      (writeStep s p full id stamp rest succeeds).2 := by
  have htraced : Answered (writeStep s p full id stamp rest succeeds).1 p :=
    h.traces hissued traces_writeStep
  intro v hv hsucceeds found hfound
  rw [writeStep_pass] at hv
  rcases List.mem_append.mp hv with hv | hv
  · exact htraced v hv hsucceeds found hfound
  · obtain rfl := List.mem_singleton.mp hv
    rcases writeStep_store s p full id stamp rest succeeds with
      ⟨facts, hstamp, -, -, hstore⟩ | ⟨-, hempty⟩
    · obtain rfl : found = facts := Option.some.inj (hfound.symm.trans hstamp)
      intro r hr hid
      rw [hstore] at hr
      rcases mem_updateWhere_cases hr with ⟨-, hguard⟩ | ⟨r₀, -, -, rfl⟩
      · simp [hid] at hguard
      · exact ⟨fun hc => by simpa [Option.orElse_eq_orElse] using fun h => absurd h hc,
          fun ha => by simpa [Option.orElse_eq_orElse] using fun h => absurd h ha⟩
    · have hnone := hempty hsucceeds found hfound
      simp only [stampIsEmpty, Bool.and_eq_true, Option.isNone_iff_eq_none] at hnone
      exact fun r _ _ => ⟨fun hc => absurd hnone.1.1 hc, fun ha => absurd hnone.2 ha⟩

end Write

theorem backfill_refines (h : Reachable (backfill lib cfg mask) Any b) :
    Reachable (lifecycle lib cfg) Any b.world := by
  induction h with
  | init hinit => exact hinit.1
  | @step b e _ henabled _ ih =>
    cases e with
    | other e => exact .step ih henabled trivial
    | list => exact ih
    | lookups stamps =>
      obtain ⟨ids, hphase, -⟩ := henabled
      simp only [backfill, backfillNext, hphase]
      exact ih
    | write succeeds =>
      obtain ⟨full, ⟨id, stamp⟩, rest, hphase⟩ := henabled
      simp only [backfill, backfillNext, hphase]
      rcases writeStep_store b.world.store b.pass full id stamp rest succeeds with
        ⟨facts, -, -, -, hstore⟩ | ⟨hstore, -⟩
      · have henabled : (lifecycle lib cfg).Enabled b.world (.updateGeo id facts) := trivial
        rw [hstore]
        exact .step ih henabled trivial
      · rw [hstore]
        exact ih

theorem id_pos {w : World} (h : Reachable (lifecycle lib cfg) Any w) :
    ∀ r ∈ w.store.proxies, 0 < r.id := by
  have htraces : Traces {} w.store := by
    induction h with
    | init hinit =>
      obtain rfl := hinit
      exact .refl _
    | @step w e _ _ _ ih => exact ih.trans (traces_nextStore lib cfg w.store e)
  intro r hr
  rcases htraces.rows r hr with ⟨r₀, hr₀, -⟩ | hnew
  · cases hr₀
  · exact hnew

theorem reachable_pass (h : Reachable (backfill lib cfg mask) Any b) :
    InOrder b.world.store b.pass ∧ Covers mask b.world.store b.pass ∧
      Answered b.world.store b.pass := by
  induction h with
  | @init b hinit =>
    obtain ⟨hreach, hpass⟩ := hinit
    have hkeyed := (reachable_invariant hreach).keyed
    rw [hpass]
    refine ⟨⟨le_rfl, .nil, by simp, by simp, .nil, ?_, ?_, rfl⟩, ?_, by simp [Answered]⟩
    · simp [Phase.ahead]
    · simp [Phase.ahead]
    · exact fun r hr _ _ => .inr (.inr (id_pos hreach r hr))
  | @step b e hreach henabled _ ih =>
    obtain ⟨horder, hcovers, hanswered⟩ := ih
    have hkeyed := (reachable_invariant (backfill_refines hreach)).keyed
    cases e with
    | other e =>
      have htraces := traces_nextStore lib cfg b.world.store e
      exact ⟨horder.traces htraces, hcovers.traces horder.horizon htraces,
        hanswered.traces horder.issued htraces⟩
    | list expired readable =>
      have hphase : b.pass.phase = .listing := henabled
      refine ⟨inOrder_listStep horder hkeyed expired readable,
        covers_listStep hcovers hphase hkeyed expired readable, fun v hv => hanswered v ?_⟩
      exact visits_listStep b.world.store b.pass expired readable ▸ hv
    | lookups stamps =>
      obtain ⟨ids, hphase, hlength⟩ := henabled
      simp only [backfill, backfillNext, hphase]
      exact ⟨inOrder_lookups horder hphase hlength _, covers_lookups hcovers hphase hlength,
        hanswered⟩
    | write succeeds =>
      obtain ⟨full, ⟨id, stamp⟩, rest, hphase⟩ := henabled
      simp only [backfill, backfillNext, hphase]
      have htraces : Traces b.world.store
          (writeStep b.world.store b.pass full id stamp rest succeeds).1 := traces_writeStep
      have horder' : InOrder b.world.store
          (writeStep b.world.store b.pass full id stamp rest succeeds).2 :=
        inOrder_writeStep horder hphase
      exact ⟨horder'.traces htraces,
        (covers_writeStep hcovers horder hphase).traces horder'.horizon htraces,
        answered_writeStep hanswered horder.issued⟩

/-- A pass comes by every row at most once, in id order, and reports the rows it wrote.  When it
ends because nothing is left to list, each row that was there at its start and still misses a fact
has been met, and a fact that it lacks was not in the answer, or the write of the answer failed. -/
theorem complete_pass (h : Reachable (backfill lib cfg mask) Any b) :
    (b.pass.visits.map (·.id)).Pairwise (· < ·) ∧
      b.pass.updated = b.pass.visits.countP Visit.written ∧
      (b.pass.phase = .exhausted → ∀ r ∈ b.world.store.proxies, r.id < b.pass.horizon →
        Misses mask r → ∃ v ∈ b.pass.visits, v.id = r.id ∧
          (r.geoCountry = none → v.stamp.bind (·.country) = none ∨ v.succeeds = false) ∧
          (r.geoAsn = none → v.stamp.bind (·.asn) = none ∨ v.succeeds = false)) := by
  obtain ⟨horder, hcovers, hanswered⟩ := reachable_pass h
  refine ⟨horder.visited, horder.updated, fun hphase r hr hid hmiss => ?_⟩
  have hvisited : ∃ v ∈ b.pass.visits, v.id = r.id := by
    simpa [hphase, Phase.ahead, Beyond] using hcovers r hr hid hmiss
  obtain ⟨v, hv, hvid⟩ := hvisited
  refine ⟨v, hv, hvid, ?_⟩
  cases hsucceeds : v.succeeds with
  | false => exact ⟨fun _ => .inr rfl, fun _ => .inr rfl⟩
  | true =>
    cases hstamp : v.stamp with
    | none => exact ⟨fun _ => .inl rfl, fun _ => .inl rfl⟩
    | some stamp =>
      obtain ⟨hcountry, hasn⟩ := hanswered v hv hsucceeds stamp hstamp r hr hvid.symm
      exact ⟨fun hnone => .inl (by_contra fun hknown => hcountry hknown hnone),
        fun hnone => .inl (by_contra fun hknown => hasn hknown hnone)⟩

end Pass

section Sample

def bothFacts : GeoFactMask := ⟨true, true⟩

/-- A proxy is ingested without a stamp, and a pass finds its country but no network. -/
def startedPass : Backfill :=
  ⟨[Event.reconcileSource "feed" [sampleEntry "node" "example.com" []] [] 1000 true].foldl
    (lifecycle sampleLibraries defaultConfig).next {}, { horizon := 2 }⟩

def passSteps : List BackfillEvent :=
  [.list false true, .lookups [some { country := some "DE" }], .other (.selectT1 [1]), .write true]

def endedPass : Backfill :=
  passSteps.foldl (backfill sampleLibraries defaultConfig bothFacts).next startedPass

theorem reachable_endedPass :
    Reachable (backfill sampleLibraries defaultConfig bothFacts) Any endedPass := by
  have hstart : Reachable (backfill sampleLibraries defaultConfig bothFacts) Any startedPass :=
    .init ⟨.execute (.init rfl) (by decide +kernel), by decide +kernel⟩
  have hlist : startedPass.pass.phase = .listing := by decide +kernel
  have hrun : Executes (backfill sampleLibraries defaultConfig bothFacts) Any startedPass
      passSteps := by
    refine ⟨hlist, trivial, ⟨[1], ?_, rfl⟩, trivial, trivial, trivial,
      ⟨false, (1, some { country := some "DE" }), [], ?_⟩, trivial, trivial⟩
    · decide +kernel
    · decide +kernel
  exact hstart.execute hrun

theorem complete_pass_sample :
    (endedPass.pass.visits.map (·.id)).Pairwise (· < ·) ∧
      endedPass.pass.updated = endedPass.pass.visits.countP Visit.written ∧
      (endedPass.pass.phase = .exhausted → ∀ r ∈ endedPass.world.store.proxies,
        r.id < endedPass.pass.horizon → Misses bothFacts r →
          ∃ v ∈ endedPass.pass.visits, v.id = r.id ∧
            (r.geoCountry = none → v.stamp.bind (·.country) = none ∨ v.succeeds = false) ∧
            (r.geoAsn = none → v.stamp.bind (·.asn) = none ∨ v.succeeds = false)) :=
  complete_pass reachable_endedPass

/-- The pass wrote the country; the row still misses its network, for which it got no answer. -/
example : endedPass.pass.phase = .exhausted ∧ endedPass.pass.updated = 1 ∧
    endedPass.world.store.proxies.map (·.geoCountry) = [some ("DE" : Text)] ∧
    ∃ r ∈ endedPass.world.store.proxies, Misses bothFacts r := by
  refine ⟨by decide +kernel, by decide +kernel, by decide +kernel, ?_⟩
  exact ⟨_, List.mem_cons_self, .inr ⟨rfl, by decide +kernel⟩⟩

end Sample

end GeoBackfill
