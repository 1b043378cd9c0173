import Fumox.ProxyIdentity

/-!
One ingest pass in full: which rows and links a reconciliation leaves, which rows it retires and
what it counts, on any store that the constraints of the tables allow.
-/

namespace ReconcilePass

open RustText ProxyModels ProxyFingerprint RowTable ProxyStore ProbeLifecycle LifecycleSteps
  LifecycleInvariants LaneCoverage ProxyIdentity TransitionRuns

structure Schema (s : Store) : Prop where
  keyed : WellKeyed s
  fingerprints : (s.proxies.map (·.fingerprint)).Nodup
  links : (s.links.map fun l => (l.proxyId, l.sourceId)).Nodup
  referenced : ∀ l ∈ s.links, ∃ r ∈ s.proxies, r.id = l.proxyId

section Links

variable {sourceId : Text} {now : ℤ} {links : List Link} {id : ℕ} {ids : List ℕ} {l : Link}

theorem mem_stampLink : l ∈ stampLink sourceId now links id ↔
    (l ∈ links ∧ ¬(l.proxyId = id ∧ l.sourceId = sourceId)) ∨ l = ⟨id, sourceId, now⟩ := by
  unfold stampLink
  split_ifs with hany
  · simp only [mem_updateWhere]
    constructor
    · rintro ⟨l₀, hl₀, rfl⟩
      split_ifs with hguard
      · simp only [Bool.and_eq_true, beq_iff_eq] at hguard
        exact .inr (by rw [← hguard.1, ← hguard.2])
      · simp only [Bool.and_eq_true, beq_iff_eq] at hguard
        exact .inl ⟨hl₀, hguard⟩
    · rintro (⟨hl, hother⟩ | rfl)
      · exact ⟨l, hl, if_neg (by simpa using hother)⟩
      · obtain ⟨l₀, hl₀, hguard⟩ := List.any_eq_true.mp hany
        refine ⟨l₀, hl₀, ?_⟩
        rw [if_pos hguard]
        simp only [Bool.and_eq_true, beq_iff_eq] at hguard
        rw [← hguard.1, ← hguard.2]
  · simp only [List.mem_append, List.mem_singleton]
    refine or_congr_left ⟨fun hl => ⟨hl, fun hsame => hany ?_⟩, And.left⟩
    exact List.any_eq_true.mpr ⟨l, hl, by simpa using hsame⟩

/-- After the stamps, the links of this source to the stamped rows are new and the others are the
old ones. -/
theorem mem_stampLinks : l ∈ ids.foldl (stampLink sourceId now) links ↔
    (l ∈ links ∧ ¬(l.proxyId ∈ ids ∧ l.sourceId = sourceId)) ∨
      (l.proxyId ∈ ids ∧ l.sourceId = sourceId ∧ l.seenAt = now) := by
  induction ids generalizing links with
  | nil => simp
  | cons id ids ih =>
    rw [List.foldl_cons, ih, mem_stampLink, List.mem_cons]
    have hnew : l = ⟨id, sourceId, now⟩ ↔
        l.proxyId = id ∧ l.sourceId = sourceId ∧ l.seenAt = now := by
      cases l
      simp
    rw [hnew]
    grind

theorem nodup_stampLink (h : (links.map fun l => (l.proxyId, l.sourceId)).Nodup) :
    ((stampLink sourceId now links id).map fun l => (l.proxyId, l.sourceId)).Nodup := by
  unfold stampLink
  split_ifs with hany
  · rw [map_updateWhere (by intro l; rfl)]
    exact h
  · rw [List.map_append, List.nodup_append]
    refine ⟨h, by simp, ?_⟩
    rintro a ha b hb rfl
    obtain ⟨l, hl, rfl⟩ := List.mem_map.mp ha
    refine hany (List.any_eq_true.mpr ⟨l, hl, ?_⟩)
    simpa using hb

theorem nodup_stampLinks (h : (links.map fun l => (l.proxyId, l.sourceId)).Nodup) :
    ((ids.foldl (stampLink sourceId now) links).map fun l => (l.proxyId, l.sourceId)).Nodup := by
  induction ids generalizing links with
  | nil => exact h
  | cons id ids ih => exact ih (nodup_stampLink h)

theorem filter_stampLink :
    (stampLink sourceId now links id).filter (fun l => l.sourceId != sourceId) =
      links.filter fun l => l.sourceId != sourceId := by
  unfold stampLink
  split_ifs
  · refine filter_updateWhere (fun l hguard => ?_) fun l hguard => ?_ <;>
      simp only [Bool.and_eq_true, beq_iff_eq] at hguard <;> simp [hguard.2]
  · simp

theorem filter_stampLinks :
    (ids.foldl (stampLink sourceId now) links).filter (fun l => l.sourceId != sourceId) =
      links.filter fun l => l.sourceId != sourceId := by
  induction ids generalizing links with
  | nil => rfl
  | cons id ids ih => rw [List.foldl_cons, ih, filter_stampLink]

end Links

section Rows

variable {lib : Libraries} {s : Store} {now : ℤ}

/-- A row without the columns that an upsert refreshes. -/
def unrefreshed (row : ProxyRow) : ProxyRow :=
  { row with
    name := []
    params := none
    unknownParams := none
    rawLine := none
    geoCountry := none
    geoCity := none
    geoAsn := none
    updatedAt := 0 }

/-- What an insert leaves in the columns that later passes may change. -/
structure Fresh (s : Store) (fingerprints : List Text) (r : ProxyRow) : Prop where
  id : s.nextId ≤ r.id
  fingerprint : r.fingerprint ∈ fingerprints
  unseen : r.fingerprint ∉ s.proxies.map (·.fingerprint)
  lifecycle : r.toLifecycle = {}

theorem Fresh.mono {fps fps' : List Text} {r : ProxyRow} (h : Fresh s fps r) (hsub : fps ⊆ fps') :
    Fresh s fps' r :=
  ⟨h.id, hsub h.fingerprint, h.unseen, h.lifecycle⟩

theorem unrefreshed_upsertEntry (entry : ProxyEntry) (stamp : GeoStamp) :
    ∃ new, (upsertEntry lib s entry stamp now).proxies.map unrefreshed =
      s.proxies.map unrefreshed ++ new ∧
        ∀ r ∈ new, Fresh s [fingerprint lib.sha256 entry] r := by
  dsimp only [upsertEntry]
  split_ifs with hany
  · refine ⟨[], ?_, by simp⟩
    rw [Store.proxies_updateProxies, map_updateWhere (by intro r; rfl), List.append_nil]
  · refine ⟨[unrefreshed (insertedRow lib s.nextId entry stamp now)], by simp, ?_⟩
    intro r hr
    obtain rfl := List.mem_singleton.mp hr
    refine ⟨le_rfl, List.mem_singleton.mpr rfl, fun hmem => hany ?_, rfl⟩
    obtain ⟨r, hr, hfp⟩ := List.mem_map.mp hmem
    exact List.any_eq_true.mpr ⟨r, hr, beq_iff_eq.mpr hfp⟩

theorem nextId_le_upsertEntry (entry : ProxyEntry) (stamp : GeoStamp) :
    s.nextId ≤ (upsertEntry lib s entry stamp now).nextId := by
  dsimp only [upsertEntry]
  split_ifs
  · exact le_rfl
  · exact Nat.le_succ _

theorem unrefreshed_upsertEntries (entries : List ProxyEntry) (geo : List (Option GeoStamp)) :
    ∃ new, (upsertEntries lib now s entries geo).proxies.map unrefreshed =
      s.proxies.map unrefreshed ++ new ∧
        ∀ r ∈ new, Fresh s (entries.map (fingerprint lib.sha256)) r := by
  induction entries generalizing s geo with
  | nil => exact ⟨[], by simp [upsertEntries], by simp⟩
  | cons entry entries ih =>
    obtain ⟨first, hfirst, hfreshFirst⟩ := @unrefreshed_upsertEntry lib s now entry
      (geo.head?.join.getD {})
    obtain ⟨rest, hrest, hfreshRest⟩ := @ih (upsertEntry lib s entry (geo.head?.join.getD {}) now)
      geo.tail
    refine ⟨first ++ rest, by rw [upsertEntries, hrest, hfirst, List.append_assoc], ?_⟩
    intro r hr
    rcases List.mem_append.mp hr with hr | hr
    · exact (hfreshFirst r hr).mono (by simp)
    · obtain ⟨hid, hfp, hunseen, hlife⟩ := hfreshRest r hr
      refine ⟨(nextId_le_upsertEntry entry _).trans hid, List.mem_cons_of_mem _ hfp, ?_, hlife⟩
      intro hmem
      obtain ⟨r₀, hr₀, hfp₀⟩ := List.mem_map.mp hmem
      have hkept : unrefreshed r₀ ∈ (upsertEntry lib s entry (geo.head?.join.getD {}) now).proxies.map
          unrefreshed := by
        rw [hfirst]
        exact List.mem_append_left _ (List.mem_map_of_mem hr₀)
      obtain ⟨r₁, hr₁, heq⟩ := List.mem_map.mp hkept
      have hfp₁ : r₁.fingerprint = r₀.fingerprint := congrArg (·.fingerprint) heq
      exact hunseen (List.mem_map.mpr ⟨r₁, hr₁, hfp₁.trans hfp₀⟩)

end Rows

section Ids

variable {s : Store}

theorem idOfFingerprint_eq_some (h : Schema s) {fp : Text} {id : ℕ} :
    idOfFingerprint s fp = some id ↔ ∃ r ∈ s.proxies, r.fingerprint = fp ∧ r.id = id := by
  unfold idOfFingerprint
  constructor
  · intro hfound
    obtain ⟨r, hr, hid⟩ := Option.map_eq_some_iff.mp hfound
    exact ⟨r, List.mem_of_find?_eq_some hr, by simpa using List.find?_some hr, hid⟩
  · rintro ⟨r, hr, rfl, rfl⟩
    cases hfind : s.proxies.find? fun x => x.fingerprint == r.fingerprint with
    | none => simpa using List.find?_eq_none.mp hfind r hr
    | some x =>
      have hx : x.fingerprint = r.fingerprint := by simpa using List.find?_some hfind
      obtain rfl := List.inj_on_of_nodup_map h.fingerprints (List.mem_of_find?_eq_some hfind) hr hx
      rfl

theorem zip_of_mapM {α β : Type*} {f : α → Option β} {as : List α} {bs : List β}
    (h : as.mapM f = some bs) :
    as.length = bs.length ∧ (∀ a ∈ as, ∃ b ∈ bs, f a = some b) ∧
      ∀ p ∈ as.zip bs, f p.1 = some p.2 := by
  induction as generalizing bs with
  | nil =>
    obtain rfl : [] = bs := by simpa using h
    simp
  | cons a as ih =>
    simp only [List.mapM_cons, Option.pure_def, Option.bind_eq_bind, Option.bind_eq_some_iff,
      Option.some.injEq] at h
    obtain ⟨b, hb, rest, hrest, rfl⟩ := h
    obtain ⟨hlength, hall, hzip⟩ := ih hrest
    refine ⟨by simp [hlength], ?_, ?_⟩
    · intro x hx
      rcases List.mem_cons.mp hx with rfl | hx
      · exact ⟨b, List.mem_cons_self, hb⟩
      · obtain ⟨y, hy, hfy⟩ := hall x hx
        exact ⟨y, List.mem_cons_of_mem _ hy, hfy⟩
    · rintro p hp
      rcases List.mem_cons.mp hp with rfl | hp
      · exact hb
      · exact hzip p hp

theorem mem_ids_of_mapM {α β : Type*} {f : α → Option β} {as : List α} {bs : List β}
    (h : as.mapM f = some bs) {b : β} : b ∈ bs ↔ ∃ a ∈ as, f a = some b := by
  obtain ⟨hlength, hall, hzip⟩ := zip_of_mapM h
  constructor
  · intro hb
    obtain ⟨n, hn, rfl⟩ := List.getElem_of_mem hb
    have hpair : (as[n], bs[n]) ∈ as.zip bs := by
      rw [← List.getElem_zip (h := by rw [List.length_zip]; omega)]
      exact List.getElem_mem _
    exact ⟨as[n], List.getElem_mem _, hzip _ hpair⟩
  · rintro ⟨a, ha, hfa⟩
    obtain ⟨b', hb', hfb⟩ := hall a ha
    obtain rfl := Option.some.inj (hfa.symm.trans hfb)
    exact hb'

end Ids

section Counters

variable {existing seen : List Text} {pairs : List (Text × ℕ)} {stats : ReconciliationStats}

theorem countUpserts_total : (countUpserts existing seen pairs stats).inserted +
    (countUpserts existing seen pairs stats).updated =
      stats.inserted + stats.updated + pairs.length := by
  induction pairs generalizing seen stats with
  | nil => rfl
  | cons p pairs ih =>
    unfold countUpserts
    split_ifs <;> rw [ih, List.length_cons] <;> dsimp only <;> omega

theorem countUpserts_length (h : stats.inserted = stats.insertedIds.length) :
    (countUpserts existing seen pairs stats).inserted =
      (countUpserts existing seen pairs stats).insertedIds.length := by
  induction pairs generalizing seen stats with
  | nil => exact h
  | cons p pairs ih =>
    unfold countUpserts
    split_ifs
    · exact ih h
    · exact ih h
    · exact ih (by simp [h])

theorem mem_countUpserts (hfun : ∀ p ∈ pairs, ∀ q ∈ pairs, p.1 = q.1 → p.2 = q.2) {id : ℕ} :
    id ∈ (countUpserts existing seen pairs stats).insertedIds ↔ id ∈ stats.insertedIds ∨
      ∃ p ∈ pairs, p.2 = id ∧ p.1 ∉ existing ∧ p.1 ∉ seen := by
  induction pairs generalizing seen stats with
  | nil => simp [countUpserts]
  | cons p pairs ih =>
    have hrest : ∀ q ∈ pairs, ∀ q' ∈ pairs, q.1 = q'.1 → q.2 = q'.2 := fun q hq q' hq' =>
      hfun q (List.mem_cons_of_mem _ hq) q' (List.mem_cons_of_mem _ hq')
    unfold countUpserts
    simp only [List.contains_iff_mem, List.mem_cons, exists_eq_or_imp]
    split_ifs with hexisting hseen
    · rw [ih hrest]
      simp [hexisting]
    · rw [ih hrest]
      simp [hseen]
    · rw [ih hrest]
      simp only [List.mem_append, List.mem_cons, List.not_mem_nil, or_false, not_or]
      constructor
      · rintro ((hold | rfl) | ⟨q, hq, hid, hnew, -, hunseen⟩)
        · exact .inl hold
        · exact .inr (.inl ⟨rfl, hexisting, hseen⟩)
        · exact .inr (.inr ⟨q, hq, hid, hnew, hunseen⟩)
      · rintro (hold | ⟨rfl, -⟩ | ⟨q, hq, hid, hnew, hunseen⟩)
        · exact .inl (.inl hold)
        · exact .inl (.inr rfl)
        · by_cases hsame : q.1 = p.1
          · have hids := hfun q (List.mem_cons_of_mem _ hq) p List.mem_cons_self hsame
            exact .inl (.inr (hid.symm.trans hids))
          · exact .inr ⟨q, hq, hid, hnew, hsame, hunseen⟩

theorem nodup_countUpserts (hinj : ∀ p ∈ pairs, ∀ q ∈ pairs, p.2 = q.2 → p.1 = q.1)
    (hseen : ∀ p ∈ pairs, p.2 ∈ stats.insertedIds → p.1 ∈ seen)
    (hnodup : stats.insertedIds.Nodup) :
    (countUpserts existing seen pairs stats).insertedIds.Nodup := by
  induction pairs generalizing seen stats with
  | nil => exact hnodup
  | cons p pairs ih =>
    have hrest : ∀ q ∈ pairs, ∀ q' ∈ pairs, q.2 = q'.2 → q.1 = q'.1 := fun q hq q' hq' =>
      hinj q (List.mem_cons_of_mem _ hq) q' (List.mem_cons_of_mem _ hq')
    unfold countUpserts
    split_ifs with hexisting hfirst
    · exact ih hrest (fun q hq => hseen q (List.mem_cons_of_mem _ hq)) hnodup
    · exact ih hrest (fun q hq => hseen q (List.mem_cons_of_mem _ hq)) hnodup
    · refine ih hrest (fun q hq hmem => ?_) ?_
      · rcases List.mem_append.mp hmem with hmem | hmem
        · exact List.mem_cons_of_mem _ (hseen q (List.mem_cons_of_mem _ hq) hmem)
        · have hid : q.2 = p.2 := List.mem_singleton.mp hmem
          exact List.mem_cons.mpr
            (.inl (hinj q (List.mem_cons_of_mem _ hq) p List.mem_cons_self hid))
      · rw [List.nodup_append]
        refine ⟨hnodup, by simp, ?_⟩
        rintro a ha b hb rfl
        obtain rfl := List.mem_singleton.mp hb
        exact hfirst (List.contains_iff_mem.mpr (hseen p List.mem_cons_self ha))

end Counters

section Pass

variable {lib : Libraries} {s s' : Store} {sourceId : Text} {entries : List ProxyEntry}
  {geo : List (Option GeoStamp)} {now : ℤ} {linger : Bool} {stats : ReconciliationStats}

theorem Schema.upsertEntry (h : Schema s) (entry : ProxyEntry) (stamp : GeoStamp) :
    Schema (upsertEntry lib s entry stamp now) := by
  have hkeyed : WellKeyed (ProxyStore.upsertEntry lib s entry stamp now) :=
    ((Upserted.refl (e := .reconcileSource [] [] [] 0 true) h.keyed).upsertEntry id entry
      stamp).keyed
  dsimp only [ProxyStore.upsertEntry] at hkeyed ⊢
  split_ifs at hkeyed ⊢ with hany
  · refine ⟨hkeyed, ?_, h.links, fun l hl => ?_⟩
    · rw [Store.proxies_updateProxies, map_updateWhere (by intro r; rfl)]
      exact h.fingerprints
    · obtain ⟨r, hr, hid⟩ := h.referenced l hl
      exact ⟨_, mem_updateWhere.mpr ⟨r, hr, rfl⟩, by split_ifs <;> exact hid⟩
  · refine ⟨hkeyed, ?_, h.links, fun l hl => ?_⟩
    · rw [List.map_append, List.nodup_append]
      refine ⟨h.fingerprints, by simp, ?_⟩
      rintro a ha b hb rfl
      obtain ⟨r, hr, rfl⟩ := List.mem_map.mp ha
      exact hany (List.any_eq_true.mpr ⟨r, hr, by simpa using hb⟩)
    · obtain ⟨r, hr, hid⟩ := h.referenced l hl
      exact ⟨r, List.mem_append_left _ hr, hid⟩

theorem Schema.upsertEntries (h : Schema s) : Schema (upsertEntries lib now s entries geo) := by
  induction entries generalizing s geo with
  | nil => exact h
  | cons entry entries ih => exact ih (h.upsertEntry entry _)

def stampedLinks (sourceId : Text) (now : ℤ) (links : List Link) (ids : List ℕ) : List Link :=
  ids.foldl (stampLink sourceId now) links

theorem upsertEntries_links : (upsertEntries lib now s entries geo).links = s.links := by
  induction entries generalizing s geo with
  | nil => rfl
  | cons entry entries ih =>
    rw [upsertEntries, ih]
    dsimp only [ProxyStore.upsertEntry]
    split_ifs <;> rfl

def orphaned (sourceId : Text) (now : ℤ) (links : List Link) (id : ℕ) : Prop :=
  (∃ l ∈ links, l.proxyId = id ∧ staleLink sourceId now l = true) ∧
    ∀ l ∈ links, l.proxyId = id → staleLink sourceId now l = true

theorem losesLastLink_iff {id : ℕ} :
    losesLastLink s sourceId now id = true ↔ orphaned sourceId now s.links id := by
  simp only [losesLastLink, orphaned, Bool.and_eq_true, List.any_eq_true, beq_iff_eq,
    Bool.not_eq_true', List.any_eq_false]
  refine and_congr_right fun _ => forall_congr' fun l => forall_congr' fun _ => ?_
  cases staleLink sourceId now l <;> simp

theorem reconcileSource_eq_ok
    (hok : reconcileSource lib s sourceId entries geo now linger = .ok (s', stats)) :
    ∃ ids, (entries.map (fingerprint lib.sha256)).mapM
        (idOfFingerprint (upsertEntries lib now s entries geo)) = some ids ∧
      s'.proxies = (if linger then (upsertEntries lib now s entries geo).proxies
        else updateWhere (fun r => r.status != .removed &&
          losesLastLink { upsertEntries lib now s entries geo with
            links := stampedLinks sourceId now s.links ids } sourceId now r.id) (retire now)
          (upsertEntries lib now s entries geo).proxies) ∧
      s'.links = (stampedLinks sourceId now s.links ids).filter (fun l =>
        !(staleLink sourceId now l && !(linger && ((s'.proxies.filter lingers).map
          (·.id)).contains l.proxyId))) ∧
      s'.nextId = (upsertEntries lib now s entries geo).nextId ∧
      ∃ unlinked removed, stats = { countUpserts ((s.proxies.map (·.fingerprint)).filter
          (entries.map (fingerprint lib.sha256)).contains) []
            ((entries.map (fingerprint lib.sha256)).zip ids) {} with unlinked, removed } := by
  unfold reconcileSource at hok
  split at hok
  · cases hok
  dsimp only at hok
  split at hok
  · cases hok
  next ids hids =>
    obtain ⟨rfl, rfl⟩ := Prod.mk.inj (Except.ok.inj hok)
    refine ⟨ids, hids, ?_, ?_, ?_, _, _, rfl⟩ <;> cases linger <;>
      simp only [upsertEntries_links, stampedLinks, Bool.false_eq_true, if_false, if_true,
        Store.proxies_updateProxies, Store.nextId_updateProxies]
    all_goals rfl

theorem mem_ids (h : Schema s) {ids : List ℕ}
    (hids : (entries.map (fingerprint lib.sha256)).mapM
      (idOfFingerprint (upsertEntries lib now s entries geo)) = some ids) {id : ℕ} :
    id ∈ ids ↔ ∃ r ∈ (upsertEntries lib now s entries geo).proxies, r.id = id ∧
      r.fingerprint ∈ entries.map (fingerprint lib.sha256) := by
  rw [mem_ids_of_mapM hids]
  constructor
  · rintro ⟨fp, hfp, hid⟩
    obtain ⟨r, hr, rfl, rfl⟩ := (idOfFingerprint_eq_some h.upsertEntries).mp hid
    exact ⟨r, hr, rfl, hfp⟩
  · rintro ⟨r, hr, rfl, hfp⟩
    exact ⟨_, hfp, (idOfFingerprint_eq_some h.upsertEntries).mpr ⟨r, hr, rfl, rfl⟩⟩

theorem origin_upsertEntries {r : ProxyRow}
    (hr : r ∈ (upsertEntries lib now s entries geo).proxies) :
    (∃ r₀ ∈ s.proxies, unrefreshed r = unrefreshed r₀) ∨
      Fresh s (entries.map (fingerprint lib.sha256)) r := by
  obtain ⟨new, hmap, hnew⟩ := @unrefreshed_upsertEntries lib s now entries geo
  have hmem : unrefreshed r ∈ s.proxies.map unrefreshed ++ new :=
    hmap ▸ List.mem_map_of_mem hr
  rcases List.mem_append.mp hmem with hold | hfresh
  · obtain ⟨r₀, hr₀, heq⟩ := List.mem_map.mp hold
    exact .inl ⟨r₀, hr₀, heq.symm⟩
  · obtain ⟨hid, hfp, hunseen, hlife⟩ := hnew _ hfresh
    exact .inr ⟨hid, hfp, hunseen, hlife⟩

theorem kept_upsertEntries {r : ProxyRow} (hr : r ∈ s.proxies) :
    ∃ r₁ ∈ (upsertEntries lib now s entries geo).proxies, unrefreshed r₁ = unrefreshed r := by
  obtain ⟨new, hmap, -⟩ := @unrefreshed_upsertEntries lib s now entries geo
  have hmem : unrefreshed r ∈ (upsertEntries lib now s entries geo).proxies.map unrefreshed := by
    rw [hmap]
    exact List.mem_append_left _ (List.mem_map_of_mem hr)
  exact List.mem_map.mp hmem

theorem orphaned_stampedLinks {ids : List ℕ} {id : ℕ} :
    orphaned sourceId now (stampedLinks sourceId now s.links ids) id ↔
      s.hasLink id = true ∧ ∀ l ∈ stampedLinks sourceId now s.links ids, l.proxyId = id →
        staleLink sourceId now l = true := by
  refine and_congr_left fun hall => ?_
  simp only [Store.hasLink, List.any_eq_true, beq_iff_eq]
  constructor
  · rintro ⟨l, hl, hid, hstale⟩
    rcases mem_stampLinks.mp hl with ⟨hold, -⟩ | ⟨-, -, hnow⟩
    · exact ⟨l, hold, hid⟩
    · simp [staleLink, hnow] at hstale
  · rintro ⟨l, hl, rfl⟩
    by_cases hstamped : l.proxyId ∈ ids ∧ l.sourceId = sourceId
    · -- a stamped link would not be stale
      have hnew : (⟨l.proxyId, sourceId, now⟩ : Link) ∈ stampedLinks sourceId now s.links ids :=
        mem_stampLinks.mpr (.inr ⟨hstamped.1, rfl, rfl⟩)
      have hstale := hall _ hnew rfl
      simp [staleLink] at hstale
    · have hkept : l ∈ stampedLinks sourceId now s.links ids :=
        mem_stampLinks.mpr (.inl ⟨hl, hstamped⟩)
      exact ⟨l, hkept, rfl, hall l hkept rfl⟩

def LostLastLink (s s' : Store) (id : ℕ) : Prop :=
  s.hasLink id = true ∧ s'.hasLink id = false

instance (s s' : Store) (id : ℕ) : Decidable (LostLastLink s s' id) :=
  inferInstanceAs (Decidable (_ ∧ _))

/-- The rows and links after a pass that lets nothing linger. -/
structure PassResult (lib : Libraries) (s s' : Store) (sourceId : Text)
    (entries : List ProxyEntry) (now : ℤ) : Prop where
  links : ∀ id, (∃ l ∈ s'.links, l.proxyId = id ∧ l.sourceId = sourceId) ↔
    ∃ r ∈ s'.proxies, r.id = id ∧ r.fingerprint ∈ entries.map (fingerprint lib.sha256)
  otherLinks : s'.links.filter (fun l => l.sourceId != sourceId) =
    s.links.filter fun l => l.sourceId != sourceId
  rows : ∀ r ∈ s.proxies, ∃ r' ∈ s'.proxies, unrefreshed r' = unrefreshed
    (if r.status ≠ .removed ∧ LostLastLink s s' r.id then retire now r else r)
  newRows : ∀ r' ∈ s'.proxies, (∃ r ∈ s.proxies, r.id = r'.id) ∨
    Fresh s (entries.map (fingerprint lib.sha256)) r'

/-- The rows and links after a pass whose live rows linger. -/
structure LingerResult (lib : Libraries) (s s' : Store) (entries : List ProxyEntry) : Prop where
  links : ∀ l ∈ s.links, (∃ r ∈ s.proxies, r.id = l.proxyId ∧ r.status ≠ .removed) →
    ∃ l' ∈ s'.links, l'.proxyId = l.proxyId ∧ l'.sourceId = l.sourceId
  rows : ∀ r ∈ s.proxies, ∃ r' ∈ s'.proxies, unrefreshed r' = unrefreshed r
  newRows : ∀ r' ∈ s'.proxies, (∃ r ∈ s.proxies, r.id = r'.id) ∨
    Fresh s (entries.map (fingerprint lib.sha256)) r'

/-- Every entry counts as inserted or updated, and the inserted ids are those of the new rows. -/
structure PassCounts (s s' : Store) (entries : List ProxyEntry) (stats : ReconciliationStats) :
    Prop where
  total : stats.inserted + stats.updated = entries.length
  inserted : stats.inserted = stats.insertedIds.length
  distinct : stats.insertedIds.Nodup
  ids : ∀ id, id ∈ stats.insertedIds ↔
    ∃ r' ∈ s'.proxies, r'.id = id ∧ ∀ r ∈ s.proxies, r.id ≠ id

theorem orphaned_iff_lost
    (hok : reconcileSource lib s sourceId entries geo now false = .ok (s', stats)) {ids : List ℕ}
    (hids : (entries.map (fingerprint lib.sha256)).mapM
      (idOfFingerprint (upsertEntries lib now s entries geo)) = some ids) (id : ℕ) :
    orphaned sourceId now (stampedLinks sourceId now s.links ids) id ↔ LostLastLink s s' id := by
  obtain ⟨ids', hids', -, hlinks, -⟩ := reconcileSource_eq_ok hok
  obtain rfl := Option.some.inj (hids.symm.trans hids')
  rw [orphaned_stampedLinks, LostLastLink]
  refine and_congr_right fun _ => ?_
  simp only [Store.hasLink, hlinks, Bool.false_and, Bool.not_false, Bool.and_true,
    List.any_eq_false, List.mem_filter, Bool.not_eq_true', beq_iff_eq, and_imp]
  constructor
  · intro hall l hl hfresh hid
    simp [hall l hl hid] at hfresh
  · intro hall l hl hid
    by_contra hfresh
    exact hall l hl (by simpa using hfresh) hid

theorem mem_reconciled
    (hok : reconcileSource lib s sourceId entries geo now linger = .ok (s', stats)) {r' : ProxyRow} :
    r' ∈ s'.proxies ↔ ∃ r₁ ∈ (upsertEntries lib now s entries geo).proxies,
      r' = if linger = false ∧ r₁.status ≠ .removed ∧ LostLastLink s s' r₁.id then retire now r₁
        else r₁ := by
  obtain ⟨ids, hids, hproxies, -⟩ := reconcileSource_eq_ok hok
  rw [hproxies]
  cases linger with
  | true => simp
  | false =>
    rw [if_neg Bool.false_ne_true, mem_updateWhere]
    refine exists_congr fun r₁ => and_congr_right fun _ => ?_
    rw [eq_comm]
    simp only [Bool.and_eq_true, bne_iff_ne, losesLastLink_iff, orphaned_iff_lost hok hids,
      true_and]

theorem id_reconciled {r₁ : ProxyRow} {p : Prop} [Decidable p] :
    (if p then retire now r₁ else r₁).id = r₁.id ∧
      (if p then retire now r₁ else r₁).fingerprint = r₁.fingerprint := by
  split_ifs <;> exact ⟨rfl, rfl⟩

theorem rows_reconciled
    (hok : reconcileSource lib s sourceId entries geo now linger = .ok (s', stats)) :
    ∀ r ∈ s.proxies, ∃ r' ∈ s'.proxies, unrefreshed r' = unrefreshed
      (if linger = false ∧ r.status ≠ .removed ∧ LostLastLink s s' r.id then retire now r
        else r) := by
  intro r hr
  obtain ⟨r₁, hr₁, heq⟩ := @kept_upsertEntries lib s entries geo now r hr
  have hstatus : r₁.status = r.status := congrArg (·.status) heq
  have hid : r₁.id = r.id := congrArg (·.id) heq
  refine ⟨_, (mem_reconciled hok).mpr ⟨r₁, hr₁, rfl⟩, ?_⟩
  rw [hstatus, hid]
  split_ifs
  · have hcommutes : ∀ x, unrefreshed (retire now x) = unrefreshed (retire now (unrefreshed x)) :=
      fun _ => rfl
    rw [hcommutes r₁, heq, ← hcommutes]
  · exact heq

theorem newRows_reconciled (h : Schema s)
    (hok : reconcileSource lib s sourceId entries geo now linger = .ok (s', stats)) :
    ∀ r' ∈ s'.proxies, (∃ r ∈ s.proxies, r.id = r'.id) ∨
      Fresh s (entries.map (fingerprint lib.sha256)) r' := by
  intro r' hr'
  obtain ⟨r₁, hr₁, rfl⟩ := (mem_reconciled hok).mp hr'
  rcases origin_upsertEntries hr₁ with ⟨r, hr, heq⟩ | hfresh
  · have hid : r₁.id = r.id := congrArg (·.id) heq
    exact .inl ⟨r, hr, hid.symm.trans id_reconciled.1.symm⟩
  · -- no link of the store refers to a new row
    have hunlinked : s.hasLink r₁.id = false := by
      refine List.any_eq_false.mpr fun l hl hid => ?_
      obtain ⟨r, hr, hrid⟩ := h.referenced l hl
      have hold := h.keyed.fresh r hr
      have hnew := hfresh.id
      simp only [beq_iff_eq] at hid
      omega
    rw [if_neg fun hlost => by simp [LostLastLink, hunlinked] at hlost]
    exact .inr hfresh

theorem counts_reconciled (h : Schema s)
    (hok : reconcileSource lib s sourceId entries geo now linger = .ok (s', stats)) :
    PassCounts s s' entries stats := by
  obtain ⟨ids, hids, -, -, -, unlinked, removed, rfl⟩ := reconcileSource_eq_ok hok
  obtain ⟨hlength, hall, hzip⟩ := zip_of_mapM hids
  have hfun : ∀ p ∈ (entries.map (fingerprint lib.sha256)).zip ids,
      ∀ q ∈ (entries.map (fingerprint lib.sha256)).zip ids, p.1 = q.1 → p.2 = q.2 := by
    intro p hp q hq heq
    exact Option.some.inj ((hzip p hp).symm.trans (heq ▸ hzip q hq))
  have hinj : ∀ p ∈ (entries.map (fingerprint lib.sha256)).zip ids,
      ∀ q ∈ (entries.map (fingerprint lib.sha256)).zip ids, p.2 = q.2 → p.1 = q.1 := by
    intro p hp q hq heq
    obtain ⟨r, hr, hfp, hid⟩ := (idOfFingerprint_eq_some h.upsertEntries).mp (hzip p hp)
    obtain ⟨r', hr', hfp', hid'⟩ := (idOfFingerprint_eq_some h.upsertEntries).mp (hzip q hq)
    obtain rfl := h.upsertEntries.keyed.unique hr hr' (hid.trans (heq.trans hid'.symm))
    exact hfp.symm.trans hfp'
  refine ⟨?_, countUpserts_length rfl, nodup_countUpserts hinj (by simp) List.nodup_nil, ?_⟩
  · rw [countUpserts_total, List.length_zip, ← hlength]
    simp
  · intro id
    have hexisting : ∀ fp ∈ entries.map (fingerprint lib.sha256),
        fp ∉ (s.proxies.map (·.fingerprint)).filter
          (entries.map (fingerprint lib.sha256)).contains ↔
            fp ∉ s.proxies.map (·.fingerprint) := by
      intro fp hfp
      simp only [List.mem_filter, List.contains_iff_mem, hfp, and_true]
    have hpair : ∀ r ∈ (upsertEntries lib now s entries geo).proxies,
        r.fingerprint ∈ entries.map (fingerprint lib.sha256) →
          (r.fingerprint, r.id) ∈ (entries.map (fingerprint lib.sha256)).zip ids := by
      intro r hr hfp
      obtain ⟨n, hn, heq⟩ := List.getElem_of_mem hfp
      have hn' : n < ((entries.map (fingerprint lib.sha256)).zip ids).length := by
        rw [List.length_zip, ← hlength]
        omega
      have hmem := List.getElem_mem hn'
      have hsome := hzip _ hmem
      rw [List.getElem_zip] at hsome hmem
      rw [heq] at hsome hmem
      have hid := (idOfFingerprint_eq_some h.upsertEntries).mpr ⟨r, hr, rfl, rfl⟩
      rw [Option.some.inj (hid.symm.trans hsome)]
      exact hmem
    rw [mem_countUpserts hfun]
    simp only [List.not_mem_nil, not_false_eq_true, and_true, false_or]
    constructor
    · rintro ⟨p, hp, rfl, hnew⟩
      have hfp := (List.of_mem_zip hp).1
      obtain ⟨r, hr, hrfp, hrid⟩ := (idOfFingerprint_eq_some h.upsertEntries).mp (hzip p hp)
      have hunseen := (hexisting p.1 hfp).mp hnew
      refine ⟨_, (mem_reconciled hok).mpr ⟨r, hr, rfl⟩, id_reconciled.1.trans hrid, ?_⟩
      rcases origin_upsertEntries hr with ⟨r₀, hr₀, heq⟩ | hfresh
      · refine absurd (List.mem_map.mpr ⟨r₀, hr₀, ?_⟩) hunseen
        exact (congrArg (·.fingerprint) heq).symm.trans hrfp
      · intro r₀ hr₀ hid
        have hold := h.keyed.fresh r₀ hr₀
        have hnew := hfresh.id
        omega
    · rintro ⟨r', hr', rfl, hnone⟩
      obtain ⟨r, hr, rfl⟩ := (mem_reconciled hok).mp hr'
      rw [id_reconciled.1] at hnone ⊢
      rcases origin_upsertEntries hr with ⟨r₀, hr₀, heq⟩ | hfresh
      · exact absurd (congrArg (·.id) heq).symm (hnone r₀ hr₀)
      · exact ⟨_, hpair r hr hfresh.fingerprint, rfl,
          (hexisting _ hfresh.fingerprint).mpr hfresh.unseen⟩

theorem passResult_reconciled (h : Schema s)
    (hok : reconcileSource lib s sourceId entries geo now false = .ok (s', stats))
    (hclock : ∀ l ∈ s.links, l.seenAt < now) : PassResult lib s s' sourceId entries now := by
  obtain ⟨ids, hids, -, hlinks, -⟩ := reconcileSource_eq_ok hok
  simp only [Bool.false_and, Bool.not_false, Bool.and_true] at hlinks
  refine ⟨fun id => ?_, ?_, ?_, newRows_reconciled h hok⟩
  · have hlisted : id ∈ ids ↔ ∃ r ∈ s'.proxies, r.id = id ∧
        r.fingerprint ∈ entries.map (fingerprint lib.sha256) := by
      rw [mem_ids h hids]
      constructor
      · rintro ⟨r, hr, rfl, hfp⟩
        refine ⟨_, (mem_reconciled hok).mpr ⟨r, hr, rfl⟩, id_reconciled.1, ?_⟩
        rw [id_reconciled.2]
        exact hfp
      · rintro ⟨r', hr', rfl, hfp⟩
        obtain ⟨r, hr, rfl⟩ := (mem_reconciled hok).mp hr'
        rw [id_reconciled.2] at hfp
        exact ⟨r, hr, id_reconciled.1.symm, hfp⟩
    rw [← hlisted, hlinks]
    constructor
    · rintro ⟨l, hl, rfl, hsource⟩
      obtain ⟨hl, hkeep⟩ := List.mem_filter.mp hl
      rcases mem_stampLinks.mp hl with ⟨hold, -⟩ | ⟨hmem, -, -⟩
      · -- an old link of this source is stale
        simp [staleLink, hsource, hclock l hold] at hkeep
      · exact hmem
    · intro hid
      refine ⟨⟨id, sourceId, now⟩, List.mem_filter.mpr ⟨?_, by simp [staleLink]⟩, rfl, rfl⟩
      exact mem_stampLinks.mpr (.inr ⟨hid, rfl, rfl⟩)
  · rw [hlinks, List.filter_filter, ← @filter_stampLinks _ now _ ids]
    refine List.filter_congr fun l _ => ?_
    by_cases hsource : l.sourceId = sourceId
    · simp [hsource]
    · simp [staleLink, hsource]
  · intro r hr
    obtain ⟨r', hr', heq⟩ := rows_reconciled hok r hr
    exact ⟨r', hr', by simpa using heq⟩

theorem lingerResult_reconciled (h : Schema s)
    (hok : reconcileSource lib s sourceId entries geo now true = .ok (s', stats)) :
    LingerResult lib s s' entries := by
  obtain ⟨ids, hids, hproxies, hlinks, -⟩ := reconcileSource_eq_ok hok
  refine ⟨?_, ?_, newRows_reconciled h hok⟩
  · rintro l hl ⟨r, hr, hid, hactive⟩
    by_cases hstamped : l.proxyId ∈ ids ∧ l.sourceId = sourceId
    · refine ⟨⟨l.proxyId, sourceId, now⟩, ?_, rfl, hstamped.2.symm⟩
      rw [hlinks]
      refine List.mem_filter.mpr ⟨mem_stampLinks.mpr (.inr ⟨hstamped.1, rfl, rfl⟩), ?_⟩
      simp [staleLink]
    · refine ⟨l, ?_, rfl, rfl⟩
      rw [hlinks]
      refine List.mem_filter.mpr ⟨mem_stampLinks.mpr (.inl ⟨hl, hstamped⟩), ?_⟩
      obtain ⟨r₁, hr₁, heq⟩ := @kept_upsertEntries lib s entries geo now r hr
      have hstatus : r₁.status = r.status := congrArg (·.status) heq
      have hid₁ : r₁.id = r.id := congrArg (·.id) heq
      have hlingers : lingers r₁ = true := by
        revert hactive
        rw [lingers, hstatus]
        cases r.status <;> simp
      have hmem : l.proxyId ∈ (s'.proxies.filter lingers).map (·.id) := by
        rw [hproxies, if_pos rfl]
        exact List.mem_map.mpr ⟨r₁, List.mem_filter.mpr ⟨hr₁, hlingers⟩, hid₁.trans hid⟩
      rw [List.contains_iff_mem.mpr hmem]
      simp
  · intro r hr
    obtain ⟨r', hr', heq⟩ := rows_reconciled hok r hr
    exact ⟨r', hr', by simpa using heq⟩

/-- A pass that succeeds computes the new row set of its source: without lingering its links are
the rows of the entries and it retires the rows whose last link it took, with lingering no status
and no link of a live row goes; either way it accounts for every entry. -/
theorem reconcile_pass (h : Schema s)
    (hok : reconcileSource lib s sourceId entries geo now linger = .ok (s', stats)) :
    PassCounts s s' entries stats ∧
      (linger = false → (∀ l ∈ s.links, l.seenAt < now) →
        PassResult lib s s' sourceId entries now) ∧
      (linger = true → LingerResult lib s s' entries) := by
  refine ⟨counts_reconciled h hok, ?_, ?_⟩
  · rintro rfl
    exact passResult_reconciled h hok
  · rintro rfl
    exact lingerResult_reconciled h hok

end Pass

section Runs

variable {lib : Libraries} {cfg : ProbeConfig} {s s' : Store} {w : World}

/-- Links still refer to rows when no row goes and no link comes. -/
theorem referenced_of_sublist (h : ∀ l ∈ s.links, ∃ r ∈ s.proxies, r.id = l.proxyId)
    (hids : s'.proxies.map (·.id) = s.proxies.map (·.id)) (hlinks : s'.links.Sublist s.links) :
    ∀ l ∈ s'.links, ∃ r ∈ s'.proxies, r.id = l.proxyId := by
  intro l hl
  obtain ⟨r, hr, hid⟩ := h l (hlinks.subset hl)
  have hmem : l.proxyId ∈ s'.proxies.map (·.id) := by
    rw [hids, ← hid]
    exact List.mem_map_of_mem hr
  exact List.mem_map.mp hmem

theorem enqueueChunks_links (now : ℤ) (s : Store) (chunks : List (List ℕ)) (remaining : ℕ) :
    (enqueueChunks now s chunks remaining).1.links = s.links := by
  induction chunks generalizing s remaining with
  | nil => rfl
  | cons chunk chunks ih =>
    unfold enqueueChunks
    split_ifs
    · rfl
    · exact ih (enqueueChunk s chunk remaining now).1 _

/-- The events that only write lifecycle columns keep the ids and the links. -/
def KeepsLinks (s s' : Store) : Prop :=
  s'.proxies.map (·.id) = s.proxies.map (·.id) ∧ s'.links.Sublist s.links

theorem KeepsLinks.refl (s : Store) : KeepsLinks s s := ⟨rfl, .refl _⟩

theorem KeepsLinks.updateProxies (s : Store) (guard : ProxyRow → Bool)
    {set : ProxyRow → ProxyRow} (hid : ∀ r, (set r).id = r.id) :
    KeepsLinks s (s.updateProxies guard set) :=
  ⟨map_updateWhere hid, .refl _⟩

theorem keepsLinks_applyVerdict (s : Store) (c : Check) (o : Outcome) (now : ℤ) :
    KeepsLinks s (applyVerdict cfg s c o now) := by
  have hfailed : ∀ jitter mark, KeepsLinks s
      (checkFailed s c.id now cfg.failLimit cfg.secondChanceMinSecs jitter mark).1 := by
    intro jitter mark
    dsimp only [checkFailed]
    split
    · exact .refl s
    · split_ifs <;> exact .updateProxies s _ fun _ => rfl
  have hladder : KeepsLinks s
      (quarantineCheckFailed s c.id now c.ladderStep cfg.recheckDelays).1 := by
    dsimp only [quarantineCheckFailed]
    split <;> exact .updateProxies s _ fun _ => rfl
  unfold applyVerdict
  split
  case h_1 | h_3 | h_5 | h_6 => exact .updateProxies s _ fun _ => rfl
  case h_2 | h_4 => exact hfailed _ _
  case h_7 | h_8 => exact hladder
  case h_9 | h_10 => exact .updateProxies s _ fun _ => rfl
  case h_11 | h_12 => exact .refl s

theorem Schema.reconcileSource (h : Schema s) {sourceId : Text} {entries : List ProxyEntry}
    {geo : List (Option GeoStamp)} {now : ℤ} {linger : Bool} {stats : ReconciliationStats}
    (hok : ProxyStore.reconcileSource lib s sourceId entries geo now linger = .ok (s', stats))
    (hkeyed : WellKeyed s') (hfingerprints : (s'.proxies.map (·.fingerprint)).Nodup) :
    Schema s' := by
  obtain ⟨ids, hids, -, hlinks, -⟩ := reconcileSource_eq_ok hok
  refine ⟨hkeyed, hfingerprints, ?_, ?_⟩
  · rw [hlinks]
    exact (nodup_stampLinks h.links).sublist (List.filter_sublist.map _)
  · intro l hl
    rw [hlinks] at hl
    rcases mem_stampLinks.mp (List.mem_of_mem_filter hl) with ⟨hold, -⟩ | ⟨hmem, -, -⟩
    · obtain ⟨r, hr, hid⟩ := h.referenced l hold
      obtain ⟨r', hr', heq⟩ := rows_reconciled hok r hr
      have hid' : r'.id = _ := congrArg (·.id) heq
      exact ⟨r', hr', hid'.trans (id_reconciled.1.trans hid)⟩
    · obtain ⟨r, hr, hid, -⟩ := (mem_ids h hids).mp hmem
      exact ⟨_, (mem_reconciled hok).mpr ⟨r, hr, rfl⟩, id_reconciled.1.trans hid⟩

theorem schema_nextStore (h : Schema s) (e : Event)
    (hfingerprints : ((nextStore lib cfg s e).proxies.map (·.fingerprint)).Nodup) :
    Schema (nextStore lib cfg s e) := by
  have hkeyed := (steps_nextStore lib cfg h.keyed e).keyed
  have hkeeps : KeepsLinks s (nextStore lib cfg s e) → Schema (nextStore lib cfg s e) :=
    fun hk => ⟨hkeyed, hfingerprints, h.links.sublist (hk.2.map _),
      referenced_of_sublist h.referenced hk.1 hk.2⟩
  cases e with
  | reconcileSource sourceId entries geo now linger =>
    simp only [nextStore] at hkeyed hfingerprints ⊢
    split at hfingerprints
    next hok => exact h.reconcileSource hok (by simpa [hok] using hkeyed) hfingerprints
    next => exact h
  | purgeRemoved =>
    refine ⟨hkeyed, hfingerprints, h.links.sublist (List.filter_sublist.map _), fun l hl => ?_⟩
    obtain ⟨hl, hkept⟩ := List.mem_filter.mp hl
    obtain ⟨r, hr, hid⟩ := h.referenced l hl
    refine ⟨r, List.mem_filter.mpr ⟨hr, ?_⟩, hid⟩
    by_contra hremoved
    simp only [Bool.not_eq_true', List.any_eq_false, Bool.and_eq_true, beq_iff_eq,
      not_and] at hkept
    exact hkept r hr hid (by simpa using hremoved)
  | deleteSource sourceId => exact hkeeps ⟨rfl, List.filter_sublist⟩
  | journal result =>
    refine hkeeps ?_
    simp only [nextStore, insertResult]
    split_ifs <;> exact .refl s
  | verdict c o now => exact hkeeps (keepsLinks_applyVerdict s c o now)
  | enqueueChecks ids limit now =>
    refine hkeeps ⟨?_, ?_⟩
    · exact congrArg (List.map _) (enqueueChunks_frame now s _ limit).1
    · exact (enqueueChunks_links now s _ limit).symm ▸ .refl _
  | resetStatus id now =>
    refine hkeeps ?_
    simp only [nextStore, resetStatus]
    split_ifs
    · have hupdated : KeepsLinks s (s.updateProxies (resettable s id) (pristineSet now)) :=
        .updateProxies s _ fun _ => rfl
      refine ⟨?_, ?_⟩
      · exact (congrArg (List.map _) (enqueueChunks_frame now _ _ 1).1).trans hupdated.1
      · exact (enqueueChunks_links now (s.updateProxies (resettable s id) (pristineSet now)) _
          1).symm ▸ .refl _
    · exact .refl s
  | reviveRemovedWithoutProbeHistory now =>
    refine hkeeps ⟨?_, .refl _⟩
    exact (map_updateWhere (by intro r; rfl)).trans (map_updateWhere (by intro r; rfl))
  | updateGeo | reviveRemoved | reviveRemovedByCountry | reviveRemovedByAsn | reviveQuarantine
  | markOrphansRemoved | quarantineToRemoved | removeAliveWithoutCountry | removeAliveByAsn
  | removeAliveByCountry | removeUnprobeableUnknown =>
    exact hkeeps (.updateProxies s _ fun _ => rfl)
  | _ => exact hkeeps (.refl s)

theorem reachable_schema {Ok : World → Event → Prop} (h : Reachable (lifecycle lib cfg) Ok w) :
    Schema w.store := by
  induction h with
  | init hinit =>
    obtain rfl := hinit
    exact ⟨⟨by simp, by simp⟩, by simp, by simp, by simp⟩
  | step hreach henabled hok ih =>
    exact schema_nextStore ih _ (reachable_identity (.step hreach henabled hok)).unique

end Runs

section Samples

def fedStore : Store :=
  nextStore sampleLibraries defaultConfig {}
    (.reconcileSource "feed" [sampleEntry "n" "a.example" []] [] 10 false)

/-- The next pass of the feed lists another proxy instead. -/
theorem reconcile_pass_sample : ∃ s' stats,
    reconcileSource sampleLibraries fedStore "feed" [sampleEntry "n" "b.example" []] [] 20 false =
      .ok (s', stats) ∧
    PassCounts fedStore s' [sampleEntry "n" "b.example" []] stats ∧
      PassResult sampleLibraries fedStore s' "feed" [sampleEntry "n" "b.example" []] 20 := by
  obtain ⟨⟨s', stats⟩, hsome⟩ := Option.isSome_iff_exists.mp (by decide +kernel :
    (reconcileSource sampleLibraries fedStore "feed" [sampleEntry "n" "b.example" []] [] 20
      false).toOption.isSome = true)
  have hok := toOption_eq_some.mp hsome
  have hschema : Schema fedStore := by
    refine ⟨⟨?_, ?_⟩, ?_, ?_, ?_⟩ <;> decide +kernel
  obtain ⟨hcounts, hresult, -⟩ := reconcile_pass hschema hok
  exact ⟨s', stats, hok, hcounts, hresult rfl (by decide +kernel)⟩

example : (match reconcileSource sampleLibraries fedStore "feed" [sampleEntry "n" "b.example" []]
    [] 20 false with
  | .ok (s', stats) => (s'.proxies.map (·.status), stats)
  | .error _ => ([], {})) = ([.removed, .unknown], ⟨1, 0, 1, 1, [2]⟩) := by
  decide +kernel

/-- A repeated entry counts twice. -/
theorem repeated_entry_counts_twice :
    ¬∀ lib s sourceId entries geo now s' stats, Schema s → (∀ l ∈ s.links, l.seenAt < now) →
      reconcileSource lib s sourceId entries geo now false = .ok (s', stats) →
        stats.inserted + stats.updated =
          ((entries.map (fingerprint lib.sha256)).dedup).length := by
  intro h
  have hschema : Schema {} := ⟨⟨by simp, by simp⟩, by simp, by simp, by simp⟩
  let entries := [sampleEntry "n" "a.example" [], sampleEntry "n" "a.example" []]
  have hrun : (reconcileSource sampleLibraries {} "feed" entries [] 10 false).toOption.map
      (fun p => p.2.inserted + p.2.updated) = some 2 := by
    decide +kernel
  obtain ⟨⟨s', stats⟩, hsome, htwo⟩ := Option.map_eq_some_iff.mp hrun
  have hok := toOption_eq_some.mp hsome
  have hone := h sampleLibraries {} "feed" entries [] 10 s' stats hschema (by simp) hok
  have hdistinct : ((entries.map (fingerprint sampleLibraries.sha256)).dedup).length = 1 := by
    decide +kernel
  dsimp only at htwo
  omega

end Samples

end ReconcilePass
