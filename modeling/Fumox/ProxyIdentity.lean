import Fumox.LaneCoverage
import Fumox.LineRoundTrip

/-!
The identity of a stored row.  Ingest splits the parameter list of an entry into two JSON maps, and
reading the row joins them again; the fingerprint survives exactly when repeated keys carry nothing
that it reads.
-/

namespace ProxyIdentity

open RustText ProxyModels ProxyFingerprint JsonValue RowTable ProxyStore ProbeLifecycle
  LifecycleSteps LifecycleInvariants TransitionRuns LaneCoverage JsonText LineParser

section Rebuild

/-- A parameter that repeats an earlier key with the same flag contributes no security pair. -/
def RepeatsAreCosmetic (entry : ProxyEntry) : Prop :=
  entry.params.Pairwise fun q p =>
    q.key = p.key → q.known = p.known → securityPair entry.scheme p = none

instance (entry : ProxyEntry) : Decidable (RepeatsAreCosmetic entry) :=
  inferInstanceAs (Decidable (List.Pairwise _ _))

def columnFields (params : List Param) (known : Bool) : List (Text × Text) :=
  (params.filter fun p => p.known == known && !p.key.isEmpty).map fun p => (p.key, p.value)

def fieldPair (scheme : Scheme) (f : Text × Text) : Option (Text × Text) :=
  securityPair scheme ⟨f.1, f.2, true⟩

def rebuiltParams (params : List Param) : List Param :=
  (splitParamsJson params true).map (fun f => ⟨f.1, f.2, true⟩) ++
    (splitParamsJson params false).map fun f => ⟨f.1, f.2, false⟩

variable {scheme : Scheme} {params : List Param}

theorem splitParamsJson_eq (params : List Param) (known : Bool) :
    splitParamsJson params known = firsts [] (columnFields params known) := by
  have h := foldl_orInsert [] (columnFields params known)
  rw [columnFields, List.foldl_map] at h
  exact h

theorem fieldPair_empty (scheme : Scheme) (value : Text) : fieldPair scheme ([], value) = none := by
  have hkey : canonicalKey scheme [] = [] := by cases scheme <;> decide
  have hcosmetic : securityParams.contains ([] : Text) = false := by decide
  simp only [fieldPair, securityPair, toAsciiLowercase_nil, hkey, hcosmetic]
  rfl

theorem filterMap_columnFields (known : Bool) :
    (columnFields params known).filterMap (fieldPair scheme) =
      (params.filter fun p => p.known == known).filterMap (securityPair scheme) := by
  unfold columnFields
  induction params with
  | nil => rfl
  | cons p params ih =>
    have hpair : fieldPair scheme (p.key, p.value) = securityPair scheme p := rfl
    by_cases hknown : p.known = known
    · by_cases hkey : p.key = []
      · have hnone : securityPair scheme p = none := by
          rw [← hpair, hkey, fieldPair_empty]
        simpa [hknown, hkey, hnone] using ih
      · cases hsec : securityPair scheme p with
        | none => simpa [hknown, hkey, hpair, hsec] using ih
        | some pair => simpa [hknown, hkey, hpair, hsec] using ih
    · simpa [hknown] using ih

theorem perm_columns (scheme : Scheme) (params : List Param) :
    ((columnFields params true).filterMap (fieldPair scheme) ++
      (columnFields params false).filterMap (fieldPair scheme)).Perm
        (params.filterMap (securityPair scheme)) := by
  have hneg : (fun p : Param => p.known == false) = fun p => !(p.known == true) := by
    funext p
    cases p.known <;> rfl
  rw [filterMap_columnFields, filterMap_columnFields, ← List.filterMap_append, hneg]
  exact (List.filter_append_perm _ params).filterMap _

theorem append_perm_iff_of_sublist {α : Type*} {a b a' b' : List α} (ha : a.Sublist a')
    (hb : b.Sublist b') : (a ++ b).Perm (a' ++ b') ↔ a = a' ∧ b = b' := by
  constructor
  · intro h
    have hlen := h.length_eq
    have hla := ha.length_le
    have hlb := hb.length_le
    simp only [List.length_append] at hlen
    exact ⟨ha.eq_of_length (by omega), hb.eq_of_length (by omega)⟩
  · rintro ⟨rfl, rfl⟩
    exact .refl _

theorem pairwise_columns :
    ((∀ known, (columnFields params known).Pairwise
      fun a b => a.1 = b.1 → fieldPair scheme b = none) ↔
      params.Pairwise fun q p => q.key = p.key → q.known = p.known →
        securityPair scheme p = none) := by
  simp only [columnFields, List.pairwise_map, List.pairwise_filter, Bool.forall_bool,
    ← List.pairwise_and_iff]
  refine List.Pairwise.iff fun q p => ?_
  have hpair : fieldPair scheme (p.key, p.value) = securityPair scheme p := rfl
  by_cases hempty : p.key = []
  · have hnone : securityPair scheme p = none := by rw [← hpair, hempty, fieldPair_empty]
    simp [hpair, hnone]
  · by_cases hkey : q.key = p.key
    · cases hq : q.known <;> cases hp : p.known <;> simp [hpair, hkey, hempty]
    · simp [hkey]

/-- The security pairs of the rebuilt list are those of the original one, in some order, exactly
when the repetitions are cosmetic. -/
theorem rebuiltParams_perm_iff :
    ((rebuiltParams params).filterMap (securityPair scheme)).Perm
        (params.filterMap (securityPair scheme)) ↔
      params.Pairwise fun q p => q.key = p.key → q.known = p.known →
        securityPair scheme p = none := by
  have hcolumns : (rebuiltParams params).filterMap (securityPair scheme) =
      (firsts [] (columnFields params true)).filterMap (fieldPair scheme) ++
        (firsts [] (columnFields params false)).filterMap (fieldPair scheme) := by
    simp only [rebuiltParams, splitParamsJson_eq, List.filterMap_append, List.filterMap_map]
    rfl
  have hsub := fun known => (firsts_sublist [] (columnFields params known)).filterMap
    (fieldPair scheme)
  rw [hcolumns, ← (perm_columns scheme params).congr_right,
    append_perm_iff_of_sublist (hsub true) (hsub false), filterMap_firsts_eq_iff,
    filterMap_firsts_eq_iff, ← pairwise_columns]
  simp [Bool.forall_bool, and_comm]

end Rebuild

section Rows

variable {lib : Libraries} {entry : ProxyEntry} {row : ProxyRow}

structure StoredFrom (lib : Libraries) (entry : ProxyEntry) (row : ProxyRow) : Prop where
  params : row.params = some (lib.json.toStr (stringObject (splitParamsJson entry.params true)))
  unknownParams :
    row.unknownParams = some (lib.json.toStr (stringObject (splitParamsJson entry.params false)))

structure Written (lib : Libraries) (entry : ProxyEntry) (row : ProxyRow) : Prop
    extends StoredFrom lib entry row where
  name : row.name = entry.name

/-- The fingerprint column belongs to some entry with the identity columns of the row. -/
def Identified (lib : Libraries) (row : ProxyRow) : Prop :=
  ∃ entry : ProxyEntry, row.fingerprint = fingerprint lib.sha256 entry ∧
    row.scheme = entry.scheme ∧ row.host = entry.host ∧ row.port = entry.port.toNat ∧
    row.credential = entry.credential

theorem paramsFromColumn_stored (hjson : lib.json.RoundTripsStrings) (params : List Param)
    (known : Bool) :
    paramsFromColumn lib.json
        (some (lib.json.toStr (stringObject (splitParamsJson params known)))) known =
      .ok ((splitParamsJson params known).map fun f => ⟨f.1, f.2, known⟩) := by
  have hdistinct : DistinctKeys (splitParamsJson params known) := by
    have h := distinctKeys_foldl_orInsert [] (columnFields params known) .nil
    rwa [columnFields, List.foldl_map] at h
  rw [paramsFromColumn, hjson _ hdistinct]
  simp [stringObject, Json.asStr]

theorem toEntry_stored (hjson : lib.json.RoundTripsStrings) (hid : Identified lib row)
    (hstored : StoredFrom lib entry row) :
    ∃ e', toEntry lib.json row = .ok e' ∧ e'.scheme = row.scheme ∧ e'.name = row.name ∧
      e'.host = row.host ∧ (e'.port.toNat : ℤ) = row.port ∧ e'.credential = row.credential ∧
        e'.params = rebuiltParams entry.params := by
  obtain ⟨first, -, -, -, hport, -⟩ := hid
  have hlt := first.port.toNat_lt
  have hrange : 0 ≤ row.port ∧ row.port < 2 ^ 16 := by omega
  let rebuilt : ProxyEntry := {
    scheme := row.scheme
    name := row.name
    host := row.host
    port := UInt16.ofNat row.port.toNat
    credential := row.credential
    params := rebuiltParams entry.params
    rawPath := []
    rawLine := row.rawLine.getD [] }
  refine ⟨rebuilt, ?_, rfl, rfl, rfl, ?_, rfl, rfl⟩
  · simp only [toEntry, hstored.params, hstored.unknownParams, paramsFromColumn_stored hjson,
      hrange, and_self, if_true]
    rfl
  · simp [rebuilt, hport]

/-- The rebuilt entry keeps the fingerprint of the row exactly when the repetitions of the stored
entry are cosmetic. -/
theorem fingerprint_toEntry_iff (hsha : Function.Injective lib.sha256)
    (hjson : lib.json.RoundTripsStrings) (hid : Identified lib row)
    (hstored : StoredFrom lib entry row)
    (hfp : row.fingerprint = fingerprint lib.sha256 entry) :
    ∃ e', toEntry lib.json row = .ok e' ∧
      (fingerprint lib.sha256 e' = row.fingerprint ↔ RepeatsAreCosmetic entry) := by
  obtain ⟨e', hok, hscheme, -, hhost, hport, hcredential, hparams⟩ :=
    toEntry_stored hjson hid hstored
  obtain ⟨first, hfirst, hscheme₁, hhost₁, hport₁, hcredential₁⟩ := hid
  -- the first entry under this fingerprint and the last one agree on the identifying fields
  have hsame : SameIdentity first entry := .of_fingerprint hsha (hfirst.symm.trans hfp)
  have hpairs : securityPairs e' = (rebuiltParams entry.params).filterMap
      (securityPair entry.scheme) := by
    rw [securityPairs, hparams, hscheme, hscheme₁, hsame.scheme]
  refine ⟨e', hok, ?_⟩
  rw [hfp]
  constructor
  · intro h
    have hsecurity := (SameIdentity.of_fingerprint hsha h).security
    rw [hpairs] at hsecurity
    exact rebuiltParams_perm_iff.mp hsecurity
  · intro h
    refine SameIdentity.fingerprint_eq ⟨?_, ?_, ?_, ?_, ?_⟩
    · rw [hscheme, hscheme₁, hsame.scheme]
    · rw [hhost, hhost₁, hsame.host]
    · have hnat : e'.port.toNat = first.port.toNat := by omega
      rw [UInt16.toNat_inj.mp hnat, hsame.port]
    · rw [hcredential, hcredential₁, hsame.credential]
    · rw [hpairs]
      exact rebuiltParams_perm_iff.mpr h

end Rows

section Content

variable {lib : Libraries} {cfg : ProbeConfig} {s s' : Store} {row : ProxyRow}

/-- A row without the columns that the lifecycle, the probe and the geo passes own. -/
def content (row : ProxyRow) : ProxyRow :=
  { row with
    toLifecycle := {}
    geoCountry := none
    geoCity := none
    geoAsn := none
    lastCheckedAt := none
    lastAliveAt := none
    latencyMs := none
    updatedAt := 0 }

/-- The step changes no content and adds no row. -/
def Frames (s s' : Store) : Prop :=
  (s'.proxies.map content).Sublist (s.proxies.map content)

theorem Frames.of_eq (h : s'.proxies = s.proxies) : Frames s s' := by
  rw [Frames, h]

theorem Frames.trans {s'' : Store} (h : Frames s s') (h' : Frames s' s'') : Frames s s'' :=
  List.Sublist.trans h' h

theorem Frames.updateProxies (s : Store) (guard : ProxyRow → Bool) {set : ProxyRow → ProxyRow}
    (hset : ∀ r, content (set r) = content r) : Frames s (s.updateProxies guard set) := by
  rw [Frames, Store.proxies_updateProxies, map_updateWhere hset]

theorem frames_applyVerdict (s : Store) (c : Check) (o : Outcome) (now : ℤ) :
    Frames s (applyVerdict cfg s c o now) := by
  have hsucceeded : ∀ latencyMs reset tier,
      Frames s (checkSucceeded s c.id now latencyMs reset tier).1 :=
    fun _ _ _ => .updateProxies s _ fun _ => rfl
  have hfailed : ∀ jitter mark,
      Frames s (checkFailed s c.id now cfg.failLimit cfg.secondChanceMinSecs jitter mark).1 := by
    intro jitter mark
    dsimp only [checkFailed]
    split
    · exact .of_eq rfl
    · split_ifs
      · exact .updateProxies s _ fun _ => rfl
      · exact .updateProxies s _ fun _ => rfl
  have hladder : Frames s
      (quarantineCheckFailed s c.id now c.ladderStep cfg.recheckDelays).1 := by
    dsimp only [quarantineCheckFailed]
    split
    · exact .updateProxies s _ fun _ => rfl
    · exact .updateProxies s _ fun _ => rfl
  have hengine : Frames s (checkEngineUnavailable s c.id now).1 :=
    .updateProxies s _ fun _ => rfl
  unfold applyVerdict
  split
  case h_1 | h_3 | h_5 | h_6 => exact hsucceeded _ _ _
  case h_2 | h_4 => exact hfailed _ _
  case h_7 | h_8 => exact hladder
  case h_9 | h_10 => exact hengine
  case h_11 | h_12 => exact .of_eq rfl

/-- Every event but a reconciliation keeps the content of the rows it keeps. -/
theorem frames_nextStore (s : Store) {e : Event}
    (he : ∀ sourceId entries geo now linger,
      e ≠ .reconcileSource sourceId entries geo now linger) :
    Frames s (nextStore lib cfg s e) := by
  cases e with
  | reconcileSource => exact absurd rfl (he _ _ _ _ _)
  | journal result =>
    simp only [nextStore, insertResult]
    split_ifs
    · exact .of_eq rfl
    · exact .of_eq rfl
  | verdict c o now => exact frames_applyVerdict s c o now
  | enqueueChecks ids limit now => exact .of_eq (enqueueChunks_frame _ s _ _).1
  | resetStatus id now =>
    simp only [nextStore, resetStatus]
    split_ifs
    · have hreset : Frames s (s.updateProxies (resettable s id) (pristineSet now)) :=
        .updateProxies s _ fun _ => rfl
      exact hreset.trans (.of_eq (enqueueChunks_frame _ _ _ _).1)
    · exact .of_eq rfl
  | reviveRemovedWithoutProbeHistory now =>
    have hwrite : ∀ (s : Store) (guard : ProxyRow → Bool),
        Frames s (s.updateProxies guard (pristineSet now)) ∧
          Frames s (s.updateProxies guard (resetSet now)) :=
      fun s guard => ⟨.updateProxies s guard fun _ => rfl, .updateProxies s guard fun _ => rfl⟩
    exact (hwrite s _).1.trans (hwrite _ _).2
  | purgeRemoved => exact List.filter_sublist.map content
  | updateGeo | reviveRemoved | reviveRemovedByCountry | reviveRemovedByAsn | reviveQuarantine
  | markOrphansRemoved | quarantineToRemoved | removeAliveWithoutCountry | removeAliveByAsn
  | removeAliveByCountry | removeUnprobeableUnknown =>
    exact .updateProxies s _ fun _ => rfl
  | _ => exact .of_eq rfl

theorem Frames.mem (h : Frames s s') (hrow : row ∈ s'.proxies) :
    ∃ r ∈ s.proxies, content r = content row :=
  List.mem_map.mp (h.subset (List.mem_map_of_mem hrow))

end Content

section Runs

variable {lib : Libraries} {cfg : ProbeConfig} {s s' s₀ : Store} {w : World} {now : ℤ}

structure IdentityInvariant (lib : Libraries) (s : Store) : Prop where
  unique : (s.proxies.map (·.fingerprint)).Nodup
  identified : ∀ r ∈ s.proxies, Identified lib r

theorem IdentityInvariant.frame (h : IdentityInvariant lib s) (hframe : Frames s s') :
    IdentityInvariant lib s' where
  unique := by
    have hsub : (s'.proxies.map (·.fingerprint)).Sublist (s.proxies.map (·.fingerprint)) := by
      have hmap := hframe.map (·.fingerprint)
      rw [List.map_map, List.map_map] at hmap
      exact hmap
    exact h.unique.sublist hsub
  identified := by
    intro r' hr'
    obtain ⟨r, hr, hcontent⟩ := hframe.mem hr'
    have hid : Identified lib (content r) := h.identified r hr
    rw [hcontent] at hid
    exact hid

/-- The entry of a batch whose parameters a row keeps: the last one under its fingerprint. -/
def storedEntry (lib : Libraries) (fp : Text) : List ProxyEntry → Option ProxyEntry
  | [] => none
  | entry :: entries =>
    storedEntry lib fp entries <|> if fingerprint lib.sha256 entry = fp then some entry else none

/-- Where the parameters of a row come from after the upserts of a batch. -/
def ParamsFrom (lib : Libraries) (s₀ : Store) (entries : List ProxyEntry) (row : ProxyRow) : Prop :=
  match storedEntry lib row.fingerprint entries with
  | some entry => StoredFrom lib entry row
  | none => ∃ r ∈ s₀.proxies, content r = content row

def WrittenFrom (lib : Libraries) (s₀ : Store) (entries : List ProxyEntry) (row : ProxyRow) : Prop :=
  match storedEntry lib row.fingerprint entries with
  | some entry => Written lib entry row
  | none => ∃ r ∈ s₀.proxies, content r = content row

theorem Written.of_content {entry : ProxyEntry} {row row' : ProxyRow} (h : Written lib entry row)
    (hcontent : content row = content row') : Written lib entry row' := by
  have h' : Written lib entry (content row) := ⟨⟨h.params, h.unknownParams⟩, h.name⟩
  rw [hcontent] at h'
  exact ⟨⟨h'.params, h'.unknownParams⟩, h'.name⟩

theorem StoredFrom.fingerprint {lib : Libraries} {fp : Text} {entries : List ProxyEntry}
    {entry : ProxyEntry} (h : storedEntry lib fp entries = some entry) :
    fp = ProxyFingerprint.fingerprint lib.sha256 entry ∧ entry ∈ entries := by
  induction entries with
  | nil => simp [storedEntry] at h
  | cons first entries ih =>
    unfold storedEntry at h
    cases hrest : storedEntry lib fp entries with
    | some e =>
      rw [hrest] at h
      obtain rfl : e = entry := by simpa using h
      obtain ⟨hfp, hmem⟩ := ih hrest
      exact ⟨hfp, List.mem_cons_of_mem _ hmem⟩
    | none =>
      rw [hrest] at h
      by_cases hfirst : ProxyFingerprint.fingerprint lib.sha256 first = fp
      · obtain rfl : first = entry := by simpa [hfirst] using h
        exact ⟨hfirst.symm, List.mem_cons_self⟩
      · simp [hfirst] at h

theorem storedEntry_isSome {fp : Text} {entries : List ProxyEntry} {entry : ProxyEntry}
    (hmem : entry ∈ entries) (hfp : fingerprint lib.sha256 entry = fp) :
    ∃ e, storedEntry lib fp entries = some e := by
  induction entries with
  | nil => simp at hmem
  | cons first entries ih =>
    unfold storedEntry
    cases hrest : storedEntry lib fp entries with
    | some e => exact ⟨e, by simp⟩
    | none =>
      rcases List.mem_cons.mp hmem with rfl | hmem
      · exact ⟨entry, by simp [hfp]⟩
      · obtain ⟨e, he⟩ := ih hmem
        simp [hrest] at he

theorem fingerprints_onConflict (s : Store) (guard : ProxyRow → Bool) (row : ProxyRow) :
    (s.updateProxies guard (onConflict row)).proxies.map (·.fingerprint) =
      s.proxies.map (·.fingerprint) :=
  map_updateWhere fun _ => rfl

theorem upsertEntry_identity (h : IdentityInvariant lib s) (entry : ProxyEntry)
    (stamp : GeoStamp) : IdentityInvariant lib (upsertEntry lib s entry stamp now) := by
  dsimp only [upsertEntry]
  split_ifs with hany
  · refine ⟨?_, ?_⟩
    · rw [fingerprints_onConflict]
      exact h.unique
    · intro r hr
      rcases mem_updateWhere_cases hr with ⟨hr, -⟩ | ⟨r₁, hr₁, -, rfl⟩
      · exact h.identified r hr
      · exact h.identified r₁ hr₁
  · refine ⟨?_, ?_⟩
    · rw [List.map_append, List.nodup_append]
      refine ⟨h.unique, by simp, ?_⟩
      rintro a ha b hb rfl
      obtain ⟨r, hr, rfl⟩ := List.mem_map.mp ha
      refine hany (List.any_eq_true.mpr ⟨r, hr, ?_⟩)
      simpa using hb
    · intro r hr
      rcases List.mem_append.mp hr with hr | hr
      · exact h.identified r hr
      · obtain rfl := List.mem_singleton.mp hr
        exact ⟨entry, rfl, rfl, rfl, rfl, rfl⟩

/-- After one upsert, the row under the entry's fingerprint is written from it and every other row
is an old one. -/
theorem mem_upsertEntry (entry : ProxyEntry) (stamp : GeoStamp) {row : ProxyRow}
    (hrow : row ∈ (upsertEntry lib s entry stamp now).proxies) :
    (row.fingerprint = fingerprint lib.sha256 entry ∧ Written lib entry row) ∨
      (row.fingerprint ≠ fingerprint lib.sha256 entry ∧ row ∈ s.proxies) := by
  dsimp only [upsertEntry] at hrow
  split_ifs at hrow with hany
  · rcases mem_updateWhere_cases hrow with ⟨hrow, hguard⟩ | ⟨r, hr, hguard, rfl⟩
    · exact .inr ⟨by simpa [insertedRow] using hguard, hrow⟩
    · exact .inl ⟨by simpa [insertedRow, onConflict] using hguard, ⟨rfl, rfl⟩, rfl⟩
  · rcases List.mem_append.mp hrow with hrow | hrow
    · refine .inr ⟨fun hfp => hany (List.any_eq_true.mpr ⟨row, hrow, ?_⟩), hrow⟩
      simpa [insertedRow] using hfp
    · obtain rfl := List.mem_singleton.mp hrow
      exact .inl ⟨rfl, ⟨rfl, rfl⟩, rfl⟩

theorem upsertEntries_identity (h : IdentityInvariant lib s) (entries : List ProxyEntry)
    (geo : List (Option GeoStamp)) :
    IdentityInvariant lib (upsertEntries lib now s entries geo) := by
  induction entries generalizing s geo with
  | nil => exact h
  | cons entry entries ih => exact ih (upsertEntry_identity h entry _) geo.tail

theorem upsertEntries_written (entries : List ProxyEntry) (geo : List (Option GeoStamp))
    {row : ProxyRow} (hrow : row ∈ (upsertEntries lib now s entries geo).proxies) :
    WrittenFrom lib s entries row := by
  induction entries generalizing s geo with
  | nil => exact ⟨row, hrow, rfl⟩
  | cons entry entries ih =>
    have hrest := ih geo.tail hrow
    unfold WrittenFrom at hrest ⊢
    rw [storedEntry]
    cases hstored : storedEntry lib row.fingerprint entries with
    | some e =>
      rw [hstored] at hrest
      exact hrest
    | none =>
      rw [hstored] at hrest
      obtain ⟨r, hr, hcontent⟩ := hrest
      have hfp : r.fingerprint = row.fingerprint := congrArg (·.fingerprint) hcontent
      rcases mem_upsertEntry entry _ hr with ⟨hsame, hwritten⟩ | ⟨hother, hold⟩
      · simp only [hfp.symm.trans hsame, if_true]
        exact hwritten.of_content hcontent
      · rw [if_neg fun h => hother (hfp.trans h.symm)]
        exact ⟨r, hold, hcontent⟩

theorem upsertEntries_params (entries : List ProxyEntry) (geo : List (Option GeoStamp))
    {row : ProxyRow} (hrow : row ∈ (upsertEntries lib now s entries geo).proxies) :
    ParamsFrom lib s entries row := by
  have hwritten := upsertEntries_written entries geo hrow
  unfold ParamsFrom
  unfold WrittenFrom at hwritten
  split at hwritten
  next hstored => simpa [hstored] using hwritten.toStoredFrom
  next hnone => simpa [hnone] using hwritten

theorem mem_fingerprints_upsertEntries {fp : Text} (entries : List ProxyEntry)
    (geo : List (Option GeoStamp))
    (h : fp ∈ s.proxies.map (·.fingerprint) ∨ ∃ e ∈ entries, fingerprint lib.sha256 e = fp) :
    fp ∈ (upsertEntries lib now s entries geo).proxies.map (·.fingerprint) := by
  induction entries generalizing s geo with
  | nil => simpa [upsertEntries] using h
  | cons entry entries ih =>
    refine ih geo.tail ?_
    have hkeep : fp ∈ s.proxies.map (·.fingerprint) ∨ fingerprint lib.sha256 entry = fp →
        fp ∈ (upsertEntry lib s entry (geo.head?.join.getD {}) now).proxies.map
          (·.fingerprint) := by
      intro h
      dsimp only [upsertEntry]
      split_ifs with hany
      · rw [fingerprints_onConflict]
        rcases h with h | h
        · exact h
        · obtain ⟨r, hr, hfp⟩ := List.any_eq_true.mp hany
          refine List.mem_map.mpr ⟨r, hr, ?_⟩
          rw [← h]
          simpa [insertedRow] using hfp
      · rcases h with h | h
        · simp [h]
        · simp [insertedRow, h]
    rcases h with h | ⟨e, he, hfp⟩
    · exact .inl (hkeep (.inl h))
    · rcases List.mem_cons.mp he with rfl | he
      · exact .inl (hkeep (.inr hfp))
      · exact .inr ⟨e, he, hfp⟩

theorem content_reconcileSource {sourceId : Text} {entries : List ProxyEntry}
    {geo : List (Option GeoStamp)} {linger : Bool} {stats : ReconciliationStats}
    (hok : reconcileSource lib s sourceId entries geo now linger = .ok (s', stats)) :
    s'.proxies.map content = (upsertEntries lib now s entries geo).proxies.map content := by
  unfold reconcileSource at hok
  split at hok
  · cases hok
  dsimp only at hok
  split at hok
  · cases hok
  · obtain ⟨rfl, -⟩ := Prod.mk.inj (Except.ok.inj hok)
    cases linger with
    | true => rfl
    | false =>
      simp only [Bool.false_eq_true, if_false, Store.proxies_updateProxies]
      exact map_updateWhere fun _ => rfl

theorem frames_reconcileSource {sourceId : Text} {entries : List ProxyEntry}
    {geo : List (Option GeoStamp)} {linger : Bool} {stats : ReconciliationStats}
    (hok : reconcileSource lib s sourceId entries geo now linger = .ok (s', stats)) :
    Frames (upsertEntries lib now s entries geo) s' := by
  rw [Frames, content_reconcileSource hok]

theorem step_preserves_identity (h : IdentityInvariant lib s) (e : Event) :
    IdentityInvariant lib (nextStore lib cfg s e) := by
  by_cases he : ∃ sourceId entries geo now linger,
      e = .reconcileSource sourceId entries geo now linger
  · obtain ⟨sourceId, entries, geo, now, linger, rfl⟩ := he
    simp only [nextStore]
    split
    next hok => exact (upsertEntries_identity h entries geo).frame (frames_reconcileSource hok)
    next => exact h
  · push Not at he
    exact h.frame (frames_nextStore s he)

theorem reachable_identity {Ok : World → Event → Prop}
    (h : Reachable (lifecycle lib cfg) Ok w) : IdentityInvariant lib w.store := by
  refine h.invariant (fun w => IdentityInvariant lib w.store) ?_ fun w e hw _ _ =>
    step_preserves_identity hw e
  rintro w rfl
  exact ⟨by simp, by simp⟩

theorem exists_stored_row (h : IdentityInvariant lib s) {sourceId : Text}
    {entries : List ProxyEntry} {geo : List (Option GeoStamp)} {linger : Bool}
    {stats : ReconciliationStats}
    (hok : reconcileSource lib s sourceId entries geo now linger = .ok (s', stats))
    {e : ProxyEntry} (he : e ∈ entries) :
    ∃ r ∈ s'.proxies, r.fingerprint = fingerprint lib.sha256 e ∧ Identified lib r ∧
      ∃ stored, storedEntry lib (fingerprint lib.sha256 e) entries = some stored ∧
        Written lib stored r := by
  have hkeys : fingerprint lib.sha256 e ∈
      (upsertEntries lib now s entries geo).proxies.map (·.fingerprint) :=
    mem_fingerprints_upsertEntries entries geo (.inr ⟨e, he, rfl⟩)
  obtain ⟨r₁, hr₁, hfp⟩ := List.mem_map.mp hkeys
  have hwritten := upsertEntries_written entries geo hr₁
  obtain ⟨stored, hstored⟩ := storedEntry_isSome he hfp.symm
  rw [WrittenFrom, hstored] at hwritten
  have hmem : content r₁ ∈ s'.proxies.map content := by
    rw [content_reconcileSource hok]
    exact List.mem_map_of_mem hr₁
  obtain ⟨r, hr, hcontent⟩ := List.mem_map.mp hmem
  have hfp' : (content r).fingerprint = fingerprint lib.sha256 e := hcontent ▸ hfp
  have hidentified := ((upsertEntries_identity h entries geo).frame
    (frames_reconcileSource hok)).identified r hr
  exact ⟨r, hr, hfp', hidentified, stored, hfp ▸ hstored, hwritten.of_content hcontent.symm⟩

def Faithful (lib : Libraries) (row : ProxyRow) : Prop :=
  ∃ e', toEntry lib.json row = .ok e' ∧ fingerprint lib.sha256 e' = row.fingerprint

theorem Faithful.of_content {row row' : ProxyRow} (h : Faithful lib row)
    (hcontent : content row = content row') : Faithful lib row' := by
  have h' : Faithful lib (content row) := h
  rw [hcontent] at h'
  exact h'

def IngestsCosmeticRepeats (_ : World) : Event → Prop
  | .reconcileSource _ entries _ _ _ => ∀ e ∈ entries, RepeatsAreCosmetic e
  | _ => True

theorem reachable_faithful (hsha : Function.Injective lib.sha256)
    (hjson : lib.json.RoundTripsStrings)
    (h : Reachable (lifecycle lib cfg) IngestsCosmeticRepeats w) :
    ∀ r ∈ w.store.proxies, Faithful lib r := by
  have hboth : IdentityInvariant lib w.store ∧ ∀ r ∈ w.store.proxies, Faithful lib r := by
    refine h.invariant (fun w => IdentityInvariant lib w.store ∧
      ∀ r ∈ w.store.proxies, Faithful lib r) ?_ ?_
    · rintro w rfl
      exact ⟨⟨by simp, by simp⟩, by simp⟩
    · rintro w e ⟨hid, hfaithful⟩ - hok
      refine ⟨step_preserves_identity hid e, ?_⟩
      by_cases he : ∃ sourceId entries geo now linger,
          e = .reconcileSource sourceId entries geo now linger
      · obtain ⟨sourceId, entries, geo, now, linger, rfl⟩ := he
        intro r' hr'
        simp only [lifecycle, nextStore] at hr'
        split at hr'
        next hreconciled =>
          obtain ⟨r, hr, hcontent⟩ := (frames_reconcileSource hreconciled).mem hr'
          refine Faithful.of_content ?_ hcontent
          have hparams := upsertEntries_params entries geo hr
          unfold ParamsFrom at hparams
          split at hparams
          next entry hstored =>
            obtain ⟨hfp, hmem⟩ := StoredFrom.fingerprint hstored
            obtain ⟨e', hentry, hiff⟩ := fingerprint_toEntry_iff hsha hjson
              ((upsertEntries_identity hid entries geo).identified r hr) hparams hfp
            exact ⟨e', hentry, hiff.mpr (hok entry hmem)⟩
          next =>
            obtain ⟨r₀, hr₀, hcontent₀⟩ := hparams
            exact (hfaithful r₀ hr₀).of_content hcontent₀
        next => exact hfaithful r' hr'
      · push Not at he
        intro r' hr'
        obtain ⟨r, hr, hcontent⟩ := (frames_nextStore w.store he).mem hr'
        exact (hfaithful r hr).of_content hcontent
  exact hboth.2

/-- A stored row rebuilds an entry with the fingerprint of what was ingested exactly when the
entry that it holds repeats no key that the fingerprint reads; while ingest stores only such
entries, recomputed fingerprints tell rows apart as the column does. -/
theorem stored_row_identity (hsha : Function.Injective lib.sha256)
    (hjson : lib.json.RoundTripsStrings) :
    (∀ w, Reachable (lifecycle lib cfg) Any w →
      ∀ sourceId entries geo now linger s' stats,
        reconcileSource lib w.store sourceId entries geo now linger = .ok (s', stats) →
        ∀ e ∈ entries, ∃ r ∈ s'.proxies, r.fingerprint = fingerprint lib.sha256 e ∧
          ∃ stored, storedEntry lib (fingerprint lib.sha256 e) entries = some stored ∧
            ∃ e', toEntry lib.json r = .ok e' ∧
              (fingerprint lib.sha256 e' = fingerprint lib.sha256 e ↔
                RepeatsAreCosmetic stored)) ∧
    (∀ w, Reachable (lifecycle lib cfg) IngestsCosmeticRepeats w →
      ∀ r₁ ∈ w.store.proxies, ∀ r₂ ∈ w.store.proxies, ∀ e₁ e₂,
        toEntry lib.json r₁ = .ok e₁ → toEntry lib.json r₂ = .ok e₂ →
          (fingerprint lib.sha256 e₁ = fingerprint lib.sha256 e₂ ↔ r₁ = r₂)) := by
  constructor
  · intro w hw sourceId entries geo now linger s' stats hok e he
    obtain ⟨r, hr, hfp, hid, stored, hstored, hwritten⟩ :=
      exists_stored_row (reachable_identity hw) hok he
    obtain ⟨e', hentry, hiff⟩ := fingerprint_toEntry_iff hsha hjson hid hwritten.toStoredFrom
      (hfp.trans (StoredFrom.fingerprint hstored).1)
    rw [hfp] at hiff
    exact ⟨r, hr, hfp, stored, hstored, e', hentry, hiff⟩
  · intro w hw r₁ hr₁ r₂ hr₂ e₁ e₂ he₁ he₂
    obtain ⟨e₁', he₁', hfp₁⟩ := reachable_faithful hsha hjson hw r₁ hr₁
    obtain ⟨e₂', he₂', hfp₂⟩ := reachable_faithful hsha hjson hw r₂ hr₂
    obtain rfl := Except.ok.inj (he₁.symm.trans he₁')
    obtain rfl := Except.ok.inj (he₂.symm.trans he₂')
    rw [hfp₁, hfp₂]
    constructor
    · intro h
      exact List.inj_on_of_nodup_map (reachable_identity hw).unique hr₁ hr₂ h
    · rintro rfl
      rfl

theorem stored_row_identity_sample :
    ∃ s' stats, reconcileSource sampleLibraries {} "feed"
        [sampleEntry "node" "example.com" [⟨"sni", "a", true⟩]] [] 1000 true = .ok (s', stats) ∧
      ∃ r ∈ s'.proxies, ∃ e', toEntry stringCodec r = .ok e' ∧
        fingerprint sampleDigest e' =
          fingerprint sampleDigest (sampleEntry "node" "example.com" [⟨"sni", "a", true⟩]) := by
  obtain ⟨⟨s', stats⟩, hsome⟩ := Option.isSome_iff_exists.mp (by decide +kernel :
    (reconcileSource sampleLibraries {} "feed"
      [sampleEntry "node" "example.com" [⟨"sni", "a", true⟩]] [] 1000 true).toOption.isSome = true)
  have hok := toOption_eq_some.mp hsome
  refine ⟨s', stats, hok, ?_⟩
  have hrun : Reachable (lifecycle sampleLibraries defaultConfig) Any {} := .init rfl
  obtain ⟨r, hr, -, stored, hstored, e', hentry, hiff⟩ :=
    (stored_row_identity sampleDigest_injective stringCodec_roundTrips).1 {} hrun _ _ _ _ _ _ _ hok _
      List.mem_cons_self
  refine ⟨r, hr, e', hentry, hiff.mpr ?_⟩
  have hsame : storedEntry sampleLibraries (fingerprint sampleDigest (sampleEntry "node"
      "example.com" [⟨"sni", "a", true⟩])) [sampleEntry "node" "example.com" [⟨"sni", "a", true⟩]] =
        some (sampleEntry "node" "example.com" [⟨"sni", "a", true⟩]) := by decide +kernel
  obtain rfl := Option.some.inj (hsame.symm.trans hstored)
  decide

def repeatedKeyLine : Text := "vless://u@example.com:443?sni=a&sni=b"

theorem repeated_key_splits_row :
    ¬∀ lib codecs cfg w line entry, Function.Injective lib.sha256 →
      lib.json.RoundTripsStrings → parseLine codecs line = .parsed entry →
        Reachable (lifecycle lib cfg) Any w → ∀ sourceId geo now linger s' stats,
          reconcileSource lib w.store sourceId [entry] geo now linger = .ok (s', stats) →
            ∀ r ∈ s'.proxies, r.fingerprint = fingerprint lib.sha256 entry →
              ∀ e', toEntry lib.json r = .ok e' →
                fingerprint lib.sha256 e' = fingerprint lib.sha256 entry := by
  intro h
  set entry : ProxyEntry := ⟨.vless, [], "example.com", 443, "u",
    [⟨"sni", "a", true⟩, ⟨"sni", "b", true⟩], [], repeatedKeyLine⟩ with hentry
  have hrun : ((reconcileSource sampleLibraries {} "feed" [entry] [] 1000 true).toOption.any
      fun p => p.1.proxies.any fun r => r.fingerprint == fingerprint sampleDigest entry &&
        (toEntry stringCodec r).toOption.any fun e' =>
          fingerprint sampleDigest e' != fingerprint sampleDigest entry) = true := by
    decide +kernel
  obtain ⟨⟨s', stats⟩, hok, hrow⟩ := (Option.any_eq_true _ _).mp hrun
  obtain ⟨r, hr, hrow⟩ := List.any_eq_true.mp hrow
  obtain ⟨hfp, hread⟩ := Bool.and_eq_true_iff.mp hrow
  obtain ⟨e', hread, hne⟩ := (Option.any_eq_true _ _).mp hread
  have heq := h sampleLibraries LineRoundTrip.sampleCodecs defaultConfig {} repeatedKeyLine entry
    sampleDigest_injective stringCodec_roundTrips (by decide +kernel) (.init rfl) "feed" [] 1000
    true s' stats (toOption_eq_some.mp hok) r hr (beq_iff_eq.mp hfp) e'
    (toOption_eq_some.mp hread)
  exact bne_iff_ne.mp hne heq

end Runs

end ProxyIdentity
