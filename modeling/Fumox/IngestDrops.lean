import Fumox.PipelineSteps
import Fumox.ProxyIdentity

/-!
The drop rules on the two sides of the store.  Ingest reads the entry of a payload, serving the
candidate that its row gives back; the verdicts differ exactly by the values that storing loses.
-/

namespace IngestDrops

open RustText ProxyModels ProxyFingerprint JsonValue PipelineConfig PipelineSteps ProxyStore
  ProbeLifecycle LifecycleSteps TransitionRuns ProxyIdentity

section Ingest

variable (engines : Engines)

def discards (entry : ProxyEntry) (stamp : Option GeoStamp) : CompiledDrop engines.Regex → Bool
  | .regex regex target => matchesTarget engines entry regex target
  | .asn asns => ((stamp.bind (·.asn)).bind asnNumber).any asns.contains

def dropSurvivors (pipeline : CompiledPipeline engines.Regex) (entries : List ProxyEntry)
    (geo : List (Option GeoStamp)) : List Bool :=
  entries.zipIdx.map fun x => !pipeline.drop.any (discards engines x.1 geo[x.2]?.join)

def dropEntriesWithGeo (pipeline : CompiledPipeline engines.Regex) (entries : List ProxyEntry)
    (geo : List (Option GeoStamp)) : List ProxyEntry × List (Option GeoStamp) :=
  if pipeline.drop.isEmpty then (entries, geo)
  else
    let survivors := dropSurvivors engines pipeline entries geo
    let kept := entries.zipIdx.filter fun x => survivors[x.2]?.getD false
    (kept.map fun x => x.1, kept.map fun x => geo[x.2]?.join)

def applyDropRules (pipeline : Option Json) (entries : List ProxyEntry)
    (geo : List (Option GeoStamp)) :
    Except Text (List ProxyEntry × List (Option GeoStamp) × ℕ) :=
  match pipeline with
  | none => .ok (entries, geo, 0)
  | some value =>
    match fromJson engines (some value) with
    | .error _ => .error "pipeline config failed validation; refusing to ingest"
    | .ok compiled =>
      if compiled.drop.isEmpty then .ok (entries, geo, 0)
      else
        let (after, afterGeo) := dropEntriesWithGeo engines compiled entries geo
        .ok (after, afterGeo, entries.length - after.length)

end Ingest

inductive Subject where
  | name (value : Text)
  | host (value : Text)
  | port (value : UInt16)
  | param (key value : Text)
  deriving DecidableEq, Repr

def subjects (entry : ProxyEntry) : List Subject :=
  .name entry.name :: .host entry.host :: .port entry.port ::
    entry.params.map fun p => .param p.key p.value

section Hits

variable (engines : Engines)

def targetHits (regex : engines.Regex) : RenameTarget → Subject → Bool
  | .name, .name value => engines.isMatch regex value
  | .host, .host value => engines.isMatch regex value
  | .port, .port value => engines.isMatch regex (decimal value.toNat)
  | .param key, .param key' value => eqIgnoreAsciiCase key' key && engines.isMatch regex value
  | _, _ => false

def Hit (pipeline : CompiledPipeline engines.Regex) (v : Subject) : Prop :=
  ∃ regex target, CompiledDrop.regex regex target ∈ pipeline.drop ∧
    targetHits engines regex target v = true

def WithoutAsnRules (pipeline : CompiledPipeline engines.Regex) : Prop :=
  ∀ rule ∈ pipeline.drop, ∀ asns, rule ≠ .asn asns

def droppedServing (env : Environment) (pipeline : Pipeline env) (c : Candidate) : Bool :=
  pipeline.drop.any (dropMatches env.engines (fillMissingAsn env c))

/-- What an entry is read back as: the parameters that its columns keep, behind the host of its
row. -/
def storedForm (stored : ProxyEntry) (host : Text) : ProxyEntry :=
  { stored with host, params := rebuiltParams stored.params }

/-- No value on one side only decides: where a rule hits what storing loses or brings in, a rule
hits a value of the other side as well. -/
structure DecidedByKept (pipeline : CompiledPipeline engines.Regex) (entry kept : ProxyEntry) :
    Prop where
  lost : ∀ v ∈ subjects entry, v ∉ subjects kept → Hit engines pipeline v →
    ∃ v' ∈ subjects kept, Hit engines pipeline v'
  gained : ∀ v ∈ subjects kept, v ∉ subjects entry → Hit engines pipeline v →
    ∃ v' ∈ subjects entry, Hit engines pipeline v'

end Hits

section Verdicts

variable {engines : Engines} {pipeline : CompiledPipeline engines.Regex} {entry : ProxyEntry}

theorem matchesTarget_eq (regex : engines.Regex) (target : RenameTarget) :
    matchesTarget engines entry regex target =
      (subjects entry).any (targetHits engines regex target) := by
  cases target with
  | name => simp [matchesTarget, subjects, targetHits, List.any_map]
  | host => simp [matchesTarget, subjects, targetHits, List.any_map]
  | port => simp [matchesTarget, subjects, targetHits, List.any_map]
  | param key => simp [matchesTarget, subjects, targetHits, List.any_map, Function.comp_def]

theorem any_rule_iff {verdict : CompiledDrop engines.Regex → Bool}
    (hasn : WithoutAsnRules engines pipeline)
    (hverdict : ∀ regex target,
      verdict (.regex regex target) = matchesTarget engines entry regex target) :
    pipeline.drop.any verdict = true ↔ ∃ v ∈ subjects entry, Hit engines pipeline v := by
  rw [List.any_eq_true]
  constructor
  · rintro ⟨rule, hrule, hmatch⟩
    cases rule with
    | asn asns => exact absurd rfl (hasn _ hrule asns)
    | regex regex target =>
      rw [hverdict, matchesTarget_eq, List.any_eq_true] at hmatch
      obtain ⟨v, hv, hhit⟩ := hmatch
      exact ⟨v, hv, regex, target, hrule, hhit⟩
  · rintro ⟨v, hv, regex, target, hrule, hhit⟩
    refine ⟨_, hrule, ?_⟩
    rw [hverdict, matchesTarget_eq, List.any_eq_true]
    exact ⟨v, hv, hhit⟩

theorem discards_iff (hasn : WithoutAsnRules engines pipeline) (stamp : Option GeoStamp) :
    pipeline.drop.any (discards engines entry stamp) = true ↔
      ∃ v ∈ subjects entry, Hit engines pipeline v :=
  any_rule_iff hasn fun _ _ => rfl

theorem entry_fillMissingAsn (env : Environment) (c : Candidate) :
    (fillMissingAsn env c).entry = c.entry := by
  unfold fillMissingAsn
  split_ifs
  · rfl
  · split <;> rfl

theorem droppedServing_iff {env : Environment} {pipeline : Pipeline env}
    (hasn : WithoutAsnRules env.engines pipeline) (c : Candidate) :
    droppedServing env pipeline c = true ↔
      ∃ v ∈ subjects c.entry, Hit env.engines pipeline v := by
  refine any_rule_iff hasn fun regex target => ?_
  rw [dropMatches, entry_fillMissingAsn]

theorem decidedByKept_iff {kept : ProxyEntry} :
    ((∃ v ∈ subjects entry, Hit engines pipeline v) ↔ ∃ v ∈ subjects kept, Hit engines pipeline v) ↔
      DecidedByKept engines pipeline entry kept := by
  constructor
  · intro h
    exact ⟨fun v hv _ hhit => h.mp ⟨v, hv, hhit⟩, fun v hv _ hhit => h.mpr ⟨v, hv, hhit⟩⟩
  · intro h
    constructor
    · rintro ⟨v, hv, hhit⟩
      by_cases hkept : v ∈ subjects kept
      · exact ⟨v, hkept, hhit⟩
      · exact h.lost v hv hkept hhit
    · rintro ⟨v, hv, hhit⟩
      by_cases hentry : v ∈ subjects entry
      · exact ⟨v, hentry, hhit⟩
      · exact h.gained v hv hentry hhit

end Verdicts

section Survivors

variable {engines : Engines} {pipeline : CompiledPipeline engines.Regex}
  {entries kept : List ProxyEntry} {geo keptGeo : List (Option GeoStamp)} {dropped : ℕ}

theorem getElem?_dropSurvivors {entry : ProxyEntry} {idx : ℕ} (h : entries[idx]? = some entry) :
    (dropSurvivors engines pipeline entries geo)[idx]? =
      some (!pipeline.drop.any (discards engines entry geo[idx]?.join)) := by
  simp only [dropSurvivors, List.getElem?_map, List.getElem?_zipIdx, h, Option.map_some,
    Nat.zero_add]

theorem dropEntriesWithGeo_fst (hne : pipeline.drop ≠ []) :
    (dropEntriesWithGeo engines pipeline entries geo).1 =
      (entries.zipIdx.filter fun x =>
        !pipeline.drop.any (discards engines x.1 geo[x.2]?.join)).map fun x => x.1 := by
  have hempty : ¬pipeline.drop.isEmpty = true := by simpa using hne
  rw [dropEntriesWithGeo, if_neg hempty]
  dsimp only
  congr 1
  apply List.filter_congr
  rintro ⟨entry, idx⟩ hmem
  have hget : entries[idx]? = some entry := List.mk_mem_zipIdx_iff_getElem?.mp hmem
  rw [getElem?_dropSurvivors hget, Option.getD_some]

theorem stamp_of_mem_zipIdx {batch : List (ProxyEntry × Option GeoStamp)}
    {x : (ProxyEntry × Option GeoStamp) × ℕ} (hx : x ∈ batch.zipIdx) :
    (batch.map Prod.snd)[x.2]?.join = x.1.2 := by
  rw [List.getElem?_map, List.mem_zipIdx_iff_getElem?.mp hx]
  rfl

theorem dropEntriesWithGeo_batch (batch : List (ProxyEntry × Option GeoStamp)) :
    dropEntriesWithGeo engines pipeline (batch.map Prod.fst) (batch.map Prod.snd) =
      ((batch.filter fun x => !pipeline.drop.any (discards engines x.1 x.2)).map Prod.fst,
        (batch.filter fun x => !pipeline.drop.any (discards engines x.1 x.2)).map Prod.snd) := by
  set spared : ProxyEntry × Option GeoStamp → Bool :=
    fun x => !pipeline.drop.any (discards engines x.1 x.2) with hspared
  by_cases hempty : pipeline.drop.isEmpty = true
  · have hall : batch.filter spared = batch := by
      refine List.filter_eq_self.mpr fun x _ => ?_
      rw [hspared, List.isEmpty_iff.mp hempty]
      rfl
    rw [dropEntriesWithGeo, if_pos hempty, hall]
  · have hkept : (batch.map Prod.fst).zipIdx.filter (fun x =>
        (dropSurvivors engines pipeline (batch.map Prod.fst) (batch.map Prod.snd))[x.2]?.getD
          false) = (batch.zipIdx.filter fun x => spared x.1).map fun x => (x.1.1, x.2) := by
      rw [List.zipIdx_map, List.filter_map]
      refine congrArg _ (List.filter_congr fun x hx => ?_)
      have hentry : (batch.map Prod.fst)[x.2]? = some x.1.1 := by
        rw [List.getElem?_map, List.mem_zipIdx_iff_getElem?.mp hx]
        rfl
      have hverdict : (dropSurvivors engines pipeline (batch.map Prod.fst)
          (batch.map Prod.snd))[x.2]? = some (!pipeline.drop.any
            (discards engines x.1.1 (batch.map Prod.snd)[x.2]?.join)) :=
        getElem?_dropSurvivors hentry
      rw [stamp_of_mem_zipIdx hx] at hverdict
      exact congrArg (Option.getD · false) hverdict
    have hbatch : (batch.zipIdx.filter fun x => spared x.1).map Prod.fst = batch.filter spared := by
      have hfilter := List.filter_map (f := Prod.fst) (p := spared) (l := batch.zipIdx)
      rw [List.zipIdx_map_fst] at hfilter
      exact hfilter.symm
    have hstamps : (batch.zipIdx.filter fun x => spared x.1).map
        (fun x => (batch.map Prod.snd)[x.2]?.join) =
          (batch.zipIdx.filter fun x => spared x.1).map fun x => x.1.2 :=
      List.map_congr_left fun x hx => stamp_of_mem_zipIdx (List.mem_filter.mp hx).1
    rw [dropEntriesWithGeo, if_neg hempty]
    dsimp only
    rw [hkept, List.map_map, List.map_map, ← hbatch, List.map_map, List.map_map]
    exact Prod.ext rfl hstamps

theorem mem_kept_iff (hasn : WithoutAsnRules engines pipeline) {value : Option Json}
    (hcompile : fromJson engines value = .ok pipeline)
    (hdrop : applyDropRules engines value entries geo = .ok (kept, keptGeo, dropped))
    {entry : ProxyEntry} (he : entry ∈ entries) :
    entry ∉ kept ↔ ∃ v ∈ subjects entry, Hit engines pipeline v := by
  by_cases hempty : pipeline.drop = []
  · have hkept : kept = entries := by
      cases value with
      | none => exact (Prod.mk.inj (Except.ok.inj hdrop)).1.symm
      | some value =>
        rw [applyDropRules, hcompile] at hdrop
        simp only [hempty, List.isEmpty_nil, if_true] at hdrop
        exact (Prod.mk.inj (Except.ok.inj hdrop)).1.symm
    rw [hkept]
    refine iff_of_false (not_not.mpr he) ?_
    rintro ⟨v, -, regex, target, hrule, -⟩
    rw [hempty] at hrule
    exact absurd hrule List.not_mem_nil
  · have hkept : kept = (dropEntriesWithGeo engines pipeline entries geo).1 := by
      cases value with
      | none =>
        obtain rfl := Except.ok.inj hcompile
        exact absurd rfl hempty
      | some value =>
        have hnonempty : ¬pipeline.drop.isEmpty = true := by simpa using hempty
        rw [applyDropRules, hcompile] at hdrop
        simp only [hnonempty] at hdrop
        exact (Prod.mk.inj (Except.ok.inj hdrop)).1.symm
    rw [hkept, dropEntriesWithGeo_fst hempty, List.mem_map]
    constructor
    · intro hout
      by_contra hspared
      obtain ⟨idx, hidx⟩ := List.mem_iff_getElem?.mp he
      refine hout ⟨(entry, idx), List.mem_filter.mpr
        ⟨List.mk_mem_zipIdx_iff_getElem?.mpr hidx, ?_⟩, rfl⟩
      rw [Bool.not_eq_true', Bool.eq_false_iff]
      exact fun hany => hspared ((discards_iff hasn _).mp hany)
    · rintro hhit ⟨⟨entry', idx⟩, hmem, heq⟩
      obtain rfl : entry' = entry := heq
      have hspared := (List.mem_filter.mp hmem).2
      rw [(discards_iff hasn _).mpr hhit] at hspared
      contradiction

end Survivors

section Rows

variable {lib : Libraries} {row : ProxyRow} {stored : ProxyEntry}

theorem find?_columnFields {params : List Param} {known : Bool} {key : Text} (hne : key ≠ []) :
    (columnFields params known).find? (fun g => decide (g.1 = key)) =
      (params.find? fun q => q.known == known && decide (q.key = key)).map
        fun p => (p.key, p.value) := by
  rw [columnFields, List.find?_map, List.find?_filter]
  congr 1
  congr 1
  funext q
  by_cases hkey : q.key = key
  · by_cases hknown : q.known = known <;> simp [hkey, hknown, hne]
  · simp [hkey]

theorem mem_splitParamsJson {params : List Param} {known : Bool} {f : Text × Text} :
    f ∈ splitParamsJson params known ↔ f.1 ≠ [] ∧
      params.find? (fun q => q.known == known && decide (q.key = f.1)) = some ⟨f.1, f.2, known⟩ := by
  rw [splitParamsJson_eq, mem_firsts_iff]
  by_cases hempty : f.1 = []
  · refine iff_of_false ?_ fun h => h.1 hempty
    rintro ⟨-, hfind⟩
    obtain ⟨q, hq, rfl⟩ := List.mem_map.mp (List.mem_of_find?_eq_some hfind)
    have hkept := (List.mem_filter.mp hq).2
    rw [Bool.and_eq_true, Bool.not_eq_true', List.isEmpty_eq_false_iff] at hkept
    exact hkept.2 hempty
  · rw [find?_columnFields hempty, Option.map_eq_some_iff]
    constructor
    · rintro ⟨-, q, hq, rfl⟩
      refine ⟨hempty, hq.trans (congrArg some ?_)⟩
      have hmatch := List.find?_some hq
      rw [Bool.and_eq_true, beq_iff_eq] at hmatch
      rw [← hmatch.1]
    · rintro ⟨-, hfind⟩
      exact ⟨List.not_mem_nil, _, hfind, rfl⟩

theorem mem_rebuiltParams {params : List Param} {p : Param} : p ∈ rebuiltParams params ↔
    p.key ≠ [] ∧ params.find? (fun q => q.known == p.known && decide (q.key = p.key)) = some p := by
  have hcolumn : ∀ known, (∃ f ∈ splitParamsJson params known, Param.mk f.1 f.2 known = p) ↔
      p.known = known ∧ (p.key, p.value) ∈ splitParamsJson params known := by
    intro known
    constructor
    · rintro ⟨f, hf, rfl⟩
      exact ⟨rfl, hf⟩
    · rintro ⟨rfl, hf⟩
      exact ⟨_, hf, rfl⟩
  rw [rebuiltParams, List.mem_append, List.mem_map, List.mem_map, hcolumn, hcolumn,
    mem_splitParamsJson, mem_splitParamsJson]
  obtain ⟨key, value, known⟩ := p
  cases known <;> simp

/-- An entry without empty or repeated keys loses nothing next to a row with its own host. -/
theorem decidedByKept_of_plain {engines : Engines} {pipeline : CompiledPipeline engines.Regex}
    {entry : ProxyEntry} (hne : ∀ p ∈ entry.params, p.key ≠ [])
    (hkeys : entry.params.Pairwise fun q p => q.key = p.key → q.known ≠ p.known) :
    DecidedByKept engines pipeline entry (storedForm entry entry.host) := by
  have hsame : ∀ p, p ∈ rebuiltParams entry.params ↔ p ∈ entry.params := by
    intro p
    rw [mem_rebuiltParams]
    constructor
    · exact fun h => List.mem_of_find?_eq_some h.2
    · intro hp
      refine ⟨hne p hp, ?_⟩
      obtain ⟨before, after, hsplit⟩ := List.append_of_mem hp
      rw [hsplit] at hkeys ⊢
      have hbefore : before.find? (fun q => q.known == p.known && decide (q.key = p.key)) = none := by
        refine List.find?_eq_none.mpr fun q hq hmatch => ?_
        simp only [Bool.and_eq_true, beq_iff_eq, decide_eq_true_eq] at hmatch
        exact (List.pairwise_append.mp hkeys).2.2 q hq p List.mem_cons_self hmatch.2 hmatch.1
      rw [List.find?_append, hbefore, Option.none_or, List.find?_cons_of_pos (by simp)]
  have hsubjects : ∀ v, v ∈ subjects entry ↔ v ∈ subjects (storedForm entry entry.host) := by
    intro v
    simp only [subjects, storedForm, List.mem_cons, List.mem_map, hsame]
  exact ⟨fun v hv hnot _ => absurd ((hsubjects v).mp hv) hnot,
    fun v hv hnot _ => absurd ((hsubjects v).mpr hv) hnot⟩

theorem toEntry_written (hsha : Function.Injective lib.sha256)
    (hjson : lib.json.RoundTripsStrings) (hid : Identified lib row) (h : Written lib stored row)
    (hfp : row.fingerprint = fingerprint lib.sha256 stored) :
    ∃ e', toEntry lib.json row = .ok e' ∧ subjects e' = subjects (storedForm stored row.host) := by
  obtain ⟨e', hok, -, hname, hhost, hport, -, hparams⟩ := toEntry_stored hjson hid h.toStoredFrom
  obtain ⟨first, hfirst, -, -, hport₁, -⟩ := hid
  have hsame : SameIdentity first stored := .of_fingerprint hsha (hfirst.symm.trans hfp)
  have hnat : e'.port.toNat = first.port.toNat := by omega
  refine ⟨e', hok, ?_⟩
  rw [subjects, subjects, hname, hhost, UInt16.toNat_inj.mp hnat, hsame.port, hparams, h.name]
  rfl

end Rows

section Agreement

variable {lib : Libraries} {cfg : ProbeConfig} {env : Environment} {w : World} {s' : Store}
  {sourceId : Text} {entries kept : List ProxyEntry} {stamps geo keptGeo : List (Option GeoStamp)}
  {now : ℤ} {linger : Bool} {stats : ReconciliationStats} {dropped : ℕ}

/-- An entry is dropped at ingest exactly when its rebuilt candidate is dropped by the same rules at
serve time, unless the verdict hangs on a value that its row does not keep or that only its row
has. -/
theorem drop_verdicts_agree_iff (hsha : Function.Injective lib.sha256)
    (hjson : lib.json.RoundTripsStrings) (hw : Reachable (lifecycle lib cfg) Any w)
    (hok : reconcileSource lib w.store sourceId entries geo now linger = .ok (s', stats))
    {value : Option Json} {pipeline : Pipeline env}
    (hcompile : fromJson env.engines value = .ok pipeline)
    (hasn : WithoutAsnRules env.engines pipeline)
    (hdrop : applyDropRules env.engines value entries stamps = .ok (kept, keptGeo, dropped))
    {e : ProxyEntry} (he : e ∈ entries) :
    ∃ r ∈ s'.proxies, r.fingerprint = fingerprint lib.sha256 e ∧
      ∃ stored, storedEntry lib (fingerprint lib.sha256 e) entries = some stored ∧
        ∃ e', toEntry lib.json r = .ok e' ∧ ∀ c : Candidate, c.entry = e' →
          ((e ∉ kept ↔ droppedServing env pipeline c = true) ↔
            DecidedByKept env.engines pipeline e (storedForm stored r.host)) := by
  obtain ⟨r, hr, hfp, hid, stored, hstored, hwritten⟩ :=
    exists_stored_row (reachable_identity hw) hok he
  obtain ⟨e', hentry, hsubjects⟩ := toEntry_written hsha hjson hid hwritten
    (hfp.trans (StoredFrom.fingerprint hstored).1)
  refine ⟨r, hr, hfp, stored, hstored, e', hentry, ?_⟩
  rintro c rfl
  rw [mem_kept_iff hasn hcompile hdrop he, droppedServing_iff hasn, hsubjects, decidedByKept_iff]

end Agreement

section Serving

variable {env : Environment} {pipeline : Pipeline env}

theorem applyPerSource_predropped (candidates : List Candidate) :
    applyPerSource env pipeline
        (candidates.filter fun c => !droppedServing env pipeline c) =
      applyPerSource env pipeline candidates := by
  set spared : Candidate → Bool := fun c => !pipeline.drop.any (dropMatches env.engines c)
  have hstart : ∀ p : Candidate → Bool,
      ((candidates.filter fun c => !droppedServing env pipeline c).filter p).map
          (fillMissingAsn env) = ((candidates.filter p).map (fillMissingAsn env)).filter spared := by
    intro p
    rw [List.filter_map, List.filter_filter, List.filter_filter]
    congr 1
    apply List.filter_congr
    intro c _
    exact Bool.and_comm _ _
  have htwice : ∀ p q : Candidate → Bool, ∀ l : List Candidate,
      (((l.filter spared).filter p).filter q).filter spared =
        ((l.filter p).filter q).filter spared := by
    intro p q l
    simp only [List.filter_filter]
    apply List.filter_congr
    intro c _
    cases spared c <;> simp
  dsimp only [applyPerSource]
  rw [hstart, htwice]

/-- Where the two verdicts agree, dropping at ingest changes nothing that is served. -/
theorem served_unchanged {rows : List (ProxyEntry × Candidate)} {kept : List ProxyEntry}
    (hagree : ∀ x ∈ rows, x.1 ∉ kept ↔ droppedServing env pipeline x.2 = true) :
    applyPerSource env pipeline ((rows.filter fun x => decide (x.1 ∈ kept)).map Prod.snd) =
      applyPerSource env pipeline (rows.map Prod.snd) := by
  rw [← applyPerSource_predropped (rows.map Prod.snd), List.filter_map]
  congr 2
  apply List.filter_congr
  intro x hx
  have hiff := hagree x hx
  by_cases hkept : x.1 ∈ kept
  · have hspared : droppedServing env pipeline x.2 = false := by
      rw [Bool.eq_false_iff]
      exact fun hdropped => hiff.mpr hdropped hkept
    simp [hkept, hspared]
  · simp [hkept, hiff.mp hkept]

end Serving

section Samples

open LaneCoverage (sampleLibraries defaultConfig)
open JsonText (stringCodec stringCodec_roundTrips)
open LineParser (parseLine)
open LineRoundTrip (sampleCodecs)

def literalEngines : Engines where
  Regex := Text
  build pattern _ _ _ := .ok pattern
  isMatch pattern t := t.tails.any (pattern.isPrefixOf ·)
  replaceAll _ t _ := t
  typeError _ := []

def literalEnvironment : Environment where
  engines := literalEngines
  sha256 := sampleDigest
  toLowercase := toAsciiLowercase
  geo := ⟨none⟩

def pathRule : Json :=
  .obj [("version", .num (.posInt 1)),
    ("drop", .arr [.obj [("match", .str "%2Fb"), ("target", .str "param:path")]])]

def twoPathsLine : Text := "vless://u@example.com:443?path=%2Fa&path=%2Fb"

def twoPaths : ProxyEntry where
  scheme := .vless
  name := []
  host := "example.com"
  port := 443
  credential := "u"
  params := [⟨"path", "%2Fa", true⟩, ⟨"path", "%2Fb", true⟩]
  rawPath := []
  rawLine := twoPathsLine

def hasAsnRule (pipeline : Pipeline literalEnvironment) : Bool :=
  pipeline.drop.any fun
    | .asn _ => true
    | .regex _ _ => false

theorem withoutAsnRules_of {pipeline : Pipeline literalEnvironment}
    (h : hasAsnRule pipeline = false) : WithoutAsnRules literalEngines pipeline := by
  rintro rule hrule asns rfl
  rw [hasAsnRule, List.any_eq_false] at h
  exact absurd rfl (h _ hrule)

theorem pathRule_compiles : ∃ pipeline : Pipeline literalEnvironment,
    fromJson literalEngines (some pathRule) = .ok pipeline ∧
      WithoutAsnRules literalEngines pipeline := by
  have hrun : ((fromJson literalEngines (some pathRule)).toOption.any
      fun pipeline => !hasAsnRule pipeline) = true := by
    decide +kernel
  obtain ⟨pipeline, hcompile, hasn⟩ := (Option.any_eq_true _ _).mp hrun
  exact ⟨pipeline, toOption_eq_some.mp hcompile,
    withoutAsnRules_of ((Bool.not_eq_true' _).mp hasn)⟩

theorem drop_verdicts_agree_iff_sample :
    ∃ (s' : Store) (stats : ReconciliationStats) (pipeline : Pipeline literalEnvironment)
      (kept : List ProxyEntry) (keptGeo : List (Option GeoStamp)) (dropped : ℕ),
      reconcileSource sampleLibraries {} "feed" [twoPaths] [] 1000 true = .ok (s', stats) ∧
        applyDropRules literalEngines (some pathRule) [twoPaths] [] = .ok (kept, keptGeo, dropped) ∧
          ∃ r ∈ s'.proxies, r.fingerprint = fingerprint sampleDigest twoPaths ∧
            ∃ stored, storedEntry sampleLibraries (fingerprint sampleDigest twoPaths) [twoPaths] =
                some stored ∧
              ∃ e', toEntry stringCodec r = .ok e' ∧ ∀ c : Candidate, c.entry = e' →
                ((twoPaths ∉ kept ↔ droppedServing literalEnvironment pipeline c = true) ↔
                  DecidedByKept literalEngines pipeline twoPaths (storedForm stored r.host)) := by
  have hstore : (reconcileSource sampleLibraries {} "feed" [twoPaths] [] 1000 true).toOption.isSome =
      true := by decide +kernel
  have hkept : (applyDropRules literalEngines (some pathRule) [twoPaths] []).toOption.isSome =
      true := by decide +kernel
  obtain ⟨⟨s', stats⟩, hok⟩ := Option.isSome_iff_exists.mp hstore
  obtain ⟨⟨kept, keptGeo, dropped⟩, hdrop⟩ := Option.isSome_iff_exists.mp hkept
  obtain ⟨pipeline, hcompile, hasn⟩ := pathRule_compiles
  have hrun : Reachable (lifecycle sampleLibraries defaultConfig) Any {} := .init rfl
  exact ⟨s', stats, pipeline, kept, keptGeo, dropped, toOption_eq_some.mp hok,
    toOption_eq_some.mp hdrop,
    drop_verdicts_agree_iff sampleDigest_injective stringCodec_roundTrips hrun
      (toOption_eq_some.mp hok) hcompile hasn (toOption_eq_some.mp hdrop) List.mem_cons_self⟩

/-- The second path decides at ingest, and only the first one is stored. -/
theorem later_value_decides_at_ingest :
    ¬∀ lib codecs cfg (env : Environment) w line entry, Function.Injective lib.sha256 →
      lib.json.RoundTripsStrings → parseLine codecs line = .parsed entry →
        Reachable (lifecycle lib cfg) Any w → ∀ sourceId geo now linger s' stats,
          reconcileSource lib w.store sourceId [entry] geo now linger = .ok (s', stats) →
            ∀ value pipeline, fromJson env.engines (some value) = .ok pipeline →
              WithoutAsnRules env.engines pipeline → ∀ stamps kept keptGeo dropped,
                applyDropRules env.engines (some value) [entry] stamps =
                    .ok (kept, keptGeo, dropped) →
                  ∀ r ∈ s'.proxies, r.fingerprint = fingerprint lib.sha256 entry →
                    ∀ e' (c : Candidate), toEntry lib.json r = .ok e' → c.entry = e' →
                      (entry ∉ kept ↔ droppedServing env pipeline c = true) := by
  intro h
  have hrun : ((reconcileSource sampleLibraries {} "feed" [twoPaths] [] 1000 true).toOption.any
      fun p => p.1.proxies.any fun r => r.fingerprint == fingerprint sampleDigest twoPaths &&
        (toEntry stringCodec r).toOption.any fun e' =>
          (fromJson literalEngines (some pathRule)).toOption.any fun pipeline =>
            !hasAsnRule pipeline &&
              !droppedServing literalEnvironment pipeline ⟨e', 0, .alive, none, none, none⟩ &&
                (applyDropRules literalEngines (some pathRule) [twoPaths] []).toOption.any
                  fun x => x.1.isEmpty) = true := by
    decide +kernel
  obtain ⟨⟨s', stats⟩, hok, hrow⟩ := (Option.any_eq_true _ _).mp hrun
  obtain ⟨r, hr, hrow⟩ := List.any_eq_true.mp hrow
  obtain ⟨hfp, hread⟩ := Bool.and_eq_true_iff.mp hrow
  obtain ⟨e', hread, hrules⟩ := (Option.any_eq_true _ _).mp hread
  obtain ⟨pipeline, hcompile, hrules⟩ := (Option.any_eq_true _ _).mp hrules
  obtain ⟨hserved, hingest⟩ := Bool.and_eq_true_iff.mp hrules
  obtain ⟨hasn, hserved⟩ := Bool.and_eq_true_iff.mp hserved
  obtain ⟨⟨kept, keptGeo, dropped⟩, hdrop, hempty⟩ := (Option.any_eq_true _ _).mp hingest
  have hagree := h sampleLibraries sampleCodecs defaultConfig literalEnvironment {} twoPathsLine
    twoPaths sampleDigest_injective stringCodec_roundTrips (by decide +kernel) (.init rfl) "feed" []
    1000 true s' stats (toOption_eq_some.mp hok) pathRule pipeline (toOption_eq_some.mp hcompile)
    (withoutAsnRules_of ((Bool.not_eq_true' _).mp hasn)) [] kept keptGeo dropped
    (toOption_eq_some.mp hdrop) r hr (beq_iff_eq.mp hfp) e' ⟨e', 0, .alive, none, none, none⟩
    (toOption_eq_some.mp hread) rfl
  have hkept : kept = [] := List.isEmpty_iff.mp hempty
  have hgone : twoPaths ∉ kept := by
    rw [hkept]
    exact List.not_mem_nil
  rw [hagree.mp hgone] at hserved
  contradiction

/-- Both lists keep their length in common, and what is left of a batch are the pairs that no rule
discards, in order. -/
theorem dropEntriesWithGeo_aligned (engines : Engines)
    (pipeline : CompiledPipeline engines.Regex) (entries : List ProxyEntry)
    (geo : List (Option GeoStamp)) (hparallel : geo.length = entries.length) :
    (dropEntriesWithGeo engines pipeline entries geo).1.length =
        (dropEntriesWithGeo engines pipeline entries geo).2.length ∧
      (dropEntriesWithGeo engines pipeline entries geo).1.zip
          (dropEntriesWithGeo engines pipeline entries geo).2 =
        (entries.zip geo).filter fun x => !pipeline.drop.any (discards engines x.1 x.2) := by
  have hentries : (entries.zip geo).map Prod.fst = entries := List.map_fst_zip (by omega)
  have hgeo : (entries.zip geo).map Prod.snd = geo := List.map_snd_zip (by omega)
  have hbatch := @dropEntriesWithGeo_batch engines pipeline (entries.zip geo)
  rw [hentries, hgeo] at hbatch
  rw [hbatch]
  refine ⟨by rw [List.length_map, List.length_map], ?_⟩
  rw [List.zip_map', List.map_id']

/-- The first of two entries is dropped by its number, and the second keeps its own stamp. -/
theorem dropEntriesWithGeo_aligned_sample :
    (dropEntriesWithGeo literalEngines { drop := [.asn [64500]] } [twoPaths, twoPaths]
        [some { asn := some "AS64500".toList }, some { country := some "DE".toList }]).1.zip
      (dropEntriesWithGeo literalEngines { drop := [.asn [64500]] } [twoPaths, twoPaths]
        [some { asn := some "AS64500".toList }, some { country := some "DE".toList }]).2 =
      [(twoPaths, some { country := some "DE".toList })] := by
  have haligned := dropEntriesWithGeo_aligned literalEngines { drop := [.asn [64500]] }
    [twoPaths, twoPaths]
    [some { asn := some "AS64500".toList }, some { country := some "DE".toList }] rfl
  rw [haligned.2]
  rfl

end Samples

end IngestDrops
