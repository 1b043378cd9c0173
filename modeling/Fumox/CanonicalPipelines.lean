import Fumox.EmittedPipelines
import Fumox.MergedPipeline

/-!
Accepted documents of the pipeline builder: which of them are opened as the state that emits them
again, and which states emit no document.
-/

namespace CanonicalPipelines

open RustText JsonValue SerdeValue ItemList PipelineConfig PipelineEditor EmittedPipelines

/-- The emitted document is opened by the builder, as a state that emits it again. -/
def Canonical (s : BuilderState) : Prop :=
  ∃ rebuilt, ingest (emit s) = .builder rebuilt ∧ emit rebuilt = emit s

/-- No list of the filter is typed as mere separators, and no selector of a rule is spelled out with
white space before its key. -/
structure Expressible (s : BuilderState) : Prop where
  lists : s.filterSet = true → s.filterDefaults = false →
    ¬OnlySeparators (trim s.asns) ∧ ¬OnlySeparators (trim s.excludeAsns)
  renames : s.renameDefaults = false → s.renameSkip = false →
    ∀ row ∈ s.rename, row.matchPattern ≠ [] → ¬PaddedKey row.target
  drops : s.dropDefaults = false → s.dropSkip = false →
    ∀ row ∈ s.drop, row.isFilled = true → row.isAsn = false → ¬PaddedKey row.target

section Accepted

variable {engines : Engines}

theorem issues_of_compileRules {α β : Type} {compileOne : ℕ → α → List β × List PipelineIssue}
    {idx : ℕ} {rules : List α} (h : (compileRules compileOne idx rules).2 = []) :
    ∀ rule ∈ rules, ∃ i, (compileOne i rule).2 = [] := by
  induction rules generalizing idx with
  | nil => exact fun rule hrule => absurd hrule List.not_mem_nil
  | cons first rules ih =>
    obtain ⟨hone, hrest⟩ := List.append_eq_nil_iff.mp h
    intro rule hrule
    rcases List.mem_cons.mp hrule with rfl | hrule
    · exact ⟨idx, hone⟩
    · exact ih hrest rule hrule

theorem asns_of_compileDrop {idx : ℕ} {rule : DropRule}
    (h : (compileDrop engines idx rule).2 = []) (htarget : rule.target = some "asn".toList) :
    rule.asns ≠ some [] := by
  intro hasns
  rw [compileDrop, if_pos htarget, compileAsnDrop, hasns] at h
  exact absurd (List.append_eq_nil_iff.mp h).2 (List.cons_ne_nil _ _)

theorem drop_asns_of_accepted {config : Config} (h : (compile engines config).2 = [])
    {rules : List DropRule} (hrules : config.drop = some rules) :
    ∀ rule ∈ rules, rule.target = some "asn".toList → rule.asns ≠ some [] := by
  intro rule hrule htarget
  have hissues := (MergedPipeline.issues_nil_iff.mp h).2 .drop
  rw [MergedPipeline.sectionIssues, hrules, Option.getD_some] at hissues
  obtain ⟨idx, hidx⟩ := issues_of_compileRules hissues rule hrule
  exact asns_of_compileDrop hidx htarget

end Accepted

section Emitted

variable {s : BuilderState}

theorem readConfig_emittedFields (s : BuilderState) :
    readConfig (.obj (emittedFields s)) =
      if (emitLimit s.toLimitFields).2 = none then some (emitConfig s) else none := by
  rw [emittedFields, readConfig_documentFields (emitConfig_version s)]
  cases hmistyped : (emitLimit s.toLimitFields).2 with
  | none =>
    have hlimit : optional readLimit ((emitConfig s).limit.map limitValue) =
        some (emitConfig s).limit :=
      optional_written (fun limit hlimit => readLimit_limitValue (representable_emitLimit hlimit))
        fun _ => Json.noConfusion
    rw [Option.map_none, Option.none_or, hlimit, if_pos rfl]
    rfl
  | some raw =>
    have hstr : optional readLimit (some (.obj [("count", .str raw)])) = none := rfl
    rw [Option.map_some, Option.some_or, hstr, if_neg (Option.some_ne_none raw)]
    rfl

theorem emittedFields_cons (s : BuilderState) :
    ∃ rest, emittedFields s = ("version".toList, intValue 1) :: rest := ⟨_, rfl⟩

theorem ingest_emitted (s : BuilderState) : ingest (some (.obj (emittedFields s))) =
    match readConfig (.obj (emittedFields s)) with
    | none => .raw
    | some config =>
      if config.version ≠ 1 ∨ inexpressible config then .raw
      else .builder (ingestConfig config) := by
  obtain ⟨rest, hrest⟩ := emittedFields_cons s
  rw [hrest]
  rfl

theorem configOf_emitted (s : BuilderState) :
    MergedPipeline.configOf (some (.obj (emittedFields s))) =
      readConfig (.obj (emittedFields s)) := by
  obtain ⟨rest, hrest⟩ := emittedFields_cons s
  rw [hrest]
  rfl

theorem emitted_of_accepted {engines : Engines} {compiled : CompiledPipeline engines.Regex}
    (h : fromJson engines (some (.obj (emittedFields s))) = .ok compiled) :
    (emitLimit s.toLimitFields).2 = none ∧ (compile engines (emitConfig s)).2 = [] := by
  obtain ⟨config, hread, hissues, -⟩ := MergedPipeline.fromJson_ok_iff.mp h
  rw [configOf_emitted, readConfig_emittedFields] at hread
  split_ifs at hread with hmistyped
  obtain rfl := Option.some.inj hread
  exact ⟨hmistyped, hissues⟩

/-- The document of a state without a mistyped cap determines what the state configures. -/
theorem emittedFields_inj {t : BuilderState} (hs : (emitLimit s.toLimitFields).2 = none)
    (ht : (emitLimit t.toLimitFields).2 = none) :
    emittedFields t = emittedFields s ↔ emitConfig t = emitConfig s := by
  constructor
  · intro hfields
    have hread := readConfig_emittedFields t
    rw [hfields, readConfig_emittedFields, if_pos hs, if_pos ht] at hread
    exact (Option.some.inj hread).symm
  · intro hconfig
    rw [emittedFields, emittedFields, hs, ht, hconfig]

end Emitted

section Again

variable {s : BuilderState}

theorem emitLimit_again (s : BuilderState) :
    (emitLimit (ingestConfig (emitConfig s)).toLimitFields).2 = none :=
  congrArg Prod.snd (emitLimit_ingest s.toLimitFields)

theorem emitConfig_again
    (hasns : ∀ rules, emitDrop s.toDropFields = some rules → ∀ rule ∈ rules,
      rule.target = some "asn".toList → rule.asns ≠ some []) :
    emitConfig (ingestConfig (emitConfig s)) = emitConfig s ↔ Expressible s := by
  have hfilter := emitFilter_ingest s.toFilterFields
  have hrename := emitRename_ingest s.toRenameFields
  have hdrop := emitDrop_ingest s.toDropFields hasns
  have hgeo := emitGeo_ingest s.toGeoFields
  have hhealth := emitHealth_ingest s.toHealthFields
  have hsort := emitSort_ingest s.toSortFields
  have hlimit := congrArg Prod.fst (emitLimit_ingest s.toLimitFields)
  constructor
  · intro heq
    exact ⟨hfilter.mp (congrArg Config.filter heq), hrename.mp (congrArg Config.rename heq),
      hdrop.mp (congrArg Config.drop heq)⟩
  · rintro ⟨hlists, hrenames, hdrops⟩
    have hfields : emitConfig (ingestConfig (emitConfig s)) =
        ⟨1, emitFilter (ingestFilter (emitFilter s.toFilterFields)),
          emitRename (ingestRename (emitRename s.toRenameFields)),
          emitDrop (ingestDrop (emitDrop s.toDropFields)),
          emitGeo (ingestGeo (emitGeo s.toGeoFields)),
          emitHealth (ingestHealth (emitHealth s.toHealthFields)), none,
          emitSort (ingestSort (emitSort s.toSortFields)),
          (emitLimit (ingestLimit (emitLimit s.toLimitFields).1)).1⟩ := rfl
    rw [hfields, hfilter.mpr hlists, hrename.mpr hrenames, hdrop.mpr hdrops, hgeo, hhealth, hsort,
      hlimit]
    rfl

theorem inexpressible_emitConfig (s : BuilderState) : inexpressible (emitConfig s) =
    (emitFilter s.toFilterFields).any fun filter => filter.asns.any List.isEmpty := by
  have hprotocols : (emitFilter s.toFilterFields).any
      (fun filter => filter.protocols.any List.isEmpty) = false := by
    have hnonempty : ∀ l, (nonempty l).any List.isEmpty = false := by
      intro l
      unfold nonempty
      split_ifs with hl
      · rfl
      · simpa using hl
    unfold emitFilter
    dsimp only
    split_ifs
    · rfl
    · exact hnonempty s.protocols
    · rfl
    · rfl
  have hrename : (emitRename s.toRenameFields).any
      (fun rules => rules.any fun rule => rule.matchPattern.isEmpty) = false := by
    rw [Option.any_eq_false]
    intro rules hrules
    refine List.any_eq_false.mpr fun rule hrule => ?_
    simpa using pattern_of_renameRules (mem_of_emitRules hrules hrule)
  have hdrop : (emitDrop s.toDropFields).any (fun rules => rules.any fun rule =>
      rule.target != some "asn".toList && rule.matchPattern.isEmpty) = false := by
    rw [Option.any_eq_false]
    intro rules hrules
    refine List.any_eq_false.mpr fun rule hrule => ?_
    obtain ⟨row, hrow, rfl⟩ := List.mem_map.mp (mem_of_emitRules hrules hrule)
    have hfilled := (List.mem_filter.mp hrow).2
    unfold DropRow.isFilled at hfilled
    unfold dropRule
    split_ifs at hfilled ⊢
    · simp
    · simp [of_decide_eq_true hfilled]
  have hparts : inexpressible (emitConfig s) =
      ((emitFilter s.toFilterFields).any (fun filter => filter.protocols.any List.isEmpty) ||
        (emitFilter s.toFilterFields).any (fun filter => filter.asns.any List.isEmpty) ||
        (emitRename s.toRenameFields).any
          (fun rules => rules.any fun rule => rule.matchPattern.isEmpty) ||
        (emitDrop s.toDropFields).any (fun rules => rules.any fun rule =>
          rule.target != some "asn".toList && rule.matchPattern.isEmpty)) := rfl
  rw [hparts, hprotocols, hrename, hdrop, Bool.false_or, Bool.or_false, Bool.or_false]

theorem not_inexpressible (h : Expressible s) : inexpressible (emitConfig s) = false := by
  rw [inexpressible_emitConfig, Option.any_eq_false]
  intro filter hfilter
  unfold emitFilter at hfilter
  dsimp only at hfilter
  split_ifs at hfilter with hdefaults hset
  · obtain rfl := Option.some.inj hfilter
    simp
  · obtain rfl := Option.some.inj hfilter
    have hlist := (h.lists hset (by simpa using hdefaults)).1
    rw [← splitAsnField_eq_nil] at hlist
    cases hsplit : splitAsnField s.asns with
    | none => simp
    | some items =>
      have hne : items ≠ [] := fun hnil => hlist (hsplit.trans (congrArg some hnil))
      simpa using hne

section Nothing

variable {s : BuilderState}

/-- Nothing is set to a value of its own, and nothing is reset. -/
structure ConfiguresNothing (s : BuilderState) : Prop where
  filter : s.filterDefaults = false ∧ (s.filterSet = true → s.protocols = [] ∧
    s.excludeProtocols = [] ∧ trim s.asns = [] ∧ trim s.excludeAsns = [] ∧ s.forbidInsecure = true)
  rename : s.renameDefaults = false ∧ (s.renameSkip = false → ∀ row ∈ s.rename,
    row.matchPattern = [])
  drop : s.dropDefaults = false ∧ (s.dropSkip = false → ∀ row ∈ s.drop, row.isFilled = false)
  geo : s.geoDefaults = false ∧ (s.geoSet = true → s.geoEnabled = true ∧
    ¬OwnTemplate (trim s.geoTemplate))
  health : s.healthDefaults = false ∧ (s.healthSet = true →
    s.excludeStatuses = defaultExcludeStatuses)
  sort : s.sortDefaults = false ∧ (s.sortSet = true → s.sortDesc = false ∧
    ∀ sortBy : SortBy, sortBy.asStr = s.sortBy → sortBy = .source)
  limit : s.limitDefaults = false ∧ (s.limitSet = true → trim s.limitCount = [])

theorem splitAsnField_eq_none {raw : Text} : splitAsnField raw = none ↔ trim raw = [] := by
  unfold splitAsnField
  split_ifs with hblank
  · exact iff_of_true rfl hblank
  · exact iff_of_false not_false hblank

theorem emitFilter_eq_none {s : FilterFields} : emitFilter s = none ↔
    s.filterDefaults = false ∧ (s.filterSet = true → s.protocols = [] ∧ s.excludeProtocols = [] ∧
      trim s.asns = [] ∧ trim s.excludeAsns = [] ∧ s.forbidInsecure = true) := by
  simp only [← splitAsnField_eq_none]
  unfold emitFilter
  dsimp only
  split_ifs with hdefaults hset hvalues
  · exact iff_of_false not_false fun h => absurd (h.1.symm.trans hdefaults) (by decide)
  · refine iff_of_false not_false fun h => ?_
    obtain ⟨hprotocols, hexclude, hasns, hexcludeAsns, hforbid⟩ := h.2 hset
    simp [hprotocols, hexclude, hasns, hexcludeAsns, hforbid] at hvalues
  · simp only [not_or, ne_eq, not_not, Bool.not_eq_true, Option.isSome_eq_false_iff,
      Option.isNone_iff_eq_none, Bool.not_eq_false] at hvalues
    exact iff_of_true rfl ⟨by simpa using hdefaults, fun _ => hvalues⟩
  · exact iff_of_true rfl ⟨by simpa using hdefaults, fun h => absurd h hset⟩

theorem emitRules_eq_none {ρ : Type} {defaults skip : Bool} {rules : List ρ} :
    emitRules defaults skip rules = none ↔ defaults = false ∧ (skip = false → rules = []) := by
  unfold emitRules
  cases defaults <;> cases skip <;> cases rules <;> simp

theorem emitRename_eq_none {s : RenameFields} : emitRename s = none ↔
    s.renameDefaults = false ∧ (s.renameSkip = false → ∀ row ∈ s.rename, row.matchPattern = []) := by
  rw [emitRename, emitRules_eq_none, renameRules, List.map_eq_nil_iff, List.filter_eq_nil_iff]
  simp only [decide_eq_true_eq, ne_eq, not_not]

theorem emitDrop_eq_none {s : DropFields} : emitDrop s = none ↔
    s.dropDefaults = false ∧ (s.dropSkip = false → ∀ row ∈ s.drop, row.isFilled = false) := by
  rw [emitDrop, emitRules_eq_none, dropRules, List.map_eq_nil_iff, List.filter_eq_nil_iff]
  simp only [Bool.not_eq_true]

theorem emitGeo_eq_none {s : GeoFields} : emitGeo s = none ↔
    s.geoDefaults = false ∧ (s.geoSet = true → s.geoEnabled = true ∧
      ¬OwnTemplate (trim s.geoTemplate)) := by
  unfold emitGeo
  dsimp only
  split_ifs with hdefaults hset hvalues
  · exact iff_of_false not_false fun h => absurd (h.1.symm.trans hdefaults) (by decide)
  · refine iff_of_false not_false fun h => ?_
    obtain ⟨henabled, hown⟩ := h.2 hset
    simp [henabled, hown] at hvalues
  · simp only [not_or, Bool.not_eq_false] at hvalues
    exact iff_of_true rfl ⟨by simpa using hdefaults, fun _ => hvalues⟩
  · exact iff_of_true rfl ⟨by simpa using hdefaults, fun h => absurd h hset⟩

theorem emitHealth_eq_none {s : HealthFields} : emitHealth s = none ↔
    s.healthDefaults = false ∧ (s.healthSet = true →
      s.excludeStatuses = defaultExcludeStatuses) := by
  unfold emitHealth
  split_ifs with hdefaults hset
  · exact iff_of_false not_false fun h => absurd (h.1.symm.trans hdefaults) (by decide)
  · exact iff_of_false not_false fun h => hset.2 (h.2 hset.1)
  · exact iff_of_true rfl ⟨by simpa using hdefaults, fun h => by_contra fun hne => hset ⟨h, hne⟩⟩

theorem sortBy_source_iff {t : Text} :
    (SortBy.all.find? fun sort => sort.asStr == t).getD .source = .source ↔
      ∀ sortBy : SortBy, sortBy.asStr = t → sortBy = .source := by
  constructor
  · rintro h sortBy rfl
    rwa [find_asStr, Option.getD_some] at h
  · intro h
    cases hfind : SortBy.all.find? fun sort => sort.asStr == t with
    | none => rfl
    | some sortBy => exact h sortBy (by simpa using List.find?_some hfind)

theorem emitSort_eq_none {s : SortFields} : emitSort s = none ↔
    s.sortDefaults = false ∧ (s.sortSet = true → s.sortDesc = false ∧
      ∀ sortBy : SortBy, sortBy.asStr = s.sortBy → sortBy = .source) := by
  rw [← sortBy_source_iff]
  unfold emitSort
  dsimp only
  split_ifs with hdefaults hset hvalues
  · exact iff_of_false not_false fun h => absurd (h.1.symm.trans hdefaults) (by decide)
  · refine iff_of_false not_false fun h => ?_
    obtain ⟨hdesc, hsort⟩ := h.2 hset
    simp [hdesc, hsort] at hvalues
  · simp only [not_or, ne_eq, not_not, Bool.not_eq_true] at hvalues
    exact iff_of_true rfl ⟨by simpa using hdefaults, fun _ => hvalues.symm⟩
  · exact iff_of_true rfl ⟨by simpa using hdefaults, fun h => absurd h hset⟩

theorem emitLimit_eq_none {s : LimitFields} : emitLimit s = (none, none) ↔
    s.limitDefaults = false ∧ (s.limitSet = true → trim s.limitCount = []) := by
  unfold emitLimit
  dsimp only
  split_ifs with hdefaults hset hblank
  · exact iff_of_false (by simp) fun h => absurd (h.1.symm.trans hdefaults) (by decide)
  · exact iff_of_true rfl ⟨by simpa using hdefaults, fun _ => hblank⟩
  · refine iff_of_false ?_ fun h => hblank (h.2 hset)
    cases parseI64 (trim s.limitCount) <;> simp
  · exact iff_of_true rfl ⟨by simpa using hdefaults, fun h => absurd h hset⟩

theorem configuresNothing_iff : ConfiguresNothing s ↔
    emitFilter s.toFilterFields = none ∧ emitRename s.toRenameFields = none ∧
      emitDrop s.toDropFields = none ∧ emitGeo s.toGeoFields = none ∧
        emitHealth s.toHealthFields = none ∧ emitSort s.toSortFields = none ∧
          emitLimit s.toLimitFields = (none, none) := by
  rw [emitFilter_eq_none, emitRename_eq_none, emitDrop_eq_none, emitGeo_eq_none,
    emitHealth_eq_none, emitSort_eq_none, emitLimit_eq_none]
  exact ⟨fun h => ⟨h.filter, h.rename, h.drop, h.geo, h.health, h.sort, h.limit⟩,
    fun ⟨hfilter, hrename, hdrop, hgeo, hhealth, hsort, hlimit⟩ =>
      ⟨hfilter, hrename, hdrop, hgeo, hhealth, hsort, hlimit⟩⟩

theorem emit_eq_none : emit s = none ↔ ConfiguresNothing s := by
  have hslots : (emittedFields s).length = 1 ↔ ∀ slot ∈ (frontSlots (emitConfig s)).tail ++
      [((emitLimit s.toLimitFields).2.map fun raw => .obj [("count", .str raw)]).or
        ((emitConfig s).limit.map limitValue)], slot = none := by
    have hrest : ∀ slots, slots.length = configNames.tail.length →
        (writtenFields configNames.tail slots = [] ↔ ∀ slot ∈ slots, slot = none) :=
      fun slots hlen => writtenFields_eq_nil hlen (by decide)
    rw [← hrest _ rfl]
    exact Nat.succ_inj.trans List.length_eq_zero_iff
  have hemit : emit s = none ↔ (emittedFields s).length = 1 := by
    rw [emit_eq]
    split_ifs with hlength
    · exact iff_of_true rfl hlength
    · exact iff_of_false not_false hlength
  have hlimit : emitLimit s.toLimitFields = (none, none) ↔
      (emitLimit s.toLimitFields).2 = none ∧ (emitConfig s).limit = none := by
    rw [Prod.ext_iff, and_comm]
    rfl
  rw [hemit, hslots, configuresNothing_iff, hlimit]
  simp [frontSlots, emitConfig]

end Nothing

theorem canonical_iff {engines : Engines} {compiled : CompiledPipeline engines.Regex}
    (h : fromJson engines (emit s) = .ok compiled) : Canonical s ↔ Expressible s := by
  by_cases hnothing : ConfiguresNothing s
  · have hnone := emit_eq_none.mpr hnothing
    obtain ⟨hfilter, hrename, hdrop, hgeo, hhealth, hsort, hlimit⟩ :=
      configuresNothing_iff.mp hnothing
    have hconfig : emitConfig s = ⟨1, none, none, none, none, none, none, none, none⟩ := by
      rw [emitConfig, hfilter, hrename, hdrop, hgeo, hhealth, hsort, hlimit]
    have hasns : ∀ rules, emitDrop s.toDropFields = some rules → ∀ rule ∈ rules,
        rule.target = some "asn".toList → rule.asns ≠ some [] := by
      intro rules hrules
      rw [hdrop] at hrules
      cases hrules
    refine iff_of_true ⟨.new, ?_, ?_⟩ ((emitConfig_again hasns).mp ?_)
    · rw [hnone]
      rfl
    · rw [hnone]
      rfl
    · rw [hconfig]
      rfl
  · have hlength : (emittedFields s).length ≠ 1 := by
      intro hone
      refine hnothing (emit_eq_none.mp ?_)
      rw [emit_eq, if_pos hone]
    have hemit : emit s = some (.obj (emittedFields s)) := by rw [emit_eq, if_neg hlength]
    rw [hemit] at h
    obtain ⟨hmistyped, hissues⟩ := emitted_of_accepted h
    have hagain := emitConfig_again fun _ => drop_asns_of_accepted hissues
    have hread := readConfig_emittedFields s
    rw [if_pos hmistyped] at hread
    have hopened : ingest (emit s) = if inexpressible (emitConfig s) then .raw
        else .builder (ingestConfig (emitConfig s)) := by
      rw [hemit, ingest_emitted, hread]
      simp [emitConfig_version]
    constructor
    · rintro ⟨rebuilt, hrebuilt, hsame⟩
      rw [hopened] at hrebuilt
      split_ifs at hrebuilt
      obtain rfl := Ingest.builder.inj hrebuilt
      rw [hemit, emit_eq] at hsame
      split_ifs at hsame
      have hfields := Json.obj.inj (Option.some.inj hsame)
      exact hagain.mp ((emittedFields_inj hmistyped (emitLimit_again s)).mp hfields)
    · intro hexpressible
      refine ⟨ingestConfig (emitConfig s), ?_, ?_⟩
      · rw [hopened, not_inexpressible hexpressible]
        rfl
      · have hfields := (emittedFields_inj hmistyped (emitLimit_again s)).mpr
          (hagain.mpr hexpressible)
        rw [emit_eq, hfields, ← emit_eq]

end Again

/-- An accepted form is canonical exactly when its state is expressible, and the forms that emit no
document are those that configure nothing. -/
theorem emitted_form_canonical_iff (engines : Engines) (form : Form) :
    (∀ compiled : CompiledPipeline engines.Regex,
      fromJson engines (emit (fromForm form)) = .ok compiled →
        (Canonical (fromForm form) ↔ Expressible (fromForm form))) ∧
      (emit (fromForm form) = none ↔ ConfiguresNothing (fromForm form)) :=
  ⟨fun _ h => canonical_iff h, emit_eq_none⟩

def loneComma : Form :=
  [("ped_filter", "set"), ("ped_filter_asns", ","), ("ped_forbid_insecure", "1")]

/-- It is emitted as a list that keeps nothing, accepted, and no longer opened by the builder. -/
theorem lone_comma_is_raw :
    ¬∀ (engines : Engines) (form : Form) (compiled : CompiledPipeline engines.Regex),
      fromJson engines (emit (fromForm form)) = .ok compiled → Canonical (fromForm form) := by
  have hemit : emit (fromForm loneComma) =
      some (.obj [("version", .num (.posInt 1)), ("filter", .obj [("asns", .arr [])])]) := by
    rfl
  intro h
  have haccepted : fromJson MergedPipeline.noRules (emit (fromForm loneComma)) =
      .ok { filterAsns := some [] } := by
    rw [hemit]
    rfl
  obtain ⟨rebuilt, hopened, -⟩ := h _ _ _ haccepted
  rw [hemit] at hopened
  cases hopened

end CanonicalPipelines
