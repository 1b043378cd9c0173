import Fumox.PipelineEditor

/-!
The documents that the pipeline builder emits: what they are read as, and which of them the builder
opens again as the state that emits them.
-/

namespace EmittedPipelines

open RustText JsonValue SerdeValue ItemList PipelineConfig PipelineEditor

section Reading

theorem orDefault_unlessDefault {α : Type} [DecidableEq α] {read : Json → Option α}
    {write : α → Json} (d : α) {a : α} (h : read (write a) = some a) :
    orDefault d read (unlessDefault d write a) = some a :=
  orDefault_written d h

theorem optional_text (o : Option Text) : optional readString (o.map Json.str) = some o :=
  optional_written (fun _ _ => rfl) fun _ => Json.noConfusion

theorem optional_texts (o : Option (List Text)) :
    optional (readVec readString) (o.map textsValue) = some o :=
  optional_written (fun a _ => readVec_textsValue a) fun _ => Json.noConfusion

theorem orDefault_bool (d b : Bool) : orDefault d readBool (unlessDefault d Json.bool b) = some b :=
  orDefault_unlessDefault d rfl

theorem orDefault_text (d t : Text) : orDefault d readString (unlessDefault d Json.str t) = some t :=
  orDefault_unlessDefault d rfl

theorem readFilter_filterValue (filter : FilterConfig) :
    readFilter (filterValue filter) = some filter := by
  have hslots : structFields filterNames (filterValue filter) = some
      [filter.protocols.map textsValue, filter.excludeProtocols.map textsValue,
        filter.asns.map textsValue, filter.excludeAsns.map textsValue,
        unlessDefault true .bool filter.forbidInsecure] :=
    structFields_written (by decide) (by decide) rfl
  rw [filterNames] at hslots
  simp only [readFilter, hslots, optional_texts, orDefault_bool, Option.bind_eq_bind,
    Option.bind_some]
  rfl

theorem readRenameRule_renameValue (rule : RenameRule) :
    readRenameRule (renameValue rule) = some rule := by
  have hslots : structFields renameNames (renameValue rule) = some
      [some (.str rule.matchPattern), some (.str rule.replace), unlessDefault [] .str rule.flags,
        rule.target.map .str] :=
    structFields_written (by decide) (by decide) rfl
  have hrequired : ∀ t : Text, required readString (some (.str t)) = some t := fun _ => rfl
  rw [renameNames] at hslots
  simp only [readRenameRule, hslots, hrequired, orDefault_text, optional_text,
    Option.bind_eq_bind, Option.bind_some]
  rfl

theorem readDropRule_dropValue (rule : DropRule) : readDropRule (dropValue rule) = some rule := by
  have hslots : structFields dropNames (dropValue rule) = some
      [unlessDefault [] .str rule.matchPattern, unlessDefault [] .str rule.flags,
        rule.target.map .str, rule.asns.map textsValue] :=
    structFields_written (by decide) (by decide) rfl
  rw [dropNames] at hslots
  simp only [readDropRule, hslots, orDefault_text, optional_text, optional_texts,
    Option.bind_eq_bind, Option.bind_some]
  rfl

theorem readGeo_geoValue (geo : GeoStepConfig) : readGeo (geoValue geo) = some geo := by
  have hslots : structFields geoNames (geoValue geo) = some
      [unlessDefault true .bool geo.enabled, unlessDefault defaultGeoTemplate .str geo.template] :=
    structFields_written (by decide) (by decide) rfl
  rw [geoNames] at hslots
  simp only [readGeo, hslots, orDefault_bool, orDefault_text, Option.bind_eq_bind,
    Option.bind_some]
  rfl

theorem readHealth_healthValue (health : HealthConfig) :
    readHealth (healthValue health) = some health := by
  have hslots : structFields [["exclude_statuses"]] (healthValue health) = some
      [unlessDefault defaultExcludeStatuses textsValue health.excludeStatuses] :=
    structFields_written (by decide) (by decide) rfl
  simp only [readHealth, hslots, orDefault_unlessDefault defaultExcludeStatuses
    (readVec_textsValue health.excludeStatuses), Option.bind_eq_bind, Option.bind_some]
  rfl

theorem readDedup_dedupValue (dedup : DedupConfig) : readDedup (dedupValue dedup) = some dedup := by
  have hslots : structFields [["by"]] (dedupValue dedup) = some [some (.str dedup.dedupBy)] :=
    structFields_written (by decide) (by decide) rfl
  simp only [readDedup, hslots, required]
  rfl

theorem readSort_sortValue (sort : SortConfig) : readSort (sortValue sort) = some sort := by
  have hslots : structFields sortNames (sortValue sort) = some
      [unlessDefault .source (fun sortBy => .str (SortBy.asStr sortBy)) sort.sortBy,
        unlessDefault false .bool sort.desc] :=
    structFields_written (by decide) (by decide) rfl
  have hname : ∀ sortBy : SortBy, readSortBy (.str sortBy.asStr) = some sortBy := by
    intro sortBy
    cases sortBy <;> decide
  have hread : orDefault .source readSortBy
      (unlessDefault .source (fun sortBy => .str (SortBy.asStr sortBy)) sort.sortBy) =
        some sort.sortBy :=
    orDefault_unlessDefault _ (hname sort.sortBy)
  rw [sortNames] at hslots
  simp only [readSort, hslots, orDefault_bool, hread, Option.bind_eq_bind, Option.bind_some]
  rfl

/-- A cap that fits its type. -/
def Representable (limit : LimitConfig) : Prop :=
  ∀ count, limit.count = some count → -2 ^ 63 ≤ count ∧ count ≤ 2 ^ 63 - 1

theorem readLimit_limitValue {limit : LimitConfig} (h : Representable limit) :
    readLimit (limitValue limit) = some limit := by
  have hslots : structFields [["count"]] (limitValue limit) =
      some [some (limit.count.elim .null intValue)] :=
    structFields_written (by decide) (by decide) rfl
  have hcount : optional readI64 (some (limit.count.elim .null intValue)) = some limit.count := by
    cases hsome : limit.count with
    | none => rfl
    | some count =>
      have hread : readI64 (intValue count) = some count := by
        rw [readI64, readInt_intValue, if_pos (h count hsome)]
      have hne : ∀ z, intValue z ≠ .null := by
        intro z
        unfold intValue
        split_ifs <;> exact Json.noConfusion
      have hwritten : optional readI64 ((some count).map intValue) = some (some count) :=
        optional_written (fun a ha => Option.some.inj ha ▸ hread) hne
      exact hwritten
  simp only [readLimit, hslots, hcount]
  rfl

/-- The slots of a document up to its limit. -/
def frontSlots (config : Config) : List (Option Json) :=
  [some (intValue config.version), config.filter.map filterValue,
    config.rename.map fun rules => .arr (rules.map renameValue),
    config.drop.map fun rules => .arr (rules.map dropValue), config.geo.map geoValue,
    config.health.map healthValue, config.dedup.map dedupValue, config.sort.map sortValue]

/-- A document with any value in the slot of its limit. -/
def documentFields (config : Config) (limit : Option Json) : List (Text × Json) :=
  writtenFields configNames (frontSlots config ++ [limit])

theorem readConfig_documentFields {config : Config} (hversion : config.version = 1)
    (limit : Option Json) :
    readConfig (.obj (documentFields config limit)) =
      (optional readLimit limit).map fun limit => { config with limit } := by
  have hslots : structFields configNames (.obj (documentFields config limit)) = some
      [some (intValue config.version), config.filter.map filterValue,
        config.rename.map fun rules => .arr (rules.map renameValue),
        config.drop.map fun rules => .arr (rules.map dropValue), config.geo.map geoValue,
        config.health.map healthValue, config.dedup.map dedupValue, config.sort.map sortValue,
        limit] :=
    structFields_written (by decide) (by decide) rfl
  have hone : required readU8 (some (intValue config.version)) = some config.version := by
    rw [hversion]
    rfl
  have hfilter : optional readFilter (config.filter.map filterValue) = some config.filter :=
    optional_written (fun a _ => readFilter_filterValue a) fun _ => Json.noConfusion
  have hrename : optional (readVec readRenameRule)
      (config.rename.map fun rules => .arr (rules.map renameValue)) = some config.rename :=
    optional_written (fun rules _ => readVec_written fun rule _ => readRenameRule_renameValue rule)
      fun _ => Json.noConfusion
  have hdrop : optional (readVec readDropRule)
      (config.drop.map fun rules => .arr (rules.map dropValue)) = some config.drop :=
    optional_written (fun rules _ => readVec_written fun rule _ => readDropRule_dropValue rule)
      fun _ => Json.noConfusion
  have hgeo : optional readGeo (config.geo.map geoValue) = some config.geo :=
    optional_written (fun a _ => readGeo_geoValue a) fun _ => Json.noConfusion
  have hhealth : optional readHealth (config.health.map healthValue) = some config.health :=
    optional_written (fun a _ => readHealth_healthValue a) fun _ => Json.noConfusion
  have hdedup : optional readDedup (config.dedup.map dedupValue) = some config.dedup :=
    optional_written (fun a _ => readDedup_dedupValue a) fun _ => Json.noConfusion
  have hsort : optional readSort (config.sort.map sortValue) = some config.sort :=
    optional_written (fun a _ => readSort_sortValue a) fun _ => Json.noConfusion
  rw [readConfig, hslots, Option.bind_some]
  simp only [readSections, hone, hfilter, hrename, hdrop, hgeo, hhealth, hdedup, hsort,
    Option.bind_eq_bind, Option.bind_some]
  cases optional readLimit limit <;> rfl

/-- The limit is the last field, so a value put there stands where a limit would. -/
theorem insert_limit {config : Config} (h : config.limit = none) (value : Json) :
    JsonValue.insert (configFields config) "limit" value =
      documentFields config (some value) := by
  have hnames : configNames = configNames.take 8 ++ ([["limit"]] : List (List Text)) := rfl
  have hfields : configFields config = documentFields config none := by
    rw [configFields, h]
    rfl
  have hconcat : ∀ o, documentFields config o =
      writtenFields (configNames.take 8) (frontSlots config) ++
        (o.map fun j => ("limit".toList, j)).toList := by
    intro o
    rw [documentFields, hnames]
    exact writtenFields_concat rfl o
  have habsent : "limit".toList ∉ (configFields config).map Prod.fst := by
    rw [hfields, hconcat]
    simp only [Option.map_none, Option.toList_none, List.append_nil]
    intro hmem
    obtain ⟨f, hf, hkey⟩ := List.mem_map.mp hmem
    obtain ⟨n, hn, hname⟩ := mem_writtenFields hf
    rw [hkey] at hname
    revert n
    decide
  rw [JsonValue.insert, if_neg habsent, hfields, hconcat, hconcat]
  simp

end Reading

section Emitting

variable {s : BuilderState}

theorem emitConfig_version (s : BuilderState) : (emitConfig s).version = 1 := rfl

/-- The fields of the emitted document, with the cap as it was typed. -/
def emittedFields (s : BuilderState) : List (Text × Json) :=
  documentFields (emitConfig s) (((emitLimit s.toLimitFields).2.map fun raw =>
    .obj [("count", .str raw)]).or ((emitConfig s).limit.map limitValue))

theorem emitLimit_mistyped {s : LimitFields} {raw : Text} (h : (emitLimit s).2 = some raw) :
    (emitLimit s).1 = none := by
  unfold emitLimit at h ⊢
  by_cases hdefaults : s.limitDefaults = true
  · rw [if_pos hdefaults] at h
    cases h
  by_cases hset : s.limitSet = true
  · rw [if_neg hdefaults, if_pos hset] at h ⊢
    dsimp only at h ⊢
    by_cases hblank : trim s.limitCount = []
    · rw [if_pos hblank]
    · rw [if_neg hblank] at h ⊢
      cases hparse : parseI64 (trim s.limitCount) with
      | none => rfl
      | some count =>
        rw [hparse] at h
        cases h
  · rw [if_neg hdefaults, if_neg hset]

theorem emit_eq (s : BuilderState) :
    emit s = if (emittedFields s).length = 1 then none else some (.obj (emittedFields s)) := by
  unfold emit emittedFields
  cases hraw : (emitLimit s.toLimitFields).2 with
  | some raw =>
    have hlimit : (emitConfig s).limit = none := emitLimit_mistyped hraw
    have hfields := insert_limit hlimit (.obj [("count", .str raw)])
    exact congrArg (fun fields => if fields.length = 1 then none else some (Json.obj fields)) hfields
  | none => rfl

end Emitting

section Lists

/-- A text of nothing but separators. -/
def OnlySeparators (raw : Text) : Prop :=
  raw ≠ [] ∧ ∀ c ∈ raw, c = ',' ∨ isWhitespace c = true

theorem splitAsnField_eq_nil {raw : Text} :
    splitAsnField raw = some [] ↔ OnlySeparators (trim raw) := by
  unfold splitAsnField OnlySeparators
  split_ifs with hblank
  · exact iff_of_false (by simp) fun h => h.1 hblank
  · rw [Option.some.injEq, splitItems_eq_nil]
    exact ⟨fun h => ⟨hblank, h⟩, fun h => h.2⟩

theorem isItem_of_splitAsnField {raw : Text} {items : List Text}
    (h : splitAsnField raw = some items) : ∀ item ∈ items, IsItem ',' item := by
  unfold splitAsnField at h
  split_ifs at h
  obtain rfl := Option.some.inj h
  exact fun item hitem => isItem_of_mem hitem

theorem pad_white : ∀ c ∈ [' '], isWhitespace c = true ∧ c ≠ ',' := by decide

theorem trim_joinItems {items : List Text} (h : ∀ item ∈ items, IsItem ',' item) :
    trim (joinItems ',' [' '] items) = joinItems ',' [' '] items :=
  trim_eq_self (trimmed_joinItems h)

theorem splitAsnField_join {items : List Text} (h : ∀ item ∈ items, IsItem ',' item) :
    splitAsnField (joinItems ',' [' '] items) = nonempty items := by
  rw [splitAsnField, trim_joinItems h, splitItems_join pad_white h, nonempty]
  simp only [joinItems_eq_nil fun item hitem => (h item hitem).visible]

theorem nonempty_getD (l : List Text) : (nonempty l).getD [] = l := by
  unfold nonempty
  split_ifs with h
  · exact h.symm
  · rfl

theorem nonempty_getD_eq {o : Option (List Text)} : nonempty (o.getD []) = o ↔ o ≠ some [] := by
  rcases o with _ | _ | ⟨t, l⟩ <;> simp [nonempty]

theorem any_ne_nil {o : Option (List Text)} :
    (o.any fun l => decide (l ≠ [])) = true ↔ (nonempty (o.getD [])).isSome = true := by
  rcases o with _ | _ | ⟨t, l⟩ <;> simp [nonempty]

end Lists

section Filter

/-- Lists of typed items, as the schema holds them. -/
def ListsItems (filter : FilterConfig) : Prop :=
  (∀ item ∈ filter.asns.getD [], IsItem ',' item) ∧
    ∀ item ∈ filter.excludeAsns.getD [], IsItem ',' item

/-- The widget shows an empty list as a list that is not there. -/
theorem emitFilter_ingest_some {filter : FilterConfig} (h : ListsItems filter) :
    emitFilter (ingestFilter (some filter)) =
      some ⟨nonempty (filter.protocols.getD []), nonempty (filter.excludeProtocols.getD []),
        nonempty (filter.asns.getD []), nonempty (filter.excludeAsns.getD []),
        filter.forbidInsecure⟩ := by
  simp only [ingestFilter, any_ne_nil]
  split_ifs with hvalues
  · have hagain : filter.protocols.getD [] ≠ [] ∨ filter.excludeProtocols.getD [] ≠ [] ∨
        (nonempty (filter.asns.getD [])).isSome = true ∨
          (nonempty (filter.excludeAsns.getD [])).isSome = true ∨ filter.forbidInsecure = false := by
      have hne : ∀ l : List Text, (nonempty l).isSome = true → l ≠ [] := by
        rintro l hsome rfl
        simp [nonempty] at hsome
      rcases hvalues with hv | hv | hv
      · exact .inl (hne _ hv)
      · exact .inr (.inl (hne _ hv))
      · exact .inr (.inr hv)
    simp only [emitFilter, Bool.false_eq_true, if_false, if_true, splitAsnField_join h.1,
      splitAsnField_join h.2, if_pos hagain]
  · simp only [not_or, Bool.not_eq_true, Option.isSome_eq_false_iff, Option.isNone_iff_eq_none,
      Bool.not_eq_false] at hvalues
    obtain ⟨hprotocols, hexclude, hasns, hexcludeAsns, hforbid⟩ := hvalues
    rw [hprotocols, hexclude, hasns, hexcludeAsns, hforbid]
    rfl

theorem emitFilter_ingest (s : FilterFields) :
    emitFilter (ingestFilter (emitFilter s)) = emitFilter s ↔
      (s.filterSet = true → s.filterDefaults = false →
        ¬OnlySeparators (trim s.asns) ∧ ¬OnlySeparators (trim s.excludeAsns)) := by
  simp only [← splitAsnField_eq_nil]
  by_cases hdefaults : s.filterDefaults = true
  · have hemit : emitFilter s = some ⟨none, none, none, none, true⟩ := if_pos hdefaults
    rw [hemit]
    exact iff_of_true rfl fun _ hnot => absurd (hnot.symm.trans hdefaults) (by decide)
  by_cases hset : s.filterSet = true
  · have hcondition : (s.filterSet = true → s.filterDefaults = false →
        ¬splitAsnField s.asns = some [] ∧ ¬splitAsnField s.excludeAsns = some []) ↔
          splitAsnField s.asns ≠ some [] ∧ splitAsnField s.excludeAsns ≠ some [] :=
      ⟨fun h => h hset (by simpa using hdefaults), fun h _ _ => h⟩
    rw [hcondition]
    by_cases hvalues : s.protocols ≠ [] ∨ s.excludeProtocols ≠ [] ∨
        (splitAsnField s.asns).isSome = true ∨ (splitAsnField s.excludeAsns).isSome = true ∨
          s.forbidInsecure = false
    · have hemit : emitFilter s = some ⟨nonempty s.protocols, nonempty s.excludeProtocols,
          splitAsnField s.asns, splitAsnField s.excludeAsns, s.forbidInsecure⟩ := by
        simp only [emitFilter, if_neg hdefaults, if_pos hset, if_pos hvalues]
      have hitems : ∀ raw, ∀ item ∈ (splitAsnField raw).getD [], IsItem ',' item := by
        intro raw
        cases hsplit : splitAsnField raw with
        | none => simp
        | some items => exact isItem_of_splitAsnField hsplit
      rw [hemit, emitFilter_ingest_some ⟨hitems _, hitems _⟩]
      simp only [nonempty_getD, Option.some.injEq, FilterConfig.mk.injEq, true_and, and_true,
        nonempty_getD_eq]
    · have hemit : emitFilter s = none := by
        simp only [emitFilter, if_neg hdefaults, if_pos hset, if_neg hvalues]
      simp only [not_or, Bool.not_eq_true, Option.isSome_eq_false_iff,
        Option.isNone_iff_eq_none] at hvalues
      rw [hemit, hvalues.2.2.1, hvalues.2.2.2.1]
      exact iff_of_true rfl ⟨by simp, by simp⟩
  · have hemit : emitFilter s = none := by
      simp only [emitFilter, if_neg hdefaults, if_neg hset]
    rw [hemit]
    exact iff_of_true rfl fun h => absurd h hset

end Filter

section Targets

/-- A selector that spells out `param:` with white space in front of its key. -/
def PaddedKey (target : Text) : Prop :=
  ∃ key, stripPrefix "param:" (trim target) = some key ∧ trim key ≠ key

theorem stripPrefix_append (pattern t : Text) : stripPrefix pattern (pattern ++ t) = some t := by
  rw [stripPrefix, if_pos (List.isPrefixOf_iff_prefix.mpr (List.prefix_append pattern t)),
    List.drop_left]

theorem stripPrefix_eq_some {pattern t rest : Text} (h : stripPrefix pattern t = some rest) :
    t = pattern ++ rest := by
  unfold stripPrefix at h
  split_ifs at h with hprefix
  obtain rfl := Option.some.inj h
  obtain ⟨suffix, rfl⟩ := List.isPrefixOf_iff_prefix.mp hprefix
  rw [List.drop_left]

/-- A selector comes back from its select and key field, unless its key is trimmed there. -/
theorem emitTarget_splitTarget (target paramKey : Text) :
    emitTarget (splitTarget (emitTarget target paramKey)).1
        (splitTarget (emitTarget target paramKey)).2 = emitTarget target paramKey ↔
      ¬PaddedKey target := by
  have hplain : ∀ t : Text, stripPrefix "param:" t = none → trim target = t →
      ¬PaddedKey target := by
    rintro t hnone htarget ⟨key, hkey, -⟩
    rw [htarget, hnone] at hkey
    cases hkey
  have hparam : ∀ key, emitTarget "param" key = some ("param:" ++ trim key) := fun key => rfl
  have hnamed : ∀ key : Text, "param:" ++ key ≠ ("name" : Text) := by
    intro key heq
    have hhead := congrArg List.head? heq
    exact absurd hhead (by simp)
  have hsplit : ∀ key : Text, splitTarget (some ("param:" ++ key)) = ("param".toList, key) := by
    intro key
    rw [splitTarget, if_neg (hnamed key), stripPrefix_append]
  by_cases hname : trim target = [] ∨ trim target = "name"
  · have hemit : emitTarget target paramKey = none := if_pos hname
    rw [hemit]
    refine iff_of_true rfl ?_
    rcases hname with h | h
    · exact hplain _ (by decide) h
    · exact hplain _ (by decide) h
  by_cases hkeyed : trim target = "param"
  · have hemit : emitTarget target paramKey = some ("param:" ++ trim paramKey) := by
      rw [emitTarget, if_neg hname, if_pos hkeyed]
    rw [hemit, hsplit]
    refine iff_of_true ?_ (hplain _ (by decide) hkeyed)
    rw [hparam, trim_trim]
  have hemit : emitTarget target paramKey = some (trim target) := by
    rw [emitTarget, if_neg hname, if_neg hkeyed]
  rw [hemit]
  cases hstrip : stripPrefix "param:" (trim target) with
  | none =>
    have hraw : splitTarget (some (trim target)) = (trim target, []) := by
      rw [splitTarget, if_neg fun h => hname (.inr h), hstrip]
    rw [hraw]
    refine iff_of_true ?_ (hplain _ hstrip rfl)
    rw [emitTarget, trim_trim, if_neg hname, if_neg hkeyed]
  | some key =>
    have htext := stripPrefix_eq_some hstrip
    rw [htext, hsplit, hparam, Option.some.injEq, List.append_cancel_left_eq]
    constructor
    · rintro hkey ⟨key', hkey', hne⟩
      rw [hstrip] at hkey'
      exact hne (Option.some.inj hkey' ▸ hkey)
    · intro hnot
      by_contra hne
      exact hnot ⟨key, hstrip, hne⟩

end Targets

section Rules

theorem map_eq_self_iff {α : Type} {f : α → α} {l : List α} :
    l.map f = l ↔ ∀ a ∈ l, f a = a := by
  have hid := @List.map_inj_left α α l f id
  rwa [List.map_id] at hid

theorem emitRules_map {ρ : Type} {f : ρ → ρ} {defaults skip : Bool} {rules : List ρ} :
    (emitRules defaults skip rules).map (List.map f) = emitRules defaults skip rules ↔
      (defaults = false → skip = false → ∀ rule ∈ rules, f rule = rule) := by
  unfold emitRules
  cases defaults with
  | true => simp
  | false =>
    cases skip with
    | true => simp
    | false =>
      cases rules with
      | nil => simp
      | cons rule rules =>
        simp only [List.isEmpty_cons, Bool.false_eq_true, if_false, Option.map_some,
          Option.some.injEq, map_eq_self_iff, true_imp_iff]

theorem mem_of_emitRules {ρ : Type} {defaults skip : Bool} {rules emitted : List ρ} {rule : ρ}
    (h : emitRules defaults skip rules = some emitted) (hmem : rule ∈ emitted) : rule ∈ rules := by
  unfold emitRules at h
  split_ifs at h <;> obtain rfl := Option.some.inj h
  · cases hmem
  · exact hmem

theorem renameRule_again (row : RenameRow) :
    renameRule (renameRow (renameRule row)) = renameRule row ↔ ¬PaddedKey row.target := by
  rw [← emitTarget_splitTarget row.target row.paramKey]
  simp only [renameRule, renameRow, emitRenameTarget, RenameRule.mk.injEq, true_and]

theorem emitRename_ingest_map {o : Option (List RenameRule)}
    (h : ∀ rules, o = some rules → ∀ rule ∈ rules, rule.matchPattern ≠ []) :
    emitRename (ingestRename o) = o.map (List.map fun rule => renameRule (renameRow rule)) := by
  match o with
  | none => rfl
  | some [] => rfl
  | some (rule :: rules) =>
    have hfilled : ((rule :: rules).map renameRow).filter (fun row => row.matchPattern ≠ []) =
        (rule :: rules).map renameRow :=
      List.filter_eq_self.mpr (List.forall_mem_map.mpr fun r hr => decide_eq_true (h _ rfl r hr))
    have hingest : emitRename (ingestRename (some (rule :: rules))) =
        emitRules false false (renameRules ((rule :: rules).map renameRow)) := rfl
    rw [hingest, renameRules, hfilled, List.map_map]
    rfl

theorem pattern_of_renameRules {rows : List RenameRow} {rule : RenameRule}
    (h : rule ∈ renameRules rows) : rule.matchPattern ≠ [] := by
  obtain ⟨row, hrow, rfl⟩ := List.mem_map.mp h
  exact of_decide_eq_true (List.mem_filter.mp hrow).2

theorem emitRename_ingest (s : RenameFields) :
    emitRename (ingestRename (emitRename s)) = emitRename s ↔
      (s.renameDefaults = false → s.renameSkip = false →
        ∀ row ∈ s.rename, row.matchPattern ≠ [] → ¬PaddedKey row.target) := by
  have hpatterns : ∀ rules, emitRename s = some rules → ∀ rule ∈ rules, rule.matchPattern ≠ [] :=
    fun rules hrules rule hrule => pattern_of_renameRules (mem_of_emitRules hrules hrule)
  rw [emitRename_ingest_map hpatterns, emitRename, emitRules_map]
  simp only [renameRules, List.forall_mem_map, renameRule_again, List.mem_filter, and_imp,
    decide_eq_true_eq]

theorem splitTarget_fst (target paramKey : Text) :
    (splitTarget (emitTarget target paramKey)).1 = [] ∨
      (splitTarget (emitTarget target paramKey)).1 = "param" ∨
        (splitTarget (emitTarget target paramKey)).1 = trim target := by
  have hsplit : ∀ raw : Text, (splitTarget (some raw)).1 = [] ∨
      (splitTarget (some raw)).1 = "param" ∨ (splitTarget (some raw)).1 = raw := by
    intro raw
    dsimp only [splitTarget]
    split_ifs
    · exact .inl rfl
    · split
      · exact .inr (.inl rfl)
      · exact .inr (.inr rfl)
  unfold emitTarget
  split_ifs with hname hkeyed
  · exact .inl rfl
  · have hparam : splitTarget (some ("param:" ++ trim paramKey)) =
        ("param".toList, trim paramKey) := by
      rw [splitTarget, if_neg, stripPrefix_append]
      intro heq
      exact absurd (congrArg List.head? heq) (by simp)
    exact .inr (.inl (congrArg Prod.fst hparam))
  · exact hsplit (trim target)

theorem targetValue_ne_asn {row : DropRow} (h : row.isAsn = false) :
    row.targetValue ≠ some "asn".toList := by
  have htarget : trim row.target ≠ "asn".toList := by simpa [DropRow.isAsn] using h
  unfold DropRow.targetValue emitTarget
  split_ifs
  · simp
  · intro heq
    exact absurd (congrArg List.head? (Option.some.inj heq)) (by simp)
  · exact fun heq => htarget (Option.some.inj heq)

section Again

variable {row : DropRow}

/-- The row that a regex rule is shown as. -/
theorem dropRow_regex (h : row.isAsn = false) :
    dropRow (dropRule row) = ⟨row.matchPattern, row.flags, (splitTarget row.targetValue).1,
      (splitTarget row.targetValue).2, []⟩ := by
  have hrule : dropRule row = ⟨row.matchPattern, row.flags, row.targetValue, none⟩ := by
    rw [dropRule, h]
    rfl
  rw [hrule, dropRow]
  simp only [if_neg (targetValue_ne_asn h), Option.map_none, Option.getD_none]

theorem dropRow_regex_isAsn (h : row.isAsn = false) : (dropRow (dropRule row)).isAsn = false := by
  have htarget : trim row.target ≠ "asn".toList := by simpa [DropRow.isAsn] using h
  rw [dropRow_regex h]
  have hfst : trim (splitTarget row.targetValue).1 ≠ "asn".toList := by
    rcases splitTarget_fst row.target row.paramKey with hnil | hparam | hraw
    · rw [DropRow.targetValue, hnil]
      decide
    · rw [DropRow.targetValue, hparam]
      decide
    · rw [DropRow.targetValue, hraw, trim_trim]
      exact htarget
  simpa [DropRow.isAsn] using hfst

theorem dropRow_asn (h : row.isAsn = true) :
    dropRow (dropRule row) = ⟨[], [], "asn", [], joinItems ',' [' '] (splitItems ',' row.asns)⟩ := by
  have hrule : dropRule row =
      ⟨[], [], some "asn".toList, some (splitItems ',' row.asns)⟩ := if_pos h
  rw [hrule]
  rfl

theorem items_of_asns (row : DropRow) : ∀ item ∈ splitItems ',' row.asns, IsItem ',' item :=
  fun _ hitem => isItem_of_mem hitem

/-- A filled row is shown as a filled row, as long as its list names a number. -/
theorem isFilled_again (hfilled : row.isFilled = true)
    (hasns : row.isAsn = true → splitItems ',' row.asns ≠ []) :
    (dropRow (dropRule row)).isFilled = true := by
  cases hasn : row.isAsn with
  | true =>
    have hvisible : trim (joinItems ',' [' '] (splitItems ',' row.asns)) ≠ [] := by
      rw [trim_joinItems (items_of_asns row), ne_eq,
        joinItems_eq_nil fun item hitem => (items_of_asns row item hitem).visible]
      exact hasns hasn
    rw [dropRow_asn hasn, DropRow.isFilled]
    exact decide_eq_true hvisible
  | false =>
    have hpattern : row.matchPattern ≠ [] := by
      rw [DropRow.isFilled, hasn] at hfilled
      exact of_decide_eq_true hfilled
    rw [DropRow.isFilled, dropRow_regex_isAsn hasn, dropRow_regex hasn]
    exact decide_eq_true hpattern

theorem dropRule_again :
    dropRule (dropRow (dropRule row)) = dropRule row ↔
      (row.isAsn = false → ¬PaddedKey row.target) := by
  cases hasn : row.isAsn with
  | true =>
    refine iff_of_true ?_ fun h => absurd h (by decide)
    have hagain : ∀ asns, dropRule ⟨[], [], "asn", [], asns⟩ =
        ⟨[], [], some "asn".toList, some (splitItems ',' asns)⟩ := fun asns => rfl
    rw [dropRow_asn hasn, hagain, splitItems_join pad_white (items_of_asns row)]
    exact (if_pos hasn).symm
  | false =>
    have hregex : (false = false → ¬PaddedKey row.target) ↔ ¬PaddedKey row.target :=
      ⟨fun h => h rfl, fun h _ => h⟩
    rw [hregex, ← emitTarget_splitTarget row.target row.paramKey]
    have hagain := dropRow_regex_isAsn hasn
    rw [dropRow_regex hasn] at hagain ⊢
    rw [dropRule, hagain, dropRule, hasn]
    simp only [Bool.false_eq_true, if_false, DropRow.targetValue, DropRule.mk.injEq, true_and,
      and_true]

end Again

theorem emitDrop_ingest_map {o : Option (List DropRule)}
    (h : ∀ rules, o = some rules → ∀ rule ∈ rules, (dropRow rule).isFilled = true) :
    emitDrop (ingestDrop o) = o.map (List.map fun rule => dropRule (dropRow rule)) := by
  match o with
  | none => rfl
  | some [] => rfl
  | some (rule :: rules) =>
    have hfilled : ((rule :: rules).map dropRow).filter DropRow.isFilled =
        (rule :: rules).map dropRow :=
      List.filter_eq_self.mpr (List.forall_mem_map.mpr fun r hr => h _ rfl r hr)
    have hingest : emitDrop (ingestDrop (some (rule :: rules))) =
        emitRules false false (dropRules ((rule :: rules).map dropRow)) := rfl
    rw [hingest, dropRules, hfilled, List.map_map]
    rfl

theorem emitDrop_ingest (s : DropFields)
    (h : ∀ rules, emitDrop s = some rules → ∀ rule ∈ rules,
      rule.target = some "asn".toList → rule.asns ≠ some []) :
    emitDrop (ingestDrop (emitDrop s)) = emitDrop s ↔
      (s.dropDefaults = false → s.dropSkip = false →
        ∀ row ∈ s.drop, row.isFilled = true → row.isAsn = false → ¬PaddedKey row.target) := by
  have hfilled : ∀ rules, emitDrop s = some rules →
      ∀ rule ∈ rules, (dropRow rule).isFilled = true := by
    intro rules hrules rule hrule
    obtain ⟨row, hrow, rfl⟩ := List.mem_map.mp (mem_of_emitRules hrules hrule)
    refine isFilled_again (List.mem_filter.mp hrow).2 fun hasn hnil => ?_
    have hemitted : dropRule row =
        ⟨[], [], some "asn".toList, some (splitItems ',' row.asns)⟩ := if_pos hasn
    have hasns := h rules hrules _ hrule
    rw [hemitted, hnil] at hasns
    exact hasns rfl rfl
  rw [emitDrop_ingest_map hfilled, emitDrop, emitRules_map]
  simp only [dropRules, List.forall_mem_map, dropRule_again, List.mem_filter, and_imp]

end Rules

section Others

theorem emitGeo_ingest (s : GeoFields) : emitGeo (ingestGeo (emitGeo s)) = emitGeo s := by
  have hdefault : ¬OwnTemplate (trim defaultGeoTemplate) := by decide
  have htrim : trim defaultGeoTemplate = defaultGeoTemplate := by decide
  unfold emitGeo
  by_cases hdefaults : s.geoDefaults = true
  · rw [if_pos hdefaults]
    rfl
  by_cases hset : s.geoSet = true
  · rw [if_neg hdefaults, if_pos hset]
    dsimp only
    by_cases hown : OwnTemplate (trim s.geoTemplate)
    · have hne : trim s.geoTemplate ≠ defaultGeoTemplate := hown.2
      simp only [hown, or_true, if_true, ingestGeo, trim_trim, ne_eq, hne, not_false_eq_true,
        Bool.false_eq_true, if_false]
    · by_cases henabled : s.geoEnabled = false
      · simp only [henabled, hown, true_or, if_true, if_false, ingestGeo, htrim, ne_eq,
          not_true_eq_false, Bool.false_eq_true]
        rfl
      · simp only [henabled, hown, if_false]
        rfl
  · rw [if_neg hdefaults, if_neg hset]
    rfl

theorem emitHealth_ingest (s : HealthFields) :
    emitHealth (ingestHealth (emitHealth s)) = emitHealth s := by
  unfold emitHealth
  by_cases hdefaults : s.healthDefaults = true
  · rw [if_pos hdefaults]
    rfl
  by_cases hset : s.healthSet = true ∧ s.excludeStatuses ≠ defaultExcludeStatuses
  · rw [if_neg hdefaults, if_pos hset]
    simp only [ingestHealth, if_pos hset.2, Bool.false_eq_true, if_false]
    exact if_pos ⟨trivial, hset.2⟩
  · rw [if_neg hdefaults, if_neg hset]
    rfl

theorem find_asStr (sortBy : SortBy) :
    (SortBy.all.find? fun sort => sort.asStr == sortBy.asStr) = some sortBy := by
  cases sortBy <;> decide

theorem emitSort_ingest (s : SortFields) : emitSort (ingestSort (emitSort s)) = emitSort s := by
  have hagain : ∀ sortBy desc, emitSort (ingestSort (some ⟨sortBy, desc⟩)) =
      some ⟨sortBy, desc⟩ := by
    intro sortBy desc
    by_cases hvalues : sortBy ≠ .source ∨ desc = true
    · simp only [ingestSort, if_pos hvalues, emitSort, Bool.false_eq_true, if_false, if_true,
        find_asStr, Option.getD_some]
    · have hboth : sortBy = .source ∧ desc = false := by simpa using hvalues
      rw [hboth.1, hboth.2]
      rfl
  cases hemit : emitSort s with
  | none => rfl
  | some sort => exact hagain sort.sortBy sort.desc

theorem representable_emitLimit {s : LimitFields} {limit : LimitConfig}
    (h : (emitLimit s).1 = some limit) : Representable limit := by
  unfold emitLimit at h
  dsimp only at h
  split_ifs at h
  · obtain rfl := Option.some.inj h
    exact fun count hcount => absurd hcount (by simp)
  · cases hparse : parseI64 (trim s.limitCount) with
    | none =>
      rw [hparse] at h
      cases h
    | some count =>
      rw [hparse] at h
      obtain rfl := Option.some.inj h
      intro count' hcount
      obtain rfl := Option.some.inj hcount
      exact parseI64_range hparse

theorem emitLimit_ingest (s : LimitFields) :
    emitLimit (ingestLimit (emitLimit s).1) = ((emitLimit s).1, none) := by
  cases hemit : (emitLimit s).1 with
  | none => rfl
  | some limit =>
    have hrange := representable_emitLimit hemit
    obtain ⟨_ | count⟩ := limit
    · rfl
    · have hread := parseI64_decimalInt (hrange count rfl)
      simp only [ingestLimit, emitLimit, Bool.false_eq_true, if_false, if_true,
        trim_decimalInt, if_neg (decimalInt_ne_nil count), hread]

end Others

end EmittedPipelines
