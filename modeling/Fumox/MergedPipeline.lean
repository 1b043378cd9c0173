import Fumox.PipelineConfig

/-!
The pipeline of a profile laid over that of a source.  The two documents are merged before either
is interpreted, so a section that the profile names without a value hides the one of the source.
-/

namespace MergedPipeline

open RustText JsonValue SerdeValue ProxyModels PipelineConfig

/-- The sections of a document; `dedup` is checked and compiles to nothing. -/
inductive Section where
  | filter | rename | drop | geo | health | dedup | sort | limit
  deriving DecidableEq, Repr

namespace Section

def name : Section → Text
  | filter => "filter"
  | rename => "rename"
  | drop => "drop"
  | geo => "geo"
  | health => "health"
  | dedup => "dedup"
  | sort => "sort"
  | limit => "limit"

def place : Section → ℕ
  | filter => 1
  | rename => 2
  | drop => 3
  | geo => 4
  | health => 5
  | dedup => 6
  | sort => 7
  | limit => 8

end Section

/-- What a document holds for a section, under its name or at its place. -/
def written (document : Option Json) (section_ : Section) : Option Json :=
  (document.bind (structFields configNames)).bind fun slots => slots.getD section_.place none

/-- The document gives the section a value. -/
def Carries (document : Option Json) (section_ : Section) : Prop :=
  written document section_ ≠ none ∧ written document section_ ≠ some .null

def TakenFromProfile : Option Json → Option Json → Section → Prop
  | _, none, _ => False
  | some (.obj _), some (.obj fields), section_ => section_.name ∈ fields.map Prod.fst
  | _, some _, _ => True

def SameSection {ρ : Type} : Section → CompiledPipeline ρ → CompiledPipeline ρ → Prop
  | .filter, a, b => a.filterProtocols = b.filterProtocols ∧
      a.excludeProtocols = b.excludeProtocols ∧ a.filterAsns = b.filterAsns ∧
      a.excludeAsns = b.excludeAsns ∧ a.forbidInsecure = b.forbidInsecure
  | .rename, a, b => a.rename = b.rename
  | .drop, a, b => a.drop = b.drop
  | .geo, a, b => a.geoEnabled = b.geoEnabled ∧ a.geoTemplate = b.geoTemplate
  | .health, a, b => a.excludeStatuses = b.excludeStatuses
  | .dedup, _, _ => True
  | .sort, a, b => a.sortBy = b.sortBy ∧ a.sortDesc = b.sortDesc ∧ a.sortExplicit = b.sortExplicit
  | .limit, a, b => a.limitCount = b.limitCount

section Configs

def AgreeOn : Section → Config → Config → Prop
  | .filter, a, b => a.filter = b.filter
  | .rename, a, b => a.rename = b.rename
  | .drop, a, b => a.drop = b.drop
  | .geo, a, b => a.geo = b.geo
  | .health, a, b => a.health = b.health
  | .dedup, a, b => a.dedup = b.dedup
  | .sort, a, b => a.sort = b.sort
  | .limit, a, b => a.limit = b.limit

/-- The configuration that has the chosen sections of the profile and the others of the source. -/
def pick (choose : Section → Prop) [DecidablePred choose] (p s : Config) : Config where
  version := 1
  filter := if choose .filter then p.filter else s.filter
  rename := if choose .rename then p.rename else s.rename
  drop := if choose .drop then p.drop else s.drop
  geo := if choose .geo then p.geo else s.geo
  health := if choose .health then p.health else s.health
  dedup := if choose .dedup then p.dedup else s.dedup
  sort := if choose .sort then p.sort else s.sort
  limit := if choose .limit then p.limit else s.limit

def ReadsSection : Section → Option Json → Config → Prop
  | .filter, slot, c => optional readFilter slot = some c.filter
  | .rename, slot, c => optional (readVec readRenameRule) slot = some c.rename
  | .drop, slot, c => optional (readVec readDropRule) slot = some c.drop
  | .geo, slot, c => optional readGeo slot = some c.geo
  | .health, slot, c => optional readHealth slot = some c.health
  | .dedup, slot, c => optional readDedup slot = some c.dedup
  | .sort, slot, c => optional readSort slot = some c.sort
  | .limit, slot, c => optional readLimit slot = some c.limit

/-- The configuration of a document without sections. -/
def emptyConfig : Config :=
  ⟨1, none, none, none, none, none, none, none, none⟩

def configOf : Option Json → Option Config
  | none | some .null | some (.obj []) => some emptyConfig
  | some document => readConfig document

variable {a b c p s : Config} {section_ : Section} {slots : List (Option Json)} {slot : Option Json}

theorem AgreeOn.refl (section_ : Section) (c : Config) : AgreeOn section_ c c := by
  cases section_ <;> rfl

theorem pick_agree (choose : Section → Prop) [DecidablePred choose] (section_ : Section) :
    AgreeOn section_ (pick choose p s) (if choose section_ then p else s) := by
  cases section_ <;> simp only [AgreeOn, pick] <;> split <;> rfl

theorem AgreeOn.reads (h : AgreeOn section_ a b) (hb : ReadsSection section_ slot b) :
    ReadsSection section_ slot a := by
  cases section_ <;> exact hb.trans (congrArg some h.symm)

theorem readsSection_absent (hslot : slot = none ∨ slot = some .null) :
    ReadsSection section_ slot c ↔ AgreeOn section_ c emptyConfig := by
  have hread : ∀ {α : Type} {read : Json → Option α} {x : Option α},
      optional read slot = some x ↔ x = none := by
    intro α read x
    rcases hslot with rfl | rfl
    · exact ⟨fun h => (Option.some.inj h).symm, fun h => congrArg some h.symm⟩
    · exact ⟨fun h => (Option.some.inj h).symm, fun h => congrArg some h.symm⟩
  cases section_ <;> exact hread

theorem readSections_iff (hlength : slots.length = 9) :
    readSections slots = some c ↔ required readU8 (slots.getD 0 none) = some c.version ∧
      ∀ section_ : Section, ReadsSection section_ (slots.getD section_.place none) c := by
  match slots, hlength with
  | [version, filter, rename, drop, geo, health, dedup, sort, limit], _ =>
    constructor
    · intro h
      simp only [readSections, bind, pure, Option.bind_eq_some_iff] at h
      obtain ⟨v, hversion, f, hfilter, r, hrename, d, hdrop, g, hgeo, x, hhealth, y, hdedup,
        z, hsort, w, hlimit, hc⟩ := h
      obtain rfl := Option.some.inj hc
      refine ⟨hversion, fun section_ => ?_⟩
      cases section_
      case filter => exact hfilter
      case rename => exact hrename
      case drop => exact hdrop
      case geo => exact hgeo
      case health => exact hhealth
      case dedup => exact hdedup
      case sort => exact hsort
      case limit => exact hlimit
    · rintro ⟨hversion, hsections⟩
      have hfilter : optional readFilter filter = some c.filter := hsections .filter
      have hrename : optional (readVec readRenameRule) rename = some c.rename := hsections .rename
      have hdrop : optional (readVec readDropRule) drop = some c.drop := hsections .drop
      have hgeo : optional readGeo geo = some c.geo := hsections .geo
      have hhealth : optional readHealth health = some c.health := hsections .health
      have hdedup : optional readDedup dedup = some c.dedup := hsections .dedup
      have hsort : optional readSort sort = some c.sort := hsections .sort
      have hlimit : optional readLimit limit = some c.limit := hsections .limit
      have hversion : required readU8 version = some c.version := hversion
      simp only [readSections, bind, pure, hversion, hfilter, hrename, hdrop, hgeo, hhealth,
        hdedup, hsort, hlimit, Option.bind_some]

end Configs

section Objects

def names : List Text :=
  ["version", "filter", "rename", "drop", "geo", "health", "dedup", "sort", "limit"]

def slotOf (fields : List (Text × Json)) (name : Text) : Option Json :=
  ((occurrences name fields).head?).map (·.2)

/-- Every key is known and none is repeated. -/
def WellKeyed (fields : List (Text × Json)) : Prop :=
  (∀ f ∈ fields, f.1 ∈ names) ∧ ∀ n ∈ names, (occurrences n fields).length ≤ 1

variable {fields s p : List (Text × Json)} {c : Config} {section_ : Section} {name : Text}

theorem name_mem (section_ : Section) : section_.name ∈ names := by
  cases section_ <;> decide

theorem slots_obj {slots : List (Option Json)} :
    structFields configNames (.obj fields) = some slots ↔
      WellKeyed fields ∧ slots = names.map (slotOf fields) :=
  (structFields_single : structFields (names.map fun n => [n]) _ = _ ↔ _)

theorem getD_place (section_ : Section) :
    (names.map (slotOf fields)).getD section_.place none = slotOf fields section_.name := by
  cases section_ <;> rfl

theorem readConfig_obj :
    readConfig (.obj fields) = some c ↔ WellKeyed fields ∧
      required readU8 (slotOf fields "version") = some c.version ∧
        ∀ section_ : Section, ReadsSection section_ (slotOf fields section_.name) c := by
  rw [readConfig, Option.bind_eq_some_iff]
  constructor
  · rintro ⟨slots, hslots, hread⟩
    obtain ⟨hkeyed, rfl⟩ := slots_obj.mp hslots
    obtain ⟨hversion, hsections⟩ := (readSections_iff (by rfl)).mp hread
    refine ⟨hkeyed, hversion, fun section_ => ?_⟩
    rw [← getD_place]
    exact hsections section_
  · rintro ⟨hkeyed, hversion, hsections⟩
    refine ⟨_, slots_obj.mpr ⟨hkeyed, rfl⟩, (readSections_iff (by rfl)).mpr ⟨hversion, ?_⟩⟩
    intro section_
    rw [getD_place]
    exact hsections section_

theorem configOf_obj (h : configOf (some (.obj fields)) = some c) :
    WellKeyed fields ∧ (fields ≠ [] → required readU8 (slotOf fields "version") = some c.version) ∧
      ∀ section_ : Section, ReadsSection section_ (slotOf fields section_.name) c := by
  cases fields with
  | nil =>
    obtain rfl := Option.some.inj h
    refine ⟨⟨fun f hf => absurd hf List.not_mem_nil, fun n _ => Nat.zero_le 1⟩,
      fun hne => absurd rfl hne, fun section_ => ?_⟩
    exact (readsSection_absent (.inl rfl)).mpr (.refl _ _)
  | cons f rest =>
    obtain ⟨hkeyed, hversion, hsections⟩ := readConfig_obj.mp h
    exact ⟨hkeyed, fun _ => hversion, hsections⟩

theorem configOf_cons (hne : fields ≠ []) :
    configOf (some (.obj fields)) = readConfig (.obj fields) := by
  cases fields with
  | nil => exact absurd rfl hne
  | cons f rest => rfl

theorem occurrences_eq_nil_iff : occurrences name fields = [] ↔ name ∉ fields.map Prod.fst := by
  rw [occurrences, List.filter_eq_nil_iff]
  constructor
  · rintro h hmem
    obtain ⟨f, hf, rfl⟩ := List.mem_map.mp hmem
    exact h f hf (decide_eq_true rfl)
  · intro h f hf hname
    exact h (List.mem_map.mpr ⟨f, hf, of_decide_eq_true hname⟩)

theorem slotOf_insertAll (hone : (occurrences name p).length ≤ 1) :
    slotOf (insertAll s p) name =
      if name ∈ p.map Prod.fst then slotOf p name else slotOf s name := by
  rw [slotOf, occurrences_insertAll]
  split
  next hmem =>
    obtain ⟨f, rest, hocc⟩ := List.exists_cons_of_ne_nil
      fun hnil => occurrences_eq_nil_iff.mp hnil hmem
    rw [hocc, List.length_cons] at hone
    obtain rfl : rest = [] := List.length_eq_zero_iff.mp (by omega)
    have hname : f.1 = name := occurrences_name f (hocc ▸ List.mem_cons_self)
    have hstep : insertAll (occurrences name s) [f] =
        JsonValue.insert (occurrences name s) f.1 f.2 := rfl
    rw [slotOf, hocc, hstep, JsonValue.insert]
    cases hs : occurrences name s with
    | nil => rfl
    | cons g rest =>
      have hg : g.1 = name := occurrences_name g (hs ▸ List.mem_cons_self)
      rw [if_pos (by rw [hname, List.map_cons, hg]; exact List.mem_cons_self), List.map_cons,
        if_pos (hg.trans hname.symm)]
      rfl
  next hmem =>
    rw [occurrences_eq_nil_iff.mpr hmem]
    rfl

theorem wellKeyed_insertAll (hs : WellKeyed s) (hp : WellKeyed p) : WellKeyed (insertAll s p) :=
  (merged_keys_iff hp.1).mpr hs

end Objects

section Merged

variable {s p : Option Json} {cs cp c : Config} {section_ : Section}

instance : Decidable (TakenFromProfile s p section_) := by
  cases s with
  | none =>
    cases p with
    | none => exact instDecidableFalse
    | some document => cases document <;> exact instDecidableTrue
  | some source =>
    cases p with
    | none => cases source <;> exact instDecidableFalse
    | some document =>
      cases source <;> cases document <;>
        first | exact instDecidableTrue | exact inferInstanceAs (Decidable (_ ∈ _))

theorem profile_wins (s : Option Json) (document : Json) :
    (∃ fields rest, s = some (.obj fields) ∧ document = .obj rest) ∨
      (mergeConfigs s (some document) = some document ∧
        ∀ section_, TakenFromProfile s (some document) section_) := by
  cases s with
  | none => exact .inr ⟨rfl, fun section_ => by cases document <;> trivial⟩
  | some source =>
    cases document with
    | obj rest =>
      cases source with
      | obj fields => exact .inl ⟨fields, rest, rfl, rfl⟩
      | _ => exact .inr ⟨rfl, fun _ => trivial⟩
    | _ => cases source <;> exact .inr ⟨rfl, fun _ => trivial⟩

theorem configOf_merged_objects {s p : List (Text × Json)}
    (hs : configOf (some (.obj s)) = some cs) (hp : configOf (some (.obj p)) = some cp)
    (hsv : cs.version = 1) (hpv : cp.version = 1) :
    configOf (some (.obj (insertAll s p))) =
      some (pick (fun section_ => section_.name ∈ p.map Prod.fst) cp cs) := by
  obtain ⟨hskeyed, hsversion, hssections⟩ := configOf_obj hs
  obtain ⟨hpkeyed, hpversion, hpsections⟩ := configOf_obj hp
  by_cases hnil : insertAll s p = []
  · have hlength := @length_le_insertAll s p
    rw [hnil] at hlength
    obtain rfl : s = [] := List.length_eq_zero_iff.mp (Nat.le_zero.mp hlength)
    obtain rfl : p = [] := by
      by_contra hne
      obtain ⟨f, hf⟩ := List.exists_mem_of_ne_nil p hne
      have hmem : f.1 ∈ (insertAll [] p).map Prod.fst :=
        mem_keys_insertAll.mpr (.inr (List.mem_map_of_mem hf))
      rw [hnil] at hmem
      exact absurd hmem List.not_mem_nil
    obtain rfl := Option.some.inj hs
    rfl
  · rw [configOf_cons hnil, readConfig_obj]
    refine ⟨wellKeyed_insertAll hskeyed hpkeyed, ?_, fun section_ => ?_⟩
    · rw [slotOf_insertAll (hpkeyed.2 _ List.mem_cons_self)]
      by_cases hempty : p = []
      · subst hempty
        have hversion := hsversion hnil
        rw [hsv] at hversion
        exact hversion
      · have hversion := hpversion hempty
        rw [hpv] at hversion
        have hmem : ("version" : Text) ∈ p.map Prod.fst := by
          by_contra hnot
          rw [slotOf, occurrences_eq_nil_iff.mpr hnot] at hversion
          cases hversion
        rw [if_pos hmem]
        exact hversion
    · rw [slotOf_insertAll (hpkeyed.2 _ (name_mem section_))]
      refine (pick_agree _ section_).reads ?_
      split
      · exact hpsections section_
      · exact hssections section_

theorem configOf_merge (hs : configOf s = some cs) (hp : configOf p = some cp)
    (hsv : cs.version = 1) (hpv : cp.version = 1) :
    ∃ cm, configOf (mergeConfigs s p) = some cm ∧ cm.version = 1 ∧ ∀ section_,
      AgreeOn section_ cm (if TakenFromProfile s p section_ then cp else cs) := by
  cases p with
  | none =>
    have hsource : mergeConfigs s none = s := by cases s <;> rfl
    have hnone : ∀ section_, ¬TakenFromProfile s none section_ := fun section_ => by
      cases s <;> exact id
    refine ⟨cs, by rw [hsource, hs], hsv, fun section_ => ?_⟩
    rw [if_neg (hnone section_)]
    exact .refl _ _
  | some document =>
    rcases profile_wins s document with ⟨fields, rest, rfl, rfl⟩ | ⟨hwins, htaken⟩
    · exact ⟨_, configOf_merged_objects hs hp hsv hpv, rfl, fun section_ => pick_agree _ section_⟩
    · refine ⟨cp, by rw [hwins, hp], hpv, fun section_ => ?_⟩
      rw [if_pos (htaken section_)]
      exact .refl _ _

end Merged

section Compilation

variable {engines : Engines} {a b c : Config} {section_ : Section}

def sectionIssues (engines : Engines) (c : Config) : Section → List PipelineIssue
  | .filter =>
    let filter := c.filter.getD ⟨none, none, none, none, true⟩
    (parseSchemeList filter.protocols "filter.protocols").2 ++
      (parseSchemeList filter.excludeProtocols "filter.exclude_protocols").2 ++
      (parseAsnList filter.asns "filter.asns").2 ++
      (parseAsnList filter.excludeAsns "filter.exclude_asns").2
  | .rename => (compileRules (compileRename engines) 0 (c.rename.getD [])).2
  | .drop => (compileRules (compileDrop engines) 0 (c.drop.getD [])).2
  | .geo => (compileGeo c.geo).2
  | .health => (compileHealth c.health).2
  | .dedup => compileDedup c.dedup
  | .sort => []
  | .limit => (compileLimit c.limit).2

theorem issues_nil_iff : (compile engines c).2 = [] ↔
    c.version = 1 ∧ ∀ section_, sectionIssues engines c section_ = [] := by
  have hversion : compileVersion c.version = [] ↔ c.version = 1 := by
    rw [compileVersion]
    split
    next hne => exact iff_of_false (List.cons_ne_nil _ _) hne
    next heq => exact iff_of_true rfl (not_not.mp heq)
  simp only [compile, List.append_eq_nil_iff, hversion, and_assoc]
  constructor
  · rintro ⟨hone, hprotocols, hexcluded, hasns, hexcludedAsns, hrename, hdrop, hgeo, hhealth,
      hdedup, hlimit⟩
    refine ⟨hone, fun section_ => ?_⟩
    cases section_
    case filter =>
      rw [sectionIssues, hprotocols, hexcluded, hasns, hexcludedAsns]
      rfl
    case sort => rfl
    all_goals assumption
  · rintro ⟨hone, hsections⟩
    have hfilter := hsections .filter
    simp only [sectionIssues, List.append_eq_nil_iff] at hfilter
    obtain ⟨⟨⟨hprotocols, hexcluded⟩, hasns⟩, hexcludedAsns⟩ := hfilter
    exact ⟨hone, hprotocols, hexcluded, hasns, hexcludedAsns, hsections .rename, hsections .drop,
      hsections .geo, hsections .health, hsections .dedup, hsections .limit⟩

theorem AgreeOn.issues (h : AgreeOn section_ a b) :
    sectionIssues engines a section_ = sectionIssues engines b section_ := by
  cases section_ <;> simp only [AgreeOn] at h <;> simp only [sectionIssues, h]

theorem AgreeOn.compiled (h : AgreeOn section_ a b) :
    SameSection section_ (compile engines a).1 (compile engines b).1 := by
  cases section_ <;> simp only [AgreeOn] at h <;> simp only [SameSection, compile, h, and_self]

theorem fromJson_ok_iff {document : Option Json} {compiled : CompiledPipeline engines.Regex} :
    fromJson engines document = .ok compiled ↔ ∃ c, configOf document = some c ∧
      (compile engines c).2 = [] ∧ compiled = (compile engines c).1 := by
  have hempty : Except.ok {} = (.ok compiled : Except (List PipelineIssue) _) ↔
      ∃ c, some emptyConfig = some c ∧ (compile engines c).2 = [] ∧
        compiled = (compile engines c).1 := by
    constructor
    · intro h
      exact ⟨emptyConfig, rfl, rfl, (Except.ok.inj h).symm⟩
    · rintro ⟨c, hc, -, rfl⟩
      obtain rfl := Option.some.inj hc
      rfl
  have hread : ∀ value, fromJson engines (some value) = (readConfig value).elim
      (.error [⟨"pipeline.invalid", [engines.typeError value]⟩])
      (fun config => if (compile engines config).2 = [] then .ok (compile engines config).1
        else .error (compile engines config).2) →
      (fromJson engines (some value) = .ok compiled ↔ ∃ c, readConfig value = some c ∧
        (compile engines c).2 = [] ∧ compiled = (compile engines c).1) := by
    intro value hfrom
    rw [hfrom]
    cases hconfig : readConfig value with
    | none => exact iff_of_false (fun h => by cases h) fun ⟨_, hc, _⟩ => by cases hc
    | some config =>
      rw [Option.elim_some]
      constructor
      · intro h
        split at h
        next hissues => exact ⟨config, rfl, hissues, (Except.ok.inj h).symm⟩
        next => cases h
      · rintro ⟨c, hc, hissues, rfl⟩
        obtain rfl := Option.some.inj hc
        exact if_pos hissues
  have hmatch : ∀ value, value ≠ .null → value ≠ .obj [] → fromJson engines (some value) =
      (readConfig value).elim (.error [⟨"pipeline.invalid", [engines.typeError value]⟩])
        (fun config => if (compile engines config).2 = [] then .ok (compile engines config).1
          else .error (compile engines config).2) := by
    intro value hnull hempty
    unfold fromJson
    cases value with
    | null => exact absurd rfl hnull
    | obj fields =>
      cases fields with
      | nil => exact absurd rfl hempty
      | cons f rest => cases h : readConfig (.obj (f :: rest)) <;> simp [h]
    | bool b => cases h : readConfig (.bool b) <;> simp [h]
    | num n => cases h : readConfig (.num n) <;> simp [h]
    | str t => cases h : readConfig (.str t) <;> simp [h]
    | arr items => cases h : readConfig (.arr items) <;> simp [h]
  cases document with
  | none => exact hempty
  | some value =>
    cases value with
    | null => exact hempty
    | obj fields =>
      cases fields with
      | nil => exact hempty
      | cons f rest => exact hread _ (hmatch _ Json.noConfusion (by simp))
    | bool value => exact hread _ (hmatch _ Json.noConfusion Json.noConfusion)
    | num value => exact hread _ (hmatch _ Json.noConfusion Json.noConfusion)
    | str value => exact hread _ (hmatch _ Json.noConfusion Json.noConfusion)
    | arr items => exact hread _ (hmatch _ Json.noConfusion Json.noConfusion)

end Compilation

section Override

variable {engines : Engines} {s p : Option Json} {cs cp : CompiledPipeline engines.Regex}

theorem SameSection.symm {ρ : Type} {section_ : Section} {a b : CompiledPipeline ρ}
    (h : SameSection section_ a b) : SameSection section_ b a := by
  cases section_ <;> simp only [SameSection] at h ⊢ <;> simp [h]

theorem SameSection.trans {ρ : Type} {section_ : Section} {a b c : CompiledPipeline ρ}
    (h : SameSection section_ a b) (h' : SameSection section_ b c) : SameSection section_ a c := by
  cases section_ <;> simp only [SameSection] at h h' ⊢ <;> simp [h, h']

theorem reads_written {document : Option Json} {c : Config} (h : configOf document = some c)
    (section_ : Section) : ReadsSection section_ (written document section_) c := by
  have hempty : ∀ document : Option Json, document.bind (structFields configNames) = none →
      some emptyConfig = some c → ReadsSection section_ (written document section_) c := by
    intro document hnone hc
    obtain rfl := Option.some.inj hc
    rw [written, hnone]
    exact (readsSection_absent (.inl rfl)).mpr (.refl _ _)
  have hslots : ∀ value, readConfig value = some c →
      ReadsSection section_ (written (some value) section_) c := by
    intro value hread
    rw [readConfig, Option.bind_eq_some_iff] at hread
    obtain ⟨slots, hslots, hread⟩ := hread
    rw [written, Option.bind_some, hslots, Option.bind_some]
    exact ((readSections_iff (length_structFields hslots)).mp hread).2 section_
  cases document with
  | none => exact hempty none rfl h
  | some value =>
    cases value with
    | null => exact hempty (some .null) rfl h
    | obj fields =>
      obtain ⟨hkeyed, -, hsections⟩ := configOf_obj h
      rw [written, Option.bind_some, slots_obj.mpr ⟨hkeyed, rfl⟩, Option.bind_some, getD_place]
      exact hsections section_
    | bool value => exact hslots (.bool value) h
    | num value => exact hslots (.num value) h
    | str value => exact hslots (.str value) h
    | arr items => exact hslots (.arr items) h

theorem default_of_not_carries {document : Option Json} {compiled : CompiledPipeline engines.Regex}
    {section_ : Section} (h : fromJson engines document = .ok compiled)
    (hnot : ¬Carries document section_) : SameSection section_ compiled {} := by
  obtain ⟨c, hc, -, rfl⟩ := fromJson_ok_iff.mp h
  have habsent : written document section_ = none ∨ written document section_ = some .null := by
    by_cases hnone : written document section_ = none
    · exact .inl hnone
    · by_cases hnull : written document section_ = some .null
      · exact .inr hnull
      · exact absurd ⟨hnone, hnull⟩ hnot
  have hagree := (readsSection_absent habsent).mp (reads_written hc section_)
  have hsame : SameSection section_ (compile engines c).1 (compile engines emptyConfig).1 :=
    hagree.compiled
  exact hsame

theorem taken_of_carries {section_ : Section} (h : Carries p section_) :
    TakenFromProfile s p section_ := by
  cases p with
  | none => exact absurd rfl h.1
  | some document =>
    rcases profile_wins s document with ⟨fields, rest, rfl, rfl⟩ | ⟨-, htaken⟩
    · by_contra hnot
      have hmem : section_.name ∉ rest.map Prod.fst := hnot
      refine h.1 ?_
      rw [written, Option.bind_some]
      cases hslots : structFields configNames (.obj rest) with
      | none => rfl
      | some slots =>
        obtain ⟨-, rfl⟩ := slots_obj.mp hslots
        rw [Option.bind_some, getD_place, slotOf, occurrences_eq_nil_iff.mpr hmem]
        rfl
    · exact htaken section_

/-- Every section is the one of the profile where that carries a value for it, and the one of the
source elsewhere. -/
def Overrides {ρ : Type} (p : Option Json) (cs cp cm : CompiledPipeline ρ) : Prop :=
  ∀ section_, (Carries p section_ → SameSection section_ cm cp) ∧
    (¬Carries p section_ → SameSection section_ cm cs)

/-- The merged document of two accepted ones is accepted.  It is a section-wise override exactly
when the source has the default of every section that the profile hides without a value of its
own. -/
theorem section_override_iff (hs : fromJson engines s = .ok cs) (hp : fromJson engines p = .ok cp) :
    ∃ cm, fromJson engines (mergeConfigs s p) = .ok cm ∧
      (Overrides p cs cp cm ↔ ∀ section_, TakenFromProfile s p section_ →
        ¬Carries p section_ → SameSection section_ cs {}) := by
  obtain ⟨a, ha, haissues, rfl⟩ := fromJson_ok_iff.mp hs
  obtain ⟨b, hb, hbissues, rfl⟩ := fromJson_ok_iff.mp hp
  obtain ⟨m, hm, hversion, hagree⟩ := configOf_merge ha hb (issues_nil_iff.mp haissues).1
    (issues_nil_iff.mp hbissues).1
  have htaken : ∀ section_, TakenFromProfile s p section_ →
      SameSection section_ (compile engines m).1 (compile engines b).1 := by
    intro section_ h
    have hsection := hagree section_
    rw [if_pos h] at hsection
    exact hsection.compiled
  have hkept : ∀ section_, ¬TakenFromProfile s p section_ →
      SameSection section_ (compile engines m).1 (compile engines a).1 := by
    intro section_ h
    have hsection := hagree section_
    rw [if_neg h] at hsection
    exact hsection.compiled
  have hissues : (compile engines m).2 = [] := by
    refine issues_nil_iff.mpr ⟨hversion, fun section_ => ?_⟩
    rw [(hagree section_).issues]
    split
    · exact (issues_nil_iff.mp hbissues).2 section_
    · exact (issues_nil_iff.mp haissues).2 section_
  refine ⟨_, fromJson_ok_iff.mpr ⟨m, hm, hissues, rfl⟩, ?_⟩
  constructor
  · intro h section_ htakes hnot
    have hsource := (h section_).2 hnot
    exact hsource.symm.trans ((htaken section_ htakes).trans (default_of_not_carries hp hnot))
  · intro h section_
    constructor
    · intro hcarries
      exact htaken section_ (taken_of_carries hcarries)
    · intro hnot
      by_cases htakes : TakenFromProfile s p section_
      · exact ((htaken section_ htakes).trans (default_of_not_carries hp hnot)).trans
          (h section_ htakes hnot).symm
      · exact hkept section_ htakes

def noRules : Engines :=
  ⟨Empty, fun _ _ _ _ => .error [], fun r _ => r.elim, fun r _ _ => r.elim, fun _ => []⟩

def vlessOnly : Json :=
  .obj [("version", .num (.posInt 1)), ("filter", .obj [("protocols", .arr [.str "vless"])])]

def vlessPipeline : CompiledPipeline noRules.Regex :=
  { filterProtocols := some [.vless] }

theorem vlessOnly_accepted : fromJson noRules (some vlessOnly) = .ok vlessPipeline := rfl

def sortedByName : Json :=
  .obj [("version", .num (.posInt 1)), ("sort", .obj [("by", .str "name")])]

/-- A profile that only sorts keeps the protocols of the source. -/
theorem section_override_iff_sample :
    ∃ cm, fromJson noRules (mergeConfigs (some vlessOnly) (some sortedByName)) = .ok cm ∧
      Overrides (some sortedByName) vlessPipeline
        { sortBy := .name, sortExplicit := true : CompiledPipeline noRules.Regex } cm := by
  have hsorted : fromJson noRules (some sortedByName) =
      .ok { sortBy := .name, sortExplicit := true } := rfl
  obtain ⟨cm, hcm, hiff⟩ := section_override_iff vlessOnly_accepted hsorted
  refine ⟨cm, hcm, hiff.mpr ?_⟩
  have hsort : written (some sortedByName) .sort = some (.obj [("by", .str "name")]) := rfl
  intro section_ htakes hnot
  cases section_
  case sort =>
    refine absurd ⟨?_, ?_⟩ hnot
    · rw [hsort]
      exact Option.some_ne_none _
    · rw [hsort]
      exact fun h => by cases h
  all_goals exact absurd htakes (by decide)

/-- The profile `null` is accepted, has no section, and drops the filter of the source. -/
theorem null_profile_drops_sections :
    ¬∀ (engines : Engines) (s p : Option Json) (cs cp : CompiledPipeline engines.Regex),
      fromJson engines s = .ok cs → fromJson engines p = .ok cp →
        ∃ cm, fromJson engines (mergeConfigs s p) = .ok cm ∧ Overrides p cs cp cm := by
  intro h
  obtain ⟨cm, hcm, hoverrides⟩ :=
    h noRules (some vlessOnly) (some .null) vlessPipeline {} vlessOnly_accepted rfl
  obtain rfl : ({} : CompiledPipeline noRules.Regex) = cm := Except.ok.inj hcm
  have hfilter := (hoverrides .filter).2 fun hcarries => hcarries.1 rfl
  exact absurd hfilter.1 (by decide)

end Override

end MergedPipeline
