import Fumox.JsonText
import Fumox.ProfileRender

/-!
The cap of a profile: what changes in the documents when it is removed, what that changes in the
served list, and when the capped list is a prefix of the uncapped one.
-/

namespace ProfileLimit

open RustText JsonValue SerdeValue ConfigModels PipelineConfig PipelineSteps ProfileRender
  RankedPrefix

section Documents

def frontNames : List Text :=
  ["version", "filter", "rename", "drop", "geo", "health", "dedup", "sort"]

def limitName : Text := "limit"

theorem configNames_eq : configNames = (frontNames ++ [limitName]).map fun n => [n] := rfl

def withoutLimit : Json → Json
  | .obj fields => .obj (fields.filter fun f => decide (f.1 ≠ limitName))
  | .arr items => .arr (items.take 8)
  | j => j

/-- Two documents that agree on everything but the section of the cap, or are both unreadable. -/
def AgreeBut (l l' : Option Json) (j j' : Json) : Prop :=
  (structFields configNames j = none ∧ structFields configNames j' = none) ∨
    ∃ front : List (Option Json), front.length = 8 ∧
      structFields configNames j = some (front ++ [l]) ∧
      structFields configNames j' = some (front ++ [l'])

variable {fields s p : List (Text × Json)} {front : List (Option Json)} {l : Option Json}

theorem slots_obj (h : structFields configNames (.obj fields) = some (front ++ [l])) :
    ((∀ f ∈ fields, f.1 ∈ frontNames ++ [limitName]) ∧
        ∀ n ∈ frontNames ++ [limitName], (occurrences n fields).length ≤ 1) ∧
      front = (frontNames.map fun n => ((occurrences n fields).head?).map (·.2)) ∧
      l = ((occurrences limitName fields).head?).map (·.2) := by
  rw [configNames_eq, structFields_single, List.map_append] at h
  obtain ⟨hkeys, hslots⟩ := h
  obtain ⟨hfront, hl⟩ := List.append_inj' hslots rfl
  exact ⟨hkeys, hfront, List.singleton_inj.mp hl⟩

theorem length_front {j : Json} (h : structFields configNames j = some (front ++ [l])) :
    front.length = 8 := by
  have hlength := length_structFields h
  rw [List.length_append, List.length_singleton] at hlength
  have hnames : configNames.length = 9 := rfl
  omega

theorem ne_limit_of_front {n : Text} (h : n ∈ frontNames) : n ≠ limitName := by
  rintro rfl
  exact absurd h (by decide)

theorem occurrences_without {n : Text} (h : n ≠ limitName) :
    occurrences n (fields.filter fun f => decide (f.1 ≠ limitName)) = occurrences n fields := by
  rw [occurrences, List.filter_filter, occurrences]
  apply List.filter_congr
  intro f _
  by_cases hf : f.1 = n
  · simp [hf, h]
  · simp [hf]

theorem occurrences_without_limit :
    occurrences limitName (fields.filter fun f => decide (f.1 ≠ limitName)) = [] := by
  rw [occurrences, List.filter_filter, List.filter_eq_nil_iff]
  intro f _
  simp

theorem without_keys
    (h : (∀ f ∈ fields, f.1 ∈ frontNames ++ [limitName]) ∧
      ∀ n ∈ frontNames ++ [limitName], (occurrences n fields).length ≤ 1) :
    (∀ f ∈ fields.filter (fun f => decide (f.1 ≠ limitName)),
        f.1 ∈ frontNames ++ [limitName]) ∧
      ∀ n ∈ frontNames ++ [limitName],
        (occurrences n (fields.filter fun f => decide (f.1 ≠ limitName))).length ≤ 1 := by
  refine ⟨fun f hf => h.1 f (List.mem_of_mem_filter hf), fun n hn => ?_⟩
  by_cases hlimit : n = limitName
  · rw [hlimit, occurrences_without_limit]
    exact Nat.zero_le 1
  · rw [occurrences_without hlimit]
    exact h.2 n hn

theorem slots_withoutLimit {j : Json} {section_ : Json}
    (h : structFields configNames j = some (front ++ [some section_])) :
    structFields configNames (withoutLimit j) = some (front ++ [none]) := by
  cases j with
  | obj fields =>
    obtain ⟨hkeys, rfl, -⟩ := slots_obj h
    rw [withoutLimit, configNames_eq, structFields_single, List.map_append]
    refine ⟨without_keys hkeys, ?_⟩
    congr 1
    · apply List.map_congr_left
      intro n hn
      rw [occurrences_without (ne_limit_of_front hn)]
    · rw [List.map_singleton, occurrences_without_limit]
      rfl
  | arr items =>
    have hlength := length_front h
    rw [structFields] at h
    split at h
    next hle =>
      have hslots := Option.some.inj h
      have hnames : configNames.length = 9 := rfl
      rw [hnames] at hle hslots
      have hnine : items.length = 9 := by
        by_contra hne
        have hlast := congrArg List.getLast? hslots
        have hpos : List.replicate (9 - items.length) (none : Option Json) ≠ [] := by
          rw [Ne, List.replicate_eq_nil_iff]
          omega
        rw [List.getLast?_append_of_ne_nil _ hpos, List.getLast?_concat,
          List.getLast?_replicate] at hlast
        rw [if_neg (by omega)] at hlast
        cases hlast
      rw [hnine, Nat.sub_self, List.replicate_zero, List.append_nil] at hslots
      have hfront : (items.take 8).map some = front := by
        rw [List.map_take, hslots, List.take_left' hlength]
      have htake : (items.take 8).length = 8 := by
        rw [List.length_take]
        omega
      rw [withoutLimit, structFields, hnames, htake, if_pos (by omega), hfront]
      rfl
    next => cases h
  | _ => cases h

theorem agree_merged {section_ : Json}
    (h : structFields configNames (.obj p) = some (front ++ [some section_])) :
    AgreeBut (some section_) (((occurrences limitName s).head?).map (·.2)) (.obj (insertAll s p))
      (.obj (insertAll s (p.filter fun f => decide (f.1 ≠ limitName)))) := by
  obtain ⟨hkeys, -, hlimit⟩ := slots_obj h
  have hkeys' := without_keys hkeys
  have hone : occurrences limitName p = [(limitName, section_)] := by
    have hlength := hkeys.2 limitName (List.mem_append_right _ (List.mem_singleton.mpr rfl))
    cases hocc : occurrences limitName p with
    | nil =>
      rw [hocc] at hlimit
      cases hlimit
    | cons f rest =>
      rw [hocc, List.length_cons] at hlength
      obtain rfl : rest = [] := List.length_eq_zero_iff.mp (by omega)
      rw [hocc] at hlimit
      have hname : f.1 = limitName :=
        occurrences_name f (hocc ▸ List.mem_cons_self (l := []))
      have hvalue : section_ = f.2 := Option.some.inj hlimit
      rw [hvalue, ← hname]
  by_cases hs : (∀ f ∈ s, f.1 ∈ frontNames ++ [limitName]) ∧
      ∀ n ∈ frontNames ++ [limitName], (occurrences n s).length ≤ 1
  · right
    refine ⟨frontNames.map fun n => ((occurrences n (insertAll s p)).head?).map (·.2), rfl, ?_, ?_⟩
    · rw [configNames_eq, structFields_single, List.map_append]
      refine ⟨(merged_keys_iff hkeys.1).mpr hs, ?_⟩
      congr 1
      have hhead : ((insertAll (occurrences limitName s) [(limitName, section_)]).head?).map
          (·.2) = some section_ := by
        have hlength := hs.2 limitName (List.mem_append_right _ (List.mem_singleton.mpr rfl))
        cases hocc : occurrences limitName s with
        | nil => rfl
        | cons f rest =>
          have hname : f.1 = limitName :=
            occurrences_name f (hocc ▸ List.mem_cons_self)
          have hmem : limitName ∈ (f :: rest).map Prod.fst :=
            List.mem_map.mpr ⟨f, List.mem_cons_self, hname⟩
          rw [insertAll, List.foldl_cons, List.foldl_nil, JsonValue.insert, if_pos hmem,
            List.map_cons, if_pos hname]
          rfl
      rw [List.map_singleton, occurrences_insertAll, hone, hhead]
    · rw [configNames_eq, structFields_single, List.map_append]
      refine ⟨(merged_keys_iff hkeys'.1).mpr hs, ?_⟩
      congr 1
      · apply List.map_congr_left
        intro n hn
        rw [occurrences_insertAll, occurrences_insertAll,
          occurrences_without (ne_limit_of_front hn)]
      · rw [List.map_singleton, occurrences_insertAll, occurrences_without_limit]
        rfl
  · left
    have hnone : ∀ q : List (Text × Json),
        (∀ f ∈ q, f.1 ∈ frontNames ++ [limitName]) →
        structFields configNames (.obj (insertAll s q)) = none := by
      intro q hq
      cases hslots : structFields configNames (.obj (insertAll s q)) with
      | none => rfl
      | some slots =>
        rw [configNames_eq, structFields_single] at hslots
        exact absurd ((merged_keys_iff hq).mp hslots.1) hs
    exact ⟨hnone p hkeys.1, hnone _ hkeys'.1⟩

end Documents

section Pipelines

variable {front : List (Option Json)} {l l' : Option Json} {n : ℤ}

def countOf (section_ : Option Json) : Option (Option ℤ) :=
  (optional readLimit section_).map fun limit => limit.bind (·.count)

theorem countOf_none : countOf none = some none := rfl

theorem readSections_front (h : front.length = 8) :
    readSections (front ++ [l]) = (readSections (front ++ [none])).bind fun config =>
      (optional readLimit l).map fun limit => { config with limit := limit } := by
  match front, h with
  | [version, filter, rename, drop, geo, health, dedup, sort], _ =>
    have hnone : optional readLimit none = some none := rfl
    simp only [readSections, List.cons_append, List.nil_append, hnone, Option.bind_eq_bind,
      Option.bind_some, Option.bind_assoc, Option.pure_def]
    cases optional readLimit l <;> simp only [Option.bind_some, Option.bind_none, Option.map_some,
      Option.map_none]

theorem readConfig_agree {j j' : Json} (h : AgreeBut l l' j j') (hl : countOf l = some (some n))
    (hl' : countOf l' = some none) :
    (readConfig j = none ∧ readConfig j' = none) ∨
      ∃ config config' : Config, readConfig j = some config ∧ readConfig j' = some config' ∧
        config = { config' with limit := some ⟨some n⟩ } ∧ config'.limit.bind (·.count) = none := by
  rcases h with ⟨h, h'⟩ | ⟨front, hlength, h, h'⟩
  · exact .inl ⟨by rw [readConfig, h]; rfl, by rw [readConfig, h']; rfl⟩
  · have hread : readConfig j = readSections (front ++ [l]) := by rw [readConfig, h]; rfl
    have hread' : readConfig j' = readSections (front ++ [l']) := by rw [readConfig, h']; rfl
    rw [readSections_front hlength] at hread hread'
    obtain ⟨limit, hlimit, hcount⟩ := Option.map_eq_some_iff.mp hl
    obtain ⟨limit', hlimit', hcount'⟩ := Option.map_eq_some_iff.mp hl'
    rw [hlimit] at hread
    rw [hlimit'] at hread'
    cases hfront : readSections (front ++ [none]) with
    | none =>
      rw [hfront] at hread hread'
      exact .inl ⟨hread, hread'⟩
    | some config =>
      rw [hfront] at hread hread'
      obtain ⟨⟨count⟩, rfl, hvalue⟩ := Option.bind_eq_some_iff.mp hcount
      obtain rfl : count = some n := hvalue
      exact .inr ⟨_, _, hread, hread', rfl, hcount'⟩

variable {env : Environment}

def capped (n : ℕ) (pipeline : Pipeline env) : Pipeline env :=
  { pipeline with limitCount := some n }

theorem compile_capped {config : Config} (hn : 1 ≤ n) (h : config.limit.bind (·.count) = none) :
    compile env.engines { config with limit := some ⟨some n⟩ } =
      (capped n.toNat (compile env.engines config).1, (compile env.engines config).2) ∧
    (compile env.engines config).1.limitCount = none := by
  have hnone : compileLimit config.limit = (none, []) := by
    unfold compileLimit
    rw [h]
  have hsome : compileLimit (some ⟨some n⟩) = (some n.toNat, []) := if_pos hn
  constructor
  · simp only [compile, hsome, hnone, capped]
  · simp only [compile, hnone]

/-- A document that is not one of the spellings of the defaults. -/
def Explicit : Json → Prop
  | .null => False
  | .obj [] => False
  | _ => True

theorem compiled_explicit {j : Json} (h : Explicit j) :
    compiled env (some j) =
      match readConfig j with
      | none => .error corruptedPipeline
      | some config =>
        if (compile env.engines config).2 = [] then .ok (compile env.engines config).1
        else .error corruptedPipeline := by
  have hjson : fromJson env.engines (some j) =
      match readConfig j with
      | none => .error [⟨"pipeline.invalid", [env.engines.typeError j]⟩]
      | some config =>
        if (compile env.engines config).2 = [] then .ok (compile env.engines config).1
        else .error (compile env.engines config).2 := by
    cases j with
    | null => exact h.elim
    | obj fields =>
      cases fields with
      | nil => exact h.elim
      | cons f fields => rfl
    | _ => rfl
  unfold compiled
  rw [hjson]
  cases readConfig j with
  | none => rfl
  | some config =>
    dsimp only
    by_cases hissues : (compile env.engines config).2 = []
    · rw [if_pos hissues, if_pos hissues]
    · rw [if_neg hissues, if_neg hissues]

theorem compiled_agree {j j' : Json} (h : AgreeBut l l' j j') (hj : Explicit j)
    (hj' : Explicit j') (hn : 1 ≤ n) (hl : countOf l = some (some n))
    (hl' : countOf l' = some none) :
    compiled env (some j) = (compiled env (some j')).map (capped n.toNat) ∧
      ∀ pipeline, compiled env (some j') = .ok pipeline → pipeline.limitCount = none := by
  rw [compiled_explicit hj, compiled_explicit hj']
  rcases readConfig_agree h hl hl' with ⟨hread, hread'⟩ | ⟨_, config, hread, hread', rfl, hcount⟩
  · rw [hread, hread']
    exact ⟨rfl, fun pipeline hok => by cases hok⟩
  · obtain ⟨hcapped, hnone⟩ := @compile_capped _ env _ hn hcount
    rw [hread, hread']
    dsimp only
    rw [hcapped]
    dsimp only
    constructor
    · split <;> rfl
    · intro pipeline hok
      split at hok
      · obtain rfl := Except.ok.inj hok
        exact hnone
      · cases hok

end Pipelines

section Served

variable {env : Environment} {json : SerdeJson} {st : ServerState} {profile : Profile}

def SetsNoLimit : Option Json → Prop
  | some (.obj fields) => countOf (objectGet fields limitName) = some none
  | _ => True

structure HasLimit (env : Environment) (document : Json) (n : ℕ) : Prop where
  accepted : ∃ pipeline, fromJson env.engines (some document) = .ok pipeline ∧
    pipeline.limitCount = some n

theorem explicit_obj {fields : List (Text × Json)} : Explicit (.obj fields) ↔ fields ≠ [] := by
  cases fields with
  | nil => exact iff_of_false id fun h => h rfl
  | cons f fields => exact iff_of_true trivial (List.cons_ne_nil f fields)

theorem explicit_withoutLimit {document section_ : Json} {front : List (Option Json)}
    (h : structFields configNames document = some (front ++ [some section_]))
    (hread : readSections (front ++ [none]) ≠ none) : Explicit (withoutLimit document) := by
  have hslots := slots_withoutLimit h
  cases document with
  | obj fields =>
    apply explicit_obj.mpr
    intro hempty
    rw [withoutLimit, hempty] at hslots
    have hnone : structFields configNames (.obj []) = some (List.replicate 8 none ++ [none]) := rfl
    rw [hnone, Option.some.injEq] at hslots
    rw [← hslots] at hread
    exact hread rfl
  | null => cases h
  | _ => trivial

theorem HasLimit.slots {document : Json} {n : ℕ} (h : HasLimit env document n) :
    ∃ (front : List (Option Json)) (section_ : Json) (count : ℤ),
      structFields configNames document = some (front ++ [some section_]) ∧
        countOf (some section_) = some (some count) ∧ 1 ≤ count ∧ count.toNat = n ∧
          Explicit document ∧ Explicit (withoutLimit document) := by
  obtain ⟨pipeline, haccepted, hlimit⟩ := h.accepted
  have hexplicit : Explicit document := by
    cases document with
    | null =>
      obtain rfl := Except.ok.inj haccepted
      cases hlimit
    | obj fields =>
      cases fields with
      | nil =>
        obtain rfl := Except.ok.inj haccepted
        cases hlimit
      | cons f fields => trivial
    | _ => trivial
  have hcompiled : compiled env (some document) = .ok pipeline := by
    rw [compiled, haccepted]
  rw [compiled_explicit hexplicit] at hcompiled
  cases hread : readConfig document with
  | none =>
    rw [hread] at hcompiled
    cases hcompiled
  | some config =>
    rw [hread] at hcompiled
    dsimp only at hcompiled
    split at hcompiled
    next =>
      obtain rfl := Except.ok.inj hcompiled
      cases hslots : structFields configNames document with
      | none =>
        rw [readConfig, hslots] at hread
        cases hread
      | some slots =>
        have hlength := length_structFields hslots
        have hnames : configNames.length = 9 := rfl
        have hne : slots ≠ [] := by
          rintro rfl
          cases hlength
        obtain ⟨front, l, rfl⟩ := (List.eq_nil_or_concat' slots).resolve_left hne
        have hfront := length_front hslots
        have hsections : readSections (front ++ [l]) = some config := by
          rw [readConfig, hslots] at hread
          exact hread
        rw [readSections_front hfront] at hsections
        obtain ⟨config', hfront_read, hconfig⟩ := Option.bind_eq_some_iff.mp hsections
        obtain ⟨limit, hread_limit, rfl⟩ := Option.map_eq_some_iff.mp hconfig
        have hvalue : (compileLimit limit).1 = some n := hlimit
        unfold compileLimit at hvalue
        cases hcount : limit.bind (·.count) with
        | none =>
          rw [hcount] at hvalue
          cases hvalue
        | some count =>
          rw [hcount] at hvalue
          dsimp only at hvalue
          split at hvalue
          next hone =>
            cases l with
            | none =>
              obtain rfl := Option.some.inj hread_limit
              cases hcount
            | some section_ =>
              have hrest : Explicit (withoutLimit document) :=
                explicit_withoutLimit hslots (fun hnone => by rw [hnone] at hfront_read; cases hfront_read)
              refine ⟨front, section_, count, rfl, ?_, hone, Option.some.inj hvalue, hexplicit,
                hrest⟩
              rw [countOf, hread_limit, Option.map_some, hcount]
          next => cases hvalue
    next => cases hcompiled

variable {document : Json} {n : ℕ}

theorem insertAll_ne_nil {s p : List (Text × Json)} (h : p ≠ []) : insertAll s p ≠ [] := by
  obtain ⟨f, hf⟩ := List.exists_mem_of_ne_nil p h
  intro hnil
  have hmem : f.1 ∈ (insertAll s p).map Prod.fst :=
    mem_keys_insertAll.mpr (.inr (List.mem_map_of_mem hf))
  rw [hnil] at hmem
  exact absurd hmem List.not_mem_nil

theorem compiled_source (h : HasLimit env document n) {pipeline : Option Json}
    (hs : SetsNoLimit pipeline) :
    compiled env (mergeConfigs pipeline (some document)) =
        (compiled env (mergeConfigs pipeline (some (withoutLimit document)))).map (capped n) ∧
      ∀ c, compiled env (mergeConfigs pipeline (some (withoutLimit document))) = .ok c →
        c.limitCount = none := by
  obtain ⟨front, section_, count, hslots, hcount, hone, rfl, hexplicit, hrest⟩ := h.slots
  have hown : AgreeBut (some section_) none document (withoutLimit document) :=
    .inr ⟨front, length_front hslots, hslots, slots_withoutLimit hslots⟩
  have hwins := @compiled_agree _ _ _ env _ _ hown hexplicit hrest hone hcount countOf_none
  cases pipeline with
  | none => exact hwins
  | some s =>
    cases document with
    | obj p =>
      cases s with
      | obj fields =>
        have hlimit : countOf (((occurrences limitName fields).head?).map (·.2)) = some none := by
          have hlookup : objectGet fields limitName =
              ((occurrences limitName fields).head?).map (·.2) := lookup_eq_head
          rw [← hlookup]
          exact hs
        exact compiled_agree (agree_merged hslots)
          (explicit_obj.mpr (insertAll_ne_nil (explicit_obj.mp hexplicit)))
          (explicit_obj.mpr (insertAll_ne_nil (explicit_obj.mp hrest))) hone hcount hlimit
      | _ => exact hwins
    | null => cases hslots
    | _ => cases s <;> exact hwins

theorem agree_inserted {p q : List (Text × Json)} {front : List (Option Json)} {section_ : Json}
    (h : structFields configNames (.obj p) = some (front ++ [some section_]))
    (hq : ∀ f ∈ q, f.1 ∈ frontNames) :
    AgreeBut (some section_) none (.obj (insertAll p q))
      (.obj (insertAll (p.filter fun f => decide (f.1 ≠ limitName)) q)) := by
  obtain ⟨hkeys, -, hlimit⟩ := slots_obj h
  have hknown : ∀ f ∈ q, f.1 ∈ frontNames ++ [limitName] :=
    fun f hf => List.mem_append_left _ (hq f hf)
  have hnone : occurrences limitName q = [] := by
    apply List.filter_eq_nil_iff.mpr
    intro f hf
    simpa using ne_limit_of_front (hq f hf)
  right
  refine ⟨frontNames.map fun n => ((occurrences n (insertAll p q)).head?).map (·.2), rfl, ?_, ?_⟩
  · rw [configNames_eq, structFields_single, List.map_append]
    refine ⟨(merged_keys_iff hknown).mpr hkeys, ?_⟩
    congr 1
    rw [List.map_singleton, occurrences_insertAll, hnone, hlimit]
    rfl
  · rw [configNames_eq, structFields_single, List.map_append]
    refine ⟨(merged_keys_iff hknown).mpr (without_keys hkeys), ?_⟩
    congr 1
    · apply List.map_congr_left
      intro name hname
      rw [occurrences_insertAll, occurrences_insertAll,
        occurrences_without (ne_limit_of_front hname)]
    · rw [List.map_singleton, occurrences_insertAll, occurrences_without_limit, hnone]
      rfl

theorem compiled_finalizer (h : HasLimit env document n) (sort : Option Json) :
    compiled env (finalizeConfig (some document) sort) =
        (compiled env (finalizeConfig (some (withoutLimit document)) sort)).map (capped n) ∧
      ∀ c, compiled env (finalizeConfig (some (withoutLimit document)) sort) = .ok c →
        c.limitCount = none := by
  obtain ⟨front, section_, count, hslots, hcount, hone, rfl, hexplicit, hrest⟩ := h.slots
  have hown : AgreeBut (some section_) none document (withoutLimit document) :=
    .inr ⟨front, length_front hslots, hslots, slots_withoutLimit hslots⟩
  have hwins := @compiled_agree _ _ _ env _ _ hown hexplicit hrest hone hcount countOf_none
  cases document with
  | obj p =>
    cases sort with
    | none => exact hwins
    | some value =>
      have hsort : ∀ f ∈ [(("sort" : Text), value)], f.1 ∈ frontNames := by
        intro f hf
        rw [List.mem_singleton.mp hf]
        exact List.mem_of_getLast? rfl
      have hne : ∀ q : List (Text × Json), JsonValue.insert q ("sort" : Text) value ≠ [] :=
        fun q => insertAll_ne_nil (s := q) (List.cons_ne_nil (("sort" : Text), value) [])
      exact compiled_agree (agree_inserted hslots hsort) (explicit_obj.mpr (hne _))
        (explicit_obj.mpr (hne _)) hone hcount countOf_none
  | null => cases hslots
  | _ => cases sort <;> exact hwins

theorem apply_capped {pipeline : Pipeline env} (h : pipeline.limitCount = none)
    (candidates : List Candidate) :
    apply env (capped n pipeline) candidates = (apply env pipeline candidates).take n := by
  have hsteps : applyPerSource env (capped n pipeline) candidates =
      applyPerSource env pipeline candidates := rfl
  rw [apply, finalize, hsteps, apply, finalize, h]
  rfl

theorem contributions_capped {pipelines : List (Pipeline env)}
    (h : ∀ pipeline ∈ pipelines, pipeline.limitCount = none) :
    contributions env json st profile (pipelines.map (capped n)) =
      (contributions env json st profile pipelines).map (List.take n) := by
  have hzip : ((memberSources st).zip (pipelines.map (capped n))).zipIdx =
      ((memberSources st).zip pipelines).zipIdx.map fun member =>
        ((member.1.1, capped n member.1.2), member.2) := by
    rw [List.zip_map_right, List.zipIdx_map]
    rfl
  rw [contributions, hzip, List.map_map, contributions, List.map_map]
  apply List.map_congr_left
  intro member hmember
  have hmem : member.1 ∈ (memberSources st).zip pipelines := List.fst_mem_of_mem_zipIdx hmember
  exact apply_capped (h _ (List.of_mem_zip hmem).2) _

theorem sourceSort_capped {pipelines : List (Pipeline env)} {profilePipeline : Pipeline env} :
    sourceSort env (memberSources st) (pipelines.map (capped n)) (capped n profilePipeline) =
      sourceSort env (memberSources st) pipelines profilePipeline := by
  unfold sourceSort
  rw [List.zip_map_right, List.find?_map, Option.bind_map]
  rfl

/-- The lists of the members are cut at the cap, each in its own order, and so is the list that
they are merged into. -/
theorem mergeInputs_capped (h : HasLimit env document n)
    (hs : ∀ source ∈ memberSources st, SetsNoLimit source.pipeline) :
    mergeInputs env json st { profile with pipeline := some document } =
        (mergeInputs env json st { profile with pipeline := some (withoutLimit document) }).map
          (fun inputs => (inputs.1.map (List.take n), capped n inputs.2)) ∧
      ∀ inputs, mergeInputs env json st { profile with pipeline := some (withoutLimit document) } =
        .ok inputs → inputs.2.limitCount = none := by
  have hmembers : memberPipelines env st { profile with pipeline := some document } =
      (memberPipelines env st { profile with pipeline := some (withoutLimit document) }).map
        (List.map (capped n)) :=
    mapM_map fun source hsource => (compiled_source h (hs source hsource)).1
  have hown := (@compiled_source env document n h none trivial).1
  have hprofile : compiled env (some document) =
      (compiled env (some (withoutLimit document))).map (capped n) := hown
  unfold mergeInputs
  rw [hmembers]
  cases hpipelines : memberPipelines env st
      { profile with pipeline := some (withoutLimit document) } with
  | error e => exact ⟨rfl, fun inputs hok => by cases hok⟩
  | ok pipelines =>
    have hnone : ∀ pipeline ∈ pipelines, pipeline.limitCount = none := by
      intro pipeline hpipeline
      obtain ⟨source, hsource, hcompiled⟩ := exists_of_mem_mapM hpipelines hpipeline
      exact (compiled_source h (hs source hsource)).2 pipeline hcompiled
    simp only [Except.map, bind, Except.bind]
    split
    · exact ⟨rfl, fun inputs hok => by cases hok⟩
    · rw [hprofile]
      cases hcompiled : compiled env (some (withoutLimit document)) with
      | error e => exact ⟨rfl, fun inputs hok => by cases hok⟩
      | ok profilePipeline =>
        obtain ⟨hfinalizer, hlast⟩ := compiled_finalizer h
          (sourceSort env (memberSources st) pipelines profilePipeline)
        simp only [Except.map, sourceSort_capped, hfinalizer]
        cases hfinal : compiled env (finalizeConfig (some (withoutLimit document))
            (sourceSort env (memberSources st) pipelines profilePipeline)) with
        | error e => exact ⟨rfl, fun inputs hok => by cases hok⟩
        | ok finalizer =>
          constructor
          · have hcut := @contributions_capped env json st
              { profile with pipeline := some document } n _ hnone
            simp only [pure, Except.pure, hcut]
            rfl
          · intro inputs hok
            obtain rfl := Except.ok.inj hok
            exact hlast finalizer hfinal

/-- The copies that the profile serves from, without a cap on the members' lists. -/
def merged (env : Environment) (lists : List (List Candidate)) : List Candidate :=
  firstCopies (candidateKey env) [] lists.flatten

def survivors (env : Environment) (n : ℕ) (lists : List (List Candidate)) : List Candidate :=
  merged env (lists.map (List.take n))

/-- Each proxy with fewer than `n` proxies ahead of it in the order of the profile keeps a copy
within the first `n` of some member that reads the same, ahead of the copies that are left of
every proxy that it was ahead of. -/
def CutKeepsPlaces (n : ℕ) (lists : List (List Candidate)) (finalizer : Pipeline env) : Prop :=
  KeepsPlaces (fun c : Candidate => c.entry) (candidateKey env)
    (Ahead (sortLe env finalizer.sortBy finalizer.sortDesc)
      (reverses finalizer.sortBy finalizer.sortDesc) (merged env lists))
    (Ahead (sortLe env finalizer.sortBy finalizer.sortDesc)
      (reverses finalizer.sortBy finalizer.sortDesc) (survivors env n lists))
    (merged env lists) (survivors env n lists) n

theorem finalize_eq {finalizer : Pipeline env} {lists : List (List Candidate)} :
    finalize env finalizer lists.flatten =
      truncate finalizer.limitCount (sort env finalizer (merged env lists)) := rfl

theorem nodup_merged (lists : List (List Candidate)) : (merged env lists).Nodup :=
  List.Nodup.of_map _ nodup_firstCopies

theorem exists_merged {lists : List (List Candidate)} {c : Candidate}
    (hc : c ∈ survivors env n lists) :
    ∃ d ∈ merged env lists, candidateKey env d = candidateKey env c := by
  have hmem := firstCopies_sublist.subset hc
  obtain ⟨cut, hcut, hc⟩ := List.mem_flatten.mp hmem
  obtain ⟨list, hlist, rfl⟩ := List.mem_map.mp hcut
  have hflat : c ∈ lists.flatten := List.mem_flatten.mpr ⟨list, hlist, List.mem_of_mem_take hc⟩
  exact exists_firstCopy hflat List.not_mem_nil

/-- The first places of the capped list are those of the uncapped one exactly when the cut of the
members keeps them. -/
theorem take_sort_iff {lists : List (List Candidate)} {finalizer : Pipeline env} :
    ((sort env finalizer (survivors env n lists)).take n).map (·.entry) =
        ((sort env finalizer (merged env lists)).take n).map (·.entry) ↔
      CutKeepsPlaces n lists finalizer := by
  have hperm : ∀ l : List Candidate, (sort env finalizer l).Perm l := fun l => perm_ranked
  have hkeys : ∀ lists : List (List Candidate),
      ((sort env finalizer (merged env lists)).map (candidateKey env)).Nodup := fun lists =>
    ((hperm _).map _).nodup_iff.mpr nodup_firstCopies
  have hasymm : ∀ (l : List Candidate), l.Nodup → ∀ a b,
      Ahead (sortLe env finalizer.sortBy finalizer.sortDesc)
        (reverses finalizer.sortBy finalizer.sortDesc) l a b →
      ¬Ahead (sortLe env finalizer.sortBy finalizer.sortDesc)
        (reverses finalizer.sortBy finalizer.sortDesc) l b a :=
    fun l hl a b hab => hab.asymm sortLe_total hl
  have himage : ∀ a b : Candidate, a.entry = b.entry → candidateKey env a = candidateKey env b :=
    fun a b hentry => congrArg (ProxyFingerprint.fingerprint env.sha256) hentry
  have hsub : ∀ c ∈ sort env finalizer (survivors env n lists),
      ∃ d ∈ sort env finalizer (merged env lists), candidateKey env d = candidateKey env c := by
    intro c hc
    obtain ⟨d, hd, hkey⟩ := exists_merged ((hperm _).mem_iff.mp hc)
    exact ⟨d, (hperm _).mem_iff.mpr hd, hkey⟩
  have hsorted := @pairwise_sort env finalizer (merged env lists) (nodup_merged lists)
  have hsorted' : (sort env finalizer (survivors env n lists)).Pairwise
      (Ahead (sortLe env finalizer.sortBy finalizer.sortDesc)
        (reverses finalizer.sortBy finalizer.sortDesc) (survivors env n lists)) :=
    pairwise_sort (nodup_merged _)
  exact (take_map_eq_iff (hasymm _ (nodup_merged lists)) (hasymm _ (nodup_merged _)) hsorted
    hsorted' (hkeys lists) (hkeys _) himage hsub).trans (keepsPlaces_perm (hperm _) (hperm _))

theorem renderSub_prefix_iff {lists : List (List Candidate)} {finalizer : Pipeline env}
    (h : HasLimit env document n) (hs : ∀ source ∈ memberSources st, SetsNoLimit source.pipeline)
    (hinputs : mergeInputs env json st { profile with pipeline := some (withoutLimit document) } =
      .ok (lists, finalizer)) :
    (renderSub env json st { profile with pipeline := some document }).map
          (fun served => served.map (·.entry)) =
        (renderSub env json st { profile with pipeline := some (withoutLimit document) }).map
          (fun served => (served.take n).map (·.entry)) ↔ CutKeepsPlaces n lists finalizer := by
  obtain ⟨hcapped, hnone⟩ := @mergeInputs_capped env json st profile document n h hs
  have hlimit : finalizer.limitCount = none := hnone _ hinputs
  have hserved : finalize env finalizer lists.flatten = sort env finalizer (merged env lists) := by
    rw [finalize_eq, hlimit]
    rfl
  have hcut : finalize env (capped n finalizer) (lists.map (List.take n)).flatten =
      (sort env finalizer (survivors env n lists)).take n := rfl
  unfold renderSub
  rw [hcapped, hinputs]
  simp only [Except.map, hserved, hcut, Except.ok.injEq]
  rw [take_sort_iff]

theorem renderSub_prefix_of_error {e : ErrorReply} (h : HasLimit env document n)
    (hs : ∀ source ∈ memberSources st, SetsNoLimit source.pipeline)
    (hinputs : mergeInputs env json st { profile with pipeline := some (withoutLimit document) } =
      .error e) :
    (renderSub env json st { profile with pipeline := some document }).map
        (fun served => served.map (·.entry)) =
      (renderSub env json st { profile with pipeline := some (withoutLimit document) }).map
        (fun served => (served.take n).map (·.entry)) := by
  obtain ⟨hcapped, -⟩ := @mergeInputs_capped env json st profile document n h hs
  unfold renderSub
  rw [hcapped, hinputs]
  rfl

/-- A profile with a cap serves the first proxies of what it serves without the cap, in every state
of the store, exactly when the cut of the members keeps their places. -/
theorem limit_prefix_iff (h : HasLimit env document n)
    (hs : ∀ source ∈ memberSources st, SetsNoLimit source.pipeline) :
    (renderSub env json st { profile with pipeline := some document }).map
          (fun served => served.map (·.entry)) =
        (renderSub env json st { profile with pipeline := some (withoutLimit document) }).map
          (fun served => (served.take n).map (·.entry)) ↔
      ∀ lists finalizer,
        mergeInputs env json st { profile with pipeline := some (withoutLimit document) } =
            .ok (lists, finalizer) →
          CutKeepsPlaces n lists finalizer := by
  cases hinputs : mergeInputs env json st
      { profile with pipeline := some (withoutLimit document) } with
  | error e =>
    exact iff_of_true (renderSub_prefix_of_error h hs hinputs) fun lists finalizer hok => by
      cases hok
  | ok inputs =>
    obtain ⟨lists, finalizer⟩ := inputs
    rw [renderSub_prefix_iff h hs hinputs]
    simp only [Except.ok.injEq, Prod.mk.injEq]
    constructor
    · rintro hkeeps lists' finalizer' ⟨rfl, rfl⟩
      exact hkeeps
    · intro hall
      exact hall lists finalizer ⟨rfl, rfl⟩

end Served

section SharedSort

variable {env : Environment} {json : SerdeJson} {st : ServerState} {profile : Profile}
  {document : Json} {n : ℕ} {finalizer : Pipeline env} {lists : List (List Candidate)}

/-- Every member sorts like the merged list and upwards, and a copy of a proxy is sorted no earlier
than the first one. -/
structure SharesSort (pipelines : List (Pipeline env)) (finalizer : Pipeline env)
    (lists : List (List Candidate)) : Prop where
  ascends : reverses finalizer.sortBy finalizer.sortDesc = false
  members : ∀ pipeline ∈ pipelines,
    pipeline.sortBy = finalizer.sortBy ∧ pipeline.sortDesc = finalizer.sortDesc
  copies : lists.flatten.Pairwise fun c d => candidateKey env c = candidateKey env d →
    sortLe env finalizer.sortBy finalizer.sortDesc c d = true

theorem exists_pipelines
    (h : mergeInputs env json st profile = .ok (lists, finalizer)) :
    ∃ pipelines, memberPipelines env st profile = .ok pipelines ∧
      lists = contributions env json st profile pipelines := by
  unfold mergeInputs at h
  obtain ⟨pipelines, hpipelines, h⟩ := bind_eq_ok.mp h
  refine ⟨pipelines, hpipelines, ?_⟩
  split at h
  · cases h
  · obtain ⟨profilePipeline, -, h⟩ := bind_eq_ok.mp h
    obtain ⟨finalizer', -, h⟩ := bind_eq_ok.mp h
    exact (congrArg Prod.fst (Except.ok.inj h)).symm

theorem exists_apply {pipelines : List (Pipeline env)} {list : List Candidate}
    (h : list ∈ contributions env json st profile pipelines) :
    ∃ pipeline ∈ pipelines, ∃ candidates, list = apply env pipeline candidates := by
  obtain ⟨member, hmember, rfl⟩ := List.mem_map.mp h
  have hmem : member.1 ∈ (memberSources st).zip pipelines := List.fst_mem_of_mem_zipIdx hmember
  exact ⟨member.1.2, (List.of_mem_zip hmem).2, _, rfl⟩

theorem apply_sublist (pipeline : Pipeline env) (candidates : List Candidate) :
    ∃ copies, ((copies.map (candidateKey env)).Nodup) ∧
      (apply env pipeline candidates).Sublist (sort env pipeline copies) := by
  refine ⟨firstCopies (candidateKey env) [] (applyPerSource env pipeline candidates),
    nodup_firstCopies, ?_⟩
  unfold apply finalize truncate
  split
  · exact .refl _
  · exact List.take_sublist _ _

/-- Members that share an ascending sort keep the cap a prefix, while no copy of a proxy is sorted
before the first one. -/
theorem limit_prefix_of_sharedSort (h : HasLimit env document n)
    (hs : ∀ source ∈ memberSources st, SetsNoLimit source.pipeline)
    (hshares : ∀ pipelines lists finalizer,
      memberPipelines env st { profile with pipeline := some (withoutLimit document) } =
        .ok pipelines →
      mergeInputs env json st { profile with pipeline := some (withoutLimit document) } =
        .ok (lists, finalizer) → SharesSort pipelines finalizer lists) :
    (renderSub env json st { profile with pipeline := some document }).map
        (fun served => served.map (·.entry)) =
      (renderSub env json st { profile with pipeline := some (withoutLimit document) }).map
        (fun served => (served.take n).map (·.entry)) := by
  cases hinputs : mergeInputs env json st
      { profile with pipeline := some (withoutLimit document) } with
  | error e => exact renderSub_prefix_of_error h hs hinputs
  | ok inputs =>
    obtain ⟨lists, finalizer⟩ := inputs
    obtain ⟨pipelines, hpipelines, rfl⟩ := exists_pipelines hinputs
    have hshared := hshares pipelines _ finalizer hpipelines hinputs
    have hlist : ∀ list ∈ contributions env json st
          { profile with pipeline := some (withoutLimit document) } pipelines,
        (list.map (candidateKey env)).Nodup ∧
          list.Pairwise fun c d =>
            sortLe env finalizer.sortBy finalizer.sortDesc c d = true := by
      intro list hmem
      obtain ⟨pipeline, hpipeline, candidates, rfl⟩ := exists_apply hmem
      obtain ⟨copies, hcopies, hsub⟩ := apply_sublist pipeline candidates
      obtain ⟨hby, hdesc⟩ := hshared.members pipeline hpipeline
      have hsort : sort env pipeline copies =
          ranked (sortLe env finalizer.sortBy finalizer.sortDesc) false copies := by
        unfold sort
        rw [hby, hdesc, hshared.ascends]
      have hperm : (sort env pipeline copies).Perm copies := perm_ranked
      refine ⟨((hperm.map _).nodup_iff.mpr hcopies).sublist (hsub.map _), ?_⟩
      rw [hsort] at hsub
      exact (sorted_ranked sortLe_total sortLe_trans).sublist hsub
    rw [renderSub_prefix_iff h hs hinputs]
    unfold CutKeepsPlaces
    rw [hshared.ascends]
    exact keepsPlaces_of_cuts sortLe_total sortLe_trans (fun list hmem => (hlist list hmem).2)
      (fun list hmem => (hlist list hmem).1) hshared.copies

end SharedSort

section Samples

open ProxyFingerprint (tableDigest)
open JsonText (stringCodec)

/-- SHA-256 on the pre-images of the two entries, and rules that are never compiled. -/
def twoProxies : Environment where
  engines := ⟨Empty, fun _ _ _ _ => .error [], fun r _ => r.elim, fun r _ _ => r.elim, fun _ => []⟩
  sha256 := tableDigest [
    (bytes "vless|a|443|u|",
      [233, 124, 105, 185, 153, 39, 90, 199, 189, 98, 148, 105, 174, 39, 221, 147, 4, 226, 90, 139,
        141, 190, 189, 131, 120, 126, 122, 111, 149, 171, 145, 84]),
    (bytes "vless|b|443|u|",
      [30, 127, 119, 171, 80, 147, 13, 49, 146, 52, 25, 44, 56, 216, 40, 66, 115, 48, 2, 15, 15,
        188, 9, 74, 24, 85, 215, 23, 143, 30, 37, 162])]
  toLowercase := toAsciiLowercase
  geo := ⟨none⟩

def twoRow (id : ℕ) (host : Text) : ProxyStore.ProxyRow :=
  { status := .alive, id := id, fingerprint := decimal id, scheme := .vless, name := host,
    host := host, port := 443, credential := "u", params := none, unknownParams := none,
    rawLine := none, createdAt := 0, updatedAt := 0 }

def twoState : ServerState where
  links := ["s"]
  sources := [{ id := "s", name := "feed", url := "https://feed.example/" }]
  lastHttpStatus := fun _ => none
  store := { proxies := [twoRow 1 "a", twoRow 2 "b"], links := [⟨1, "s", 0⟩, ⟨2, "s", 0⟩] }

def oneProxy (desc : Bool) : Json :=
  .obj [("version", .num (.posInt 1)), ("sort", .obj [("desc", .bool desc)]),
    ("limit", .obj [("count", .num (.posInt 1))])]

def twoProfile : Profile := { id := "p", name := "profile" }

theorem oneProxy_limit (desc : Bool) : HasLimit twoProxies (oneProxy desc) 1 :=
  ⟨⟨_, rfl, rfl⟩⟩

theorem twoState_uncapped : ∀ source ∈ memberSources twoState, SetsNoLimit source.pipeline := by
  have hmembers : memberSources twoState = twoState.sources := rfl
  intro source hsource
  rw [hmembers] at hsource
  rw [List.mem_singleton.mp hsource]
  trivial

/-- In source order, as given. -/
theorem limit_prefix_iff_sample :
    (renderSub twoProxies stringCodec twoState
          { twoProfile with pipeline := some (oneProxy false) }).map
          (fun served => served.map (·.entry)) =
        (renderSub twoProxies stringCodec twoState
          { twoProfile with pipeline := some (withoutLimit (oneProxy false)) }).map
          (fun served => (served.take 1).map (·.entry)) ↔
      ∀ lists finalizer,
        mergeInputs twoProxies stringCodec twoState
            { twoProfile with pipeline := some (withoutLimit (oneProxy false)) } =
            .ok (lists, finalizer) →
          CutKeepsPlaces 1 lists finalizer :=
  limit_prefix_iff (oneProxy_limit false) twoState_uncapped

/-- In source order backwards, one of two proxies is served: the last one, while the first one
leads the list without the cap. -/
theorem descending_limit_is_no_prefix :
    HasLimit twoProxies (oneProxy true) 1 ∧
      (∀ source ∈ memberSources twoState, SetsNoLimit source.pipeline) ∧
      (renderSub twoProxies stringCodec twoState
          { twoProfile with pipeline := some (oneProxy true) }).map
          (fun served => served.map (·.entry.host)) = .ok ["b"] ∧
      (renderSub twoProxies stringCodec twoState
          { twoProfile with pipeline := some (withoutLimit (oneProxy true)) }).map
          (fun served => served.map (·.entry.host)) = .ok ["a", "b"] ∧
      (renderSub twoProxies stringCodec twoState
          { twoProfile with pipeline := some (oneProxy true) }).map
          (fun served => served.map (·.entry)) ≠
        (renderSub twoProxies stringCodec twoState
          { twoProfile with pipeline := some (withoutLimit (oneProxy true)) }).map
          (fun served => (served.take 1).map (·.entry)) := by
  refine ⟨oneProxy_limit true, twoState_uncapped, by decide +kernel, by decide +kernel, ?_⟩
  decide +kernel

end Samples

end ProfileLimit
