import Fumox.ConfigImport
import Fumox.TransitionRuns

/-!
An import as the statements that it sends, one by one, to tables that other requests change between
them; the runs in which it is all or nothing.
-/

namespace ImportSteps

open RustText ConfigModels ConfigImport RankedPrefix TransitionRuns

structure Member where
  profileId : Text
  sourceId : Text
  position : ℕ
  deriving DecidableEq, Repr

structure Store where
  sources : List Source
  profiles : List Profile
  members : List Member

namespace Store

def sourceSlugs (s : Store) : List Text := s.sources.filterMap (·.slug)

def profileSlugs (s : Store) : List Text := s.profiles.filterMap (·.slug)

def createSource (s : Store) (source : Source) : Option Store :=
  if source.id ∈ s.sources.map (·.id) ∨ source.slug.any (· ∈ s.sourceSlugs) = true then none
  else some { s with sources := s.sources ++ [source] }

def createProfile (s : Store) (profile : Profile) : Option Store :=
  if profile.id ∈ s.profiles.map (·.id) ∨ profile.slug.any (· ∈ s.profileSlugs) = true then none
  else some { s with profiles := s.profiles ++ [profile] }

def setSources (s : Store) (profileId : Text) (composition : List (Text × ℕ)) : Option Store :=
  if (composition = [] ∨ profileId ∈ s.profiles.map (·.id)) ∧
      (∀ m ∈ composition, m.1 ∈ s.sources.map (·.id)) ∧ (composition.map Prod.fst).Nodup then
    some { s with members := s.members.filter (·.profileId ≠ profileId) ++
                    composition.map fun m => ⟨profileId, m.1, m.2⟩ }
  else none

end Store

variable {s s' : Store} {t : Text}

theorem not_mem_sourceSlugs {source : Source} (h : (s.createSource source).isSome = true)
    (ht : source.slug = some t) : t ∉ s.sourceSlugs := by
  intro hused
  have hnone : s.createSource source = none := by
    apply if_pos
    right
    rw [ht, Option.any_some]
    exact decide_eq_true hused
  rw [hnone] at h
  cases h

theorem not_mem_profileSlugs {profile : Profile} (h : (s.createProfile profile).isSome = true)
    (ht : profile.slug = some t) : t ∉ s.profileSlugs := by
  intro hused
  have hnone : s.createProfile profile = none := by
    apply if_pos
    right
    rw [ht, Option.any_some]
    exact decide_eq_true hused
  rw [hnone] at h
  cases h

inductive Write where
  | createSource (source : Source)
  | createProfile (profile : Profile)
  | setSources (profileId : Text) (composition : List (Text × ℕ))

def Store.apply (s : Store) : Write → Option Store
  | .createSource source => s.createSource source
  | .createProfile profile => s.createProfile profile
  | .setSources profileId composition => s.setSources profileId composition

/-- The statements of `apply_import` after its two reads. -/
def writes (newId : ℕ → Text) (now : ℤ) (takenSources takenProfiles : List Text)
    (file : ConfigExport) : List Write :=
  (sourceRows newId now takenSources file).map .createSource ++
    (profileRows newId now takenProfiles file).flatMap fun p =>
      [.createProfile p.1, .setSources p.1.id p.2]

inductive Phase where
  | received (payload : Text)
  | validated (file : ConfigExport)
  | listed (file : ConfigExport) (takenSources : List Text)
  | writing (file : ConfigExport) (remaining : List Write)
  | done (file : ConfigExport)
  | refused | failed

/-- A statement that has been applied, and the tables that it found. -/
structure Entry where
  before : Store
  write : Write

structure World where
  store : Store
  phase : Phase
  applied : List Entry

inductive Event where
  | validate
  | listSources (fails : Bool)
  | listProfiles (newId : ℕ → Text) (now : ℤ) (fails : Bool)
  | write (fails : Bool)
  | render (fails : Bool)
  | other (store : Store)

section Request

variable (vetting : Vetting) (decode : Text → Except Text ConfigExport)

def accepted (payload : Text) : Option ConfigExport :=
  match decode (trim payload) with
  | .ok file =>
    if file.version = supportedVersion ∧ validateImport vetting file = [] then some file else none
  | .error _ => none

def Enabled (w : World) : Event → Prop
  | .validate => ∃ payload, w.phase = .received payload
  | .listSources _ => ∃ file, w.phase = .validated file
  | .listProfiles newId .. =>
    Function.Injective newId ∧ ∃ file taken, w.phase = .listed file taken
  | .write _ => ∃ file write rest, w.phase = .writing file (write :: rest)
  | .render _ => ∃ file, w.phase = .writing file []
  | .other _ => True

def next (w : World) : Event → World
  | .validate =>
    match w.phase with
    | .received payload =>
      { w with phase := match accepted vetting decode payload with
          | some file => .validated file
          | none => .refused }
    | _ => w
  | .listSources fails =>
    match w.phase with
    | .validated file =>
      { w with phase := if fails then .failed else .listed file w.store.sourceSlugs }
    | _ => w
  | .listProfiles newId now fails =>
    match w.phase with
    | .listed file taken =>
      { w with phase := if fails then .failed
          else .writing file (writes newId now taken w.store.profileSlugs file) }
    | _ => w
  | .write fails =>
    match w.phase with
    | .writing file (write :: rest) =>
      match if fails then none else w.store.apply write with
      | some store => ⟨store, .writing file rest, w.applied ++ [⟨w.store, write⟩]⟩
      | none => { w with phase := .failed }
    | _ => w
  | .render fails =>
    match w.phase with
    | .writing file [] => { w with phase := if fails then .failed else .done file }
    | _ => w
  | .other store => { w with store := store }

def Initial (w : World) : Prop :=
  (∃ payload, w.phase = .received payload) ∧ w.applied = []

def imports : System World Event := ⟨Initial, Enabled, next vetting decode⟩

end Request

/-- The request has reported an error. -/
def Failed (w : World) : Prop := w.phase = .refused ∨ w.phase = .failed

def Absent (s : Store) : Write → Prop
  | .createSource source => source.id ∉ s.sources.map (·.id)
  | .createProfile profile => profile.id ∉ s.profiles.map (·.id)
  | .setSources profileId _ => ∀ m ∈ s.members, m.profileId ≠ profileId

/-- None of its rows is in the tables. -/
def LeavesNothing (w : World) : Prop :=
  ∀ e ∈ w.applied, Absent w.store e.write

/-- The sources that have been created, each with the slugs in use before. -/
def createdSources (applied : List Entry) : List (List Text × Source) :=
  applied.filterMap fun e =>
    match e.write with
    | .createSource source => some (e.before.sourceSlugs, source)
    | _ => none

def createdProfiles (applied : List Entry) : List (List Text × Profile) :=
  applied.filterMap fun e =>
    match e.write with
    | .createProfile profile => some (e.before.profileSlugs, profile)
    | _ => none

def compositions (applied : List Entry) : List (Text × List (Text × ℕ)) :=
  applied.filterMap fun e =>
    match e.write with
    | .setSources profileId composition => some (profileId, composition)
    | _ => none

/-- The fields that the file lists. -/
def ListedSource (s : ExportSource) (source : Source) : Prop :=
  source = importedSource s source.id source.slug source.createdAt

def ListedProfile (p : ExportProfile) (profile : Profile) : Prop :=
  profile = importedProfile p profile.id profile.slug profile.createdAt

/-- The references that occur in the file, in first-occurrence order, as the sources created for
them. -/
def Composed (file : ConfigExport) (sources : List Source) (p : ExportProfile)
    (composition : List (Text × ℕ)) : Prop :=
  composition.Pairwise (fun a b => a.2 < b.2) ∧
    List.Forall₂ (fun (r : Text) (m : Text × ℕ) => ∃ (i : ℕ) (s : ExportSource) (source : Source),
        file.sources[i]? = some s ∧ s.reference = r ∧ sources[i]? = some source ∧ source.id = m.1)
      (firstCopies id [] (p.sourceRefs.filter (· ∈ file.sources.map (·.reference)))) composition

structure Faithful (file : ConfigExport) (applied : List Entry) : Prop where
  sources : List.Forall₂ ListedSource file.sources ((createdSources applied).map Prod.snd)
  profiles : List.Forall₂ ListedProfile file.profiles ((createdProfiles applied).map Prod.snd)
  compositions : List.Forall₂
    (fun p c => p.2 = c.1 ∧ Composed file ((createdSources applied).map Prod.snd) p.1 c.2)
    (file.profiles.zip ((createdProfiles applied).map (·.2.id))) (compositions applied)
  sourceSlugs : ∀ i s used source, file.sources[i]? = some s →
    (createdSources applied)[i]? = some (used, source) →
      KeptExactly s.slug used ((file.sources.take i).filterMap (·.slug)) source.slug
  profileSlugs : ∀ i p used profile, file.profiles[i]? = some p →
    (createdProfiles applied)[i]? = some (used, profile) →
      KeptExactly p.slug used ((file.profiles.take i).filterMap (·.slug)) profile.slug

/-- Rows that the import has not created are as before. -/
def KeepsRows (w w' : World) : Prop :=
  w.store.sources <+: w'.store.sources ∧ w.store.profiles <+: w'.store.profiles ∧
    ∀ m ∈ w.store.members, m.profileId ∉ (createdProfiles w.applied).map (·.2.id) →
      m ∈ w'.store.members

def FreesNoSlug (file : ConfigExport) (s s' : Store) : Prop :=
  (∀ t ∈ file.sources.filterMap (·.slug), t ∈ s.sourceSlugs → t ∈ s'.sourceSlugs) ∧
    ∀ t ∈ file.profiles.filterMap (·.slug), t ∈ s.profileSlugs → t ∈ s'.profileSlugs

/-- The steps of an import that is all or nothing: a statement that fails, or is refused by the
tables, is the first one; the page after the last one renders; and no slug that the file lists is
freed while the import is under way. -/
def Careful (w : World) : Event → Prop
  | .write fails =>
    match w.phase with
    | .writing _ (write :: _) => fails = true ∨ w.store.apply write = none → w.applied = []
    | _ => True
  | .render fails => fails = true → w.applied = []
  | .other store =>
    match w.phase with
    | .listed file _ => FreesNoSlug file w.store store
    | .writing file _ => FreesNoSlug file w.store store
    | _ => True
  | _ => True

/-- What an import has settled when its writes begin. -/
structure Plan where
  newId : ℕ → Text
  now : ℤ
  takenSources : List Text
  takenProfiles : List Text
  distinct : Function.Injective newId

namespace Plan

variable (plan : Plan) (file : ConfigExport)

def sources : List Source := sourceRows plan.newId plan.now plan.takenSources file

def profiles : List (Profile × List (Text × ℕ)) :=
  profileRows plan.newId plan.now plan.takenProfiles file

def writes : List Write :=
  ImportSteps.writes plan.newId plan.now plan.takenSources plan.takenProfiles file

end Plan

section Rows

variable {plan : Plan} {file : ConfigExport} {i : ℕ}

theorem getElem?_numbered {α β : Type*} {as : List α} {bs : List β} {x : (α × β) × ℕ}
    (h : (as.zip bs).zipIdx[i]? = some x) :
    as[i]? = some x.1.1 ∧ bs[i]? = some x.1.2 ∧ x.2 = i := by
  rw [List.getElem?_zipIdx] at h
  obtain ⟨⟨a, b⟩, hab, rfl⟩ := Option.map_eq_some_iff.mp h
  obtain ⟨ha, hb⟩ := List.getElem?_zip_eq_some.mp hab
  exact ⟨ha, hb, Nat.zero_add i⟩

theorem forall₂_of_getElem? {α β : Type*} {R : α → β → Prop} {as : List α} {bs : List β}
    (hlength : as.length = bs.length)
    (h : ∀ (i : ℕ) (a : α) (b : β), as[i]? = some a → bs[i]? = some b → R a b) :
    List.Forall₂ R as bs := by
  induction as generalizing bs with
  | nil =>
    cases bs with
    | nil => exact .nil
    | cons b bs => cases hlength
  | cons a as ih =>
    cases bs with
    | nil => cases hlength
    | cons b bs =>
      refine .cons (h 0 a b rfl rfl) (ih (Nat.succ.inj hlength) ?_)
      exact fun i a' b' ha hb => h (i + 1) a' b' ha hb

theorem length_sources : (plan.sources file).length = file.sources.length := by
  simp only [Plan.sources, sourceRows, sourceClaims, List.length_map, List.length_zipIdx,
    List.length_zip, length_claimSlugs, Nat.min_self]

theorem length_profiles : (plan.profiles file).length = file.profiles.length := by
  simp only [Plan.profiles, profileRows, profileClaims, List.length_map, List.length_zipIdx,
    List.length_zip, length_claimSlugs, Nat.min_self]

theorem getElem?_sources {source : Source} (h : (plan.sources file)[i]? = some source) :
    ∃ s claim, file.sources[i]? = some s ∧ (sourceClaims plan.takenSources file)[i]? = some claim ∧
      source = importedSource s (plan.newId i) claim.1 plan.now := by
  rw [Plan.sources, sourceRows, List.getElem?_map] at h
  obtain ⟨x, hx, rfl⟩ := Option.map_eq_some_iff.mp h
  obtain ⟨hs, hclaim, hi⟩ := getElem?_numbered hx
  exact ⟨x.1.1, x.1.2, hs, hclaim, by rw [hi]⟩

theorem getElem?_profiles {p : Profile × List (Text × ℕ)}
    (h : (plan.profiles file)[i]? = some p) :
    ∃ e claim, file.profiles[i]? = some e ∧
      (profileClaims plan.takenProfiles file)[i]? = some claim ∧
      p = (importedProfile e (plan.newId (file.sources.length + i)) claim.1 plan.now,
        (composition plan.newId file e).1) := by
  rw [Plan.profiles, profileRows, List.getElem?_map] at h
  obtain ⟨x, hx, rfl⟩ := Option.map_eq_some_iff.mp h
  obtain ⟨he, hclaim, hi⟩ := getElem?_numbered hx
  exact ⟨x.1.1, x.1.2, he, hclaim, by rw [hi]⟩

theorem composed (hrefs : (file.sources.map (·.reference)).Nodup) (p : ExportProfile) :
    Composed file (plan.sources file) p (composition plan.newId file p).1 := by
  refine ⟨pairwise_placeRefs, ?_⟩
  have hids := @placeRefs_ids _ p.name [] [] p.sourceRefs 0 (refToId_injective hrefs plan.distinct)
    (fun r id _ => by simp)
  have hfilter : p.sourceRefs.filter (fun r => (refToId plan.newId file.sources r).isSome) =
      p.sourceRefs.filter (· ∈ file.sources.map (·.reference)) := by
    apply List.filter_congr
    intro r _
    rw [Bool.eq_iff_iff, decide_eq_true_eq]
    exact refToId_isSome hrefs
  rw [hfilter] at hids
  refine hids.imp ?_
  intro r m hr
  obtain ⟨i, s, hs, hreference, hid⟩ := (refToId_eq_some hrefs).mp hr
  have hlt : i < (plan.sources file).length := by
    rw [length_sources]
    exact (List.getElem?_eq_some_iff.mp hs).1
  have hsource := List.getElem?_eq_getElem hlt
  obtain ⟨s', claim, -, -, hrow⟩ := getElem?_sources hsource
  refine ⟨i, s, _, hs, hreference, hsource, ?_⟩
  rw [hrow]
  exact hid

end Rows

/-- The listed slugs that were taken when the import read the tables are in use. -/
def TakenHeld (plan : Plan) (file : ConfigExport) (s : Store) : Prop :=
  (∀ t ∈ plan.takenSources, t ∈ file.sources.filterMap (·.slug) → t ∈ s.sourceSlugs) ∧
    ∀ t ∈ plan.takenProfiles, t ∈ file.profiles.filterMap (·.slug) → t ∈ s.profileSlugs

structure EntrySound (plan : Plan) (file : ConfigExport) (e : Entry) : Prop where
  held : TakenHeld plan file e.before
  applies : (e.before.apply e.write).isSome = true

section Applied

variable {plan : Plan} {file : ConfigExport} {applied : List Entry} {listed given : Option Text}
  {taken used earlier : List Text} {i : ℕ}

theorem keptExactly_rebase (h : KeptExactly listed taken earlier given)
    (hfree : ∀ t, given = some t → t ∉ used) (hheld : ∀ t ∈ taken, listed = some t → t ∈ used) :
    KeptExactly listed used earlier given := by
  intro t
  constructor
  · intro hgiven
    obtain ⟨hlisted, hne, -, hnew⟩ := (h t).mp hgiven
    exact ⟨hlisted, hne, hfree t hgiven, hnew⟩
  · rintro ⟨hlisted, hne, hunused, hnew⟩
    exact (h t).mpr ⟨hlisted, hne, fun ht => hunused (hheld t ht hlisted), hnew⟩

theorem map_createdSources :
    (createdSources applied).map Prod.snd = (applied.map (·.write)).filterMap fun w =>
      match w with
      | .createSource source => some source
      | _ => none := by
  rw [createdSources, List.map_filterMap, List.filterMap_map]
  apply congrArg (fun f => applied.filterMap f)
  funext e
  rw [Function.comp_apply]
  cases e.write <;> rfl

theorem map_createdProfiles :
    (createdProfiles applied).map Prod.snd = (applied.map (·.write)).filterMap fun w =>
      match w with
      | .createProfile profile => some profile
      | _ => none := by
  rw [createdProfiles, List.map_filterMap, List.filterMap_map]
  apply congrArg (fun f => applied.filterMap f)
  funext e
  rw [Function.comp_apply]
  cases e.write <;> rfl

theorem compositions_eq :
    compositions applied = (applied.map (·.write)).filterMap fun w =>
      match w with
      | .setSources profileId composition => some (profileId, composition)
      | _ => none := by
  rw [compositions, List.filterMap_map]
  rfl

theorem filterMap_writes {β : Type*} (g : Write → Option β) :
    (plan.writes file).filterMap g = (plan.sources file).filterMap (fun s => g (.createSource s)) ++
      (plan.profiles file).flatMap fun p =>
        (g (.createProfile p.1)).toList ++ (g (.setSources p.1.id p.2)).toList := by
  rw [Plan.writes, writes, List.filterMap_append, List.filterMap_map, List.filterMap_flatMap]
  apply congrArg₂
  · rfl
  · apply congrArg (fun f => (plan.profiles file).flatMap f)
    funext p
    cases h : g (.createProfile p.1) <;> cases h' : g (.setSources p.1.id p.2) <;> simp [h, h']

variable (hall : applied.map (·.write) = plan.writes file)

include hall

theorem createdSources_plan : (createdSources applied).map Prod.snd = plan.sources file := by
  rw [map_createdSources, hall, filterMap_writes]
  simp

theorem createdProfiles_plan :
    (createdProfiles applied).map Prod.snd = (plan.profiles file).map Prod.fst := by
  rw [map_createdProfiles, hall, filterMap_writes]
  simp [List.map_eq_flatMap]

theorem compositions_plan :
    compositions applied = (plan.profiles file).map fun p => (p.1.id, p.2) := by
  rw [compositions_eq, hall, filterMap_writes]
  simp [List.map_eq_flatMap]

theorem sourceSlugs_kept (hsound : ∀ e ∈ applied, EntrySound plan file e) {s : ExportSource}
    {source : Source} (hs : file.sources[i]? = some s)
    (hcreated : (createdSources applied)[i]? = some (used, source)) :
    KeptExactly s.slug used ((file.sources.take i).filterMap (·.slug)) source.slug := by
  obtain ⟨e, he, hwrite⟩ := List.mem_filterMap.mp (List.mem_of_getElem? hcreated)
  have hrow : (plan.sources file)[i]? = some source := by
    rw [← createdSources_plan hall, List.getElem?_map, hcreated]
    rfl
  obtain ⟨s', claim, hs', hclaim, rfl⟩ := getElem?_sources hrow
  obtain rfl : s = s' := Option.some.inj (hs.symm.trans hs')
  have hkept := claimSlugs_kept hclaim (by rw [List.getElem?_map, hs]; rfl)
  rw [← List.map_take, List.filterMap_map] at hkept
  obtain ⟨hheld, happlies⟩ := hsound e he
  cases hw : e.write with
  | createProfile profile =>
    rw [hw] at hwrite
    cases hwrite
  | setSources profileId composition =>
    rw [hw] at hwrite
    cases hwrite
  | createSource source =>
    rw [hw] at hwrite
    obtain ⟨rfl, rfl⟩ := Prod.mk.inj (Option.some.inj hwrite)
    refine keptExactly_rebase hkept ?_ ?_
    · intro t ht
      rw [hw] at happlies
      exact not_mem_sourceSlugs happlies ht
    · intro t ht hlisted
      exact hheld.1 t ht (List.mem_filterMap.mpr ⟨s, List.mem_of_getElem? hs, hlisted⟩)

theorem profileSlugs_kept (hsound : ∀ e ∈ applied, EntrySound plan file e) {p : ExportProfile}
    {profile : Profile} (hp : file.profiles[i]? = some p)
    (hcreated : (createdProfiles applied)[i]? = some (used, profile)) :
    KeptExactly p.slug used ((file.profiles.take i).filterMap (·.slug)) profile.slug := by
  obtain ⟨e, he, hwrite⟩ := List.mem_filterMap.mp (List.mem_of_getElem? hcreated)
  have hrow : ((plan.profiles file).map Prod.fst)[i]? = some profile := by
    rw [← createdProfiles_plan hall, List.getElem?_map, hcreated]
    rfl
  rw [List.getElem?_map] at hrow
  obtain ⟨row, hplanned, rfl⟩ := Option.map_eq_some_iff.mp hrow
  obtain ⟨p', claim, hp', hclaim, rfl⟩ := getElem?_profiles hplanned
  obtain rfl : p = p' := Option.some.inj (hp.symm.trans hp')
  have hkept := claimSlugs_kept hclaim (by rw [List.getElem?_map, hp]; rfl)
  rw [← List.map_take, List.filterMap_map] at hkept
  obtain ⟨hheld, happlies⟩ := hsound e he
  cases hw : e.write with
  | createSource source =>
    rw [hw] at hwrite
    cases hwrite
  | setSources profileId composition =>
    rw [hw] at hwrite
    cases hwrite
  | createProfile profile =>
    rw [hw] at hwrite
    obtain ⟨rfl, rfl⟩ := Prod.mk.inj (Option.some.inj hwrite)
    refine keptExactly_rebase hkept ?_ ?_
    · intro t ht
      rw [hw] at happlies
      exact not_mem_profileSlugs happlies ht
    · intro t ht hlisted
      exact hheld.2 t ht (List.mem_filterMap.mpr ⟨p, List.mem_of_getElem? hp, hlisted⟩)

theorem faithful_of_applied (hrefs : (file.sources.map (·.reference)).Nodup)
    (hsound : ∀ e ∈ applied, EntrySound plan file e) : Faithful file applied := by
  constructor
  · rw [createdSources_plan hall]
    refine forall₂_of_getElem? length_sources.symm ?_
    intro i s source hs hsource
    obtain ⟨s', claim, hs', -, rfl⟩ := getElem?_sources hsource
    obtain rfl : s = s' := Option.some.inj (hs.symm.trans hs')
    rfl
  · rw [createdProfiles_plan hall]
    refine forall₂_of_getElem? (by rw [List.length_map, length_profiles]) ?_
    intro i p profile hp hprofile
    rw [List.getElem?_map] at hprofile
    obtain ⟨row, hrow, rfl⟩ := Option.map_eq_some_iff.mp hprofile
    obtain ⟨p', claim, hp', -, rfl⟩ := getElem?_profiles hrow
    obtain rfl : p = p' := Option.some.inj (hp.symm.trans hp')
    rfl
  · have hids : (createdProfiles applied).map (·.2.id) =
        (plan.profiles file).map (·.1.id) := by
      have hmap := congrArg (List.map (·.id)) (createdProfiles_plan hall)
      rw [List.map_map, List.map_map] at hmap
      exact hmap
    rw [createdSources_plan hall, compositions_plan hall, hids]
    refine forall₂_of_getElem? ?_ ?_
    · rw [List.length_zip, List.length_map, List.length_map, length_profiles, Nat.min_self]
    · intro i p c hp hc
      obtain ⟨hp, hid⟩ := List.getElem?_zip_eq_some.mp hp
      rw [List.getElem?_map] at hid hc
      obtain ⟨row, hrow, rfl⟩ := Option.map_eq_some_iff.mp hc
      rw [hrow] at hid
      obtain ⟨e, claim, he, -, rfl⟩ := getElem?_profiles hrow
      rw [he] at hp
      rw [← Option.some.inj hp]
      exact ⟨(Option.some.inj hid).symm, composed hrefs e⟩
  · exact fun i s used source hs hcreated => sourceSlugs_kept hall hsound hs hcreated
  · exact fun i p used profile hp hcreated => profileSlugs_kept hall hsound hp hcreated

end Applied

/-- Every composition belongs to a profile that is created before it. -/
def Announced : List Text → List Write → Prop
  | _, [] => True
  | ids, .createSource _ :: ws => Announced ids ws
  | ids, .createProfile profile :: ws => Announced (profile.id :: ids) ws
  | ids, .setSources profileId _ :: ws => profileId ∈ ids ∧ Announced ids ws

structure Underway (plan : Plan) (file : ConfigExport) (w : World) (remaining : List Write) :
    Prop where
  refs : (file.sources.map (·.reference)).Nodup
  planned : w.applied.map (·.write) ++ remaining = plan.writes file
  held : TakenHeld plan file w.store
  entries : ∀ e ∈ w.applied, EntrySound plan file e

def PhaseSound (w : World) : Phase → Prop
  | .received _ => w.applied = []
  | .validated file => w.applied = [] ∧ (file.sources.map (·.reference)).Nodup
  | .listed file taken => w.applied = [] ∧ (file.sources.map (·.reference)).Nodup ∧
    ∀ t ∈ taken, t ∈ file.sources.filterMap (·.slug) → t ∈ w.store.sourceSlugs
  | .writing file remaining => ∃ plan, Underway plan file w remaining
  | .done file => Faithful file w.applied
  | .refused => w.applied = []
  | .failed => w.applied = []

section Invariant

variable {vetting : Vetting} {decode : Text → Except Text ConfigExport} {plan : Plan}
  {file : ConfigExport} {w : World} {write : Write} {remaining : List Write}

theorem announced_profiles (ids : List Text) (rows : List (Profile × List (Text × ℕ))) :
    Announced ids (rows.flatMap fun p => [.createProfile p.1, .setSources p.1.id p.2]) := by
  induction rows generalizing ids with
  | nil => trivial
  | cons p rows ih => exact ⟨List.mem_cons_self, ih _⟩

theorem announced_writes : Announced [] (plan.writes file) := by
  have hsources : ∀ (sources : List Source) (ws : List Write), Announced [] ws →
      Announced [] (sources.map .createSource ++ ws) := by
    intro sources ws h
    induction sources with
    | nil => exact h
    | cons source sources ih => exact ih
  exact hsources _ _ (announced_profiles [] _)

theorem Announced.created {ids : List Text} {pre post : List Write} {profileId : Text}
    {composition : List (Text × ℕ)}
    (h : Announced ids (pre ++ .setSources profileId composition :: post)) :
    profileId ∈ ids ∨ ∃ profile, .createProfile profile ∈ pre ∧ profile.id = profileId := by
  induction pre generalizing ids with
  | nil => exact .inl h.1
  | cons w pre ih =>
    have hrest : ∀ {ids'}, Announced ids' (pre ++ .setSources profileId composition :: post) →
        profileId ∈ ids' ∨ ∃ profile, .createProfile profile ∈ w :: pre ∧
          profile.id = profileId := by
      intro ids' h'
      rcases ih h' with hid | ⟨profile, hmem, hid⟩
      · exact .inl hid
      · exact .inr ⟨profile, List.mem_cons_of_mem _ hmem, hid⟩
    cases w with
    | createSource source => exact hrest h
    | setSources id c => exact hrest h.2
    | createProfile profile =>
      rcases hrest h with hid | hcreated
      · rcases List.mem_cons.mp hid with rfl | hid
        · exact .inr ⟨profile, List.mem_cons_self, rfl⟩
        · exact .inl hid
      · exact .inr hcreated

theorem prefix_apply (h : s.apply write = some s') :
    s.sources <+: s'.sources ∧ s.profiles <+: s'.profiles ∧
      ∀ m ∈ s.members, (∀ composition, write ≠ .setSources m.profileId composition) →
        m ∈ s'.members := by
  cases write with
  | createSource source =>
    rw [Store.apply, Store.createSource] at h
    split at h
    · cases h
    · obtain rfl := Option.some.inj h
      exact ⟨List.prefix_append _ _, List.prefix_rfl, fun m hm _ => hm⟩
  | createProfile profile =>
    rw [Store.apply, Store.createProfile] at h
    split at h
    · cases h
    · obtain rfl := Option.some.inj h
      exact ⟨List.prefix_rfl, List.prefix_append _ _, fun m hm _ => hm⟩
  | setSources profileId composition =>
    rw [Store.apply, Store.setSources] at h
    split at h
    · obtain rfl := Option.some.inj h
      refine ⟨List.prefix_rfl, List.prefix_rfl, ?_⟩
      intro m hm hother
      apply List.mem_append_left
      apply List.mem_filter.mpr
      refine ⟨hm, decide_eq_true ?_⟩
      rintro rfl
      exact hother composition rfl
    · cases h

theorem sourceSlugs_mono (h : s.sources <+: s'.sources) (ht : t ∈ s.sourceSlugs) :
    t ∈ s'.sourceSlugs := by
  obtain ⟨source, hsource, hslug⟩ := List.mem_filterMap.mp ht
  exact List.mem_filterMap.mpr ⟨source, h.subset hsource, hslug⟩

theorem profileSlugs_mono (h : s.profiles <+: s'.profiles) (ht : t ∈ s.profileSlugs) :
    t ∈ s'.profileSlugs := by
  obtain ⟨profile, hprofile, hslug⟩ := List.mem_filterMap.mp ht
  exact List.mem_filterMap.mpr ⟨profile, h.subset hprofile, hslug⟩

theorem Underway.step (h : Underway plan file w (write :: remaining))
    (happlies : w.store.apply write = some s') :
    Underway plan file
      ⟨s', .writing file remaining, w.applied ++ [⟨w.store, write⟩]⟩ remaining := by
  obtain ⟨hsources, hprofiles, -⟩ := prefix_apply happlies
  constructor
  · exact h.refs
  · rw [List.map_append, List.append_assoc]
    exact h.planned
  · constructor
    · exact fun t ht hlisted => sourceSlugs_mono hsources (h.held.1 t ht hlisted)
    · exact fun t ht hlisted => profileSlugs_mono hprofiles (h.held.2 t ht hlisted)
  · intro e he
    rcases List.mem_append.mp he with he | he
    · exact h.entries e he
    · obtain rfl := List.mem_singleton.mp he
      exact ⟨h.held, by rw [happlies]; rfl⟩

theorem phaseSound_next (h : PhaseSound w w.phase) {e : Event} (henabled : Enabled w e)
    (hok : Careful w e) :
    PhaseSound (next vetting decode w e) (next vetting decode w e).phase := by
  cases e with
  | validate =>
    obtain ⟨payload, hphase⟩ := henabled
    rw [hphase] at h
    simp only [next, hphase]
    cases hfile : accepted vetting decode payload with
    | none => exact h
    | some file =>
      refine ⟨h, ?_⟩
      unfold accepted at hfile
      cases hdecode : decode (trim payload) with
      | error e =>
        rw [hdecode] at hfile
        cases hfile
      | ok parsed =>
        simp only [hdecode] at hfile
        split at hfile
        next hvalid =>
          obtain rfl := Option.some.inj hfile
          exact nodup_of_validateImport hvalid.2
        next => cases hfile
  | listSources fails =>
    obtain ⟨file, hphase⟩ := henabled
    rw [hphase] at h
    simp only [next, hphase]
    cases fails with
    | true => exact h.1
    | false => exact ⟨h.1, h.2, fun t ht _ => ht⟩
  | listProfiles newId now fails =>
    obtain ⟨hdistinct, file, taken, hphase⟩ := henabled
    rw [hphase] at h
    obtain ⟨hnone, hrefs, hheld⟩ := h
    simp only [next, hphase]
    cases fails with
    | true => exact hnone
    | false =>
      refine ⟨⟨newId, now, taken, w.store.profileSlugs, hdistinct⟩, hrefs, ?_, ?_, ?_⟩
      · simp only [hnone]
        rfl
      · exact ⟨hheld, fun t ht _ => ht⟩
      · intro e he
        simp only [hnone] at he
        exact absurd he List.not_mem_nil
  | write fails =>
    obtain ⟨file, write, remaining, hphase⟩ := henabled
    rw [hphase] at h
    obtain ⟨plan, hplan⟩ := h
    simp only [Careful, hphase] at hok
    simp only [next, hphase]
    cases fails with
    | true => exact hok (.inl rfl)
    | false =>
      cases happlies : w.store.apply write with
      | none =>
        simp only [Bool.false_eq_true, if_false]
        exact hok (.inr happlies)
      | some s' =>
        simp only [Bool.false_eq_true, if_false]
        exact ⟨plan, hplan.step happlies⟩
  | render fails =>
    obtain ⟨file, hphase⟩ := henabled
    rw [hphase] at h
    obtain ⟨plan, hplan⟩ := h
    simp only [next, hphase]
    cases fails with
    | true => exact hok rfl
    | false =>
      have hall := hplan.planned
      rw [List.append_nil] at hall
      exact faithful_of_applied hall hplan.refs hplan.entries
  | other store =>
    simp only [next]
    cases hphase : w.phase with
    | received payload => rwa [hphase] at h
    | validated file => rwa [hphase] at h
    | listed file taken =>
      rw [hphase] at h
      simp only [Careful, hphase] at hok
      exact ⟨h.1, h.2.1, fun t ht hlisted => hok.1 t hlisted (h.2.2 t ht hlisted)⟩
    | writing file remaining =>
      rw [hphase] at h
      simp only [Careful, hphase] at hok
      obtain ⟨plan, hplan⟩ := h
      refine ⟨plan, hplan.refs, hplan.planned, ?_, hplan.entries⟩
      constructor
      · exact fun t ht hlisted => hok.1 t hlisted (hplan.held.1 t ht hlisted)
      · exact fun t ht hlisted => hok.2 t hlisted (hplan.held.2 t ht hlisted)
    | done file => rwa [hphase] at h
    | refused => rwa [hphase] at h
    | failed => rwa [hphase] at h

theorem Underway.created (h : Underway plan file w (write :: remaining)) {profileId : Text}
    {composition : List (Text × ℕ)} (hwrite : write = .setSources profileId composition) :
    profileId ∈ (createdProfiles w.applied).map (·.2.id) := by
  have hannounced : Announced [] (plan.writes file) := announced_writes
  rw [← h.planned, hwrite] at hannounced
  rcases hannounced.created with hmem | ⟨profile, hprofile, rfl⟩
  · exact absurd hmem List.not_mem_nil
  · obtain ⟨e, he, hwrote⟩ := List.mem_map.mp hprofile
    apply List.mem_map.mpr
    refine ⟨(e.before.profileSlugs, profile), List.mem_filterMap.mpr ⟨e, he, ?_⟩, rfl⟩
    rw [hwrote]

theorem keepsRows_next (h : PhaseSound w w.phase) {e : Event} (henabled : Enabled w e)
    (hown : ∀ store, e ≠ .other store) : KeepsRows w (next vetting decode w e) := by
  have hsame : ∀ {w' : World}, w'.store = w.store → KeepsRows w w' := by
    intro w' hstore
    rw [KeepsRows, hstore]
    exact ⟨List.prefix_rfl, List.prefix_rfl, fun m hm _ => hm⟩
  cases e with
  | validate =>
    obtain ⟨payload, hphase⟩ := henabled
    apply hsame
    simp only [next, hphase]
  | listSources fails =>
    obtain ⟨file, hphase⟩ := henabled
    apply hsame
    simp only [next, hphase]
  | listProfiles newId now fails =>
    obtain ⟨-, file, taken, hphase⟩ := henabled
    apply hsame
    simp only [next, hphase]
  | write fails =>
    obtain ⟨file, statement, remaining, hphase⟩ := henabled
    rw [hphase] at h
    obtain ⟨plan, hplan⟩ := h
    simp only [next, hphase]
    cases happlies : (if fails then none else w.store.apply statement) with
    | none => exact hsame rfl
    | some s' =>
      split at happlies
      · cases happlies
      · obtain ⟨hsources, hprofiles, hmembers⟩ := prefix_apply happlies
        refine ⟨hsources, hprofiles, ?_⟩
        intro m hm hforeign
        apply hmembers m hm
        intro composition hstatement
        exact hforeign (hplan.created hstatement)
  | render fails =>
    obtain ⟨file, hphase⟩ := henabled
    apply hsame
    simp only [next, hphase]
  | other store => exact absurd rfl (hown store)

/-- In every run of careful steps: when the import has reported an error none of its rows is left,
when it has reported success it has created what the file lists, and none of its steps changes a
row that it has not created. -/
theorem import_all_or_nothing (h : Reachable (imports vetting decode) Careful w) :
    (Failed w → LeavesNothing w) ∧ (∀ file, w.phase = .done file → Faithful file w.applied) ∧
      ∀ e, Enabled w e → (∀ store, e ≠ .other store) →
        KeepsRows w (next vetting decode w e) := by
  have hsound : PhaseSound w w.phase := by
    refine h.invariant (fun w => PhaseSound w w.phase) ?_ ?_
    · rintro w ⟨⟨payload, hphase⟩, hnone⟩
      rw [hphase]
      exact hnone
    · exact fun w e hw henabled hok => phaseSound_next hw henabled hok
  refine ⟨?_, ?_, ?_⟩
  · intro hfailed e he
    have hnone : w.applied = [] := by
      rcases hfailed with hphase | hphase
      · rwa [hphase] at hsound
      · rwa [hphase] at hsound
    rw [hnone] at he
    exact absurd he List.not_mem_nil
  · intro file hphase
    rwa [hphase] at hsound
  · exact fun e henabled hown => keepsRows_next hsound henabled hown

end Invariant

section Samples

/-- Libraries on the sample file, which has no pipelines and no headers. -/
def sampleVetting : Vetting where
  engines := ⟨Unit, fun _ _ _ _ => .ok (), fun _ _ => false, fun _ t _ => t, fun _ => []⟩
  parseUrl url :=
    if url = ("https://example.com/a" : Text) ∨ url = ("https://example.com/b" : Text) then
      .ok ("https", some ("example.com" : Text))
    else .error "relative URL without a base"
  vetHost := fun _ _ => none
  headerName := fun _ => true
  headerValue := fun _ => true
  print := fun _ => "null"
  allowPrivateUrls := false
  defaultFamily := .any

def samplePayload : Text :=
  "\x7b\"version\":1,\"exported_at\":0,\"sources\":[\x7b\"ref\":\"a\",\"slug\":\"feed\",\"name\":\"A\",\"url\":\"https://example.com/a\",\"cache_ttl_seconds\":3600\x7d,\x7b\"ref\":\"b\",\"slug\":\"feed\",\"name\":\"B\",\"url\":\"https://example.com/b\",\"cache_ttl_seconds\":3600\x7d],\"profiles\":[\x7b\"name\":\"P\",\"sources\":[\"b\",\"x\",\"a\",\"b\"]\x7d]\x7d"

def sampleFile : ConfigExport where
  version := 1
  exportedAt := 0
  sources := [
    { reference := "a", slug := some ("feed" : Text), name := "A", url := "https://example.com/a",
      cacheTtlSeconds := 3600 },
    { reference := "b", slug := some ("feed" : Text), name := "B", url := "https://example.com/b",
      cacheTtlSeconds := 3600 }]
  profiles := [{ name := "P", sourceRefs := ["b", "x", "a", "b"] }]

def sampleDecode : Text → Except Text ConfigExport := fun _ => .ok sampleFile

def freshId (n : ℕ) : Text := "id" ++ decimal n

theorem freshId_injective : Function.Injective freshId := by
  intro m n h
  exact decimal_injective (List.append_cancel_left h)

def validated : World := ⟨⟨[], [], []⟩, .validated sampleFile, []⟩

theorem validated_reachable {Ok : World → Event → Prop} (h : ∀ w, Ok w .validate) :
    Reachable (imports sampleVetting sampleDecode) Ok validated := by
  have hvalid : validateImport sampleVetting sampleFile = [] := by decide
  have hfile : accepted sampleVetting sampleDecode samplePayload = some sampleFile := by
    rw [accepted, sampleDecode]
    exact if_pos ⟨rfl, hvalid⟩
  have hstart : Reachable (imports sampleVetting sampleDecode) Ok
      ⟨⟨[], [], []⟩, .received samplePayload, []⟩ := .init ⟨⟨_, rfl⟩, rfl⟩
  have henabled : (imports sampleVetting sampleDecode).Enabled
      ⟨⟨[], [], []⟩, .received samplePayload, []⟩ .validate := ⟨_, rfl⟩
  have hnext := hstart.step henabled (h _)
  have hworld : next sampleVetting sampleDecode
      ⟨⟨[], [], []⟩, .received samplePayload, []⟩ .validate = validated := by
    simp only [next, hfile]
    rfl
  rw [← hworld]
  exact hnext

def after (events : List Event) : World :=
  events.foldl (next sampleVetting sampleDecode) validated

def wholeImport : List Event :=
  [.listSources false, .listProfiles freshId 100 false, .write false, .write false, .write false,
    .write false, .render false]

/-- The first statement is not refused by the tables. -/
def applies (w : World) : Bool :=
  match w.phase with
  | .writing _ (write :: _) => (w.store.apply write).isSome
  | _ => true

theorem careful_write {w : World} (h : applies w = true) : Careful w (.write false) := by
  simp only [Careful]
  unfold applies at h
  split
  next file write rest hphase =>
    simp only [hphase] at h
    rintro (hfails | hnone)
    · cases hfails
    · rw [hnone] at h
      cases h
  next => trivial

theorem wholeImport_reachable :
    Reachable (imports sampleVetting sampleDecode) Careful (after wholeImport) := by
  apply (validated_reachable fun _ => trivial).execute
  refine ⟨⟨_, rfl⟩, trivial, ⟨freshId_injective, _, _, rfl⟩, trivial, ⟨_, _, _, rfl⟩,
    careful_write ?_, ⟨_, _, _, rfl⟩, careful_write ?_, ⟨_, _, _, rfl⟩, careful_write ?_,
    ⟨_, _, _, rfl⟩, careful_write ?_, ⟨_, rfl⟩, ?_, trivial⟩
  · decide
  · decide
  · decide
  · decide
  · exact fun hfails => absurd hfails Bool.false_ne_true

theorem import_all_or_nothing_sample :
    (after wholeImport).phase = .done sampleFile ∧ Faithful sampleFile (after wholeImport).applied :=
  ⟨rfl, (import_all_or_nothing wholeImport_reachable).2.1 sampleFile rfl⟩

/-- The database fails at the second source. -/
def halfImport : List Event :=
  [.listSources false, .listProfiles freshId 100 false, .write false, .write true]

/-- The first source stays behind an import that reports an error. -/
theorem half_import_stays :
    ∃ w, Reachable (imports sampleVetting sampleDecode) Any w ∧ Failed w ∧ ¬LeavesNothing w := by
  refine ⟨after halfImport, ?_, .inr rfl, ?_⟩
  · apply (validated_reachable fun _ => trivial).execute
    exact ⟨⟨_, rfl⟩, trivial, ⟨freshId_injective, _, _, rfl⟩, trivial, ⟨_, _, _, rfl⟩, trivial,
      ⟨_, _, _, rfl⟩, trivial, trivial⟩
  · intro hnothing
    have habsent := hnothing _ List.mem_cons_self
    exact habsent List.mem_cons_self

end Samples

end ImportSteps
