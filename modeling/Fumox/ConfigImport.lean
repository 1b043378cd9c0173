import Fumox.ConfigModels
import Fumox.PipelineConfig
import Fumox.RankedPrefix

/-!
The configuration file of the admin panel: its rows, the validation of an import, and the rows that
an import writes, with slugs claimed and references placed.
-/

namespace ConfigImport

open RustText JsonValue ProxyModels SubscriptionParser ConfigModels PipelineConfig RankedPrefix

def supportedVersion : ℕ := 1

structure ExportSource where
  reference : Text
  slug : Option Text := none
  name : Text
  url : Text
  enabled : Bool := false
  encoding : Encoding := .auto
  inputFormat : Option InputFormat := none
  protocols : Option (List Scheme) := none
  cacheTtlSeconds : ℤ
  tags : Option (List Text) := none
  pipeline : Option Json := none
  headers : Option (List (Text × Text)) := none
  ipFamily : Option IpFamily := none

structure ExportProfile where
  slug : Option Text := none
  accessToken : Option Text := none
  name : Text
  outputFormat : OutputFormat := .uriList
  pipeline : Option Json := none
  countries : List Text := []
  enabled : Bool := false
  sourceRefs : List Text := []

structure ConfigExport where
  version : ℕ
  exportedAt : ℤ
  sources : List ExportSource := []
  profiles : List ExportProfile := []

namespace Caps

def url : ℕ := 2048
def pipelineBytes : ℕ := 64 * 1024
def accessToken : ℕ := 128
def importTokenMin : ℕ := 16
def tags : ℕ := 20
def tagBytes : ℕ := 100
def countries : ℕ := 64
def headerLines : ℕ := 32
def headerBytes : ℕ := 8 * 1024
def importRows : ℕ := 500
def importDnsVet : ℕ := 25

end Caps

/-- What a validation asks of the panel's configuration, of the URL, HTTP and JSON libraries, and of
the resolver. -/
structure Vetting where
  engines : Engines
  /-- Scheme and host of a URL. -/
  parseUrl : Text → Except Text (Text × Option Text)
  vetHost : Text → IpFamily → Option Text
  headerName : Text → Bool
  headerValue : Text → Bool
  print : Json → Text
  allowPrivateUrls : Bool
  defaultFamily : IpFamily

inductive RowKind where
  | source | profile
  deriving DecidableEq, Repr

/-- A problem of one row of the file. -/
structure ImportIssue where
  kind : RowKind
  name : Option Text
  issue : PipelineIssue
  deriving DecidableEq, Repr

section Validation

variable (vetting : Vetting)

def byteLength (t : Text) : ℕ := (bytes t).length

def validateUrl (url : Text) : Option PipelineIssue :=
  if byteLength url > Caps.url then some ⟨"val.url_too_long", [decimal Caps.url]⟩
  else match vetting.parseUrl url with
    | .error e => some ⟨"val.url_invalid", [e]⟩
    | .ok (scheme, host) =>
      if scheme ≠ "http" ∧ scheme ≠ "https" then some ⟨"val.url_scheme", [scheme]⟩
      else if host.isNone then some ⟨"val.url_no_host", []⟩
      else none

def vetUrl (url : Text) (allowPrivateUrls : Bool) (family : IpFamily) : Option PipelineIssue :=
  (validateUrl vetting url).or <|
    if allowPrivateUrls then none
    else match vetting.parseUrl url with
      | .error e => some ⟨"val.url_invalid", [e]⟩
      | .ok (_, none) => some ⟨"val.url_no_host", []⟩
      | .ok (_, some host) => (vetting.vetHost host family).map fun e => ⟨"val.url_ssrf", [e]⟩

/-- `^[A-Za-z0-9][A-Za-z0-9_-]{1,63}$`. -/
def slugFormat : Text → Bool
  | [] => false
  | c :: t => c.isAlphanum && t.all (fun c => c.isAlphanum || c = '_' || c = '-') &&
    1 ≤ t.length && t.length ≤ 63

def nameIssues (name : Text) : List PipelineIssue :=
  if trim name = [] then [⟨"val.required", []⟩]
  else if name.length > 200 then [⟨"val.name_too_long", []⟩]
  else []

def slugIssues (slug : Option Text) : List PipelineIssue :=
  if slug.any fun s => s ≠ [] && !slugFormat s then [⟨"val.slug_format", []⟩] else []

/-- The URL of a row, and what is left of the window of DNS lookups. -/
def urlIssues (budget : ℕ) (s : ExportSource) : List PipelineIssue × ℕ :=
  if trim s.url = [] then ([⟨"val.required", []⟩], budget)
  else if byteLength s.url > Caps.url then
    ([⟨"val.field_too_long", [decimal Caps.url]⟩], budget)
  else if vetting.allowPrivateUrls then ((validateUrl vetting s.url).toList, budget)
  else if 0 < budget then
    ((vetUrl vetting s.url false (s.ipFamily.getD vetting.defaultFamily)).toList, budget - 1)
  else ((validateUrl vetting s.url).toList, budget)

def ttlIssues (ttl : ℤ) : List PipelineIssue :=
  if 60 ≤ ttl ∧ ttl ≤ 86400 then [] else [⟨"val.ttl_range", []⟩]

def tagIssues (tags : Option (List Text)) : List PipelineIssue :=
  if tags.any fun l => l.length > Caps.tags || l.any (byteLength · > Caps.tagBytes) then
    [⟨"val.too_many_tags", [decimal Caps.tags]⟩]
  else []

def headerIssues : Option (List (Text × Text)) → List PipelineIssue
  | none => []
  | some headers =>
    (if headers.length > Caps.headerLines then
      [⟨"val.too_many_headers", [decimal Caps.headerLines]⟩] else []) ++
    (if (headers.map fun h => byteLength h.1 + byteLength h.2).sum > Caps.headerBytes then
      [⟨"val.headers_too_long", [decimal Caps.headerBytes]⟩] else []) ++
    headers.flatMap fun h =>
      if vetting.headerName h.1 && vetting.headerValue h.2 then []
      else [⟨"val.header_invalid", [h.1]⟩]

def pipelineIssues : Option Json → List PipelineIssue
  | none => []
  | some pipeline =>
    (if byteLength (vetting.print pipeline) > Caps.pipelineBytes then
      [⟨"val.field_too_long", [decimal Caps.pipelineBytes]⟩] else []) ++
    match fromJson vetting.engines (some pipeline) with
    | .error issues => issues
    | .ok _ => []

def tokenIssues : Option Text → List PipelineIssue
  | none => []
  | some token =>
    (if token ≠ [] ∧ token.length < Caps.importTokenMin then
      [⟨"val.token_too_short_import", []⟩] else []) ++
    (if byteLength token > Caps.accessToken then
      [⟨"val.field_too_long", [decimal Caps.accessToken]⟩] else []) ++
    -- the serve link embeds the token unescaped
    if token ≠ [] ∧ ¬token.all (fun c => c.isAlphanum || c = '-' || c = '_' || c = '.' || c = '~')
    then [⟨"val.token_format", []⟩] else []

def countryIssues (countries : List Text) : List PipelineIssue :=
  (if countries.length > Caps.countries then
    [⟨"val.too_many_countries", [decimal Caps.countries]⟩] else []) ++
  countries.flatMap fun code =>
    if byteLength (trim code) = 2 ∧ (trim code).all (·.isAlpha) then []
    else [⟨"val.country_format", [code]⟩]

def sourceIssues (seenRefs : List Text) (budget : ℕ) (s : ExportSource) :
    List PipelineIssue × ℕ :=
  let url := urlIssues vetting budget s
  ((if s.reference ∈ seenRefs then [⟨"val.dup_ref", [s.reference]⟩] else []) ++
    nameIssues s.name ++ url.1 ++ slugIssues s.slug ++ ttlIssues s.cacheTtlSeconds ++
    tagIssues s.tags ++ headerIssues vetting s.headers ++ pipelineIssues vetting s.pipeline, url.2)

def validateSources (seenRefs : List Text) (budget : ℕ) : List ExportSource → List ImportIssue
  | [] => []
  | s :: rest =>
    let issues := sourceIssues vetting seenRefs budget s
    issues.1.map (⟨.source, some s.name, ·⟩) ++
      validateSources (s.reference :: seenRefs) issues.2 rest

def profileIssues (p : ExportProfile) : List PipelineIssue :=
  nameIssues p.name ++ slugIssues p.slug ++ tokenIssues p.accessToken ++
    pipelineIssues vetting p.pipeline ++ countryIssues p.countries

def rowCapIssues (kind : RowKind) (rows : ℕ) : List ImportIssue :=
  if rows > Caps.importRows then
    [⟨kind, none, ⟨"val.import_too_many_rows", [decimal Caps.importRows]⟩⟩]
  else []

def validateImport (file : ConfigExport) : List ImportIssue :=
  let capped := rowCapIssues .source file.sources.length ++
    rowCapIssues .profile file.profiles.length
  if capped ≠ [] then capped
  else validateSources vetting [] Caps.importDnsVet file.sources ++
    file.profiles.flatMap fun p => (profileIssues vetting p).map (⟨.profile, some p.name, ·⟩)

end Validation

inductive ImportWarning where
  | slugCollision (name slug : Text)
  | unknownRef (profile reference : Text)
  deriving DecidableEq, Repr

/-- The slug if it is free, the slugs taken after that, and what to warn about. -/
def claimSlug (slug : Option Text) (taken : List Text) (name : Text) :
    Option Text × List Text × List ImportWarning :=
  match slug.filter (· ≠ []) with
  | none => (none, taken, [])
  | some slug =>
    if slug ∈ taken then (none, taken, [.slugCollision name slug]) else (some slug, slug :: taken, [])

/-- Slugs claimed one after the other. -/
def claimSlugs : List Text → List (Option Text × Text) → List (Option Text × List ImportWarning)
  | _, [] => []
  | taken, (slug, name) :: rest =>
    let claim := claimSlug slug taken name
    (claim.1, claim.2.2) :: claimSlugs claim.2.1 rest

def importedSource (s : ExportSource) (id : Text) (slug : Option Text) (now : ℤ) : Source where
  id := id
  slug := slug
  name := s.name
  url := s.url
  enabled := s.enabled
  encoding := s.encoding
  inputFormat := s.inputFormat
  protocols := s.protocols
  cacheTtlSeconds := s.cacheTtlSeconds
  tags := s.tags
  pipeline := s.pipeline
  headers := s.headers
  ipFamily := s.ipFamily
  createdAt := now
  updatedAt := now
  lastFetchedAt := none
  lastError := none
  errorClass := none

def importedProfile (p : ExportProfile) (id : Text) (slug : Option Text) (now : ℤ) : Profile where
  id := id
  slug := slug
  accessToken := p.accessToken
  name := p.name
  outputFormat := p.outputFormat
  pipeline := p.pipeline
  countries := p.countries
  enabled := p.enabled
  createdAt := now
  updatedAt := now

/-- The composition of a profile from a position on. -/
def placeRefs (refToId : Text → Option Text) (profile : Text) :
    ℕ → List Text → List Text → List (Text × ℕ) × List ImportWarning
  | _, _, [] => ([], [])
  | position, placed, reference :: rest =>
    match refToId reference with
    | some id =>
      if id ∈ placed then placeRefs refToId profile (position + 1) placed rest
      else
        let tail := placeRefs refToId profile (position + 1) (id :: placed) rest
        ((id, position) :: tail.1, tail.2)
    | none =>
      let tail := placeRefs refToId profile (position + 1) placed rest
      (tail.1, .unknownRef profile reference :: tail.2)

/-- The map from references to fresh ids; a later row replaces an earlier one. -/
def refToId (newId : ℕ → Text) (sources : List ExportSource) (reference : Text) : Option Text :=
  (sources.zipIdx.map fun s => (s.1.reference, newId s.2)).reverse.lookup reference

def sourceClaims (taken : List Text) (file : ConfigExport) :
    List (Option Text × List ImportWarning) :=
  claimSlugs taken (file.sources.map fun s => (s.slug, s.name))

def profileClaims (taken : List Text) (file : ConfigExport) :
    List (Option Text × List ImportWarning) :=
  claimSlugs taken (file.profiles.map fun p => (p.slug, p.name))

/-- The sources that the write phase creates, in order. -/
def sourceRows (newId : ℕ → Text) (now : ℤ) (taken : List Text) (file : ConfigExport) :
    List Source :=
  (file.sources.zip (sourceClaims taken file)).zipIdx.map fun s =>
    importedSource s.1.1 (newId s.2) s.1.2.1 now

def composition (newId : ℕ → Text) (file : ConfigExport) (p : ExportProfile) :
    List (Text × ℕ) × List ImportWarning :=
  placeRefs (refToId newId file.sources) p.name 0 [] p.sourceRefs

/-- The profiles that the write phase creates, each with its composition. -/
def profileRows (newId : ℕ → Text) (now : ℤ) (taken : List Text) (file : ConfigExport) :
    List (Profile × List (Text × ℕ)) :=
  (file.profiles.zip (profileClaims taken file)).zipIdx.map fun p =>
    (importedProfile p.1.1 (newId (file.sources.length + p.2)) p.1.2.1 now,
      (composition newId file p.1.1).1)

def importWarnings (newId : ℕ → Text) (takenSources takenProfiles : List Text)
    (file : ConfigExport) : List ImportWarning :=
  (sourceClaims takenSources file).flatMap Prod.snd ++
    (file.profiles.zip (profileClaims takenProfiles file)).flatMap fun p =>
      p.2.2 ++ (composition newId file p.1).2

/-- A slug is given to a row exactly when the file lists it there, and it is used neither in the
table nor earlier in the file. -/
def KeptExactly (listed : Option Text) (used earlier : List Text) (given : Option Text) : Prop :=
  ∀ t, given = some t ↔ listed = some t ∧ t ≠ [] ∧ t ∉ used ∧ t ∉ earlier

section Slugs

variable {slug : Option Text} {taken : List Text} {name t : Text}

theorem claimSlug_some {s : Text} (h : s ≠ []) :
    claimSlug (some s) taken name =
      if s ∈ taken then (none, taken, [.slugCollision name s]) else (some s, s :: taken, []) := by
  rw [claimSlug, Option.filter_some_pos (by simpa using h)]

theorem claimSlug_kept : KeptExactly slug taken [] (claimSlug slug taken name).1 := by
  intro t
  cases slug with
  | none => simp [claimSlug]
  | some s =>
    rw [Option.some.injEq]
    by_cases hempty : s = []
    · subst hempty
      constructor
      · intro h
        cases h
      · rintro ⟨rfl, hne, -⟩
        exact absurd rfl hne
    · rw [claimSlug_some hempty]
      by_cases hs : s ∈ taken
      · rw [if_pos hs]
        constructor
        · intro h
          cases h
        · rintro ⟨rfl, -, hfree, -⟩
          exact absurd hs hfree
      · rw [if_neg hs]
        constructor
        · intro h
          obtain rfl := Option.some.inj h
          exact ⟨rfl, hempty, hs, List.not_mem_nil⟩
        · rintro ⟨rfl, -⟩
          rfl

theorem mem_claimSlug (ht : t ≠ []) :
    t ∈ (claimSlug slug taken name).2.1 ↔ t ∈ taken ∨ slug = some t := by
  cases slug with
  | none => simp [claimSlug]
  | some s =>
    rw [Option.some.injEq]
    by_cases hempty : s = []
    · subst hempty
      exact (or_iff_left (Ne.symm ht)).symm
    · rw [claimSlug_some hempty]
      by_cases hs : s ∈ taken
      · rw [if_pos hs]
        constructor
        · exact .inl
        · rintro (h | rfl)
          · exact h
          · exact hs
      · rw [if_neg hs, List.mem_cons]
        constructor
        · rintro (rfl | h)
          · exact .inr rfl
          · exact .inl h
        · rintro (h | rfl)
          · exact .inr h
          · exact .inl rfl

theorem length_claimSlugs (taken : List Text) (l : List (Option Text × Text)) :
    (claimSlugs taken l).length = l.length := by
  induction l generalizing taken with
  | nil => rfl
  | cons x l ih => exact congrArg Nat.succ (ih _)

theorem claimSlugs_kept {l : List (Option Text × Text)} {i : ℕ}
    {claim : Option Text × List ImportWarning} (hclaim : (claimSlugs taken l)[i]? = some claim)
    (hl : l[i]? = some (slug, name)) :
    KeptExactly slug taken ((l.take i).filterMap Prod.fst) claim.1 := by
  induction l generalizing taken i with
  | nil => cases hl
  | cons x l ih =>
    obtain ⟨slug₀, name₀⟩ := x
    cases i with
    | zero =>
      obtain ⟨rfl, rfl⟩ := Prod.mk.inj (Option.some.inj hl)
      obtain rfl := Option.some.inj hclaim
      exact claimSlug_kept
    | succ i =>
      have hrest : KeptExactly slug (claimSlug slug₀ taken name₀).2.1 ((l.take i).filterMap Prod.fst)
          claim.1 := ih hclaim hl
      intro t
      rw [hrest t]
      have hearlier : t ∈ (((slug₀, name₀) :: l).take (i + 1)).filterMap Prod.fst ↔
          slug₀ = some t ∨ t ∈ (l.take i).filterMap Prod.fst := by
        simp [List.mem_filterMap]
      constructor
      · rintro ⟨hslug, hne, hfree, hnew⟩
        rw [mem_claimSlug hne, not_or] at hfree
        refine ⟨hslug, hne, hfree.1, ?_⟩
        rw [hearlier]
        exact not_or.mpr ⟨hfree.2, hnew⟩
      · rintro ⟨hslug, hne, hfree, hnew⟩
        rw [hearlier, not_or] at hnew
        refine ⟨hslug, hne, ?_, hnew.2⟩
        rw [mem_claimSlug hne]
        exact not_or.mpr ⟨hfree, hnew.1⟩

end Slugs

section Compositions

variable {refs : Text → Option Text} {profile : Text} {placed seen l : List Text} {position : ℕ}

/-- The references that occur in the file, each at its first place, and their ids. -/
theorem placeRefs_ids (hinj : ∀ r r' id, refs r = some id → refs r' = some id → r = r')
    (hseen : ∀ r id, refs r = some id → (id ∈ placed ↔ r ∈ seen)) :
    List.Forall₂ (fun r m => refs r = some m.1)
      (firstCopies id seen (l.filter fun r => (refs r).isSome))
      (placeRefs refs profile position placed l).1 := by
  induction l generalizing placed seen position with
  | nil => exact .nil
  | cons r l ih =>
    cases hr : refs r with
    | none =>
      have hfilter : (r :: l).filter (fun r => (refs r).isSome) =
          l.filter fun r => (refs r).isSome := List.filter_cons_of_neg (by simp [hr])
      rw [hfilter, placeRefs, hr]
      exact ih hseen
    | some i =>
      have hfilter : (r :: l).filter (fun r => (refs r).isSome) =
          r :: l.filter fun r => (refs r).isSome := List.filter_cons_of_pos (by simp [hr])
      rw [hfilter, placeRefs, hr, firstCopies]
      by_cases hplaced : i ∈ placed
      · have hmem : id r ∈ seen := (hseen r i hr).mp hplaced
        simp only [hplaced, hmem, if_true]
        exact ih hseen
      · have hmem : id r ∉ seen := fun h => hplaced ((hseen r i hr).mpr h)
        simp only [hplaced, hmem, if_false]
        refine .cons hr (ih ?_)
        intro r' i' hr'
        rw [List.mem_cons, List.mem_cons, hseen r' i' hr']
        apply or_congr_left
        constructor
        · rintro rfl
          exact hinj r' r i' hr' hr
        · intro h
          have hsame : r' = r := h
          rw [hsame, hr] at hr'
          exact (Option.some.inj hr').symm

theorem le_of_mem_placeRefs {m : Text × ℕ}
    (hm : m ∈ (placeRefs refs profile position placed l).1) : position ≤ m.2 := by
  induction l generalizing placed position with
  | nil => exact absurd hm List.not_mem_nil
  | cons r l ih =>
    have htail : ∀ {placed}, m ∈ (placeRefs refs profile (position + 1) placed l).1 →
        position ≤ m.2 := fun h => Nat.le_of_succ_le (ih h)
    rw [placeRefs] at hm
    cases hr : refs r with
    | none =>
      rw [hr] at hm
      exact htail hm
    | some i =>
      simp only [hr] at hm
      split at hm
      · exact htail hm
      · rcases List.mem_cons.mp hm with rfl | hm
        · exact le_rfl
        · exact htail hm

theorem pairwise_placeRefs :
    (placeRefs refs profile position placed l).1.Pairwise fun a b => a.2 < b.2 := by
  induction l generalizing placed position with
  | nil => exact .nil
  | cons r l ih =>
    rw [placeRefs]
    cases hr : refs r with
    | none => exact ih
    | some i =>
      dsimp only
      split
      · exact ih
      · exact .cons (fun m hm => le_of_mem_placeRefs hm) ih

end Compositions

section References

variable {vetting : Vetting} {sources : List ExportSource} {newId : ℕ → Text} {r id : Text}

theorem nodup_of_validateSources {seenRefs : List Text} {budget : ℕ}
    (h : validateSources vetting seenRefs budget sources = []) :
    (sources.map (·.reference)).Nodup ∧ ∀ s ∈ sources, s.reference ∉ seenRefs := by
  induction sources generalizing seenRefs budget with
  | nil => exact ⟨.nil, fun s hs => absurd hs List.not_mem_nil⟩
  | cons s rest ih =>
    obtain ⟨hissues, hrest⟩ := List.append_eq_nil_iff.mp h
    obtain ⟨hnodup, hnew⟩ := ih hrest
    have hown : s.reference ∉ seenRefs := by
      intro hmem
      have hnone := List.map_eq_nil_iff.mp hissues
      simp only [sourceIssues, if_pos hmem, List.cons_append, List.cons_ne_nil] at hnone
    constructor
    · rw [List.map_cons, List.nodup_cons]
      refine ⟨?_, hnodup⟩
      intro hmem
      obtain ⟨s', hs', heq⟩ := List.mem_map.mp hmem
      exact hnew s' hs' (heq ▸ List.mem_cons_self)
    · intro s' hs'
      rcases List.mem_cons.mp hs' with rfl | hs'
      · exact hown
      · exact fun hmem => hnew s' hs' (List.mem_cons_of_mem _ hmem)

theorem nodup_of_validateImport {file : ConfigExport} (h : validateImport vetting file = []) :
    (file.sources.map (·.reference)).Nodup := by
  unfold validateImport at h
  dsimp only at h
  split at h
  next hcapped => exact absurd h hcapped
  next => exact (nodup_of_validateSources (List.append_eq_nil_iff.mp h).1).1

theorem lookup_eq_some_iff_mem {m : List (Text × Text)} (h : DistinctKeys m) :
    m.lookup r = some id ↔ (r, id) ∈ m := by
  constructor
  · intro hlookup
    obtain ⟨l, l', rfl, -⟩ := List.lookup_eq_some_iff.mp hlookup
    exact List.mem_append_right _ List.mem_cons_self
  · exact lookup_of_mem h

theorem refToId_eq_some (h : (sources.map (·.reference)).Nodup) :
    refToId newId sources r = some id ↔
      ∃ i s, sources[i]? = some s ∧ s.reference = r ∧ newId i = id := by
  have hkeys : (sources.zipIdx.map fun s => (s.1.reference, newId s.2)).reverse.map Prod.fst =
      (sources.map (·.reference)).reverse := by
    rw [List.map_reverse, List.map_map]
    apply congrArg List.reverse
    have hfst : sources.zipIdx.map Prod.fst = sources := List.zipIdx_map_fst 0 sources
    conv_rhs => rw [← hfst, List.map_map]
    rfl
  have hdistinct : DistinctKeys
      (sources.zipIdx.map fun s => (s.1.reference, newId s.2)).reverse := by
    rw [DistinctKeys, hkeys]
    exact List.nodup_reverse.mpr h
  rw [refToId, lookup_eq_some_iff_mem hdistinct, List.mem_reverse, List.mem_map]
  constructor
  · rintro ⟨⟨s, i⟩, hs, heq⟩
    obtain ⟨hreference, hid⟩ := Prod.mk.inj heq
    exact ⟨i, s, List.mk_mem_zipIdx_iff_getElem?.mp hs, hreference, hid⟩
  · rintro ⟨i, s, hs, rfl, rfl⟩
    exact ⟨(s, i), List.mk_mem_zipIdx_iff_getElem?.mpr hs, rfl⟩

theorem refToId_injective (h : (sources.map (·.reference)).Nodup)
    (hids : Function.Injective newId) (r r' id : Text) (hr : refToId newId sources r = some id)
    (hr' : refToId newId sources r' = some id) : r = r' := by
  obtain ⟨i, s, hs, rfl, rfl⟩ := (refToId_eq_some h).mp hr
  obtain ⟨i', s', hs', rfl, hid⟩ := (refToId_eq_some h).mp hr'
  obtain rfl := hids hid
  rw [hs] at hs'
  rw [Option.some.inj hs']

theorem refToId_isSome (h : (sources.map (·.reference)).Nodup) :
    (refToId newId sources r).isSome = true ↔ r ∈ sources.map (·.reference) := by
  rw [Option.isSome_iff_exists, List.mem_map]
  constructor
  · rintro ⟨id, hid⟩
    obtain ⟨i, s, hs, rfl, -⟩ := (refToId_eq_some h).mp hid
    exact ⟨s, List.mem_of_getElem? hs, rfl⟩
  · rintro ⟨s, hs, rfl⟩
    obtain ⟨i, hi⟩ := List.getElem?_of_mem hs
    exact ⟨newId i, (refToId_eq_some h).mpr ⟨i, s, hi, rfl, rfl⟩⟩

end References

end ConfigImport
