import Fumox.MergedPipeline
import Fumox.SourceSave

/-!
Stored sources and their forms: what the two ways of admission leave in a row, and which rows are
saved unchanged by the form that shows them.
-/

namespace UneditedSources

open RustText JsonValue ProxyModels SubscriptionParser ConfigModels PipelineConfig ConfigImport
  ItemList PipelineEditor SourceForm HeaderSecrets SourceSave

structure SameHttp (a b : Panel) : Prop where
  name : a.headerName = b.headerName
  value : a.headerValue = b.headerValue

/-- The sources of a panel: saved by its form beside others, imported with a file that passes, or
left with their settings by anything else. -/
inductive Accepted (panel : Panel) : Source → Prop
  | form {by_ : Panel} {rows : List Source} {newId : Text} {now : ℤ} {form : Form}
      {existingId : Option Text} {source : Source} (hhttp : SameHttp by_ panel)
      (hrows : ∀ row ∈ rows, Accepted panel row)
      (hsaved : buildSourceFromForm by_ rows newId now form existingId = .ok source) :
      Accepted panel source
  | imported {by_ : Panel} {file : ConfigExport} {newId : ℕ → Text} {now : ℤ} {taken : List Text}
      {source : Source} (hhttp : SameHttp by_ panel)
      (hmaps : ∀ s ∈ file.sources, ∀ m, s.headers = some m → DistinctKeys m)
      (hvalid : validateImport by_.toVetting file = [])
      (hrow : source ∈ sourceRows newId now taken file) : Accepted panel source
  | kept {source kept : Source} (haccepted : Accepted panel source)
      (hsame : SameSettings kept source) : Accepted panel kept

section Form

variable {panel : Panel} {rows : List Source} {newId : Text} {now : ℤ} {form : Form}
  {existingId : Option Text} {source : Source}

theorem get_trimmed (form : Form) (key : Text) :
    trim (PipelineEditor.get form key) = PipelineEditor.get form key :=
  trim_trim _

theorem saved_iff : buildSourceFromForm panel rows newId now form existingId = .ok source ↔
    formIssues panel rows form existingId = [] ∧
      source = assembleSource panel rows newId now form existingId := by
  unfold buildSourceFromForm
  by_cases hissues : formIssues panel rows form existingId = []
  · rw [if_neg (not_not.mpr hissues)]
    constructor
    · intro h
      exact ⟨hissues, (Except.ok.inj h).symm⟩
    · rintro ⟨-, rfl⟩
      rfl
  · rw [if_pos hissues]
    exact iff_of_false (fun h => by cases h) fun h => hissues h.1

theorem sameSettings_assembled {other : Source} :
    SameSettings (assembleSource panel rows newId now form existingId) other ↔
      (readName form).1 = other.name ∧
        (validateSlug rows (PipelineEditor.get form "slug") existingId).1 = other.slug ∧
          (readUrl panel form (readIpFamily form).1).1 = other.url ∧
            (readEncoding form).1 = other.encoding ∧ (readInputFormat form).1 = other.inputFormat ∧
              (readProtocols form).1 = other.protocols ∧ (readTtl form).1 = other.cacheTtlSeconds ∧
                (readTags form).1 = other.tags ∧
      (if savedHeaders panel form (existingId.bind (sourceById rows)) = [] then none
        else some (savedHeaders panel form (existingId.bind (sourceById rows)))) = other.headers ∧
        (readIpFamily form).1 = other.ipFamily := by
  unfold assembleSource
  constructor
  · rintro ⟨hname, hslug, hurl, hencoding, hformat, hprotocols, httl, htags, hheaders, hfamily⟩
    exact ⟨hname, hslug, hurl, hencoding, hformat, hprotocols, httl, htags, hheaders, hfamily⟩
  · rintro ⟨hname, hslug, hurl, hencoding, hformat, hprotocols, httl, htags, hheaders, hfamily⟩
    exact ⟨hname, hslug, hurl, hencoding, hformat, hprotocols, httl, htags, hheaders, hfamily⟩

theorem formIssues_nil : formIssues panel rows form existingId = [] ↔
    (readName form).2 = [] ∧ (validateSlug rows (PipelineEditor.get form "slug") existingId).2 = [] ∧
      (readIpFamily form).2 = [] ∧ (readUrl panel form (readIpFamily form).1).2 = [] ∧
        (readEncoding form).2 = [] ∧ (readInputFormat form).2 = [] ∧ (readProtocols form).2 = [] ∧
          (readTtl form).2 = [] ∧ (readTags form).2 = [] ∧ (readHeaders panel form).2 = [] ∧
            (pipelineFromForm panel form).2 = [] := by
  simp only [formIssues, List.append_eq_nil_iff, and_assoc]

structure Collected (panel : Panel) (lines : List Text) (read : HeaderMap × List FieldIssue) :
    Prop where
  distinct : DistinctKeys read.1
  count : read.1.length ≤ lines.length
  legal : ∀ h ∈ read.1, Legal panel h

theorem length_insert_le (m : HeaderMap) (key value : Text) :
    (JsonValue.insert m key value).length ≤ m.length + 1 := by
  unfold JsonValue.insert
  split_ifs
  · rw [List.length_map]
    exact Nat.le_succ _
  · rw [List.length_append, List.length_singleton]

theorem collected_add {lines : List Text} {read : HeaderMap × List FieldIssue}
    (h : Collected panel lines read) (line : Text) :
    Collected panel (lines ++ [line]) (addHeaderLine panel read line) := by
  have hgrow : lines.length ≤ (lines ++ [line]).length := by simp
  unfold addHeaderLine
  cases hread : readHeaderLine panel line with
  | error issue => exact ⟨h.distinct, h.count.trans hgrow, h.legal⟩
  | ok header =>
    have hlegal : Legal panel header := by
      unfold readHeaderLine at hread
      cases hsplit : splitOnce ':' line with
      | none =>
        rw [hsplit] at hread
        cases hread
      | some parts =>
        rw [hsplit] at hread
        dsimp only at hread
        split_ifs at hread with hempty htaken
        obtain rfl := Except.ok.inj hread
        exact Bool.and_eq_true_iff.mp htaken
    refine ⟨h.distinct.insert, ?_, fun f hf => ?_⟩
    · have hcount := length_insert_le read.1 header.1 header.2
      have hlines := h.count
      rw [List.length_append, List.length_singleton]
      exact hcount.trans (Nat.succ_le_succ hlines)
    · rcases mem_of_mem_insert hf with hold | rfl
      · exact h.legal f hold
      · exact hlegal

theorem collected_lines (issues : List FieldIssue) (lines : List Text) :
    Collected panel lines (lines.foldl (addHeaderLine panel) ([], issues)) := by
  have hrun : ∀ rest done read, Collected panel done read →
      Collected panel (done ++ rest) (rest.foldl (addHeaderLine panel) read) := by
    intro rest
    induction rest with
    | nil =>
      intro done read h
      rwa [List.append_nil]
    | cons line rest ih =>
      intro done read h
      have hrest := ih _ _ (collected_add h line)
      rwa [List.append_assoc] at hrest
  exact hrun lines [] _ ⟨List.nodup_nil, Nat.le_refl _, fun h hh => absurd hh List.not_mem_nil⟩

theorem issues_foldl {lines : List Text} {read : HeaderMap × List FieldIssue}
    (h : (lines.foldl (addHeaderLine panel) read).2 = []) : read.2 = [] := by
  induction lines generalizing read with
  | nil => exact h
  | cons line lines ih =>
    have hstep := ih h
    unfold addHeaderLine at hstep
    cases hread : readHeaderLine panel line with
    | ok header =>
      rw [hread] at hstep
      exact hstep
    | error issue =>
      rw [hread] at hstep
      exact (List.append_eq_nil_iff.mp hstep).1

theorem headers_of_readHeaders (h : (readHeaders panel form).2 = []) :
    DistinctKeys (readHeaders panel form).1 ∧
      (readHeaders panel form).1.length ≤ Caps.headerLines ∧
        ∀ h ∈ (readHeaders panel form).1, Legal panel h := by
  have hcapped := issues_foldl h
  have hcollected : Collected panel (headerLines (PipelineEditor.get form "headers"))
      (readHeaders panel form) := collected_lines _ _
  refine ⟨hcollected.distinct, hcollected.count.trans ?_, hcollected.legal⟩
  by_contra hmany
  rw [List.append_eq_nil_iff, if_pos (by omega)] at hcapped
  exact absurd hcapped.1 (List.cons_ne_nil _ _)

end Form

section Admission

variable {panel by_ : Panel} {source : Source}

theorem admitted_of_same {kept : Source} (h : Admitted panel source)
    (hsame : SameSettings kept source) : Admitted panel kept where
  name := hsame.name ▸ h.name
  nameLength := hsame.name ▸ h.nameLength
  slug := hsame.slug ▸ h.slug
  url := hsame.url ▸ h.url
  urlLength := hsame.url ▸ h.urlLength
  ttl := hsame.cacheTtlSeconds ▸ h.ttl
  tags := hsame.tags ▸ h.tags
  headers := hsame.headers ▸ h.headers

theorem legal_of_same {h : Text × Text} (hhttp : SameHttp by_ panel) (hlegal : Legal by_ h) :
    Legal panel h :=
  ⟨hhttp.name ▸ hlegal.1, hhttp.value ▸ hlegal.2⟩

theorem restored_headers {typed stored : HeaderMap} (hdistinct : DistinctKeys typed)
    (htyped : ∀ h ∈ typed, Legal panel h) (hstored : ∀ h ∈ stored, panel.headerValue h.2 = true) :
    DistinctKeys (restoreMaskedHeaders typed stored) ∧
      (restoreMaskedHeaders typed stored).length = typed.length ∧
        ∀ h ∈ restoreMaskedHeaders typed stored, Legal panel h := by
  rw [restoreMaskedHeaders_eq]
  refine ⟨?_, List.length_map _, fun h hh => ?_⟩
  · rw [DistinctKeys, List.map_map]
    exact hdistinct
  · obtain ⟨f, hf, rfl⟩ := List.mem_map.mp hh
    refine ⟨(htyped f hf).1, ?_⟩
    have hvalue : panel.headerValue (((storedMasks stored).secrets.lookup f.2).getD f.2) = true := by
      rcases masked_spec stored f.2 with ⟨hnone, -⟩ | ⟨secret, hsome, honly⟩
      · rw [hnone]
        exact (htyped f hf).2
      · rw [hsome]
        obtain ⟨g, hg, rfl⟩ := List.mem_map.mp honly.stored
        exact hstored g hg
    unfold restoreValue
    dsimp only
    split
    next own hown =>
      split_ifs
      · obtain ⟨l, l', rfl, -⟩ := List.lookup_eq_some_iff.mp hown
        exact hstored (f.1, own) (List.mem_append_right _ List.mem_cons_self)
      · exact hvalue
    next => exact hvalue

theorem slug_of_validateSlug {rows : List Source} {raw s : Text} {existingId : Option Text}
    (h : (validateSlug rows raw existingId).2 = [])
    (hs : (validateSlug rows raw existingId).1 = some s) : slugFormat s = true := by
  unfold validateSlug at h hs
  split_ifs at h hs with hempty hformat
  obtain rfl := Option.some.inj hs
  simpa using hformat

theorem name_of_readName {form : Form} (h : (readName form).2 = []) :
    trim (readName form).1 ≠ [] ∧ (readName form).1.length ≤ 200 := by
  have hname : (readName form).1 = PipelineEditor.get form "name" := rfl
  rw [hname, get_trimmed]
  unfold readName at h
  dsimp only at h
  split_ifs at h with hempty hlong
  exact ⟨hempty, Nat.le_of_not_lt hlong⟩

theorem url_of_readUrl {form : Form} {family : Option IpFamily}
    (h : (readUrl panel form family).2 = []) :
    trim (readUrl panel form family).1 ≠ [] ∧
      byteLength (readUrl panel form family).1 ≤ Caps.url := by
  have hurl : (readUrl panel form family).1 = PipelineEditor.get form "url" := rfl
  rw [hurl, get_trimmed]
  unfold readUrl at h
  dsimp only at h
  split_ifs at h with hempty hlong
  exact ⟨hempty, Nat.le_of_not_lt hlong⟩

theorem ttl_of_readTtl (form : Form) : 60 ≤ (readTtl form).1 ∧ (readTtl form).1 ≤ 86400 := by
  unfold readTtl
  dsimp only
  cases parseI64 (PipelineEditor.get form "cache_ttl_seconds") with
  | none => decide
  | some ttl =>
    dsimp only
    split_ifs with hrange
    · exact hrange
    · decide

theorem tags_of_readTags {form : Form} {l : List Text} (h : (readTags form).2 = [])
    (hl : (readTags form).1 = some l) :
    l.length ≤ Caps.tags ∧ ∀ t ∈ l, byteLength t ≤ Caps.tagBytes := by
  unfold readTags at h hl
  dsimp only at h hl
  by_cases hempty : PipelineEditor.get form "tags" = []
  · rw [if_pos hempty] at hl
    cases hl
  · rw [if_neg hempty] at h hl
    obtain rfl := Option.some.inj hl
    obtain ⟨hmany, hlong⟩ := List.append_eq_nil_iff.mp h
    refine ⟨?_, fun t ht => ?_⟩
    · by_contra hcount
      rw [if_pos (Nat.lt_of_not_le hcount)] at hmany
      cases hmany
    · by_contra hbytes
      rw [if_pos (List.any_eq_true.mpr ⟨t, ht, decide_eq_true (Nat.lt_of_not_le hbytes)⟩)] at hlong
      cases hlong

theorem headers_of_saved {rows : List Source} {form : Form} {existingId : Option Text}
    (hhttp : SameHttp by_ panel) (hrows : ∀ row ∈ rows, Admitted panel row)
    (h : (readHeaders by_ form).2 = []) :
    DistinctKeys (savedHeaders by_ form (existingId.bind (sourceById rows))) ∧
      (savedHeaders by_ form (existingId.bind (sourceById rows))).length ≤ Caps.headerLines ∧
        ∀ h ∈ savedHeaders by_ form (existingId.bind (sourceById rows)), Legal panel h := by
  obtain ⟨hdistinct, hcount, hlegal⟩ := headers_of_readHeaders h
  have htyped : ∀ h ∈ (readHeaders by_ form).1, Legal panel h := fun h hh =>
    legal_of_same hhttp (hlegal h hh)
  unfold savedHeaders
  cases hstored : (existingId.bind (sourceById rows)).bind (·.headers) with
  | none => exact ⟨hdistinct, hcount, htyped⟩
  | some stored =>
    obtain ⟨row, hrow, hheaders⟩ := Option.bind_eq_some_iff.mp hstored
    obtain ⟨id, -, hfound⟩ := Option.bind_eq_some_iff.mp hrow
    have hadmitted := hrows row (List.mem_of_find?_eq_some hfound)
    obtain ⟨hkeys, hlength, hvalues⟩ := restored_headers hdistinct htyped fun h hh =>
      ((hadmitted.headers stored hheaders).2.2 h hh).2
    exact ⟨hkeys, hlength.trans_le hcount, hvalues⟩

theorem admitted_of_saved {rows : List Source} {newId : Text} {now : ℤ} {form : Form}
    {existingId : Option Text} (hhttp : SameHttp by_ panel)
    (hrows : ∀ row ∈ rows, Admitted panel row)
    (hsaved : buildSourceFromForm by_ rows newId now form existingId = .ok source) :
    Admitted panel source := by
  obtain ⟨hissues, rfl⟩ := saved_iff.mp hsaved
  obtain ⟨hname, hslug, -, hurl, -, -, -, -, htags, hheaders, -⟩ := formIssues_nil.mp hissues
  refine ⟨(name_of_readName hname).1, (name_of_readName hname).2,
    fun s hs => slug_of_validateSlug hslug hs, (url_of_readUrl hurl).1, (url_of_readUrl hurl).2,
    ttl_of_readTtl form, fun l hl => tags_of_readTags htags hl, fun m hm => ?_⟩
  unfold assembleSource at hm
  dsimp only at hm
  split_ifs at hm
  obtain rfl := Option.some.inj hm
  exact headers_of_saved hhttp hrows hheaders

theorem issues_of_validateSources {vetting : Vetting} {sources : List ExportSource}
    {seenRefs : List Text} {budget : ℕ} (h : validateSources vetting seenRefs budget sources = []) :
    ∀ s ∈ sources, ∃ seen left, (sourceIssues vetting seen left s).1 = [] := by
  induction sources generalizing seenRefs budget with
  | nil => exact fun s hs => absurd hs List.not_mem_nil
  | cons first rest ih =>
    obtain ⟨hissues, hrest⟩ := List.append_eq_nil_iff.mp h
    intro s hs
    rcases List.mem_cons.mp hs with rfl | hs
    · exact ⟨seenRefs, budget, List.map_eq_nil_iff.mp hissues⟩
    · exact ih hrest s hs

theorem admitted_of_imported {file : ConfigExport} {newId : ℕ → Text} {now : ℤ} {taken : List Text}
    (hhttp : SameHttp by_ panel)
    (hmaps : ∀ s ∈ file.sources, ∀ m, s.headers = some m → DistinctKeys m)
    (hvalid : validateImport by_.toVetting file = [])
    (hrow : source ∈ sourceRows newId now taken file) : Admitted panel source := by
  obtain ⟨⟨⟨s, claim⟩, i⟩, hplace, rfl⟩ := List.mem_map.mp hrow
  obtain ⟨hs, hclaim⟩ := List.getElem?_zip_eq_some.mp (List.mem_zipIdx_iff_getElem?.mp hplace)
  have hfile := List.mem_of_getElem? hs
  have hvalidated : validateSources by_.toVetting [] Caps.importDnsVet file.sources = [] := by
    unfold validateImport at hvalid
    dsimp only at hvalid
    split at hvalid
    next hcapped => exact absurd hvalid hcapped
    next => exact (List.append_eq_nil_iff.mp hvalid).1
  obtain ⟨seen, left, hissues⟩ := issues_of_validateSources hvalidated s hfile
  simp only [sourceIssues, List.append_eq_nil_iff] at hissues
  obtain ⟨⟨⟨⟨⟨⟨⟨-, hname⟩, hurl⟩, hslug⟩, httl⟩, htags⟩, hheaders⟩, -⟩ := hissues
  have hlisted : (file.sources.map fun s => (s.slug, s.name))[i]? = some (s.slug, s.name) := by
    rw [List.getElem?_map, hs]
    rfl
  have hkept := claimSlugs_kept hclaim hlisted
  have hnamed : trim s.name ≠ [] ∧ s.name.length ≤ 200 := by
    unfold nameIssues at hname
    split_ifs at hname with hblank hlong
    exact ⟨hblank, Nat.le_of_not_lt hlong⟩
  have hplaced : trim s.url ≠ [] ∧ byteLength s.url ≤ Caps.url := by
    unfold urlIssues at hurl
    by_cases hblank : trim s.url = []
    · rw [if_pos hblank] at hurl
      cases hurl
    · refine ⟨hblank, Nat.le_of_not_lt fun hlong => ?_⟩
      rw [if_neg hblank, if_pos hlong] at hurl
      cases hurl
  refine ⟨hnamed.1, hnamed.2, fun t ht => ?_, hplaced.1, hplaced.2, ?_, fun l hl => ?_,
    fun m hm => ?_⟩
  · obtain ⟨hown, hne, -⟩ := (hkept t).mp ht
    unfold slugIssues at hslug
    split_ifs at hslug with hformat
    rw [hown] at hformat
    simpa [hne] using hformat
  · unfold ttlIssues at httl
    split_ifs at httl with hrange
    exact hrange
  · have hown : s.tags = some l := hl
    unfold tagIssues at htags
    split_ifs at htags with hcaps
    rw [hown] at hcaps
    simp only [Option.any_some, Bool.or_eq_true, decide_eq_true_eq, List.any_eq_true, not_or,
      not_exists, not_and] at hcaps
    exact ⟨Nat.le_of_not_lt hcaps.1, fun t ht => Nat.le_of_not_lt (hcaps.2 t ht)⟩
  · have hown : s.headers = some m := hm
    rw [hown] at hheaders
    simp only [headerIssues, List.append_eq_nil_iff, List.flatMap_eq_nil_iff] at hheaders
    obtain ⟨⟨hmany, -⟩, hlegal⟩ := hheaders
    refine ⟨hmaps s hfile m hown, ?_, fun h hh => legal_of_same hhttp ?_⟩
    · by_contra hcount
      rw [if_pos (Nat.lt_of_not_le hcount)] at hmany
      cases hmany
    · have htaken := hlegal h hh
      split_ifs at htaken with hboth
      exact Bool.and_eq_true_iff.mp hboth

/-- Every accepted source is in the ranges that the form checks, except for the size of its
headers. -/
theorem admitted_of_accepted (h : Accepted panel source) : Admitted panel source := by
  induction h with
  | form hhttp hrows hsaved ih => exact admitted_of_saved hhttp ih hsaved
  | imported hhttp hmaps hvalid hrow => exact admitted_of_imported hhttp hmaps hvalid hrow
  | kept haccepted hsame ih => exact admitted_of_same ih hsame

end Admission

section Unedited

variable {panel : Panel} {rows : List Source} {source : Source} {widget : Form}

/-- What a row needs to come back from its own form. -/
structure KeptByForm (panel : Panel) (source : Source) : Prop where
  name : trim source.name = source.name
  url : trim source.url = source.url
  vetted : vetUrl panel.toVetting source.url panel.allowPrivateUrls
    (source.ipFamily.getD panel.defaultFamily) = none
  protocols : ∀ l, source.protocols = some l →
    l ≠ [] ∧ (Scheme.all.filter fun scheme => scheme ∈ l) = l
  tags : ∀ l, source.tags = some l → l ≠ [] ∧ ∀ t ∈ l, IsItem ',' t
  headers : ∀ m, source.headers = some m →
    m ≠ [] ∧ shownBytes m ≤ Caps.headerBytes ∧ ∀ h ∈ m, PlainStart h.2

theorem protocols_iff {protocols : Option (List Scheme)} :
    (if (Scheme.all.filter fun scheme => scheme ∈ protocols.getD []) = [] then none
      else some (Scheme.all.filter fun scheme => scheme ∈ protocols.getD [])) = protocols ↔
        ∀ l, protocols = some l →
          l ≠ [] ∧ (Scheme.all.filter fun scheme => scheme ∈ l) = l := by
  cases protocols with
  | none => exact iff_of_true rfl fun l hl => by cases hl
  | some l =>
    rw [Option.getD_some]
    constructor
    · intro h l' hl'
      obtain rfl := Option.some.inj hl'
      split_ifs at h with hnone
      have hsame := Option.some.inj h
      exact ⟨fun hl => hnone (hsame.trans hl), hsame⟩
    · intro h
      obtain ⟨hne, hsame⟩ := h l rfl
      rw [hsame, if_neg hne]

theorem sourceById_own (hrows : UniqueRows rows) (hmem : source ∈ rows) :
    sourceById rows source.id = some source := by
  unfold sourceById
  cases hfind : rows.find? fun s => decide (s.id = source.id) with
  | none =>
    have hnone := List.find?_eq_none.mp hfind source hmem
    exact absurd (decide_eq_true rfl) hnone
  | some found =>
    have hid : found.id = source.id := by simpa using List.find?_some hfind
    rw [hrows.ids found (List.mem_of_find?_eq_some hfind) source hmem hid]

theorem savedHeaders_unedited (hhttp : HttpText panel) (hadmitted : Admitted panel source)
    (hwidget : Elsewhere widget) :
    savedHeaders panel (unedited source widget) (some source) =
      (source.headers.map fun m => restoreMaskedHeaders (m.map shownHeader) m).getD [] := by
  have hread := congrArg Prod.fst (readHeaders_unedited hhttp hadmitted hwidget)
  unfold savedHeaders
  rw [hread, Option.bind_some]
  cases source.headers <;> rfl

theorem headers_iff (hadmitted : Admitted panel source) :
    (if (source.headers.map fun m => restoreMaskedHeaders (m.map shownHeader) m).getD [] = [] then
        none
      else some ((source.headers.map fun m =>
        restoreMaskedHeaders (m.map shownHeader) m).getD [])) = source.headers ↔
    ∀ m, source.headers = some m → m ≠ [] ∧ ∀ h ∈ m, PlainStart h.2 := by
  cases hheaders : source.headers with
  | none => exact iff_of_true rfl fun m hm => by cases hm
  | some m =>
    have hdistinct := (hadmitted.headers m hheaders).1
    have hempty : restoreMaskedHeaders (m.map shownHeader) m = [] ↔ m = [] := by
      rw [restoreMaskedHeaders_eq, List.map_eq_nil_iff, List.map_eq_nil_iff]
    rw [Option.map_some, Option.getD_some]
    constructor
    · intro h m' hm'
      obtain rfl := Option.some.inj hm'
      split_ifs at h with hnone
      exact ⟨fun hm => hnone (hempty.mpr hm), (restored_shown hdistinct).mp (Option.some.inj h)⟩
    · intro h
      obtain ⟨hne, hplain⟩ := h m rfl
      rw [if_neg fun hnone => hne (hempty.mp hnone), (restored_shown hdistinct).mpr hplain]

/-- A row is saved as it is exactly when its texts survive the form and the rest of the form is in
order. -/
theorem unedited_saved (hhttp : HttpText panel) (hadmitted : Admitted panel source)
    (hrows : UniqueRows rows) (hmem : source ∈ rows) (hwidget : Elsewhere widget) (newId : Text)
    (now : ℤ) :
    (∃ saved, buildSourceFromForm panel rows newId now (unedited source widget)
        (some source.id) = .ok saved ∧ SameSettings saved source) ↔
      KeptByForm panel source ∧ (pipelineFromForm panel (unedited source widget)).2 = [] := by
  have hname := readName_unedited hadmitted hwidget
  have hslug := validateSlug_unedited hadmitted hwidget hrows hmem
  have hfamily : readIpFamily (unedited source widget) = (source.ipFamily, []) :=
    readIpFamily_unedited hwidget
  have hurl := readUrl_unedited hadmitted hwidget source.ipFamily
  have hencoding : readEncoding (unedited source widget) = (source.encoding, []) :=
    readEncoding_unedited hwidget
  have hformat : readInputFormat (unedited source widget) = (source.inputFormat, []) :=
    readInputFormat_unedited hwidget
  have hprotocols : readProtocols (unedited source widget) =
      (if (Scheme.all.filter fun scheme => scheme ∈ source.protocols.getD []) = [] then none
        else some (Scheme.all.filter fun scheme => scheme ∈ source.protocols.getD []), []) :=
    readProtocols_unedited hwidget
  have httl := readTtl_unedited hadmitted hwidget
  have htags := readTags_unedited hadmitted hwidget
  have hheaders := readHeaders_unedited hhttp hadmitted hwidget
  have hsaved := savedHeaders_unedited hhttp hadmitted hwidget
  have hmap := headers_iff hadmitted
  have hexisting : (some source.id).bind (sourceById rows) = some source :=
    sourceById_own hrows hmem
  constructor
  · rintro ⟨saved, hbuilt, hsame⟩
    obtain ⟨hissues, rfl⟩ := saved_iff.mp hbuilt
    obtain ⟨-, -, -, hvetted, -, -, -, -, htagged, hsized, hpipeline⟩ := formIssues_nil.mp hissues
    rw [sameSettings_assembled, hname, hslug, hfamily, hurl, hencoding, hformat, hprotocols, httl,
      hexisting, hsaved] at hsame
    obtain ⟨hkeptName, -, hkeptUrl, -, -, hkeptProtocols, -, hkeptTags, hkeptHeaders, -⟩ := hsame
    dsimp only at hkeptUrl
    rw [hfamily, hurl, List.map_eq_nil_iff, hkeptUrl] at hvetted
    rw [hheaders] at hsized
    refine ⟨⟨hkeptName, hkeptUrl, Option.toList_eq_nil_iff.mp hvetted,
      protocols_iff.mp hkeptProtocols, htags.mp (Prod.ext hkeptTags htagged), fun m hm => ?_⟩,
      hpipeline⟩
    obtain ⟨hne, hplain⟩ := hmap.mp hkeptHeaders m hm
    refine ⟨hne, ?_, hplain⟩
    by_contra hbytes
    rw [hm, Option.getD_some] at hsized
    dsimp only at hsized
    rw [if_pos (Nat.lt_of_not_le hbytes)] at hsized
    cases hsized
  · rintro ⟨hkept, hpipeline⟩
    have htagged := htags.mpr hkept.tags
    have hsized : shownBytes (source.headers.getD []) ≤ Caps.headerBytes := by
      cases hm : source.headers with
      | none => exact Nat.zero_le _
      | some m => exact (hkept.headers m hm).2.1
    have hkeptHeaders := hmap.mpr fun m hm =>
      ⟨(hkept.headers m hm).1, (hkept.headers m hm).2.2⟩
    have hissues : formIssues panel rows (unedited source widget) (some source.id) = [] := by
      rw [formIssues_nil, hname, hslug, hfamily, hurl, hencoding, hformat, hprotocols, httl, htagged,
        hheaders, hkept.url, hkept.vetted, if_neg (Nat.not_lt_of_le hsized)]
      exact ⟨rfl, rfl, rfl, rfl, rfl, rfl, rfl, rfl, rfl, rfl, hpipeline⟩
    refine ⟨_, saved_iff.mpr ⟨hissues, rfl⟩, ?_⟩
    rw [sameSettings_assembled, hname, hslug, hfamily, hurl, hencoding, hformat, hprotocols, httl,
      htagged, hexisting, hsaved]
    exact ⟨hkept.name, rfl, hkept.url, rfl, rfl, protocols_iff.mpr hkept.protocols, rfl, rfl,
      hkeptHeaders, rfl⟩

/-- An accepted source comes back unchanged exactly when the form can hold it, and its edited headers
follow their stored names exactly when no mask of another secret is typed under one. -/
theorem unedited_form_iff (hhttp : HttpText panel) (haccepted : Accepted panel source)
    (hrows : UniqueRows rows) (hmem : source ∈ rows) (hwidget : Elsewhere widget) (newId : Text)
    (now : ℤ) :
    ((∃ saved, buildSourceFromForm panel rows newId now (unedited source widget)
        (some source.id) = .ok saved ∧ SameSettings saved source) ↔
      KeptByForm panel source ∧ (pipelineFromForm panel (unedited source widget)).2 = []) ∧
      ∀ edited, RestoresOwn (source.headers.getD []) edited ↔
        NoForeignMask (source.headers.getD []) edited :=
  ⟨unedited_saved hhttp (admitted_of_accepted haccepted) hrows hmem hwidget newId now,
    fun _ => restoresOwn_iff⟩

end Unedited

section Sample

def samplePanel : Panel where
  engines := MergedPipeline.noRules
  parseUrl := fun _ => .ok ("https", some "example.com")
  vetHost := fun _ _ => none
  headerName := fun t =>
    decide (t ≠ []) && t.all fun c => 0x21 ≤ c.toNat && c.toNat ≤ 0x7E && c != ':'
  headerValue := fun t => (bytes t).all isFieldByte
  print := fun _ => []
  allowPrivateUrls := false
  defaultFamily := .any
  parseJson := fun _ => .error []

theorem samplePanel_http : HttpText samplePanel where
  name := by
    intro t ht
    obtain ⟨hne, hchars⟩ := Bool.and_eq_true_iff.mp ht
    refine ⟨of_decide_eq_true hne, fun c hc => ?_⟩
    have hchar := List.all_eq_true.mp hchars c hc
    simpa [and_assoc] using hchar
  value := fun _ => rfl

def twoSecrets : HeaderMap := [("X-First", "first-secret"), ("X-Second", "second-secret")]

def sampleForm : Form :=
  [("name", "feed"), ("url", "https://example.com/feed"), ("cache_ttl_seconds", "3600"),
    ("headers", "X-First: first-secret\nX-Second: second-secret")]

def sampleSource : Source where
  id := "a"
  name := "feed"
  url := "https://example.com/feed"
  enabled := false
  cacheTtlSeconds := 3600
  headers := some twoSecrets
  createdAt := 7
  updatedAt := 7

theorem sampleForm_clean : formIssues samplePanel [] sampleForm none = [] := by
  decide +kernel

theorem sampleSource_accepted : Accepted samplePanel sampleSource := by
  have hsaved : buildSourceFromForm samplePanel [] "a" 7 sampleForm none =
      .ok (assembleSource samplePanel [] "a" 7 sampleForm none) :=
    saved_iff.mpr ⟨sampleForm_clean, rfl⟩
  have hown : Accepted samplePanel (assembleSource samplePanel [] "a" 7 sampleForm none) :=
    .form ⟨rfl, rfl⟩ (fun _ hrow => absurd hrow List.not_mem_nil) hsaved
  have hheaders : savedHeaders samplePanel sampleForm none = twoSecrets := by
    decide +kernel
  refine .kept hown ⟨?_, ?_, ?_, ?_, ?_, ?_, ?_, ?_, ?_, ?_⟩
  · decide +kernel
  · decide +kernel
  · decide +kernel
  · decide +kernel
  · decide +kernel
  · decide +kernel
  · decide +kernel
  · decide +kernel
  · have hassembled : (assembleSource samplePanel [] "a" 7 sampleForm none).headers =
        if savedHeaders samplePanel sampleForm none = [] then none
        else some (savedHeaders samplePanel sampleForm none) := by
      rw [assembleSource, Option.bind_none]
    have hsample : sampleSource.headers = some twoSecrets := rfl
    have hne : twoSecrets ≠ [] := List.cons_ne_nil _ _
    rw [hassembled, hheaders, if_neg hne, hsample]
  · decide +kernel

theorem sampleRows_unique : UniqueRows [sampleSource] where
  ids := by
    intro a ha b hb _
    rw [List.mem_singleton.mp ha, List.mem_singleton.mp hb]
  slugs := by
    intro a ha b hb _ _ _
    rw [List.mem_singleton.mp ha, List.mem_singleton.mp hb]

/-- Its form, posted as it is shown, saves it again. -/
theorem sample_saved_unedited :
    ∃ saved, buildSourceFromForm samplePanel [sampleSource] "b" 9 (unedited sampleSource [])
      (some "a".toList) = .ok saved ∧ SameSettings saved sampleSource := by
  have hwidget : Elsewhere [] := fun f hf => absurd hf List.not_mem_nil
  have hiff := unedited_form_iff samplePanel_http sampleSource_accepted sampleRows_unique
    (List.mem_singleton.mpr rfl) hwidget "b" 9
  have hheaders : ∀ m, sampleSource.headers = some m →
      m ≠ [] ∧ shownBytes m ≤ Caps.headerBytes ∧ ∀ h ∈ m, PlainStart h.2 := by
    intro m hm
    obtain rfl : twoSecrets = m := Option.some.inj hm
    refine ⟨List.cons_ne_nil _ _, by decide +kernel, fun h hh _ c hc => ?_⟩
    rcases List.mem_pair.mp hh with rfl | rfl
    · obtain rfl := Option.some.inj hc
      decide
    · obtain rfl := Option.some.inj hc
      decide
  refine hiff.1.mpr ⟨⟨by decide +kernel, by decide +kernel, by decide +kernel, ?_, ?_, hheaders⟩,
    by decide +kernel⟩
  · intro l hl
    cases hl
  · intro l hl
    cases hl

/-- The mask of the second secret, typed under the name of the first. -/
def swappedMask : HeaderMap := [("X-First", "sec…••••")]

/-- It sends the second secret under the name of the first. -/
theorem mask_under_another_name :
    ¬∀ (panel : Panel) (rows : List Source) (source : Source), HttpText panel →
      Accepted panel source → UniqueRows rows → source ∈ rows →
        ∀ edited, RestoresOwn (source.headers.getD []) edited := by
  intro h
  have hrestores := h samplePanel [sampleSource] sampleSource samplePanel_http
    sampleSource_accepted sampleRows_unique (List.mem_singleton.mpr rfl) swappedMask
  obtain ⟨value, hvalue, hrule⟩ := hrestores "X-First" "sec…••••" (by decide +kernel)
  have hsecond : (restoreMaskedHeaders swappedMask twoSecrets).lookup "X-First".toList =
      some "second-secret".toList := by
    decide +kernel
  have hstored : twoSecrets.lookup "X-First".toList = some "first-secret".toList := by
    decide +kernel
  have hheaders : sampleSource.headers.getD [] = twoSecrets := rfl
  rw [hheaders, hsecond] at hvalue
  rw [hheaders, hstored] at hrule
  have hmask : ¬"sec…••••".toList = maskSecret "first-secret" := by decide +kernel
  have hsent : ¬"second-secret".toList = "sec…••••".toList := by decide +kernel
  dsimp only at hrule
  rw [if_neg hmask, ← Option.some.inj hvalue] at hrule
  exact hsent hrule

end Sample

end UneditedSources
