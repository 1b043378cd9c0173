import Fumox.HeaderSecrets

/-!
Saving the form of a source as its edit page shows it: what each field is read back as, and which
sources come back unchanged.
-/

namespace SourceSave

open RustText JsonValue ProxyModels SubscriptionParser ConfigModels PipelineConfig ConfigImport
  ItemList PipelineEditor PayloadGuards SourceForm HeaderSecrets

section Posted

variable {values : SourceFormValues} {widget : Form}

def sourceFields : List Text :=
  ["name", "slug", "url", "enabled", "encoding", "input_format", "ip_family", "protocols",
    "cache_ttl_seconds", "tags", "headers"]

/-- Fields of the rest of the page. -/
def Elsewhere (widget : Form) : Prop := ∀ f ∈ widget, f.1 ∉ sourceFields

def singleFields (values : SourceFormValues) : Form :=
  [("name", values.name), ("slug", values.slug), ("url", values.url),
    ("encoding", values.encoding), ("input_format", values.inputFormat),
    ("ip_family", values.ipFamily), ("cache_ttl_seconds", values.cacheTtlSeconds),
    ("tags", values.tags), ("headers", values.headers)]

def tickedBoxes (values : SourceFormValues) : Form :=
  ((allProtocolsWithSelection values.protocols).filter Prod.snd).map
    fun p => ("protocols".toList, p.1)

theorem filter_boxes {key : Text} (h : key ≠ "protocols") :
    (tickedBoxes values).filter (fun f => f.1 == key) = [] := by
  refine List.filter_eq_nil_iff.mpr fun f hf => ?_
  obtain ⟨p, -, rfl⟩ := List.mem_map.mp hf
  exact fun heq => h (eq_of_beq heq).symm

theorem filter_fields {key : Text} (hprotocols : key ≠ "protocols") (henabled : key ≠ "enabled") :
    values.fields.filter (fun f => f.1 == key) =
      (singleFields values).filter fun f => f.1 == key := by
  have hbox : (tickedBoxes values).filter (fun f => f.1 == key) = [] := filter_boxes hprotocols
  have hswitch : ((if values.enabled then [("enabled", "1")] else [] : Form)).filter
      (fun f => f.1 == key) = [] := by
    split_ifs
    · exact List.filter_cons_of_neg fun heq => henabled (eq_of_beq heq).symm
    · rfl
  unfold SourceFormValues.fields
  rw [tickedBoxes] at hbox
  simp only [List.filter_append, hbox, hswitch, List.append_nil]
  rw [← List.filter_append, ← List.filter_append]
  rfl

theorem filter_widget {key : Text} (h : Elsewhere widget) (hkey : key ∈ sourceFields) :
    widget.filter (fun f => f.1 == key) = [] := by
  refine List.filter_eq_nil_iff.mpr fun f hf heq => ?_
  exact h f hf (eq_of_beq heq ▸ hkey)

theorem lookup_eq_head {form : Form} {key : Text} :
    form.lookup key = (form.filter fun f => f.1 == key).head?.map Prod.snd := by
  induction form with
  | nil => rfl
  | cons f form ih =>
    rw [List.lookup_cons]
    by_cases hkey : f.1 = key
    · have hkept : (f :: form).filter (fun g => g.1 == key) =
          f :: form.filter fun g => g.1 == key := List.filter_cons_of_pos (beq_iff_eq.mpr hkey)
      rw [hkept, beq_iff_eq.mpr hkey.symm]
      rfl
    · have hdropped : (f :: form).filter (fun g => g.1 == key) =
          form.filter fun g => g.1 == key :=
        List.filter_cons_of_neg fun heq => hkey (eq_of_beq heq)
      rw [hdropped, beq_eq_false_iff_ne.mpr fun heq => hkey heq.symm]
      exact ih

theorem lookup_of_filter {form : Form} {key value : Text}
    (h : form.filter (fun f => f.1 == key) = [(key, value)]) :
    form.reverse.lookup key = some value := by
  rw [lookup_eq_head, List.filter_reverse, h]
  rfl

theorem get_posted {key value : Text} (h : Elsewhere widget) (hkey : key ∈ sourceFields)
    (hprotocols : key ≠ "protocols") (henabled : key ≠ "enabled")
    (hsingle : (singleFields values).filter (fun f => f.1 == key) = [(key, value)]) :
    get (values.fields ++ widget) key = trim value := by
  have hall : (values.fields ++ widget).filter (fun f => f.1 == key) = [(key, value)] := by
    rw [List.filter_append, filter_fields hprotocols henabled, filter_widget h hkey, hsingle]
    rfl
  unfold PipelineEditor.get
  rw [lookup_of_filter hall]
  rfl

theorem getAll_posted (h : Elsewhere widget) :
    getAll (values.fields ++ widget) "protocols" =
      (Scheme.all.filter fun scheme => scheme.asStr ∈ values.protocols).map Scheme.asStr := by
  have hswitch : ((if values.enabled then [("enabled", "1")] else [] : Form)).filter
      (fun f => f.1 == "protocols".toList) = [] := by
    split_ifs <;> rfl
  have hboxes : (tickedBoxes values).filter (fun f => f.1 == "protocols".toList) =
      tickedBoxes values := by
    refine List.filter_eq_self.mpr fun f hf => ?_
    obtain ⟨p, -, rfl⟩ := List.mem_map.mp hf
    exact beq_self_eq_true _
  have hfields : values.fields.filter (fun f => f.1 == "protocols".toList) =
      tickedBoxes values := by
    have hbox := hboxes
    rw [tickedBoxes] at hbox
    unfold SourceFormValues.fields
    simp only [List.filter_append, hbox, hswitch, List.append_nil]
    exact List.append_nil (tickedBoxes values)
  have hnames : (tickedBoxes values).map (fun f => trim f.2) =
      (Scheme.all.filter fun scheme => scheme.asStr ∈ values.protocols).map Scheme.asStr := by
    have htrim : ∀ scheme : Scheme, trim scheme.asStr = scheme.asStr := by
      intro scheme
      cases scheme <;> decide
    simp only [tickedBoxes, allProtocolsWithSelection, List.filter_map, List.map_map]
    exact List.map_congr_left fun scheme _ => htrim scheme
  unfold getAll
  rw [List.filter_append, hfields, filter_widget h (by decide), List.append_nil, hnames]
  refine List.filter_eq_self.mpr fun name hname => ?_
  obtain ⟨scheme, -, rfl⟩ := List.mem_map.mp hname
  cases scheme <;> decide

end Posted

section Text

theorem trim_trimEnd (t : Text) : trim (trimEnd t) = trim t := by
  induction t using List.reverseRecOn with
  | nil => rfl
  | append_singleton t c ih =>
    by_cases hc : isWhitespace c = true
    · rw [trim_concat_white hc, trimEnd, List.rdropWhile_concat_pos _ _ _ hc]
      exact ih
    · rw [trimEnd, List.rdropWhile_concat_neg _ _ _ hc]

theorem trim_stripCarriageReturn (line : Text) : trim (stripCarriageReturn line) = trim line := by
  unfold stripCarriageReturn
  split_ifs with hlast
  · have hline : line = line.dropLast ++ ['\r'] := (List.dropLast_append_getLast? _ hlast).symm
    conv_rhs => rw [hline]
    exact (trim_concat_white (by decide) _).symm
  · rfl

theorem headerLines_eq (t : Text) : headerLines t = splitItems '\n' t := by
  have hne := List.splitOn_ne_nil '\n' t
  have hpieces := List.dropLast_append_getLast hne
  have hlast : (t.splitOn '\n').getLast? = some ((t.splitOn '\n').getLast hne) :=
    List.getLast?_eq_some_getLast hne
  have hterminated : ∀ pieces : List Text, (pieces.map stripCarriageReturn).map trim =
      pieces.map trim := fun pieces => by
    rw [List.map_map]
    exact List.map_congr_left fun line _ => trim_stripCarriageReturn line
  rw [headerLines, lines, hlast, splitItems]
  conv_rhs => rw [← hpieces]
  rw [List.map_append, List.map_append, List.filter_append, List.filter_append, hterminated]
  cases (t.splitOn '\n').getLast hne <;> rfl

end Text

section Accepted

def isFieldByte (b : UInt8) : Bool :=
  b == 9 || (32 ≤ b && b != 127)

/-- What the HTTP library takes as a name and as a value of a header. -/
structure HttpText (panel : Panel) : Prop where
  name : ∀ t, panel.headerName t = true →
    t ≠ [] ∧ ∀ c ∈ t, 0x21 ≤ c.toNat ∧ c.toNat ≤ 0x7E ∧ c ≠ ':'
  value : ∀ t, panel.headerValue t = (bytes t).all isFieldByte

/-- What both forms of admission leave in a row. -/
structure Admitted (panel : Panel) (source : Source) : Prop where
  name : trim source.name ≠ []
  nameLength : source.name.length ≤ 200
  slug : ∀ s, source.slug = some s → slugFormat s = true
  url : trim source.url ≠ []
  urlLength : byteLength source.url ≤ Caps.url
  ttl : 60 ≤ source.cacheTtlSeconds ∧ source.cacheTtlSeconds ≤ 86400
  tags : ∀ l, source.tags = some l →
    l.length ≤ Caps.tags ∧ ∀ t ∈ l, byteLength t ≤ Caps.tagBytes
  headers : ∀ m, source.headers = some m → DistinctKeys m ∧ m.length ≤ Caps.headerLines ∧
    ∀ h ∈ m, panel.headerName h.1 = true ∧ panel.headerValue h.2 = true

/-- Two rows have the settings of the form in common. -/
structure SameSettings (a b : Source) : Prop where
  name : a.name = b.name
  slug : a.slug = b.slug
  url : a.url = b.url
  encoding : a.encoding = b.encoding
  inputFormat : a.inputFormat = b.inputFormat
  protocols : a.protocols = b.protocols
  cacheTtlSeconds : a.cacheTtlSeconds = b.cacheTtlSeconds
  tags : a.tags = b.tags
  headers : a.headers = b.headers
  ipFamily : a.ipFamily = b.ipFamily

structure UniqueRows (rows : List Source) : Prop where
  ids : ∀ a ∈ rows, ∀ b ∈ rows, a.id = b.id → a = b
  slugs : ∀ a ∈ rows, ∀ b ∈ rows, ∀ s, a.slug = some s → b.slug = some s → a = b

end Accepted

section Fields

variable {panel : Panel} {rows : List Source} {source : Source} {widget : Form}

/-- The edit page of a source, submitted as it is. -/
def unedited (source : Source) (widget : Form) : Form :=
  (sourceEditForm source).fields ++ widget

theorem readName_unedited (hadmitted : Admitted panel source) (hwidget : Elsewhere widget) :
    readName (unedited source widget) = (trim source.name, []) := by
  have hget : PipelineEditor.get (unedited source widget) "name" = trim source.name :=
    get_posted hwidget (by decide) (by decide) (by decide) rfl
  have hlength := (length_trim_le source.name).trans hadmitted.nameLength
  rw [readName, hget, if_neg hadmitted.name, if_neg (by omega)]

theorem slug_visible {s : Text} (h : slugFormat s = true) : s ≠ [] ∧ trim s = s := by
  cases s with
  | nil => exact absurd h (by decide)
  | cons c t =>
    have hwhite : ∀ d, (d.isAlphanum = true ∨ d = '_' ∨ d = '-') → isWhitespace d = false := by
      intro d hd
      apply visible_not_white
      rcases hd with hd | rfl | rfl
      · simp only [Char.isAlphanum, Char.isAlpha, Char.isUpper, Char.isLower, Char.isDigit,
          Bool.or_eq_true, Bool.and_eq_true, decide_eq_true_eq, ge_iff_le,
          UInt32.le_iff_toNat_le] at hd
        have hval : d.val.toNat = d.toNat := rfl
        simp at hd
        omega
      · decide
      · decide
    simp only [slugFormat, Bool.and_eq_true, List.all_eq_true, Bool.or_eq_true,
      decide_eq_true_eq] at h
    obtain ⟨⟨⟨hfirst, hrest⟩, -⟩, -⟩ := h
    have hall : ∀ d ∈ c :: t, isWhitespace d = false := by
      intro d hd
      rcases List.mem_cons.mp hd with rfl | hd
      · exact hwhite d (.inl hfirst)
      · exact hwhite d (by simpa [or_assoc] using hrest d hd)
    exact ⟨List.cons_ne_nil c t, trim_eq_self ⟨fun d hd => hall d (List.mem_of_mem_head? hd),
      fun d hd => hall d (List.mem_of_getLast? hd)⟩⟩

theorem validateSlug_unedited (hadmitted : Admitted panel source) (hwidget : Elsewhere widget)
    (hrows : UniqueRows rows) (hmem : source ∈ rows) :
    validateSlug rows (PipelineEditor.get (unedited source widget) "slug") (some source.id) =
      (source.slug, []) := by
  have hget : PipelineEditor.get (unedited source widget) "slug" = trim (source.slug.getD []) :=
    get_posted hwidget (by decide) (by decide) (by decide) rfl
  rw [hget]
  cases hslug : source.slug with
  | none => rfl
  | some s =>
    have hformat := hadmitted.slug s hslug
    obtain ⟨hne, htrim⟩ := slug_visible hformat
    have hown : (sourceBySlug rows s).any (fun other => other.id ≠ source.id) = false := by
      rw [Option.any_eq_false]
      intro other hother
      have hfound := List.find?_some hother
      have hsame := hrows.slugs other (List.mem_of_find?_eq_some hother) source hmem s
        (by simpa using hfound) hslug
      simp [hsame]
    have hlegal : slugFormat s ≠ false := by simp [hformat]
    rw [Option.getD_some, htrim, validateSlug, if_neg hne, if_neg hlegal, Option.getD_some, hown]
    rfl

theorem readIpFamily_unedited (hwidget : Elsewhere widget) :
    readIpFamily (unedited source widget) = (source.ipFamily, []) := by
  have hget : PipelineEditor.get (unedited source widget) "ip_family" =
      trim ((source.ipFamily.map IpFamily.asStr).getD []) :=
    get_posted hwidget (by decide) (by decide) (by decide) rfl
  rw [readIpFamily, hget]
  match source.ipFamily with
  | none => rfl
  | some .any => rfl
  | some .ipv4 => rfl
  | some .ipv6 => rfl

theorem readEncoding_unedited (hwidget : Elsewhere widget) :
    readEncoding (unedited source widget) = (source.encoding, []) := by
  have hget : PipelineEditor.get (unedited source widget) "encoding" = trim source.encoding.asStr :=
    get_posted hwidget (by decide) (by decide) (by decide) rfl
  rw [readEncoding, hget]
  cases source.encoding <;> rfl

theorem readInputFormat_unedited (hwidget : Elsewhere widget) :
    readInputFormat (unedited source widget) = (source.inputFormat, []) := by
  have hget : PipelineEditor.get (unedited source widget) "input_format" =
      trim ((source.inputFormat.map InputFormat.asStr).getD []) :=
    get_posted hwidget (by decide) (by decide) (by decide) rfl
  rw [readInputFormat, hget]
  match source.inputFormat with
  | none => rfl
  | some .uriList => rfl
  | some .clashYaml => rfl
  | some .singBoxJson => rfl

theorem readUrl_unedited (hadmitted : Admitted panel source) (hwidget : Elsewhere widget)
    (family : Option IpFamily) : readUrl panel (unedited source widget) family =
      (trim source.url, (vetUrl panel.toVetting (trim source.url) panel.allowPrivateUrls
        (family.getD panel.defaultFamily)).toList.map fun issue => ⟨"url", issue⟩) := by
  have hget : PipelineEditor.get (unedited source widget) "url" = trim source.url :=
    get_posted hwidget (by decide) (by decide) (by decide) rfl
  have hlength : byteLength (trim source.url) ≤ Caps.url :=
    (bytes_trim_le source.url).trans hadmitted.urlLength
  rw [readUrl, hget, if_neg hadmitted.url, if_neg (by omega)]
  cases vetUrl panel.toVetting (trim source.url) panel.allowPrivateUrls
    (family.getD panel.defaultFamily) <;> rfl

theorem readProtocols_unedited (hwidget : Elsewhere widget) :
    readProtocols (unedited source widget) =
      (if (Scheme.all.filter fun scheme => scheme ∈ source.protocols.getD []) = [] then none
        else some (Scheme.all.filter fun scheme => scheme ∈ source.protocols.getD []), []) := by
  have hshown : ∀ scheme : Scheme, scheme.asStr ∈ (sourceEditForm source).protocols ↔
      scheme ∈ source.protocols.getD [] := by
    intro scheme
    have hnames : (sourceEditForm source).protocols =
        (source.protocols.getD []).map Scheme.asStr := by
      cases hprotocols : source.protocols <;> simp [sourceEditForm, hprotocols]
    rw [hnames, List.mem_map_of_injective Scheme.asStr_injective]
  have hread : ∀ l : List Scheme, (l.map Scheme.asStr).filterMap Scheme.fromStr = l := by
    intro l
    rw [List.filterMap_map]
    refine (List.filterMap_congr fun scheme _ => Scheme.fromStr_asStr scheme).trans ?_
    exact List.filterMap_some
  have hknown : ∀ l : List Scheme,
      (l.map Scheme.asStr).filter (fun raw => (Scheme.fromStr raw).isNone) = [] := by
    intro l
    refine List.filter_eq_nil_iff.mpr fun raw hraw => ?_
    obtain ⟨scheme, -, rfl⟩ := List.mem_map.mp hraw
    simp [Scheme.fromStr_asStr]
  rw [readProtocols, unedited, getAll_posted hwidget]
  simp only [hshown, List.map_eq_nil_iff, hread, hknown, List.map_nil]
  split_ifs <;> rfl

theorem readTtl_unedited (hadmitted : Admitted panel source) (hwidget : Elsewhere widget) :
    readTtl (unedited source widget) = (source.cacheTtlSeconds, []) := by
  have hget : PipelineEditor.get (unedited source widget) "cache_ttl_seconds" =
      trim (decimalInt source.cacheTtlSeconds) :=
    get_posted hwidget (by decide) (by decide) (by decide) rfl
  have hrange := hadmitted.ttl
  rw [readTtl, hget, trim_decimalInt, parseI64_decimalInt (by omega)]
  exact if_pos hrange

theorem trim_joined {l : List Text} (h : ∀ t ∈ l, IsItem ',' t) :
    trim (joinItems ',' [' '] l) = joinItems ',' [' '] l :=
  trim_eq_self (trimmed_joinItems h)

theorem readTags_unedited (hadmitted : Admitted panel source) (hwidget : Elsewhere widget) :
    readTags (unedited source widget) = (source.tags, []) ↔
      ∀ l, source.tags = some l → l ≠ [] ∧ ∀ t ∈ l, IsItem ',' t := by
  have hget : PipelineEditor.get (unedited source widget) "tags" =
      trim ((source.tags.map (joinItems ',' [' '])).getD []) :=
    get_posted hwidget (by decide) (by decide) (by decide) rfl
  rw [readTags, hget]
  cases htags : source.tags with
  | none => exact iff_of_true rfl fun l hl => by cases hl
  | some l =>
    rw [Option.map_some, Option.getD_some]
    constructor
    · intro hread l' hl'
      obtain rfl := Option.some.inj hl'
      by_cases hblank : trim (joinItems ',' [' '] l) = []
      · rw [if_pos hblank] at hread
        cases hread
      · rw [if_neg hblank] at hread
        have hitems := Option.some.inj (congrArg Prod.fst hread)
        refine ⟨?_, fun t ht => isItem_of_mem (hitems ▸ ht)⟩
        rintro rfl
        exact hblank rfl
    · intro h
      obtain ⟨hne, hitems⟩ := h l rfl
      obtain ⟨hcount, hbytes⟩ := hadmitted.tags l htags
      have hshown : joinItems ',' [' '] l ≠ [] := by
        rw [ne_eq, joinItems_eq_nil fun t ht => (hitems t ht).visible]
        exact hne
      have hpad : ∀ c ∈ [' '], isWhitespace c = true ∧ c ≠ ',' := by decide
      have hlong : l.any (fun t => byteLength t > Caps.tagBytes) = false :=
        List.any_eq_false.mpr fun t ht => by simpa using hbytes t ht
      rw [trim_joined hitems, if_neg hshown]
      simp only [splitItems_join hpad hitems, hlong]
      rw [if_neg (by omega)]
      rfl

end Fields

section Headers

variable {panel : Panel} {source : Source} {widget : Form} {m : HeaderMap}

/-- A value whose mask has no white space at its ends. -/
def PlainStart (value : Text) : Prop :=
  3 < value.length → ∀ c, value.head? = some c → isWhitespace c = false

theorem mem_maskSecret {value : Text} {c : Char} (h : c ∈ maskSecret value) :
    c ∈ value ∨ c = '…' ∨ c = '•' := by
  unfold maskSecret at h
  split_ifs at h
  · cases h
  · exact .inr (.inr ((by decide : ∀ c ∈ ("••••" : Text), c = '•') c h))
  · rcases List.mem_append.mp h with hprefix | htail
    · exact .inl (List.mem_of_mem_take hprefix)
    · exact .inr ((by decide : ∀ c ∈ ("…••••" : Text), c = '…' ∨ c = '•') c htail)

theorem maskSecret_long {value : Text} (h : 3 < value.length) :
    maskSecret value = value.take 3 ++ "…••••" := by
  have hne : value ≠ [] := by
    rintro rfl
    exact absurd h (by decide)
  rw [maskSecret, if_neg hne, if_neg (by omega)]

theorem maskSecret_head {value : Text} (h : 3 < value.length) :
    (maskSecret value).head? = value.head? := by
  rw [maskSecret_long h]
  cases value with
  | nil => exact absurd h (by decide)
  | cons c t => rfl

theorem trim_maskSecret {value : Text} (h : PlainStart value) :
    trim (maskSecret value) = maskSecret value := by
  by_cases hlong : 3 < value.length
  · refine trim_eq_self ⟨fun c hc => ?_, fun c hc => ?_⟩
    · rw [maskSecret_head hlong] at hc
      exact h hlong c hc
    · rw [maskSecret_long hlong, List.getLast?_append_of_ne_nil _ (by decide)] at hc
      obtain rfl : '•' = c := Option.some.inj hc
      decide
  · unfold maskSecret
    split_ifs with hempty hshort
    · rfl
    · decide
    · exact absurd (Nat.lt_of_not_le hshort) hlong

theorem trim_maskSecret_ne {value : Text} (h : ¬PlainStart value) :
    trim (maskSecret value) ≠ maskSecret value ∧ trim (maskSecret value) ≠ value := by
  unfold PlainStart at h
  push Not at h
  obtain ⟨hlong, c, hhead, hwhite⟩ := h
  have hplain : ∀ t : Text, t.head? = some c → trim (maskSecret value) ≠ t := by
    rintro t ht rfl
    exact hwhite ((trimmed_trim (maskSecret value)).1 c ht)
  exact ⟨hplain _ ((maskSecret_head hlong).trans hhead), hplain _ hhead⟩

/-- A posted mask is read as its own secret exactly when trimming leaves it alone. -/
theorem restoreValue_shown {key value : Text} (h : m.lookup key = some value) :
    restoreValue m key (trim (maskSecret value)) = value ↔ PlainStart value := by
  constructor
  · intro hrestored
    by_contra hplain
    obtain ⟨hmask, hvalue⟩ := trim_maskSecret_ne hplain
    simp only [restoreValue, h, if_neg hmask] at hrestored
    rcases masked_spec m (trim (maskSecret value)) with ⟨hnone, -⟩ | ⟨secret, hsome, honly⟩
    · rw [hnone] at hrestored
      exact hvalue hrestored
    · rw [hsome] at hrestored
      obtain rfl : secret = value := hrestored
      exact hmask honly.masked.symm
  · intro hplain
    rw [trim_maskSecret hplain]
    simp only [restoreValue, h, if_true]

def shownHeader (h : Text × Text) : Text × Text := (h.1, trim (maskSecret h.2))

section Lines

variable {h : Text × Text}

/-- Names and values that the library takes. -/
def Legal (panel : Panel) (h : Text × Text) : Prop :=
  panel.headerName h.1 = true ∧ panel.headerValue h.2 = true

theorem name_visible (hhttp : HttpText panel) (hlegal : Legal panel h) :
    h.1 ≠ [] ∧ trim h.1 = h.1 ∧ ':' ∉ h.1 ∧ '\n' ∉ h.1 := by
  obtain ⟨hne, hchars⟩ := hhttp.name h.1 hlegal.1
  have hwhite : ∀ c ∈ h.1, isWhitespace c = false := fun c hc =>
    visible_not_white ⟨(hchars c hc).1, (hchars c hc).2.1⟩
  refine ⟨hne, trim_eq_self ⟨fun c hc => hwhite c (List.mem_of_mem_head? hc),
    fun c hc => hwhite c (List.mem_of_getLast? hc)⟩, fun hc => (hchars _ hc).2.2 rfl, fun hc => ?_⟩
  exact absurd (hwhite _ hc) (by decide)

theorem trim_headerLine (hhttp : HttpText panel) (hlegal : Legal panel h) :
    trim (headerLine h) = h.1 ++ ':' :: trimEnd (' ' :: maskSecret h.2) := by
  obtain ⟨hne, htrim, -, -⟩ := name_visible hhttp hlegal
  have hstart : trimStart (headerLine h) = headerLine h := by
    refine trimStart_eq_self fun c hc => ?_
    have hhead : (headerLine h).head? = h.1.head? := by
      rw [headerLine, List.append_assoc, List.head?_append_of_ne_nil _ hne]
    rw [hhead, ← htrim] at hc
    exact (trimmed_trim h.1).1 c hc
  have hline : headerLine h = h.1 ++ ':' :: (' ' :: maskSecret h.2) := by
    rw [headerLine, List.append_assoc]
    rfl
  rw [trim, hstart, hline, trimEnd_append_cons (by decide)]

theorem headerValue_mask (hhttp : HttpText panel) (hlegal : Legal panel h) :
    panel.headerValue (trim (maskSecret h.2)) = true := by
  have hvalue := hlegal.2
  rw [hhttp.value, List.all_eq_true] at hvalue ⊢
  have htail : ∀ c, c = '…' ∨ c = '•' →
      ∀ b ∈ String.utf8EncodeChar c, isFieldByte b = true := by
    rintro c (rfl | rfl)
    · decide +kernel
    · decide +kernel
  intro b hb
  obtain ⟨c, hc, hbyte⟩ := List.mem_flatMap.mp hb
  rcases mem_maskSecret (mem_of_mem_trim hc) with hold | hmark
  · exact hvalue b (List.mem_flatMap.mpr ⟨c, hold, hbyte⟩)
  · exact htail c hmark b hbyte

theorem readHeaderLine_shown (hhttp : HttpText panel) (hlegal : Legal panel h) :
    readHeaderLine panel (trim (headerLine h)) = .ok (shownHeader h) := by
  obtain ⟨hne, htrim, hcolon, -⟩ := name_visible hhttp hlegal
  have hvalue : trim (trimEnd (' ' :: maskSecret h.2)) = trim (maskSecret h.2) := by
    rw [trim_trimEnd, trim_cons_white (by decide)]
  rw [trim_headerLine hhttp hlegal, readHeaderLine, splitOnce_append hcolon]
  simp only [htrim, hvalue, if_neg hne, hlegal.1, headerValue_mask hhttp hlegal, Bool.and_self,
    if_true]
  rfl

theorem headerLine_unbroken (hhttp : HttpText panel) (hlegal : Legal panel h) :
    '\n' ∉ headerLine h := by
  obtain ⟨-, -, -, hname⟩ := name_visible hhttp hlegal
  have hvalue : '\n' ∉ h.2 := by
    intro hbreak
    have hbytes := hlegal.2
    rw [hhttp.value, List.all_eq_true] at hbytes
    exact absurd (hbytes 10 (List.mem_flatMap.mpr ⟨'\n', hbreak, by decide⟩)) (by decide)
  have hmask : '\n' ∉ maskSecret h.2 := by
    intro hbreak
    rcases mem_maskSecret hbreak with hold | hmark
    · exact hvalue hold
    · exact absurd hmark (by decide)
  have hcolon : '\n' ∉ (": " : Text) := by decide
  rw [headerLine, List.append_assoc, List.mem_append, List.mem_append]
  rintro (hbreak | hbreak | hbreak)
  · exact hname hbreak
  · exact hcolon hbreak
  · exact hmask hbreak

end Lines

def shownLines (m : HeaderMap) : List Text := m.map fun h => trim (headerLine h)

theorem headerLines_shown (hhttp : HttpText panel) (hlegal : ∀ h ∈ m, Legal panel h) :
    headerLines (trim (joinItems '\n' [] (m.map headerLine))) = shownLines m := by
  have hunbroken : ∀ line ∈ m.map headerLine, '\n' ∉ line := by
    intro line hline
    obtain ⟨h, hh, rfl⟩ := List.mem_map.mp hline
    exact headerLine_unbroken hhttp (hlegal h hh)
  rw [headerLines_eq, splitItems_trim, joinItems, splitItems_intercalate hunbroken, List.map_map]
  refine List.filter_eq_self.mpr fun line hline => decide_eq_true ?_
  obtain ⟨h, hh, rfl⟩ := List.mem_map.mp hline
  rw [Function.comp_apply, trim_headerLine hhttp (hlegal h hh)]
  simp

theorem foldl_addHeaderLine (hhttp : HttpText panel) {issues : List FieldIssue} {rest : HeaderMap} :
    ∀ {done : HeaderMap}, DistinctKeys (done ++ rest.map shownHeader) →
      (∀ h ∈ rest, Legal panel h) →
        (shownLines rest).foldl (addHeaderLine panel) (done, issues) =
          (done ++ rest.map shownHeader, issues) := by
  induction rest with
  | nil =>
    intro done _ _
    simp [shownLines]
  | cons h rest ih =>
    intro done hdistinct hlegal
    have hread := readHeaderLine_shown hhttp (hlegal h List.mem_cons_self)
    have hnew : (shownHeader h).1 ∉ done.map Prod.fst := by
      intro hmem
      rw [DistinctKeys, List.map_append, List.map_cons, List.map_cons, List.nodup_append] at hdistinct
      exact hdistinct.2.2 _ hmem _ List.mem_cons_self rfl
    have hstep : addHeaderLine panel (done, issues) (trim (headerLine h)) =
        (done ++ [shownHeader h], issues) := by
      rw [addHeaderLine, hread]
      simp only [JsonValue.insert, if_neg hnew]
    have happend : done ++ (h :: rest).map shownHeader =
        (done ++ [shownHeader h]) ++ rest.map shownHeader := by
      rw [List.append_assoc]
      rfl
    rw [happend] at hdistinct ⊢
    rw [shownLines, List.map_cons, List.foldl_cons, hstep]
    exact ih hdistinct fun g hg => hlegal g (List.mem_cons_of_mem h hg)

theorem keys_shown (m : HeaderMap) : (m.map shownHeader).map Prod.fst = m.map Prod.fst := by
  rw [List.map_map]
  rfl

/-- The size that the form counts: the lines as they are shown. -/
def shownBytes (m : HeaderMap) : ℕ := ((shownLines m).map byteLength).sum

theorem readHeaders_unedited (hhttp : HttpText panel) (hadmitted : Admitted panel source)
    (hwidget : Elsewhere widget) :
    readHeaders panel (unedited source widget) =
      ((source.headers.getD []).map shownHeader,
        if shownBytes (source.headers.getD []) > Caps.headerBytes then
          [fieldIssue "headers" "val.headers_too_long" [decimal Caps.headerBytes]] else []) := by
  have hget : PipelineEditor.get (unedited source widget) "headers" =
      trim (joinItems '\n' [] ((source.headers.getD []).map headerLine)) := by
    have hshown : (sourceEditForm source).headers =
        joinItems '\n' [] ((source.headers.getD []).map headerLine) := by
      cases hheaders : source.headers <;> simp [sourceEditForm, hheaders, joinItems]
    rw [← hshown]
    exact get_posted hwidget (by decide) (by decide) (by decide) rfl
  have hstored : DistinctKeys (source.headers.getD []) ∧
      (source.headers.getD []).length ≤ Caps.headerLines ∧
        ∀ h ∈ source.headers.getD [], Legal panel h := by
    cases hheaders : source.headers with
    | none => exact ⟨List.nodup_nil, Nat.zero_le _, fun h hh => absurd hh List.not_mem_nil⟩
    | some m => exact hadmitted.headers m hheaders
  obtain ⟨hdistinct, hcount, hlegal⟩ := hstored
  have hlength : (shownLines (source.headers.getD [])).length ≤ Caps.headerLines := by
    rw [shownLines, List.length_map]
    exact hcount
  have hkeys : DistinctKeys ([] ++ (source.headers.getD []).map shownHeader) := by
    rw [List.nil_append, DistinctKeys, keys_shown]
    exact hdistinct
  rw [readHeaders, hget, headerLines_shown hhttp hlegal]
  simp only [foldl_addHeaderLine hhttp hkeys hlegal, List.nil_append]
  rw [if_neg (by omega), List.nil_append]
  rfl

/-- The secrets come back when no long value starts with white space. -/
theorem restored_shown (hdistinct : DistinctKeys m) :
    restoreMaskedHeaders (m.map shownHeader) m = m ↔ ∀ h ∈ m, PlainStart h.2 := by
  have hrestored : restoreMaskedHeaders (m.map shownHeader) m =
      m.map fun h => (h.1, restoreValue m h.1 (trim (maskSecret h.2))) := by
    rw [restoreMaskedHeaders_eq, List.map_map]
    rfl
  have hown : ∀ h ∈ m, m.lookup h.1 = some h.2 := fun h hh =>
    (lookup_eq_some_iff_mem hdistinct).mpr hh
  have hself := @List.map_inj_left _ _ m
    (fun h => (h.1, restoreValue m h.1 (trim (maskSecret h.2)))) id
  rw [List.map_id] at hself
  rw [hrestored, hself]
  refine forall₂_congr fun h hh => ?_
  rw [← restoreValue_shown (hown h hh)]
  exact ⟨fun heq => congrArg Prod.snd heq, fun heq => Prod.ext rfl heq⟩

end Headers

end SourceSave
