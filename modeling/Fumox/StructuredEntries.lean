import Fumox.ClashParser
import Fumox.SingboxParser
import Fumox.LineParser

/-!
Entries read from structured input.  Every builder of the Clash, sing-box and Xray parsers leaves
the source line and the path empty and admits no line break where a serializer prints verbatim.
-/

namespace StructuredEntries

open RustText ProxyModels PayloadGuards UriGrammar LineParser

/-- What the builders of both parsers guarantee. -/
structure Structured (entry : ProxyEntry) : Prop where
  rawLine : entry.rawLine = []
  rawPath : entry.rawPath = []
  scheme : entry.scheme ∉ [Scheme.naive, .tuic, .mieru]
  host : hasLineBreak entry.host = false
  credential : hasLineBreak entry.credential = false

/-- The entries of any payload that one of the two parsers accepts. -/
def FromPayload (codecs : Codecs) (entry : ProxyEntry) : Prop :=
  (∃ payload result, ClashParser.parsePayload codecs.yaml payload = .ok result ∧
    entry ∈ result.entries) ∨
  ∃ payload result, SingboxParser.parsePayload codecs.json payload = .ok result ∧
    entry ∈ result.entries

theorem map_eq_ok {ε α β : Type} {f : α → β} {x : Except ε α} {b : β} :
    x.map f = .ok b ↔ ∃ a, x = .ok a ∧ f a = b := by
  cases x <;> simp [Except.map]

section Clash

open ClashParser YamlValue

variable {yaml : SerdeNorway} {entry : ProxyEntry}

theorem specOfType_scheme {typeName : Text} {spec : ClashTypeSpec}
    (h : specOfType typeName = some spec) : spec.scheme ∉ [Scheme.naive, .tuic, .mieru] := by
  unfold specOfType at h
  split_ifs at h <;> obtain rfl := Option.some.inj h <;> decide

theorem parseTyped_structured {spec : ClashTypeSpec} {fields : List (Yaml × Yaml)}
    (hspec : spec.scheme ∉ [Scheme.naive, .tuic, .mieru])
    (h : parseTyped yaml spec fields = .ok entry) : Structured entry := by
  obtain ⟨host, -, h⟩ := bind_eq_ok.mp h
  obtain ⟨port, -, h⟩ := bind_eq_ok.mp h
  obtain ⟨_, hhost, h⟩ := bind_eq_ok.mp h
  obtain ⟨_, hcredential, h⟩ := bind_eq_ok.mp h
  obtain ⟨_, -, h⟩ := bind_eq_ok.mp h
  obtain ⟨_, -, h⟩ := bind_eq_ok.mp h
  obtain rfl := Except.ok.inj h
  exact ⟨rfl, rfl, hspec, rejectLineBreaks_eq_ok.mp hhost, rejectLineBreaks_eq_ok.mp hcredential⟩

theorem parseItem_structured {item : Yaml} (h : parseItem yaml item = .ok (some entry)) :
    Structured entry := by
  obtain ⟨fields, -, h⟩ := bind_eq_ok.mp h
  obtain ⟨typeName, -, h⟩ := bind_eq_ok.mp h
  split at h
  next spec hspec =>
    obtain ⟨built, hbuilt, heq⟩ := map_eq_ok.mp h
    obtain rfl := Option.some.inj heq
    exact parseTyped_structured (specOfType_scheme hspec) hbuilt
  next => simp [pure, Except.pure] at h

theorem mem_countItem {item : Yaml} {result : ClashParseResult} :
    entry ∈ (countItem yaml result item).entries ↔
      entry ∈ result.entries ∨ parseItem yaml item = .ok (some entry) := by
  unfold countItem
  split
  next built hbuilt => simp [hbuilt, eq_comm]
  next hunsupported => simp [hunsupported]
  next herror => simp [herror]

theorem mem_countItems (items : List Yaml) {result : ClashParseResult} :
    entry ∈ (items.foldl (countItem yaml) result).entries ↔
      entry ∈ result.entries ∨ ∃ item ∈ items, parseItem yaml item = .ok (some entry) := by
  induction items generalizing result with
  | nil => simp
  | cons item items ih =>
    rw [List.foldl_cons, ih, mem_countItem]
    simp [or_assoc]

/-- The items that a payload lists. -/
def itemsOf (root : Yaml) : Option (List Yaml) :=
  (root.asMapping.bind (mapGet · "proxies")).bind Yaml.asSequence

theorem mem_clash_entries {payload : Text} {result : ClashParseResult}
    (h : ClashParser.parsePayload yaml payload = .ok result) :
    ∃ root items, yaml.fromStr payload = some root ∧ itemsOf root = some items ∧
      ∀ e, e ∈ result.entries ↔ ∃ item ∈ items, parseItem yaml item = .ok (some e) := by
  obtain ⟨_, -, h⟩ := bind_eq_ok.mp h
  obtain ⟨root, hroot, h⟩ := bind_eq_ok.mp h
  obtain ⟨items, hitems, h⟩ := bind_eq_ok.mp h
  obtain rfl := Except.ok.inj h
  refine ⟨root, items, elim_eq_ok.mp hroot, elim_eq_ok.mp hitems, fun e => ?_⟩
  rw [mem_countItems]
  simp

theorem clash_structured {payload : Text} {result : ClashParseResult}
    (h : ClashParser.parsePayload yaml payload = .ok result) (hmem : entry ∈ result.entries) :
    ∃ item, parseItem yaml item = .ok (some entry) := by
  obtain ⟨root, items, -, -, hentries⟩ := mem_clash_entries h
  obtain ⟨item, -, hok⟩ := (hentries entry).mp hmem
  exact ⟨item, hok⟩

end Clash

section Singbox

open SingboxParser JsonValue

variable {json : SerdeJson} {entry : ProxyEntry} {map : Object} {name : Text}

/-- An entry that `finish` let through, with the host of a nonempty field. -/
def Finished (entry : ProxyEntry) : Prop :=
  ∃ (scheme : Scheme) (name host : Text) (port : UInt16) (credential : Text) (params : List Param),
    scheme ∉ [Scheme.naive, .tuic, .mieru] ∧ host ≠ [] ∧
      finish scheme name host port credential params = .ok entry

theorem Finished.structured (h : Finished entry) : Structured entry := by
  obtain ⟨scheme, name, host, port, credential, params, hscheme, -, h⟩ := h
  obtain ⟨_, hhost, h⟩ := bind_eq_ok.mp h
  obtain ⟨_, hcredential, h⟩ := bind_eq_ok.mp h
  obtain ⟨_, -, h⟩ := bind_eq_ok.mp h
  obtain ⟨_, -, h⟩ := bind_eq_ok.mp h
  obtain ⟨_, -, h⟩ := bind_eq_ok.mp h
  obtain rfl := Except.ok.inj h
  exact ⟨rfl, rfl, hscheme, rejectLineBreaks_eq_ok.mp hhost, rejectLineBreaks_eq_ok.mp hcredential⟩

theorem strField_ne_nil {key value : Text} (h : strField map key = some value) : value ≠ [] := by
  unfold strField at h
  simpa using (Option.filter_eq_some_iff.mp h).2

theorem requiredStr_ne_nil {key value : Text} (h : requiredStr map key = .ok value) :
    value ≠ [] := by
  unfold requiredStr at h
  cases hfield : strField map key with
  | none => simp [hfield] at h
  | some v =>
    rw [hfield] at h
    obtain rfl := Except.ok.inj h
    exact strField_ne_nil hfield

theorem nativeEndpoint_host {endpoint : Text × UInt16} (h : nativeEndpoint map = .ok endpoint) :
    endpoint.1 ≠ [] := by
  obtain ⟨host, hhost, h⟩ := bind_eq_ok.mp h
  obtain ⟨port, -, h⟩ := bind_eq_ok.mp h
  obtain rfl := Except.ok.inj h
  exact requiredStr_ne_nil hhost

theorem xrayEndpoint_host {endpoint : Text × UInt16} (h : xrayEndpoint map = .ok endpoint) :
    endpoint.1 ≠ [] := by
  obtain ⟨host, hhost, h⟩ := bind_eq_ok.mp h
  obtain ⟨port, -, h⟩ := bind_eq_ok.mp h
  obtain rfl := Except.ok.inj h
  exact requiredStr_ne_nil hhost

/-- An endpoint and one more fallible read in front of `finish`. -/
theorem finish_after {β : Type} {x : Except SingboxError (Text × UInt16)}
    {y : Text × UInt16 → Except SingboxError β} {scheme : Text × UInt16 → β → Scheme}
    {n credential : Text × UInt16 → β → Text} {params : Text × UInt16 → β → List Param}
    (hhost : ∀ a, x = .ok a → a.1 ≠ []) (hscheme : ∀ a b, scheme a b ∉ [Scheme.naive, .tuic, .mieru])
    (h : (do
      let a ← x
      let b ← y a
      finish (scheme a b) (n a b) a.1 a.2 (credential a b) (params a b)) = .ok entry) :
    Finished entry := by
  obtain ⟨a, ha, h⟩ := bind_eq_ok.mp h
  obtain ⟨b, -, h⟩ := bind_eq_ok.mp h
  exact ⟨_, _, _, _, _, _, hscheme a b, hhost a ha, h⟩

theorem buildNative_finished {kind : Text} {entries : List ProxyEntry}
    (h : buildNative json map kind name = some (.ok entries)) : ∀ e ∈ entries, Finished e := by
  have hone : ∀ x : Except SingboxError ProxyEntry, (∀ e, x = .ok e → Finished e) →
      some (x.map fun e => [e]) = some (.ok entries) → ∀ e ∈ entries, Finished e := by
    intro x hx heq
    obtain ⟨e, he, rfl⟩ := map_eq_ok.mp (Option.some.inj heq)
    simpa using hx e he
  unfold buildNative at h
  split_ifs at h
  · exact hone _ (fun e he => finish_after (fun _ => nativeEndpoint_host) (fun _ _ => by decide) he) h
  · exact hone _ (fun e he => finish_after (fun _ => nativeEndpoint_host) (fun _ _ => by decide) he) h
  · exact hone _ (fun e he => finish_after (fun _ => nativeEndpoint_host) (fun _ _ => by decide) he) h
  · exact hone _ (fun e he => finish_after (fun _ => nativeEndpoint_host) (fun _ _ => by decide) he) h
  · exact hone _ (fun e he => finish_after (fun _ => nativeEndpoint_host) (fun _ _ => by decide) he) h
  · refine hone _ (fun e he => ?_) h
    obtain ⟨endpoint, hendpoint, he⟩ := bind_eq_ok.mp he
    exact ⟨_, _, _, _, _, _, by decide, nativeEndpoint_host hendpoint, he⟩

theorem usable_eq_ok {kind : Text} {endpoints : List Object} {built entries : List ProxyEntry}
    (h : usable kind endpoints built = .ok entries) : entries = built := by
  unfold usable at h
  split at h
  · simp at h
  · exact (Except.ok.inj h).symm

theorem userEntries_finished {build : Object → Text → UInt16 → Except SingboxError ProxyEntry}
    (hbuild : ∀ user host port e, host ≠ [] → build user host port = .ok e → Finished e)
    (endpoint : Object) :
    ∀ e ∈ xrayUserEntries build endpoint, Finished e := by
  intro e he
  unfold xrayUserEntries at he
  split at he
  next host port hendpoint =>
    obtain ⟨user, -, hok⟩ := List.mem_filterMap.mp he
    exact hbuild user host port e (xrayEndpoint_host hendpoint) (toOption_eq_some.mp hok)
  next => simp at he

theorem socksServer_finished (server : Object) :
    ∀ e ∈ xraySocksServer json map server name, Finished e := by
  intro e he
  unfold xraySocksServer at he
  split at he
  next host port haddress _ =>
    have hhost : host ≠ [] := by
      rcases Option.or_eq_some_iff.mp (by simpa using haddress) with h | ⟨-, h⟩
      · exact strField_ne_nil h
      · exact strField_ne_nil h
    obtain ⟨credential, -, hok⟩ := List.mem_filterMap.mp he
    exact ⟨_, _, _, _, _, _, by decide, hhost, toOption_eq_some.mp hok⟩
  next => simp at he

theorem buildXray_finished {kind : Text} {entries : List ProxyEntry}
    (h : buildXray json map kind name = some (.ok entries)) : ∀ e ∈ entries, Finished e := by
  unfold buildXray at h
  split_ifs at h
  · obtain ⟨vnext, -, h⟩ := bind_eq_ok.mp (Option.some.inj h)
    rw [usable_eq_ok h]
    intro e he
    obtain ⟨endpoint, -, he⟩ := List.mem_flatMap.mp he
    refine userEntries_finished (fun user host port e hhost he => ?_) endpoint e he
    obtain ⟨_, -, he⟩ := bind_eq_ok.mp he
    exact ⟨_, _, _, _, _, _, by decide, hhost, he⟩
  · obtain ⟨vnext, -, h⟩ := bind_eq_ok.mp (Option.some.inj h)
    rw [usable_eq_ok h]
    intro e he
    obtain ⟨endpoint, -, he⟩ := List.mem_flatMap.mp he
    refine userEntries_finished (fun user host port e hhost he => ?_) endpoint e he
    obtain ⟨_, -, he⟩ := bind_eq_ok.mp he
    exact ⟨_, _, _, _, _, _, by decide, hhost, he⟩
  · obtain ⟨servers, -, h⟩ := bind_eq_ok.mp (Option.some.inj h)
    rw [usable_eq_ok h]
    intro e he
    obtain ⟨server, -, hok⟩ := List.mem_filterMap.mp he
    exact finish_after (fun _ => xrayEndpoint_host) (fun _ _ => by decide) (toOption_eq_some.mp hok)
  · obtain ⟨servers, -, h⟩ := bind_eq_ok.mp (Option.some.inj h)
    rw [usable_eq_ok h]
    intro e he
    obtain ⟨server, -, hok⟩ := List.mem_filterMap.mp he
    exact finish_after (fun _ => xrayEndpoint_host) (fun _ _ => by decide) (toOption_eq_some.mp hok)
  · obtain ⟨servers, -, h⟩ := bind_eq_ok.mp (Option.some.inj h)
    rw [usable_eq_ok h]
    intro e he
    obtain ⟨server, -, he⟩ := List.mem_flatMap.mp he
    exact socksServer_finished server e he

theorem buildOutbound_finished {native : Bool} {kind : Text} {entries : List ProxyEntry}
    (h : buildOutbound json map native kind name = some (.ok entries)) :
    ∀ e ∈ entries, Finished e := by
  cases native with
  | true => exact buildNative_finished h
  | false => exact buildXray_finished h

theorem parseOutbound_finished {result : SingBoxParseResult} (outbound : Json)
    (h : ∀ e ∈ result.entries, Finished e) :
    ∀ e ∈ (parseOutbound json result outbound).entries, Finished e := by
  unfold parseOutbound
  split
  next map =>
    split
    next => exact h
    next native kind _ =>
      split
      next => exact h
      next =>
        split
        next => exact h
        next entries hbuilt =>
          intro e he
          rcases List.mem_append.mp he with he | he
          · exact h e he
          · exact buildOutbound_finished hbuilt e he
        next => exact h
  next => exact h

theorem harvest_finished {config : Object} {result result' : SingBoxParseResult}
    (h : ∀ e ∈ result.entries, Finished e) (hok : harvest json config result = some result') :
    ∀ e ∈ result'.entries, Finished e := by
  obtain ⟨outbounds, -, rfl⟩ := Option.map_eq_some_iff.mp hok
  clear hok
  induction outbounds generalizing result with
  | nil => exact h
  | cons outbound outbounds ih => exact ih (parseOutbound_finished outbound h)

theorem harvestAll_finished (configs : List Json) :
    ∀ e ∈ (harvestAll json configs).2.entries, Finished e := by
  have hfold : ∀ acc : Bool × SingBoxParseResult, (∀ e ∈ acc.2.entries, Finished e) →
      ∀ e ∈ (configs.foldl (harvestConfig json) acc).2.entries, Finished e := by
    induction configs with
    | nil => exact fun acc h => h
    | cons config configs ih =>
      intro acc h
      refine ih _ ?_
      unfold harvestConfig
      split
      next result hok =>
        obtain ⟨object, -, hharvest⟩ := Option.bind_eq_some_iff.mp hok
        exact harvest_finished h hharvest
      next => exact h
  exact hfold _ (by simp)

theorem singbox_finished {payload : Text} {result : SingBoxParseResult}
    (h : SingboxParser.parsePayload json payload = .ok result) :
    ∀ e ∈ result.entries, Finished e := by
  obtain ⟨root, -, h⟩ := bind_eq_ok.mp h
  split at h
  next config =>
    cases hharvest : harvest json config {} with
    | none => simp [hharvest] at h
    | some harvested =>
      rw [hharvest] at h
      obtain rfl := Except.ok.inj h
      exact harvest_finished (by simp) hharvest
  next configs =>
    split at h
    · obtain rfl := Except.ok.inj h
      exact harvestAll_finished configs
    · simp at h
  next => simp at h

end Singbox

/-- Every entry of a structured payload is printable as it was read. -/
theorem FromPayload.structured {codecs : Codecs} {entry : ProxyEntry}
    (h : FromPayload codecs entry) : Structured entry := by
  rcases h with ⟨payload, result, hok, hmem⟩ | ⟨payload, result, hok, hmem⟩
  · obtain ⟨item, hitem⟩ := clash_structured hok hmem
    exact parseItem_structured hitem
  · exact (singbox_finished hok entry hmem).structured

end StructuredEntries
