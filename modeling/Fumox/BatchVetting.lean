import Fumox.AddressPolicy
import Fumox.PinnedConfig

/-!
The vetting of a tunnel batch.  Both lanes that write an engine configuration vet the hosts of
their rows, pin each host to an accepted address, and name only pinned addresses.
-/

namespace BatchVetting

open RustText ProxyModels JsonValue YamlValue AddressText VettedAddresses AddressPolicy ProxyStore
  ClashWriter PinnedConfig

abbrev Resolver := ℕ → Text → Except Text (List IpAddr)

def vetHosts (resolve : Resolver) (allowPrivate : Bool) (hosts : List Text) :
    List (Except Text (List IpAddr)) :=
  hosts.zipIdx.map fun h => vetProbeHostAddrs (resolve h.2) allowPrivate h.1

structure Vetted where
  pins : Pins := fun _ => none
  batch : List ProxyRow := []
  blocked : List ProxyRow := []

def admitRow (v : Vetted) (judged : ProxyRow × Except Text (List IpAddr)) : Vetted :=
  match judged.2 with
  | .ok vetted => { v with
      pins := (pickVetted vetted .any).elim v.pins fun ip =>
        Function.update v.pins judged.1.host (some ip)
      batch := v.batch ++ [judged.1] }
  | .error _ => { v with blocked := v.blocked ++ [judged.1] }

def vetBatch (resolve : Resolver) (allowPrivate : Bool) (rows : List ProxyRow) : Vetted :=
  (rows.zip (vetHosts resolve allowPrivate (rows.map (·.host)))).foldl admitRow {}

/-- What the lanes read besides their rows: whether the engine is in backoff, whether it answers
the ping, and the settings of the document. -/
structure Engine where
  inBackoff : Bool
  answers : Bool
  ipv6 : Bool

/-- The document that a vetted batch writes, if it writes one. -/
def writtenConfig (yaml : SerdeNorway) (json : SerdeJson) (engine : Engine) (v : Vetted) :
    Option (Yaml × List ℕ) :=
  if v.batch = [] then none
  else if engine.answers then some (generate yaml json v.batch v.pins engine.ipv6)
  else none

def probeT2Batch (yaml : SerdeNorway) (json : SerdeJson) (engine : Engine) (resolve : Resolver)
    (allowPrivate : Bool) (candidates : List ProxyRow) (alreadyChecked : List ℕ) :
    Option (Yaml × List ℕ) :=
  if engine.inBackoff then none
  else
    let rows := candidates.filter fun row => !alreadyChecked.contains row.id
    writtenConfig yaml json engine
      (vetBatch resolve allowPrivate (rows.filter fun row => isSupported row.scheme))

def reviveQuarantinedViaT2 (yaml : SerdeNorway) (json : SerdeJson) (engine : Engine)
    (resolve : Resolver) (allowPrivate : Bool) (due : List ProxyRow) : Option (Yaml × List ℕ) :=
  if due = [] ∨ engine.inBackoff then none
  else writtenConfig yaml json engine (vetBatch resolve allowPrivate due)

section Pins

variable {yaml : SerdeNorway} {json : SerdeJson} {resolve : Resolver} {allowPrivate : Bool}
  {rows : List ProxyRow} {pins : Pins} {row : ProxyRow} {ip : IpAddr} {item : Yaml}

def AcceptedFor (resolve : Resolver) (allowPrivate : Bool) (rows : List ProxyRow) (host : Text)
    (ip : IpAddr) : Prop :=
  ∃ (i : ℕ) (other : ProxyRow) (vetted : List IpAddr), rows[i]? = some other ∧ other.host = host ∧
    vetProbeHostAddrs (resolve i) allowPrivate host = .ok vetted ∧ ip ∈ vetted

structure Pinned (accepted : Text → IpAddr → Prop) (v : Vetted) : Prop where
  batch : ∀ row ∈ v.batch, (v.pins row.host).isSome = true
  pins : ∀ host ip, v.pins host = some ip → accepted host ip

theorem pickVetted_any {vetted : List IpAddr} (h : vetted ≠ []) :
    ∃ ip ∈ vetted, pickVetted vetted .any = some ip := by
  obtain ⟨first, rest, rfl⟩ := List.exists_cons_of_ne_nil h
  cases hv4 : (first :: rest).find? isIpv4 with
  | some ip => exact ⟨ip, List.mem_of_find?_eq_some hv4, by rw [pickVetted, hv4, Option.some_or]⟩
  | none => exact ⟨first, List.mem_cons_self, by rw [pickVetted, hv4, Option.none_or]; rfl⟩

theorem pinned_admitRow {accepted : Text → IpAddr → Prop} {v : Vetted}
    {judged : ProxyRow × Except Text (List IpAddr)} (hv : Pinned accepted v)
    (hjudged : ∀ vetted, judged.2 = .ok vetted →
      vetted ≠ [] ∧ ∀ ip ∈ vetted, accepted judged.1.host ip) :
    Pinned accepted (admitRow v judged) := by
  obtain ⟨row, verdict⟩ := judged
  cases verdict with
  | error reason => exact ⟨hv.batch, hv.pins⟩
  | ok vetted =>
    obtain ⟨hne, haccepted⟩ := hjudged vetted rfl
    obtain ⟨ip, hmem, hpick⟩ := pickVetted_any hne
    have hadmitted : admitRow v (row, .ok vetted) = { v with
        pins := Function.update v.pins row.host (some ip)
        batch := v.batch ++ [row] } := by
      simp only [admitRow, hpick, Option.elim_some]
    rw [hadmitted]
    constructor
    · intro other hother
      by_cases hhost : other.host = row.host
      · simp [hhost]
      · simp only [Function.update_of_ne hhost]
        apply hv.batch
        rcases List.mem_append.mp hother with h | h
        · exact h
        · exact absurd (congrArg (·.host) (List.mem_singleton.mp h)) hhost
    · intro host pin hpin
      by_cases hhost : host = row.host
      · simp only [hhost, Function.update_self, Option.some.injEq] at hpin
        rw [hhost, ← hpin]
        exact haccepted ip hmem
      · simp only [Function.update_of_ne hhost] at hpin
        exact hv.pins host pin hpin

theorem pinned_foldl {accepted : Text → IpAddr → Prop}
    (judged : List (ProxyRow × Except Text (List IpAddr))) {v : Vetted} (hv : Pinned accepted v)
    (hjudged : ∀ j ∈ judged, ∀ vetted, j.2 = .ok vetted →
      vetted ≠ [] ∧ ∀ ip ∈ vetted, accepted j.1.host ip) :
    Pinned accepted (judged.foldl admitRow v) := by
  induction judged generalizing v with
  | nil => exact hv
  | cons j judged ih =>
    apply ih (pinned_admitRow hv (hjudged j List.mem_cons_self))
    exact fun k hk => hjudged k (List.mem_cons_of_mem _ hk)

theorem pinned_vetBatch : Pinned (AcceptedFor resolve allowPrivate rows)
    (vetBatch resolve allowPrivate rows) := by
  apply pinned_foldl
  · exact ⟨by simp, by simp⟩
  · intro j hj vetted hok
    obtain ⟨i, hi⟩ := List.mem_iff_getElem?.mp hj
    rw [List.getElem?_zip_eq_some] at hi
    obtain ⟨hrow, hverdict⟩ := hi
    have hvetting : vetProbeHostAddrs (resolve i) allowPrivate j.1.host = .ok vetted := by
      simpa [vetHosts, hrow, hok] using hverdict
    obtain ⟨hne, -, -⟩ := vetProbeHostAddrs_ok hvetting
    exact ⟨hne, fun ip hip => ⟨i, j.1, vetted, hrow, rfl, hvetting, hip⟩⟩

theorem server_of_pinned (hitem : proxyToValue yaml json row pins = some item)
    (hpin : pins row.host = some ip) : fieldOf item "server" = some (.str (printIp ip)) := by
  rw [proxyToValue] at hitem
  obtain ⟨entry, -, hitem⟩ := Option.bind_eq_some_iff.mp hitem
  split_ifs at hitem
  rw [hpin, Option.elim_some, entryToClashNamed] at hitem
  obtain ⟨p, -, rfl⟩ := Option.map_eq_some_iff.mp hitem
  exact fieldOf_server

theorem forall₂_generated (rows : List ProxyRow) :
    List.Forall₂ (fun item id => ∃ row ∈ rows, row.id = id ∧
        proxyToValue yaml json row pins = some item)
      (rows.filterMap fun row => proxyToValue yaml json row pins)
      ((rows.filter fun row => (proxyToValue yaml json row pins).isSome).map (·.id)) := by
  induction rows with
  | nil => exact .nil
  | cons row rows ih =>
    have htail := ih.imp fun item id h => by
      obtain ⟨other, hmem, hid, hitem⟩ := h
      exact (⟨other, List.mem_cons_of_mem row hmem, hid, hitem⟩ : ∃ r ∈ row :: rows, r.id = id ∧
        proxyToValue yaml json r pins = some item)
    cases hrow : proxyToValue yaml json row pins with
    | none => simpa [hrow] using htail
    | some item =>
      simp only [List.filterMap_cons, hrow, List.filter_cons, Option.isSome_some, if_true,
        List.map_cons]
      exact .cons ⟨row, List.mem_cons_self, rfl, hrow⟩ htail

/-- Every item of the document names an address that its own batch accepted for its host. -/
def NamesAccepted (resolve : Resolver) (rows : List ProxyRow) (written : Yaml × List ℕ) : Prop :=
  ∃ items, fieldOf written.1 "proxies" = some (.seq items) ∧
    List.Forall₂ (fun item id => ∃ row ∈ rows, row.id = id ∧ ∃ ip,
      fieldOf item "server" = some (.str (printIp ip)) ∧
        AcceptedFor resolve false rows row.host ip ∧ checkIp false ip = none) items written.2

theorem batch_subset (rows : List ProxyRow) :
    ∀ row ∈ (vetBatch resolve allowPrivate rows).batch, row ∈ rows := by
  have hfold : ∀ (judged : List (ProxyRow × Except Text (List IpAddr))) (v : Vetted),
      ∀ row ∈ (judged.foldl admitRow v).batch, row ∈ v.batch ∨ row ∈ judged.map (·.1) := by
    intro judged
    induction judged with
    | nil => exact fun v row h => .inl h
    | cons j judged ih =>
      intro v row h
      rcases ih _ row h with hadmitted | htail
      · obtain ⟨other, verdict⟩ := j
        cases verdict with
        | error reason => exact .inl hadmitted
        | ok vetted =>
          rcases List.mem_append.mp hadmitted with hold | hnew
          · exact .inl hold
          · exact .inr (by simp [List.mem_singleton.mp hnew])
      · exact .inr (List.mem_cons_of_mem _ htail)
  intro row h
  rcases hfold _ _ row h with hnil | hjudged
  · exact absurd hnil List.not_mem_nil
  · obtain ⟨j, hj, rfl⟩ := List.mem_map.mp hjudged
    exact (List.of_mem_zip hj).1

theorem writtenConfig_names {engine : Engine} {written : Yaml × List ℕ}
    (h : writtenConfig yaml json engine (vetBatch resolve false rows) = some written) :
    NamesAccepted resolve rows written := by
  rw [writtenConfig] at h
  split_ifs at h
  obtain rfl := Option.some.inj h
  have hpinned := @pinned_vetBatch resolve false rows
  refine ⟨_, rfl, (forall₂_generated _).imp fun item id hitem => ?_⟩
  obtain ⟨row, hrow, hid, hvalue⟩ := hitem
  obtain ⟨ip, hpin⟩ := Option.isSome_iff_exists.mp (hpinned.batch row hrow)
  have haccepted := hpinned.pins row.host ip hpin
  obtain ⟨i, other, vetted, -, -, hvetting, hmem⟩ := haccepted
  obtain ⟨-, hanswers, hpolicy⟩ := vetProbeHostAddrs_ok hvetting
  exact ⟨row, batch_subset rows row hrow, hid, ip, server_of_pinned hvalue hpin,
    hpinned.pins row.host ip hpin, hpolicy ip (hanswers ip hmem)⟩

end Pins

/-- With private targets off: a host is refused exactly when it has a blocked answer or none, and an
accepted one has accepted answers only; no IPv6 form hides a blocked IPv4 address; and every
document that one of the two lanes writes names accepted addresses. -/
theorem no_blocked_address_dialled (yaml : SerdeNorway) (json : SerdeJson) (engine : Engine) :
    (∀ resolve host, (∃ reason, vetProbeHostAddrs resolve false host = .error reason) ↔
      (∃ ip, Answers resolve host ip ∧ checkIp false ip ≠ none) ∨
        ∀ ip, ¬ Answers resolve host ip) ∧
      (∀ resolve host out, vetProbeHostAddrs resolve false host = .ok out →
        out ≠ [] ∧ ∀ ip ∈ out, Answers resolve host ip ∧ checkIp false ip = none) ∧
      (∀ high low segments, Carries high low segments → checkEmbedded high low ≠ none →
        checkIp false (.v6 segments) ≠ none) ∧
      (∀ resolve candidates alreadyChecked written,
        probeT2Batch yaml json engine resolve false candidates alreadyChecked = some written →
          NamesAccepted resolve ((candidates.filter fun row =>
            !alreadyChecked.contains row.id).filter fun row => isSupported row.scheme) written) ∧
      ∀ resolve due written,
        reviveQuarantinedViaT2 yaml json engine resolve false due = some written →
          NamesAccepted resolve due written := by
  refine ⟨fun resolve host => vetProbeHostAddrs_refused_iff, ?_,
    fun high low segments h hblocked => checkIp_carried h hblocked, ?_, ?_⟩
  · intro resolve host out hout
    obtain ⟨hne, hanswers, hpolicy⟩ := vetProbeHostAddrs_ok hout
    exact ⟨hne, fun ip hip => ⟨hanswers ip hip, hpolicy ip (hanswers ip hip)⟩⟩
  · intro resolve candidates alreadyChecked written h
    rw [probeT2Batch] at h
    split_ifs at h
    exact writtenConfig_names h
  · intro resolve due written h
    rw [reviveQuarantinedViaT2] at h
    split_ifs at h
    exact writtenConfig_names h

section Samples

def sampleEngine : Engine := ⟨false, true, true⟩

/-- Two rows share a name, the third is a literal, and the name of the last one has no address. -/
def sampleRows : List ProxyRow :=
  [sampleRow "h", { sampleRow "h" with id := 2 }, { sampleRow "2606:4700::1111" with id := 3 },
    { sampleRow "gone" with id := 4 }]

def sampleResolver : Resolver := fun _ host =>
  if host = "h" then .ok [sampleAddress] else .error []

theorem no_blocked_address_dialled_sample : ∃ written,
    probeT2Batch noYaml noJson sampleEngine sampleResolver false sampleRows [] = some written ∧
      written.2 = [1, 2, 3] ∧ NamesAccepted sampleResolver sampleRows written := by
  have hids : (probeT2Batch noYaml noJson sampleEngine sampleResolver false sampleRows []).map
      (·.2) = some [1, 2, 3] := by decide +kernel
  obtain ⟨written, hwritten, hids⟩ := Option.map_eq_some_iff.mp hids
  have hnames := (no_blocked_address_dialled noYaml noJson sampleEngine).2.2.2.1 sampleResolver
    sampleRows [] written hwritten
  exact ⟨written, hwritten, hids, hnames⟩

end Samples

end BatchVetting
