import Fumox.AddressText
import Fumox.PipelineConfig
import Fumox.ProxyFingerprint
import Fumox.RankedPrefix

/-!
The run of a compiled pipeline: the steps on the candidates of one source, and the dedup, sort and
cap of a list.
-/

namespace PipelineSteps

open RustText ProxyModels ProxyFingerprint PipelineConfig AddressText RankedPrefix

structure Candidate where
  entry : ProxyEntry
  sourcePosition : ℕ
  status : ProxyStatus
  latencyMs : Option ℤ
  geoCountry : Option Text
  geoAsn : Option Text
  deriving DecidableEq, Repr

structure GeoInfo where
  countryCode : Option Text := none
  countryName : Option Text := none
  cityName : Option Text := none
  asn : Option ℕ := none
  asnOrg : Option Text := none
  deriving DecidableEq, Repr

/-- The lookup behind the resolver, when a database is open. -/
structure GeoResolver where
  backends : Option (Text → Option GeoInfo)

def GeoResolver.isActive (geo : GeoResolver) : Bool := geo.backends.isSome

def GeoResolver.resolve (geo : GeoResolver) (host : Text) : Option GeoInfo :=
  geo.backends.bind fun lookup => lookup host

/-- `str::replace`; the counter runs over the characters of a match. -/
def replaceFrom (pattern new : Text) : Text → ℕ → Text
  | [], _ => []
  | _ :: t, skip + 1 => replaceFrom pattern new t skip
  | c :: t, 0 =>
    if pattern.isPrefixOf (c :: t) then new ++ replaceFrom pattern new t (pattern.length - 1)
    else c :: replaceFrom pattern new t 0

def replace (pattern new t : Text) : Text :=
  replaceFrom pattern new t 0

def toAsciiUppercase (t : Text) : Text :=
  t.map Char.toUpper

def flagEmoji (isoCode : Text) : Option Text :=
  let code := toAsciiUppercase (trim isoCode)
  if code.length = 2 ∧ code.all Char.isUpper then
    some (code.map fun c => Char.ofNat (0x1F1E6 + (c.toNat - 'A'.toNat)))
  else none

def collapseWhitespace (t : Text) : Text :=
  trim (go false t)
where
  go : Bool → Text → Text
    | _, [] => []
    | prevSpace, c :: t =>
      if isWhitespace c then if prevSpace then go true t else ' ' :: go true t
      else c :: go false t

def applyTemplate (template : Text) (geo : GeoInfo) (name : Text) : Text :=
  if geo.countryCode = none ∧ geo.cityName = none ∧ geo.asn = none then name
  else
    let flag := (geo.countryCode.bind flagEmoji).getD []
    let country := (geo.countryName.or geo.countryCode).getD []
    let city := geo.cityName.getD []
    let asnOrg := geo.asnOrg.getD []
    let asn := geo.asn.elim [] fun n => 'A' :: 'S' :: decimal n
    let rendered := replace "\x7bflag\x7d" flag template
    let rendered := replace "\x7bcountry\x7d" country rendered
    let rendered := replace "\x7bcity\x7d" city rendered
    let rendered := replace "\x7basn_org\x7d" asnOrg rendered
    let rendered := replace "\x7basn\x7d" asn rendered
    collapseWhitespace (replace "\x7bname\x7d" name rendered)

section Rules

variable (engines : Engines)

def matchesTarget (entry : ProxyEntry) (regex : engines.Regex) : RenameTarget → Bool
  | .name => engines.isMatch regex entry.name
  | .host => engines.isMatch regex entry.host
  | .port => engines.isMatch regex (decimal entry.port.toNat)
  | .param key => entry.params.any fun p =>
      eqIgnoreAsciiCase p.key key && engines.isMatch regex p.value

def dropMatches (c : Candidate) : CompiledDrop engines.Regex → Bool
  | .regex regex target => matchesTarget engines c.entry regex target
  | .asn asns => (c.geoAsn.bind asnNumber).any asns.contains

/-- A host that survives the output verbatim: a plain IPv6 literal, or no delimiter at all. -/
def validRewrittenHost (host : Text) : Bool :=
  match readIpv6 host with
  | some (_, []) => true
  | _ => host ≠ [] && !host.any fun c => ['/', '?', '#', '@', '[', ']', ':', '%'].contains c ||
      isWhitespace c

/-- The first parameter with the key, in any letter case, is rewritten. -/
def rewriteParam (key : Text) (rewritten : Text → Text) : List Param → List Param
  | [] => []
  | p :: rest =>
    if eqIgnoreAsciiCase p.key key then { p with value := rewritten p.value } :: rest
    else p :: rewriteParam key rewritten rest

def applyRenameRule (entry : ProxyEntry) (rule : CompiledRename engines.Regex) : ProxyEntry :=
  let rewritten := fun value => engines.replaceAll rule.regex value rule.replace
  match rule.target with
  | .name => { entry with name := rewritten entry.name }
  | .host =>
    let host := rewritten entry.host
    if validRewrittenHost host then { entry with host := host } else entry
  | .port =>
    match parseU16 (rewritten (decimal entry.port.toNat)) with
    | some port => { entry with port := port }
    | none => entry
  | .param key => { entry with params := rewriteParam key rewritten entry.params }

end Rules

structure Environment where
  engines : Engines
  sha256 : List UInt8 → List UInt8
  toLowercase : Text → Text
  geo : GeoResolver

abbrev Pipeline (env : Environment) := CompiledPipeline env.engines.Regex

section Run

variable (env : Environment)

def fillMissingAsn (c : Candidate) : Candidate :=
  if c.geoAsn.isSome then c
  else
    match (env.geo.resolve c.entry.host).bind (·.asn) with
    | some asn => { c with geoAsn := some ('A' :: 'S' :: decimal asn) }
    | none => c

def enrich (template : Text) (c : Candidate) : Candidate :=
  match env.geo.resolve c.entry.host with
  | some info =>
    { c with entry := { c.entry with name := applyTemplate template info c.entry.name }
             geoCountry := info.countryCode }
  | none => c

def applyPerSource (pipeline : Pipeline env) (candidates : List Candidate) : List Candidate :=
  let kept := candidates.filter fun c =>
    pipeline.filterProtocols.all (·.contains c.entry.scheme) &&
      pipeline.excludeProtocols.all (!·.contains c.entry.scheme)
  let filled := kept.map (fillMissingAsn env)
  let kept := filled.filter fun c =>
    pipeline.filterAsns.all (fun allowed => (c.geoAsn.bind asnNumber).any allowed.contains) &&
      pipeline.excludeAsns.all (fun excluded =>
        (c.geoAsn.bind asnNumber).all fun asn => !excluded.contains asn)
  let secure := kept.filter fun c =>
    !pipeline.forbidInsecure || !c.entry.params.any isInsecureParam
  let kept := secure.filter fun c => !pipeline.drop.any (dropMatches env.engines c)
  let renamed := kept.map fun c =>
    { c with entry := pipeline.rename.foldl (applyRenameRule env.engines) c.entry }
  let enriched := if pipeline.geoEnabled && env.geo.isActive then
    renamed.map (enrich env pipeline.geoTemplate) else renamed
  enriched.filter fun c => !pipeline.excludeStatuses.contains c.status

def candidateKey (c : Candidate) : Text :=
  fingerprint env.sha256 c.entry

/-- The comparison of the sort keys. Unknown latencies go last in both directions. -/
def sortLe (sortBy : SortBy) (desc : Bool) (a b : Candidate) : Bool :=
  match sortBy with
  | .source => a.sourcePosition ≤ b.sourcePosition
  | .name => env.toLowercase a.entry.name ≤ env.toLowercase b.entry.name
  | .country => a.geoCountry.getD [] ≤ b.geoCountry.getD []
  | .latency =>
    match a.latencyMs, b.latencyMs with
    | some x, some y => if desc then y ≤ x else x ≤ y
    | some _, none => true
    | none, some _ => false
    | none, none => true

/-- Every descending sort but the one by latency is a reversed ascending one. -/
def reverses (sortBy : SortBy) (desc : Bool) : Bool :=
  desc && sortBy != .latency

def sort (pipeline : Pipeline env) (candidates : List Candidate) : List Candidate :=
  ranked (sortLe env pipeline.sortBy pipeline.sortDesc)
    (reverses pipeline.sortBy pipeline.sortDesc) candidates

def truncate (limit : Option ℕ) (candidates : List Candidate) : List Candidate :=
  match limit with
  | none => candidates
  | some n => candidates.take n

def finalize (pipeline : Pipeline env) (candidates : List Candidate) : List Candidate :=
  truncate pipeline.limitCount
    (sort env pipeline (firstCopies (candidateKey env) [] candidates))

def apply (pipeline : Pipeline env) (candidates : List Candidate) : List Candidate :=
  finalize env pipeline (applyPerSource env pipeline candidates)

end Run

section Order

variable {env : Environment} {sortBy : SortBy} {desc : Bool}

theorem sortLe_total (a b : Candidate) :
    sortLe env sortBy desc a b = true ∨ sortLe env sortBy desc b a = true := by
  cases sortBy with
  | source => simpa [sortLe] using le_total a.sourcePosition b.sourcePosition
  | name => simpa [sortLe] using
      le_total (env.toLowercase a.entry.name) (env.toLowercase b.entry.name)
  | country => simpa [sortLe] using le_total (a.geoCountry.getD []) (b.geoCountry.getD [])
  | latency =>
    unfold sortLe
    cases a.latencyMs with
    | none => cases b.latencyMs <;> simp
    | some x =>
      cases b.latencyMs with
      | none => exact .inl rfl
      | some y =>
        cases desc
        · simpa using le_total x y
        · simpa using le_total y x

theorem sortLe_trans (a b c : Candidate) (hab : sortLe env sortBy desc a b = true)
    (hbc : sortLe env sortBy desc b c = true) : sortLe env sortBy desc a c = true := by
  cases sortBy with
  | source =>
    simp only [sortLe, decide_eq_true_eq] at hab hbc ⊢
    exact le_trans hab hbc
  | name =>
    simp only [sortLe, decide_eq_true_eq] at hab hbc ⊢
    exact le_trans hab hbc
  | country =>
    simp only [sortLe, decide_eq_true_eq] at hab hbc ⊢
    exact le_trans hab hbc
  | latency =>
    unfold sortLe at hab hbc ⊢
    cases hc : c.latencyMs with
    | none =>
      cases a.latencyMs <;> rfl
    | some z =>
      cases hb : b.latencyMs with
      | none =>
        rw [hb, hc] at hbc
        cases hbc
      | some y =>
        cases ha : a.latencyMs with
        | none =>
          rw [ha, hb] at hab
          cases hab
        | some x =>
          rw [ha, hb] at hab
          rw [hb, hc] at hbc
          cases desc
          · simp only [decide_eq_true_eq, Bool.false_eq_true, if_false] at hab hbc ⊢
            exact le_trans hab hbc
          · simp only [decide_eq_true_eq, if_true] at hab hbc ⊢
            exact le_trans hbc hab

theorem pairwise_sort {pipeline : Pipeline env} {candidates : List Candidate}
    (h : candidates.Nodup) :
    (sort env pipeline candidates).Pairwise
      (Ahead (sortLe env pipeline.sortBy pipeline.sortDesc)
        (reverses pipeline.sortBy pipeline.sortDesc) candidates) :=
  pairwise_ranked sortLe_total sortLe_trans h

end Order

end PipelineSteps
