import Fumox.EncodedPayload
import Fumox.ItemList
import Fumox.PipelineSteps
import Fumox.UrlRecord

/-!
URLs on their way into a log or an error text: the user name and the password are dropped, and the
values of credential-bearing query pairs are masked.
-/

namespace UrlRedaction

open RustText PercentText UrlRecord PipelineSteps SubscriptionParser EncodedPayload

def sensitiveQueryParams : List Text := ["token", "key", "auth", "secret", "pass"]

def isSensitiveParam (name : Text) : Bool :=
  sensitiveQueryParams.any fun stem => contains stem (toAsciiLowercase name)

def redactPair (pair : Text) : Text :=
  match splitOnce '=' pair with
  | some (name, _) => if isSensitiveParam name then name ++ "=[redacted]" else pair
  -- a bare name carries no value
  | none => pair

def redactQuery (query : Text) : Text :=
  ['&'].intercalate ((query.splitOn '&').map redactPair)

def redactUrl (parse : Text → Option Url) (url : Text) : Text :=
  match parse url with
  | some parsed =>
    let parsed := (parsed.setUsername []).setPassword none
    match parsed.query with
    | some query => (parsed.setQuery (redactQuery query)).serialize
    | none => parsed.serialize
  | none => url

structure Warning where
  url : Text
  reason : Option Text := none
  message : Text
  deriving DecidableEq, Repr

def blockedWarning (parse : Text → Option Url) (current reason : Text) : Warning :=
  ⟨redactUrl parse current, some reason, "SSRF protection blocked the fetch"⟩

def withheldWarning (parse : Text → Option Url) (current : Text) : Warning :=
  ⟨redactUrl parse current, none, "redirect left the configured origin, source headers withheld"⟩

/-- An error of the HTTP client, whose text ends in the URL that it was about. -/
structure RequestError where
  description : Text
  url : Option Url := none

def RequestError.text (error : RequestError) : Text :=
  error.description ++ error.url.elim [] fun url =>
    (" for url (" : Text) ++ url.serialize ++ [')']

def redactedRequestError (parse : Text → Option Url) (error : RequestError) : Text :=
  match error.url with
  | some url => replace url.serialize (redactUrl parse url.serialize) error.text
  | none => error.text

section Redacted

variable {parse : Text → Option Url} {u : Url} {text : Text}

theorem mem_redactPair {pair : Text} {c : Char} (hc : c ∈ redactPair pair) :
    c ∈ pair ∨ c ∈ ("=[redacted]" : Text) := by
  unfold redactPair at hc
  split at hc
  next name value hsplit =>
    split_ifs at hc
    · obtain ⟨rfl, -⟩ := splitOnce_eq_some hsplit
      rcases List.mem_append.mp hc with hc | hc
      · exact .inl (List.mem_append_left _ hc)
      · exact .inr hc
    · exact .inl hc
  next => exact .inl hc

theorem mem_of_mem_splitOn {sep c : Char} {t pair : Text} (hpair : pair ∈ t.splitOn sep)
    (hc : c ∈ pair) : c ∈ t := by
  have hjoin : [sep].intercalate (t.splitOn sep) = t := List.intercalate_splitOn sep
  rw [← hjoin]
  generalize t.splitOn sep = pairs at hpair
  induction pairs with
  | nil => cases hpair
  | cons p pairs ih =>
    cases pairs with
    | nil =>
      rw [List.mem_singleton.mp hpair] at hc
      simpa using hc
    | cons q pairs =>
      rw [List.intercalate_cons_cons]
      rcases List.mem_cons.mp hpair with rfl | hpair
      · exact List.mem_append_left _ (List.mem_append_left _ hc)
      · exact List.mem_append_right _ (ih hpair)

theorem plain_redactQuery {scheme query : Text}
    (h : ∀ c ∈ query, querySetOf scheme c = false) :
    ∀ c ∈ redactQuery query, querySetOf scheme c = false := by
  have hmark : ∀ c ∈ ("=[redacted]&" : Text), querySetOf scheme c = false := fun c hc =>
    querySetOf_of_querySet ((by decide : ∀ c ∈ ("=[redacted]&" : Text), specialQuerySet c = false)
      c hc)
  intro c hc
  rcases DelimitedText.mem_intercalate hc with hc | ⟨pair, hpair, hc⟩
  · exact hmark c (by rw [List.mem_singleton.mp hc]; decide)
  · obtain ⟨written, hwritten, rfl⟩ := List.mem_map.mp hpair
    rcases mem_redactPair hc with hc | hc
    · exact h c (mem_of_mem_splitOn hwritten hc)
    · exact hmark c (List.mem_append_left ['&'] hc)

theorem redactUrl_eq (hparse : parse text = some u) (hstandard : Standard u) :
    redactUrl parse text =
      { u with username := [], password := [], query := u.query.map redactQuery }.serialize := by
  unfold redactUrl
  rw [hparse]
  dsimp only
  rw [hstandard.remove_credentials]
  cases hquery : u.query with
  | none => rfl
  | some query =>
    have hplain := plain_redactQuery (hstandard.query query hquery)
    have hset := setQuery_eq
      (u := { u with username := [], password := [], query := some query }) hplain
    exact congrArg Url.serialize hset

theorem not_prefix_of_colon {pattern t : Text} (hpattern : ':' ∈ pattern) (ht : ':' ∉ t) :
    pattern.isPrefixOf t = false := by
  rw [Bool.eq_false_iff]
  intro hprefix
  obtain ⟨rest, rfl⟩ := List.isPrefixOf_iff_prefix.mp hprefix
  exact ht (List.mem_append_left _ hpattern)

theorem replaceFrom_plain {pattern new t : Text} (hpattern : ':' ∈ pattern) (ht : ':' ∉ t) :
    replaceFrom pattern new t 0 = t := by
  induction t with
  | nil => rfl
  | cons c t ih =>
    rw [replaceFrom, not_prefix_of_colon hpattern ht, if_neg Bool.false_ne_true,
      ih (List.not_mem_of_not_mem_cons ht)]

theorem replaceFrom_skip {pattern new s t : Text} :
    replaceFrom pattern new (s ++ t) s.length = replaceFrom pattern new t 0 := by
  induction s with
  | nil => rfl
  | cons c s ih => rw [List.cons_append, List.length_cons, replaceFrom, ih]

/-- A pattern with a colon first occurs where the first colon of the text allows it. -/
theorem not_prefix_before {pattern before after : Text} {c : Char} (hpattern : ':' ∈ pattern)
    (hbefore : ':' ∉ c :: before) :
    pattern.isPrefixOf (c :: before ++ (pattern ++ after)) = false := by
  rw [Bool.eq_false_iff]
  intro hprefix
  obtain ⟨rest, hrest⟩ := List.isPrefixOf_iff_prefix.mp hprefix
  obtain ⟨a, b, rfl, ha⟩ := List.eq_append_cons_of_mem hpattern
  have hfirst := splitOnce_append (b := b ++ rest) ha
  have hlater : ':' ∉ c :: before ++ a := by
    rw [List.mem_append, not_or]
    exact ⟨hbefore, ha⟩
  have hsecond := splitOnce_append (b := b ++ after) hlater
  have hsame : a ++ ':' :: (b ++ rest) = c :: before ++ a ++ ':' :: (b ++ after) := by
    simpa using hrest
  rw [hsame, hsecond] at hfirst
  have hlength := congrArg List.length (Prod.mk.inj (Option.some_inj.mp hfirst)).1
  rw [List.length_append, List.length_cons] at hlength
  omega

theorem replace_only {pattern new before after : Text} (hpattern : ':' ∈ pattern)
    (hbefore : ':' ∉ before) (hafter : ':' ∉ after) :
    replace pattern new (before ++ (pattern ++ after)) = before ++ (new ++ after) := by
  unfold replace
  induction before with
  | nil =>
    obtain ⟨c, rest, hcons⟩ := List.exists_cons_of_ne_nil (List.ne_nil_of_mem hpattern)
    have hprefix : pattern.isPrefixOf (c :: (rest ++ after)) = true := by
      rw [List.isPrefixOf_iff_prefix, ← List.cons_append, ← hcons]
      exact List.prefix_append _ _
    have hlength : pattern.length - 1 = rest.length := by
      rw [hcons]
      rfl
    rw [List.nil_append, List.nil_append]
    conv_lhs => rw [hcons, List.cons_append]
    rw [← hcons, replaceFrom, hprefix, if_pos rfl, hlength, replaceFrom_skip,
      replaceFrom_plain hpattern hafter]
  | cons c before ih =>
    rw [List.cons_append, replaceFrom, ← List.cons_append, not_prefix_before hpattern hbefore,
      if_neg Bool.false_ne_true, ih (List.not_mem_of_not_mem_cons hbefore)]
    rfl

theorem redactedRequestError_eq {description : Text} (hdescription : ':' ∉ description) :
    redactedRequestError parse ⟨description, some u⟩ =
      description ++ (" for url (" ++ (redactUrl parse u.serialize ++ [')'])) := by
  have hprefix : ':' ∉ description ++ (" for url (" : Text) := by
    rw [List.mem_append, not_or]
    exact ⟨hdescription, by decide⟩
  have htext : RequestError.text ⟨description, some u⟩ =
      (description ++ (" for url (" : Text)) ++ (u.serialize ++ [')']) := by
    unfold RequestError.text
    rw [Option.elim_some, List.append_assoc, List.append_assoc]
  unfold redactedRequestError
  dsimp only
  rw [htext, replace_only colon_mem_serialize hprefix (by decide), List.append_assoc]

end Redacted

section Secrets

/-- The name decodes to one that holds a credential stem. -/
def NamesSecret (name : Text) : Prop := isSensitiveParam (percentDecode name) = true

/-- Two query pairs with one name, the same but for the value of a secret. -/
inductive SecretPair : Text → Text → Prop
  | same (pair : Text) : SecretPair pair pair
  | value {name : Text} (value value' : Text) : '=' ∉ name → NamesSecret name →
      SecretPair (name ++ '=' :: value) (name ++ '=' :: value')

/-- Two queries of the same pairs, up to the values of secrets. -/
def SecretQueries (query query' : Text) : Prop :=
  List.Forall₂ SecretPair (query.splitOn '&') (query'.splitOn '&')

/-- Two URLs that differ only in user name and password and in the values of secret pairs. -/
structure DifferInSecrets (u v : Url) : Prop where
  scheme : u.scheme = v.scheme
  host : u.host = v.host
  port : u.port = v.port
  path : u.path = v.path
  fragment : u.fragment = v.fragment
  query : Option.Rel SecretQueries u.query v.query

def pairName (pair : Text) : Text := pair.takeWhile (· != '=')

/-- A pair whose values differ has a stem in its name as it is written. -/
def WrittenStem (pair pair' : Text) : Prop :=
  pair ≠ pair' → isSensitiveParam (pairName pair) = true

def WrittenStems (query query' : Text) : Prop :=
  List.Forall₂ WrittenStem (query.splitOn '&') (query'.splitOn '&')

def StemsWritten (u v : Url) : Prop := Option.Rel WrittenStems u.query v.query

/-- What is logged and journaled about two URLs is the same. -/
structure SameTexts (parse : Text → Option Url) (text text' : Text) (u v : Url) : Prop where
  url : redactUrl parse text = redactUrl parse text'
  blocked : ∀ reason, blockedWarning parse text reason = blockedWarning parse text' reason
  withheld : withheldWarning parse text = withheldWarning parse text'
  error : ∀ description, ':' ∉ description →
    redactedRequestError parse ⟨description, some u⟩ =
      redactedRequestError parse ⟨description, some v⟩

variable {parse : Text → Option Url} {u v : Url} {text text' : Text} {pair pair' : Text}

theorem pairName_eq {name value : Text} (h : '=' ∉ name) :
    pairName (name ++ '=' :: value) = name := by
  have hall : ∀ c ∈ name, (c != '=') = true := fun c hc => bne_iff_ne.mpr fun heq => h (heq ▸ hc)
  unfold pairName
  rw [List.takeWhile_append_of_pos hall, List.takeWhile_cons_of_neg (by decide), List.append_nil]

theorem redactPair_value {name value : Text} (h : '=' ∉ name) :
    redactPair (name ++ '=' :: value) =
      if isSensitiveParam name then name ++ "=[redacted]" else name ++ '=' :: value := by
  unfold redactPair
  rw [splitOnce_append h]

theorem redactPair_eq_iff (h : SecretPair pair pair') :
    redactPair pair = redactPair pair' ↔ WrittenStem pair pair' := by
  unfold WrittenStem
  cases h with
  | same => exact ⟨fun _ hne => absurd rfl hne, fun _ => rfl⟩
  | value value value' hname hsecret =>
    rw [redactPair_value hname, redactPair_value hname, pairName_eq hname]
    split_ifs with hwritten
    · exact ⟨fun _ _ => hwritten, fun _ => rfl⟩
    · exact ⟨fun heq hne => absurd heq hne, fun h => by_contra fun hne => hwritten (h hne)⟩

theorem amp_notMem_redactPair (h : '&' ∉ pair) : '&' ∉ redactPair pair := by
  intro hmem
  rcases mem_redactPair hmem with hmem | hmem
  · exact h hmem
  · exact absurd hmem (by decide)

theorem redactQuery_eq_iff {query query' : Text} : redactQuery query = redactQuery query' ↔
    (query.splitOn '&').map redactPair = (query'.splitOn '&').map redactPair := by
  have hpieces : ∀ q : Text, ∀ piece ∈ (q.splitOn '&').map redactPair, '&' ∉ piece := by
    intro q piece hpiece
    obtain ⟨written, hwritten, rfl⟩ := List.mem_map.mp hpiece
    exact amp_notMem_redactPair (ItemList.not_mem_of_mem_splitOn hwritten)
  have hne : ∀ q : Text, (q.splitOn '&').map redactPair ≠ [] := by
    intro q hnil
    exact List.splitOn_ne_nil _ _ (List.map_eq_nil_iff.mp hnil)
  constructor
  · intro h
    unfold redactQuery at h
    rw [← List.splitOn_intercalate '&' (hpieces query) (hne query), h,
      List.splitOn_intercalate '&' (hpieces query') (hne query')]
  · intro h
    unfold redactQuery
    rw [h]

theorem forall₂_map_eq_iff {α β : Type*} {R S : α → α → Prop} {f : α → β} {l m : List α}
    (h : List.Forall₂ R l m) (hiff : ∀ a b, R a b → (f a = f b ↔ S a b)) :
    l.map f = m.map f ↔ List.Forall₂ S l m := by
  induction h with
  | nil => simp
  | cons hab _ ih => rw [List.map_cons, List.map_cons, List.cons.injEq, hiff _ _ hab, ih,
      List.forall₂_cons]

theorem redactUrl_eq_iff (hreading : Reading parse) (hu : parse text = some u)
    (hv : parse text' = some v) (hdiffer : DifferInSecrets u v) :
    redactUrl parse text = redactUrl parse text' ↔ StemsWritten u v := by
  have hsame : { v with username := [], password := [], query := v.query.map redactQuery } =
      { u with username := [], password := [], query := v.query.map redactQuery } := by
    rw [hdiffer.scheme, hdiffer.host, hdiffer.port, hdiffer.path, hdiffer.fragment]
  have hquery := hdiffer.query
  rw [redactUrl_eq hu (hreading.standard _ _ hu), redactUrl_eq hv (hreading.standard _ _ hv), hsame]
  unfold StemsWritten
  have hiff : { u with
        username := [], password := [], query := u.query.map redactQuery }.serialize =
      { u with username := [], password := [], query := v.query.map redactQuery }.serialize ↔
        u.query.map redactQuery = v.query.map redactQuery :=
    ⟨serialize_query_inj (u := { u with username := [], password := [] }), fun heq => by rw [heq]⟩
  rw [hiff]
  cases hqu : u.query with
  | none =>
    rw [hqu] at hquery
    cases hqv : v.query with
    | none => exact ⟨fun _ => .none, fun _ => rfl⟩
    | some query' =>
      rw [hqv] at hquery
      cases hquery
  | some query =>
    rw [hqu] at hquery
    cases hqv : v.query with
    | none =>
      rw [hqv] at hquery
      cases hquery
    | some query' =>
      rw [hqv] at hquery
      have hpairs : SecretQueries query query' := Option.rel_some_some.mp hquery
      unfold SecretQueries at hpairs
      rw [Option.rel_some_some]
      unfold WrittenStems
      rw [← forall₂_map_eq_iff hpairs fun _ _ => redactPair_eq_iff,
        ← redactQuery_eq_iff]
      exact Option.some_inj

/-- The texts about two URLs that differ in secrets are the same exactly when every pair that
differs has a stem in its name as it is written. -/
theorem sameTexts_iff (hreading : Reading parse) (hu : parse text = some u)
    (hv : parse text' = some v) (hdiffer : DifferInSecrets u v) :
    SameTexts parse text text' u v ↔ StemsWritten u v := by
  constructor
  · exact fun h => (redactUrl_eq_iff hreading hu hv hdiffer).mp h.url
  · intro hwritten
    have hurl := (redactUrl_eq_iff hreading hu hv hdiffer).mpr hwritten
    have hurl' := (redactUrl_eq_iff hreading (hreading.serialize _ _ hu)
      (hreading.serialize _ _ hv) hdiffer).mpr hwritten
    refine ⟨hurl, fun reason => ?_, ?_, fun description hdescription => ?_⟩
    · unfold blockedWarning
      rw [hurl]
    · unfold withheldWarning
      rw [hurl]
    · rw [redactedRequestError_eq hdescription, redactedRequestError_eq hdescription, hurl']

end Secrets

section Subscription

def parseOnly (urls : List Url) (text : Text) : Option Url :=
  urls.find? fun u => decide (u.serialize = text)

theorem mem_of_parseOnly {urls : List Url} {text : Text} {u : Url}
    (h : parseOnly urls text = some u) : u ∈ urls :=
  List.mem_of_find?_eq_some h

theorem reading_parseOnly {urls : List Url} (h : ∀ u ∈ urls, Standard u) :
    Reading (parseOnly urls) := by
  refine ⟨fun text u hu => h u (mem_of_parseOnly hu), fun text u hu => ?_⟩
  have htext : u.serialize = text := by
    have hfound := List.find?_some hu
    exact of_decide_eq_true hfound
  rwa [htext]

def subscription (username query : Text) : Url where
  scheme := "https"
  username := username
  host := some (.domain "example.com")
  path := "/sub"
  query := some query

theorem standard_subscription {username query : Text}
    (h : ∀ c ∈ query, specialQuerySet c = false) : Standard (subscription username query) where
  credentials := by
    intro hcannot
    have hcases := of_decide_eq_true hcannot
    rcases hcases with hnone | hempty | hfile
    · cases hnone
    · have hname : ("example.com" : Text) = [] := Host.domain.inj (Option.some_inj.mp hempty)
      exact absurd hname (by decide)
    · have hscheme : ("https" : Text) = "file" := hfile
      exact absurd hscheme (by decide)
  query := by
    rintro _ ⟨⟩ c hc
    exact querySetOf_of_querySet (h c hc)

theorem differ_subscription {username username' query query' : Text}
    (h : SecretQueries query query') :
    DifferInSecrets (subscription username query) (subscription username' query') :=
  ⟨rfl, rfl, rfl, rfl, rfl, .some h⟩

theorem written_subscription {username username' query query' : Text}
    (h : WrittenStems query query') :
    StemsWritten (subscription username query) (subscription username' query') :=
  .some h

def plainA : Url := subscription "alice" "token=A&page=2"

def plainB : Url := subscription [] "token=B&page=2"

def encodedA : Url := subscription [] "t%6Fken=A"

def encodedB : Url := subscription [] "t%6Fken=B"

theorem reading_plain : Reading (parseOnly [plainA, plainB]) := by
  refine reading_parseOnly fun u hu => ?_
  rcases List.mem_cons.mp hu with rfl | hu
  · exact standard_subscription (by decide)
  · rw [List.mem_singleton.mp hu]
    exact standard_subscription (by decide)

theorem reading_encoded : Reading (parseOnly [encodedA, encodedB]) := by
  refine reading_parseOnly fun u hu => ?_
  rcases List.mem_cons.mp hu with rfl | hu
  · exact standard_subscription (by decide)
  · rw [List.mem_singleton.mp hu]
    exact standard_subscription (by decide)

end Subscription

theorem sameTexts_token : SameTexts (parseOnly [plainA, plainB]) plainA.serialize plainB.serialize
    plainA plainB := by
  have hsplitA : ("token=A&page=2" : Text).splitOn '&' = ["token=A", "page=2"] := by
    decide +kernel
  have hsplitB : ("token=B&page=2" : Text).splitOn '&' = ["token=B", "page=2"] := by
    decide +kernel
  have htoken : SecretPair "token=A" "token=B" :=
    @SecretPair.value "token" "A" "B" (by decide) (by unfold NamesSecret; decide +kernel)
  have hpairs : SecretQueries "token=A&page=2" "token=B&page=2" := by
    unfold SecretQueries
    rw [hsplitA, hsplitB]
    exact .cons htoken (.cons (.same "page=2") .nil)
  have hstems : WrittenStems "token=A&page=2" "token=B&page=2" := by
    unfold WrittenStems
    rw [hsplitA, hsplitB]
    exact .cons (fun _ => by decide +kernel) (.cons (fun hne => absurd rfl hne) .nil)
  have hdiffer : DifferInSecrets plainA plainB := differ_subscription hpairs
  exact (sameTexts_iff reading_plain (by decide +kernel) (by decide +kernel) hdiffer).mpr
    (written_subscription hstems)

/-- A name that is percent-encoded hides its stem from the check. -/
theorem encoded_name_leaks : ¬∀ (parse : Text → Option Url) (text text' : Text) (u v : Url),
    Reading parse → parse text = some u → parse text' = some v → DifferInSecrets u v →
      SameTexts parse text text' u v := by
  intro h
  have htoken : SecretPair "t%6Fken=A" "t%6Fken=B" :=
    @SecretPair.value "t%6Fken" "A" "B" (by decide) (by unfold NamesSecret; decide +kernel)
  have hpairs : SecretQueries "t%6Fken=A" "t%6Fken=B" := by
    unfold SecretQueries
    rw [List.splitOn_eq_singleton (by decide), List.splitOn_eq_singleton (by decide)]
    exact .cons htoken .nil
  have hdiffer : DifferInSecrets encodedA encodedB := differ_subscription hpairs
  have hsame := h (parseOnly [encodedA, encodedB]) encodedA.serialize encodedB.serialize encodedA
    encodedB reading_encoded (by decide +kernel) (by decide +kernel) hdiffer
  exact absurd hsame.url (by decide +kernel)

end UrlRedaction
