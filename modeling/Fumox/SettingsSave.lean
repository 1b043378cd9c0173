import Mathlib
import Fumox.SettingsForm

/-!
A save of the settings form against the loader: every item a helper writes is read back as the
posted value, so a form without errors leaves a file that loads.
-/

namespace SettingsSave

open RustText PayloadGuards SocketText TomlDocument ConfigLoader SettingsForm

def urlKey : Key := ⟨"meow", "test_url"⟩

def parseBound : Editor → ℕ
  | .u32 => 2 ^ 32
  | _ => 2 ^ 64

/-- What the range of a number leaves of its type and of the cast to `i64`. -/
def RangeFits (editor : Editor) (bound : ℕ) : Option Range → Prop
  | some ⟨_, some max⟩ => max < bound ∧ max < 2 ^ 63
  | some ⟨_, none⟩ => editor = .u64 ∧ 2 ^ 63 ≤ bound
  | none => False

instance (editor : Editor) (bound : ℕ) (range : Option Range) :
    Decidable (RangeFits editor bound range) := by
  unfold RangeFits
  split <;> infer_instance

/-- A helper edits fields whose deserialiser takes all it lets through. -/
def Fits (setting : Setting) : FieldType → Prop
  | .address => setting.editor = .bind
  | .text => setting.editor = .string ∨ setting.editor = .token
  | .rate => setting.editor = .rateLimit
  | .unsigned bound =>
    (setting.editor = .u64 ∨ setting.editor = .u32 ∨ setting.editor = .usize) ∧
      bound ≤ parseBound setting.editor ∧
      RangeFits setting.editor bound (rangeOf setting.key.dotted)
  | .flag => setting.editor = .bool
  | .choice names => setting.editor = .enum names
  | .strings =>
    (setting.editor = .stringList ∨ setting.editor = .cidrList) ∧ setting.key ≠ urlKey
  | .urls => setting.editor = .stringList ∧ setting.key = urlKey
  | .delays => setting.editor = ladder
  | .ignored => False

instance (setting : Setting) (type : FieldType) : Decidable (Fits setting type) := by
  unfold Fits
  casesm FieldType <;> infer_instance

theorem settings_fit : ∀ s ∈ settings, ∃ f ∈ schema, f.key = s.key ∧ Fits s f.type := by
  decide +kernel

theorem nodup_settings : (settings.map Setting.key).Nodup := by decide +kernel

def postedValue (form : Form) (setting : Setting) : Option Value :=
  let raw := rawGet form setting.key.dotted
  match setting.editor with
  | .bind => raw.bind fun v => (parseSocketAddr (trim v)).map .address
  | .cidrList | .stringList => raw.map fun v =>
    .texts (if setting.key = urlKey then (cleanLines v).flatMap splitUrls else cleanLines v)
  | .rateLimit => do
    let limit ← rawGet form (limitField setting.key)
    let unit ← rawGet form (unitField setting.key)
    let n ← parseU32 (trim limit)
    let secs ← formUnit unit
    return .rate ⟨n, secs⟩
  | .string => raw.map fun v => .text (trim v)
  | .token => raw.bind fun v => if trim v = [] then none else some (.text (trim v))
  | .u64 | .u32 | .usize => raw.bind fun v =>
    (parseUnsigned (parseBound setting.editor) (trim v)).map .number
  | .bool => (parseBoolLiteral (raw.getD [])).map .flag
  | .enum _ => raw.map .choice
  | .i64List _ _ _ => raw.bind fun v => ((cleanLines v).mapM parseI64).map .delays

/-- Whether the form changes a setting: a checkbox always, a rate with both its halves, a token
that is not blank. -/
def IsPosted (form : Form) (setting : Setting) : Prop :=
  match setting.editor with
  | .bool => True
  | .rateLimit => (rawGet form (limitField setting.key)).isSome ∧
      (rawGet form (unitField setting.key)).isSome
  | .token => ∃ v, rawGet form setting.key.dotted = some v ∧ trim v ≠ []
  | _ => (rawGet form setting.key.dotted).isSome

theorem mapM_scalarString (l : List Text) : (l.map Scalar.string).mapM scalarString = some l := by
  rw [mapM_eq_some, List.forall₂_map_left_iff]
  exact List.forall₂_same.mpr fun _ _ => rfl

theorem mapM_scalarI64 {l : List ℤ} (h : ∀ n ∈ l, -2 ^ 63 ≤ n ∧ n < 2 ^ 63) :
    (l.map Scalar.integer).mapM scalarI64 = some l := by
  rw [mapM_eq_some, List.forall₂_map_left_iff]
  exact List.forall₂_same.mpr fun n hn => if_pos (h n hn)

theorem readUnsigned_integerItem {bound n : ℕ} (hbound : n < bound) (hn : n < 2 ^ 63) :
    readUnsigned bound (integerItem n) = some n := by
  rw [integerItem, if_pos hn, readUnsigned, if_pos (by omega), Int.toNat_natCast]

theorem rate_fromStr {limit secs : ℕ} {unit : Text} (hlimit : limit < 2 ^ 32)
    (hunit : formUnit unit = some secs) :
    RateLimit.fromStr (decimal limit ++ '/' :: unitForSecs secs) = some ⟨limit, secs⟩ := by
  have hsecs : rateUnit (toAsciiLowercase (trim (unitForSecs secs))) = some secs ∧
      (unitForSecs secs).getLast?.any (fun c => !isWhitespace c) = true := by
    unfold formUnit at hunit
    split_ifs at hunit <;> cases hunit <;> decide +kernel
  have hslash : '/' ∉ decimal limit := fun h => absurd (isDigit_of_mem_decimal h) (by decide)
  have htrim : trim (decimal limit ++ '/' :: unitForSecs secs) =
      decimal limit ++ '/' :: unitForSecs secs := by
    apply trim_eq_self
    constructor
    · intro c hc
      have hne : decimal limit ≠ [] := Nat.toDigits_ne_nil
      rw [List.head?_append_of_ne_nil _ hne] at hc
      exact isDigit_not_white (isDigit_of_mem_decimal (List.mem_of_mem_head? hc))
    · intro c hc
      have hlast := hsecs.2
      cases hl : (unitForSecs secs).getLast? with
      | none => simp [hl] at hlast
      | some d =>
        have hne : unitForSecs secs ≠ [] := by
          rintro hnil
          simp [hnil] at hl
        have hcd : (decimal limit ++ '/' :: unitForSecs secs).getLast? = some d := by
          rw [List.getLast?_append, List.getLast?_cons_of_ne_nil hne, hl]
          rfl
        rw [hcd] at hc
        cases hc
        rw [hl] at hlast
        simpa using hlast
  have hnum : parseU32 (trim (decimal limit)) = some limit := by
    rw [trim_decimal]
    exact parseUnsigned_decimal hlimit
  simp [RateLimit.fromStr, htrim, splitOnce_append hslash, hnum, hsecs.1]

section Helpers

variable {validCidr : Text → Bool} {variantIndex : Item → Option ℕ} {form : Form}
  {setting : Setting} {type : FieldType}

/-- The outcomes of a helper: an error, nothing for a setting that was not posted, or an item that
is read back as the posted value. -/
structure Written (variantIndex : Item → Option ℕ) (form : Form) (setting : Setting)
    (type : FieldType) (item : Item) : Prop where
  posted : IsPosted form setting
  value : ∃ v, postedValue form setting = some v ∧
    (v ≠ .texts [] ∨ type ≠ .urls → readValue variantIndex type item = some v)

def Outcome (validCidr : Text → Bool) (variantIndex : Item → Option ℕ) (form : Form)
    (setting : Setting) (type : FieldType) : Prop :=
  match setting.editor.apply validCidr form setting.key with
  | .error _ _ => True
  | .skip => ¬ IsPosted form setting ∧ postedValue form setting = none
  | .write item => Written variantIndex form setting type item

theorem bind_outcome (h : setting.editor = .bind) :
    Outcome validCidr variantIndex form setting .address := by
  unfold Outcome
  rw [h]
  simp only [Editor.apply, SettingsForm.bind]
  cases hraw : rawGet form setting.key.dotted with
  | none => simp [IsPosted, postedValue, h, hraw]
  | some v =>
    dsimp only
    cases hparse : parseSocketAddr (trim v) with
    | none => trivial
    | some address =>
      have hread : parseSocketAddr (printSocketAddr address) = some address :=
        parse_print (valid_of_parse hparse)
      refine ⟨by simp [IsPosted, h, hraw], .address address, ?_, fun _ => ?_⟩
      · simp [postedValue, h, hraw, hparse]
      · simp [readValue, stringItem, hread]

theorem string_outcome (h : setting.editor = .string) :
    Outcome validCidr variantIndex form setting .text := by
  unfold Outcome
  rw [h]
  simp only [Editor.apply, stringField]
  cases hraw : rawGet form setting.key.dotted with
  | none => simp [IsPosted, postedValue, h, hraw]
  | some v =>
    by_cases hblank : trim v = []
    · simp [hblank]
    · simp only [hblank, if_false]
      refine ⟨by simp [IsPosted, h, hraw], .text (trim v), ?_, fun _ => rfl⟩
      simp [postedValue, h, hraw]

theorem token_outcome (h : setting.editor = .token) :
    Outcome validCidr variantIndex form setting .text := by
  unfold Outcome
  rw [h]
  simp only [Editor.apply, tokenField]
  cases hraw : rawGet form setting.key.dotted with
  | none => simp [IsPosted, postedValue, h, hraw]
  | some v =>
    by_cases hblank : trim v = []
    · simp [hblank, IsPosted, postedValue, h, hraw]
    · simp only [hblank, if_false]
      refine ⟨by simp [IsPosted, h, hraw, hblank], .text (trim v), ?_, fun _ => rfl⟩
      simp [postedValue, h, hraw, hblank]

theorem bool_outcome (h : setting.editor = .bool) :
    Outcome validCidr variantIndex form setting .flag := by
  unfold Outcome
  rw [h]
  simp only [Editor.apply, boolField]
  cases hparse : parseBoolLiteral ((rawGet form setting.key.dotted).getD []) with
  | none => trivial
  | some b =>
    refine ⟨by simp [IsPosted, h], .flag b, ?_, fun _ => rfl⟩
    simp [postedValue, h, hparse]

theorem enum_outcome {names : List Text} (h : setting.editor = .enum names) :
    Outcome validCidr variantIndex form setting (.choice names) := by
  unfold Outcome
  rw [h]
  simp only [Editor.apply, enumField]
  cases hraw : rawGet form setting.key.dotted with
  | none => simp [IsPosted, postedValue, h, hraw]
  | some v =>
    by_cases hmem : v ∈ names
    · simp only [hmem, if_true]
      refine ⟨by simp [IsPosted, h, hraw], .choice v, ?_, fun _ => ?_⟩
      · simp [postedValue, h, hraw]
      · simp [readValue, readChoice, stringItem, hmem]
    · simp [hmem]

theorem rateLimit_outcome (h : setting.editor = .rateLimit) :
    Outcome validCidr variantIndex form setting .rate := by
  unfold Outcome
  rw [h]
  simp only [Editor.apply, rateLimit]
  cases hlimit : rawGet form (limitField setting.key) with
  | none => simp [IsPosted, postedValue, h, hlimit]
  | some limitStr =>
    cases hunit : rawGet form (unitField setting.key) with
    | none => simp [IsPosted, postedValue, h, hlimit, hunit]
    | some unitStr =>
      dsimp only
      cases hparse : parseU32 (trim limitStr) with
      | none => trivial
      | some limit =>
        by_cases hrange : InRange (limitField setting.key) limit
        · simp only [hrange, not_true_eq_false, if_false]
          cases hsecs : formUnit unitStr with
          | none => trivial
          | some secs =>
            have hread := rate_fromStr (parseUnsigned_lt hparse) hsecs
            refine ⟨by simp [IsPosted, h, hlimit, hunit], .rate ⟨limit, secs⟩, ?_, fun _ => ?_⟩
            · simp [postedValue, h, hlimit, hunit, hparse, hsecs]
            · simp [readValue, readRate, rateItem, stringItem, hread]
        · simp [hrange]

theorem list_written (h : setting.editor = .stringList ∨ setting.editor = .cidrList) {v : Text}
    (hraw : rawGet form setting.key.dotted = some v) (hkey : setting.key ≠ urlKey) :
    Written variantIndex form setting .strings (stringArray (cleanLines v)) := by
  refine ⟨?_, .texts (cleanLines v), ?_, fun _ => ?_⟩
  · rcases h with h | h <;> simp [IsPosted, h, hraw]
  · rcases h with h | h <;> simp [postedValue, h, hraw, hkey]
  · simp only [readValue, readStrings, stringArray, mapM_scalarString, Option.map_some]

theorem strings_outcome (h : setting.editor = .stringList ∨ setting.editor = .cidrList)
    (hkey : setting.key ≠ urlKey) : Outcome validCidr variantIndex form setting .strings := by
  unfold Outcome
  rcases h with h | h
  · rw [h]
    simp only [Editor.apply, stringList]
    cases hraw : rawGet form setting.key.dotted with
    | none => simp [IsPosted, postedValue, h, hraw]
    | some v => exact list_written (.inl h) hraw hkey
  · rw [h]
    simp only [Editor.apply, cidrList]
    cases hraw : rawGet form setting.key.dotted with
    | none => simp [IsPosted, postedValue, h, hraw]
    | some v =>
      dsimp only
      cases hfind : (cleanLines v).find? fun entry => !validCidr entry with
      | some entry => trivial
      | none => exact list_written (.inr h) hraw hkey

theorem urls_outcome (h : setting.editor = .stringList) (hkey : setting.key = urlKey) :
    Outcome validCidr variantIndex form setting .urls := by
  unfold Outcome
  rw [h]
  simp only [Editor.apply, stringList]
  cases hraw : rawGet form setting.key.dotted with
  | none => simp [IsPosted, postedValue, h, hraw]
  | some v =>
    refine ⟨by simp [IsPosted, h, hraw], .texts ((cleanLines v).flatMap splitUrls), ?_, ?_⟩
    · simp [postedValue, h, hkey ▸ hraw, hkey]
    · rintro (hne | hne)
      · have hurls : (cleanLines v).flatMap splitUrls ≠ [] := fun hnil => hne (by rw [hnil])
        simp only [readValue, readTestUrls, stringArray, mapM_scalarString, Option.bind_eq_bind,
          Option.bind_some, finishUrls, if_neg hurls, Option.map_some]
      · exact absurd rfl hne

theorem number_outcome {bound : ℕ}
    (h : setting.editor = .u64 ∨ setting.editor = .u32 ∨ setting.editor = .usize)
    (hfits : RangeFits setting.editor bound (rangeOf setting.key.dotted)) :
    Outcome validCidr variantIndex form setting (.unsigned bound) := by
  have hposted : IsPosted form setting ↔ (rawGet form setting.key.dotted).isSome := by
    rcases h with h | h | h <;> simp [IsPosted, h]
  have hvalue : postedValue form setting = (rawGet form setting.key.dotted).bind fun v =>
      (parseUnsigned (parseBound setting.editor) (trim v)).map .number := by
    rcases h with h | h | h <;> simp [postedValue, h]
  -- the shape of the three helpers: the parse, the range, then the limit of the cast
  have hshape : ∃ limit, setting.editor.apply validCidr form setting.key =
      numberField (parseBound setting.editor) limit form setting.key ∧
        (setting.editor = .u64 → limit = some i64Max) := by
    rcases h with h | h | h
    · exact ⟨some i64Max, by rw [h]; rfl, fun _ => rfl⟩
    · exact ⟨none, by rw [h]; rfl, by simp [h]⟩
    · exact ⟨none, by rw [h]; rfl, by simp [h]⟩
  obtain ⟨limit, happly, hlimit⟩ := hshape
  unfold Outcome
  rw [happly, numberField]
  cases hraw : rawGet form setting.key.dotted with
  | none => simp [hposted, hvalue, hraw]
  | some v =>
    dsimp only
    cases hparse : parseUnsigned (parseBound setting.editor) (trim v) with
    | none => trivial
    | some n =>
      have hwritten : n < bound → n < 2 ^ 63 →
          Written variantIndex form setting (.unsigned bound) (integerItem n) := by
        intro hbound hn
        refine ⟨hposted.mpr (by simp [hraw]), .number n, ?_, fun _ => ?_⟩
        · rw [hvalue, hraw, Option.bind_some, hparse]
          rfl
        · simp [readValue, readUnsigned_integerItem hbound hn]
      by_cases hrange : InRange setting.key.dotted n
      · simp only [hrange, not_true_eq_false, if_false]
        unfold InRange at hrange
        unfold RangeFits at hfits
        split at hfits
        next lo hi heq =>
          rw [heq] at hrange
          have hle : n ≤ hi := hrange.2
          have hw := hwritten (by omega) (by omega)
          cases limit with
          | none => exact hw
          | some max =>
            by_cases hmax : max < n
            · simp [hmax]
            · simpa [hmax] using hw
        next lo heq =>
          rw [hlimit hfits.1]
          by_cases hmax : i64Max < n
          · simp [hmax]
          · have hn : n < 2 ^ 63 := by
              unfold i64Max at hmax
              omega
            simpa [hmax] using hwritten (by omega) hn
        next => exact hfits.elim
      · simp [hrange]

theorem ladder_outcome (h : setting.editor = ladder) :
    Outcome validCidr variantIndex form setting .delays := by
  unfold Outcome
  rw [h]
  simp only [ladder, Editor.apply, i64ListField]
  cases hraw : rawGet form setting.key.dotted with
  | none => simp [IsPosted, postedValue, h, ladder, hraw]
  | some v =>
    dsimp only
    cases hparsed : (cleanLines v).mapM parseDelay with
    | error line => trivial
    | ok parsed =>
      dsimp only
      have hposted : (cleanLines v).mapM parseI64 = some parsed := by
        rw [mapM_eq_some]
        refine (mapM_eq_ok.mp hparsed).imp fun line n hline => ?_
        unfold parseDelay at hline
        cases hn : parseI64 line with
        | none => simp [hn] at hline
        | some n' => simpa [hn] using hline
      split_ifs with hnil hlong hbad
      · trivial
      · trivial
      · trivial
      · have hrange : ∀ n ∈ parsed, 1 ≤ n ∧ n ≤ recheckMaxDelaySecs := by
          intro n hn
          by_contra hout
          exact hbad ⟨n, hn, by omega⟩
        have hi64 : ∀ n ∈ parsed, -2 ^ 63 ≤ n ∧ n < 2 ^ 63 := by
          intro n hn
          have hn := hrange n hn
          unfold recheckMaxDelaySecs at hn
          omega
        refine ⟨by simp [IsPosted, h, ladder, hraw], .delays parsed, ?_, fun _ => ?_⟩
        · simp [postedValue, h, ladder, hraw, hposted]
        · have hlen : parsed.length ≤ recheckMaxSteps := by omega
          simp only [readValue, readRecheckDelays, mapM_scalarI64 hi64, Option.bind_eq_bind,
            Option.bind_some, if_pos (And.intro hlen hrange), Option.map_some]

theorem outcome (h : Fits setting type) : Outcome validCidr variantIndex form setting type := by
  cases type with
  | address => exact bind_outcome h
  | text => exact h.elim string_outcome token_outcome
  | rate => exact rateLimit_outcome h
  | unsigned bound => exact number_outcome h.1 h.2.2
  | flag => exact bool_outcome h
  | choice names => exact enum_outcome h
  | strings => exact strings_outcome h.1 h.2
  | urls => exact urls_outcome h.1 h.2
  | delays => exact ladder_outcome h
  | ignored => exact h.elim

end Helpers

section Run

variable {validCidr : Text → Bool} {form : Form}

/-- A setting of the form that a run over the document reports no error for. -/
def Accepted (validCidr : Text → Bool) (form : Form) (doc : Document) (s : Setting) : Prop :=
  match s.editor.apply validCidr form s.key with
  | .error _ _ => False
  | .skip => True
  | .write _ => Writable doc s.key.section_

def writtenItem (validCidr : Text → Bool) (form : Form) (s : Setting) : Option Item :=
  match s.editor.apply validCidr form s.key with
  | .write item => some item
  | _ => none

theorem applySetting_doc (draft : Draft) (s : Setting) :
    (applySetting validCidr form draft s).doc = draft.doc ∨
      ∃ item, writtenItem validCidr form s = some item ∧
        TomlDocument.set draft.doc s.key item = some (applySetting validCidr form draft s).doc := by
  unfold applySetting writtenItem
  cases s.editor.apply validCidr form s.key with
  | skip => exact .inl rfl
  | error field message => exact .inl rfl
  | write item =>
    cases hset : TomlDocument.set draft.doc s.key item with
    | none => simp [hset]
    | some doc => exact .inr ⟨item, rfl, by simp [hset]⟩

theorem writable_applySetting (draft : Draft) (s : Setting) (name : Text) :
    Writable (applySetting validCidr form draft s).doc name ↔ Writable draft.doc name := by
  rcases @applySetting_doc validCidr form draft s with h | ⟨item, -, hset⟩
  · rw [h]
  · exact writable_set hset name

theorem accepted_applySetting (draft : Draft) (s s' : Setting) :
    Accepted validCidr form (applySetting validCidr form draft s).doc s' ↔
      Accepted validCidr form draft.doc s' := by
  unfold Accepted
  split
  · exact Iff.rfl
  · exact Iff.rfl
  · exact writable_applySetting draft s s'.key.section_

theorem applySetting_errors (draft : Draft) (s : Setting) :
    (applySetting validCidr form draft s).errors = [] ↔
      draft.errors = [] ∧ Accepted validCidr form draft.doc s := by
  unfold applySetting Accepted
  cases s.editor.apply validCidr form s.key with
  | skip => simp
  | error field message => simp
  | write item =>
    simp only
    rw [← set_isSome]
    cases hset : TomlDocument.set draft.doc s.key item <;> simp

theorem foldl_errors (l : List Setting) (draft : Draft) :
    (l.foldl (applySetting validCidr form) draft).errors = [] ↔
      draft.errors = [] ∧ ∀ s ∈ l, Accepted validCidr form draft.doc s := by
  induction l generalizing draft with
  | nil => simp
  | cons s l ih =>
    rw [List.foldl_cons, ih, applySetting_errors, List.forall_mem_cons, and_assoc]
    simp only [accepted_applySetting]

theorem get_applySetting {draft : Draft} {s : Setting} (h : Accepted validCidr form draft.doc s)
    (key : Key) : TomlDocument.get (applySetting validCidr form draft s).doc key =
      if key = s.key then (writtenItem validCidr form s).or (TomlDocument.get draft.doc key)
      else TomlDocument.get draft.doc key := by
  unfold Accepted at h
  unfold applySetting writtenItem
  cases happly : s.editor.apply validCidr form s.key with
  | skip => simp
  | error field message => simp
  | write item =>
    rw [happly] at h
    have hsome := (set_isSome.mpr h : (TomlDocument.set draft.doc s.key item).isSome)
    cases hset : TomlDocument.set draft.doc s.key item with
    | none =>
      rw [hset] at hsome
      cases hsome
    | some doc =>
      simp only [hset, get_set hset]
      rfl

theorem get_foldl (l : List Setting) (draft : Draft) (hnodup : (l.map Setting.key).Nodup)
    (h : ∀ s ∈ l, Accepted validCidr form draft.doc s) (key : Key) :
    TomlDocument.get (l.foldl (applySetting validCidr form) draft).doc key =
      ((l.find? fun s => s.key = key).bind (writtenItem validCidr form)).or
        (TomlDocument.get draft.doc key) := by
  induction l generalizing draft with
  | nil => simp
  | cons s l ih =>
    rw [List.map_cons, List.nodup_cons] at hnodup
    have hs := h s List.mem_cons_self
    have hrest : ∀ s' ∈ l, Accepted validCidr form (applySetting validCidr form draft s).doc s' :=
      fun s' hs' => (accepted_applySetting draft s s').mpr (h s' (List.mem_cons_of_mem s hs'))
    rw [List.foldl_cons, ih _ hnodup.2 hrest, get_applySetting hs]
    by_cases hkey : s.key = key
    · have hnone : (l.find? fun s => s.key = key) = none := by
        rw [List.find?_eq_none]
        intro s' hs' heq
        have hsame : s'.key = s.key := (of_decide_eq_true heq).trans hkey.symm
        exact hnodup.1 (hsame ▸ List.mem_map_of_mem hs')
      rw [hnone, List.find?_cons_of_pos (by simpa using hkey), if_pos hkey.symm]
      simp
    · rw [List.find?_cons_of_neg (by simpa using hkey), if_neg (Ne.symm hkey)]

theorem find_setting {s : Setting} (h : s ∈ settings) :
    (settings.find? fun s' => s'.key = s.key) = some s := by
  have hsome : (settings.find? fun s' => s'.key = s.key).isSome := by
    rw [List.find?_isSome]
    exact ⟨s, h, by simp⟩
  obtain ⟨s', hs'⟩ := Option.isSome_iff_exists.mp hsome
  have hkey : s'.key = s.key := by simpa using List.find?_some hs'
  have hmem := List.mem_of_find?_eq_some hs'
  rw [hs', List.inj_on_of_nodup_map nodup_settings hmem h hkey]

end Run

theorem known_set {doc doc' env : Document} {key : Key} {item : Item}
    (hknown : Known (merge doc env)) (hkey : key ∈ schema.map Field.key)
    (h : TomlDocument.set doc key item = some doc') : Known (merge doc' env) := by
  have hsection : key.section_ ∈ sectionNames := by
    obtain ⟨f, hf, rfl⟩ := List.mem_map.mp hkey
    exact section_of_schema f hf
  obtain ⟨entries, hbefore, rfl⟩ := set_eq_some h
  constructor
  · intro name hname
    rcases mem_keys_overlay.mp hname with hname | hname
    · rcases JsonValue.mem_keys_insert.mp hname with hname | rfl
      · exact hknown.1 name (mem_keys_overlay.mpr (.inl hname))
      · exact hsection
    · exact hknown.1 name (mem_keys_overlay.mpr (.inr hname))
  · intro name hname
    have hold := hknown.2 name hname
    unfold SectionKnown merge at hold ⊢
    rw [lookup_overlay] at hold ⊢
    rw [lookup_insert]
    by_cases hn : name = key.section_
    · rw [if_pos hn]
      subst hn
      have hleaf : ∀ leaf, leaf = key.leaf → (⟨key.section_, leaf⟩ : Key) ∈ schema.map Field.key := by
        rintro leaf rfl
        exact hkey
      have hentries : ∀ leaf ∈ (JsonValue.insert entries key.leaf item).map Prod.fst,
          leaf ∈ entries.map Prod.fst ∨ leaf = key.leaf := fun leaf => JsonValue.mem_keys_insert.mp
      cases henv : env.lookup key.section_ with
      | none =>
        simp only [Option.map_none, Option.getD_none]
        intro leaf hmem
        rcases hentries leaf hmem with hmem | hmem
        · rcases hbefore with ⟨-, rfl⟩ | hsome
          · cases hmem
          · rw [hsome] at hold
            simp only [henv, Option.map_none, Option.getD_none] at hold
            exact hold leaf hmem
        · exact hleaf leaf hmem
      | some top =>
        cases top with
        | value item' =>
          rcases hbefore with ⟨hnone, -⟩ | hsome
          · rw [hnone] at hold
            simp [henv] at hold
          · rw [hsome] at hold
            simp [henv, mergeSections] at hold
        | table inline topEntries =>
          simp only [Option.map_some, Option.getD_some, mergeSections]
          intro leaf hmem
          rcases mem_keys_overlay.mp hmem with hmem | hmem
          · rcases hentries leaf hmem with hmem | hmem
            · rcases hbefore with ⟨-, rfl⟩ | hsome
              · cases hmem
              · rw [hsome] at hold
                simp only [henv, Option.map_some, Option.getD_some, mergeSections] at hold
                exact hold leaf (mem_keys_overlay.mpr (.inl hmem))
            · exact hleaf leaf hmem
          · rcases hbefore with ⟨hnone, -⟩ | hsome
            · rw [hnone] at hold
              simp only [henv] at hold
              exact hold leaf hmem
            · rw [hsome] at hold
              simp only [henv, Option.map_some, Option.getD_some, mergeSections] at hold
              exact hold leaf (mem_keys_overlay.mpr (.inr hmem))
    · rw [if_neg hn]
      exact hold

section Saved

variable {validCidr : Text → Bool} {variantIndex : Item → Option ℕ} {form : Form}
  {env doc : Document} {config : AppConfig}

theorem applyAll_errors : (applyAll validCidr form doc).errors = [] ↔
    (∀ s ∈ settings, Accepted validCidr form doc s) ∧ backoffErrors form = [] := by
  simp only [applyAll, List.append_eq_nil_iff, foldl_errors, true_and]

theorem get_applyAll (h : ∀ s ∈ settings, Accepted validCidr form doc s) (key : Key) :
    TomlDocument.get (applyAll validCidr form doc).doc key =
      ((settings.find? fun s => s.key = key).bind (writtenItem validCidr form)).or
        (TomlDocument.get doc key) :=
  get_foldl settings ⟨doc, []⟩ nodup_settings h key

theorem known_applyAll (hknown : Known (merge doc env)) :
    Known (merge (applyAll validCidr form doc).doc env) := by
  have hstep : ∀ (l : List Setting) (draft : Draft), (∀ s ∈ l, s ∈ settings) →
      Known (merge draft.doc env) →
        Known (merge (l.foldl (applySetting validCidr form) draft).doc env) := by
    intro l
    induction l with
    | nil => exact fun _ _ h => h
    | cons s l ih =>
      intro draft hl h
      apply ih _ fun s' hs' => hl s' (List.mem_cons_of_mem s hs')
      rcases @applySetting_doc validCidr form draft s with
        heq | ⟨item, -, hset⟩
      · rwa [heq]
      · obtain ⟨f, hf, hkey, -⟩ := settings_fit s (hl s List.mem_cons_self)
        exact known_set h (hkey ▸ List.mem_map_of_mem hf) hset
  exact hstep settings ⟨doc, []⟩ (fun _ h => h) hknown

theorem env_not_value {key : Key} (hknown : Known (merge doc env))
    (hkey : key.section_ ∈ sectionNames) (item : Item) :
    env.lookup key.section_ ≠ some (.value item) := by
  intro henv
  have hsection := hknown.2 key.section_ hkey
  unfold SectionKnown merge at hsection
  rw [lookup_overlay, henv] at hsection
  cases hbase : doc.lookup key.section_ with
  | none => simp [hbase] at hsection
  | some base => cases base <;> simp [hbase, mergeSections] at hsection

theorem readField_merge (hknown : Known (merge doc env)) {f : Field} (hf : f ∈ schema) :
    readField variantIndex (merge doc env) f =
      match (TomlDocument.get env f.key).or (TomlDocument.get doc f.key) with
      | some item => readValue variantIndex f.type item
      | none => some f.default := by
  have hget := @get_merge doc env f.key (env_not_value hknown (section_of_schema f hf))
  exact congrArg (fun found : Option Item =>
    match found with
    | some item => readValue variantIndex f.type item
    | none => some f.default) hget

/-- What a setting loads with after the save: the environment stays on top of the posted value,
and the posted value of what the file held. -/
def savedValue (env : Document) (form : Form) (config : AppConfig) (s : Setting) : Option Value :=
  if (TomlDocument.get env s.key).isSome then config.get s.key
  else (postedValue form s).or (config.get s.key)

/-- Either the environment names the test URLs, or those posted hold at least one. -/
def UrlsPosted (env : Document) (form : Form) : Prop :=
  (TomlDocument.get env urlKey).isSome ∨
    ∀ s ∈ settings, s.key = urlKey → postedValue form s ≠ some (.texts [])

theorem readField_saved (hload : load variantIndex env doc = some config)
    (h : ∀ s ∈ settings, Accepted validCidr form doc s) (hurls : UrlsPosted env form) {s : Setting}
    (hs : s ∈ settings) {f : Field} (hf : f ∈ schema) (hkey : f.key = s.key)
    (hfits : Fits s f.type) :
    readField variantIndex (merge (applyAll validCidr form doc).doc env) f =
      savedValue env form config s := by
  obtain ⟨hknown, hread⟩ := load_eq_some_iff.mp hload
  have hold := hread f hf
  rw [readField_merge hknown hf] at hold
  rw [readField_merge (known_applyAll hknown) hf, get_applyAll h, hkey, find_setting hs,
    Option.bind_some, savedValue]
  rw [hkey] at hold
  cases henv : TomlDocument.get env s.key with
  | some item =>
    rw [henv] at hold
    simpa using hold
  | none =>
    rw [henv] at hold
    have hout : Outcome validCidr variantIndex form s _ := outcome hfits
    have hacc := h s hs
    unfold Outcome at hout
    unfold Accepted at hacc
    unfold writtenItem
    cases happly : s.editor.apply validCidr form s.key with
    | error field message =>
      rw [happly] at hacc
      exact hacc.elim
    | skip =>
      rw [happly] at hout
      simp only [hout.2, Option.none_or, Option.isSome_none, Bool.false_eq_true, if_false] at hold ⊢
      exact hold
    | write item =>
      rw [happly] at hout
      obtain ⟨-, v, hv, hback⟩ := hout
      have hloadable : v ≠ .texts [] ∨ f.type ≠ .urls := by
        by_cases htype : f.type = .urls
        · left
          rintro rfl
          rw [htype] at hfits
          rcases hurls with hurls | hurls
          · rw [← hfits.2, henv] at hurls
            cases hurls
          · exact hurls s hs hfits.2 hv
        · exact .inr htype
      simpa [hv] using hback hloadable

theorem fieldOf_unique {f g : Field} (hf : f ∈ schema) (hg : g ∈ schema) (h : f.key = g.key) :
    f = g :=
  List.inj_on_of_nodup_map nodup_schema hf hg h

theorem readField_kept (hload : load variantIndex env doc = some config)
    (h : ∀ s ∈ settings, Accepted validCidr form doc s) {f : Field} (hf : f ∈ schema)
    (hkey : ∀ s ∈ settings, s.key ≠ f.key) :
    readField variantIndex (merge (applyAll validCidr form doc).doc env) f = config.get f.key := by
  obtain ⟨hknown, hread⟩ := load_eq_some_iff.mp hload
  have hnone : (settings.find? fun s => s.key = f.key) = none := by
    rw [List.find?_eq_none]
    exact fun s hs heq => hkey s hs (of_decide_eq_true heq)
  rw [readField_merge (known_applyAll hknown) hf, get_applyAll h, hnone, Option.bind_none,
    Option.none_or, ← hread f hf, readField_merge hknown hf]

theorem isPosted_iff (h : ∀ s ∈ settings, Accepted validCidr form doc s) {s : Setting}
    (hs : s ∈ settings) : IsPosted form s ↔ (postedValue form s).isSome := by
  obtain ⟨f, -, -, hfits⟩ := settings_fit s hs
  have hout : Outcome validCidr (fun _ => none) form s _ := outcome hfits
  have hacc := h s hs
  unfold Outcome at hout
  unfold Accepted at hacc
  cases happly : s.editor.apply validCidr form s.key with
  | error field message =>
    rw [happly] at hacc
    exact hacc.elim
  | skip =>
    rw [happly] at hout
    simp [hout.1, hout.2]
  | write item =>
    rw [happly] at hout
    obtain ⟨hposted, v, hv, -⟩ := hout
    simp [hposted, hv]

def initialSetting : Setting := ⟨backoffInitial.key, .u64⟩

def maxSetting : Setting := ⟨backoffMax.key, .u64⟩

/-- The backoff bounds are ordered as they will load. -/
def BackoffKept (env : Document) (form : Form) (config : AppConfig) : Prop :=
  ∀ lo hi, savedValue env form config initialSetting = some (.number lo) →
    savedValue env form config maxSetting = some (.number hi) → lo ≤ hi

/-- Both bounds come from the form, without blanks around them. -/
def BackoffPosted (env : Document) (form : Form) : Prop :=
  ∀ s ∈ [initialSetting, maxSetting], TomlDocument.get env s.key = none ∧
    ∃ v, rawGet form s.key.dotted = some v ∧ trim v = v

theorem backoffKept_of_posted (h : (applyAll validCidr form doc).errors = [])
    (hposted : BackoffPosted env form) : BackoffKept env form config := by
  obtain ⟨haccepted, hcross⟩ := applyAll_errors.mp h
  have hvalue : ∀ s ∈ [initialSetting, maxSetting], ∃ n,
      (rawGet form s.key.dotted).bind parseU64 = some n ∧
        savedValue env form config s = some (.number n) := by
    intro s hs
    obtain ⟨henv, v, hraw, htrim⟩ := hposted s hs
    have hsettings : s ∈ settings ∧ s.editor = .u64 := by
      have hall : ∀ s ∈ [initialSetting, maxSetting], s ∈ settings ∧ s.editor = .u64 := by
        decide +kernel
      exact hall s hs
    have hsome : (postedValue form s).isSome := by
      rw [← isPosted_iff haccepted hsettings.1]
      simp [IsPosted, hsettings.2, hraw]
    have hpostedValue : postedValue form s = (parseU64 v).map .number := by
      simp [postedValue, hsettings.2, hraw, htrim, parseBound, parseU64]
    obtain ⟨n, hn⟩ := Option.isSome_iff_exists.mp
      (Option.isSome_map.symm.trans (hpostedValue ▸ hsome) : (parseU64 v).isSome)
    refine ⟨n, by rw [hraw, Option.bind_some, hn], ?_⟩
    simp [savedValue, henv, hpostedValue, hn]
  obtain ⟨lo, hrawLo, hlo⟩ := hvalue initialSetting (by simp)
  obtain ⟨hi, hrawHi, hhi⟩ := hvalue maxSetting (by simp)
  intro lo' hi' hlo' hhi'
  obtain rfl : lo = lo' := by simpa [hlo] using hlo'
  obtain rfl : hi = hi' := by simpa [hhi] using hhi'
  unfold backoffErrors at hcross
  by_contra hlt
  have hraw : (rawGet form backoffInitial.key.dotted).bind parseU64 = some lo ∧
      (rawGet form backoffMax.key.dotted).bind parseU64 = some hi := ⟨hrawLo, hrawHi⟩
  simp only [hraw.1, hraw.2, if_pos (Nat.lt_of_not_le hlt)] at hcross
  cases hcross

/-- A form without errors leaves a file that loads, with the saved values and nothing else
changed. -/
theorem exists_load_saved (hload : load variantIndex env doc = some config)
    (h : (applyAll validCidr form doc).errors = []) (hurls : UrlsPosted env form)
    (hbackoff : BackoffKept env form config) :
    ∃ config', load variantIndex env (applyAll validCidr form doc).doc = some config' ∧
      (∀ s ∈ settings, config'.get s.key = savedValue env form config s) ∧
      ∀ f ∈ schema, (∀ s ∈ settings, s.key ≠ f.key) → config'.get f.key = config.get f.key := by
  obtain ⟨haccepted, -⟩ := applyAll_errors.mp h
  have hsaved : ∀ s ∈ settings, ∃ f ∈ schema, f.key = s.key ∧
      readField variantIndex (merge (applyAll validCidr form doc).doc env) f =
        savedValue env form config s := by
    intro s hs
    obtain ⟨f, hf, hkey, hfits⟩ := settings_fit s hs
    exact ⟨f, hf, hkey, readField_saved hload haccepted hurls hs hf hkey hfits⟩
  have hsome : ∀ f ∈ schema, ∃ v,
      readField variantIndex (merge (applyAll validCidr form doc).doc env) f = some v := by
    intro f hf
    obtain ⟨old, hold, -⟩ := config.hasType_get hf
    by_cases hin : ∃ s ∈ settings, s.key = f.key
    · obtain ⟨s, hs, hkey⟩ := hin
      obtain ⟨g, hg, hgkey, hread⟩ := hsaved s hs
      obtain rfl : f = g := fieldOf_unique hf hg (hkey.symm.trans hgkey.symm)
      rw [hread, savedValue, hkey, hold]
      split_ifs
      · exact ⟨old, rfl⟩
      · cases postedValue form s <;> exact ⟨_, rfl⟩
    · have hout : ∀ s ∈ settings, s.key ≠ f.key := fun s hs hkey => hin ⟨s, hs, hkey⟩
      exact ⟨old, (readField_kept hload haccepted hf hout).trans hold⟩
  have hordered : ∀ lo hi,
      readField variantIndex (merge (applyAll validCidr form doc).doc env) backoffInitial =
          some (.number lo) →
        readField variantIndex (merge (applyAll validCidr form doc).doc env) backoffMax =
          some (.number hi) → lo ≤ hi := by
    have hfield : ∀ (s : Setting) (f : Field), s ∈ settings → f ∈ schema → f.key = s.key →
        readField variantIndex (merge (applyAll validCidr form doc).doc env) f =
          savedValue env form config s := by
      intro s f hs hf hkey
      obtain ⟨g, hg, hgkey, hread⟩ := hsaved s hs
      obtain rfl : f = g := fieldOf_unique hf hg (hkey.trans hgkey.symm)
      exact hread
    intro lo hi hlo hhi
    rw [hfield initialSetting _ (by decide +kernel) backoffInitial_mem rfl] at hlo
    rw [hfield maxSetting _ (by decide +kernel) backoffMax_mem rfl] at hhi
    exact hbackoff lo hi hlo hhi
  obtain ⟨config', hload'⟩ := exists_load (known_applyAll (load_eq_some_iff.mp hload).1) hsome
    hordered
  have hread := (load_eq_some_iff.mp hload').2
  refine ⟨config', hload', fun s hs => ?_, fun f hf hout => ?_⟩
  · obtain ⟨f, hf, hkey, hsavedF⟩ := hsaved s hs
    rw [← hkey, ← hread f hf, hsavedF]
  · rw [← hread f hf, readField_kept hload haccepted hf hout]

/-- A form that reports no error saves a file that loads: each posted setting that the environment
does not name loads with the posted value, everything else as before.  The posted test URLs hold
at least one, and the backoff bounds come out ordered or are both posted without blanks.  A form
with an error leaves the file alone. -/
theorem settings_form_loads (hload : load variantIndex env doc = some config) :
    ((applyAll validCidr form doc).errors = [] → UrlsPosted env form →
        (BackoffKept env form config ∨ BackoffPosted env form) →
      ∃ config', load variantIndex env (settingsUpdate validCidr form doc) = some config' ∧
        (∀ s ∈ settings, config'.get s.key = savedValue env form config s) ∧
        (∀ s ∈ settings, IsPosted form s → ∃ v, postedValue form s = some v ∧
          (TomlDocument.get env s.key = none → config'.get s.key = some v) ∧
          (TomlDocument.get env s.key ≠ none → config'.get s.key = config.get s.key)) ∧
        (∀ s ∈ settings, ¬ IsPosted form s → config'.get s.key = config.get s.key) ∧
        ∀ f ∈ schema, (∀ s ∈ settings, s.key ≠ f.key) →
          config'.get f.key = config.get f.key) ∧
      ((applyAll validCidr form doc).errors ≠ [] →
        settingsUpdate validCidr form doc = doc) := by
  constructor
  · intro herrors hurls hbackoff
    have hkept : BackoffKept env form config :=
      hbackoff.elim id (backoffKept_of_posted herrors)
    have haccepted := (applyAll_errors.mp herrors).1
    obtain ⟨config', hload', hsaved, hrest⟩ := exists_load_saved hload herrors hurls hkept
    have hfile : settingsUpdate validCidr form doc = (applyAll validCidr form doc).doc :=
      if_pos herrors
    refine ⟨config', by rw [hfile, hload'], hsaved, fun s hs hposted => ?_,
      fun s hs hposted => ?_, hrest⟩
    · rw [isPosted_iff haccepted hs] at hposted
      obtain ⟨v, hv⟩ := Option.isSome_iff_exists.mp hposted
      refine ⟨v, hv, fun henv => ?_, fun henv => ?_⟩
      · rw [hsaved s hs, savedValue, henv, hv]
        rfl
      · rw [hsaved s hs, savedValue, if_pos (Option.isSome_iff_ne_none.mpr henv)]
    · rw [isPosted_iff haccepted hs] at hposted
      have hnone : postedValue form s = none := by simpa using hposted
      rw [hsaved s hs, savedValue, hnone, Option.none_or, ite_self]
  · exact fun herrors => if_neg herrors

end Saved

section Samples

def tokenKey : Key := ⟨"admin", "token"⟩

def sampleFile : Document := [("admin", .table false [("token", stringItem "secret")])]

def sampleForm : Form :=
  [("server.bind", " [::1]:8080 "), ("admin.token", "  "),
   ("meow.backoff_initial_secs", "5"), ("meow.backoff_max_secs", "50"),
   ("meow.test_url", "http://a/, http://b/\n")]

theorem exists_load_sampleFile : ∃ config, load (fun _ => none) [] sampleFile = some config :=
  Option.isSome_iff_exists.mp (by decide +kernel)

theorem settings_form_loads_sample :
    ∃ config', load (fun _ => none) [] (settingsUpdate (fun _ => true) sampleForm sampleFile) =
        some config' ∧
      config'.get ⟨"server", "bind"⟩ =
        some (.address (.v6 [0, 0, 0, 0, 0, 0, 0, 1] 0 8080)) ∧
      config'.get tokenKey = some (.text "secret") := by
  obtain ⟨config, hload⟩ := exists_load_sampleFile
  have hposted : BackoffPosted [] sampleForm := by
    intro s hs
    rcases List.mem_pair.mp hs with rfl | rfl
    · exact ⟨rfl, "5", by decide +kernel, by decide +kernel⟩
    · exact ⟨rfl, "50", by decide +kernel, by decide +kernel⟩
  obtain ⟨config', hload', -, -, -, -⟩ := (@settings_form_loads (fun _ => true) _ _ _ _ _ hload).1
    (by decide +kernel) (.inr (by decide +kernel)) (.inr hposted)
  have hvalues : (load (fun _ => none) []
      (settingsUpdate (fun _ => true) sampleForm sampleFile)).map
        (fun c => (c.get ⟨"server", "bind"⟩, c.get tokenKey)) =
      some (some (.address (.v6 [0, 0, 0, 0, 0, 0, 0, 1] 0 8080)), some (.text "secret")) := by
    decide +kernel
  rw [hload'] at hvalues
  obtain ⟨hbind, htoken⟩ := Prod.mk.inj (Option.some.inj hvalues)
  exact ⟨config', hload', hbind, htoken⟩

/-- A blank token is posted and the old one loads. -/
theorem blank_token_keeps :
    ∃ (file : Document) (form : Form) (config config' : AppConfig) (v : Text),
      load (fun _ => none) [] file = some config ∧
        (applyAll (fun _ => true) form file).errors = [] ∧
        rawGet form tokenKey.dotted = some v ∧
        load (fun _ => none) [] (settingsUpdate (fun _ => true) form file) = some config' ∧
        config'.get tokenKey ≠ some (.text (trim v)) := by
  obtain ⟨config, hload⟩ := exists_load_sampleFile
  have hvalue : (load (fun _ => none) []
      (settingsUpdate (fun _ => true) [("admin.token", "  ")] sampleFile)).map
        (fun c => c.get tokenKey) = some (some (.text "secret")) := by
    decide +kernel
  obtain ⟨config', hload', htoken⟩ := Option.map_eq_some_iff.mp hvalue
  refine ⟨sampleFile, [("admin.token", "  ")], config, config', "  ", hload, by decide +kernel,
    by decide +kernel, hload', ?_⟩
  rw [htoken]
  decide +kernel

end Samples

end SettingsSave
