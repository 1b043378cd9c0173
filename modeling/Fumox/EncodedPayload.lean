import Fumox.SsRoundTrip
import Fumox.SubscriptionParser

/-!
Automatic detection of base64: a plain payload with a marker and every base64 form of it are parsed
alike.
-/

namespace EncodedPayload

open RustText PercentText Base64Text LineParser SsLine SsRoundTrip SubscriptionParser

def urlSafe (t : Text) : Text :=
  t.map fun c => if c = '+' then '-' else if c = '/' then '_' else c

/-- The encodings of some bytes: either alphabet, padded or not. -/
inductive Encoded (base64 : Base64) (bs : List UInt8) : Text → Prop where
  | standard : Encoded base64 bs (base64.encode bs)
  | standardPadded : Encoded base64 bs (base64.encode bs ++ padding (base64.encode bs).length)
  | urlSafe : Encoded base64 bs (urlSafe (base64.encode bs))
  | urlSafePadded :
    Encoded base64 bs (urlSafe (base64.encode bs) ++ padding (base64.encode bs).length)

/-- An encoding of the payload with white space inserted anywhere. -/
def Base64Form (base64 : Base64) (payload form : Text) : Prop :=
  Encoded base64 (bytes payload) (form.filter fun c => !isWhitespace c)

section Alphabet

variable {t : Text}

theorem normalizeAlphabet_urlSafe (h : ∀ c ∈ t, InAlphabet c) :
    normalizeAlphabet (urlSafe t) = t := by
  rw [normalizeAlphabet, urlSafe, List.map_map]
  refine (List.map_congr_left fun c hc => ?_).trans (List.map_id' t)
  have hdash : c ≠ '-' := fun heq => absurd (h c hc) (by rw [heq]; simp [InAlphabet])
  have hscore : c ≠ '_' := fun heq => absurd (h c hc) (by rw [heq]; simp [InAlphabet])
  by_cases hplus : c = '+'
  · subst hplus
    rfl
  · by_cases hslash : c = '/'
    · subst hslash
      rfl
    · simp [hplus, hslash, hdash, hscore]

theorem normalizeAlphabet_padding (n : ℕ) : normalizeAlphabet (padding n) = padding n := by
  unfold padding
  split_ifs <;> rfl

theorem normalizeAlphabet_append (s t : Text) :
    normalizeAlphabet (s ++ t) = normalizeAlphabet s ++ normalizeAlphabet t :=
  List.map_append

theorem length_padded {n : ℕ} (h : n % 4 ≠ 1) : (n + (padding n).length) % 4 = 0 := by
  unfold padding
  split_ifs with h₂ h₃
  · simp only [List.length_cons, List.length_nil]
    omega
  · simp only [List.length_cons, List.length_nil]
    omega
  · simp only [List.length_nil]
    omega

theorem bytes_length_padding (n : ℕ) : (bytes (padding n)).length = (padding n).length := by
  unfold padding
  split_ifs <;> decide

end Alphabet

section Decoding

variable {base64 : Base64} {bs : List UInt8} {encoded : Text}

theorem decodeB64Lenient_of_normalized (hbase64 : base64.RoundTrips) (hne : encoded ≠ [])
    (h : normalizeAlphabet encoded = base64.encode bs ∨
      normalizeAlphabet encoded = base64.encode bs ++ padding (base64.encode bs).length) :
    decodeB64Lenient base64 encoded = some bs := by
  have hlength := bytes_length_of_inAlphabet (hbase64.alphabet bs)
  rw [decodeB64Lenient, if_neg hne]
  rcases h with h | h
  · simp only [h, hlength]
    rw [if_neg (hbase64.length bs), hbase64.decode bs]
  · have hpadded := length_padded (hbase64.length bs)
    simp only [h, bytes_append, List.length_append, hlength, bytes_length_padding]
    have hnone : padding ((base64.encode bs).length + (padding (base64.encode bs).length).length) =
        [] := by
      rw [padding, hpadded]
      rfl
    rw [if_neg (by omega), hnone, List.append_nil, hbase64.decode bs]

theorem decodeB64Lenient_encoded (hbase64 : base64.RoundTrips) (hbs : bs ≠ [])
    (h : Encoded base64 bs encoded) : decodeB64Lenient base64 encoded = some bs := by
  have halphabet := hbase64.alphabet bs
  have hne := hbase64.nonempty bs hbs
  have hsafe : urlSafe (base64.encode bs) ≠ [] := fun hnil => hne (List.map_eq_nil_iff.mp hnil)
  cases h with
  | standard =>
    exact decodeB64Lenient_of_normalized hbase64 hne (.inl (normalizeAlphabet_eq_self halphabet))
  | standardPadded =>
    refine decodeB64Lenient_of_normalized hbase64 (by simp [hne]) (.inr ?_)
    rw [normalizeAlphabet_append, normalizeAlphabet_eq_self halphabet, normalizeAlphabet_padding]
  | urlSafe =>
    exact decodeB64Lenient_of_normalized hbase64 hsafe (.inl (normalizeAlphabet_urlSafe halphabet))
  | urlSafePadded =>
    refine decodeB64Lenient_of_normalized hbase64 (by simp [hsafe]) (.inr ?_)
    rw [normalizeAlphabet_append, normalizeAlphabet_urlSafe halphabet, normalizeAlphabet_padding]

theorem colon_not_mem_encoded (hbase64 : base64.RoundTrips) (h : Encoded base64 bs encoded) :
    ':' ∉ encoded := by
  have hencode : ':' ∉ base64.encode bs := by
    intro hmem
    exact absurd (hbase64.alphabet bs _ hmem) (by simp [InAlphabet])
  have hsafe : ':' ∉ urlSafe (base64.encode bs) := by
    intro hmem
    obtain ⟨c, hc, heq⟩ := List.mem_map.mp hmem
    by_cases hplus : c = '+'
    · rw [if_pos hplus] at heq
      exact absurd heq (by decide)
    · by_cases hslash : c = '/'
      · rw [if_neg hplus, if_pos hslash] at heq
        exact absurd heq (by decide)
      · rw [if_neg hplus, if_neg hslash] at heq
        exact hencode (heq ▸ hc)
  have hpadding : ∀ n, ':' ∉ padding n := by
    intro n
    unfold padding
    split_ifs <;> decide
  cases h with
  | standard => exact hencode
  | standardPadded => simp [hencode, hpadding]
  | urlSafe => exact hsafe
  | urlSafePadded => simp [hsafe, hpadding]

end Decoding

section Markers

variable {pattern t : Text}

theorem contains_iff : contains pattern t = true ↔ pattern <:+: t := by
  rw [contains]
  induction t with
  | nil => simp [splitOnceStr, Option.isSome_ite]
  | cons c t ih =>
    rw [splitOnceStr, List.infix_cons_iff, ← List.isPrefixOf_iff_prefix, ← ih]
    by_cases hfound : pattern.isPrefixOf (c :: t) = true
    · simp [hfound]
    · simp [hfound]

theorem not_contains_of_not_mem {c : Char} (hc : c ∈ pattern) (h : c ∉ t) :
    contains pattern t = false := by
  rw [Bool.eq_false_iff]
  intro hfound
  exact h ((contains_iff.mp hfound).subset hc)

theorem infix_dropWhile (h : ∀ c ∈ pattern, isWhitespace c = false) (hne : pattern ≠ [])
    (hcontained : pattern <:+: t) : pattern <:+: t.dropWhile isWhitespace := by
  induction t with
  | nil => exact hcontained
  | cons c t ih =>
    by_cases hc : isWhitespace c = true
    · rw [List.dropWhile_cons_of_pos hc]
      rcases List.infix_cons_iff.mp hcontained with ⟨rest, hprefix⟩ | hcontained
      · obtain ⟨d, pattern, rfl⟩ := List.exists_cons_of_ne_nil hne
        obtain ⟨rfl, -⟩ := List.cons.inj hprefix
        exact absurd hc (by simp [h d List.mem_cons_self])
      · exact ih hcontained
    · rw [List.dropWhile_cons_of_neg hc]
      exact hcontained

/-- Trimming cuts no occurrence of a pattern without white space. -/
theorem contains_trim (h : ∀ c ∈ pattern, isWhitespace c = false) (hne : pattern ≠ [])
    (hfound : contains pattern t = true) : contains pattern (trim t) = true := by
  rw [contains_iff] at hfound ⊢
  have hstart := infix_dropWhile h hne hfound
  have hreverse : ∀ c ∈ pattern.reverse, isWhitespace c = false :=
    fun c hc => h c (List.mem_reverse.mp hc)
  have hend := infix_dropWhile hreverse (by simpa using hne) (List.reverse_infix.mpr hstart)
  rw [← List.reverse_infix] at hend
  simpa [trim, trimStart, trimEnd, List.rdropWhile] using hend

theorem filter_dropWhile (t : Text) :
    (t.dropWhile isWhitespace).filter (fun c => !isWhitespace c) =
      t.filter fun c => !isWhitespace c := by
  induction t with
  | nil => rfl
  | cons c t ih =>
    by_cases hc : isWhitespace c = true
    · rw [List.dropWhile_cons_of_pos hc, ih, List.filter_cons_of_neg (by simp [hc])]
    · rw [List.dropWhile_cons_of_neg hc]

theorem filter_trim (t : Text) :
    (trim t).filter (fun c => !isWhitespace c) = t.filter fun c => !isWhitespace c := by
  rw [trim, trimEnd, List.rdropWhile, List.filter_reverse, filter_dropWhile, List.filter_reverse,
    List.reverse_reverse, trimStart, filter_dropWhile]

end Markers

section Transparency

variable {codecs : Codecs} {payload form : Text}

theorem trim_ne_nil (hmarked : contains "://" payload = true) : trim payload ≠ [] := by
  intro hnil
  have hfound : contains "://" (trim payload) = true :=
    contains_trim (by decide) (by decide) hmarked
  rw [hnil] at hfound
  exact absurd hfound (by decide)

theorem decodePayload_plain (hmarked : contains "://" payload = true) :
    decodePayload codecs.base64 payload .auto = .ok payload := by
  rw [decodePayload, if_pos]
  exact .inr (contains_trim (by decide) (by decide) hmarked)

theorem decodeBase64Text_form (hbase64 : codecs.base64.RoundTrips)
    (hmarked : contains "://" payload = true) (hform : Base64Form codecs.base64 payload form) :
    decodeBase64Text codecs.base64 (trim form) = some payload := by
  have htrim := trim_ne_nil hmarked
  have hbytes : bytes payload ≠ [] := by
    intro hnil
    rw [bytes_injective (hnil.trans bytes_nil.symm)] at htrim
    exact htrim rfl
  rw [decodeBase64Text, filter_trim, decodeB64Lenient_encoded hbase64 hbytes hform]
  simp [fromUtf8_bytes, htrim]

theorem decodePayload_form (hbase64 : codecs.base64.RoundTrips)
    (hmarked : contains "://" payload = true) (hform : Base64Form codecs.base64 payload form) :
    decodePayload codecs.base64 form .auto = .ok payload := by
  have hdecoded := decodeBase64Text_form hbase64 hmarked hform
  have hcolon : ':' ∉ trim form := by
    intro hmem
    apply colon_not_mem_encoded hbase64 hform
    rw [← filter_trim]
    exact List.mem_filter.mpr ⟨hmem, by decide⟩
  have hnot : contains "://" (trim form) = false := not_contains_of_not_mem (by decide) hcolon
  have hne : trim form ≠ [] := by
    intro hnil
    rw [hnil] at hdecoded
    simp [decodeBase64Text, decodeB64Lenient] at hdecoded
  have hguard : ¬ (trim form = [] ∨ contains "://" (trim form) = true) := by
    rw [hnot]
    simpa using hne
  have hlooks : looksDecoded payload = true := by
    rw [looksDecoded, hmarked]
    rfl
  simp only [decodePayload]
  rw [if_neg hguard, hdecoded]
  simp only [hlooks, if_true]

/-- In automatic mode every base64 form of a plain payload gives the result of the payload itself:
the same entries, counters and format, or the same error. -/
theorem auto_base64_transparent (hbase64 : codecs.base64.RoundTrips)
    (hmarked : contains "://" payload = true) (hform : Base64Form codecs.base64 payload form)
    (inputFormat : Option InputFormat) :
    parseSubscription codecs form .auto inputFormat =
      parseSubscription codecs payload .auto inputFormat := by
  rw [parseSubscription, parseSubscription, decodePayload_form hbase64 hmarked hform,
    decodePayload_plain hmarked]

end Transparency

open LineRoundTrip (sampleCodecs)

theorem auto_base64_transparent_sample :
    parseSubscription sampleCodecs "YTov\nL2I" .auto none =
      parseSubscription sampleCodecs "a://b" .auto none := by
  have hform : Base64Form sampleCodecs.base64 "a://b" "YTov\nL2I" := by
    have hbody : (("YTov\nL2I" : Text).filter fun c => !isWhitespace c) =
        sampleCodecs.base64.encode (bytes "a://b") := by
      decide +kernel
    rw [Base64Form, hbody]
    exact .standard
  exact auto_base64_transparent standard_roundTrips (by decide +kernel) hform none

end EncodedPayload
