import Fumox.LineParser
import Fumox.UriRoundTrip

/-!
The lines of the URI family: which specification a scheme is parsed and printed with, and what one
trip of an entry through a printed line does to each component.
-/

namespace UriLines

open RustText PercentText ProxyModels UriGrammar UriRoundTrip LineParser

section Dispatch

variable {codecs : Codecs} {s : Scheme} {spec : UriSchemeSpec}

/-- The specification of a scheme whose name is the scheme of its lines. -/
def uriSpec : Scheme → Option UriSchemeSpec
  | .vless => some vlessSpec
  | .trojan => some trojanSpec
  | .hysteria2 => some hysteria2Spec
  | .tuic => some tuicSpec
  | .mieru => some mieruSpec
  | .socks5 => some socks5Spec
  | .snell => some snellSpec
  | .anyTls => some anyTlsSpec
  | .naive | .ss | .vmess => none

theorem uriSpec_scheme (h : uriSpec s = some spec) :
    spec.scheme = s ∧ spec.uriPrefix = s.asStr ++ "://" := by
  cases s <;> simp only [uriSpec, Option.some.injEq, reduceCtorEq] at h <;> subst h <;>
    exact ⟨rfl, by decide⟩

theorem uriSpec_required (h : uriSpec s = some spec) :
    spec.credentialRequired = true ↔ s ≠ .socks5 := by
  cases s <;> simp only [uriSpec, Option.some.injEq, reduceCtorEq] at h <;> subst h <;> decide

theorem parseScheme_spec (h : uriSpec s = some spec) (rest line : Text) :
    parseScheme codecs s.asStr rest line = parsed (parseWithSpec spec rest line) := by
  cases s <;> simp only [uriSpec, Option.some.injEq, reduceCtorEq] at h <;> subst h <;> rfl

theorem parseScheme_naive {transport : Text} (h : transport = "https" ∨ transport = "quic")
    (rest line : Text) :
    parseScheme codecs ("naive+" ++ transport) rest line = parseNaive transport rest line := by
  rcases h with rfl | rfl <;> rfl

theorem serialize_spec {entry : ProxyEntry} (h : uriSpec entry.scheme = some spec) :
    serialize codecs entry =
      serializeWithSpec spec (sanitizeForOutput (canonicalForm codecs.yaml entry)) := by
  have hscheme : (sanitizeForOutput (canonicalForm codecs.yaml entry)).scheme = entry.scheme := by
    unfold canonicalForm
    split <;> rfl
  dsimp only [serialize]
  rw [hscheme]
  revert h
  cases entry.scheme <;> simp only [uriSpec, Option.some.injEq, reduceCtorEq, false_implies] <;>
    (intro h; subst h; rfl)

theorem serialize_naive {entry : ProxyEntry} (h : entry.scheme = .naive) :
    serialize codecs entry =
      serializeNaive (sanitizeForOutput (canonicalForm codecs.yaml entry)) := by
  have hscheme : (sanitizeForOutput (canonicalForm codecs.yaml entry)).scheme = entry.scheme := by
    unfold canonicalForm
    split <;> rfl
  dsimp only [serialize]
  rw [hscheme, h]

/-- A line with a scheme in front loses only white space at its end. -/
theorem parseLine_anycase {scheme body : Text} (hscheme : ∀ c ∈ scheme, isWhitespace c = false)
    (hcolon : ':' ∉ scheme) (hlen : (bytes (scheme ++ ("://" ++ body))).length ≤ maxLineBytes) :
    parseLine codecs (scheme ++ ("://" ++ body)) =
      parseScheme codecs (toAsciiLowercase scheme) (trimEnd body)
        (scheme ++ ("://" ++ trimEnd body)) := by
  have hstart : trimStart (scheme ++ ("://" ++ body)) = scheme ++ ("://" ++ body) := by
    refine trimStart_eq_self fun c hc => ?_
    cases scheme with
    | nil =>
      obtain rfl : ':' = c := by simpa using hc
      rfl
    | cons d t =>
      obtain rfl : d = c := by simpa using hc
      exact hscheme d List.mem_cons_self
  have hend : trimEnd (scheme ++ ("://" ++ body)) = scheme ++ ("://" ++ trimEnd body) := by
    have hassoc : ∀ t : Text, scheme ++ ("://" ++ t) = (scheme ++ [':', '/']) ++ '/' :: t := by
      intro t
      simp
    rw [hassoc, hassoc]
    exact trimEnd_append_cons (by decide) _ _
  have hsplit : splitOnceStr "://" (scheme ++ ("://" ++ trimEnd body)) =
      some (scheme, trimEnd body) := splitOnceStr_append hcolon
  rw [parseLine, if_neg (by omega), trim, hstart, hend, hsplit]

theorem parseLine_scheme {scheme body : Text} (hscheme : ∀ c ∈ scheme, isWhitespace c = false)
    (hcolon : ':' ∉ scheme) (hlower : toAsciiLowercase scheme = scheme)
    (hlen : (bytes (scheme ++ ("://" ++ body))).length ≤ maxLineBytes) :
    parseLine codecs (scheme ++ ("://" ++ body)) =
      parseScheme codecs scheme (trimEnd body) (scheme ++ ("://" ++ trimEnd body)) := by
  rw [parseLine_anycase hscheme hcolon hlen, hlower]

theorem parseLine_spec (h : uriSpec s = some spec) {body : Text}
    (hlen : (bytes (s.asStr ++ ("://" ++ body))).length ≤ maxLineBytes) :
    parseLine codecs (s.asStr ++ ("://" ++ body)) =
      parsed (parseWithSpec spec (trimEnd body) (s.asStr ++ ("://" ++ trimEnd body))) := by
  have hwhite : ∀ c ∈ s.asStr, isWhitespace c = false := by cases s <;> decide
  have hcolon : ':' ∉ s.asStr := by cases s <;> decide
  have hlower : toAsciiLowercase s.asStr = s.asStr := by cases s <;> decide
  rw [parseLine_scheme hwhite hcolon hlower hlen, parseScheme_spec h]

theorem parseLine_naive {transport body : Text} (h : transport = "https" ∨ transport = "quic")
    (hlen : (bytes ("naive+" ++ transport ++ ("://" ++ body))).length ≤ maxLineBytes) :
    parseLine codecs ("naive+" ++ transport ++ ("://" ++ body)) =
      parseNaive transport (trimEnd body) ("naive+" ++ transport ++ ("://" ++ trimEnd body)) := by
  have hwhite : ∀ c ∈ ("naive+" : Text) ++ transport, isWhitespace c = false := by
    rcases h with rfl | rfl <;> decide
  have hcolon : ':' ∉ ("naive+" : Text) ++ transport := by rcases h with rfl | rfl <;> decide
  have hlower : toAsciiLowercase (("naive+" : Text) ++ transport) = "naive+" ++ transport := by
    rcases h with rfl | rfl <;> decide
  rw [parseLine_scheme hwhite hcolon hlower hlen, parseScheme_naive h]

theorem parsed_eq {ε : Type} {x : Except ε ProxyEntry} {entry : ProxyEntry} :
    parsed x = .parsed entry ↔ x = .ok entry := by
  cases x <;> simp [parsed]

theorem ss_scheme {rest line : Text} {entry : ProxyEntry}
    (h : SsLine.parse codecs.base64 rest line = .ok entry) : entry.scheme = .ss := by
  unfold SsLine.parse at h
  rcases hf : splitFragment rest with ⟨beforeFrag, fragment⟩
  rcases hq : splitQuery beforeFrag with ⟨beforeQuery, query⟩
  simp only [hf, hq] at h
  obtain ⟨_, _, h⟩ := bind_eq_ok.mp h
  obtain ⟨_, _, h⟩ := bind_eq_ok.mp h
  obtain rfl := Except.ok.inj h
  rfl

theorem vmess_scheme {rest line : Text} {entry : ProxyEntry}
    (h : VmessLine.parse codecs.base64 codecs.json rest line = .ok entry) :
    entry.scheme = .vmess := by
  unfold VmessLine.parse at h
  rcases hf : splitFragment rest with ⟨b64, fragment⟩
  simp only [hf] at h
  iterate 13
    obtain ⟨_, _, h⟩ := bind_eq_ok.mp h
  obtain rfl := Except.ok.inj h
  rfl

theorem uriSpec_of_specNamed {scheme : Text} (h : specNamed scheme = some spec) :
    uriSpec spec.scheme = some spec := by
  unfold specNamed at h
  split_ifs at h <;> obtain rfl := Option.some.inj h <;> rfl

/-- Which parser a parsed line came from. -/
theorem parseScheme_cases {scheme rest line : Text} {entry : ProxyEntry}
    (h : parseScheme codecs scheme rest line = .parsed entry) :
    (∃ spec, uriSpec entry.scheme = some spec ∧ parseWithSpec spec rest line = .ok entry) ∨
      SsLine.parse codecs.base64 rest line = .ok entry ∨
      VmessLine.parse codecs.base64 codecs.json rest line = .ok entry ∨
      ∃ (transport : Text) (inner : ProxyEntry), (transport = "https" ∨ transport = "quic") ∧
        parseWithSpec naiveSpec rest line = .ok inner ∧
          entry = withTransport transport inner := by
  unfold parseScheme at h
  split at h
  next spec hnamed =>
    have hok := parsed_eq.mp h
    obtain ⟨parts, -, -, rfl⟩ := parseWithSpec_eq_ok.mp hok
    exact .inl ⟨spec, uriSpec_of_specNamed hnamed, hok⟩
  next =>
    split_ifs at h
    · exact .inr (.inl (parsed_eq.mp h))
    · exact .inr (.inr (.inl (parsed_eq.mp h)))
    · cases hstrip : stripNaive scheme with
      | none => simp [hstrip] at h
      | some transport =>
        simp only [hstrip, Option.elim_some, parseNaive] at h
        split_ifs at h with htransport
        split at h
        next inner hok =>
          exact .inr (.inr (.inr ⟨transport, inner, htransport, hok, (LineOutcome.parsed.inj h).symm⟩))
        next => cases h

/-- What `parseScheme` accepted outside ss and vmess came from the generic parser. -/
theorem parseScheme_eq_parsed {scheme rest line : Text} {entry : ProxyEntry}
    (h : parseScheme codecs scheme rest line = .parsed entry) (hss : entry.scheme ≠ .ss)
    (hvmess : entry.scheme ≠ .vmess) :
    (∃ spec, uriSpec entry.scheme = some spec ∧ parseWithSpec spec rest line = .ok entry) ∨
      ∃ (transport : Text) (inner : ProxyEntry), (transport = "https" ∨ transport = "quic") ∧
        parseWithSpec naiveSpec rest line = .ok inner ∧
          entry = withTransport transport inner := by
  rcases parseScheme_cases h with hspec | hok | hok | hnaive
  · exact .inl hspec
  · exact absurd (ss_scheme hok) hss
  · exact absurd (vmess_scheme hok) hvmess
  · exact .inr hnaive

theorem naive_scheme {transport rest line : Text} {inner : ProxyEntry}
    (h : parseWithSpec naiveSpec rest line = .ok inner) :
    (withTransport transport inner).scheme = .naive := by
  obtain ⟨parts, -, -, rfl⟩ := parseWithSpec_eq_ok.mp h
  rfl

theorem parseScheme_eq_parsed_ss {scheme rest line : Text} {entry : ProxyEntry}
    (h : parseScheme codecs scheme rest line = .parsed entry) (hss : entry.scheme = .ss) :
    SsLine.parse codecs.base64 rest line = .ok entry := by
  rcases parseScheme_cases h with ⟨spec, hspec, -⟩ | hok | hok | ⟨_, _, -, hok, rfl⟩
  · rw [hss] at hspec
    cases hspec
  · exact hok
  · exact absurd ((vmess_scheme hok).symm.trans hss) (by decide)
  · exact absurd ((naive_scheme hok).symm.trans hss) (by decide)

theorem parseScheme_eq_parsed_vmess {scheme rest line : Text} {entry : ProxyEntry}
    (h : parseScheme codecs scheme rest line = .parsed entry) (hvmess : entry.scheme = .vmess) :
    VmessLine.parse codecs.base64 codecs.json rest line = .ok entry := by
  rcases parseScheme_cases h with ⟨spec, hspec, -⟩ | hok | hok | ⟨_, _, -, hok, rfl⟩
  · rw [hvmess] at hspec
    cases hspec
  · exact absurd ((ss_scheme hok).symm.trans hvmess) (by decide)
  · exact hok
  · exact absurd ((naive_scheme hok).symm.trans hvmess) (by decide)

theorem splitOnceStr_nil {c : Char} {pattern : Text} : splitOnceStr (c :: pattern) [] = none := rfl

theorem parseLine_eq_parsed {line : Text} {entry : ProxyEntry}
    (h : parseLine codecs line = .parsed entry) :
    ∃ scheme rest, trim line ≠ [] ∧
      parseScheme codecs scheme rest (trim line) = .parsed entry := by
  unfold parseLine at h
  split at h
  · simp at h
  split at h
  · simp at h
  next schemeRaw rest hsplit =>
    refine ⟨_, rest, ?_, h⟩
    intro hempty
    rw [hempty] at hsplit
    exact absurd (splitOnceStr_nil.symm.trans hsplit) (by simp)

end Dispatch

end UriLines
