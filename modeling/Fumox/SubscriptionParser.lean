import Fumox.StructuredEntries

/-!
Whole subscription payloads: the transport encoding is unwrapped, the format detected, and each
line, item or outbound parsed or counted.
-/

namespace SubscriptionParser

open RustText PercentText ProxyModels UriGrammar PayloadGuards Base64Text JsonValue YamlValue
  LineParser

inductive Encoding where
  | auto | plain | base64
  deriving DecidableEq, Repr

namespace Encoding

def asStr : Encoding → Text
  | plain => "plain"
  | base64 => "base64"
  | auto => "auto"

def fromStr (s : Text) : Option Encoding :=
  if s = "plain" then some plain
  else if s = "base64" then some base64
  else if s = "auto" then some auto
  else none

theorem fromStr_asStr (encoding : Encoding) : fromStr encoding.asStr = some encoding := by
  cases encoding <;> decide

end Encoding

inductive InputFormat where
  | uriList | clashYaml | singBoxJson
  deriving DecidableEq, Repr

namespace InputFormat

def asStr : InputFormat → Text
  | uriList => "uri_list"
  | clashYaml => "clash_yaml"
  | singBoxJson => "sing_box_json"

def fromStr (s : Text) : Option InputFormat :=
  if s = "uri_list" then some uriList
  else if s = "clash_yaml" then some clashYaml
  else if s = "sing_box_json" then some singBoxJson
  else none

theorem fromStr_asStr (format : InputFormat) : fromStr format.asStr = some format := by
  cases format <;> decide

end InputFormat

structure ParsedSubscription where
  entries : List ProxyEntry := []
  discarded : ℕ := 0
  unrecognized : ℕ := 0
  clashSkipped : ℕ := 0
  format : InputFormat
  deriving DecidableEq

/-- Why a payload as a whole is unusable. -/
inductive PayloadError where
  | invalidBase64
  | clash (e : ClashParser.ClashError)
  | singbox (e : SingboxParser.PayloadError)

def contains (pattern text : Text) : Bool :=
  (splitOnceStr pattern text).isSome

/-- Interior white space is no part of base64, and a blank text is no subscription. -/
def decodeBase64Text (base64 : Base64) (input : Text) : Option Text := do
  let decoded ← SsLine.decodeB64Lenient base64 (input.filter fun c => !isWhitespace c)
  let text ← fromUtf8 decoded
  if trim text = [] then none else some text

def looksDecoded (decoded : Text) : Bool :=
  contains "://" decoded || contains "proxies:" decoded ||
    (trimStart decoded).head? = some '\x7b' || (trimStart decoded).head? = some '['

def decodePayload (base64 : Base64) (payload : Text) : Encoding → Except PayloadError Text
  | .plain => .ok payload
  | .base64 => (decodeBase64Text base64 payload).elim (.error .invalidBase64) .ok
  | .auto =>
    if trim payload = [] ∨ contains "://" (trim payload) then .ok payload
    else
      match decodeBase64Text base64 (trim payload) with
      | some decoded => .ok (if looksDecoded decoded then decoded else payload)
      | none => .ok payload

def detectFormat (text : Text) : InputFormat :=
  let trimmed := trimStart text
  if trimmed.head? = some '\x7b' ∨ trimmed.head? = some '[' then .singBoxJson
  else if ("proxies:" : Text).isPrefixOf trimmed || contains "\nproxies:" text ||
    contains "\r\nproxies:" text then .clashYaml
  else .uriList

def isSkippedLine (line : Text) : Bool :=
  line = [] || line.head? = some '#'

/-- Malformed lines are counted, never fatal. -/
def countLine (codecs : Codecs) (result : ParsedSubscription) (line : Text) : ParsedSubscription :=
  if isSkippedLine (trim line) then result
  else
    match parseLine codecs (trim line) with
    | .parsed entry => { result with entries := result.entries ++ [entry] }
    | .discarded => { result with discarded := result.discarded + 1 }
    | .unrecognized => { result with unrecognized := result.unrecognized + 1 }

def parseUriList (codecs : Codecs) (text : Text) : ParsedSubscription :=
  (lines text).foldl (countLine codecs) { format := .uriList }

def parseClashPayload (codecs : Codecs) (text : Text) : Except PayloadError ParsedSubscription :=
  match ClashParser.parsePayload codecs.yaml text with
  | .ok result => .ok {
      entries := result.entries
      clashSkipped := result.unsupported + result.invalid
      format := .clashYaml }
  | .error e => .error (.clash e)

def parseSingboxPayload (codecs : Codecs) (text : Text) : Except PayloadError ParsedSubscription :=
  match SingboxParser.parsePayload codecs.json text with
  | .ok result => .ok {
      entries := result.entries
      clashSkipped := result.unsupported + result.invalid
      format := .singBoxJson }
  | .error e => .error (.singbox e)

/-- Explicit pins override the detection. -/
def parseSubscription (codecs : Codecs) (payload : Text) (encoding : Encoding)
    (inputFormat : Option InputFormat) : Except PayloadError ParsedSubscription := do
  let text ← decodePayload codecs.base64 payload encoding
  match inputFormat.getD (detectFormat text) with
  | .uriList => return parseUriList codecs text
  | .clashYaml => parseClashPayload codecs text
  | .singBoxJson => parseSingboxPayload codecs text

/-- The entry of a line, when it has one. -/
def lineEntry (codecs : Codecs) (line : Text) : Option ProxyEntry :=
  if isSkippedLine (trim line) then none
  else
    match parseLine codecs (trim line) with
    | .parsed entry => some entry
    | _ => none

theorem entries_countLine (codecs : Codecs) (result : ParsedSubscription) (line : Text) :
    (countLine codecs result line).entries = result.entries ++ (lineEntry codecs line).toList := by
  unfold countLine lineEntry
  by_cases hskip : isSkippedLine (trim line) = true
  · simp [hskip]
  · rw [if_neg hskip, if_neg hskip]
    cases parseLine codecs (trim line) <;> simp

theorem entries_parseUriList (codecs : Codecs) (text : Text) :
    (parseUriList codecs text).entries = (lines text).filterMap (lineEntry codecs) := by
  have hfold : ∀ (ls : List Text) (result : ParsedSubscription),
      (ls.foldl (countLine codecs) result).entries =
        result.entries ++ ls.filterMap (lineEntry codecs) := by
    intro ls
    induction ls with
    | nil => simp
    | cons line ls ih =>
      intro result
      rw [List.foldl_cons, ih, entries_countLine]
      cases hline : lineEntry codecs line <;> simp [hline]
  exact hfold (lines text) { format := .uriList }

theorem lineEntry_eq_some {codecs : Codecs} {line : Text} {entry : ProxyEntry} :
    lineEntry codecs line = some entry ↔
      isSkippedLine (trim line) = false ∧ parseLine codecs (trim line) = .parsed entry := by
  unfold lineEntry
  by_cases hskip : isSkippedLine (trim line) = true
  · simp [hskip]
  · rw [if_neg hskip]
    cases parseLine codecs (trim line) <;> simp [hskip]

end SubscriptionParser
