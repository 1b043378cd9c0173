import Fumox.JsonValue
import Fumox.SsLine

/-!
vmess lines: a JSON object in base64, whose fields become the entry and its parameters.
-/

namespace VmessLine

open RustText PercentText ProxyModels UriGrammar PayloadGuards Base64Text JsonValue SsLine

def knownFields : List Text :=
  ["v", "ps", "add", "port", "id", "aid", "scy", "net", "type", "host", "path", "tls", "sni",
    "alpn", "fp", "allowinsecure", "insecure", "skip-cert-verify"]

def consumedFields : List Text := ["ps", "add", "port", "id"]

inductive VmessError where
  | emptyPayload
  | invalidBase64
  | invalidJson
  | notAnObject
  | notAString (field : Text)
  | missingField (field : Text)
  | portOutOfRange (image : Text)
  | invalidPort (port : Text)
  | notNumeric (field : Text)
  | emptyAdd
  | tooManyFields (count : ℕ)
  | lineBreak (field : Text)
  | oversizedField
  deriving DecidableEq, Repr

def fromSlice (json : SerdeJson) (payload : List UInt8) : Option Json :=
  (fromUtf8 payload).bind json.fromStr

def stringField (object : List (Text × Json)) (key : Text) : Except VmessError Text :=
  match objectGet object key with
  | some (.str s) => .ok s
  | some (.num n) => .ok n.image
  | some _ => .error (.notAString key)
  | none => .error (.missingField key)

def numericField (object : List (Text × Json)) (key : Text) : Except VmessError UInt16 :=
  match objectGet object key with
  | some (.num n) =>
    match n.asU64 with
    | some v => if v < 65536 then .ok (UInt16.ofNat v) else .error (.portOutOfRange n.image)
    | none => .error (.portOutOfRange n.image)
  | some (.str s) =>
    match parseU16 (trim s) with
    | some port => .ok port
    | none => .error (.invalidPort s)
  | some _ => .error (.notNumeric key)
  | none => .error (.missingField key)

def jsonToParamValue (json : SerdeJson) : Json → Text
  | .str s => s
  | .num n => n.image
  | .bool b => if b then "true" else "false"
  | .null => []
  | other => json.toStr other

def fieldParam (json : SerdeJson) (f : Text × Json) : Param where
  key := f.1
  value := jsonToParamValue json f.2
  known := knownFields.contains (toAsciiLowercase f.1)

/-- `v` first, the rest in stored order. -/
def versionFirst (params : List Param) : List Param :=
  params.filter (fun p => p.key == ['v']) ++ params.filter (fun p => p.key != ['v'])

def objectParams (json : SerdeJson) (object : List (Text × Json)) : List Param :=
  versionFirst ((object.filter fun f => !consumedFields.contains f.1).map (fieldParam json))

def parse (base64 : Base64) (json : SerdeJson) (rest rawLine : Text) :
    Except VmessError ProxyEntry := do
  let (b64, _) := splitFragment rest
  ensure (b64 ≠ []) .emptyPayload
  let payload ← (decodeB64Lenient base64 b64).elim (.error .invalidBase64) .ok
  let value ← (fromSlice json payload).elim (.error .invalidJson) .ok
  let object ← value.asObject.elim (.error .notAnObject) .ok
  let host ← stringField object "add"
  let port ← numericField object "port"
  let credential ← stringField object "id"
  let name := ((objectGet object "ps").bind Json.asStr).getD []
  let params := objectParams json object
  ensure (host ≠ []) .emptyAdd
  ensure (params.length ≤ maxQueryParams) (.tooManyFields params.length)
  (rejectLineBreaks "vmess: add" host).mapError .lineBreak
  (rejectLineBreaks "vmess: id" credential).mapError .lineBreak
  params.forM fun p => (rejectLineBreaks ("vmess: field " ++ p.key) p.value).mapError .lineBreak
  params.forM fun p => (checkParamSize p.key p.value).mapError fun _ => .oversizedField
  return {
    scheme := .vmess
    name, host, port, credential, params
    rawPath := []
    rawLine }

def versionField (entry : ProxyEntry) : List (Text × Text) :=
  (entry.paramIgnoreCase "v").elim [] fun v => [(['v'], v)]

/-- The fields of the entry itself, which no parameter may overwrite. -/
def endpointFields (entry : ProxyEntry) : List (Text × Text) :=
  [("ps", entry.name), ("add", entry.host), ("port", decimal entry.port.toNat),
    ("id", entry.credential)]

def isOwnKey (key : Text) : Bool :=
  eqIgnoreAsciiCase key "v" || consumedFields.any (eqIgnoreAsciiCase key ·)

def copyParam (object : List (Text × Text)) (p : Param) : List (Text × Text) :=
  if isOwnKey p.key then object else insert object p.key p.value

/-- The object in the dominant producer style, all values strings. -/
def exportedObject (entry : ProxyEntry) : List (Text × Text) :=
  entry.params.foldl copyParam (versionField entry ++ endpointFields entry)

def serialize (base64 : Base64) (json : SerdeJson) (entry : ProxyEntry) : Text :=
  "vmess://" ++ base64.encode (bytes (json.toStr (stringObject (exportedObject entry))))

end VmessLine
