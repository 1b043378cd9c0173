import Fumox.PayloadGuards
import Fumox.PercentText
import Fumox.ProxyModels
import Fumox.YamlValue

/-!
How parsers and writers read the parameters of an entry: decoded scalars, lists, and structured
blocks stored as YAML text.
-/

namespace FormatParams

open RustText PercentText ProxyModels PayloadGuards YamlValue

/-- Stored YAML text read back, alias references refused first. -/
def yamlValue (yaml : SerdeNorway) (t : Text) : Option Yaml :=
  match rejectYamlAliases t with
  | .error _ => none
  | .ok () => yaml.fromStr t

def isInsecure (params : List Param) : Bool :=
  params.any isInsecureParam

def paramValue (entry : ProxyEntry) (key : Text) : Option Text :=
  (entry.paramIgnoreCase key).bind fun raw =>
    if trim raw = [] then none else some (percentDecode (trim raw))

def paramTruthy (entry : ProxyEntry) (key : Text) : Bool :=
  (entry.paramIgnoreCase key).any isTruthyToggle

def listItemText (yaml : SerdeNorway) : Yaml → Text
  | .str s => s
  | other => trim ((yaml.toStr other).getD [])

def nonemptyList (items : List Text) : Option (List Text) :=
  if items = [] then none else some items

/-- Parameter as a list: the items of a YAML sequence, or a value split on commas. -/
def paramList (yaml : SerdeNorway) (entry : ProxyEntry) (key : Text) : Option (List Text) :=
  (entry.paramIgnoreCase key).bind fun raw =>
    if trim raw = [] then none
    else
      match yamlValue yaml raw with
      | some (.seq items) => nonemptyList ((items.map (listItemText yaml)).filter (· ≠ []))
      | _ => nonemptyList ((((percentDecode raw).splitOn ',').map trim).filter (· ≠ []))

def paramMap (yaml : SerdeNorway) (entry : ProxyEntry) (key : Text) :
    Option (List (Yaml × Yaml)) :=
  (entry.paramIgnoreCase key).bind fun raw =>
    match yamlValue yaml (trim raw) with
    | some (.map fields) => if fields = [] then none else some fields
    | _ => none

def capitalize : Text → Text
  | [] => []
  | c :: rest => (if c.toNat < 128 then c.toUpper else c) :: rest

/-- String under the key or its capitalized spelling, trimmed, blank values dropped. -/
def mapStr (fields : Option (List (Yaml × Yaml))) (key : Text) : Option Text :=
  fields.bind fun fields =>
    [key, capitalize key].findSome? fun candidate =>
      ((mapGet fields candidate).bind Yaml.asStr).bind fun value =>
        if trim value = [] then none else some (trim value)

def networkOf (entry : ProxyEntry) (uriKey : Text) : Option Text :=
  (paramValue entry uriKey <|> paramValue entry "network").map toAsciiLowercase

def realityPublicKey (yaml : SerdeNorway) (entry : ProxyEntry) : Option Text :=
  paramValue entry "pbk" <|> mapStr (paramMap yaml entry "reality-opts") "public-key"

def realityShortId (yaml : SerdeNorway) (entry : ProxyEntry) : Option Text :=
  paramValue entry "sid" <|> mapStr (paramMap yaml entry "reality-opts") "short-id"

end FormatParams
