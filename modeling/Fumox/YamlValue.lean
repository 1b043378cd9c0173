import Fumox.JsonValue

/-!
YAML values as a decoder yields them, and the textual codec of a YAML library as a parameter.
-/

namespace YamlValue

open RustText JsonValue

inductive Yaml where
  | null
  | bool (b : Bool)
  | num (n : Number)
  | str (t : Text)
  | seq (items : List Yaml)
  | map (fields : List (Yaml × Yaml))
  | tagged (tag : Text) (value : Yaml)
  deriving Repr

namespace Yaml

/-- The value under any tags. -/
def untag : Yaml → Yaml
  | tagged _ value => value.untag
  | value => value

def asStr (y : Yaml) : Option Text :=
  match y.untag with
  | str t => some t
  | _ => none

def asSequence (y : Yaml) : Option (List Yaml) :=
  match y.untag with
  | seq items => some items
  | _ => none

def asMapping (y : Yaml) : Option (List (Yaml × Yaml)) :=
  match y.untag with
  | map fields => some fields
  | _ => none

end Yaml

/-- `Mapping::get` with a string: only untagged string keys match. -/
def mapGet (fields : List (Yaml × Yaml)) (key : Text) : Option Yaml :=
  (fields.find? fun f => match f.1 with
    | .str k => k == key
    | _ => false).map Prod.snd

/-- A YAML library's text codec; printing may fail. -/
structure SerdeNorway where
  toStr : Yaml → Option Text
  fromStr : Text → Option Yaml

end YamlValue
