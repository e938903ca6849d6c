import WorkloadEnv.Decode.Error
import WorkloadEnv.Json.Basic

/-! # Values that typed readers read from

    A typed reader looks at one level of a value at a time (`Layer`).  That is
    all it needs to know of the format, so the same readers serve JSON and
    YAML, which differ in three points: what counts as absent, whether the
    absent value is read as an empty list or mapping, and which keys a mapping
    may have. -/

namespace WorkloadEnv

/-- A key of a mapping: a text, or something that is no member name. -/
inductive Key where
  | text (s : String)
  | other (found : Found)
  deriving DecidableEq, Repr

/-- One level of a value. -/
inductive Layer (α : Type) where
  | null
  | bool (b : Bool)
  | int (n : Int)
  | float (x : Double)
  | text (s : String)
  | list (items : List α)
  | map (entries : List (Key × α))

/-- What the value is found to be. -/
def Layer.found {α : Type} : Layer α → Found
  | null => .null
  | bool b => .bool b
  | int n => .int n
  | float x => .float x
  | text s => .text s
  | list _ => .list
  | map _ => .map

/-- A format that typed readers can read. -/
class Source (α : Type) where
  /-- One level of the value, a tag on it looked through. -/
  layer : α → Layer α
  /-- Does the value count as absent where a member is optional? -/
  absent : α → Bool
  /-- Is the absent value read as an empty list or mapping? -/
  nullIsEmpty : Bool
  /-- Checks that the value can be kept as free-form data of a document. -/
  keepable : α → Except DecodeError Unit
  /-- The value as free-form data. -/
  free : α → Except DecodeError Json

namespace Json

/-- One level of a JSON value; every key is a text. -/
def layer : Json → Layer Json
  | null => .null
  | bool b => .bool b
  | int n => .int n
  | float x => .float x
  | text s => .text s
  | list js => .list js
  | object ms => .map (ms.map fun m => (.text m.1, m.2))

/-- Is it the absent value? -/
def isNull : Json → Bool
  | null => true
  | _ => false

instance : Source Json where
  layer := layer
  absent := isNull
  nullIsEmpty := false
  keepable := fun _ => .ok ()
  free := .ok

end Json

end WorkloadEnv
