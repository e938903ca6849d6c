import WorkloadEnv.Decode.Source

/-! # YAML values

    What a YAML document stands for: like JSON, with any value as a key, and
    with tags of its own on values.  The entries of a mapping keep their order.
    A typed reader looks through tags; only data that is kept as it is may not
    have any. -/

namespace WorkloadEnv.Yaml

inductive Value where
  | null
  | bool (b : Bool)
  | int (n : Int)
  | float (x : Double)
  | text (s : String)
  | list (items : List Value)
  | map (entries : List (Value × Value))
  | tagged (tag : String) (value : Value)
  deriving Repr, Inhabited

namespace Value

/-! ## Looking through tags -/

/-- The value under its tags. -/
def untag : Value → Value
  | tagged _ v => v.untag
  | v => v

/-- Is it the null value, tagged or not? -/
def isNull (v : Value) : Bool :=
  match v.untag with
  | null => true
  | _ => false

/-- What the value is found to be. -/
def found : Value → Found
  | null => .null
  | bool b => .bool b
  | int n => .int n
  | float x => .float x
  | text s => .text s
  | list _ => .list
  | map _ => .map
  | tagged _ v => v.found

/-- The value as a key of a mapping. -/
def key (v : Value) : Key :=
  match v.untag with
  | text s => .text s
  | v => .other v.found

/-- One level of the value. -/
def layer : Value → Layer Value
  | null => .null
  | bool b => .bool b
  | int n => .int n
  | float x => .float x
  | text s => .text s
  | list vs => .list vs
  | map es => .map (es.map fun e => (e.1.key, e.2))
  | tagged _ v => v.layer

/-! ## Equality of keys -/

mutual

/-- Are two values the same key?  The order of the entries of a mapping does not matter. -/
def same : Value → Value → Bool
  | null, null => true
  | bool a, bool b => a == b
  | int a, int b => a == b
  | float a, float b => a.sameNumber b
  | text a, text b => a == b
  | list as, list bs => sameItems as bs
  | map as, map bs => as.length == bs.length && allWithin as bs
  | tagged s a, tagged t b => s == t && same a b
  | _, _ => false

def sameItems : List Value → List Value → Bool
  | [], [] => true
  | a :: as, b :: bs => same a b && sameItems as bs
  | _, _ => false

/-- Is each entry of the first mapping in the second? -/
def allWithin : List (Value × Value) → List (Value × Value) → Bool
  | [], _ => true
  | (k, v) :: es, fs => fs.any (fun f => same k f.1 && same v f.2) && allWithin es fs

end

/-! ## Free-form data -/

mutual

/-- Checks that there is no tag at any depth. -/
def checkUntagged : Value → Except DecodeError Unit
  | list vs => checkItems vs
  | map es => checkEntries es
  | tagged _ _ => .error .tagInData
  | _ => .ok ()

def checkItems : List Value → Except DecodeError Unit
  | [] => .ok ()
  | v :: vs => do
    checkUntagged v
    checkItems vs

def checkEntries : List (Value × Value) → Except DecodeError Unit
  | [] => .ok ()
  | (k, v) :: es => do
    checkUntagged k
    checkUntagged v
    checkEntries es

end

mutual

/-- The value as JSON: every key has to be a text, and a number that is not finite is null. -/
def free : Value → Except DecodeError Json
  | null => .ok .null
  | bool b => .ok (.bool b)
  | int n => .ok (.int n)
  | float x => .ok (if x.isFinite then .float x else .null)
  | text s => .ok (.text s)
  | list vs => (freeItems vs).map .list
  | map es => (freeEntries "a string key" [] es).map .object
  | tagged _ _ => .error (.wrongType .tagged "any valid JSON value")

def freeItems : List Value → Except DecodeError (List Json)
  | [] => .ok []
  | v :: vs => do
    let j ← free v
    let js ← freeItems vs
    .ok (j :: js)

/-- The entries by name.  What is expected of the first key is worded in its own way. -/
def freeEntries (expected : String) (acc : Members Json) :
    List (Value × Value) → Except DecodeError (Members Json)
  | [] => .ok acc
  | (k, v) :: es =>
    match k.key with
    | .other found => .error (.wrongType found expected)
    | .text name => do
      let j ← free v
      freeEntries "a string" (Members.put name j acc) es

end

instance : Source Value where
  layer := layer
  absent := fun
    | null => true
    | _ => false
  nullIsEmpty := true
  keepable := checkUntagged
  free := free

end Value

end WorkloadEnv.Yaml
