import WorkloadEnv.Number.Layout
import WorkloadEnv.Yaml.Style

/-! # Writing YAML

    Values are written in block style, two columns for each level; only the empty
    list and the empty mapping are written in flow style.  A list under a key is
    not further in than the key, a collection under the mark of a list entry
    starts on the same line.  Every node ends in a break. -/

namespace WorkloadEnv.Yaml

/-- A scalar or an empty collection on one line, if the value is one. -/
def inline? (indent : Nat) : Json → Option (List Char)
  | .null => some "null".toList
  | .bool b => some (if b then "true" else "false").toList
  | .int n => some (toString n).toList
  | .float x => some x.compact.toList
  | .text s => some (writeText (indent + 2) s)
  | .list [] => some ['[', ']']
  | .object [] => some ['\x7b', '\x7d']
  | _ => none

/-- Adds a break, unless the text ends in one. -/
def endLine (cs : List Char) : List Char :=
  if cs.getLast?.any isBreak then cs else cs ++ ['\n']

/-- Can the text be a key on the line of its value? -/
def isSimpleKey (s : String) : Bool := s.utf8ByteSize ≤ 128 && !s.toList.any isBreak

mutual

/-- A value after the colon of a simple key in a block at `indent`. -/
def writeAfterKey (indent : Nat) (j : Json) : List Char :=
  match j with
  | .list (v :: vs) => '\n' :: spaces indent ++ writeItems indent (v :: vs)
  | .object (m :: ms) => '\n' :: spaces (indent + 2) ++ writeMembers (indent + 2) (m :: ms)
  | j => ' ' :: endLine ((inline? indent j).getD [])

/-- A value after a mark of its own in a block at `indent`. -/
def writeAfterMark (indent : Nat) (j : Json) : List Char :=
  match j with
  | .list (v :: vs) => ' ' :: writeItems (indent + 2) (v :: vs)
  | .object (m :: ms) => ' ' :: writeMembers (indent + 2) (m :: ms)
  | j => ' ' :: endLine ((inline? indent j).getD [])

/-- The items of a list; the first one stands where the line already is. -/
def writeItems (indent : Nat) : List Json → List Char
  | [] => []
  | [v] => '-' :: writeAfterMark indent v
  | v :: vs => '-' :: writeAfterMark indent v ++ spaces indent ++ writeItems indent vs

/-- The members of a mapping; the first one stands where the line already is. -/
def writeMembers (indent : Nat) : List (String × Json) → List Char
  | [] => []
  | (name, v) :: ms =>
    let key := writeText (indent + 2) name
    let member :=
      if isSimpleKey name then key ++ ':' :: writeAfterKey indent v
      else '?' :: ' ' :: endLine key ++ spaces indent ++ ':' :: writeAfterMark indent v
    match ms with
    | [] => member
    | ms => member ++ spaces indent ++ writeMembers indent ms

end

/-- A mapping as a document. -/
def writeDocument (ms : Members Json) : String := String.ofList (writeMembers 0 ms)

end WorkloadEnv.Yaml
