import WorkloadEnv.Decode.Source
import WorkloadEnv.Time.Reader

/-! # Shapes

    A shape is what a typed value looks like, as plain data: records with named
    members, lists, maps and the scalars.  Reading a value under a shape
    (`Shape.read`) gives its normal form, again a JSON value: members the shape
    does not name and members that are absent are left out, required ones that
    are missing get a default, and times are written in one way.  The entries of
    a mapping are visited in the order in which they stand, and the first error
    is the one reported. -/

namespace WorkloadEnv

/-- Must a member be there in the normal form? -/
inductive Presence where
  | required
  | optional
  deriving DecidableEq, Repr

/-- What a typed value looks like. -/
inductive Shape where
  | text
  | bool
  | int32
  | int64
  /-- A 32-bit integer or a text. -/
  | intOrText
  | time
  /-- Anything at all. -/
  | free
  | list (item : Shape)
  | map (value : Shape)
  /-- Members with a fixed text come first; the others are given in the order of their names. -/
  | record (name : String) (fixed : List (String × String))
      (members : List (String × Presence × Shape))
  deriving Repr

namespace Shape

/-! ## Defaults -/

/-- The written form of the beginning of 1970, which stands for a missing time. -/
def defaultTime : String := "1970-01-01T00:00:00Z"

/-- Members with a fixed text. -/
def fixedMembers (fixed : List (String × String)) : Members Json :=
  fixed.map fun f => (f.1, .text f.2)

mutual

/-- The normal form of a required member that is missing. -/
def default : Shape → Json
  | text => .text ""
  | bool => .bool false
  | int32 | int64 | intOrText => .int 0
  | time => .text defaultTime
  | free => .null
  | list _ => .list []
  | map _ => .object []
  | record _ fixed members => .object (fixedMembers fixed ++ defaults members)

/-- The required members, each with its default. -/
def defaults : List (String × Presence × Shape) → Members Json
  | [] => []
  | (name, presence, shape) :: ms =>
    match presence with
    | .required => (name, shape.default) :: defaults ms
    | .optional => defaults ms

end

/-! ## Scalars -/

section

variable {α : Type} [Source α]

/-- Reports a value of the wrong type. -/
def mismatch {β : Type} (l : Layer α) (expected : String) : Except DecodeError β :=
  .error (.wrongType l.found expected)

def readText (v : α) : Except DecodeError Json :=
  match Source.layer v with
  | .text s => .ok (.text s)
  | l => mismatch l "a string"

def readBool (v : α) : Except DecodeError Json :=
  match Source.layer v with
  | .bool b => .ok (.bool b)
  | l => mismatch l "a boolean"

/-- An integer of a width in bits. -/
def readInt (bits : Nat) (expected : String) (v : α) : Except DecodeError Json :=
  match Source.layer v with
  | .int n =>
    if (IntRange.signed bits).contains n then .ok (.int n) else .error (.wrongValue (.int n) expected)
  | l => mismatch l expected

def readIntOrText (v : α) : Except DecodeError Json :=
  match Source.layer v with
  | .int n =>
    if (IntRange.signed 32).contains n then .ok (.int n)
    else .error (.wrongValue (.int n) "a 32-bit integer")
  | .text s => .ok (.text s)
  | l => mismatch l "IntOrString"

def readTime (v : α) : Except DecodeError Json :=
  match Source.layer v with
  | .text s =>
    match Instant.parse s with
    | .ok t => .ok (.text t.text)
    | .error fault => .error (.badTime fault)
  | l => mismatch l "an RFC 3339 formatted date and time string"

/-- A text that has to be the given one. -/
def readFixed (expected : String) (v : α) : Except DecodeError Unit :=
  match Source.layer v with
  | .text s => if s = expected then .ok () else .error (.wrongValue (.text s) expected)
  | l => mismatch l "a string"

/-! ## Lists and maps -/

/-- The items of a list. -/
def listItems (v : α) : Except DecodeError (List α) :=
  match Source.layer v with
  | .list items => .ok items
  | .null => if Source.nullIsEmpty α then .ok [] else .error (.wrongType .null "a sequence")
  | l => mismatch l "a sequence"

/-- The entries of a mapping. -/
def mapEntries (expected : String) (v : α) : Except DecodeError (List (Key × α)) :=
  match Source.layer v with
  | .map entries => .ok entries
  | .null => if Source.nullIsEmpty α then .ok [] else .error (.wrongType .null expected)
  | l => mismatch l expected

/-- Each item in turn. -/
def readItems (read : α → Except DecodeError Json) : List α → Except DecodeError (List Json)
  | [] => .ok []
  | v :: vs => do
    let j ← read v
    let js ← readItems read vs
    .ok (j :: js)

/-- Each entry in turn, collected by name. -/
def readEntries (read : α → Except DecodeError Json) :
    Members Json → List (Key × α) → Except DecodeError (Members Json)
  | acc, [] => .ok acc
  | _, (.other found, _) :: _ => .error (.wrongType found "a string")
  | acc, (.text name, v) :: es => do
    let j ← read v
    readEntries read (Members.put name j acc) es

/-! ## Records -/

/-- How one member of a record is read. -/
structure MemberReader (α : Type) where
  name : String
  /-- The default of a required member. -/
  default? : Option Json
  read : α → Except DecodeError Json

/-- The member of that name. -/
def findReader (name : String) : List (MemberReader α) → Option (MemberReader α)
  | [] => none
  | r :: rs => if r.name = name then some r else findReader name rs

/-- Visits the entries of a mapping.  Fixed members are checked, unknown ones
    passed over, all others read.  The last of a name counts, and one that is
    absent takes an earlier one back. -/
def readKnown (fixed : List (String × String)) (readers : List (MemberReader α)) :
    Members Json → List (Key × α) → Except DecodeError (Members Json)
  | acc, [] => .ok acc
  | _, (.other found, _) :: _ => .error (.wrongType found "field identifier")
  | acc, (.text name, v) :: es =>
    match Members.get? name fixed, findReader name readers with
    | some expected, _ => do
      readFixed expected v
      readKnown fixed readers acc es
    | none, some r =>
      if Source.absent v then readKnown fixed readers (Members.erase name acc) es
      else do
        let j ← r.read v
        readKnown fixed readers (Members.put name j acc) es
    | none, none => readKnown fixed readers acc es

/-- The members in the order of the record: what was read, else the default of a required one. -/
def arrange (readers : List (MemberReader α)) (known : Members Json) : Members Json :=
  readers.filterMap fun r =>
    match Members.get? r.name known with
    | some j => some (r.name, j)
    | none => r.default?.map (r.name, ·)

/-- The normal form of a record. -/
def readRecord (name : String) (fixed : List (String × String)) (readers : List (MemberReader α))
    (v : α) : Except DecodeError Json := do
  let entries ← mapEntries name v
  let known ← readKnown fixed readers [] entries
  .ok (.object (fixedMembers fixed ++ arrange readers known))

/-! ## All shapes -/

mutual

/-- The normal form of a value under a shape. -/
def read : Shape → α → Except DecodeError Json
  | text, v => readText v
  | bool, v => readBool v
  | int32, v => readInt 32 "i32" v
  | int64, v => readInt 64 "i64" v
  | intOrText, v => readIntOrText v
  | time, v => readTime v
  | free, v => Source.free v
  | list item, v => do
    let items ← listItems v
    let js ← readItems (item.read ·) items
    .ok (.list js)
  | map value, v => do
    let entries ← mapEntries "a map" v
    let ms ← readEntries (value.read ·) [] entries
    .ok (.object ms)
  | record name fixed members, v => readRecord name fixed (memberReaders members) v

/-- How the members of a record are read. -/
def memberReaders : List (String × Presence × Shape) → List (MemberReader α)
  | [] => []
  | (name, presence, shape) :: ms =>
    { name
      default? := if presence = .required then some shape.default else none
      read := fun v => shape.read v } :: memberReaders ms

end

end

end Shape

end WorkloadEnv
