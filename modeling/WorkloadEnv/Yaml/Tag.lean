/-! # Tags

    A tag tells what kind of value a node has.  It is a string of bytes that
    need not be a text, for an escape may stand for any byte; and it ends before
    its first zero byte.  Five tags of the core types force a type, and a tag of
    the document's own, which starts with a mark, stays on the value. -/

namespace WorkloadEnv.Yaml

structure Tag where
  bytes : List UInt8
  deriving DecidableEq, Repr

/-- What the tag of a node asks for. -/
inductive TagKind where
  /-- Nothing: there is no tag, or one of the document's own that is no text. -/
  | none
  /-- A tag of the document's own, which stays on the value. -/
  | own (name : String)
  | bool
  | int
  | float
  | null
  /-- Any other tag, which makes a scalar a text and nothing else of a list or mapping. -/
  | other
  deriving DecidableEq, Repr

namespace Tag

/-- The tag of the bytes before the first zero. -/
def ofBytes (bs : List UInt8) : Tag := ⟨bs.takeWhile (· ≠ 0)⟩

def ofText (s : String) : Tag := ofBytes s.toUTF8.data.toList

/-- The tag of one part and then the other. -/
def append (s t : Tag) : Tag := ⟨s.bytes ++ t.bytes⟩

def isEmpty (t : Tag) : Bool := t.bytes.isEmpty

/-- The mark that a tag of a document's own starts with, and that stands alone
    for the tag without a name. -/
def mark : Tag := ofText "!"

/-- What the tags of the core types start with. -/
def core : Tag := ofText "tag:yaml.org,2002:"

/-- Does the tag start with the mark? -/
def isMarked (t : Tag) : Bool := mark.bytes.isPrefixOf t.bytes

/-- Drops a mark at the start, unless nothing follows it. -/
def unmark (t : Tag) : Tag :=
  if t.isMarked && t ≠ mark then ⟨t.bytes.drop mark.bytes.length⟩ else t

/-- The name of a tag of the document's own, if it is a text: what follows the
    mark, where a second mark counts for nothing, or the mark alone. -/
def ownName? (t : Tag) : Option String := String.fromUTF8? t.unmark.unmark.bytes.toByteArray

def kind (t : Tag) : TagKind :=
  if t.isMarked then
    match t.ownName? with
    | some name => .own name
    | none => .none
  else if t = core.append (ofText "bool") then .bool
  else if t = core.append (ofText "int") then .int
  else if t = core.append (ofText "float") then .float
  else if t = core.append (ofText "null") then .null
  else .other

end Tag

/-- What a tag asks for, if there is one. -/
def TagKind.of (tag : Option Tag) : TagKind :=
  match tag with
  | some t => t.kind
  | .none => .none

end WorkloadEnv.Yaml
