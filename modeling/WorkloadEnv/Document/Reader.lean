import WorkloadEnv.Document.Basic

/-! # Reading documents

    The entries of a document are visited twice.  On the first visit, in the
    order in which they stand, the metadata is read and all else only checked
    for whether it can be kept; the type is then taken from what was kept, and
    the rest becomes the data.  Keys that differ in their tags alone are the
    same name, so a name can be there more than once. -/

namespace WorkloadEnv.Document

section

variable {α : Type} [Source α]

/-! ## First visit -/

/-- What the first visit keeps. -/
structure Kept (α : Type) where
  metadata : Option (Members Json)
  /-- The other entries, in their order. -/
  others : List (String × α)

/-- Reads the metadata, which may be there once, and keeps the other entries. -/
def keep (metadata : Option (Members Json)) : List (Key × α) → Except DecodeError (Kept α)
  | [] => .ok ⟨metadata, []⟩
  | (.other found, _) :: _ => .error (.wrongType found "field identifier")
  | (.text name, v) :: es =>
    if name = "metadata" then
      if metadata.isSome then .error (.repeatedMember name)
      else do
        let j ← Kubernetes.objectMeta.read v
        keep (some j.members) es
    else do
      Source.keepable v
      let kept ← keep metadata es
      .ok { kept with others := (name, v) :: kept.others }

/-! ## Type information -/

/-- Is this one of the two members that tell the type? -/
def tellsType (name : String) : Bool := name = "apiVersion" || name = "kind"

/-- The text of a value that is one. -/
def text? (v : α) : Option String :=
  match Source.layer v with
  | .text s => some s
  | _ => none

/-- The type, if both of its members were taken. -/
def typesOf (taken : Members String) : Option TypeMeta :=
  match Members.get? "apiVersion" taken, Members.get? "kind" taken with
  | some apiVersion, some kind => some ⟨apiVersion, kind⟩
  | _, _ => none

/-- Takes the members that tell the type.  One that is no text, or that was taken
    before, is taken too but ends the attempt: then there is no type, and the
    entries after it stay.  What is left keeps its order. -/
def takeTypes (taken : Members String) : List (String × α) → Option TypeMeta × List (String × α)
  | [] => (typesOf taken, [])
  | (name, v) :: es =>
    if tellsType name then
      match Members.get? name taken, text? v with
      | none, some s => takeTypes ((name, s) :: taken) es
      | _, _ => (none, es)
    else
      let (types, left) := takeTypes taken es
      (types, (name, v) :: left)

/-! ## Data -/

/-- The entries as free-form data, by name. -/
def readData : Members Json → List (String × α) → Except DecodeError (Members Json)
  | acc, [] => .ok acc
  | acc, (name, v) :: es => do
    let j ← Source.free v
    readData (Members.put name j acc) es

/-- The document that a value stands for. -/
def read (v : α) : Except DecodeError Document := do
  let entries ← Shape.mapEntries "struct DynamicObject" v
  let kept ← keep none entries
  let (types, left) := takeTypes [] kept.others
  let data ← readData [] left
  .ok { types, metadata := kept.metadata.getD [], data }

end

end WorkloadEnv.Document
