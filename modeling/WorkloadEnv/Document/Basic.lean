import WorkloadEnv.Kubernetes.Metadata

/-! # Documents

    A resource whose kind is not known beforehand: what it says of its type, its
    metadata, and all its other members as free-form data.  Type information
    counts only as a whole, with version and kind both texts; a half of it that
    was looked at is lost, and one that was not stays an ordinary member.

    The free-form data of a document is an object.  That of a document that was
    read always is; a resource that was put together with a text or a list for
    its data, say, is no document in this sense, and a manifest here has none. -/

namespace WorkloadEnv

/-- The type of a resource. -/
structure TypeMeta where
  apiVersion : String
  kind : String
  deriving DecidableEq, Repr

/-- A resource of any kind. -/
structure Document where
  types : Option TypeMeta
  /-- The members of the metadata, in normal form. -/
  metadata : Members Json
  /-- All other members. -/
  data : Members Json
  deriving Repr, Inhabited

namespace Document

/-! ## Access -/

/-- The kind the document tells, empty without type information. -/
def kindName (d : Document) : String := (d.types.map TypeMeta.kind).getD ""

/-- The name, else the text from which a name is to be generated, else nothing. -/
def name (d : Document) : String :=
  let text (member : String) : Option String := (Members.get? member d.metadata).bind Json.text?
  ((text "name").or (text "generateName")).getD ""

/-- The document as one JSON value. -/
def toJson (d : Document) : Json :=
  let types : Members Json := match d.types with
    | some t => [("apiVersion", .text t.apiVersion), ("kind", .text t.kind)]
    | none => []
  .object (Members.putAll (types ++ [("metadata", .object d.metadata)]) d.data)

/-- The members in the order in which they are written: the type, the metadata, the data. -/
def entries (d : Document) : Members Json :=
  (match d.types with
    | some t => [("apiVersion", .text t.apiVersion), ("kind", .text t.kind)]
    | none => []) ++ ("metadata", .object d.metadata) :: d.data

/-- Sets a member of the metadata. -/
def setMetadata (member : String) (j : Json) (d : Document) : Document :=
  { d with metadata := Members.put member j d.metadata }

/-- Leaves a member of the metadata out. -/
def eraseMetadata (member : String) (d : Document) : Document :=
  { d with metadata := Members.erase member d.metadata }

/-- Applies `f` at the end of a path in the data. -/
def modifyData (path : List String) (f : Json → Json) (d : Document) : Document :=
  { d with data := ((Json.object d.data).modifyAt f path).members }

end Document

end WorkloadEnv
