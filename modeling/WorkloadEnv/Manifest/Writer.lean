import WorkloadEnv.Manifest.Basic
import WorkloadEnv.Manifest.Error
import WorkloadEnv.Yaml.Writer

/-! # Writing manifests

    The resources are written as YAML documents with a separator between them,
    into a sink that may refuse to take more at any byte. -/

namespace WorkloadEnv

/-! ## Sinks -/

/-- Bytes that were written, and the room there is for more, if it is limited. -/
structure Sink where
  written : ByteArray
  room : Option Nat

namespace Sink

def empty (room : Option Nat) : Sink := ⟨ByteArray.empty, room⟩

/-- Takes as many bytes as there is room for, and tells whether they were all. -/
def write (bytes : ByteArray) (s : Sink) : Sink × Bool :=
  match s.room with
  | none => (⟨s.written ++ bytes, none⟩, true)
  | some room =>
    (⟨s.written ++ bytes.extract 0 (min room bytes.size), some (room - bytes.size)⟩,
      bytes.size ≤ room)

end Sink

namespace Manifest

/-! ## The text of a manifest -/

/-- What stands between two documents. -/
def separator : String := "---\n"

/-- A resource as a YAML document. -/
def documentText (d : Document) : String := Yaml.writeDocument d.entries

/-- The whole text. -/
def toYaml (m : Manifest) : String := separator.intercalate (m.resources.map documentText)

/-! ## Writing into a sink -/

/-- Why a sink refuses bytes. -/
def fullReason : String := "writer is full"

/-- Writes a document; to be refused is an error of the YAML part. -/
def writeDocument (d : Document) (s : Sink) : Sink × Option ManifestError :=
  let (s, ok) := s.write (documentText d).toUTF8
  (s, if ok then none else some (.yaml (.refused fullReason)))

/-- Writes further documents, each after a separator. -/
def writeMore : List Document → Sink → Sink × Option ManifestError
  | [], s => (s, none)
  | d :: ds, s =>
    match s.write separator.toUTF8 with
    | (s, false) => (s, some (.stream fullReason))
    | (s, true) =>
      match writeDocument d s with
      | (s, some e) => (s, some e)
      | (s, none) => writeMore ds s

/-- Writes a manifest. -/
def write (m : Manifest) (s : Sink) : Sink × Option ManifestError :=
  match m.resources with
  | [] => (s, none)
  | d :: ds =>
    match writeDocument d s with
    | (s, some e) => (s, some e)
    | (s, none) => writeMore ds s

end Manifest

end WorkloadEnv
