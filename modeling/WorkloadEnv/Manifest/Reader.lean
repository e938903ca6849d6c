import WorkloadEnv.Manifest.Basic
import WorkloadEnv.Manifest.Error
import WorkloadEnv.Yaml.Reader

/-! # Reading manifests

    The documents of a YAML stream become the resources of a manifest in their
    order.  Documents that are null are left out, and the first document that
    fails, to be read or to be a resource, fails the whole. -/

namespace WorkloadEnv

/-- The error of the manifest for a document that has no value. -/
def YamlError.ofReadFailure : Yaml.ReadFailure → YamlError
  | .malformed => malformed
  | .repetitionLimit => repetitionLimit

/-- Bytes to read, and the reason if they end in a failure. -/
structure ByteSource where
  bytes : ByteArray
  failure : Option String

namespace ByteSource

/-- Bytes that can be read to their end. -/
def ofBytes (bytes : ByteArray) : ByteSource := ⟨bytes, none⟩

/-- All of the text.  A failure to read counts before bytes that are no text. -/
def readText (source : ByteSource) : Except ManifestError String :=
  match source.failure, String.fromUTF8? source.bytes with
  | some reason, _ => .error (.stream reason)
  | none, some s => .ok s
  | none, none => .error (.stream "stream did not contain valid UTF-8")

end ByteSource

namespace Manifest

/-- What a document of the stream adds to the resources: nothing if it is null. -/
def resourceOf : Except Yaml.ReadFailure Yaml.Value → Except ManifestError (Option Document)
  | .error e => .error (.yaml (.ofReadFailure e))
  | .ok v =>
    if v.isNull then .ok none
    else match Document.read v with
      | .ok d => .ok (some d)
      | .error e => .error (.yaml (.document e))

/-- The resources of the documents of a stream. -/
def ofOutcomes : List (Except Yaml.ReadFailure Yaml.Value) → Except ManifestError (List Document)
  | [] => .ok []
  | o :: os => do
    let d ← resourceOf o
    let ds ← ofOutcomes os
    .ok (d.toList ++ ds)

/-- The manifest of a YAML text. -/
def ofYaml (s : String) : Except ManifestError Manifest :=
  (ofOutcomes (Yaml.read s)).map Manifest.mk

/-- The manifest that can be read from a source. -/
def ofSource (source : ByteSource) : Except ManifestError Manifest := do
  ofYaml (← source.readText)

end Manifest

end WorkloadEnv
