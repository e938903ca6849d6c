import WorkloadEnv.Workload.WriteBack

/-! # Transformers

    A transformer changes one document at a time and may fail.  The one of this
    library sets the minimum Kubernetes version in every workload; whether it
    does anything is decided when it is made, from the version it is given. -/

namespace WorkloadEnv

/-- Takes a document to the document it leaves behind, and the error if it failed.
    What it leaves behind on failure is not to be relied on. -/
abbrev Transformer := Document → Document × Option TransformError

/-- The variable that holds the minimum Kubernetes version, both where the
    program reads it and where it writes it. -/
def minVersionVariable : String := "KUBERNETES_MIN_VERSION"

/-- Sets the minimum Kubernetes version, or does nothing. -/
inductive MinVersionTransform where
  | disabled
  | enabled (overrides : List EnvVar)
  deriving DecidableEq, Repr

namespace MinVersionTransform

/-- Sets the given version; the empty one is none. -/
def ofVersion (version : String) : MinVersionTransform :=
  if version = "" then disabled else enabled [EnvVar.plain minVersionVariable version]

/-- Sets the given version, if there is one. -/
def ofVersion? (version : Option String) : MinVersionTransform :=
  (version.map ofVersion).getD disabled

def isEnabled : MinVersionTransform → Bool
  | disabled => false
  | enabled _ => true

/-- Injects the overrides into a workload and leaves its creation time out, so
    that applying again changes nothing.  Other documents stay as they are. -/
def apply (t : MinVersionTransform) (d : Document) : Except TransformError Document :=
  match t, WorkloadKind.ofDocument? d with
  | enabled overrides, some kind =>
    (Workload.injectEnv kind overrides d).map (Document.eraseMetadata "creationTimestamp")
  | _, _ => .ok d

/-- As a transformer; on failure the document is as it was. -/
def transformer (t : MinVersionTransform) : Transformer := fun d =>
  match t.apply d with
  | .ok d' => (d', none)
  | .error e => (d, some e)

end MinVersionTransform

end WorkloadEnv
