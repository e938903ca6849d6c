import WorkloadEnv.Document.Reader
import WorkloadEnv.Json.Reader
import WorkloadEnv.Kubernetes.Workload

/-! # Kinds of workload

    The kinds of resource whose pod template takes overrides, and the ways in
    which work on one of them can fail. -/

namespace WorkloadEnv

inductive WorkloadKind where
  | deployment
  | statefulSet
  | daemonSet
  | job
  deriving DecidableEq, Repr

namespace WorkloadKind

/-- The kind as a document tells it. -/
def name : WorkloadKind → String
  | deployment => "Deployment"
  | statefulSet => "StatefulSet"
  | daemonSet => "DaemonSet"
  | job => "Job"

def all : List WorkloadKind := [deployment, statefulSet, daemonSet, job]

/-- The kind of exactly that name. -/
def ofName? (s : String) : Option WorkloadKind := all.find? fun k => k.name = s

@[simp] theorem ofName?_name (k : WorkloadKind) : ofName? k.name = some k := by
  cases k <;> decide

/-- What a workload of the kind looks like. -/
def shape : WorkloadKind → Shape
  | deployment => Kubernetes.deployment
  | statefulSet => Kubernetes.statefulSet
  | daemonSet => Kubernetes.daemonSet
  | job => Kubernetes.job

/-- The kind of a document, if it is a workload. -/
def ofDocument? (d : Document) : Option WorkloadKind :=
  d.types.bind fun t => ofName? t.kind

end WorkloadKind

/-- Why a resource could not be transformed. -/
inductive TransformError where
  /-- The document is no workload of its kind. -/
  | decode (kind : WorkloadKind) (name : String) (cause : DecodeError)
  /-- The environment could not be written. -/
  | encode (kind : WorkloadKind) (name : String) (cause : Json.TextError)
  deriving DecidableEq, Repr

def TransformError.message : TransformError → String
  | decode kind name cause =>
    "failed to decode `" ++ name ++ "` as " ++ kind.name ++ ": " ++ cause.message .json
  | encode kind name cause =>
    "failed to encode the env of " ++ kind.name ++ " `" ++ name ++ "`: " ++ cause.message

end WorkloadEnv
