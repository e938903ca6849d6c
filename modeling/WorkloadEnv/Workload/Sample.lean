import WorkloadEnv.Workload.WriteBack

/-! # Sample workloads

    Workloads of each kind around a given pod spec, with just enough beside it
    to be complete. -/

namespace WorkloadEnv.Sample

/-! ## Pod specs -/

/-- A container of the given name, with an image and an environment if given. -/
def container (name : String) (image : Option String) (env : Option (List EnvVar)) : Container where
  env
  others := Members.putPresent "image" (image.map Json.text) [("name", .text name)]

/-- A pod spec in which some containers have a stale entry of the given name. -/
def podSpec (key : String) : PodSpec where
  containers := [
    container "controller" (some "gcr.io/knative/controller:latest")
      (some [EnvVar.plain "EXISTING" "1", EnvVar.plain key "v1.20.0"]),
    container "webhook" (some "gcr.io/knative/webhook:latest") none]
  initContainers := some [
    container "init-a" none none,
    container "init-b" none (some [EnvVar.plain key "v1.19.0"])]
  others := []

/-! ## Workloads -/

def labels (name : String) : Json := .object [("app", .text name)]

def metadata (name : String) : Json :=
  .object [("labels", labels name), ("name", .text name), ("namespace", .text "knative-serving")]

def selector (name : String) : Json := .object [("matchLabels", labels name)]

/-- The pods of a job run to completion and are never restarted. -/
def restart (kind : WorkloadKind) (p : PodSpec) : PodSpec :=
  match kind with
  | .job => { p with others := Members.put "restartPolicy" (.text "Never") p.others }
  | _ => p

/-- The members of the spec beside the template. -/
def settings (kind : WorkloadKind) (name : String) : Members Json :=
  match kind with
  | .deployment => [("replicas", .int 2), ("selector", selector name)]
  | .statefulSet => [("replicas", .int 1), ("selector", selector name), ("serviceName", .text "")]
  | .daemonSet => [("selector", selector name)]
  | .job => [("backoffLimit", .int 3)]

/-- The version of the group a kind belongs to. -/
def apiVersion : WorkloadKind → String
  | .job => "batch/v1"
  | _ => "apps/v1"

/-- A workload of the kind around a pod spec. -/
def typed (kind : WorkloadKind) (name : String) (p : PodSpec) : Workload where
  spec := some {
    template := {
      spec := some (restart kind p)
      others := [("metadata", .object [("labels", labels name)])] }
    others := settings kind name }
  others := [
    ("apiVersion", .text (apiVersion kind)),
    ("kind", .text kind.name),
    ("metadata", metadata name)]

/-- A workload of the kind around a pod spec, as a document. -/
def document (kind : WorkloadKind) (name : String) (p : PodSpec) : Except DecodeError Document :=
  Document.read (typed kind name p).toJson

/-- The pod spec of a document, if that is a workload; without one it is the empty one. -/
def podSpecOf? (d : Document) : Option PodSpec := do
  let kind ← WorkloadKind.ofDocument? d
  let w ← (Workload.decode kind d).toOption
  some (w.podSpec?.getD .empty)

end WorkloadEnv.Sample
