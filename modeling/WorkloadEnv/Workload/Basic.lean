import WorkloadEnv.EnvVar.Merge
import WorkloadEnv.Workload.Kind

/-! # Workloads

    A workload down to the environments of its containers.  Each level is a view
    of a normal form: the members that matter here as values of their own types,
    all others as they are.  Overrides are merged into the containers and the
    init containers of the pod template. -/

namespace WorkloadEnv

/-! ## Levels -/

structure Container where
  env : Option (List EnvVar)
  others : Members Json
  deriving Repr

structure PodSpec where
  containers : List Container
  initContainers : Option (List Container)
  others : Members Json
  deriving Repr

structure PodTemplate where
  spec : Option PodSpec
  others : Members Json
  deriving Repr

structure WorkloadSpec where
  template : PodTemplate
  others : Members Json
  deriving Repr

structure Workload where
  spec : Option WorkloadSpec
  others : Members Json
  deriving Repr

namespace Members

/-- Sets a member that is present, and leaves an absent one out. -/
def putPresent {α : Type} (name : String) (a : Option α) (ms : Members α) : Members α :=
  match a with
  | some a => put name a ms
  | none => ms

end Members

/-! ## Views of a normal form -/

namespace Container

def ofNormal (j : Json) : Container where
  env := (j.get? "env").map fun env => env.items.map EnvVar.ofNormal
  others := Members.erase "env" j.members

def toJson (c : Container) : Json :=
  .object (Members.putPresent "env" (c.env.map EnvVar.listToJson) c.others)

/-- The name of the container. -/
def name (c : Container) : String := (Json.object c.others).textAt "name"

/-- Merges overrides into the environment. -/
def mergeEnv (overrides : List EnvVar) (c : Container) : Container :=
  { c with env := EnvVar.mergeOptional overrides c.env }

end Container

namespace PodSpec

def ofNormal (j : Json) : PodSpec where
  containers := ((j.get? "containers").map fun cs => cs.items.map Container.ofNormal).getD []
  initContainers := (j.get? "initContainers").map fun cs => cs.items.map Container.ofNormal
  others := Members.erase "containers" (Members.erase "initContainers" j.members)

def toJson (p : PodSpec) : Json :=
  .object (Members.put "containers" (.list (p.containers.map Container.toJson))
    (Members.putPresent "initContainers"
      (p.initContainers.map fun cs => .list (cs.map Container.toJson)) p.others))

/-- The pod spec that a value stands for. -/
def read {α : Type} [Source α] (v : α) : Except DecodeError PodSpec :=
  (Kubernetes.podSpec.read v).map ofNormal

/-- The pod spec of which nothing is given. -/
def empty : PodSpec := ⟨[], none, []⟩

/-- Merges overrides into every container and init container. -/
def mergeEnv (overrides : List EnvVar) (p : PodSpec) : PodSpec :=
  { p with
    containers := p.containers.map (Container.mergeEnv overrides)
    initContainers := p.initContainers.map (List.map (Container.mergeEnv overrides)) }

end PodSpec

namespace PodTemplate

def ofNormal (j : Json) : PodTemplate where
  spec := (j.get? "spec").map PodSpec.ofNormal
  others := Members.erase "spec" j.members

def toJson (t : PodTemplate) : Json :=
  .object (Members.putPresent "spec" (t.spec.map PodSpec.toJson) t.others)

end PodTemplate

namespace WorkloadSpec

def ofNormal (j : Json) : WorkloadSpec where
  template := PodTemplate.ofNormal ((j.get? "template").getD (.object []))
  others := Members.erase "template" j.members

def toJson (s : WorkloadSpec) : Json :=
  .object (Members.put "template" s.template.toJson s.others)

end WorkloadSpec

namespace Workload

def ofNormal (j : Json) : Workload where
  spec := (j.get? "spec").map WorkloadSpec.ofNormal
  others := Members.erase "spec" j.members

def toJson (w : Workload) : Json :=
  .object (Members.putPresent "spec" (w.spec.map WorkloadSpec.toJson) w.others)

/-- The pod spec of the template, if the workload has one. -/
def podSpec? (w : Workload) : Option PodSpec := w.spec.bind fun s => s.template.spec

/-- Changes the pod spec of the template. -/
def modifyPodSpec (f : PodSpec → PodSpec) (w : Workload) : Workload :=
  { w with spec := w.spec.map fun s =>
      { s with template := { s.template with spec := s.template.spec.map f } } }

/-- Reads a document as a workload of the kind. -/
def decode (kind : WorkloadKind) (d : Document) : Except TransformError Workload :=
  match kind.shape.read d.toJson with
  | .ok j => .ok (ofNormal j)
  | .error cause => .error (.decode kind d.name cause)

end Workload

end WorkloadEnv
