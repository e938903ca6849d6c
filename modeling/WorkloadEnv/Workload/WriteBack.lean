import WorkloadEnv.Workload.Basic

/-! # Writing environments back

    The merged environments go back into the JSON they were read from, and
    nothing else of it changes: not the members the shapes do not name, nor the
    nulls, nor an entry of an environment that reads as what it should be. -/

namespace WorkloadEnv

namespace EnvVar

/-- Does the value read as exactly this variable? -/
def isReadFrom (e : EnvVar) (j : Json) : Bool :=
  match read j with
  | .ok e' => e' = e
  | .error _ => false

/-- Writes an environment over the entries of a list: an entry that reads as its
    variable stays, any other is replaced, and variables beyond the end are added. -/
def writeOver : List EnvVar → List Json → List Json
  | [], js => js
  | e :: es, [] => e.toJson :: writeOver es []
  | e :: es, j :: js => (if e.isReadFrom j then j else e.toJson) :: writeOver es js

end EnvVar

namespace Container

/-- Writes the environment of a container.  What is no list counts as an empty one. -/
def writeOver (c : Container) : Json → Json
  | .object ms =>
    match c.env with
    | some env =>
      let old := ((Members.get? "env" ms).map Json.items).getD []
      .object (Members.put "env" (.list (EnvVar.writeOver env old)) ms)
    | none => .object ms
  | j => j

/-- Writes the containers of a list, one after the other. -/
def writeEach : List Container → List Json → List Json
  | c :: cs, j :: js => c.writeOver j :: writeEach cs js
  | _, js => js

/-- Writes the containers of a list value. -/
def writeList (cs : List Container) : Json → Json
  | .list js => .list (writeEach cs js)
  | j => j

end Container

namespace PodSpec

/-- Writes the environments of a pod spec over the value it was read from. -/
def writeOver (p : PodSpec) (target : Json) : Json :=
  let target := target.modifyAt (Container.writeList p.containers) ["containers"]
  match p.initContainers with
  | some cs => target.modifyAt (Container.writeList cs) ["initContainers"]
  | none => target

end PodSpec

namespace Workload

/-- Where the pod spec of the template stands in a document. -/
def podSpecPath : List String := ["spec", "template", "spec"]

/-- The document with the overrides merged into every container and init
    container of its pod template. -/
def injectEnv (kind : WorkloadKind) (overrides : List EnvVar) (d : Document) :
    Except TransformError Document := do
  let w ← decode kind d
  match w.podSpec? with
  | some p => .ok (d.modifyData podSpecPath (p.mergeEnv overrides).writeOver)
  | none => .ok d

end Workload

end WorkloadEnv
