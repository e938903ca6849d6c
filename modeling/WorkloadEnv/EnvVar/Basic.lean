import WorkloadEnv.Kubernetes.Environment

/-! # Environment variables

    An entry of a container's environment: a name with a value, or with the
    place the value is taken from.  Each type has a view of a normal form
    (`ofNormal`) and a written form (`toJson`); reading is the normal form under
    the shape of the type, then the view. -/

namespace WorkloadEnv

/-! ## Members of a normal form -/

namespace Json

/-- A required text member of a normal form. -/
def textAt (name : String) (j : Json) : String := ((j.get? name).bind text?).getD ""

/-- An optional text member of a normal form. -/
def textAt? (name : String) (j : Json) : Option String := (j.get? name).bind text?

/-- An optional flag of a normal form. -/
def boolAt? (name : String) (j : Json) : Option Bool :=
  (j.get? name).bind fun
    | bool b => some b
    | _ => none

/-- The object of the members that are present. -/
def ofPresent (ms : List (String × Option Json)) : Json :=
  object (ms.filterMap fun m => m.2.map (m.1, ·))

end Json

/-! ## Where a value is taken from -/

/-- A key of a config map or of a secret. -/
structure KeySelector where
  key : String
  name : String
  isOptional : Option Bool
  deriving DecidableEq, Repr

/-- A field of the pod. -/
structure FieldSelector where
  apiVersion : Option String
  fieldPath : String
  deriving DecidableEq, Repr

/-- A resource of a container. -/
structure ResourceSelector where
  containerName : Option String
  divisor : Option String
  resource : String
  deriving DecidableEq, Repr

/-- Where the value of a variable is taken from. -/
structure EnvVarSource where
  configMapKeyRef : Option KeySelector
  fieldRef : Option FieldSelector
  resourceFieldRef : Option ResourceSelector
  secretKeyRef : Option KeySelector
  deriving DecidableEq, Repr

/-- One variable. -/
structure EnvVar where
  name : String
  value : Option String
  valueFrom : Option EnvVarSource
  deriving DecidableEq, Repr

namespace KeySelector

def ofNormal (j : Json) : KeySelector :=
  ⟨j.textAt "key", j.textAt "name", j.boolAt? "optional"⟩

def toJson (s : KeySelector) : Json := .ofPresent [
  ("key", some (.text s.key)),
  ("name", some (.text s.name)),
  ("optional", s.isOptional.map .bool)]

end KeySelector

namespace FieldSelector

def ofNormal (j : Json) : FieldSelector := ⟨j.textAt? "apiVersion", j.textAt "fieldPath"⟩

def toJson (s : FieldSelector) : Json := .ofPresent [
  ("apiVersion", s.apiVersion.map .text),
  ("fieldPath", some (.text s.fieldPath))]

end FieldSelector

namespace ResourceSelector

def ofNormal (j : Json) : ResourceSelector :=
  ⟨j.textAt? "containerName", j.textAt? "divisor", j.textAt "resource"⟩

def toJson (s : ResourceSelector) : Json := .ofPresent [
  ("containerName", s.containerName.map .text),
  ("divisor", s.divisor.map .text),
  ("resource", some (.text s.resource))]

end ResourceSelector

namespace EnvVarSource

def ofNormal (j : Json) : EnvVarSource where
  configMapKeyRef := (j.get? "configMapKeyRef").map KeySelector.ofNormal
  fieldRef := (j.get? "fieldRef").map FieldSelector.ofNormal
  resourceFieldRef := (j.get? "resourceFieldRef").map ResourceSelector.ofNormal
  secretKeyRef := (j.get? "secretKeyRef").map KeySelector.ofNormal

def toJson (s : EnvVarSource) : Json := .ofPresent [
  ("configMapKeyRef", s.configMapKeyRef.map KeySelector.toJson),
  ("fieldRef", s.fieldRef.map FieldSelector.toJson),
  ("resourceFieldRef", s.resourceFieldRef.map ResourceSelector.toJson),
  ("secretKeyRef", s.secretKeyRef.map KeySelector.toJson)]

end EnvVarSource

namespace EnvVar

/-- A plain variable with a value. -/
def plain (name value : String) : EnvVar := ⟨name, some value, none⟩

def ofNormal (j : Json) : EnvVar where
  name := j.textAt "name"
  value := j.textAt? "value"
  valueFrom := (j.get? "valueFrom").map EnvVarSource.ofNormal

def toJson (e : EnvVar) : Json := .ofPresent [
  ("name", some (.text e.name)),
  ("value", e.value.map .text),
  ("valueFrom", e.valueFrom.map EnvVarSource.toJson)]

/-- The variable that a value stands for. -/
def read {α : Type} [Source α] (v : α) : Except DecodeError EnvVar :=
  (Kubernetes.envVar.read v).map ofNormal

/-- The variables of a list. -/
def readList {α : Type} [Source α] (v : α) : Except DecodeError (List EnvVar) :=
  ((Shape.list Kubernetes.envVar).read v).map fun j => j.items.map ofNormal

/-- A list of variables as it is written. -/
def listToJson (es : List EnvVar) : Json := .list (es.map toJson)

end EnvVar

end WorkloadEnv
