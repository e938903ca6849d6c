import WorkloadEnv.Decode.Shape

/-! # Shapes of object metadata

    The metadata every resource carries, label selectors, and the references
    from one object to another. -/

namespace WorkloadEnv.Kubernetes

/-! ## Vocabulary -/

/-- A member that is always written. -/
def must (name : String) (shape : Shape) : String × Presence × Shape := (name, .required, shape)

/-- A member that is written when present. -/
def may (name : String) (shape : Shape) : String × Presence × Shape := (name, .optional, shape)

/-- A record without fixed members. -/
def record (name : String) (members : List (String × Presence × Shape)) : Shape :=
  .record name [] members

/-- An amount with its unit, which is kept as it is written. -/
def quantity : Shape := .text

def texts : Shape := .list .text

def textMap : Shape := .map .text

def quantityMap : Shape := .map quantity

/-! ## Metadata -/

def managedFieldsEntry : Shape := record "ManagedFieldsEntry" [
  may "apiVersion" .text,
  may "fieldsType" .text,
  may "fieldsV1" .free,
  may "manager" .text,
  may "operation" .text,
  may "subresource" .text,
  may "time" .time]

def ownerReference : Shape := record "OwnerReference" [
  must "apiVersion" .text,
  may "blockOwnerDeletion" .bool,
  may "controller" .bool,
  must "kind" .text,
  must "name" .text,
  must "uid" .text]

def objectMeta : Shape := record "ObjectMeta" [
  may "annotations" textMap,
  may "creationTimestamp" .time,
  may "deletionGracePeriodSeconds" .int64,
  may "deletionTimestamp" .time,
  may "finalizers" texts,
  may "generateName" .text,
  may "generation" .int64,
  may "labels" textMap,
  may "managedFields" (.list managedFieldsEntry),
  may "name" .text,
  may "namespace" .text,
  may "ownerReferences" (.list ownerReference),
  may "resourceVersion" .text,
  may "selfLink" .text,
  may "uid" .text]

/-! ## Selectors and references -/

def labelSelectorRequirement : Shape := record "LabelSelectorRequirement" [
  must "key" .text,
  must "operator" .text,
  may "values" texts]

def labelSelector : Shape := record "LabelSelector" [
  may "matchExpressions" (.list labelSelectorRequirement),
  may "matchLabels" textMap]

def localObjectReference : Shape := record "LocalObjectReference" [
  must "name" .text]

def typedLocalObjectReference : Shape := record "TypedLocalObjectReference" [
  may "apiGroup" .text,
  must "kind" .text,
  must "name" .text]

def typedObjectReference : Shape := record "TypedObjectReference" [
  may "apiGroup" .text,
  must "kind" .text,
  must "name" .text,
  may "namespace" .text]

end WorkloadEnv.Kubernetes
