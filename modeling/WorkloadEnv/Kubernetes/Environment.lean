import WorkloadEnv.Kubernetes.Metadata

/-! # Shapes of environment variables

    The entries of a container's environment, and what an entry may take its
    value from. -/

namespace WorkloadEnv.Kubernetes

def configMapKeySelector : Shape := record "ConfigMapKeySelector" [
  must "key" .text,
  must "name" .text,
  may "optional" .bool]

def secretKeySelector : Shape := record "SecretKeySelector" [
  must "key" .text,
  must "name" .text,
  may "optional" .bool]

def objectFieldSelector : Shape := record "ObjectFieldSelector" [
  may "apiVersion" .text,
  must "fieldPath" .text]

def resourceFieldSelector : Shape := record "ResourceFieldSelector" [
  may "containerName" .text,
  may "divisor" quantity,
  must "resource" .text]

def envVarSource : Shape := record "EnvVarSource" [
  may "configMapKeyRef" configMapKeySelector,
  may "fieldRef" objectFieldSelector,
  may "resourceFieldRef" resourceFieldSelector,
  may "secretKeyRef" secretKeySelector]

def envVar : Shape := record "EnvVar" [
  must "name" .text,
  may "value" .text,
  may "valueFrom" envVarSource]

def configMapEnvSource : Shape := record "ConfigMapEnvSource" [
  must "name" .text,
  may "optional" .bool]

def secretEnvSource : Shape := record "SecretEnvSource" [
  must "name" .text,
  may "optional" .bool]

def envFromSource : Shape := record "EnvFromSource" [
  may "configMapRef" configMapEnvSource,
  may "prefix" .text,
  may "secretRef" secretEnvSource]

end WorkloadEnv.Kubernetes
