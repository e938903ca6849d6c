import WorkloadEnv.Kubernetes.Container

/-! # Shapes of pods

    Where a pod is scheduled, how it is named and run, and the template from
    which pods are made. -/

namespace WorkloadEnv.Kubernetes

/-! ## Affinity -/

def nodeSelectorRequirement : Shape := record "NodeSelectorRequirement" [
  must "key" .text,
  must "operator" .text,
  may "values" texts]

def nodeSelectorTerm : Shape := record "NodeSelectorTerm" [
  may "matchExpressions" (.list nodeSelectorRequirement),
  may "matchFields" (.list nodeSelectorRequirement)]

def nodeSelector : Shape := record "NodeSelector" [
  must "nodeSelectorTerms" (.list nodeSelectorTerm)]

def preferredSchedulingTerm : Shape := record "PreferredSchedulingTerm" [
  must "preference" nodeSelectorTerm,
  must "weight" .int32]

def nodeAffinity : Shape := record "NodeAffinity" [
  may "preferredDuringSchedulingIgnoredDuringExecution" (.list preferredSchedulingTerm),
  may "requiredDuringSchedulingIgnoredDuringExecution" nodeSelector]

def podAffinityTerm : Shape := record "PodAffinityTerm" [
  may "labelSelector" labelSelector,
  may "namespaceSelector" labelSelector,
  may "namespaces" texts,
  must "topologyKey" .text]

def weightedPodAffinityTerm : Shape := record "WeightedPodAffinityTerm" [
  must "podAffinityTerm" podAffinityTerm,
  must "weight" .int32]

def podAffinity : Shape := record "PodAffinity" [
  may "preferredDuringSchedulingIgnoredDuringExecution" (.list weightedPodAffinityTerm),
  may "requiredDuringSchedulingIgnoredDuringExecution" (.list podAffinityTerm)]

def podAntiAffinity : Shape := record "PodAntiAffinity" [
  may "preferredDuringSchedulingIgnoredDuringExecution" (.list weightedPodAffinityTerm),
  may "requiredDuringSchedulingIgnoredDuringExecution" (.list podAffinityTerm)]

def affinity : Shape := record "Affinity" [
  may "nodeAffinity" nodeAffinity,
  may "podAffinity" podAffinity,
  may "podAntiAffinity" podAntiAffinity]

/-! ## Settings of a pod -/

def podDNSConfigOption : Shape := record "PodDNSConfigOption" [
  may "name" .text,
  may "value" .text]

def podDNSConfig : Shape := record "PodDNSConfig" [
  may "nameservers" texts,
  may "options" (.list podDNSConfigOption),
  may "searches" texts]

def hostAlias : Shape := record "HostAlias" [
  may "hostnames" texts,
  must "ip" .text]

def podOS : Shape := record "PodOS" [
  must "name" .text]

def podReadinessGate : Shape := record "PodReadinessGate" [
  must "conditionType" .text]

def claimSource : Shape := record "ClaimSource" [
  may "resourceClaimName" .text,
  may "resourceClaimTemplateName" .text]

def podResourceClaim : Shape := record "PodResourceClaim" [
  must "name" .text,
  may "source" claimSource]

def podSchedulingGate : Shape := record "PodSchedulingGate" [
  must "name" .text]

def sysctl : Shape := record "Sysctl" [
  must "name" .text,
  must "value" .text]

def podSecurityContext : Shape := record "PodSecurityContext" [
  may "fsGroup" .int64,
  may "fsGroupChangePolicy" .text,
  may "runAsGroup" .int64,
  may "runAsNonRoot" .bool,
  may "runAsUser" .int64,
  may "seLinuxOptions" seLinuxOptions,
  may "seccompProfile" seccompProfile,
  may "supplementalGroups" (.list .int64),
  may "sysctls" (.list sysctl),
  may "windowsOptions" windowsSecurityContextOptions]

def toleration : Shape := record "Toleration" [
  may "effect" .text,
  may "key" .text,
  may "operator" .text,
  may "tolerationSeconds" .int64,
  may "value" .text]

def topologySpreadConstraint : Shape := record "TopologySpreadConstraint" [
  may "labelSelector" labelSelector,
  may "matchLabelKeys" texts,
  must "maxSkew" .int32,
  may "minDomains" .int32,
  may "nodeAffinityPolicy" .text,
  may "nodeTaintsPolicy" .text,
  must "topologyKey" .text,
  must "whenUnsatisfiable" .text]

/-! ## Pods -/

def podSpec : Shape := record "PodSpec" [
  may "activeDeadlineSeconds" .int64,
  may "affinity" affinity,
  may "automountServiceAccountToken" .bool,
  must "containers" (.list container),
  may "dnsConfig" podDNSConfig,
  may "dnsPolicy" .text,
  may "enableServiceLinks" .bool,
  may "ephemeralContainers" (.list ephemeralContainer),
  may "hostAliases" (.list hostAlias),
  may "hostIPC" .bool,
  may "hostNetwork" .bool,
  may "hostPID" .bool,
  may "hostUsers" .bool,
  may "hostname" .text,
  may "imagePullSecrets" (.list localObjectReference),
  may "initContainers" (.list container),
  may "nodeName" .text,
  may "nodeSelector" textMap,
  may "os" podOS,
  may "overhead" quantityMap,
  may "preemptionPolicy" .text,
  may "priority" .int32,
  may "priorityClassName" .text,
  may "readinessGates" (.list podReadinessGate),
  may "resourceClaims" (.list podResourceClaim),
  may "restartPolicy" .text,
  may "runtimeClassName" .text,
  may "schedulerName" .text,
  may "schedulingGates" (.list podSchedulingGate),
  may "securityContext" podSecurityContext,
  may "serviceAccount" .text,
  may "serviceAccountName" .text,
  may "setHostnameAsFQDN" .bool,
  may "shareProcessNamespace" .bool,
  may "subdomain" .text,
  may "terminationGracePeriodSeconds" .int64,
  may "tolerations" (.list toleration),
  may "topologySpreadConstraints" (.list topologySpreadConstraint),
  may "volumes" (.list volume)]

def podTemplateSpec : Shape := record "PodTemplateSpec" [
  may "metadata" objectMeta,
  may "spec" podSpec]

end WorkloadEnv.Kubernetes
